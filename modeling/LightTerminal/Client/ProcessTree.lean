import LightTerminal.Data.Text
import LightTerminal.Library.FiniteMap
import LightTerminal.Library.Traversal

/-! # The process report

`build_process_tree_from_rows` sorts the rows of `ps` under the sessions (`client.rs`). For each session
the report has the processes below its leader, and then, if asked for, the orphans: what is left of the
session's process group. One set of pids is shared by all sessions, so a pid is reported once.

* `append_eq_visit`: `append` is a depth-first traversal of the links from a parent to its children;
* `Part`: what one session adds to the report, and `Builder.Sound`: what holds between two sessions;
* `process_report`: the report of any sessions over any table. -/

namespace LightTerminal.Client.ProcessTree

open LightTerminal.Data.Text LightTerminal.Library.FiniteMap LightTerminal.Library.Traversal

/-- `ProcessRow`; the two `f32` are kept as their bits. -/
structure ProcessRow where
  pid : ℕ
  ppid : ℕ
  pgid : ℤ
  stat : Str
  cpuPercent : UInt32
  memPercent : UInt32
  rssKib : ℕ
  elapsed : Str
  command : Str
  deriving DecidableEq

/-- `ProcessInfo`. -/
structure ProcessInfo where
  session : Str
  paneId : Str
  depth : ℕ
  pid : ℕ
  ppid : ℕ
  processGroupId : Option ℤ
  orphan : Bool
  stat : Str
  cpuPercent : UInt32
  memPercent : UInt32
  rssKib : ℕ
  elapsed : Str
  command : Str
  deriving DecidableEq

/-- What the report reads of `SessionInfo`. -/
structure SessionInfo where
  name : Str
  paneId : Str
  processId : Option ℕ
  processGroupId : Option ℤ
  deriving DecidableEq

/-- `children.sort_by_key(|p| p.pid)`, which is stable. -/
def sortByPid (rows : List ProcessRow) : List ProcessRow := rows.insertionSort fun a b => a.pid ≤ b.pid

/-- `by_parent` and `by_pid`. -/
structure Tables where
  byParent : Map ℕ (List ProcessRow) := ∅
  byPid : Map ℕ ProcessRow := ∅

/-- One row of the table: `by_pid` keeps the last one of a pid. -/
def Tables.add (tables : Tables) (process : ProcessRow) : Tables where
  byParent := tables.byParent.insert process.ppid
    (((tables.byParent.lookup process.ppid).getD []) ++ [process])
  byPid := tables.byPid.insert process.pid process

/-- The maps that the report is built from. -/
def tablesOf (processes : List ProcessRow) : Tables :=
  let tables := processes.foldl Tables.add {}
  { tables with byParent := mapValues sortByPid tables.byParent }

/-- An order in which a `HashMap` gives out its keys. -/
structure Iteration where
  order : Finset ℕ → List ℕ
  order_perm : ∀ keys, (order keys : Multiset ℕ) = keys.val

/-- `by_pid.values()`. -/
def Iteration.values (iteration : Iteration) (byPid : Map ℕ ProcessRow) : List ProcessRow :=
  (iteration.order byPid.keys).filterMap byPid.lookup

/-- `ProcessTreeBuilder`. -/
structure Builder where
  seen : Finset ℕ := ∅
  processes : List ProcessInfo := []

/-- The entry for a row. -/
def processInfo (session : SessionInfo) (row : ProcessRow) (depth : ℕ) (orphan : Bool) : ProcessInfo where
  session := session.name
  paneId := session.paneId
  depth := depth
  pid := row.pid
  ppid := row.ppid
  processGroupId := some row.pgid
  orphan := orphan
  stat := row.stat
  cpuPercent := row.cpuPercent
  memPercent := row.memPercent
  rssKib := row.rssKib
  elapsed := row.elapsed
  command := row.command

namespace Builder

/-- `append`; `none` if more than `fuel` calls are within each other. -/
def append (tables : Tables) (session : SessionInfo) : ℕ → Builder → ℕ → ℕ → Option Builder
  | 0, _, _, _ => none
  | fuel + 1, builder, pid, depth =>
    if pid ∈ builder.seen then some builder
    else
      let builder : Builder :=
        { seen := insert pid builder.seen
          processes := match tables.byPid.lookup pid with
            | some row => builder.processes ++ [processInfo session row depth false]
            | none => builder.processes }
      match tables.byParent.lookup pid with
      | some children =>
        children.foldlM (fun builder child => append tables session fuel builder child.pid (depth + 1)) builder
      | none => some builder

/-- One turn of the loop of `append_orphans`. -/
def pushOrphan (session : SessionInfo) (depth : ℕ) (builder : Builder) (row : ProcessRow) : Builder :=
  if row.pid ∈ builder.seen then builder
  else
    { seen := insert row.pid builder.seen
      processes := builder.processes ++ [processInfo session row depth true] }

/-- `append_orphans`. -/
def appendOrphans (iteration : Iteration) (tables : Tables) (builder : Builder) (session : SessionInfo)
    (depth : ℕ) : Builder :=
  match session.processGroupId with
  | none => builder
  | some processGroupId =>
    let rows := sortByPid ((iteration.values tables.byPid).filter fun row =>
      row.pgid = processGroupId ∧ row.pid ∉ builder.seen)
    rows.foldl (pushOrphan session depth) builder

/-- The loop over the sessions in `build_process_tree_from_rows`, for one of them. -/
def appendSession (iteration : Iteration) (tables : Tables) (includeOrphans : Bool) (fuel : ℕ)
    (builder : Builder) (session : SessionInfo) : Option Builder := do
  let builder ← (match session.processId with
    | some root => builder.append tables session fuel root 0
    | none => some builder)
  return if includeOrphans then builder.appendOrphans iteration tables session 1 else builder

end Builder

/-- `build_process_tree_from_rows`; `none` if `fuel` calls of `append` within each other are too few. -/
def buildProcessTreeFromRows (iteration : Iteration) (fuel : ℕ) (sessions : List SessionInfo)
    (processes : List ProcessRow) (includeOrphans : Bool) : Option (List ProcessInfo) := do
  let tables := tablesOf processes
  let builder ← sessions.foldlM (Builder.appendSession iteration tables includeOrphans fuel) {}
  return builder.processes

/-! ### The table -/

/-- A row of the table leads from its `ppid` to its pid. -/
def Link (rows : List ProcessRow) (parent child : ℕ) : Prop :=
  ∃ row ∈ rows, row.ppid = parent ∧ row.pid = child

/-- The last row of its pid. -/
def Last (rows : List ProcessRow) (row : ProcessRow) : Prop :=
  ∃ before after, rows = before ++ row :: after ∧ ∀ other ∈ after, other.pid ≠ row.pid

variable {rows : List ProcessRow}

theorem last_concat {row process : ProcessRow} :
    Last (rows ++ [process]) row ↔ row = process ∨ (row.pid ≠ process.pid ∧ Last rows row) := by
  constructor
  · rintro ⟨before, after, heq, hafter⟩
    rcases List.eq_nil_or_concat after with rfl | ⟨after', other, rfl⟩
    · left
      exact (List.append_inj' heq rfl).2 |> List.singleton_injective |> Eq.symm
    · right
      rw [List.concat_eq_append, ← List.cons_append, ← List.append_assoc] at heq
      obtain ⟨hrows, hother⟩ := List.append_inj' heq rfl
      have hlast : process = other := List.singleton_injective hother
      refine ⟨?_, before, after', hrows, fun q hq => hafter q ?_⟩
      · rw [hlast]
        exact (hafter other (by simp)).symm
      · rw [List.concat_eq_append]
        exact List.mem_append_left _ hq
  · rintro (rfl | ⟨hne, before, after, rfl, hafter⟩)
    · exact ⟨rows, [], rfl, fun other hother => absurd hother List.not_mem_nil⟩
    · refine ⟨before, after ++ [process], by rw [List.append_assoc, List.cons_append], ?_⟩
      intro other hother
      rcases List.mem_append.mp hother with hother | hother
      · exact hafter other hother
      · rw [List.mem_singleton.mp hother]
        exact hne.symm

theorem Last.mem {row : ProcessRow} (h : Last rows row) : row ∈ rows := by
  obtain ⟨before, after, rfl, -⟩ := h
  exact List.mem_append_right _ List.mem_cons_self

/-- Without a repeated pid each row is the last of its pid. -/
theorem last_iff_mem (hpids : (rows.map ProcessRow.pid).Nodup) {row : ProcessRow} :
    Last rows row ↔ row ∈ rows := by
  refine ⟨Last.mem, fun hrow => ?_⟩
  obtain ⟨before, after, rfl⟩ := List.append_of_mem hrow
  refine ⟨before, after, rfl, fun other hother heq => ?_⟩
  rw [List.map_append, List.map_cons] at hpids
  have hcons := (List.nodup_cons.mp (List.nodup_append.mp hpids).2.1).1
  exact hcons (heq ▸ List.mem_map_of_mem hother)

theorem lookup_byPid (rows : List ProcessRow) (pid : ℕ) (row : ProcessRow) :
    (tablesOf rows).byPid.lookup pid = some row ↔ row.pid = pid ∧ Last rows row := by
  show (rows.foldl Tables.add {}).byPid.lookup pid = some row ↔ _
  induction rows using List.reverseRecOn with
  | nil =>
    constructor
    · intro h
      have hempty : (∅ : Map ℕ ProcessRow).lookup pid = some row := h
      rw [Finmap.lookup_empty] at hempty
      cases hempty
    · rintro ⟨-, h⟩
      exact absurd h.mem List.not_mem_nil
  | append_singleton rows process ih =>
    rw [List.foldl_append, List.foldl_cons, List.foldl_nil, Tables.add, lookup_insert, last_concat]
    split_ifs with hpid
    · constructor
      · intro h
        cases h
        exact ⟨hpid.symm, .inl rfl⟩
      · rintro ⟨hrow, rfl | ⟨hne, -⟩⟩
        · rfl
        · exact absurd (hrow.trans hpid) hne
    · rw [ih]
      constructor
      · rintro ⟨hrow, hlast⟩
        exact ⟨hrow, .inr ⟨fun heq => hpid (hrow.symm.trans heq), hlast⟩⟩
      · rintro ⟨hrow, rfl | ⟨-, hlast⟩⟩
        · exact absurd hrow.symm hpid
        · exact ⟨hrow, hlast⟩

/-- The last rows are told apart by their pids. -/
theorem Last.unique {row row' : ProcessRow} (h : Last rows row) (h' : Last rows row')
    (hpid : row.pid = row'.pid) : row = row' := by
  have hrow := (lookup_byPid rows row.pid row).mpr ⟨rfl, h⟩
  have hrow' := (lookup_byPid rows row.pid row').mpr ⟨hpid.symm, h'⟩
  exact Option.some.inj (hrow.symm.trans hrow')

theorem exists_last {row : ProcessRow} (h : row ∈ rows) : ∃ row', Last rows row' ∧ row'.pid = row.pid := by
  induction rows using List.reverseRecOn with
  | nil => cases h
  | append_singleton rows process ih =>
    by_cases hpid : row.pid = process.pid
    · exact ⟨process, last_concat.mpr (.inl rfl), hpid.symm⟩
    · rcases List.mem_append.mp h with h | h
      · obtain ⟨row', hlast, hrow'⟩ := ih h
        exact ⟨row', last_concat.mpr (.inr ⟨fun heq => hpid (hrow'.symm.trans heq), hlast⟩), hrow'⟩
      · rw [List.mem_singleton] at h
        exact absurd (congrArg ProcessRow.pid h) hpid

theorem lookup_byParent (rows : List ProcessRow) (ppid : ℕ) :
    (((tablesOf rows).byParent.lookup ppid).getD []) =
      sortByPid (rows.filter fun row => row.ppid = ppid) := by
  have hgroups : ((rows.foldl Tables.add {}).byParent.lookup ppid).getD [] =
      rows.filter fun row => row.ppid = ppid := by
    induction rows using List.reverseRecOn with
    | nil =>
      show ((∅ : Map ℕ (List ProcessRow)).lookup ppid).getD [] = []
      rw [Finmap.lookup_empty]
      rfl
    | append_singleton rows process ih =>
      rw [List.foldl_append, List.foldl_cons, List.foldl_nil, Tables.add, lookup_insert,
        List.filter_append]
      by_cases hppid : ppid = process.ppid
      · rw [if_pos hppid, Option.getD_some, ← hppid, ih]
        simp [hppid]
      · rw [if_neg hppid, ih]
        simp [Ne.symm hppid]
  show ((mapValues sortByPid (rows.foldl Tables.add {}).byParent).lookup ppid).getD [] = _
  rw [lookup_mapValues, ← hgroups]
  rcases (rows.foldl Tables.add {}).byParent.lookup ppid with _ | children
  · rfl
  · rfl

/-- The pids below a pid, in the order of the report. -/
def childrenOf (rows : List ProcessRow) (pid : ℕ) : List ℕ :=
  (sortByPid (rows.filter fun row => row.ppid = pid)).map ProcessRow.pid

theorem mem_childrenOf {parent child : ℕ} : child ∈ childrenOf rows parent ↔ Link rows parent child := by
  unfold childrenOf sortByPid Link
  simp only [List.mem_map, List.mem_insertionSort, List.mem_filter, decide_eq_true_eq, and_assoc]

/-! ### `append` is a traversal -/

namespace Builder

/-- The entries for visited pids: those that the table has a row for. -/
def shown (rows : List ProcessRow) (session : SessionInfo) (visited : List (ℕ × ℕ)) : List ProcessInfo :=
  visited.filterMap fun visit =>
    ((tablesOf rows).byPid.lookup visit.1).map fun row => processInfo session row visit.2 false

/-- The builder after visits that began with `start`. -/
def visiting (rows : List ProcessRow) (session : SessionInfo) (start : List ProcessInfo)
    (state : State ℕ) : Builder :=
  ⟨state.1, start ++ shown rows session state.2⟩

/-- `append` visits a pid and what links lead to, and shows the rows on the way. -/
theorem append_eq_visit (session : SessionInfo) (start : List ProcessInfo) :
    ∀ (fuel pid depth : ℕ) (state : State ℕ),
      append (tablesOf rows) session fuel (visiting rows session start state) pid depth =
        (visit (childrenOf rows) fuel pid depth state).map (visiting rows session start) := by
  intro fuel
  induction fuel with
  | zero => exact fun _ _ _ => rfl
  | succ fuel ih =>
    rintro pid depth ⟨seen, order⟩
    rw [append, visit]
    by_cases hpid : pid ∈ seen
    · have hseen : pid ∈ (visiting rows session start (seen, order)).seen := hpid
      rw [if_pos hpid, if_pos hseen]
      rfl
    have hseen : pid ∉ (visiting rows session start (seen, order)).seen := hpid
    rw [if_neg hpid, if_neg hseen]
    -- the builder with the pid itself
    have hself : (⟨insert pid (visiting rows session start (seen, order)).seen,
        match (tablesOf rows).byPid.lookup pid with
        | some row => (visiting rows session start (seen, order)).processes ++
            [processInfo session row depth false]
        | none => (visiting rows session start (seen, order)).processes⟩ : Builder) =
        visiting rows session start (insert pid seen, order ++ [(pid, depth)]) := by
      unfold visiting shown
      rw [List.filterMap_append]
      rcases hrow : (tablesOf rows).byPid.lookup pid with _ | row
      · simp [hrow]
      · simp [hrow]
    -- and with what is below the pid
    have hfold : ∀ (children : List ProcessRow) (state : State ℕ),
        children.foldlM (fun builder child =>
            append (tablesOf rows) session fuel builder child.pid (depth + 1))
          (visiting rows session start state) =
        ((children.map ProcessRow.pid).foldlM
          (fun state b => visit (childrenOf rows) fuel b (depth + 1) state) state).map
          (visiting rows session start) := by
      intro children
      induction children with
      | nil => exact fun _ => rfl
      | cons child children ihc =>
        intro state
        rw [List.foldlM_cons, List.map_cons, List.foldlM_cons, ih]
        rcases visit (childrenOf rows) fuel child.pid (depth + 1) state with _ | state'
        · rfl
        · exact ihc state'
    dsimp only
    rw [hself]
    have hchildren := lookup_byParent rows pid
    unfold childrenOf
    rw [← hchildren]
    rcases (tablesOf rows).byParent.lookup pid with _ | children
    · rfl
    · exact hfold children _

/-! ### Orphans -/

/-- The loop of `append_orphans` over rows with distinct pids that were not seen. -/
theorem foldl_pushOrphan (session : SessionInfo) (depth : ℕ) : ∀ (orphans : List ProcessRow)
    (builder : Builder), (orphans.map ProcessRow.pid).Nodup → (∀ row ∈ orphans, row.pid ∉ builder.seen) →
    (orphans.foldl (pushOrphan session depth) builder).processes =
        builder.processes ++ orphans.map (fun row => processInfo session row depth true) ∧
      ∀ pid, pid ∈ (orphans.foldl (pushOrphan session depth) builder).seen ↔
        pid ∈ builder.seen ∨ pid ∈ orphans.map ProcessRow.pid
  | [], builder, _, _ => ⟨(List.append_nil _).symm, fun _ => by simp⟩
  | row :: orphans, builder, hnodup, hnew => by
    rw [List.map_cons, List.nodup_cons] at hnodup
    have hpush : pushOrphan session depth builder row =
        ⟨insert row.pid builder.seen, builder.processes ++ [processInfo session row depth true]⟩ := by
      unfold pushOrphan
      rw [if_neg (hnew row List.mem_cons_self)]
    rw [List.foldl_cons, hpush]
    obtain ⟨hprocesses, hseen⟩ := foldl_pushOrphan session depth orphans
      ⟨insert row.pid builder.seen, builder.processes ++ [processInfo session row depth true]⟩ hnodup.2
      (by
        intro other hother hmem
        rcases Finset.mem_insert.mp hmem with heq | hmem
        · exact hnodup.1 (heq ▸ List.mem_map_of_mem hother)
        · exact hnew other (List.mem_cons_of_mem _ hother) hmem)
    refine ⟨?_, fun pid => ?_⟩
    · rw [hprocesses, List.map_cons, List.append_assoc, List.singleton_append]
    · rw [hseen, Finset.mem_insert, List.map_cons, List.mem_cons]
      tauto

variable {iteration : Iteration}

theorem mem_values {row : ProcessRow} : row ∈ iteration.values (tablesOf rows).byPid ↔ Last rows row := by
  unfold Iteration.values
  rw [List.mem_filterMap]
  constructor
  · rintro ⟨pid, -, hrow⟩
    exact ((lookup_byPid rows pid row).mp hrow).2
  · intro hlast
    have hrow := (lookup_byPid rows row.pid row).mpr ⟨rfl, hlast⟩
    refine ⟨row.pid, ?_, hrow⟩
    have hkey : row.pid ∈ (tablesOf rows).byPid.keys :=
      Finmap.mem_keys.mpr (Finmap.mem_iff.mpr ⟨row, hrow⟩)
    rw [← Multiset.mem_coe, iteration.order_perm]
    exact hkey

/-- A `HashMap` gives out each of its values once. -/
theorem nodup_values (iteration : Iteration) (rows : List ProcessRow) :
    ((iteration.values (tablesOf rows).byPid).map ProcessRow.pid).Nodup := by
  have hkeys : (iteration.order (tablesOf rows).byPid.keys).Nodup := by
    rw [← Multiset.coe_nodup, iteration.order_perm]
    exact Finset.nodup _
  unfold Iteration.values
  rw [List.map_filterMap]
  refine hkeys.filterMap fun pid pid' b hb hb' => ?_
  obtain ⟨row, hrow, rfl⟩ := Option.map_eq_some_iff.mp hb
  obtain ⟨row', hrow', heq⟩ := Option.map_eq_some_iff.mp hb'
  rw [← ((lookup_byPid rows pid row).mp hrow).1, ← ((lookup_byPid rows pid' row').mp hrow').1, heq]

/-- The rows that `append_orphans` takes. -/
def orphanRows (iteration : Iteration) (rows : List ProcessRow) (seen : Finset ℕ)
    (processGroupId : ℤ) : List ProcessRow :=
  sortByPid ((iteration.values (tablesOf rows).byPid).filter fun row =>
    row.pgid = processGroupId ∧ row.pid ∉ seen)

theorem mem_orphanRows {seen : Finset ℕ} {processGroupId : ℤ} {row : ProcessRow} :
    row ∈ orphanRows iteration rows seen processGroupId ↔
      Last rows row ∧ row.pgid = processGroupId ∧ row.pid ∉ seen := by
  unfold orphanRows sortByPid
  rw [List.mem_insertionSort, List.mem_filter, decide_eq_true_eq, mem_values]

theorem nodup_orphanRows (iteration : Iteration) (rows : List ProcessRow) (seen : Finset ℕ)
    (processGroupId : ℤ) :
    ((orphanRows iteration rows seen processGroupId).map ProcessRow.pid).Nodup := by
  unfold orphanRows sortByPid
  have hperm := (List.perm_insertionSort (fun a b : ProcessRow => a.pid ≤ b.pid)
    ((iteration.values (tablesOf rows).byPid).filter fun row =>
      row.pgid = processGroupId ∧ row.pid ∉ seen)).map ProcessRow.pid
  exact hperm.nodup_iff.mpr (List.Nodup.sublist (List.filter_sublist.map _) (nodup_values iteration rows))

/-! ### One session -/

/-- The pids that a session's leader leads to, and the rows it takes as orphans. -/
structure Part (rows : List ProcessRow) (session : SessionInfo) (includeOrphans : Bool)
    (before after : Builder) (tree : Forest ℕ) (orphans : List ProcessRow) : Prop where
  processes : after.processes = before.processes ++ (shown rows session (tree.preorder 0) ++
    orphans.map fun row => processInfo session row 1 true)
  grows : tree.Grows (fun p q => q ∈ childrenOf rows p) (fun pid => session.processId = some pid)
  fresh : ∀ pid ∈ tree.nodes, pid ∉ before.seen
  nodup : tree.nodes.Nodup
  leader : ∀ pid, session.processId = some pid → pid ∈ before.seen ∨ pid ∈ tree.nodes
  closed : ∀ pid ∈ tree.nodes, ∀ child, Link rows pid child → child ∈ before.seen ∨ child ∈ tree.nodes
  mem_orphans : ∀ row, row ∈ orphans ↔ includeOrphans = true ∧ session.processGroupId = some row.pgid ∧
    Last rows row ∧ row.pid ∉ before.seen ∧ row.pid ∉ tree.nodes
  nodup_orphans : (orphans.map ProcessRow.pid).Nodup
  seen : ∀ pid, pid ∈ after.seen ↔ pid ∈ before.seen ∨ pid ∈ tree.nodes ∨ pid ∈ orphans.map ProcessRow.pid

/-- What a session adds after its leader's part. -/
theorem exists_orphans (iteration : Iteration) (rows : List ProcessRow) (session : SessionInfo)
    (includeOrphans : Bool) (builder : Builder) : ∃ orphans : List ProcessRow,
    (∀ row, row ∈ orphans ↔ includeOrphans = true ∧ session.processGroupId = some row.pgid ∧
      Last rows row ∧ row.pid ∉ builder.seen) ∧
    (orphans.map ProcessRow.pid).Nodup ∧
    (if includeOrphans then builder.appendOrphans iteration (tablesOf rows) session 1
      else builder).processes =
        builder.processes ++ orphans.map (fun row => processInfo session row 1 true) ∧
    ∀ pid, pid ∈ (if includeOrphans then builder.appendOrphans iteration (tablesOf rows) session 1
      else builder).seen ↔ pid ∈ builder.seen ∨ pid ∈ orphans.map ProcessRow.pid := by
  by_cases hinclude : includeOrphans = true
  · rw [if_pos hinclude]
    rcases hgroup : session.processGroupId with _ | processGroupId
    · have heq : builder.appendOrphans iteration (tablesOf rows) session 1 = builder := by
        unfold appendOrphans
        rw [hgroup]
      rw [heq]
      exact ⟨[], by simp, List.nodup_nil, (List.append_nil _).symm, by simp⟩
    · have heq : builder.appendOrphans iteration (tablesOf rows) session 1 =
          (orphanRows iteration rows builder.seen processGroupId).foldl (pushOrphan session 1) builder := by
        unfold appendOrphans
        rw [hgroup]
        rfl
      rw [heq]
      have hnodup := nodup_orphanRows iteration rows builder.seen processGroupId
      obtain ⟨hprocesses, hseen⟩ := foldl_pushOrphan session 1 _ builder hnodup fun row hrow =>
        (mem_orphanRows.mp hrow).2.2
      refine ⟨_, fun row => ?_, hnodup, hprocesses, hseen⟩
      rw [mem_orphanRows, Option.some.injEq]
      constructor
      · rintro ⟨hlast, hpgid, hnew⟩
        exact ⟨hinclude, hpgid.symm, hlast, hnew⟩
      · rintro ⟨-, hpgid, hlast, hnew⟩
        exact ⟨hlast, hpgid.symm, hnew⟩
  · rw [if_neg hinclude]
    refine ⟨[], fun row => ?_, List.nodup_nil, (List.append_nil _).symm, by simp⟩
    constructor
    · intro hrow
      cases hrow
    · exact fun hrow => absurd hrow.1 hinclude

theorem visiting_start (rows : List ProcessRow) (session : SessionInfo) (builder : Builder) :
    visiting rows session builder.processes (builder.seen, []) = builder := by
  unfold visiting shown
  rw [List.filterMap_nil, List.append_nil]

/-- `append` for a leader, as a traversal. -/
theorem append_leader (session : SessionInfo) (fuel leader : ℕ) (builder : Builder) :
    append (tablesOf rows) session fuel builder leader 0 =
      (visit (childrenOf rows) fuel leader 0 (builder.seen, [])).map
        (visiting rows session builder.processes) := by
  conv_lhs => rw [← visiting_start rows session builder]
  exact append_eq_visit session builder.processes fuel leader 0 _

/-- **What a session adds to the report.** -/
theorem appendSession_part {session : SessionInfo} {includeOrphans : Bool} {fuel : ℕ}
    {before after : Builder}
    (h : appendSession iteration (tablesOf rows) includeOrphans fuel before session = some after) :
    ∃ tree orphans, Part rows session includeOrphans before after tree orphans := by
  unfold appendSession at h
  obtain ⟨middle, hleader, hafter⟩ := Option.bind_eq_some_iff.mp h
  obtain ⟨orphans, hmem, hnodup, hprocesses, hseen⟩ :=
    exists_orphans iteration rows session includeOrphans middle
  rw [Option.some.inj hafter] at hprocesses hseen
  rcases hid : session.processId with _ | leader
  · rw [hid] at hleader
    have heq : before = middle := Option.some.inj hleader
    rw [← heq] at hmem hprocesses hseen
    refine ⟨.nil, orphans, hprocesses, trivial, ?_, List.nodup_nil, ?_, ?_, fun row => ?_, hnodup,
      fun pid => ?_⟩
    · exact fun _ hpid => absurd hpid List.not_mem_nil
    · exact fun _ hpid => absurd (hid.symm.trans hpid) (Option.some_ne_none _).symm
    · exact fun _ hpid => absurd hpid List.not_mem_nil
    · rw [hmem]
      simp [Forest.nodes]
    · rw [hseen]
      simp [Forest.nodes]
  · rw [hid] at hleader
    have hvisit : append (tablesOf rows) session fuel before leader 0 = some middle := hleader
    rw [append_leader] at hvisit
    obtain ⟨state, hstate, hmiddle⟩ := Option.map_eq_some_iff.mp hvisit
    obtain ⟨tree, htree, hroot⟩ := visit_visits hstate
    have horder : state.2 = tree.preorder 0 := by
      rw [htree.order, List.nil_append]
    have hmiddleSeen : ∀ pid, pid ∈ middle.seen ↔ pid ∈ before.seen ∨ pid ∈ tree.nodes := by
      rw [← hmiddle]
      exact htree.seen
    have hmiddleProcesses : middle.processes = before.processes ++ shown rows session (tree.preorder 0) := by
      rw [← hmiddle, ← horder]
      rfl
    refine ⟨tree, orphans, ?_, ?_, htree.fresh, htree.nodup, ?_, ?_, fun row => ?_, hnodup, fun pid => ?_⟩
    · rw [hprocesses, hmiddleProcesses, List.append_assoc]
    · exact htree.grows.mono fun pid hpid => hpid ▸ hid
    · intro pid hpid
      have hsame : leader = pid := Option.some.inj (hid.symm.trans hpid)
      exact hsame ▸ (htree.seen leader).mp hroot
    · intro pid hpid child hlink
      exact (htree.seen child).mp (htree.closed pid hpid child (mem_childrenOf.mpr hlink))
    · rw [hmem, hmiddleSeen, not_or]
    · rw [hseen, hmiddleSeen, or_assoc]

/-! ### Enough fuel -/

/-- The pids that the traversal from a leader may see. -/
theorem exists_leader {fuel : ℕ} (hfuel : rows.length + 1 < fuel) (session : SessionInfo) (leader : ℕ)
    (builder : Builder) : ∃ after, append (tablesOf rows) session fuel builder leader 0 = some after := by
  let pids : Finset ℕ := insert leader (rows.map ProcessRow.pid).toFinset
  have hclosed : ∀ pid ∈ pids, ∀ child ∈ childrenOf rows pid, child ∈ pids := by
    intro pid _ child hchild
    obtain ⟨row, hrow, -, rfl⟩ := mem_childrenOf.mp hchild
    exact Finset.mem_insert_of_mem (List.mem_toFinset.mpr (List.mem_map_of_mem hrow))
  have hcard : (pids \ builder.seen).card < fuel := by
    have hsub := Finset.card_le_card (Finset.sdiff_subset : pids \ builder.seen ⊆ pids)
    have hinsert : pids.card ≤ (rows.map ProcessRow.pid).toFinset.card + 1 := Finset.card_insert_le _ _
    have hrows := List.toFinset_card_le (rows.map ProcessRow.pid)
    rw [List.length_map] at hrows
    omega
  have hvisit : ∃ state, visit (childrenOf rows) fuel leader 0 (builder.seen, []) = some state :=
    exists_visit hclosed (Finset.mem_insert_self _ _) hcard
  obtain ⟨state, hstate⟩ := hvisit
  rw [append_leader, hstate]
  exact ⟨_, rfl⟩

theorem appendSession_isSome (iteration : Iteration) {fuel : ℕ} (hfuel : rows.length + 1 < fuel)
    (includeOrphans : Bool) (session : SessionInfo) (builder : Builder) :
    ∃ after, appendSession iteration (tablesOf rows) includeOrphans fuel builder session = some after := by
  unfold appendSession
  rcases session.processId with _ | leader
  · exact ⟨_, rfl⟩
  · obtain ⟨middle, hmiddle⟩ := exists_leader hfuel session leader builder
    refine ⟨if includeOrphans then middle.appendOrphans iteration (tablesOf rows) session 1 else middle, ?_⟩
    exact Option.bind_eq_some_iff.mpr ⟨middle, hmiddle, rfl⟩

theorem appendSession_mono {fuel fuel' : ℕ} (hle : fuel ≤ fuel') {includeOrphans : Bool}
    {session : SessionInfo} {before after : Builder}
    (h : appendSession iteration (tablesOf rows) includeOrphans fuel before session = some after) :
    appendSession iteration (tablesOf rows) includeOrphans fuel' before session = some after := by
  unfold appendSession at h ⊢
  rcases hid : session.processId with _ | leader
  · rw [hid] at h
    exact h
  · rw [hid] at h
    obtain ⟨middle, hmiddle, hafter⟩ := Option.bind_eq_some_iff.mp h
    refine Option.bind_eq_some_iff.mpr ⟨middle, ?_, hafter⟩
    have hvisit : append (tablesOf rows) session fuel before leader 0 = some middle := hmiddle
    show append (tablesOf rows) session fuel' before leader 0 = some middle
    rw [append_leader] at hvisit ⊢
    obtain ⟨state, hstate, heq⟩ := Option.map_eq_some_iff.mp hvisit
    rw [visit_mono hle hstate, Option.map_some, heq]

/-! ### From session to session -/

theorem mem_shown {session : SessionInfo} {visited : List (ℕ × ℕ)} {info : ProcessInfo} :
    info ∈ shown rows session visited ↔ ∃ row depth, Last rows row ∧ (row.pid, depth) ∈ visited ∧
      info = processInfo session row depth false := by
  unfold shown
  rw [List.mem_filterMap]
  constructor
  · rintro ⟨⟨pid, depth⟩, hvisited, hinfo⟩
    obtain ⟨row, hrow, rfl⟩ := Option.map_eq_some_iff.mp hinfo
    obtain ⟨rfl, hlast⟩ := (lookup_byPid rows pid row).mp hrow
    exact ⟨row, depth, hlast, hvisited, rfl⟩
  · rintro ⟨row, depth, hlast, hvisited, rfl⟩
    refine ⟨(row.pid, depth), hvisited, Option.map_eq_some_iff.mpr ⟨row, ?_, rfl⟩⟩
    exact (lookup_byPid rows row.pid row).mpr ⟨rfl, hlast⟩

theorem map_pid_shown (session : SessionInfo) (visited : List (ℕ × ℕ)) :
    (shown rows session visited).map ProcessInfo.pid =
      (visited.map Prod.fst).filter fun pid => ((tablesOf rows).byPid.lookup pid).isSome := by
  unfold shown
  induction visited with
  | nil => rfl
  | cons visit visited ih =>
    rw [List.filterMap_cons, List.map_cons, List.filter_cons]
    rcases hrow : (tablesOf rows).byPid.lookup visit.1 with _ | row
    · exact ih
    · obtain ⟨hpid, -⟩ := (lookup_byPid rows visit.1 row).mp hrow
      show row.pid :: _ = visit.1 :: _
      rw [hpid, ih]

/-- The pids that a report has as orphans. -/
def orphanPids (processes : List ProcessInfo) : Set ℕ :=
  {pid | ∃ info ∈ processes, info.pid = pid ∧ info.orphan = true}

/-- What holds when the sessions of `done` are in the report: it has each pid once, and a pid that is seen
is in it if the table has a row for it; what the pids lead to is seen, but for orphans. -/
structure Sound (rows : List ProcessRow) (includeOrphans : Bool) (done : List SessionInfo)
    (builder : Builder) : Prop where
  nodup : (builder.processes.map ProcessInfo.pid).Nodup
  seen : ∀ info ∈ builder.processes, info.pid ∈ builder.seen
  entries : ∀ info ∈ builder.processes, ∃ session ∈ done, ∃ row depth orphan,
    Last rows row ∧ info = processInfo session row depth orphan
  shows : ∀ row, Last rows row → row.pid ∈ builder.seen → ∃ info ∈ builder.processes, info.pid = row.pid
  leaders : ∀ session ∈ done, ∀ leader, session.processId = some leader → leader ∈ builder.seen
  closed : ∀ pid ∈ builder.seen, pid ∉ orphanPids builder.processes → ∀ child, Link rows pid child →
    child ∈ builder.seen
  groups : includeOrphans = true → ∀ session ∈ done, ∀ row, Last rows row →
    session.processGroupId = some row.pgid → row.pid ∈ builder.seen

theorem sound_nil (rows : List ProcessRow) (includeOrphans : Bool) :
    Sound rows includeOrphans [] {} where
  nodup := List.nodup_nil
  seen _ h := absurd h List.not_mem_nil
  entries _ h := absurd h List.not_mem_nil
  shows _ _ h := absurd h (Finset.notMem_empty _)
  leaders _ h := absurd h List.not_mem_nil
  closed _ h := absurd h (Finset.notMem_empty _)
  groups _ _ h := absurd h List.not_mem_nil

variable {session : SessionInfo} {includeOrphans : Bool} {before after : Builder} {tree : Forest ℕ}
  {orphans : List ProcessRow} {done : List SessionInfo}

/-- The entries that a session adds. -/
theorem Part.mem_processes (h : Part rows session includeOrphans before after tree orphans)
    {info : ProcessInfo} : info ∈ after.processes ↔ info ∈ before.processes ∨
      (∃ row depth, Last rows row ∧ (row.pid, depth) ∈ tree.preorder 0 ∧
        info = processInfo session row depth false) ∨
      ∃ row ∈ orphans, info = processInfo session row 1 true := by
  rw [h.processes, List.mem_append, List.mem_append, mem_shown, List.mem_map]
  simp only [@eq_comm _ _ info]

theorem mem_nodes_of_preorder {pid depth : ℕ} (h : (pid, depth) ∈ tree.preorder 0) : pid ∈ tree.nodes := by
  rw [← Forest.map_fst_preorder tree 0]
  exact List.mem_map_of_mem h

theorem exists_preorder {pid : ℕ} (h : pid ∈ tree.nodes) : ∃ depth, (pid, depth) ∈ tree.preorder 0 := by
  rw [← Forest.map_fst_preorder tree 0] at h
  obtain ⟨⟨pid', depth⟩, hmem, rfl⟩ := List.mem_map.mp h
  exact ⟨depth, hmem⟩

theorem Part.last_of_mem_orphans (h : Part rows session includeOrphans before after tree orphans)
    {row : ProcessRow} (hrow : row ∈ orphans) : Last rows row :=
  ((h.mem_orphans row).mp hrow).2.2.1

/-- A pid that the session adds is new, whether its leader leads to it or not. -/
theorem Part.nodup_processes (h : Part rows session includeOrphans before after tree orphans)
    (hnodup : (before.processes.map ProcessInfo.pid).Nodup)
    (hseen : ∀ info ∈ before.processes, info.pid ∈ before.seen) :
    (after.processes.map ProcessInfo.pid).Nodup := by
  have htree : ∀ pid ∈ (shown rows session (tree.preorder 0)).map ProcessInfo.pid, pid ∈ tree.nodes := by
    intro pid hpid
    rw [map_pid_shown, Forest.map_fst_preorder] at hpid
    exact (List.mem_filter.mp hpid).1
  have horphans : (orphans.map fun row => processInfo session row 1 true).map ProcessInfo.pid =
      orphans.map ProcessRow.pid := by
    rw [List.map_map]
    rfl
  have hnew : ∀ pid ∈ orphans.map ProcessRow.pid, pid ∉ before.seen ∧ pid ∉ tree.nodes := by
    intro pid hpid
    obtain ⟨row, hrow, rfl⟩ := List.mem_map.mp hpid
    exact ((h.mem_orphans row).mp hrow).2.2.2
  rw [h.processes, List.map_append, List.map_append, horphans]
  refine List.nodup_append.mpr ⟨hnodup, List.nodup_append.mpr ⟨?_, h.nodup_orphans, ?_⟩, ?_⟩
  · rw [map_pid_shown, Forest.map_fst_preorder]
    exact h.nodup.filter _
  · rintro pid hpid _ hpid' rfl
    exact (hnew pid hpid').2 (htree pid hpid)
  · rintro pid hpid _ hpid' rfl
    obtain ⟨info, hinfo, rfl⟩ := List.mem_map.mp hpid
    have hold := hseen info hinfo
    rcases List.mem_append.mp hpid' with hpid' | hpid'
    · exact h.fresh _ (htree _ hpid') hold
    · exact (hnew _ hpid').1 hold

theorem Part.sound (h : Part rows session includeOrphans before after tree orphans)
    (hbefore : Sound rows includeOrphans done before) :
    Sound rows includeOrphans (done ++ [session]) after where
  nodup := h.nodup_processes hbefore.nodup hbefore.seen
  seen info hinfo := by
    rw [h.seen]
    rcases h.mem_processes.mp hinfo with hold | ⟨row, depth, -, hmem, rfl⟩ | ⟨row, hrow, rfl⟩
    · exact .inl (hbefore.seen info hold)
    · exact .inr (.inl (mem_nodes_of_preorder hmem))
    · exact .inr (.inr (List.mem_map_of_mem hrow))
  entries info hinfo := by
    rcases h.mem_processes.mp hinfo with hold | ⟨row, depth, hlast, -, rfl⟩ | ⟨row, hrow, rfl⟩
    · obtain ⟨other, hother, hentry⟩ := hbefore.entries info hold
      exact ⟨other, List.mem_append_left _ hother, hentry⟩
    · exact ⟨session, by simp, row, depth, false, hlast, rfl⟩
    · exact ⟨session, by simp, row, 1, true, h.last_of_mem_orphans hrow, rfl⟩
  shows row hlast hrow := by
    rcases (h.seen row.pid).mp hrow with hold | hnode | horphan
    · obtain ⟨info, hinfo, hpid⟩ := hbefore.shows row hlast hold
      exact ⟨info, h.mem_processes.mpr (.inl hinfo), hpid⟩
    · obtain ⟨depth, hmem⟩ := exists_preorder hnode
      exact ⟨_, h.mem_processes.mpr (.inr (.inl ⟨row, depth, hlast, hmem, rfl⟩)), rfl⟩
    · obtain ⟨row', hrow', hpid⟩ := List.mem_map.mp horphan
      exact ⟨_, h.mem_processes.mpr (.inr (.inr ⟨row', hrow', rfl⟩)), hpid⟩
  leaders other hother leader hleader := by
    rw [h.seen]
    rcases List.mem_append.mp hother with hother | hother
    · exact .inl (hbefore.leaders other hother leader hleader)
    · rw [List.mem_singleton.mp hother] at hleader
      rcases h.leader leader hleader with hold | hnode
      · exact .inl hold
      · exact .inr (.inl hnode)
  closed pid hpid hnot child hlink := by
    rw [h.seen]
    rcases (h.seen pid).mp hpid with hold | hnode | horphan
    · refine .inl (hbefore.closed pid hold (fun hmem => hnot ?_) child hlink)
      obtain ⟨info, hinfo, hinfoPid, horphan⟩ := hmem
      exact ⟨info, h.mem_processes.mpr (.inl hinfo), hinfoPid, horphan⟩
    · rcases h.closed pid hnode child hlink with hchild | hchild
      · exact .inl hchild
      · exact .inr (.inl hchild)
    · obtain ⟨row, hrow, hrowPid⟩ := List.mem_map.mp horphan
      exact absurd ⟨_, h.mem_processes.mpr (.inr (.inr ⟨row, hrow, rfl⟩)), hrowPid, rfl⟩ hnot
  groups hinclude other hother row hlast hgroup := by
    rw [h.seen]
    rcases List.mem_append.mp hother with hother | hother
    · exact .inl (hbefore.groups hinclude other hother row hlast hgroup)
    · rw [List.mem_singleton.mp hother] at hgroup
      by_cases hold : row.pid ∈ before.seen
      · exact .inl hold
      by_cases hnode : row.pid ∈ tree.nodes
      · exact .inr (.inl hnode)
      · refine .inr (.inr (List.mem_map_of_mem ?_))
        exact (h.mem_orphans row).mpr ⟨hinclude, hgroup, hlast, hold, hnode⟩

/-! ### What a leader leads to -/

/-- The session's tree: what links from its leader reach past the pids seen before. -/
theorem Part.mem_nodes (h : Part rows session includeOrphans before after tree orphans) {pid : ℕ} :
    pid ∈ tree.nodes ↔ ∃ leader, session.processId = some leader ∧ leader ∉ before.seen ∧
      Relation.ReflTransGen (fun p q => Link rows p q ∧ q ∉ before.seen) leader pid := by
  constructor
  · intro hpid
    obtain ⟨leader, hleader, hfresh, hpath⟩ := h.grows.reach h.fresh hpid
    refine ⟨leader, hleader, hfresh, Relation.ReflTransGen.mono (fun p q hpq => ?_) _ _ hpath⟩
    exact ⟨mem_childrenOf.mp hpq.1, hpq.2⟩
  · rintro ⟨leader, hleader, hfresh, hpath⟩
    induction hpath with
    | refl => exact (h.leader leader hleader).resolve_left hfresh
    | tail _ hlink ih => exact (h.closed _ ih _ hlink.1).resolve_left hlink.2

/-- What an earlier leader, or the session's own, reaches past the orphans of earlier sessions is seen when
the session's orphans are looked for. -/
theorem Part.reached (h : Part rows session includeOrphans before after tree orphans)
    (hbefore : Sound rows includeOrphans done before) {other : SessionInfo}
    (hother : other ∈ done ++ [session]) {leader pid : ℕ} (hleader : other.processId = some leader)
    (hshown : leader ∉ orphanPids before.processes)
    (hpath : Relation.ReflTransGen (fun p q => Link rows p q ∧ q ∉ orphanPids before.processes) leader pid) :
    pid ∈ before.seen ∨ pid ∈ tree.nodes := by
  have hstart : leader ∈ before.seen ∨ leader ∈ tree.nodes := by
    rcases List.mem_append.mp hother with hother | hother
    · exact .inl (hbefore.leaders other hother leader hleader)
    · rw [List.mem_singleton.mp hother] at hleader
      exact h.leader leader hleader
  have hboth : (pid ∈ before.seen ∨ pid ∈ tree.nodes) ∧ pid ∉ orphanPids before.processes := by
    induction hpath with
    | refl => exact ⟨hstart, hshown⟩
    | tail _ hlink ih =>
      obtain ⟨hseen, hnot⟩ := ih
      refine ⟨?_, hlink.2⟩
      rcases hseen with hold | hnode
      · exact .inl (hbefore.closed _ hold hnot _ hlink.1)
      · exact h.closed _ hnode _ hlink.1
  exact hboth.1

/-! ### All sessions -/

/-- The builder after one more session. -/
def next (iteration : Iteration) (rows : List ProcessRow) (includeOrphans : Bool) (builder : Builder)
    (session : SessionInfo) : Builder :=
  (appendSession iteration (tablesOf rows) includeOrphans (rows.length + 2) builder session).getD builder

/-- Fuel beyond the number of rows does not change what a session adds. -/
theorem appendSession_eq (iteration : Iteration) {fuel : ℕ} (hfuel : rows.length + 1 < fuel)
    (builder : Builder) :
    appendSession iteration (tablesOf rows) includeOrphans fuel builder session =
      some (next iteration rows includeOrphans builder session) := by
  obtain ⟨after, hafter⟩ := appendSession_isSome iteration (Nat.lt_succ_self (rows.length + 1))
    includeOrphans session builder
  unfold next
  rw [hafter, Option.getD_some]
  exact appendSession_mono hfuel hafter

/-- The builder after all sessions. -/
def ofSessions (iteration : Iteration) (rows : List ProcessRow) (includeOrphans : Bool)
    (sessions : List SessionInfo) : Builder :=
  sessions.foldl (next iteration rows includeOrphans) {}

theorem foldlM_appendSession {fuel : ℕ} (hfuel : rows.length + 1 < fuel) : ∀ (sessions : List SessionInfo)
    (builder : Builder),
    sessions.foldlM (appendSession iteration (tablesOf rows) includeOrphans fuel) builder =
      some (sessions.foldl (next iteration rows includeOrphans) builder)
  | [], _ => rfl
  | session :: sessions, builder => by
    rw [List.foldlM_cons, appendSession_eq iteration hfuel]
    exact foldlM_appendSession hfuel sessions _

theorem ofSessions_concat (iteration : Iteration) (rows : List ProcessRow) (includeOrphans : Bool)
    (sessions : List SessionInfo) (session : SessionInfo) :
    ofSessions iteration rows includeOrphans (sessions ++ [session]) =
      next iteration rows includeOrphans (ofSessions iteration rows includeOrphans sessions) session := by
  unfold ofSessions
  rw [List.foldl_append, List.foldl_cons, List.foldl_nil]

/-- What the next session adds. -/
theorem next_part (iteration : Iteration) (rows : List ProcessRow) (includeOrphans : Bool)
    (builder : Builder) (session : SessionInfo) : ∃ tree orphans,
    Part rows session includeOrphans builder (next iteration rows includeOrphans builder session)
      tree orphans :=
  appendSession_part (appendSession_eq iteration (Nat.lt_succ_self (rows.length + 1)) builder)

theorem ofSessions_sound (iteration : Iteration) (rows : List ProcessRow) (includeOrphans : Bool)
    (sessions : List SessionInfo) :
    Sound rows includeOrphans sessions (ofSessions iteration rows includeOrphans sessions) := by
  induction sessions using List.reverseRecOn with
  | nil => exact sound_nil rows includeOrphans
  | append_singleton sessions session ih =>
    rw [ofSessions_concat]
    obtain ⟨tree, orphans, hpart⟩ := next_part iteration rows includeOrphans
      (ofSessions iteration rows includeOrphans sessions) session
    exact hpart.sound ih

/-- What is in the report stays there. -/
theorem ofSessions_isPrefix (iteration : Iteration) (rows : List ProcessRow) (includeOrphans : Bool)
    (before after : List SessionInfo) : (ofSessions iteration rows includeOrphans before).processes <+:
      (ofSessions iteration rows includeOrphans (before ++ after)).processes := by
  induction after using List.reverseRecOn with
  | nil => rw [List.append_nil]
  | append_singleton after session ih =>
    rw [← List.append_assoc, ofSessions_concat]
    obtain ⟨tree, orphans, hpart⟩ := next_part iteration rows includeOrphans
      (ofSessions iteration rows includeOrphans (before ++ after)) session
    rw [hpart.processes]
    exact ih.trans (List.prefix_append _ _)

/-! ### The order of the rows -/

/-- Rows with distinct pids are sorted in one way. -/
theorem sortByPid_perm {others : List ProcessRow} (hperm : others.Perm rows)
    (hpids : (rows.map ProcessRow.pid).Nodup) : sortByPid others = sortByPid rows := by
  let le : ProcessRow → ProcessRow → Prop := fun a b => a.pid ≤ b.pid
  have : Std.Total le := ⟨fun a b => le_total a.pid b.pid⟩
  have : IsTrans ProcessRow le := ⟨fun a b c hab hbc => le_trans hab hbc⟩
  have hsorted : ∀ list : List ProcessRow, (list.insertionSort le).Pairwise le :=
    List.pairwise_insertionSort le
  have hboth : (others.insertionSort le).Perm (rows.insertionSort le) :=
    ((List.perm_insertionSort le others).trans hperm).trans (List.perm_insertionSort le rows).symm
  refine hboth.eq_of_pairwise (fun a b ha hb hab hba => ?_) (hsorted others) (hsorted rows)
  have ha' : a ∈ rows := hperm.mem_iff.mp ((List.mem_insertionSort le).mp ha)
  have hb' : b ∈ rows := (List.mem_insertionSort le).mp hb
  exact List.inj_on_of_nodup_map hpids ha' hb' (le_antisymm hab hba)

section
variable {others : List ProcessRow} (hperm : others.Perm rows) (hpids : (rows.map ProcessRow.pid).Nodup)

include hperm hpids

theorem byPid_perm : (tablesOf others).byPid = (tablesOf rows).byPid := by
  have hpids' : (others.map ProcessRow.pid).Nodup := (hperm.map ProcessRow.pid).nodup_iff.mpr hpids
  refine Finmap.ext_lookup fun pid => Option.ext fun row => ?_
  rw [lookup_byPid, lookup_byPid, last_iff_mem hpids, last_iff_mem hpids', hperm.mem_iff]

theorem childrenOf_perm : childrenOf others = childrenOf rows := by
  funext pid
  unfold childrenOf
  rw [sortByPid_perm (hperm.filter _) (hpids.sublist (List.filter_sublist.map _))]

/-- The leader's part is the same. -/
theorem append_leader_perm (session : SessionInfo) (fuel leader : ℕ) (builder : Builder) :
    append (tablesOf others) session fuel builder leader 0 =
      append (tablesOf rows) session fuel builder leader 0 := by
  rw [append_leader, append_leader, childrenOf_perm hperm hpids]
  congr 1
  funext state
  unfold visiting shown
  rw [byPid_perm hperm hpids]

/-- The orphans are the same, whatever the order in which a `HashMap` gives out the rows. -/
theorem appendOrphans_perm (iteration iteration' : Iteration) (builder : Builder) (session : SessionInfo) :
    builder.appendOrphans iteration' (tablesOf others) session 1 =
      builder.appendOrphans iteration (tablesOf rows) session 1 := by
  have hpids' : ∀ iteration : Iteration,
      (iteration.values (tablesOf rows).byPid).Nodup := fun iteration =>
    List.Nodup.of_map _ (nodup_values iteration rows)
  have hvalues : (iteration'.values (tablesOf rows).byPid).Perm (iteration.values (tablesOf rows).byPid) :=
    (List.perm_ext_iff_of_nodup (hpids' iteration') (hpids' iteration)).mpr fun row => by
      rw [mem_values, mem_values]
  unfold appendOrphans
  rw [byPid_perm hperm hpids]
  rcases session.processGroupId with _ | processGroupId
  · rfl
  · dsimp only
    rw [sortByPid_perm (hvalues.filter _)
      ((nodup_values iteration rows).sublist (List.filter_sublist.map _))]

theorem ofSessions_perm (iteration iteration' : Iteration) (includeOrphans : Bool)
    (sessions : List SessionInfo) :
    ofSessions iteration' others includeOrphans sessions = ofSessions iteration rows includeOrphans sessions := by
  unfold ofSessions
  congr 1
  funext builder session
  unfold next appendSession
  rw [hperm.length_eq]
  congr 2
  · rcases session.processId with _ | leader
    · rfl
    · exact append_leader_perm hperm hpids session _ leader builder
  · funext middle
    rw [appendOrphans_perm hperm hpids iteration iteration']

end

end Builder

/-! ### The report -/

/-- A pid is reached from another one over the links of the table. -/
def Reaches (rows : List ProcessRow) : ℕ → ℕ → Prop := Relation.ReflTransGen (Link rows)

/-- A pid is reached over pids none of which is in `hidden`. -/
def ReachesPast (rows : List ProcessRow) (hidden : Set ℕ) (start pid : ℕ) : Prop :=
  start ∉ hidden ∧ Relation.ReflTransGen (fun p q => Link rows p q ∧ q ∉ hidden) start pid

/-- The report, with fuel for a table of its length. -/
def report (iteration : Iteration) (sessions : List SessionInfo) (rows : List ProcessRow)
    (includeOrphans : Bool) : List ProcessInfo :=
  (buildProcessTreeFromRows iteration (rows.length + 2) sessions rows includeOrphans).getD []

theorem buildProcessTreeFromRows_eq (iteration : Iteration) {fuel : ℕ} (hfuel : rows.length + 1 < fuel)
    (sessions : List SessionInfo) (includeOrphans : Bool) :
    buildProcessTreeFromRows iteration fuel sessions rows includeOrphans =
      some (Builder.ofSessions iteration rows includeOrphans sessions).processes := by
  unfold buildProcessTreeFromRows
  dsimp only
  rw [Builder.foldlM_appendSession hfuel]
  rfl

theorem report_eq (iteration : Iteration) (sessions : List SessionInfo) (rows : List ProcessRow)
    (includeOrphans : Bool) : report iteration sessions rows includeOrphans =
      (Builder.ofSessions iteration rows includeOrphans sessions).processes := by
  unfold report
  rw [buildProcessTreeFromRows_eq iteration (Nat.lt_succ_self _), Option.getD_some]

/-- The part of the first session that its leader leads to. -/
theorem first_session (iteration : Iteration) (session : SessionInfo) (rows : List ProcessRow)
    (includeOrphans : Bool) : ∃ tree : Forest ℕ, tree.nodes.Nodup ∧
      tree.Grows (Link rows) (fun pid => session.processId = some pid) ∧
      (∀ pid, pid ∈ tree.nodes ↔ ∃ leader, session.processId = some leader ∧ Reaches rows leader pid) ∧
      ∀ info, info ∈ report iteration [session] rows includeOrphans ∧ info.orphan = false ↔
        ∃ row depth, Last rows row ∧ (row.pid, depth) ∈ tree.preorder 0 ∧
          info = processInfo session row depth false := by
  obtain ⟨tree, orphans, hpart⟩ := Builder.next_part iteration rows includeOrphans {} session
  have hlink : (fun p q => q ∈ childrenOf rows p) = Link rows := by
    funext p q
    exact propext mem_childrenOf
  refine ⟨tree, hpart.nodup, hlink ▸ hpart.grows, fun pid => ?_, fun info => ?_⟩
  · have hempty : (fun p q => Link rows p q ∧ q ∉ (∅ : Finset ℕ)) = Link rows := by
      funext p q
      simp
    rw [hpart.mem_nodes]
    show (∃ leader, _ ∧ leader ∉ (∅ : Finset ℕ) ∧
      Relation.ReflTransGen (fun p q => Link rows p q ∧ q ∉ (∅ : Finset ℕ)) leader pid) ↔ _
    rw [hempty]
    simp [Reaches]
  · have hreport : report iteration [session] rows includeOrphans =
        (Builder.next iteration rows includeOrphans {} session).processes := report_eq _ _ _ _
    rw [hreport, hpart.mem_processes]
    constructor
    · rintro ⟨hold | htree | ⟨row, -, rfl⟩, horphan⟩
      · exact absurd hold List.not_mem_nil
      · exact htree
      · cases horphan
    · rintro ⟨row, depth, hlast, hmem, rfl⟩
      exact ⟨.inr (.inl ⟨row, depth, hlast, hmem, rfl⟩), rfl⟩

/-- An orphan that a session adds is in its group, and each way from a leader so far to it goes through an
orphan of an earlier session. -/
theorem orphan_reason (iteration : Iteration) (before : List SessionInfo) (session : SessionInfo)
    (rows : List ProcessRow) (includeOrphans : Bool) {info : ProcessInfo}
    (hinfo : info ∈ report iteration (before ++ [session]) rows includeOrphans)
    (hnew : info ∉ report iteration before rows includeOrphans) (horphan : info.orphan = true) :
    session.processGroupId = info.processGroupId ∧ ∀ other ∈ before ++ [session], ∀ leader,
      other.processId = some leader →
        ¬ ReachesPast rows (Builder.orphanPids (report iteration before rows includeOrphans)) leader
          info.pid := by
  rw [report_eq] at hinfo hnew ⊢
  obtain ⟨tree, orphans, hpart⟩ := Builder.next_part iteration rows includeOrphans
    (Builder.ofSessions iteration rows includeOrphans before) session
  have hsound := Builder.ofSessions_sound iteration rows includeOrphans before
  rw [Builder.ofSessions_concat, hpart.mem_processes] at hinfo
  rcases hinfo with hold | ⟨row, depth, -, -, rfl⟩ | ⟨row, hrow, rfl⟩
  · exact absurd hold hnew
  · cases horphan
  · obtain ⟨-, hgroup, -, hseen, hnode⟩ := (hpart.mem_orphans row).mp hrow
    refine ⟨hgroup, fun other hother leader hleader ⟨hshown, hpath⟩ => ?_⟩
    rcases hpart.reached hsound hother hleader hshown hpath with h | h
    · exact hseen h
    · exact hnode h

/-- **The process report.** It is complete after a bounded recursion, whatever the table, and has each pid
once, with the last row of it. For the first session it has, apart from orphans, the pids that links reach
from the leader, in the depths of a tree of links; with orphans it has every row in the group of a session.
A row is an orphan only if each way to it from a leader so far goes through an orphan of an earlier session.
Without repeated pids these are all rows, and their order does not matter. -/
theorem process_report (iteration : Iteration) (sessions : List SessionInfo) (rows : List ProcessRow)
    (includeOrphans : Bool) :
    (∀ fuel, rows.length + 1 < fuel →
      buildProcessTreeFromRows iteration fuel sessions rows includeOrphans =
        some (report iteration sessions rows includeOrphans)) ∧
    ((report iteration sessions rows includeOrphans).map ProcessInfo.pid).Nodup ∧
    (∀ info ∈ report iteration sessions rows includeOrphans, ∃ session ∈ sessions, ∃ row depth orphan,
      Last rows row ∧ info = processInfo session row depth orphan) ∧
    (∀ before after, sessions = before ++ after →
      report iteration before rows includeOrphans <+: report iteration sessions rows includeOrphans) ∧
    (∀ session rest, sessions = session :: rest → ∃ tree : Forest ℕ, tree.nodes.Nodup ∧
      tree.Grows (Link rows) (fun pid => session.processId = some pid) ∧
      (∀ pid, pid ∈ tree.nodes ↔ ∃ leader, session.processId = some leader ∧ Reaches rows leader pid) ∧
      ∀ info, info ∈ report iteration [session] rows includeOrphans ∧ info.orphan = false ↔
        ∃ row depth, Last rows row ∧ (row.pid, depth) ∈ tree.preorder 0 ∧
          info = processInfo session row depth false) ∧
    (includeOrphans = true → ∀ session ∈ sessions, ∀ row, Last rows row →
      session.processGroupId = some row.pgid →
        ∃ info ∈ report iteration sessions rows includeOrphans, info.pid = row.pid) ∧
    (∀ before session after, sessions = before ++ session :: after →
      ∀ info ∈ report iteration (before ++ [session]) rows includeOrphans,
        info ∉ report iteration before rows includeOrphans → info.orphan = true →
          session.processGroupId = info.processGroupId ∧ ∀ other ∈ before ++ [session], ∀ leader,
            other.processId = some leader →
              ¬ ReachesPast rows (Builder.orphanPids (report iteration before rows includeOrphans)) leader
                info.pid) ∧
    ((rows.map ProcessRow.pid).Nodup → (∀ row, Last rows row ↔ row ∈ rows) ∧
      ∀ iteration' others, others.Perm rows →
        report iteration' sessions others includeOrphans =
          report iteration sessions rows includeOrphans) := by
  have hsound := Builder.ofSessions_sound iteration rows includeOrphans sessions
  refine ⟨fun fuel hfuel => ?_, ?_, ?_, ?_, fun session rest _ => first_session iteration session rows _,
    fun hinclude session hsession row hlast hgroup => ?_,
    fun before session after _ info hinfo hnew horphan =>
      orphan_reason iteration before session rows includeOrphans hinfo hnew horphan,
    fun hpids => ⟨fun row => last_iff_mem hpids, fun iteration' others hperm => ?_⟩⟩
  · rw [report_eq, buildProcessTreeFromRows_eq iteration hfuel]
  · rw [report_eq]
    exact hsound.nodup
  · rw [report_eq]
    exact hsound.entries
  · rintro before after rfl
    rw [report_eq, report_eq]
    exact Builder.ofSessions_isPrefix iteration rows includeOrphans before after
  · rw [report_eq]
    exact hsound.shows row hlast (hsound.groups hinclude session hsession row hlast hgroup)
  · rw [report_eq, report_eq, Builder.ofSessions_perm hperm hpids iteration iteration']

/-- A `HashMap` that gives out its keys in ascending order. -/
def Iteration.ascending : Iteration where
  order keys := Quot.liftOn keys.val (List.insertionSort (· ≤ ·)) fun a b hperm =>
    (((List.perm_insertionSort (· ≤ ·) a).trans hperm).trans
      (List.perm_insertionSort (· ≤ ·) b).symm).eq_of_pairwise (fun _ _ _ _ => le_antisymm)
      (List.pairwise_insertionSort (· ≤ ·) a) (List.pairwise_insertionSort (· ≤ ·) b)
  order_perm keys := by
    rcases keys with ⟨⟨list⟩, hnodup⟩
    exact Quot.sound (List.perm_insertionSort (· ≤ ·) list)

/-- A row of `ps`. -/
def sampleRow (pid ppid : ℕ) (pgid : ℤ) (command : Str) : ProcessRow :=
  ⟨pid, ppid, pgid, "S".toList, 0, 0, 0, "00:00".toList, command⟩

/-- Two rows of one pid: the leader, 1, leads to the first one, and the second one, with a parent that it
does not lead to, is shown. And two sessions: 3 is a child of the second leader in the group of the first
session; it is an orphan of the first session, and then the second one has 4, the child of 3, as an orphan
too, although its own leader leads to it. -/
theorem repeated_pid_and_reached_orphan :
    (sampleRow 5 1 7 "a".toList ∈ [sampleRow 5 1 7 "a".toList, sampleRow 5 2 7 "b".toList] ∧
      Link [sampleRow 5 1 7 "a".toList, sampleRow 5 2 7 "b".toList] 1 5 ∧
      report .ascending [⟨"main".toList, "%0".toList, some 1, some 7⟩]
        [sampleRow 5 1 7 "a".toList, sampleRow 5 2 7 "b".toList] false =
        [processInfo ⟨"main".toList, "%0".toList, some 1, some 7⟩ (sampleRow 5 2 7 "b".toList) 1 false]) ∧
    report .ascending [⟨"main".toList, "%0".toList, some 1, some 7⟩, ⟨"side".toList, "%1".toList, some 2, some 8⟩]
        [sampleRow 3 2 7 "c".toList, sampleRow 4 3 8 "d".toList] true =
        [processInfo ⟨"main".toList, "%0".toList, some 1, some 7⟩ (sampleRow 3 2 7 "c".toList) 1 true,
          processInfo ⟨"side".toList, "%1".toList, some 2, some 8⟩ (sampleRow 4 3 8 "d".toList) 1 true] ∧
      Reaches [sampleRow 3 2 7 "c".toList, sampleRow 4 3 8 "d".toList] 2 4 := by
  refine ⟨⟨List.mem_cons_self, ⟨_, List.mem_cons_self, rfl, rfl⟩, by decide⟩, by decide, ?_⟩
  have hfirst : Link [sampleRow 3 2 7 "c".toList, sampleRow 4 3 8 "d".toList] 2 3 :=
    ⟨_, List.mem_cons_self, rfl, rfl⟩
  have hsecond : Link [sampleRow 3 2 7 "c".toList, sampleRow 4 3 8 "d".toList] 3 4 :=
    ⟨_, List.mem_cons_of_mem _ List.mem_cons_self, rfl, rfl⟩
  exact (Relation.ReflTransGen.single hfirst).tail hsecond

end LightTerminal.Client.ProcessTree
