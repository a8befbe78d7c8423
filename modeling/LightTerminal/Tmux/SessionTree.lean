import LightTerminal.Library.Ancestry
import LightTerminal.Library.FiniteMap
import LightTerminal.Session.Segment

/-! # The tree that `kill-session` takes down

Before it asks the daemon to kill a session, `kill-session` captures the sessions that will go with it: it
goes up from the target to the root of its tree, and from there down again, over a list of sessions that it
does not trust. A session names its parent twice, by its id and by its pane.

* the capture is the root and everything that descends from it, each session once and behind its parent, or
  it is refused (`capture_spec`, `capture_ok_iff`);
* it is what the cascade of the daemon removes, which goes by the ids alone (`mem_finalizeSession`). -/

namespace LightTerminal.Tmux.SessionTree

open Relation
open LightTerminal.Data.Text LightTerminal.Library LightTerminal.Library.FiniteMap
open LightTerminal.Session.Segment (terminalText)

/-! ## The source -/

/-- What is read of a `SessionInfo`. -/
structure SessionInfo where
  id : Str
  name : Str
  paneId : Str
  parentPaneId : Option Str
  parentSessionId : Option Str
deriving DecidableEq, Repr

/-- The maps `by_id`, `by_pane` and `by_name`. -/
structure Index where
  byId : Map Str SessionInfo
  byPane : Map Str SessionInfo
  byName : Map Str SessionInfo

/-- The loop that fills them. -/
def indexLoop (index : Index) : List SessionInfo → Except Str Index
  | [] => .ok index
  | pane :: sessions =>
    if pane.id = [] ∨ pane.paneId = [] ∨ pane.name = [] then
      .error "tmux session snapshot contains an empty immutable, pane, or name identity".toList
    else if pane.id ∈ index.byId then
      .error "tmux session snapshot contains a duplicate immutable identity".toList
    else if pane.paneId ∈ index.byPane then
      .error "tmux session snapshot contains a duplicate pane identity".toList
    else if pane.name ∈ index.byName then
      .error "tmux session snapshot contains a duplicate session name".toList
    else
      indexLoop ⟨index.byId.insert pane.id pane, index.byPane.insert pane.paneId pane,
        index.byName.insert pane.name pane⟩ sessions

/-- The session that a target means. -/
def resolveTarget (index : Index) (target : Str) : Option SessionInfo :=
  let pane := if target.head? = some '%' then index.byPane.lookup target else none
  let resolved := (pane.or (index.byName.lookup target)).or (index.byId.lookup target)
  if resolved = none ∧ target.head? ≠ some '%' then index.byPane.lookup ('%' :: target) else resolved

/-- `snapshot_parent`. -/
def snapshotParent (byId : Map Str SessionInfo) (pane : SessionInfo) :
    Except Str (Option SessionInfo) :=
  match pane.parentSessionId, pane.parentPaneId with
  | none, none => .ok none
  | some parentId, some parentPaneId =>
    match byId.lookup parentId with
    | none => .error "tmux session snapshot references a missing parent".toList
    | some parent =>
      if parent.paneId ≠ parentPaneId then
        .error "tmux session snapshot parent identity does not match its pane identity".toList
      else .ok (some parent)
  | _, _ => .error "tmux session snapshot contains an incomplete parent identity".toList

/-- The loop up to the root, with a bound on its turns; `none` is a loop that goes on. -/
def rootLoop (byId : Map Str SessionInfo) : ℕ → Finset Str → SessionInfo → Option (Except Str SessionInfo)
  | 0, _, _ => none
  | turns + 1, ancestors, root =>
    if root.id ∈ ancestors then some (.error "tmux session snapshot contains a parent cycle".toList)
    else
      match snapshotParent byId root with
      | .error err => some (.error err)
      | .ok none => some (.ok root)
      | .ok (some parent) => rootLoop byId turns (insert root.id ancestors) parent

/-- The loop over the sessions for the children of one. -/
def captureChildren (byId : Map Str SessionInfo) (parent : SessionInfo) :
    List SessionInfo → List SessionInfo → Finset Str → Except Str (List SessionInfo × Finset Str)
  | [], tree, captured => .ok (tree, captured)
  | child :: sessions, tree, captured =>
    if child.parentSessionId ≠ some parent.id ∧ child.parentPaneId ≠ some parent.paneId then
      captureChildren byId parent sessions tree captured
    else
      match snapshotParent byId child with
      | .error err => .error err
      | .ok none => .error "tmux session snapshot descendant is missing its parent".toList
      | .ok (some actualParent) =>
        if actualParent.id ≠ parent.id then
          .error "tmux session snapshot contains inconsistent parent identities".toList
        else if child.id ∈ captured then
          .error "tmux session snapshot contains a descendant cycle".toList
        else captureChildren byId parent sessions (tree ++ [child]) (insert child.id captured)

/-- The loop over the tree while it grows, with a bound on its turns. -/
def captureLoop (byId : Map Str SessionInfo) (sessions : List SessionInfo) :
    ℕ → ℕ → List SessionInfo → Finset Str → Option (Except Str (List SessionInfo))
  | 0, _, _, _ => none
  | turns + 1, cursor, tree, captured =>
    match tree[cursor]? with
    | none => some (.ok tree)
    | some parent =>
      match captureChildren byId parent sessions tree captured with
      | .error err => some (.error err)
      | .ok (tree, captured) => captureLoop byId sessions turns (cursor + 1) tree captured

/-- `session_tree_from_snapshot`, with a bound on the turns of its loops; `none` is a loop that goes on. -/
def sessionTreeFromSnapshot (turns : ℕ) (target : Str) (sessions : List SessionInfo) :
    Option (Except Str (List SessionInfo)) :=
  match indexLoop ⟨∅, ∅, ∅⟩ sessions with
  | .error err => some (.error err)
  | .ok index =>
    match resolveTarget index target with
    | none =>
      some (.error ("tmux session target ".toList ++ terminalText target ++
        " is absent from the pre-kill snapshot".toList))
    | some resolved =>
      match rootLoop index.byId turns ∅ resolved with
      | none => none
      | some (.error err) => some (.error err)
      | some (.ok root) => captureLoop index.byId sessions turns 0 [root] {root.id}

/-- What `kill_session_with_cmux_cleanup` kills, and the ids whose panes and options it forgets. -/
def killTarget (turns : ℕ) (target : Str) (sessions : List SessionInfo) : Option (Except Str (Str × List Str)) :=
  (sessionTreeFromSnapshot turns target sessions).map fun result =>
    match result with
    | .error err => .error err
    | .ok [] => .error "validated tmux session snapshot has no root".toList
    | .ok (root :: panes) => .ok (root.id, root.id :: panes.map SessionInfo.id)

/-- `finalize_session` of a session of the daemon: `terminate_child_sessions`, whose calls are bounded in
depth, and then `remove_session`. The children are taken from the map `by_pane` in its `order`. -/
def finalizeSession (order : List SessionInfo → List SessionInfo) : ℕ → Str → List SessionInfo → List SessionInfo
  | 0, _, sessions => sessions
  | depth + 1, sessionId, sessions =>
    let children := order (sessions.filter fun candidate => decide (candidate.parentSessionId = some sessionId))
    let sessions := children.foldl (fun sessions child => finalizeSession order depth child.id sessions) sessions
    sessions.filter fun session => decide (session.id ≠ sessionId)

/-! ## Sessions and their parents -/

/-- Nothing is empty, and nothing is there twice. -/
structure Identified (sessions : List SessionInfo) : Prop where
  filled : ∀ row ∈ sessions, row.id ≠ [] ∧ row.paneId ≠ [] ∧ row.name ≠ []
  ids : (sessions.map SessionInfo.id).Nodup
  panes : (sessions.map SessionInfo.paneId).Nodup
  names : (sessions.map SessionInfo.name).Nodup

/-- The session of a target: by its pane if it starts with a percent sign, by its name, by its id, and by
its pane if only the percent sign is missing. -/
def targetOf (sessions : List SessionInfo) (target : Str) : Option SessionInfo :=
  let pane := if target.head? = some '%' then sessions.find? (fun row => decide (row.paneId = target)) else none
  let resolved := (pane.or (sessions.find? fun row => decide (row.name = target))).or
    (sessions.find? fun row => decide (row.id = target))
  if resolved = none ∧ target.head? ≠ some '%' then
    sessions.find? fun row => decide (row.paneId = '%' :: target)
  else resolved

/-- Both identities of the parent of `child` are those of `parent`. -/
structure ParentOf (sessions : List SessionInfo) (child parent : SessionInfo) : Prop where
  mem : parent ∈ sessions
  id : child.parentSessionId = some parent.id
  pane : child.parentPaneId = some parent.paneId

/-- Neither identity of a parent is there. -/
structure Parentless (row : SessionInfo) : Prop where
  id : row.parentSessionId = none
  pane : row.parentPaneId = none

/-- One of the identities of the parent of `child` is that of `parent`. -/
def Names (child parent : SessionInfo) : Prop :=
  child.parentSessionId = some parent.id ∨ child.parentPaneId = some parent.paneId

instance (child parent : SessionInfo) : Decidable (Names child parent) :=
  inferInstanceAs (Decidable (_ ∨ _))

/-- A session descends from another, or is it. -/
def Descends (sessions : List SessionInfo) : SessionInfo → SessionInfo → Prop :=
  ReflTransGen (ParentOf sessions)

variable {sessions : List SessionInfo} {child parent root row : SessionInfo}

theorem Identified.eq_of_id (h : Identified sessions) {a b : SessionInfo} (ha : a ∈ sessions)
    (hb : b ∈ sessions) (heq : a.id = b.id) : a = b :=
  List.inj_on_of_nodup_map h.ids ha hb heq

theorem Identified.eq_of_pane (h : Identified sessions) {a b : SessionInfo} (ha : a ∈ sessions)
    (hb : b ∈ sessions) (heq : a.paneId = b.paneId) : a = b :=
  List.inj_on_of_nodup_map h.panes ha hb heq

theorem ParentOf.unique (h : Identified sessions) {parent' : SessionInfo} (hp : ParentOf sessions child parent)
    (hp' : ParentOf sessions child parent') : parent = parent' :=
  h.eq_of_id hp.mem hp'.mem (Option.some.inj (hp.id.symm.trans hp'.id))

theorem ParentOf.names (h : ParentOf sessions child parent) : Names child parent := .inl h.id

theorem Parentless.not_parentOf (h : Parentless row) (parent : SessionInfo) : ¬ ParentOf sessions row parent := by
  intro hp
  have hid := hp.id
  rw [h.id] at hid
  cases hid

theorem Parentless.not_names (h : Parentless row) (parent : SessionInfo) : ¬ Names row parent := by
  rintro (hid | hpane)
  · rw [h.id] at hid
    cases hid
  · rw [h.pane] at hpane
    cases hpane

/-! ## The maps -/

/-- The map finds the rows by their key. -/
def IndexedBy (key : SessionInfo → Str) (map : Map Str SessionInfo) (rows : List SessionInfo) : Prop :=
  ∀ k row, map.lookup k = some row ↔ row ∈ rows ∧ key row = k

theorem IndexedBy.mem_iff {key : SessionInfo → Str} {map : Map Str SessionInfo} {rows : List SessionInfo}
    (h : IndexedBy key map rows) (k : Str) : k ∈ map ↔ k ∈ rows.map key := by
  rw [Finmap.mem_iff, List.mem_map]
  exact exists_congr fun row => h k row

theorem IndexedBy.insert {key : SessionInfo → Str} {map : Map Str SessionInfo} {rows : List SessionInfo}
    (h : IndexedBy key map rows) (hnew : key row ∉ map) :
    IndexedBy key (map.insert (key row) row) (rows ++ [row]) := by
  intro k found
  rw [lookup_insert, List.mem_append, List.mem_singleton]
  rw [h.mem_iff, List.mem_map] at hnew
  split_ifs with hk
  · constructor
    · intro heq
      rw [← Option.some.inj heq]
      exact ⟨.inr rfl, hk.symm⟩
    · rintro ⟨hmem | rfl, hkey⟩
      · exact absurd ⟨found, hmem, hkey.trans hk⟩ hnew
      · rfl
  · rw [h k found]
    constructor
    · exact fun hfound => ⟨.inl hfound.1, hfound.2⟩
    · rintro ⟨hmem | rfl, hkey⟩
      · exact ⟨hmem, hkey⟩
      · exact absurd hkey.symm hk

theorem IndexedBy.lookup_eq_find? {key : SessionInfo → Str} {map : Map Str SessionInfo}
    (h : IndexedBy key map sessions) (k : Str) :
    map.lookup k = sessions.find? fun row => decide (key row = k) := by
  rcases hfind : sessions.find? fun row => decide (key row = k) with _ | found
  · rw [Finmap.lookup_eq_none, h.mem_iff, List.mem_map]
    rintro ⟨row, hmem, hkey⟩
    have hnot := List.find?_eq_none.mp hfind row hmem
    rw [decide_eq_true_eq] at hnot
    exact hnot hkey
  · have hkey := List.find?_some hfind
    rw [decide_eq_true_eq] at hkey
    exact (h k found).mpr ⟨List.mem_of_find?_eq_some hfind, hkey⟩

/-- The three maps are those of the rows. -/
structure Index.Of (index : Index) (rows : List SessionInfo) : Prop where
  byId : IndexedBy SessionInfo.id index.byId rows
  byPane : IndexedBy SessionInfo.paneId index.byPane rows
  byName : IndexedBy SessionInfo.name index.byName rows

theorem index_empty : Index.Of ⟨∅, ∅, ∅⟩ [] :=
  have hempty : ∀ key, IndexedBy key ∅ [] := fun key k row => by simp
  ⟨hempty _, hempty _, hempty _⟩

theorem nodup_concat {key : SessionInfo → Str} {rows : List SessionInfo} :
    ((rows ++ [row]).map key).Nodup ↔ (rows.map key).Nodup ∧ key row ∉ rows.map key := by
  rw [List.map_append, List.map_singleton, List.nodup_append]
  simp only [List.nodup_singleton, true_and, List.mem_singleton, forall_eq]
  refine and_congr_right fun _ => ?_
  constructor
  · exact fun h hmem => h _ hmem rfl
  · rintro h k hmem rfl
    exact h hmem

theorem identified_concat {rows : List SessionInfo} : Identified (rows ++ [row]) ↔ Identified rows ∧
    (row.id ≠ [] ∧ row.paneId ≠ [] ∧ row.name ≠ []) ∧ row.id ∉ rows.map SessionInfo.id ∧
    row.paneId ∉ rows.map SessionInfo.paneId ∧ row.name ∉ rows.map SessionInfo.name := by
  constructor
  · intro h
    obtain ⟨hids, hid⟩ := nodup_concat.mp h.ids
    obtain ⟨hpanes, hpane⟩ := nodup_concat.mp h.panes
    obtain ⟨hnames, hname⟩ := nodup_concat.mp h.names
    have hfilled : ∀ r ∈ rows, r.id ≠ [] ∧ r.paneId ≠ [] ∧ r.name ≠ [] := fun r hmem =>
      h.filled r (List.mem_append_left _ hmem)
    exact ⟨⟨hfilled, hids, hpanes, hnames⟩, h.filled row (by simp), hid, hpane, hname⟩
  · rintro ⟨h, hfilled, hid, hpane, hname⟩
    refine ⟨fun r hmem => ?_, nodup_concat.mpr ⟨h.ids, hid⟩, nodup_concat.mpr ⟨h.panes, hpane⟩,
      nodup_concat.mpr ⟨h.names, hname⟩⟩
    rcases List.mem_append.mp hmem with hmem | hmem
    · exact h.filled r hmem
    · rw [List.mem_singleton.mp hmem]
      exact hfilled

theorem identified_of_append {rows more : List SessionInfo} (h : Identified (rows ++ more)) :
    Identified rows := by
  refine ⟨fun r hmem => h.filled r (List.mem_append_left _ hmem), ?_, ?_, ?_⟩
  · exact (List.sublist_append_left _ _ |>.map _).nodup h.ids
  · exact (List.sublist_append_left _ _ |>.map _).nodup h.panes
  · exact (List.sublist_append_left _ _ |>.map _).nodup h.names

/-- The loop over the rows fills the maps, or finds something empty or twice. -/
theorem indexLoop_spec {index : Index} {rows : List SessionInfo} (hindex : index.Of rows)
    (hrows : Identified rows) (more : List SessionInfo) :
    (∃ index', indexLoop index more = .ok index' ∧ index'.Of (rows ++ more) ∧ Identified (rows ++ more)) ∨
      (∃ err, indexLoop index more = .error err) ∧ ¬ Identified (rows ++ more) := by
  induction more generalizing index rows with
  | nil => exact .inl ⟨index, rfl, by rwa [List.append_nil], by rwa [List.append_nil]⟩
  | cons pane more ih =>
    have hid := hindex.byId.mem_iff pane.id
    have hpane := hindex.byPane.mem_iff pane.paneId
    have hname := hindex.byName.mem_iff pane.name
    have hsplit : rows ++ pane :: more = rows ++ [pane] ++ more := by simp
    have hbad : ¬ Identified (rows ++ [pane]) → ¬ Identified (rows ++ pane :: more) := by
      intro hnot h
      rw [hsplit] at h
      exact hnot (identified_of_append h)
    rw [indexLoop]
    split_ifs with hempty hdupId hdupPane hdupName
    · refine .inr ⟨⟨_, rfl⟩, hbad fun h => ?_⟩
      have hfilled := (identified_concat.mp h).2.1
      tauto
    · exact .inr ⟨⟨_, rfl⟩, hbad fun h => (identified_concat.mp h).2.2.1 (hid.mp hdupId)⟩
    · exact .inr ⟨⟨_, rfl⟩, hbad fun h => (identified_concat.mp h).2.2.2.1 (hpane.mp hdupPane)⟩
    · exact .inr ⟨⟨_, rfl⟩, hbad fun h => (identified_concat.mp h).2.2.2.2 (hname.mp hdupName)⟩
    · rw [hsplit]
      refine ih ⟨hindex.byId.insert hdupId, hindex.byPane.insert hdupPane, hindex.byName.insert hdupName⟩ ?_
      refine identified_concat.mpr ⟨hrows, by tauto, ?_, ?_, ?_⟩
      · exact fun hmem => hdupId (hid.mpr hmem)
      · exact fun hmem => hdupPane (hpane.mpr hmem)
      · exact fun hmem => hdupName (hname.mpr hmem)

theorem resolveTarget_eq {index : Index} (hindex : index.Of sessions) (target : Str) :
    resolveTarget index target = targetOf sessions target := by
  unfold resolveTarget targetOf
  simp only [hindex.byId.lookup_eq_find?, hindex.byPane.lookup_eq_find?, hindex.byName.lookup_eq_find?]

theorem mem_of_targetOf {target : Str} (h : targetOf sessions target = some row) : row ∈ sessions := by
  have hfind : ∀ {test : SessionInfo → Bool}, sessions.find? test = some row → row ∈ sessions :=
    fun h => List.mem_of_find?_eq_some h
  unfold targetOf at h
  simp only at h
  split_ifs at h with hpercent hnone hnone
  · exact hfind h
  · rcases Option.or_eq_some_iff.mp h with h | ⟨-, h⟩
    · rcases Option.or_eq_some_iff.mp h with h | ⟨-, h⟩
      · exact hfind h
      · exact hfind h
    · exact hfind h
  · exact hfind h
  · rw [Option.none_or] at h
    rcases Option.or_eq_some_iff.mp h with h | ⟨-, h⟩
    · exact hfind h
    · exact hfind h

/-! ## The way up -/

section Loops

variable {byId : Map Str SessionInfo} (hid : IndexedBy SessionInfo.id byId sessions)
include hid

/-- A session has no parent, or one that is there, or what it says of its parent is refused. -/
theorem snapshotParent_cases (row : SessionInfo) :
    Parentless row ∧ snapshotParent byId row = .ok none ∨
    (∃ parent, ParentOf sessions row parent ∧ snapshotParent byId row = .ok (some parent)) ∨
    (¬ Parentless row ∧ (∀ parent, ¬ ParentOf sessions row parent) ∧
      ∃ err, snapshotParent byId row = .error err) := by
  unfold snapshotParent
  rcases hsession : row.parentSessionId with _ | parentId
  · have hno : ∀ parent, ¬ ParentOf sessions row parent := by
      intro parent h
      have hsome := h.id
      rw [hsession] at hsome
      cases hsome
    rcases hpane : row.parentPaneId with _ | parentPaneId
    · exact .inl ⟨⟨hsession, hpane⟩, rfl⟩
    · refine .inr (.inr ⟨fun h => ?_, hno, _, rfl⟩)
      have hnone := h.pane
      rw [hpane] at hnone
      cases hnone
  · have hno : ¬ Parentless row := by
      intro h
      have hnone := h.id
      rw [hsession] at hnone
      cases hnone
    rcases hpane : row.parentPaneId with _ | parentPaneId
    · refine .inr (.inr ⟨hno, fun parent h => ?_, _, rfl⟩)
      have hsome := h.pane
      rw [hpane] at hsome
      cases hsome
    · have hparent : ∀ parent, ParentOf sessions row parent →
          byId.lookup parentId = some parent ∧ parent.paneId = parentPaneId := by
        intro parent h
        have hkey := Option.some.inj (hsession.symm.trans h.id)
        exact ⟨(hid _ _).mpr ⟨h.mem, hkey.symm⟩, (Option.some.inj (hpane.symm.trans h.pane)).symm⟩
      simp only
      rcases hfound : byId.lookup parentId with _ | found
      · refine .inr (.inr ⟨hno, fun parent h => ?_, _, rfl⟩)
        have hsome := (hparent parent h).1
        rw [hfound] at hsome
        cases hsome
      · obtain ⟨hmem, hkey⟩ := (hid _ _).mp hfound
        by_cases hmatch : found.paneId = parentPaneId
        · refine .inr (.inl ⟨found, ⟨hmem, by rw [hsession, hkey], by rw [hpane, hmatch]⟩, ?_⟩)
          simp [hmatch]
        · refine .inr (.inr ⟨hno, fun parent h => ?_, _, by simp only [if_pos hmatch]; rfl⟩)
          have hsome := hparent parent h
          rw [hfound] at hsome
          rw [← Option.some.inj hsome.1] at hsome
          exact hmatch hsome.2

/-- The ids on the way up to a session: of sessions that are below it. -/
structure Passed (sessions : List SessionInfo) (ancestors : Finset Str) (row : SessionInfo) : Prop where
  mem : row ∈ sessions
  below : ∀ id ∈ ancestors, ∃ r ∈ sessions, r.id = id ∧ TransGen (ParentOf sessions) r row

/-- Enough turns reach an end: the root of the tree, or an error if there is none. -/
theorem rootLoop_spec (h : Identified sessions) {turns : ℕ} {ancestors : Finset Str}
    (hpassed : Passed sessions ancestors row) (hturns : sessions.length < turns + ancestors.card) :
    (∃ root, rootLoop byId turns ancestors row = some (.ok root) ∧ Descends sessions row root ∧
        Parentless root ∧ root ∈ sessions) ∨
      (∃ err, rootLoop byId turns ancestors row = some (.error err)) ∧
        ¬ ∃ root, Descends sessions row root ∧ Parentless root := by
  induction turns generalizing ancestors row with
  | zero =>
    have hsub : ancestors ⊆ (sessions.map SessionInfo.id).toFinset := by
      intro id hmem
      obtain ⟨r, hr, rfl, -⟩ := hpassed.below id hmem
      exact List.mem_toFinset.mpr (List.mem_map_of_mem hr)
    have hcard := (Finset.card_le_card hsub).trans (List.toFinset_card_le _)
    rw [List.length_map] at hcard
    omega
  | succ turns ih =>
    have hunique : ∀ a b c, ParentOf sessions a b → ParentOf sessions a c → b = c :=
      fun _ _ _ hb hc => hb.unique h hc
    rw [rootLoop]
    split_ifs with hseen
    · refine .inr ⟨⟨_, rfl⟩, ?_⟩
      rintro ⟨root, hdescends, hroot⟩
      obtain ⟨r, hr, hkey, hbelow⟩ := hpassed.below _ hseen
      rw [h.eq_of_id hr hpassed.mem hkey] at hbelow
      exact Ancestry.not_transGen_self hunique hdescends hroot.not_parentOf hbelow
    · rcases snapshotParent_cases hid row with ⟨hnone, heq⟩ | ⟨parent, hparent, heq⟩ | ⟨hnone, hbad, err, heq⟩
      · rw [heq]
        exact .inl ⟨row, rfl, .refl, hnone, hpassed.mem⟩
      · rw [heq]
        have hpassed' : Passed sessions (insert row.id ancestors) parent := by
          refine ⟨hparent.mem, fun id hmem => ?_⟩
          rcases Finset.mem_insert.mp hmem with rfl | hmem
          · exact ⟨row, hpassed.mem, rfl, .single hparent⟩
          · obtain ⟨r, hr, hkey, hbelow⟩ := hpassed.below id hmem
            exact ⟨r, hr, hkey, hbelow.tail hparent⟩
        have hcard := Finset.card_insert_of_notMem hseen
        rcases ih hpassed' (by omega) with ⟨root, hok, hdescends, hroot, hmem⟩ | ⟨herr, hno⟩
        · exact .inl ⟨root, hok, hdescends.head hparent, hroot, hmem⟩
        · refine .inr ⟨herr, ?_⟩
          rintro ⟨root, hdescends, hroot⟩
          refine hno ⟨root, ?_, hroot⟩
          rcases ReflTransGen.cases_head hdescends with rfl | ⟨next, hnext, hrest⟩
          · exact absurd hparent (hroot.not_parentOf parent)
          · rwa [hunique _ _ _ hparent hnext]
      · rw [heq]
        refine .inr ⟨⟨err, rfl⟩, ?_⟩
        rintro ⟨root, hdescends, hroot⟩
        rcases ReflTransGen.cases_head hdescends with rfl | ⟨next, hnext, -⟩
        · exact hnone hroot
        · exact hbad next hnext

/-! ## The way down -/

/-- The loop over the sessions captures those that name the parent, unless one of them names it wrongly or
is captured already. -/
theorem captureChildren_spec (h : Identified sessions) (hparent : parent ∈ sessions)
    {rest : List SessionInfo} (hrest : ∀ child ∈ rest, child ∈ sessions)
    (hnodup : (rest.map SessionInfo.id).Nodup) (tree : List SessionInfo) (captured : Finset Str) :
    let children := rest.filter fun child => decide (Names child parent)
    (captureChildren byId parent rest tree captured =
        .ok (tree ++ children, captured ∪ (children.map SessionInfo.id).toFinset) ∧
      (∀ child ∈ rest, Names child parent → ParentOf sessions child parent ∧ child.id ∉ captured)) ∨
    (∃ err, captureChildren byId parent rest tree captured = .error err) ∧
      ∃ child ∈ rest, Names child parent ∧
        (ParentOf sessions child parent → child.id ∈ captured) := by
  induction rest generalizing tree captured with
  | nil => exact .inl ⟨by simp [captureChildren], fun child hmem => nomatch hmem⟩
  | cons child rest ih =>
    intro children
    rw [List.map_cons, List.nodup_cons] at hnodup
    have hrest' : ∀ child ∈ rest, child ∈ sessions := fun c hmem => hrest c (List.mem_cons_of_mem _ hmem)
    have hlater : ∀ c ∈ rest, c.id ≠ child.id := by
      intro c hmem heq
      exact hnodup.1 (heq ▸ List.mem_map_of_mem hmem)
    rw [captureChildren]
    by_cases hskip : child.parentSessionId ≠ some parent.id ∧ child.parentPaneId ≠ some parent.paneId
    · -- the session names another parent, or none
      rw [if_pos hskip]
      have hnot : ¬ Names child parent := by
        rintro (hid | hpane)
        · exact hskip.1 hid
        · exact hskip.2 hpane
      have hchildren : children = rest.filter fun child => decide (Names child parent) :=
        List.filter_cons_of_neg (by simpa using hnot)
      rw [hchildren]
      rcases ih hrest' hnodup.2 tree captured with ⟨hok, hall⟩ | ⟨herr, c, hmem, hbad⟩
      · refine .inl ⟨hok, fun c hmem hnames => ?_⟩
        rcases List.mem_cons.mp hmem with rfl | hmem
        · exact absurd hnames hnot
        · exact hall c hmem hnames
      · exact .inr ⟨herr, c, List.mem_cons_of_mem _ hmem, hbad⟩
    · rw [if_neg hskip]
      have hnames : Names child parent := by
        by_contra hnot
        exact hskip ⟨fun hid => hnot (.inl hid), fun hpane => hnot (.inr hpane)⟩
      rcases snapshotParent_cases hid child with ⟨hnone, heq⟩ | ⟨actual, hactual, heq⟩ | ⟨-, hbad, err, heq⟩
      · exact absurd hnames (hnone.not_names parent)
      · rw [heq]
        simp only
        split_ifs with hother hseen
        · refine .inr ⟨⟨_, rfl⟩, child, List.mem_cons_self, hnames, fun hchild => ?_⟩
          rw [hactual.unique h hchild] at hother
          exact absurd rfl hother
        · exact .inr ⟨⟨_, rfl⟩, child, List.mem_cons_self, hnames, fun _ => hseen⟩
        · rw [not_not] at hother
          obtain rfl : actual = parent := h.eq_of_id hactual.mem hparent hother
          have hchildren : children = child :: rest.filter fun child => decide (Names child actual) :=
            List.filter_cons_of_pos (by simpa using hnames)
          rcases ih hrest' hnodup.2 (tree ++ [child]) (insert child.id captured) with
            ⟨hok, hall⟩ | ⟨herr, c, hmem, hbad⟩
          · refine .inl ⟨?_, fun c hmem hc => ?_⟩
            · rw [hok, hchildren]
              simp [Finset.insert_union, Finset.union_insert]
            · rcases List.mem_cons.mp hmem with rfl | hmem
              · exact ⟨hactual, hseen⟩
              · obtain ⟨hchild, hfresh⟩ := hall c hmem hc
                exact ⟨hchild, fun hold => hfresh (Finset.mem_insert_of_mem hold)⟩
          · refine .inr ⟨herr, c, List.mem_cons_of_mem _ hmem, hbad.1, fun hchild => ?_⟩
            exact (Finset.mem_insert.mp (hbad.2 hchild)).resolve_left (hlater c hmem)
      · rw [heq]
        exact .inr ⟨⟨err, rfl⟩, child, List.mem_cons_self, hnames, fun hchild => absurd hchild (hbad parent)⟩

omit hid

/-- The tree while it grows: the sessions in front of the cursor have all their children in it. -/
structure Capturing (sessions : List SessionInfo) (root : SessionInfo) (cursor : ℕ) (tree : List SessionInfo)
    (captured : Finset Str) : Prop where
  captured_eq : captured = (tree.map SessionInfo.id).toFinset
  nodup : (tree.map SessionInfo.id).Nodup
  mem : ∀ row ∈ tree, row ∈ sessions
  head : tree[0]? = some root
  cursor_le : cursor ≤ tree.length
  behind : ∀ i child, tree[i]? = some child → i ≠ 0 →
    ∃ j parent, j < i ∧ j < cursor ∧ tree[j]? = some parent ∧ ParentOf sessions child parent
  closed : ∀ j parent, j < cursor → tree[j]? = some parent → ∀ child ∈ sessions, Names child parent →
    ParentOf sessions child parent ∧ child ∈ tree

variable {cursor : ℕ} {tree : List SessionInfo} {captured : Finset Str}

theorem Capturing.start (hmem : root ∈ sessions) : Capturing sessions root 0 [root] {root.id} where
  captured_eq := rfl
  nodup := List.nodup_singleton _
  mem row hrow := by rwa [List.mem_singleton.mp hrow]
  head := rfl
  cursor_le := Nat.zero_le _
  behind i child hchild hne := by
    obtain ⟨n, rfl⟩ := Nat.exists_eq_succ_of_ne_zero hne
    cases hchild
  closed j parent hlt := absurd hlt (Nat.not_lt_zero j)

/-- What is in the tree descends from the root. -/
theorem Capturing.descends (h : Capturing sessions root cursor tree captured) :
    ∀ {i : ℕ} {row : SessionInfo}, tree[i]? = some row → Descends sessions row root := by
  intro i
  induction i using Nat.strong_induction_on with
  | _ i ih =>
    intro row hrow
    rcases Nat.eq_zero_or_pos i with rfl | hpos
    · rw [h.head] at hrow
      rw [Option.some.inj hrow]
      exact .refl
    · obtain ⟨j, parent, hlt, -, hparent, hchild⟩ := h.behind i row hrow (by omega)
      exact (ih j hlt hparent).head hchild

theorem Capturing.index_unique (h : Capturing sessions root cursor tree captured) {i j : ℕ}
    (hi : tree[i]? = some row) (hj : tree[j]? = some row) : i = j := by
  have hnodup : tree.Nodup := List.Nodup.of_map _ h.nodup
  obtain ⟨hlt, -⟩ := List.getElem?_eq_some_iff.mp hi
  exact (List.getElem?_inj hlt hnodup).mp (hi.trans hj.symm)

/-- A child of the session under the cursor is not in the tree yet: its parent would stand in front of the
cursor. -/
theorem Capturing.fresh (h : Capturing sessions root cursor tree captured) (hsessions : Identified sessions)
    (hroot : Parentless root) (hcursor : tree[cursor]? = some parent) (hmem : child ∈ sessions)
    (hchild : ParentOf sessions child parent) : child.id ∉ captured := by
  rw [h.captured_eq, List.mem_toFinset, List.mem_map]
  rintro ⟨row, hrow, hkey⟩
  obtain rfl : row = child := hsessions.eq_of_id (h.mem row hrow) hmem hkey
  obtain ⟨i, hi⟩ := List.getElem?_of_mem hrow
  have hne : i ≠ 0 := by
    rintro rfl
    rw [h.head] at hi
    rw [← Option.some.inj hi] at hchild
    exact hroot.not_parentOf parent hchild
  obtain ⟨j, parent', -, hlt, hj, hparent'⟩ := h.behind i row hi hne
  rw [hparent'.unique hsessions hchild] at hj
  exact absurd (h.index_unique hj hcursor) (by omega)

theorem Capturing.step (h : Capturing sessions root cursor tree captured) (hsessions : Identified sessions)
    (hcursor : tree[cursor]? = some parent)
    (hall : ∀ child ∈ sessions, Names child parent → ParentOf sessions child parent ∧ child.id ∉ captured) :
    let children := sessions.filter fun child => decide (Names child parent)
    Capturing sessions root (cursor + 1) (tree ++ children)
      (captured ∪ (children.map SessionInfo.id).toFinset) := by
  intro children
  have hchildren : ∀ child, child ∈ children ↔ child ∈ sessions ∧ Names child parent := by
    intro child
    rw [List.mem_filter, decide_eq_true_eq]
  have hlt : cursor < tree.length := (List.getElem?_eq_some_iff.mp hcursor).1
  have hold : ∀ {j : ℕ}, j < tree.length → (tree ++ children)[j]? = tree[j]? := fun hj =>
    List.getElem?_append_left hj
  refine ⟨?_, ?_, ?_, ?_, ?_, ?_, ?_⟩
  · rw [h.captured_eq, List.map_append, List.toFinset_append]
  · rw [List.map_append, List.nodup_append]
    refine ⟨h.nodup, (List.filter_sublist.map _).nodup hsessions.ids, ?_⟩
    rintro id hid id' hid' rfl
    obtain ⟨child, hchild, rfl⟩ := List.mem_map.mp hid'
    obtain ⟨hmem, hnames⟩ := (hchildren child).mp hchild
    refine (hall child hmem hnames).2 ?_
    rw [h.captured_eq, List.mem_toFinset]
    exact hid
  · intro row hrow
    rcases List.mem_append.mp hrow with hrow | hrow
    · exact h.mem row hrow
    · exact ((hchildren row).mp hrow).1
  · rw [hold (by omega), h.head]
  · rw [List.length_append]
    omega
  · intro i child hi hne
    by_cases hin : i < tree.length
    · rw [hold hin] at hi
      obtain ⟨j, parent', hji, hjc, hj, hparent'⟩ := h.behind i child hi hne
      exact ⟨j, parent', hji, by omega, by rw [hold (by omega), hj], hparent'⟩
    · rw [List.getElem?_append_right (by omega)] at hi
      obtain ⟨hmem, hnames⟩ := (hchildren child).mp (List.mem_of_getElem? hi)
      exact ⟨cursor, parent, by omega, by omega, by rw [hold hlt, hcursor], (hall child hmem hnames).1⟩
  · intro j parent' hj hget child hmem hnames
    rcases Nat.lt_succ_iff_lt_or_eq.mp hj with hj | rfl
    · rw [hold (by omega)] at hget
      obtain ⟨hparent', hin⟩ := h.closed j parent' hj hget child hmem hnames
      exact ⟨hparent', List.mem_append_left _ hin⟩
    · rw [hold hlt, hcursor] at hget
      obtain rfl := Option.some.inj hget
      exact ⟨(hall child hmem hnames).1, List.mem_append_right _ ((hchildren child).mpr ⟨hmem, hnames⟩)⟩

include hid

/-- The loop ends with the whole tree, or a session names one of it wrongly. -/
theorem captureLoop_spec (hsessions : Identified sessions) (hroot : Parentless root) {turns : ℕ}
    (h : Capturing sessions root cursor tree captured) (hturns : sessions.length < turns + cursor) :
    (∃ tree' captured', captureLoop byId sessions turns cursor tree captured = some (.ok tree') ∧
        Capturing sessions root tree'.length tree' captured') ∨
      (∃ err, captureLoop byId sessions turns cursor tree captured = some (.error err)) ∧
        ∃ member child, Descends sessions member root ∧ member ∈ sessions ∧ child ∈ sessions ∧
          Names child member ∧ ¬ ParentOf sessions child member := by
  induction turns generalizing cursor tree captured with
  | zero =>
    have hsub : tree ⊆ sessions := fun row hrow => h.mem row hrow
    have hle := ((List.Nodup.of_map _ h.nodup).subperm hsub).length_le
    have hcursor := h.cursor_le
    omega
  | succ turns ih =>
    rw [captureLoop]
    rcases hcursor : tree[cursor]? with _ | parent
    · have hend : cursor = tree.length := le_antisymm h.cursor_le (List.getElem?_eq_none_iff.mp hcursor)
      rw [hend] at h
      exact .inl ⟨tree, captured, rfl, h⟩
    · have hparent : parent ∈ sessions := h.mem parent (List.mem_of_getElem? hcursor)
      simp only
      rcases captureChildren_spec hid hsessions hparent (fun _ hmem => hmem) hsessions.ids tree captured with
        ⟨hok, hall⟩ | ⟨⟨err, herr⟩, child, hmem, hnames, hseen⟩
      · rw [hok]
        exact ih (h.step hsessions hcursor hall) (by omega)
      · rw [herr]
        refine .inr ⟨⟨err, rfl⟩, parent, child, h.descends hcursor, hparent, hmem, hnames, fun hchild => ?_⟩
        exact h.fresh hsessions hroot hcursor hmem hchild (hseen hchild)

end Loops

/-! ## The capture -/

/-- A session whose identity of a parent is refused: half of it is missing, no session has the id, or the
session with the id has another pane. -/
def Misnamed (sessions : List SessionInfo) (row : SessionInfo) : Prop :=
  row.parentSessionId.isSome ≠ row.parentPaneId.isSome ∨
    (∃ id, row.parentSessionId = some id ∧ ∀ parent ∈ sessions, parent.id ≠ id) ∨
    ∃ parent ∈ sessions, row.parentSessionId = some parent.id ∧ row.parentPaneId ≠ some parent.paneId

theorem Misnamed.not_parentless (h : Misnamed sessions row) : ¬ Parentless row := by
  rintro ⟨hid, hpane⟩
  rcases h with h | ⟨id, h, -⟩ | ⟨parent, -, h, -⟩
  · rw [hid, hpane] at h
    exact h rfl
  · rw [hid] at h
    cases h
  · rw [hid] at h
    cases h

theorem Misnamed.not_parentOf (hsessions : Identified sessions) (h : Misnamed sessions row)
    (parent : SessionInfo) : ¬ ParentOf sessions row parent := by
  intro hparent
  rcases h with h | ⟨id, h, hnone⟩ | ⟨other, hmem, h, hpane⟩
  · rw [hparent.id, hparent.pane] at h
    exact h rfl
  · rw [hparent.id] at h
    exact hnone parent hparent.mem (Option.some.inj h)
  · rw [hparent.id] at h
    have heq := hsessions.eq_of_id hparent.mem hmem (Option.some.inj h)
    rw [hparent.pane, heq] at hpane
    exact hpane rfl

/-- Every session of the tree of `root` is named by its children with both identities. -/
def Tidy (sessions : List SessionInfo) (root : SessionInfo) : Prop :=
  ∀ member ∈ sessions, Descends sessions member root → ∀ child ∈ sessions, Names child member →
    ParentOf sessions child member

/-- The capture of a tree: from its root, each session once, behind its parent. -/
structure Captured (sessions : List SessionInfo) (root : SessionInfo) (tree : List SessionInfo) : Prop where
  head : tree.head? = some root
  nodup : tree.Nodup
  mem_iff : ∀ row, row ∈ tree ↔ row ∈ sessions ∧ Descends sessions row root
  behind : ∀ before child after, tree = before ++ child :: after → ∀ parent, ParentOf sessions child parent →
    parent ∈ before
  tidy : Tidy sessions root

theorem Capturing.finish {tree : List SessionInfo} {captured : Finset Str} (hsessions : Identified sessions)
    (hroot : Parentless root) (h : Capturing sessions root tree.length tree captured) :
    Captured sessions root tree := by
  have hnodup : tree.Nodup := List.Nodup.of_map _ h.nodup
  have hclosed : ∀ parent ∈ tree, ∀ child ∈ sessions, Names child parent →
      ParentOf sessions child parent ∧ child ∈ tree := by
    intro parent hparent
    obtain ⟨j, hj⟩ := List.getElem?_of_mem hparent
    exact h.closed j parent (List.getElem?_eq_some_iff.mp hj).1 hj
  have hmem : ∀ row, row ∈ tree ↔ row ∈ sessions ∧ Descends sessions row root := by
    intro row
    constructor
    · intro hrow
      obtain ⟨i, hi⟩ := List.getElem?_of_mem hrow
      exact ⟨h.mem row hrow, h.descends hi⟩
    · rintro ⟨hrow, hdescends⟩
      induction hdescends using ReflTransGen.head_induction_on with
      | refl => exact List.mem_of_getElem? h.head
      | head hchild _ ih => exact (hclosed _ (ih hchild.mem) _ hrow hchild.names).2
  refine ⟨by rw [List.head?_eq_getElem?, h.head], hnodup, hmem, ?_, ?_⟩
  · rintro before child after htree parent hparent
    have hi : tree[before.length]? = some child := by simp [htree]
    have hne : before.length ≠ 0 := by
      intro hzero
      rw [hzero, h.head] at hi
      rw [← Option.some.inj hi] at hparent
      exact hroot.not_parentOf parent hparent
    obtain ⟨j, parent', hlt, -, hj, hparent'⟩ := h.behind _ child hi hne
    rw [hparent'.unique hsessions hparent, htree, List.getElem?_append_left hlt] at hj
    exact List.mem_of_getElem? hj
  · intro member hmember hdescends child hchild hnames
    exact (hclosed member ((hmem member).mpr ⟨hmember, hdescends⟩) child hchild hnames).1

/-- With enough turns the tree is captured, or there is no tree to capture. -/
theorem sessionTreeFromSnapshot_spec {turns : ℕ} (target : Str) (hturns : sessions.length < turns) :
    (∃ tree root row, sessionTreeFromSnapshot turns target sessions = some (.ok tree) ∧ Identified sessions ∧
        targetOf sessions target = some row ∧ Descends sessions row root ∧ Parentless root ∧
        Captured sessions root tree) ∨
      (∃ err, sessionTreeFromSnapshot turns target sessions = some (.error err)) ∧
        ¬ (Identified sessions ∧ ∃ row root, targetOf sessions target = some row ∧
          Descends sessions row root ∧ Parentless root ∧ Tidy sessions root) := by
  have hnil : Identified ([] : List SessionInfo) :=
    ⟨fun _ hmem => (nomatch hmem), List.nodup_nil, List.nodup_nil, List.nodup_nil⟩
  unfold sessionTreeFromSnapshot
  rcases indexLoop_spec index_empty hnil sessions with ⟨index, hok, hindex, h⟩ | ⟨⟨err, herr⟩, hnot⟩
  · rw [hok]
    rw [List.nil_append] at hindex h
    simp only
    rw [resolveTarget_eq hindex]
    rcases htarget : targetOf sessions target with _ | row
    · refine .inr ⟨⟨_, rfl⟩, ?_⟩
      rintro ⟨-, row, root, hrow, -⟩
      cases hrow
    · have hpassed : Passed sessions ∅ row :=
        ⟨mem_of_targetOf htarget, fun id hmem => absurd hmem (Finset.notMem_empty id)⟩
      rcases rootLoop_spec hindex.byId h hpassed
          (by simpa using hturns : sessions.length < turns + (∅ : Finset Str).card) with
        ⟨root, hroot, hdescends, hparentless, hmem⟩ | ⟨⟨err, herr⟩, hno⟩
      · simp only [hroot]
        rcases captureLoop_spec hindex.byId h hparentless (Capturing.start hmem)
            (hturns : sessions.length < turns + 0) with
          ⟨tree, captured, hok, hcapturing⟩ | ⟨⟨err, herr⟩, member, child, hmember, hin, hchild, hnames, hbad⟩
        · exact .inl ⟨tree, root, row, hok, h, rfl, hdescends, hparentless, hcapturing.finish h hparentless⟩
        · refine .inr ⟨⟨err, herr⟩, ?_⟩
          rintro ⟨-, row', root', hrow', hdescends', hparentless', htidy⟩
          obtain rfl := Option.some.inj hrow'
          have hunique : ∀ a b c, ParentOf sessions a b → ParentOf sessions a c → b = c :=
            fun _ _ _ hb hc => hb.unique h hc
          have hup := Ancestry.reflTransGen_root hunique hdescends' hparentless'.not_parentOf hdescends
          obtain rfl : root = root' := by
            rcases ReflTransGen.cases_head hup with heq | ⟨next, hnext, -⟩
            · exact heq
            · exact absurd hnext (hparentless.not_parentOf next)
          exact hbad (htidy member hin hmember child hchild hnames)
      · simp only [herr]
        refine .inr ⟨⟨err, rfl⟩, ?_⟩
        rintro ⟨-, row', root, hrow', hdescends, hparentless, -⟩
        obtain rfl := Option.some.inj hrow'
        exact hno ⟨root, hdescends, hparentless⟩
  · rw [herr]
    rw [List.nil_append] at hnot
    exact .inr ⟨⟨err, rfl⟩, fun h => hnot h.1⟩

/-- Where no session is its own ancestor and every identity of a parent is right, each session has a root. -/
theorem exists_root (hconsistent : ∀ row ∈ sessions, Parentless row ∨ ∃ parent, ParentOf sessions row parent)
    (hacyclic : ∀ row ∈ sessions, ¬ TransGen (ParentOf sessions) row row) (hrow : row ∈ sessions) :
    ∃ root, Descends sessions row root ∧ Parentless root := by
  let Above (a b : { r // r ∈ sessions }) : Prop := TransGen (ParentOf sessions) b.1 a.1
  have htrans : IsTrans _ Above := ⟨fun _ _ _ hab hbc => hbc.trans hab⟩
  have hirrefl : Std.Irrefl Above := ⟨fun a => hacyclic a.1 a.2⟩
  have hfinite : Finite { r // r ∈ sessions } := List.finite_toSet sessions
  have hwf : WellFounded Above := Finite.wellFounded_of_trans_of_irrefl Above
  have hall : ∀ a : { r // r ∈ sessions }, ∃ root, Descends sessions a.1 root ∧ Parentless root := by
    intro a
    induction a using hwf.induction with
    | _ a ih =>
      rcases hconsistent a.1 a.2 with hnone | ⟨parent, hparent⟩
      · exact ⟨a.1, .refl, hnone⟩
      · obtain ⟨root, hdescends, hroot⟩ := ih ⟨parent, hparent.mem⟩ (.single hparent)
        exact ⟨root, hdescends.head hparent, hroot⟩
  exact hall ⟨row, hrow⟩

/-- Right identities are all that the way down asks for. -/
theorem tidy_of_consistent (hsessions : Identified sessions)
    (hconsistent : ∀ row ∈ sessions, Parentless row ∨ ∃ parent, ParentOf sessions row parent)
    (root : SessionInfo) : Tidy sessions root := by
  intro member hmember _ child hchild hnames
  rcases hconsistent child hchild with hnone | ⟨parent, hparent⟩
  · exact absurd hnames (hnone.not_names member)
  · have heq : parent = member := by
      rcases hnames with hid | hpane
      · exact hsessions.eq_of_id hparent.mem hmember (Option.some.inj (hparent.id.symm.trans hid))
      · exact hsessions.eq_of_pane hparent.mem hmember (Option.some.inj (hparent.pane.symm.trans hpane))
    rwa [← heq]

/-! ## The cascade -/

/-- `parent` is the parent of `child` for the daemon, which goes by the id. -/
structure ChildOf (sessions : List SessionInfo) (child parent : SessionInfo) : Prop where
  child_mem : child ∈ sessions
  parent_mem : parent ∈ sessions
  id : child.parentSessionId = some parent.id

theorem ChildOf.unique (h : Identified sessions) {parent' : SessionInfo} (hp : ChildOf sessions child parent)
    (hp' : ChildOf sessions child parent') : parent = parent' :=
  h.eq_of_id hp.parent_mem hp'.parent_mem (Option.some.inj (hp.id.symm.trans hp'.id))

/-- The sessions that are left while a cascade goes on: with a session, its ancestors are left. -/
structure Left (sessions left : List SessionInfo) : Prop where
  mem : ∀ row ∈ left, row ∈ sessions
  parent : ∀ row ∈ left, ∀ parent, ChildOf sessions row parent → parent ∈ left

theorem Left.ancestor {left : List SessionInfo} (h : Left sessions left) {above : SessionInfo} (hrow : row ∈ left)
    (habove : ReflTransGen (ChildOf sessions) row above) : above ∈ left := by
  induction habove with
  | refl => exact hrow
  | tail _ hchild ih => exact h.parent _ ih _ hchild

open Classical in
/-- The sessions of the tree of `top`, as the daemon sees it. -/
noncomputable def below (sessions : List SessionInfo) (top : SessionInfo) : Finset SessionInfo :=
  sessions.toFinset.filter fun row => ReflTransGen (ChildOf sessions) row top

theorem mem_below {top : SessionInfo} :
    row ∈ below sessions top ↔ row ∈ sessions ∧ ReflTransGen (ChildOf sessions) row top := by
  classical
  simp [below]

/-- The tree of a child is smaller. -/
theorem card_below_lt {top : SessionInfo} (hacyclic : ¬ TransGen (ChildOf sessions) top top)
    (hchild : ChildOf sessions child top) : (below sessions child).card < (below sessions top).card := by
  refine Finset.card_lt_card (Finset.ssubset_iff_subset_ne.mpr ⟨fun row hrow => ?_, fun heq => ?_⟩)
  · obtain ⟨hmem, hrow⟩ := mem_below.mp hrow
    exact mem_below.mpr ⟨hmem, hrow.tail hchild⟩
  · have htop : top ∈ below sessions top := mem_below.mpr ⟨hchild.parent_mem, .refl⟩
    rw [← heq] at htop
    exact hacyclic (TransGen.tail' (mem_below.mp htop).2 hchild)

/-- **The cascade removes a session and what descends from it, and nothing else.** -/
theorem mem_finalizeSession_iff (hsessions : Identified sessions) {order : List SessionInfo → List SessionInfo}
    (horder : ∀ rows, (order rows).Perm rows) {depth : ℕ} {top : SessionInfo} (htop : top ∈ sessions)
    (hacyclic : ∀ row, ReflTransGen (ChildOf sessions) row top → ¬ TransGen (ChildOf sessions) row row)
    (hdepth : (below sessions top).card ≤ depth) {left : List SessionInfo} (hleft : Left sessions left) :
    ∀ row, row ∈ finalizeSession order depth top.id left ↔
      row ∈ left ∧ ¬ ReflTransGen (ChildOf sessions) row top := by
  induction depth generalizing top left with
  | zero =>
    have hself : top ∈ below sessions top := mem_below.mpr ⟨htop, .refl⟩
    have hpos := Finset.card_pos.mpr ⟨top, hself⟩
    omega
  | succ depth ih =>
    have hfold : ∀ (children : List SessionInfo), (∀ child ∈ children, ChildOf sessions child top) →
        ∀ rest, Left sessions rest → ∀ row,
          row ∈ children.foldl (fun rest child => finalizeSession order depth child.id rest) rest ↔
            row ∈ rest ∧ ∀ child ∈ children, ¬ ReflTransGen (ChildOf sessions) row child := by
      intro children hchildren
      induction children with
      | nil => simp
      | cons child children ihChildren =>
        intro rest hrest row
        rw [List.forall_mem_cons] at hchildren
        obtain ⟨hchild, hchildren⟩ := hchildren
        have hsmaller := card_below_lt (hacyclic top .refl) hchild
        have hstep := ih hchild.child_mem (fun row hrow => hacyclic row (hrow.tail hchild)) (by omega) hrest
        have hrest' : Left sessions (finalizeSession order depth child.id rest) := by
          refine ⟨fun row hrow => hrest.mem row ((hstep row).mp hrow).1, fun row hrow parent hparent => ?_⟩
          obtain ⟨hmem, hnot⟩ := (hstep row).mp hrow
          exact (hstep parent).mpr ⟨hrest.parent row hmem parent hparent, fun h => hnot (h.head hparent)⟩
        rw [List.foldl_cons, ihChildren hchildren _ hrest' row, hstep row, List.forall_mem_cons, and_assoc]
    intro row
    have hchildren : ∀ child,
        child ∈ order (left.filter fun c => decide (c.parentSessionId = some top.id)) ↔
          child ∈ left ∧ child.parentSessionId = some top.id := by
      intro child
      rw [(horder _).mem_iff, List.mem_filter, decide_eq_true_eq]
    have hchildOf : ∀ child ∈ order (left.filter fun c => decide (c.parentSessionId = some top.id)),
        ChildOf sessions child top := by
      intro child hchild
      obtain ⟨hmem, hid⟩ := (hchildren child).mp hchild
      exact ⟨hleft.mem child hmem, htop, hid⟩
    rw [finalizeSession, List.mem_filter, decide_eq_true_eq, hfold _ hchildOf left hleft row]
    constructor
    · rintro ⟨⟨hmem, hnot⟩, hne⟩
      refine ⟨hmem, fun hbelow => ?_⟩
      rcases ReflTransGen.cases_tail hbelow with rfl | ⟨child, hrow, hchild⟩
      · exact hne rfl
      · exact hnot child ((hchildren child).mpr ⟨hleft.ancestor hmem hrow, hchild.id⟩) hrow
    · rintro ⟨hmem, hnot⟩
      refine ⟨⟨hmem, fun child hchild hrow => hnot (hrow.tail (hchildOf child hchild))⟩, fun hid => hnot ?_⟩
      rw [hsessions.eq_of_id (hleft.mem row hmem) htop hid]

/-- The daemon and the capture see one tree. -/
theorem Captured.mem_iff_childOf {tree : List SessionInfo} (h : Captured sessions root tree)
    (hrow : row ∈ sessions) :
    row ∈ tree ↔ ReflTransGen (ChildOf sessions) row root := by
  rw [h.mem_iff]
  constructor
  · rintro ⟨-, hdescends⟩
    induction hdescends using ReflTransGen.head_induction_on with
    | refl => exact .refl
    | head hchild _ ih => exact (ih hchild.mem).head ⟨hrow, hchild.mem, hchild.id⟩
  · intro hbelow
    refine ⟨hrow, ?_⟩
    induction hbelow using ReflTransGen.head_induction_on with
    | refl => exact .refl
    | head hchild _ ih =>
      have hparent := ih hchild.parent_mem
      exact hparent.head (h.tidy _ hchild.parent_mem hparent _ hrow (.inl hchild.id))

/-- What the daemon removes is what was captured. -/
theorem Captured.mem_finalizeSession {tree : List SessionInfo} (hsessions : Identified sessions)
    (h : Captured sessions root tree) (hparentless : Parentless root)
    {order : List SessionInfo → List SessionInfo} (horder : ∀ rows, (order rows).Perm rows) {depth : ℕ}
    (hdepth : sessions.length ≤ depth) (row : SessionInfo) :
    row ∈ finalizeSession order depth root.id sessions ↔ row ∈ sessions ∧ row ∉ tree := by
  have hroot : root ∈ sessions := by
    have hin : root ∈ tree := List.mem_of_head? h.head
    exact ((h.mem_iff root).mp hin).1
  have hunique : ∀ a b c, ChildOf sessions a b → ChildOf sessions a c → b = c :=
    fun _ _ _ hb hc => hb.unique hsessions hc
  have htop : ∀ parent, ¬ ChildOf sessions root parent := by
    intro parent hchild
    have hid := hchild.id
    rw [hparentless.id] at hid
    cases hid
  have hcard : (below sessions root).card ≤ depth := by
    classical
    refine (Finset.card_le_card (Finset.filter_subset _ _)).trans ?_
    exact (List.toFinset_card_le _).trans hdepth
  have hall : Left sessions sessions := ⟨fun _ hmem => hmem, fun _ _ _ hchild => hchild.parent_mem⟩
  rw [mem_finalizeSession_iff hsessions horder hroot
    (fun row hrow => Ancestry.not_transGen_self hunique hrow htop) hcard hall]
  refine and_congr_right fun hmem => ?_
  rw [h.mem_iff_childOf hmem]

/-- Below a root nothing is wrong on the way up. -/
theorem above_fine (hsessions : Identified sessions)
    (hdescends : Descends sessions row root) (hparentless : Parentless root) {above : SessionInfo}
    (habove : Descends sessions row above) :
    ¬ Misnamed sessions above ∧ ¬ TransGen (ParentOf sessions) above above := by
  have hunique : ∀ a b c, ParentOf sessions a b → ParentOf sessions a c → b = c :=
    fun _ _ _ hb hc => hb.unique hsessions hc
  have hroot := Ancestry.reflTransGen_root hunique hdescends hparentless.not_parentOf habove
  refine ⟨fun hbad => ?_, Ancestry.not_transGen_self hunique hroot hparentless.not_parentOf⟩
  rcases ReflTransGen.cases_head hroot with rfl | ⟨parent, hparent, -⟩
  · exact hbad.not_parentless hparentless
  · exact hbad.not_parentOf hsessions parent hparent

/-- For every list of sessions, every target and enough turns: the loops end. A tree that is captured is
that of the target: its root has no parent, it has every session whose parents lead to the root, once, behind
its parent, and the daemon's cascade from the root removes these sessions and no other. It is refused if the
sessions are not identified, the target is absent, or a session on the way up, or one that names a session of
the tree, has no right parent or is its own ancestor. Where every session has a right parent or none, and none
is its own ancestor, the tree of every target is captured. -/
theorem capture_spec (target : Str) (sessions : List SessionInfo) :
    ∀ turns, sessions.length < turns →
      (∃ result, sessionTreeFromSnapshot turns target sessions = some result) ∧
      (∀ tree, sessionTreeFromSnapshot turns target sessions = some (.ok tree) →
        ∃ root row, tree.head? = some root ∧ Parentless root ∧
          targetOf sessions target = some row ∧ row ∈ tree ∧ tree.Nodup ∧
          (∀ row, row ∈ tree ↔ row ∈ sessions ∧ ReflTransGen (ParentOf sessions) row root) ∧
          (∀ before child after, tree = before ++ child :: after →
            ∀ parent, ParentOf sessions child parent → parent ∈ before) ∧
          ∀ order, (∀ rows, (order rows).Perm rows) → ∀ depth, sessions.length ≤ depth →
            ∀ row, row ∈ finalizeSession order depth root.id sessions ↔ row ∈ sessions ∧ row ∉ tree) ∧
      ((¬ Identified sessions ∨ targetOf sessions target = none ∨
        (∃ row above, targetOf sessions target = some row ∧ ReflTransGen (ParentOf sessions) row above ∧
          (Misnamed sessions above ∨ TransGen (ParentOf sessions) above above)) ∨
        ∃ row root member child, targetOf sessions target = some row ∧
          ReflTransGen (ParentOf sessions) row root ∧ Parentless root ∧
          member ∈ sessions ∧ ReflTransGen (ParentOf sessions) member root ∧
          child ∈ sessions ∧ Names child member ∧
          (Misnamed sessions child ∨ TransGen (ParentOf sessions) child child)) →
        ∃ err, sessionTreeFromSnapshot turns target sessions = some (.error err)) ∧
      (Identified sessions →
        (∀ row ∈ sessions, Parentless row ∨ ∃ parent, ParentOf sessions row parent) →
        (∀ row ∈ sessions, ¬ TransGen (ParentOf sessions) row row) →
        ∀ row, targetOf sessions target = some row →
          ∃ tree, sessionTreeFromSnapshot turns target sessions = some (.ok tree)) ∧
      ∀ sessionId ids, killTarget turns target sessions = some (.ok (sessionId, ids)) →
        ∀ order, (∀ rows, (order rows).Perm rows) → ∀ depth, sessions.length ≤ depth →
          ∀ row, row ∈ finalizeSession order depth sessionId sessions ↔ row ∈ sessions ∧ row.id ∉ ids := by
  intro turns hturns
  rcases sessionTreeFromSnapshot_spec target hturns with
    ⟨tree, root, row, hok, hsessions, htarget, hdescends, hparentless, hcaptured⟩ | ⟨⟨err, herr⟩, hnot⟩
  · refine ⟨⟨_, hok⟩, fun tree' htree' => ?_, fun hbad => ?_, fun _ _ _ _ _ => ⟨tree, hok⟩, ?_⟩
    · rw [hok] at htree'
      obtain rfl : tree = tree' := Except.ok.inj (Option.some.inj htree')
      refine ⟨root, row, hcaptured.head, hparentless, htarget, ?_, hcaptured.nodup, hcaptured.mem_iff,
        hcaptured.behind, fun order horder depth hdepth row => ?_⟩
      · exact (hcaptured.mem_iff row).mpr ⟨mem_of_targetOf htarget, hdescends⟩
      · exact hcaptured.mem_finalizeSession hsessions hparentless horder hdepth row
    · exfalso
      have hunique : ∀ a b c, ParentOf sessions a b → ParentOf sessions a c → b = c :=
        fun _ _ _ hb hc => hb.unique hsessions hc
      rcases hbad with hbad | hbad | ⟨row', above, htarget', habove, hbad⟩ |
        ⟨row', root', member, child, htarget', hdescends', hparentless', hmember, hbelow, hchild, hnames, hbad⟩
      · exact hbad hsessions
      · rw [hbad] at htarget
        cases htarget
      · rw [htarget] at htarget'
        obtain rfl := Option.some.inj htarget'
        have hfine := above_fine hsessions hdescends hparentless habove
        exact hbad.elim hfine.1 hfine.2
      · rw [htarget] at htarget'
        obtain rfl := Option.some.inj htarget'
        have hroots := Ancestry.reflTransGen_root hunique hdescends hparentless.not_parentOf hdescends'
        obtain rfl : root' = root := by
          rcases ReflTransGen.cases_head hroots with heq | ⟨next, hnext, -⟩
          · exact heq
          · exact absurd hnext (hparentless'.not_parentOf next)
        have hparent := hcaptured.tidy member hmember hbelow child hchild hnames
        have hfine := above_fine hsessions (hbelow.head hparent) hparentless .refl
        exact hbad.elim hfine.1 hfine.2
    · intro sessionId ids hkill order horder depth hdepth row
      obtain ⟨panes, rfl⟩ : ∃ panes, tree = root :: panes := List.head?_eq_some_iff.mp hcaptured.head
      have hpair : (root.id, root.id :: panes.map SessionInfo.id) = (sessionId, ids) := by
        rw [killTarget, hok] at hkill
        exact Except.ok.inj (Option.some.inj hkill)
      obtain ⟨rfl, rfl⟩ := Prod.mk.inj hpair
      rw [hcaptured.mem_finalizeSession hsessions hparentless horder hdepth]
      refine and_congr_right fun hrow => not_congr ?_
      show _ ↔ row.id ∈ (root :: panes).map SessionInfo.id
      rw [List.mem_map]
      constructor
      · exact fun hmem => ⟨row, hmem, rfl⟩
      · rintro ⟨other, hmem, hid⟩
        rwa [← hsessions.eq_of_id ((hcaptured.mem_iff other).mp hmem).1 hrow hid]
  · refine ⟨⟨_, herr⟩, fun tree htree => ?_, fun _ => ⟨err, herr⟩,
      fun hsessions hconsistent hacyclic row htarget => ?_, ?_⟩
    · rw [herr] at htree
      cases htree
    · exfalso
      obtain ⟨root, hdescends, hparentless⟩ := exists_root hconsistent hacyclic (mem_of_targetOf htarget)
      exact hnot ⟨hsessions, row, root, htarget, hdescends, hparentless, tidy_of_consistent hsessions hconsistent root⟩

    · intro sessionId ids hkill
      rw [killTarget, herr] at hkill
      cases hkill

/-- A session, its child and a session beside them. -/
def someSessions : List SessionInfo :=
  [⟨"b".toList, "child".toList, "%2".toList, some "%1".toList, some "a".toList⟩,
    ⟨"a".toList, "root".toList, "%1".toList, none, none⟩,
    ⟨"c".toList, "other".toList, "%3".toList, none, none⟩]

example : (sessionTreeFromSnapshot 4 "2".toList someSessions).map (Except.map (List.map SessionInfo.name)) =
    some (.ok ["root".toList, "child".toList]) := by
  decide

/-- The tree of the child: the child and its parent. -/
theorem capture_someSessions :
    ∃ tree root row, sessionTreeFromSnapshot 4 "2".toList someSessions = some (.ok tree) ∧
      tree.head? = some root ∧ Parentless root ∧ targetOf someSessions "2".toList = some row ∧ row ∈ tree ∧
      ∀ row, row ∈ tree ↔ row ∈ someSessions ∧ ReflTransGen (ParentOf someSessions) row root := by
  have hok : sessionTreeFromSnapshot 4 "2".toList someSessions = some (.ok (someSessions.take 2).reverse) := by
    decide +kernel
  obtain ⟨root, row, hhead, hparentless, htarget, hrow, -, hmem, -⟩ :=
    (capture_spec "2".toList someSessions 4 (by decide)).2.1 _ hok
  exact ⟨_, root, row, hok, hhead, hparentless, htarget, hrow, hmem⟩

end LightTerminal.Tmux.SessionTree
