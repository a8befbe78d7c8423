import LightTerminal.Library.Cursor
import Mathlib.Data.List.TakeWhile

/-! # Clusters of short options

An argument `-abv` is a cluster of flags, of which the first that takes a value takes the rest of the
cluster, or the next argument when nothing is left of it. A grammar says which flags take a value, what
the flags of a cluster do to a state, and what a flag does with its value; a loop over an argument list
conforms to it when its turns at the arguments that start with a dash do what the grammar says.

* `Conforms.walk_cluster`: what a conforming loop does at a cluster;
* `Conforms.walk_separate`: what it does at the same flags, one for each argument: the same, but with the
  flags told one after the other;
* `Conforms.alike`: so a cluster can be written either way, wherever the loop expects an option. -/

namespace LightTerminal.Library.ShortOptions

open LightTerminal.Library.Cursor

/-- An argument. -/
abbrev Arg := List Char

/-- A cluster of short flags: what follows the dash. -/
structure Cluster where
  text : Arg
  nonempty : text ≠ []
  short : text.head? ≠ some '-'

namespace Cluster

/-- The argument that the cluster is written as. -/
def arg (c : Cluster) : Arg := '-' :: c.text

/-- The cluster of one flag. -/
def single (flag : Char) (h : flag ≠ '-') : Cluster where
  text := [flag]
  nonempty := List.cons_ne_nil _ _
  short := fun he => h (Option.some.inj he)

variable (takes : Char → Bool)

/-- The flags before the one that takes a value. -/
def flags (c : Cluster) : List Char := c.text.takeWhile fun flag => !takes flag

/-- The flag that takes a value, and what is attached to it. -/
def valueFlag (c : Cluster) : Option (Char × Arg) :=
  match c.text.dropWhile fun flag => !takes flag with
  | [] => none
  | flag :: attached => some (flag, attached)

/-- The value of the cluster is the next argument, if there is one. -/
def Awaits (c : Cluster) : Prop := ∃ flag, c.valueFlag takes = some (flag, [])

end Cluster

/-- An attached value without its optional `=`. -/
def stripEquals : Arg → Arg
  | '=' :: text => text
  | text => text

/-- Where the value of a flag comes from. -/
inductive Source
  | missing
  | attached (text : Arg)
  | next (text : Arg)
deriving DecidableEq

/-- The source of a value, from what is attached to its flag and the arguments that follow. -/
def source (attached : Arg) (rest : List Arg) : Source :=
  if attached = [] then
    match rest with
    | [] => .missing
    | value :: _ => .next value
  else .attached (stripEquals attached)

namespace Source

def text : Source → Option Arg
  | missing => none
  | attached text => some text
  | next text => some text

/-- The number of arguments that a cluster with a value from this source takes. -/
def width : Source → ℕ
  | next _ => 2
  | _ => 1

end Source

/-- The flags of a cluster, each as an argument, and the value of the last one without its `=`. -/
def Cluster.separate (takes : Char → Bool) (c : Cluster) : List Arg :=
  (c.flags takes).map (fun flag => ['-', flag]) ++
    match c.valueFlag takes with
    | none => []
    | some (flag, attached) =>
      ['-', flag] :: if attached = [] then [] else [stripEquals attached]

/-- Arguments after which a loop expects an option: flags, clusters and their values, with no `--` and
no other argument among them. -/
inductive OptionPosition (takes : Char → Bool) : List Arg → Prop
  | start : OptionPosition takes []
  | plain {arg : Arg} {before : List Arg} (hdash : arg.head? = some '-') (hend : arg ≠ ['-', '-'])
      (hplain : ∀ c : Cluster, c.arg ≠ arg) (h : OptionPosition takes before) :
      OptionPosition takes (arg :: before)
  | cluster {c : Cluster} {before : List Arg} (hawaits : ¬ c.Awaits takes)
      (h : OptionPosition takes before) : OptionPosition takes (c.arg :: before)
  | value {c : Cluster} {value : Arg} {before : List Arg} (hawaits : c.Awaits takes)
      (h : OptionPosition takes before) : OptionPosition takes (c.arg :: value :: before)

/-- The number of arguments that a cluster takes. -/
def Cluster.width (takes : Char → Bool) (c : Cluster) (rest : List Arg) : ℕ :=
  match c.valueFlag takes with
  | none => 1
  | some (_, attached) => (source attached rest).width

/-- The short options of a command. -/
structure Grammar (σ ε : Type*) where
  /-- The flags that take a value. -/
  takes : Char → Bool
  /-- What the flags of a cluster do. -/
  flags : Arg → σ → σ
  /-- What a flag does with its value. -/
  value : Char → Option Arg → Except ε (σ → σ)
  takes_dash : takes '-' = false
  flags_value : ∀ flag st, takes flag = true → flags [flag] st = st

variable {σ ε : Type*}

namespace Grammar

/-- What the value of a cluster does. -/
def read (g : Grammar σ ε) (c : Cluster) (rest : List Arg) : Except ε (σ → σ) :=
  match c.valueFlag g.takes with
  | none => .ok id
  | some (flag, attached) => g.value flag (source attached rest).text

/-- The turn of a loop at a cluster. -/
def turn (g : Grammar σ ε) (c : Cluster) (rest : List Arg) (st : σ) : Turn σ (Except ε σ) :=
  Turn.ofExcept (c.width g.takes rest)
    ((g.read c rest).map fun update => update (g.flags c.text st))

/-- The flags told one after the other. -/
def oneByOne (g : Grammar σ ε) (flags : List Char) (st : σ) : σ :=
  flags.foldl (fun st flag => g.flags [flag] st) st

/-- What a loop does after the flags of a cluster: it reads the value, if there is one, and goes on. -/
def resume (g : Grammar σ ε) (turn : Arg → List Arg → σ → Turn σ (Except ε σ)) (c : Cluster)
    (rest : List Arg) (st : σ) : Except ε σ :=
  match g.read c rest with
  | .error err => .error err
  | .ok update => walk turn .ok (c.width g.takes rest - 1) rest (update st)

end Grammar

/-- **A loop that reads its options as a grammar says**, up to how far it leaves the list at its end. -/
structure Conforms (g : Grammar σ ε) (turn : Arg → List Arg → σ → Turn σ (Except ε σ)) : Prop where
  cluster : ∀ (c : Cluster) (rest : List Arg) (st : σ),
    (turn c.arg rest st).clip (rest.length + 1) = g.turn c rest st
  plain : ∀ (arg : Arg) (rest : List Arg) (st : σ), arg.head? = some '-' → arg ≠ ['-', '-'] →
    (∀ c : Cluster, c.arg ≠ arg) → turn arg rest st = .next 1 st

/-! ## The parts of a cluster -/

section Parts
variable {takes : Char → Bool}

theorem takes_of_mem_flags {c : Cluster} {flag : Char} (h : flag ∈ c.flags takes) :
    takes flag = false := by
  have hp := List.mem_takeWhile_imp h
  simpa using hp

theorem takes_valueFlag {c : Cluster} {flag : Char} {attached : Arg}
    (h : c.valueFlag takes = some (flag, attached)) : takes flag = true := by
  unfold Cluster.valueFlag at h
  rcases hdrop : c.text.dropWhile (fun flag => !takes flag) with - | ⟨first, rest⟩
  · rw [hdrop] at h
    exact absurd h (by simp)
  · rw [hdrop] at h
    have hp := List.head_dropWhile_not (fun flag => !takes flag) (l := c.text) (by rw [hdrop]; simp)
    have he : first = flag := (Prod.ext_iff.mp (Option.some.inj h)).1
    simp only [hdrop, List.head_cons, he] at hp
    simpa using hp

theorem valueFlag_single {flag : Char} (hd : flag ≠ '-') (h : takes flag = true) :
    (Cluster.single flag hd).valueFlag takes = some (flag, []) := by
  simp [Cluster.valueFlag, Cluster.single, h]

theorem valueFlag_single_none {flag : Char} (hd : flag ≠ '-') (h : takes flag = false) :
    (Cluster.single flag hd).valueFlag takes = none := by
  simp [Cluster.valueFlag, Cluster.single, h]

theorem source_attached {attached : Arg} (h : attached ≠ []) (rest : List Arg) :
    source attached rest = .attached (stripEquals attached) := if_neg h

/-- A value that is missing is not to be found in the next argument either. -/
theorem source_text_or (attached : Arg) (rest : List Arg) :
    (source attached rest).text.or rest.head? = (source attached rest).text := by
  by_cases ha : attached = []
  · rcases rest with - | ⟨value, rest⟩ <;> simp [source, ha, Source.text]
  · rw [source_attached ha]
    rfl

theorem source_nil_text (rest : List Arg) : (source [] rest).text = rest.head? := by
  rcases rest with - | ⟨value, rest⟩ <;> rfl

theorem source_next (value : Arg) (rest : List Arg) : source [] (value :: rest) = .next value := rfl

theorem source_width (attached : Arg) (rest : List Arg) :
    (source attached rest).width = if attached = [] ∧ rest ≠ [] then 2 else 1 := by
  by_cases ha : attached = []
  · rcases rest with - | ⟨value, rest⟩ <;> simp [source, ha, Source.width]
  · rw [source_attached ha, if_neg (fun h => ha h.1)]
    rfl

theorem width_of_not_awaits {c : Cluster} (h : ¬ c.Awaits takes) (rest : List Arg) :
    c.width takes rest = 1 := by
  unfold Cluster.width
  rcases hvalue : c.valueFlag takes with - | ⟨flag, attached⟩
  · rfl
  · have ha : attached ≠ [] := fun he => h ⟨flag, by rw [hvalue, he]⟩
    simp only [source_attached ha]
    rfl

/-- A cluster takes two arguments exactly if it awaits a value and there is one. -/
theorem width_eq_two {c : Cluster} {rest : List Arg} :
    c.width takes rest = 2 ↔ c.Awaits takes ∧ rest ≠ [] := by
  by_cases h : c.Awaits takes
  · obtain ⟨flag, hvalue⟩ := h
    have hwidth : c.width takes rest = if rest ≠ [] then 2 else 1 := by
      unfold Cluster.width
      rw [hvalue]
      simp only [source_width, true_and]
    rw [hwidth]
    constructor
    · intro h2
      refine ⟨⟨flag, hvalue⟩, fun he => ?_⟩
      rw [if_neg (not_not.mpr he)] at h2
      exact absurd h2 (by decide)
    · rintro ⟨-, hne⟩
      exact if_pos hne
  · rw [width_of_not_awaits h]
    exact ⟨fun h2 => absurd h2 (by decide), fun hboth => absurd hboth.1 h⟩

/-- A cluster leaves the list by no argument. -/
theorem width_le (c : Cluster) (rest : List Arg) : c.width takes rest ≤ rest.length + 1 := by
  unfold Cluster.width
  rcases c.valueFlag takes with - | ⟨flag, attached⟩
  · simp
  · simp only [source_width]
    rcases rest with - | ⟨value, rest⟩
    · simp
    · split_ifs <;> simp

end Parts

theorem Grammar.read_some {g : Grammar σ ε} {c : Cluster} {flag : Char} {attached : Arg}
    (hvalue : c.valueFlag g.takes = some (flag, attached)) (rest : List Arg) :
    g.read c rest = g.value flag (source attached rest).text := by
  unfold Grammar.read
  rw [hvalue]

theorem Grammar.read_none {g : Grammar σ ε} {c : Cluster} (hvalue : c.valueFlag g.takes = none)
    (rest : List Arg) : g.read c rest = .ok id := by
  unfold Grammar.read
  rw [hvalue]

/-- The turn at a flag of its own that takes a value. -/
theorem Grammar.turn_value {g : Grammar σ ε} {c : Cluster} {flag : Char} (hc : c.text = [flag])
    (htakes : g.takes flag = true) (rest : List Arg) (st : σ) :
    g.turn c rest st = Turn.ofExcept (min 2 (rest.length + 1))
      ((g.value flag rest.head?).map fun update => update st) := by
  have hvalue : c.valueFlag g.takes = some (flag, []) := by
    simp [Cluster.valueFlag, hc, htakes]
  have hwidth : c.width g.takes rest = min 2 (rest.length + 1) := by
    unfold Cluster.width
    rw [hvalue]
    simp only [source_width, true_and]
    rcases rest with - | ⟨value, rest⟩
    · rfl
    · rw [if_pos (by simp), List.length_cons]
      omega
  unfold Grammar.turn Grammar.read
  rw [hwidth, hvalue, hc, g.flags_value flag st htakes]
  simp only [source_nil_text]

/-- The turn at a flag of its own that takes no value. -/
theorem Grammar.turn_flag {g : Grammar σ ε} {c : Cluster} {flag : Char} (hc : c.text = [flag])
    (htakes : g.takes flag = false) (rest : List Arg) (st : σ) :
    g.turn c rest st = .next 1 (g.flags [flag] st) := by
  have hvalue : c.valueFlag g.takes = none := by
    simp [Cluster.valueFlag, hc, htakes]
  unfold Grammar.turn Grammar.read Cluster.width
  rw [hvalue, hc]
  rfl

/-- The turn at a cluster whose value is attached. -/
theorem Grammar.turn_attached {g : Grammar σ ε} {c : Cluster} {flag : Char} {attached : Arg}
    (hvalue : c.valueFlag g.takes = some (flag, attached)) (ha : attached ≠ []) (rest : List Arg)
    (st : σ) :
    g.turn c rest st = Turn.ofExcept 1
      ((g.value flag (some (stripEquals attached))).map fun update =>
        update (g.flags c.text st)) := by
  unfold Grammar.turn Cluster.width
  rw [Grammar.read_some hvalue, hvalue]
  simp only [source_attached ha]
  rfl

/-- The turn at a cluster is within the list, so that nothing is left to clip. -/
theorem Grammar.clip_turn (g : Grammar σ ε) (c : Cluster) (rest : List Arg) (st : σ) :
    (g.turn c rest st).clip (rest.length + 1) = g.turn c rest st := by
  unfold Grammar.turn
  rw [Turn.clip_ofExcept, min_eq_left (width_le c rest)]

theorem Grammar.read_of_not_awaits {g : Grammar σ ε} {c : Cluster} (h : ¬ c.Awaits g.takes)
    (rest rest' : List Arg) : g.read c rest = g.read c rest' := by
  unfold Grammar.read
  rcases hvalue : c.valueFlag g.takes with - | ⟨flag, attached⟩
  · rfl
  · have ha : attached ≠ [] := fun he => h ⟨flag, by rw [hvalue, he]⟩
    simp only [source_attached ha]

theorem Grammar.read_of_awaits {g : Grammar σ ε} {c : Cluster} (h : c.Awaits g.takes)
    (value : Arg) (rest rest' : List Arg) : g.read c (value :: rest) = g.read c (value :: rest') := by
  obtain ⟨flag, hvalue⟩ := h
  unfold Grammar.read
  rw [hvalue]
  rfl

/-- Flags of which one leaves a mark that it need not leave twice, told one after the other. -/
theorem Grammar.oneByOne_mark {g : Grammar σ ε} (needle : Char) (mark : σ → σ)
    (hmark : ∀ st, mark (mark st) = mark st) : ∀ (flags : List Char) (st : σ),
    (∀ flag ∈ flags, ∀ st, g.flags [flag] st = if flag = needle then mark st else st) →
    g.oneByOne flags st = if needle ∈ flags then mark st else st := by
  intro flags
  induction flags with
  | nil => intro st _; rfl
  | cons flag flags ih =>
    intro st hflags
    have hrest := ih (g.flags [flag] st) fun flag' hmem => hflags flag' (List.mem_cons_of_mem _ hmem)
    show g.oneByOne flags (g.flags [flag] st) = _
    rw [hrest, hflags flag List.mem_cons_self]
    by_cases he : flag = needle
    · have hmem : needle ∈ flag :: flags := by rw [he]; exact List.mem_cons_self
      rw [if_pos he, hmark, ite_self, if_pos hmem]
    · rw [if_neg he]
      simp [Ne.symm he]

/-! ## A conforming loop -/

section Loop
variable {g : Grammar σ ε} {turn : Arg → List Arg → σ → Turn σ (Except ε σ)}

theorem Conforms.walk_cluster (h : Conforms g turn) (c : Cluster) (rest : List Arg) (st : σ) :
    walk turn .ok 0 (c.arg :: rest) st = g.resume turn c rest (g.flags c.text st) := by
  have hturn := h.cluster c rest st
  unfold Grammar.turn at hturn
  unfold Grammar.resume
  rcases hread : g.read c rest with err | update
  · rw [hread] at hturn
    exact walk_clip_done hturn
  · rw [hread] at hturn
    exact walk_clip_next hturn

theorem Conforms.walk_flag (h : Conforms g turn) {flag : Char} (hd : flag ≠ '-')
    (htakes : g.takes flag = false) (rest : List Arg) (st : σ) :
    walk turn .ok 0 (['-', flag] :: rest) st = walk turn .ok 0 rest (g.flags [flag] st) := by
  have hwalk := h.walk_cluster (Cluster.single flag hd) rest st
  rw [Grammar.resume, Grammar.read, Cluster.width, valueFlag_single_none hd htakes] at hwalk
  exact hwalk

/-- Flags without values, one for each argument. -/
theorem Conforms.walk_flags (h : Conforms g turn) : ∀ (flags : List Char) (rest : List Arg) (st : σ),
    (∀ flag ∈ flags, flag ≠ '-' ∧ g.takes flag = false) →
    walk turn .ok 0 (flags.map (fun flag => ['-', flag]) ++ rest) st =
      walk turn .ok 0 rest (g.oneByOne flags st) := by
  intro flags rest
  induction flags with
  | nil => intro st _; rfl
  | cons flag flags ih =>
    intro st hflags
    obtain ⟨hd, htakes⟩ := hflags flag List.mem_cons_self
    rw [List.map_cons, List.cons_append, h.walk_flag hd htakes,
      ih _ fun flag hmem => hflags flag (List.mem_cons_of_mem _ hmem)]
    rfl

/-- The flag that takes a value, on its own: its value is whatever argument comes next. -/
theorem Conforms.walk_value (h : Conforms g turn) {flag : Char} (htakes : g.takes flag = true)
    (rest : List Arg) (st : σ) :
    walk turn .ok 0 (['-', flag] :: rest) st =
      match g.value flag (source [] rest).text with
      | .error err => .error err
      | .ok update => walk turn .ok ((source [] rest).width - 1) rest (update st) := by
  have hd : flag ≠ '-' := by
    intro he
    rw [he, g.takes_dash] at htakes
    exact absurd htakes (by decide)
  have hwalk := h.walk_cluster (Cluster.single flag hd) rest st
  rw [Grammar.resume, Grammar.read, Cluster.width, valueFlag_single hd htakes,
    show (Cluster.single flag hd).text = [flag] from rfl, g.flags_value flag st htakes] at hwalk
  exact hwalk

/-- **What a conforming loop does at the separated flags of a cluster.** -/
theorem Conforms.walk_separate (h : Conforms g turn) {c : Cluster}
    (hdash : '-' ∉ c.flags g.takes) (rest : List Arg) (st : σ) :
    walk turn .ok 0 (c.separate g.takes ++ rest) st =
      g.resume turn c rest (g.oneByOne (c.flags g.takes) st) := by
  have hflags : ∀ flag ∈ c.flags g.takes, flag ≠ '-' ∧ g.takes flag = false := by
    intro flag hmem
    exact ⟨fun he => hdash (he ▸ hmem), takes_of_mem_flags hmem⟩
  rw [Cluster.separate, List.append_assoc, h.walk_flags _ _ _ hflags, Grammar.resume, Grammar.read,
    Cluster.width]
  rcases hvalue : c.valueFlag g.takes with - | ⟨flag, attached⟩
  · rfl
  have htakes := takes_valueFlag hvalue
  simp only [List.cons_append]
  rw [h.walk_value htakes]
  by_cases ha : attached = []
  · rw [if_pos ha, ha, List.nil_append]
  · rw [if_neg ha, List.singleton_append, source_next, source_attached ha]
    rfl

/-- A cluster with a `-` among its flags, separated: the loop comes upon an argument `--`. -/
theorem Conforms.walk_dash (h : Conforms g turn) {c : Cluster} (hdash : '-' ∈ c.flags g.takes)
    (rest : List Arg) (st : σ) :
    ∃ flags tail, walk turn .ok 0 (c.separate g.takes ++ rest) st =
      walk turn .ok 0 (['-', '-'] :: (tail ++ rest)) (g.oneByOne flags st) := by
  obtain ⟨before, after, hsplit, hbefore⟩ := List.eq_append_cons_of_mem hdash
  have hflags : ∀ flag ∈ before, flag ≠ '-' ∧ g.takes flag = false := by
    intro flag hmem
    exact ⟨fun he => hbefore (he ▸ hmem), takes_of_mem_flags (hsplit ▸ List.mem_append_left _ hmem)⟩
  refine ⟨before, after.map (fun flag => ['-', flag]) ++
    match c.valueFlag g.takes with
    | none => []
    | some (flag, attached) => ['-', flag] :: if attached = [] then [] else [stripEquals attached],
    ?_⟩
  rw [← h.walk_flags before _ st hflags, Cluster.separate, hsplit]
  simp only [List.map_append, List.map_cons, List.append_assoc, List.cons_append]

/-- A loop comes to the end of options in one way, whatever follows them. -/
theorem Conforms.walk_before (h : Conforms g turn) {before : List Arg}
    (hb : OptionPosition g.takes before) : ∀ st : σ,
    (∃ err, ∀ tail, walk turn .ok 0 (before ++ tail) st = .error err) ∨
      ∃ st', ∀ tail, walk turn .ok 0 (before ++ tail) st = walk turn .ok 0 tail st' := by
  induction hb with
  | start => intro st; exact .inr ⟨st, fun _ => rfl⟩
  | @plain arg before hdash hend hplain _ ih =>
    intro st
    have hstep : ∀ rest, walk turn .ok 0 (arg :: rest) st = walk turn .ok 0 rest st :=
      fun rest => walk_next (h.plain arg rest st hdash hend hplain)
    rcases ih st with ⟨err, herr⟩ | ⟨st', hst⟩
    · exact .inl ⟨err, fun tail => by rw [List.cons_append, hstep, herr]⟩
    · exact .inr ⟨st', fun tail => by rw [List.cons_append, hstep, hst]⟩
  | @cluster c before hawaits _ ih =>
    intro st
    have hstep : ∀ rest, walk turn .ok 0 (c.arg :: rest) st =
        match g.read c [] with
        | .error err => .error err
        | .ok update => walk turn .ok 0 rest (update (g.flags c.text st)) := by
      intro rest
      rw [h.walk_cluster, Grammar.resume, width_of_not_awaits hawaits,
        g.read_of_not_awaits hawaits rest []]
    rcases hread : g.read c [] with err | update
    · exact .inl ⟨err, fun tail => by rw [List.cons_append, hstep, hread]⟩
    · rcases ih (update (g.flags c.text st)) with ⟨err, herr⟩ | ⟨st', hst⟩
      · exact .inl ⟨err, fun tail => by rw [List.cons_append, hstep, hread]; exact herr tail⟩
      · exact .inr ⟨st', fun tail => by rw [List.cons_append, hstep, hread]; exact hst tail⟩
  | @value c value before hawaits _ ih =>
    intro st
    have hstep : ∀ rest, walk turn .ok 0 (c.arg :: value :: rest) st =
        match g.read c [value] with
        | .error err => .error err
        | .ok update => walk turn .ok 0 rest (update (g.flags c.text st)) := by
      intro rest
      rw [h.walk_cluster, Grammar.resume, width_eq_two.mpr ⟨hawaits, by simp⟩,
        g.read_of_awaits hawaits value rest []]
      rfl
    rcases hread : g.read c [value] with err | update
    · exact .inl ⟨err, fun tail => by rw [List.cons_append, List.cons_append, hstep, hread]⟩
    · rcases ih (update (g.flags c.text st)) with ⟨err, herr⟩ | ⟨st', hst⟩
      · exact .inl ⟨err, fun tail => by
          rw [List.cons_append, List.cons_append, hstep, hread]; exact herr tail⟩
      · exact .inr ⟨st', fun tail => by
          rw [List.cons_append, List.cons_append, hstep, hread]; exact hst tail⟩

/-- **A cluster and its separated flags are read alike**, wherever the loop expects an option, if none of
the flags is a `-` and the flags of the cluster do what they do one by one, or the value is refused
whatever follows. -/
theorem Conforms.alike (h : Conforms g turn) {c : Cluster} (hdash : '-' ∉ c.flags g.takes)
    (hflags : (∀ st, g.flags c.text st = g.oneByOne (c.flags g.takes) st) ∨
      ∀ rest, ∃ err, g.read c rest = .error err)
    {before : List Arg} (hb : OptionPosition g.takes before) (after : List Arg) (st : σ) :
    walk turn .ok 0 (before ++ c.arg :: after) st =
      walk turn .ok 0 (before ++ c.separate g.takes ++ after) st := by
  rw [List.append_assoc]
  rcases h.walk_before hb st with ⟨err, herr⟩ | ⟨st', hst⟩
  · rw [herr, herr]
  rw [hst, hst, h.walk_cluster, h.walk_separate hdash]
  rcases hflags with hflags | hrefused
  · rw [hflags]
  · obtain ⟨err, hread⟩ := hrefused after
    unfold Grammar.resume
    rw [hread]

/-- A value that is refused whatever follows ends the loop at its cluster, if not before. -/
theorem Conforms.walk_refused (h : Conforms g turn) {c : Cluster}
    (hrefused : ∀ rest, ∃ err, g.read c rest = .error err) {before : List Arg}
    (hb : OptionPosition g.takes before) (after : List Arg) (st : σ) :
    ∃ err, walk turn .ok 0 (before ++ c.arg :: after) st = .error err := by
  rcases h.walk_before hb st with ⟨err, herr⟩ | ⟨st', hst⟩
  · exact ⟨err, herr _⟩
  · obtain ⟨err, hread⟩ := hrefused after
    refine ⟨err, ?_⟩
    rw [hst, h.walk_cluster, Grammar.resume, hread]

/-- An option given twice after a cluster leaves its mark, also where the first one is the value of the
cluster. -/
theorem Conforms.walk_marked (h : Conforms g turn) (c : Cluster) {β : Type*} {mark : Arg}
    (marked : σ → σ) (view : σ → β)
    (hmark : ∀ rest st, walk turn .ok 0 (mark :: rest) st = walk turn .ok 0 rest (marked st))
    {b : β} (hview : ∀ st, view (marked st) = b) (st : σ) :
    (∃ err, walk turn .ok 0 (c.arg :: [mark, mark]) st = .error err) ∨
      ∃ st', walk turn .ok 0 (c.arg :: [mark, mark]) st = .ok st' ∧ view st' = b := by
  rw [h.walk_cluster, Grammar.resume]
  rcases g.read c [mark, mark] with err | update
  · exact .inl ⟨err, rfl⟩
  right
  have hend : ∀ st, walk turn .ok 0 [mark] st = .ok (marked st) := by
    intro st
    rw [hmark, walk_nil]
  by_cases hawaits : c.Awaits g.takes
  · rw [width_eq_two.mpr ⟨hawaits, by simp⟩]
    exact ⟨_, hend _, hview _⟩
  · rw [width_of_not_awaits hawaits]
    simp only [Nat.sub_self]
    rw [hmark]
    exact ⟨_, hend _, hview _⟩

end Loop

end LightTerminal.Library.ShortOptions
