import LightTerminal.Library.Journal
import LightTerminal.Server.Error

/-! # Session metadata

`SessionMetadata` is what the name and the status theme of a session are kept in: the current value,
the journal of its changes with a cursor, and the aggregate of past purges. The functions here are
the parts of `set_status_theme`, `rename_session`, `metadata_step` and `metadata_purge_history` that
read and write it; the operations that call them are in `Server.Operations`.

The journal is one of `Library.Journal`. `Sound` says that it is well formed over a base value and
within its capacity; the three moves `append`, `moveTo` and `purgeWith` keep it. -/

namespace LightTerminal.Server.Metadata

open LightTerminal.Data.Text LightTerminal.Library LightTerminal.Server.Error

/-- `StatusTheme`. -/
inductive StatusTheme where
  | blue | green | magenta | cyan | amber | red | gray | plain
  deriving DecidableEq, Repr

/-- `MetadataValue`. -/
structure MetadataValue where
  name : Str
  statusTheme : Option StatusTheme
  deriving DecidableEq, Repr

/-- `MetadataOperation`. -/
inductive MetadataOperation where
  | rename
  | statusTheme
  deriving DecidableEq, Repr

/-- `MetadataJournalEntry`. -/
structure MetadataJournalEntry where
  operation : MetadataOperation
  before : MetadataValue
  after : MetadataValue
  deriving DecidableEq, Repr

/-- `MetadataPurgeAggregate`. -/
structure MetadataPurgeAggregate where
  generation : ℕ
  purgedEntriesTotal : ℕ
  lastPurgedUnixMs : Option ℕ
  deriving DecidableEq, Repr

/-- `SessionMetadata`. -/
structure SessionMetadata where
  current : MetadataValue
  entries : List MetadataJournalEntry
  cursor : ℕ
  purge : MetadataPurgeAggregate
  deriving DecidableEq, Repr

/-- `MAX_METADATA_JOURNAL_ENTRIES`. -/
def maxMetadataJournalEntries : ℕ := 1024

namespace SessionMetadata

/-- `SessionMetadata::new`. -/
def new (name : Str) (statusTheme : Option StatusTheme) : SessionMetadata :=
  { current := ⟨name, statusTheme⟩, entries := [], cursor := 0, purge := ⟨0, 0, none⟩ }

/-- `validate_metadata_append`. -/
def validateMetadataAppend (metadata : SessionMetadata) : Except ServerError Unit :=
  if metadata.cursor ≠ metadata.entries.length then .error .redoEntries
  else if maxMetadataJournalEntries ≤ metadata.entries.length then .error .historyFull
  else .ok ()

/-- The entry pushed, the cursor moved past it and its value made current. -/
def append (metadata : SessionMetadata) (entry : MetadataJournalEntry) : SessionMetadata :=
  { metadata with
    entries := metadata.entries ++ [entry], cursor := metadata.cursor + 1, current := entry.after }

/-- What `metadata_step` is about to do: the entry, the value it must find, the value and the cursor
it moves to. -/
structure Move where
  entry : MetadataJournalEntry
  expected : MetadataValue
  next : MetadataValue
  nextCursor : ℕ

/-- The choice of the entry in `metadata_step`. -/
def chooseMove (metadata : SessionMetadata) : MetadataStepDirection → Except ServerError Move
  | .undo =>
    match metadata.cursor with
    | 0 => .error .nothingToUndo
    | index + 1 =>
      match metadata.entries[index]? with
      | none => .error .panicked
      | some entry => .ok ⟨entry, entry.after, entry.before, index⟩
  | .redo =>
    match metadata.entries[metadata.cursor]? with
    | none => .error .nothingToRedo
    | some entry => .ok ⟨entry, entry.before, entry.after, metadata.cursor + 1⟩

/-- The move made. -/
def moveTo (metadata : SessionMetadata) (move : Move) : SessionMetadata :=
  { metadata with current := move.next, cursor := move.nextCursor }

/-- The counters after a purge, both checked 64-bit additions. -/
def nextPurge (metadata : SessionMetadata) (nowUnixMs : ℕ) :
    Except ServerError MetadataPurgeAggregate :=
  let generation := metadata.purge.generation + 1
  let total := metadata.purge.purgedEntriesTotal + metadata.entries.length
  if 2 ^ 64 ≤ generation then .error .purgeGenerationOverflow
  else if 2 ^ 64 ≤ total then .error .purgeCounterOverflow
  else .ok ⟨generation, total, some (min nowUnixMs (2 ^ 64 - 1))⟩

/-- The journal emptied. -/
def purgeWith (metadata : SessionMetadata) (purge : MetadataPurgeAggregate) : SessionMetadata :=
  { metadata with entries := [], cursor := 0, purge }

/-! ### The journal is sound -/

/-- The journal is well formed over `base` and within its capacity. -/
structure Sound (base : MetadataValue) (m : SessionMetadata) : Prop where
  journal : Journal.WellFormed MetadataJournalEntry.before MetadataJournalEntry.after
    base m.current m.entries m.cursor
  bounded : m.entries.length ≤ maxMetadataJournalEntries

variable {base : MetadataValue} {m : SessionMetadata}

theorem sound_new (name : Str) (theme : Option StatusTheme) : Sound ⟨name, theme⟩ (new name theme) :=
  ⟨.empty _, Nat.zero_le _⟩

theorem validateMetadataAppend_ok (h : validateMetadataAppend m = .ok ()) :
    m.cursor = m.entries.length ∧ m.entries.length < maxMetadataJournalEntries := by
  unfold validateMetadataAppend at h
  split_ifs at h with h1 h2
  exact ⟨not_not.mp h1, Nat.lt_of_not_le h2⟩

theorem Sound.append (h : Sound base m) (hv : validateMetadataAppend m = .ok ())
    {entry : MetadataJournalEntry} (he : entry.before = m.current) : Sound base (m.append entry) := by
  obtain ⟨htip, hlt⟩ := validateMetadataAppend_ok hv
  refine ⟨h.journal.append htip he, ?_⟩
  simp only [SessionMetadata.append, List.length_append, List.length_singleton]
  omega

theorem sound_purgeWith (m : SessionMetadata) (purge : MetadataPurgeAggregate) :
    Sound m.current (m.purgeWith purge) :=
  ⟨.empty _, Nat.zero_le _⟩

/-- The move of a sound journal finds the value it expects, and keeps the journal sound. -/
theorem Sound.chooseMove (h : Sound base m) {direction : MetadataStepDirection} {move : Move}
    (hm : m.chooseMove direction = .ok move) :
    m.current = move.expected ∧ Sound base (m.moveTo move) := by
  cases direction with
  | undo =>
    simp only [SessionMetadata.chooseMove] at hm
    split at hm
    · cases hm
    · next index hc =>
      split at hm
      · cases hm
      · next entry he =>
        cases hm
        have hj := h.journal
        rw [hc] at hj
        obtain ⟨hcur, hwf⟩ := hj.undo he
        exact ⟨hcur.symm, hwf, h.bounded⟩
  | redo =>
    simp only [SessionMetadata.chooseMove] at hm
    split at hm
    · cases hm
    · next entry he =>
      cases hm
      obtain ⟨hcur, hwf⟩ := h.journal.redo he
      exact ⟨hcur.symm, hwf, h.bounded⟩

/-- The index of `metadata_step` is in bounds. -/
theorem Sound.chooseMove_ne_panicked (h : Sound base m) (direction : MetadataStepDirection) :
    m.chooseMove direction ≠ .error .panicked := by
  intro hp
  cases direction with
  | undo =>
    simp only [SessionMetadata.chooseMove] at hp
    split at hp
    · cases hp
    · next index hc =>
      have hle := h.journal.cursor_le
      split at hp
      · next hnone =>
        rw [List.getElem?_eq_none_iff] at hnone
        omega
      · cases hp
  | redo =>
    simp only [SessionMetadata.chooseMove] at hp
    split at hp <;> cases hp

end SessionMetadata

end LightTerminal.Server.Metadata
