import LightTerminal.Data.Text
import LightTerminal.Library.FiniteMap

/-! # The tmux compatibility store

Every tmux-compatibility command is a process of its own. What the commands share is one JSON file;
an operation takes `StoreLock`, loads the file, changes the store in memory and writes the file
back, so that the operations follow one another. A store whose text exceeds `COMPAT_STORE_MAX_BYTES`
is not written; a file that exceeds it, or does not parse, is moved away on the next load. -/

namespace LightTerminal.Tmux.Store

open LightTerminal.Data.Text LightTerminal.Library.FiniteMap

/-- `CompatPane`. -/
structure CompatPane where
  paneId : Str
  sessionName : Str
  immutableId : Option Str
  cmuxSurfaceId : Option Str
  cmuxWorkspaceId : Option Str
  cmuxWindowId : Option Str
deriving DecidableEq

/-- `ManagedAttachLease`. -/
structure ManagedAttachLease where
  paneId : Str
  token : Str
  pid : ℕ
  processStartId : Option Str
  cmuxSurfaceId : Option Str
  cmuxWorkspaceId : Option Str
  cmuxWindowId : Option Str
  updatedSecs : ℕ
deriving DecidableEq

/-- The user options of one scope: by identity, then by name. -/
abbrev UserOptions := Map Str (Map Str Str)

/-- `CompatStore`. -/
structure CompatStore where
  panes : Map Str CompatPane
  paneUserOptions : UserOptions
  sessionUserOptions : UserOptions
  waitGenerations : Map Str ℕ
  waitGenerationTouchedSecs : Map Str ℕ
  managedAttaches : Map Str ManagedAttachLease
deriving DecidableEq

/-- `CompatStore::default()`. -/
def CompatStore.default : CompatStore := ⟨∅, ∅, ∅, ∅, ∅, ∅⟩

/-! ## The length of the file -/

/-- The bytes of a scalar value inside a JSON string. -/
def escapedLen (ch : Char) : ℕ :=
  if ch = '"' ∨ ch = '\\' then 2
  else if ch.toNat ∈ [0x08, 0x09, 0x0a, 0x0c, 0x0d] then 2
  else if ch.toNat < 0x20 then 6
  else ch.utf8Size

/-- The bytes of a JSON string, its quotes included. -/
def jsonStrLen (text : Str) : ℕ := 2 + (text.map escapedLen).sum

/-- The bytes of an optional string: `null` if it is absent. -/
def jsonOptionLen : Option Str → ℕ
  | none => 4
  | some text => jsonStrLen text

/-- The bytes of a number. -/
def jsonNumberLen (n : ℕ) : ℕ := (decimal n).length

/-- The bytes of an object at a nesting depth as `serde_json::to_vec_pretty` lays it out: every
entry on a line of its own, two blanks a level, with `": "` between key and value. An entry counts
for the bytes of its key and of its value. -/
def objectLen (depth : ℕ) (entries : Multiset ℕ) : ℕ :=
  if Multiset.card entries = 0 then 2
  else (entries.map fun len => len + (2 * depth + 6)).sum + (2 * depth + 2)

/-- The bytes of a map at a nesting depth. -/
def mapLen {V : Type} (depth : ℕ) (valueLen : V → ℕ) (m : Map Str V) : ℕ :=
  objectLen depth (m.entries.map fun e => jsonStrLen e.1 + valueLen e.2)

/-- The bytes of a struct at a nesting depth, from its field names and the bytes of its fields. -/
def structLen (depth : ℕ) (fields : List (Str × ℕ)) : ℕ :=
  objectLen depth (fields.map fun field => jsonStrLen field.1 + field.2 : List ℕ)

/-- The bytes of a pane's entry. -/
def CompatPane.jsonLen (pane : CompatPane) : ℕ :=
  structLen 2 [("pane_id".toList, jsonStrLen pane.paneId),
    ("session_name".toList, jsonStrLen pane.sessionName),
    ("immutable_id".toList, jsonOptionLen pane.immutableId),
    ("cmux_surface_id".toList, jsonOptionLen pane.cmuxSurfaceId),
    ("cmux_workspace_id".toList, jsonOptionLen pane.cmuxWorkspaceId),
    ("cmux_window_id".toList, jsonOptionLen pane.cmuxWindowId)]

/-- The bytes of a lease. -/
def ManagedAttachLease.jsonLen (lease : ManagedAttachLease) : ℕ :=
  structLen 2 [("pane_id".toList, jsonStrLen lease.paneId),
    ("token".toList, jsonStrLen lease.token),
    ("pid".toList, jsonNumberLen lease.pid),
    ("process_start_id".toList, jsonOptionLen lease.processStartId),
    ("cmux_surface_id".toList, jsonOptionLen lease.cmuxSurfaceId),
    ("cmux_workspace_id".toList, jsonOptionLen lease.cmuxWorkspaceId),
    ("cmux_window_id".toList, jsonOptionLen lease.cmuxWindowId),
    ("updated_secs".toList, jsonNumberLen lease.updatedSecs)]

/-- The length of `serde_json::to_vec_pretty(store)`. -/
def CompatStore.jsonLen (store : CompatStore) : ℕ :=
  structLen 0 [("panes".toList, mapLen 1 CompatPane.jsonLen store.panes),
    ("pane_user_options".toList, mapLen 1 (mapLen 2 jsonStrLen) store.paneUserOptions),
    ("session_user_options".toList, mapLen 1 (mapLen 2 jsonStrLen) store.sessionUserOptions),
    ("wait_generations".toList, mapLen 1 jsonNumberLen store.waitGenerations),
    ("wait_generation_touched_secs".toList,
      mapLen 1 jsonNumberLen store.waitGenerationTouchedSecs),
    ("managed_attaches".toList, mapLen 1 ManagedAttachLease.jsonLen store.managedAttaches)]

/-! ## Loading and saving -/

/-- `COMPAT_STORE_MAX_BYTES`. -/
def COMPAT_STORE_MAX_BYTES : ℕ := 16 * 1024 * 1024

/-- The store file: absent, or a text of some length that parses as a store or does not. -/
inductive StoreFile
  | missing
  | text (len : ℕ) (parsed : Option CompatStore)
deriving DecidableEq

/-- What one operation meets in the file system: the path of the store, and the errors, if any, of
taking the lock, of opening, reading or moving away the file, and of writing its successor. -/
structure Io where
  path : Str
  lock : Option Str
  load : Option Str
  save : Option Str
deriving DecidableEq

/-- No call fails. -/
def Io.fine : Io := ⟨"tmux-compat-store.json".toList, none, none, none⟩

/-- The store that a file stands for: the default one if there is none to be read. -/
def StoreFile.store : StoreFile → CompatStore
  | .missing => .default
  | .text len parsed =>
    if len > COMPAT_STORE_MAX_BYTES then .default else parsed.getD .default

/-- `load_store`, with the file it leaves: an oversized or corrupt one is moved away. -/
def loadStore (io : Io) (file : StoreFile) : StoreFile × Except Str CompatStore :=
  match io.load with
  | some err => (file, .error err)
  | none =>
    match file with
    | .missing => (.missing, .ok .default)
    | .text len parsed =>
      if len > COMPAT_STORE_MAX_BYTES then (.missing, .ok .default)
      else
        match parsed with
        | some store => (file, .ok store)
        | none => (.missing, .ok .default)

/-- The refusal of `save_store`. -/
def oversizedMessage (path : Str) : Str :=
  "tmux compat store exceeds ".toList ++ decimal COMPAT_STORE_MAX_BYTES ++
    " bytes; refusing to write ".toList ++ path

/-- `save_store`. -/
def saveStore (io : Io) (store : CompatStore) (file : StoreFile) : StoreFile × Except Str Unit :=
  if store.jsonLen > COMPAT_STORE_MAX_BYTES then (file, .error (oversizedMessage io.path))
  else
    match io.save with
    | some err => (file, .error err)
    | none => (.text store.jsonLen (some store), .ok ())

/-- A change of the store under the lock: load, change and save. -/
def changeStore {T : Type} (io : Io) (f : CompatStore → Except Str (CompatStore × T))
    (file : StoreFile) : StoreFile × Except Str T :=
  match loadStore io file with
  | (file, .error err) => (file, .error err)
  | (file, .ok store) =>
    match f store with
    | .error err => (file, .error err)
    | .ok (store, result) =>
      match saveStore io store file with
      | (file, .error err) => (file, .error err)
      | (file, .ok ()) => (file, .ok result)

/-- `update_store`. -/
def updateStore {T : Type} (io : Io) (f : CompatStore → Except Str (CompatStore × T))
    (file : StoreFile) : StoreFile × Except Str T :=
  match io.lock with
  | some err => (file, .error err)
  | none => changeStore io f file

/-- `read_store`. -/
def readStore {T : Type} (io : Io) (f : CompatStore → Except Str T) (file : StoreFile) :
    StoreFile × Except Str T :=
  match io.lock with
  | some err => (file, .error err)
  | none =>
    match loadStore io file with
    | (file, .error err) => (file, .error err)
    | (file, .ok store) => (file, f store)

/-! ## What they do -/

variable {T : Type} {io : Io} {file : StoreFile}

/-- Loading keeps the store that the file stands for, and returns it. -/
theorem loadStore_store : (loadStore io file).1.store = file.store ∧
    ∀ store, (loadStore io file).2 = .ok store → store = file.store := by
  unfold loadStore
  split
  · exact ⟨rfl, fun _ h => by cases h⟩
  · cases file with
    | missing => exact ⟨rfl, fun _ h => by cases h; rfl⟩
    | text len parsed =>
      simp only [StoreFile.store]
      split_ifs with hlen
      · exact ⟨rfl, fun _ h => by cases h; rfl⟩
      · cases parsed with
        | none => exact ⟨rfl, fun _ h => by cases h; rfl⟩
        | some store => simp [hlen]

/-- A store is saved as it is, or the file is left as it was. -/
theorem saveStore_cases (io : Io) (store : CompatStore) (file : StoreFile) :
    (∃ err, saveStore io store file = (file, .error err)) ∨
      store.jsonLen ≤ COMPAT_STORE_MAX_BYTES ∧
        saveStore io store file = (.text store.jsonLen (some store), .ok ()) := by
  unfold saveStore
  split_ifs with hlen
  · exact .inl ⟨_, rfl⟩
  · split
    · exact .inl ⟨_, rfl⟩
    · exact .inr ⟨by omega, rfl⟩

theorem store_text {len : ℕ} {store : CompatStore} (h : len ≤ COMPAT_STORE_MAX_BYTES) :
    (StoreFile.text len (some store)).store = store := by
  have hlen : ¬ len > COMPAT_STORE_MAX_BYTES := by omega
  simp [StoreFile.store, hlen]

/-- A change fails and keeps the store, or it is made and saved. -/
theorem changeStore_cases (f : CompatStore → Except Str (CompatStore × T)) :
    ((∃ err, (changeStore io f file).2 = .error err) ∧
        (changeStore io f file).1.store = file.store) ∨
      ∃ store result, f file.store = .ok (store, result) ∧
        (changeStore io f file).2 = .ok result ∧ (changeStore io f file).1.store = store := by
  unfold changeStore
  have hload := @loadStore_store io file
  generalize loadStore io file = loaded at hload ⊢
  obtain ⟨file', err | store⟩ := loaded
  · exact .inl ⟨⟨err, rfl⟩, hload.1⟩
  · obtain rfl := hload.2 store rfl
    cases hf : f file.store with
    | error err => exact .inl ⟨⟨err, by simp [hf]⟩, by simpa [hf] using hload.1⟩
    | ok changed =>
      obtain ⟨store, result⟩ := changed
      rcases saveStore_cases io store file' with ⟨err, hs⟩ | ⟨hlen, hs⟩
      · exact .inl ⟨⟨err, by simp [hf, hs]⟩, by simpa [hf, hs] using hload.1⟩
      · exact .inr ⟨store, result, rfl, by simp [hf, hs], by simp [hf, hs, store_text hlen]⟩

theorem updateStore_cases (f : CompatStore → Except Str (CompatStore × T)) :
    ((∃ err, (updateStore io f file).2 = .error err) ∧
        (updateStore io f file).1.store = file.store) ∨
      ∃ store result, f file.store = .ok (store, result) ∧
        (updateStore io f file).2 = .ok result ∧ (updateStore io f file).1.store = store := by
  unfold updateStore
  split
  · exact .inl ⟨⟨_, rfl⟩, rfl⟩
  · exact changeStore_cases f

/-- A change that cannot fail is made, or the file system fails and the store is kept. -/
theorem updateStore_ok (change : CompatStore → CompatStore × T) :
    ((∃ err, (updateStore io (fun store => .ok (change store)) file).2 = .error err) ∧
        (updateStore io (fun store => .ok (change store)) file).1.store = file.store) ∨
      (updateStore io (fun store => .ok (change store)) file).2 = .ok (change file.store).2 ∧
        (updateStore io (fun store => .ok (change store)) file).1.store = (change file.store).1 := by
  rcases @updateStore_cases T io file (fun store => .ok (change store)) with
    h | ⟨store, result, hchange, hok, hstore⟩
  · exact .inl h
  · have heq := Except.ok.inj hchange
    exact .inr ⟨by rw [hok, heq], by rw [hstore, heq]⟩

/-- A read keeps the store, and what it returns is read off it. -/
theorem readStore_store (f : CompatStore → Except Str T) :
    (readStore io f file).1.store = file.store ∧
      ∀ result, (readStore io f file).2 = .ok result → f file.store = .ok result := by
  unfold readStore
  split
  · exact ⟨rfl, fun _ h => by cases h⟩
  · have hload := @loadStore_store io file
    generalize loadStore io file = loaded at hload ⊢
    obtain ⟨file', err | store⟩ := loaded
    · exact ⟨hload.1, fun _ h => by cases h⟩
    · obtain rfl := hload.2 store rfl
      exact ⟨hload.1, fun _ h => h⟩

/-! ## The file as the program leaves it -/

/-- A file that the program wrote, or none. -/
def StoreFile.Sound : StoreFile → Prop
  | .missing => True
  | .text len parsed => ∃ store, parsed = some store ∧ len = store.jsonLen ∧
      len ≤ COMPAT_STORE_MAX_BYTES

/-- A sound file is loaded where it is. -/
theorem loadStore_sound (h : file.Sound) : (loadStore io file).1 = file ∧
    (io.load = none → (loadStore io file).2 = .ok file.store) := by
  unfold loadStore
  cases hload : io.load with
  | some err => exact ⟨rfl, nofun⟩
  | none =>
    cases file with
    | missing => exact ⟨rfl, fun _ => rfl⟩
    | text len parsed =>
      obtain ⟨store, rfl, -, hlen⟩ := h
      have hlen : ¬ len > COMPAT_STORE_MAX_BYTES := by omega
      simp [hlen, StoreFile.store]

/-- A change that fails leaves a sound file as it is, and one that is made leaves it sound. -/
theorem changeStore_sound (h : file.Sound) (f : CompatStore → Except Str (CompatStore × T)) :
    (changeStore io f file).1.Sound ∧
      ∀ err, (changeStore io f file).2 = .error err → (changeStore io f file).1 = file := by
  unfold changeStore
  have hload := (@loadStore_sound io file h).1
  generalize loadStore io file = loaded at hload ⊢
  obtain ⟨file', err | store⟩ := loaded
  · exact ⟨by rw [show file' = file from hload]; exact h, fun _ _ => hload⟩
  · obtain rfl : file' = file := hload
    cases hf : f store with
    | error err => exact ⟨by simpa [hf] using h, by simp [hf]⟩
    | ok changed =>
      obtain ⟨store', result⟩ := changed
      rcases saveStore_cases io store' file' with ⟨err, hs⟩ | ⟨hlen, hs⟩
      · exact ⟨by simpa [hf, hs] using h, by simp [hf, hs]⟩
      · refine ⟨?_, by simp [hf, hs]⟩
        simp only [hf, hs]
        exact ⟨store', rfl, rfl, hlen⟩

/-- A change of a sound file fails and leaves the file as it is, or is made. -/
theorem changeStore_done (h : file.Sound) (f : CompatStore → Except Str (CompatStore × T)) :
    (∃ err, changeStore io f file = (file, .error err)) ∨
      ∃ file' store result, f file.store = .ok (store, result) ∧
        changeStore io f file = (file', .ok result) ∧ file'.store = store ∧ file'.Sound := by
  obtain ⟨hsound, herror⟩ := @changeStore_sound T io file h f
  rcases @changeStore_cases T io file f with ⟨⟨err, herr⟩, -⟩ | ⟨store, result, hf, hok, hstore⟩
  · exact .inl ⟨err, Prod.ext (herror err herr) herr⟩
  · exact .inr ⟨_, store, result, hf, Prod.ext rfl hok, hstore, hsound⟩

theorem updateStore_done (h : file.Sound) (f : CompatStore → Except Str (CompatStore × T)) :
    (∃ err, updateStore io f file = (file, .error err)) ∨
      ∃ file' store result, f file.store = .ok (store, result) ∧
        updateStore io f file = (file', .ok result) ∧ file'.store = store ∧ file'.Sound := by
  unfold updateStore
  split
  · exact .inl ⟨_, rfl⟩
  · exact changeStore_done h f

/-- Where the file system does not fail, a change is saved unless the text is too long. -/
theorem changeStore_fits (h : file.Sound) (hload : io.load = none) (hsave : io.save = none)
    {f : CompatStore → Except Str (CompatStore × T)} {store : CompatStore} {result : T}
    (hf : f file.store = .ok (store, result)) :
    (changeStore io f file).2 =
      if store.jsonLen > COMPAT_STORE_MAX_BYTES then .error (oversizedMessage io.path)
      else .ok result := by
  unfold changeStore
  have hloaded := (@loadStore_sound io file h).2 hload
  generalize loadStore io file = loaded at hloaded ⊢
  obtain ⟨file', result'⟩ := loaded
  obtain rfl : result' = .ok file.store := hloaded
  simp only [hf, saveStore, hsave]
  split_ifs <;> rfl

end LightTerminal.Tmux.Store
