import LightTerminal.Client.Speculation

/-! # At most one mutation request for each generation

A client announces a request in the ledger before it sends it, and the ledger lets only one client
announce a request for a generation: the file of a tournament that has a requested action is not
exchanged before its generation grows. Between its announcement and its request a client is the only
one that may send a request for the generation, which is what `Ready` says.

* `Admissible`: what may be added to a log;
* `mutation_requests`: the log of every run of any number of clients is admissible at each of its
  entries, so that a request is announced, is the only one for its generation and the only one of its
  client, and is followed by `Status` requests alone. -/

namespace LightTerminal.Client.Requests

open LightTerminal.Data.Text LightTerminal.Library LightTerminal.Library.Procedure
open LightTerminal.Library.Interleave LightTerminal.Speculation.Phase
open LightTerminal.Speculation.Record LightTerminal.Speculation.Ledger
open LightTerminal.Client.Speculation

/-! ### What a log may say -/

/-- The exchange is the successful announcement of a request. -/
structure Announces (exchange : Exchange) (mutation : Mutation) (authority : RequestAuthority) :
    Prop where
  returned : exchange.returned = true
  action : exchange.new.value.action = mutation.requested
  tournament : exchange.new.value.tournamentUuid = authority.tournamentUuid
  daemon : exchange.new.value.daemonInstanceUuid = authority.daemonInstanceUuid
  generation : exchange.new.value.generation = authority.generation

/-- A record that mirrors a status replaces an older one of the same tournament and daemon. -/
def Newer (old : Option ClientLedgerEntry) (new : ClientLedgerEntry) : Prop :=
  ∃ entry, old = some entry ∧ entry.value.generation < new.value.generation ∧
    entry.value.tournamentUuid = new.value.tournamentUuid ∧
    entry.value.daemonInstanceUuid = new.value.daemonInstanceUuid

/-- A client whose earlier request had `authority` goes on with a status request for `later`: at the
same generation, or at one that it has mirrored. -/
structure Follows (log : List Logged) (client : ℕ) (authority later : RequestAuthority) : Prop where
  tournament : later.tournamentUuid = authority.tournamentUuid
  daemon : later.daemonInstanceUuid = authority.daemonInstanceUuid
  generation : authority.generation ≤ later.generation
  mirrored : later.generation = authority.generation ∨ ∃ exchange,
    .exchanged client exchange ∈ log ∧ exchange.new.value.action = .statusMirrored ∧
      exchange.new.value.generation = later.generation

/-- What may be added to the log `before`. -/
def Admissible (before : List Logged) : Logged → Prop
  | .sent client (.mutation mutation authority) =>
    (∃ exchange, .exchanged client exchange ∈ before ∧ Announces exchange mutation authority) ∧
      (∀ other mutation' authority', .sent other (.mutation mutation' authority') ∈ before →
        ¬(authority'.tournamentUuid = authority.tournamentUuid ∧
          authority'.generation = authority.generation)) ∧
      ∀ mutation' authority', .sent client (.mutation mutation' authority') ∉ before
  | .sent client (.status later) => ∀ mutation authority,
      .sent client (.mutation mutation authority) ∈ before → Follows before client authority later
  | .sent client _ => ∀ mutation authority, .sent client (.mutation mutation authority) ∉ before
  | .exchanged _ exchange =>
    exchange.new.value.action = .statusMirrored → Newer exchange.old exchange.new

/-! ### The invariant -/

/-- The file of the tournament of a requested record: it is of a later generation, or still has a
requested action. -/
def Outlives (files : Files) (record : ClientLedgerRecord) : Prop :=
  ∃ current, files record.tournamentUuid = some current ∧
    (record.generation < current.value.generation ∨
      record.generation = current.value.generation ∧ current.value.action.isRequested = true)

/-- The invariant of the clients. -/
structure Inv (s : World) : Prop where
  admissible : ∀ after entry before, s.log = after ++ entry :: before → Admissible before entry
  outlives : ∀ client exchange, .exchanged client exchange ∈ s.log →
    exchange.new.value.action.isRequested = true → Outlives s.files exchange.new.value
  single : ∀ client exchange client' exchange', .exchanged client exchange ∈ s.log →
    .exchanged client' exchange' ∈ s.log → exchange.new.value.action.isRequested = true →
    exchange'.new.value.action.isRequested = true →
    exchange.new.value.tournamentUuid = exchange'.new.value.tournamentUuid →
    exchange.new.value.generation = exchange'.new.value.generation → client = client'

/-- What the others may do: they add to the log. -/
def Rely (client : ℕ) (s s' : World) : Prop :=
  ∃ new, s'.log = new ++ s.log ∧ ∀ entry ∈ new, entry.client ≠ client

/-- The discipline of the clients. -/
def discipline : Discipline World where
  Inv := Inv
  Rely := Rely
  refl _ s := ⟨[], rfl, fun entry h => nomatch h⟩
  trans := by
    rintro client a b c ⟨new, hb, hnew⟩ ⟨new', hc, hnew'⟩
    refine ⟨new' ++ new, by rw [hc, hb, List.append_assoc], fun entry hentry => ?_⟩
    rcases List.mem_append.mp hentry with h | h
    · exact hnew' entry h
    · exact hnew entry h

variable {client : ℕ} {s s' : World}

theorem Rely.mem_of_mem (h : Rely client s s') {entry : Logged} (hentry : entry ∈ s.log) :
    entry ∈ s'.log := by
  obtain ⟨new, hlog, -⟩ := h
  rw [hlog]
  exact List.mem_append_right _ hentry

/-- What a client did is in the log already. -/
theorem Rely.mem_of_own (h : Rely client s s') {entry : Logged} (hentry : entry ∈ s'.log)
    (hown : entry.client = client) : entry ∈ s.log := by
  obtain ⟨new, hlog, hnew⟩ := h
  rw [hlog] at hentry
  rcases List.mem_append.mp hentry with hentry | hentry
  · exact absurd hown (hnew entry hentry)
  · exact hentry

theorem rely_of_log {entries : List Logged} (hlog : s'.log = entries ++ s.log)
    (hown : ∀ entry ∈ entries, entry.client = client) {j : ℕ} (hj : j ≠ client) : Rely j s s' :=
  ⟨entries, hlog, fun entry hentry => by rw [hown entry hentry]; exact hj.symm⟩

theorem rely_send {request : Request} {j : ℕ} (hj : j ≠ client) :
    Rely j s { s with log := .sent client request :: s.log } := by
  have hlog : Logged.sent client request :: s.log = [.sent client request] ++ s.log := rfl
  refine rely_of_log hlog (fun entry hentry => ?_) hj
  rw [List.mem_singleton] at hentry
  subst hentry
  rfl

/-- An entry is added to a log. -/
theorem admissible_cons {log : List Logged} {entry : Logged}
    (h : ∀ after e before, log = after ++ e :: before → Admissible before e)
    (hentry : Admissible log entry) :
    ∀ after e before, entry :: log = after ++ e :: before → Admissible before e := by
  intro after e before hsplit
  rcases after with _ | ⟨_, after⟩
  · obtain ⟨rfl, rfl⟩ := List.cons.inj hsplit
    exact hentry
  · exact h after e before (List.cons.inj hsplit).2

theorem inv_send (h : Inv s) {request : Request}
    (hentry : Admissible s.log (.sent client request)) :
    Inv { s with log := .sent client request :: s.log } := by
  have hmem {client' : ℕ} {exchange : Exchange}
      (he : .exchanged client' exchange ∈ Logged.sent client request :: s.log) :
      .exchanged client' exchange ∈ s.log := by
    rcases List.mem_cons.mp he with he | he
    · cases he
    · exact he
  refine ⟨admissible_cons h.admissible hentry, fun c x hx => h.outlives c x (hmem hx), ?_⟩
  exact fun c x c' x' hx hx' => h.single c x c' x' (hmem hx) (hmem hx')

/-! ### A call of the ledger -/

/-- The exchange that a call makes. -/
structure Exchanged (call : Call) (files : Files) (new : ClientLedgerEntry) : Prop where
  value : new.value = call.written
  old : files call.leaf = call.presented
  advances : ∀ entry, call.presented = some entry → Advances entry.value call.written

theorem callExactly_spec (call : Call) (root : DurableDirectoryIdentity) (system : System)
    (files : Files) :
    (∃ error, callExactly call root system files = (.error error, files)) ∨
      ∃ new result, Exchanged call files new ∧
        callExactly call root system files =
          (result, Function.update files call.leaf (some new)) ∧
        ∀ entry, result = .ok entry → entry = new := by
  have h := perform_mutates call root system files
  unfold callExactly
  cases hpresented : call.presented with
  | none =>
    rcases h with ⟨error, herror⟩ | ⟨hadmitted, result, hexec, hresult⟩
    · exact .inl ⟨error, by simp only [herror]⟩
    · refine .inr ⟨_, result, ⟨rfl, ?_, fun entry hentry => ?_⟩, by simp only [hexec], hresult⟩
      · rw [Call.Admitted, hpresented] at hadmitted
        rw [hadmitted, hpresented]
      · rw [hpresented] at hentry
        cases hentry
  | some entry =>
    by_cases hsame : files call.leaf = some entry
    · rcases h with ⟨error, herror⟩ | ⟨hadmitted, result, hexec, hresult⟩
      · exact .inl ⟨error, by simp only [if_pos hsame, herror]⟩
      · refine .inr ⟨_, result, ⟨rfl, by rw [hsame, hpresented], fun entry' hentry' => ?_⟩,
          by simp only [if_pos hsame, hexec], hresult⟩
        rw [Call.Admitted, hpresented] at hadmitted
        rw [hpresented, Option.some.injEq] at hentry'
        exact hentry' ▸ hadmitted.1
    · refine .inl ?_
      simp only [if_neg hsame]
      rcases (exec (call.perform root system) files).1 with error | entry'
      · exact ⟨error, rfl⟩
      · exact ⟨.stale, rfl⟩

variable {call : Call} {new : ClientLedgerEntry} {result : EvidenceResult ClientLedgerEntry}

/-- A call that presents an entry writes another record of its tournament, at its generation or a
later one. -/
theorem Exchanged.outlives (h : Exchanged call s.files new) {record : ClientLedgerRecord}
    (hrecord : Outlives s.files record) :
    Outlives (Function.update s.files call.leaf (some new)) record := by
  obtain ⟨current, hcurrent, hlater⟩ := hrecord
  unfold Outlives
  by_cases hleaf : record.tournamentUuid = call.leaf
  · rw [hleaf, Function.update_self]
    rw [hleaf, h.old] at hcurrent
    obtain ⟨-, hgeneration, hrequested⟩ := h.advances current hcurrent
    refine ⟨new, rfl, .inl ?_⟩
    rw [h.value]
    rcases hlater with hlt | ⟨heq, haction⟩
    · omega
    · have := hrequested haction
      omega
  · rw [Function.update_of_ne hleaf]
    exact ⟨current, hcurrent, hlater⟩

/-- The generation of a requested record is not announced a second time. -/
theorem Exchanged.fresh (h : Exchanged call s.files new) {record : ClientLedgerRecord}
    (hrecord : Outlives s.files record) (hleaf : record.tournamentUuid = new.value.tournamentUuid) :
    record.generation ≠ new.value.generation := by
  obtain ⟨current, hcurrent, hlater⟩ := hrecord
  rw [h.value] at hleaf ⊢
  have hpresented : call.presented = some current := by
    rw [← h.old, ← hcurrent]
    exact congrArg s.files hleaf.symm
  obtain ⟨-, hgeneration, hrequested⟩ := h.advances current hpresented
  intro heq
  rcases hlater with hlt | ⟨heq', haction⟩
  · omega
  · have := hrequested haction
    omega

/-- The call writes another record than the one presented, and a mirrored status only over an older
one. -/
structure Changes (call : Call) : Prop where
  value : ∀ entry, call.presented = some entry → entry.value ≠ call.written
  mirrored : call.written.action = .statusMirrored →
    ∃ entry, call.presented = some entry ∧ entry.value.generation < call.written.generation

/-- The state after an exchange. -/
def exchangeFile (client : ℕ) (call : Call) (new : ClientLedgerEntry) (returned : Bool) (s : World) :
    World where
  files := Function.update s.files call.leaf (some new)
  log := .exchanged client { old := s.files call.leaf, new, returned } :: s.log

theorem Exchanged.exchanges_eq (h : Exchanged call s.files new) (hchanges : Changes call)
    (result : EvidenceResult ClientLedgerEntry) :
    exchanges client call result s.files (Function.update s.files call.leaf (some new)) =
      [.exchanged client { old := s.files call.leaf, new, returned := result.toBool }] := by
  have hne : s.files call.leaf ≠ some new := by
    rw [h.old]
    exact fun heq => hchanges.value new heq h.value
  simp only [exchanges, Function.update_self, if_neg hne]

theorem inv_exchangeFile (h : Inv s) (he : Exchanged call s.files new) (hchanges : Changes call)
    (client : ℕ) (returned : Bool) : Inv (exchangeFile client call new returned s) := by
  have hmem {client' : ℕ} {exchange : Exchange}
      (hx : .exchanged client' exchange ∈ (exchangeFile client call new returned s).log) :
      client' = client ∧ exchange.new = new ∨ .exchanged client' exchange ∈ s.log := by
    rcases List.mem_cons.mp hx with hx | hx
    · cases hx
      exact .inl ⟨rfl, rfl⟩
    · exact .inr hx
  refine ⟨admissible_cons h.admissible fun hmirrored => ?_, fun c x hx haction => ?_, ?_⟩
  · rw [he.value] at hmirrored
    obtain ⟨entry, hpresented, hlt⟩ := hchanges.mirrored hmirrored
    obtain ⟨⟨htournament, hdaemon, -⟩, -, -⟩ := he.advances entry hpresented
    refine ⟨entry, he.old.trans hpresented, ?_, ?_, ?_⟩
    · rw [he.value]
      exact hlt
    · rw [he.value]
      exact htournament
    · rw [he.value]
      exact hdaemon
  · rcases hmem hx with ⟨-, heq⟩ | hx
    · rw [heq] at haction ⊢
      refine ⟨new, ?_, .inr ⟨rfl, haction⟩⟩
      rw [he.value]
      exact Function.update_self ..
    · exact he.outlives (h.outlives c x hx haction)
  · intro c x c' x' hx hx' haction haction' htournament hgeneration
    rcases hmem hx with ⟨hc, heq⟩ | hx <;> rcases hmem hx' with ⟨hc', heq'⟩ | hx'
    · rw [hc, hc']
    · rw [heq] at htournament hgeneration
      exact absurd hgeneration.symm
        (he.fresh (h.outlives c' x' hx' haction') htournament.symm)
    · rw [heq'] at htournament hgeneration
      exact absurd hgeneration (he.fresh (h.outlives c x hx haction) htournament)
    · exact h.single c x c' x' hx hx' haction haction' htournament hgeneration

/-- **A call of the ledger**: it fails, or it makes its exchange and returns the new entry. -/
theorem triple_ledgerCall {root : DurableDirectoryIdentity} {P : World → Prop}
    {Q : ClientLedgerEntry → World → Prop}
    (hchanges : (∀ entry, call.presented = some entry → Advances entry.value call.written) →
      Changes call)
    (hp : Stable discipline client P) (hq : ∀ entry, Stable discipline client (Q entry))
    (h : ∀ s new, P s → Exchanged call s.files new → Q new (exchangeFile client call new true s)) :
    FallibleTriple discipline client P (ledgerCall client root call) Q := by
  refine triple_atomically hp (fun a => stable_result hq a) fun s input hinv hs => ?_
  rcases callExactly_spec call root input.system s.files with
    ⟨error, herror⟩ | ⟨new, result, he, hexec, hresult⟩
  · simp only [herror]
    have hnone : exchanges client call (.error error) s.files s.files = [] := by
      unfold exchanges
      cases s.files call.leaf <;> simp
    rw [hnone]
    refine ⟨hinv, fun j _ => discipline.refl j s, fun entry hentry => ?_⟩
    cases hentry
  · simp only [hexec, he.exchanges_eq (hchanges he.advances)]
    have hnext : Inv (exchangeFile client call new result.toBool s) :=
      inv_exchangeFile hinv he (hchanges he.advances) client result.toBool
    refine ⟨hnext, fun j hj => rely_of_log rfl (fun entry hentry => ?_) hj, fun entry hentry => ?_⟩
    · rw [List.mem_singleton] at hentry
      subst hentry
      rfl
    · cases result with
      | error error => cases hentry
      | ok stored =>
        obtain rfl := hresult stored rfl
        cases hentry
        exact h s _ hs he

/-- A read changes nothing. -/
theorem triple_readJson {tournamentUuid : Uuid} {P : World → Prop}
    (hp : Stable discipline client P) :
    FallibleTriple discipline client P (readJson tournamentUuid) fun _ => P :=
  triple_atomically hp (fun a => stable_result (fun _ => hp) a) fun s _ hinv hs =>
    ⟨hinv, fun j _ => discipline.refl j s, fun _ _ => hs⟩

/-- The entry that is read back is the one that was written. -/
theorem triple_readbackLedger {root : DurableDirectoryIdentity} {candidate : ClientLedgerEntry}
    {Q : ClientLedgerEntry → World → Prop} (hq : ∀ entry, Stable discipline client (Q entry)) :
    FallibleTriple discipline client (Q candidate) (readbackLedger root candidate) Q := by
  have hread : FallibleTriple discipline client (Q candidate) (ledgerReadVerified root
      candidate.value.tournamentUuid candidate.value.daemonInstanceUuid) fun _ => Q candidate := by
    refine fallible_bind (triple_readJson (hq candidate)) fun entry => ?_
    exact (preserves_lift (hq candidate)).triple
  refine fallible_bind hread fun exact => ?_
  refine fallible_known fun _ hsame => fallible_pure (hq exact) fun s _ hs => ?_
  rw [demand, require_eq_ok] at hsame
  push Not at hsame
  obtain ⟨hidentity, hvalue⟩ := hsame
  have heq : exact = candidate := by
    cases exact
    cases candidate
    cases hidentity
    cases hvalue
    rfl
  exact heq ▸ hs

/-! ### A client -/

/-- The requests of a client so far: none unless `allowed`, and a status request for `current` may
follow them. -/
def Tracks (client : ℕ) (allowed : Prop) (current : ClientLedgerEntry) (s : World) : Prop :=
  ∀ mutation authority, .sent client (.mutation mutation authority) ∈ s.log →
    allowed ∧ Follows s.log client authority (.of current)

/-- A client that has sent no request that changes a tournament. -/
def Unsent (client : ℕ) (s : World) : Prop :=
  ∀ mutation authority, .sent client (.mutation mutation authority) ∉ s.log

/-- A client that has announced a request and not sent it. -/
def Ready (client : ℕ) (mutation : Mutation) (current : ClientLedgerEntry) (s : World) : Prop :=
  Unsent client s ∧ ∃ exchange, .exchanged client exchange ∈ s.log ∧
    Announces exchange mutation (.of current)

variable {allowed : Prop} {current : ClientLedgerEntry} {authority later : RequestAuthority}

theorem Follows.mono {log log' : List Logged} (h : Follows log client authority later)
    (hlog : ∀ entry ∈ log, entry ∈ log') : Follows log' client authority later := by
  refine ⟨h.tournament, h.daemon, h.generation, h.mirrored.imp_right ?_⟩
  rintro ⟨exchange, hmem, hexchange⟩
  exact ⟨exchange, hlog _ hmem, hexchange⟩

theorem stable_tracks : Stable discipline client (Tracks client allowed current) := by
  intro s s' h hrely mutation authority hsent
  obtain ⟨hallowed, hfollows⟩ := h mutation authority (Rely.mem_of_own hrely hsent rfl)
  exact ⟨hallowed, hfollows.mono fun _ => Rely.mem_of_mem hrely⟩

theorem stable_unsent : Stable discipline client (Unsent client) :=
  fun _ _ h hrely mutation authority hsent =>
    h mutation authority (Rely.mem_of_own hrely hsent rfl)

theorem stable_ready {mutation : Mutation} :
    Stable discipline client (Ready client mutation current) := by
  rintro s s' ⟨hunsent, exchange, hmem, hannounces⟩ hrely
  exact ⟨stable_unsent s s' hunsent hrely, exchange, Rely.mem_of_mem hrely hmem, hannounces⟩

theorem unsent_iff (current : ClientLedgerEntry) :
    Unsent client s ↔ Tracks client False current s := by
  constructor
  · exact fun h mutation authority hsent => absurd hsent (h mutation authority)
  · exact fun h mutation authority hsent => (h mutation authority hsent).1

theorem Unsent.tracks (h : Unsent client s) (current : ClientLedgerEntry) :
    Tracks client allowed current s :=
  fun mutation authority hsent => absurd hsent (h mutation authority)

/-- A request that is admissible. -/
theorem triple_strictRpcAt {request : Request} {P Q : World → Prop}
    (hp : Stable discipline client P) (hq : Stable discipline client Q)
    (h : ∀ s, Inv s → P s → Admissible s.log (.sent client request) ∧
      Q { s with log := .sent client request :: s.log }) :
    Triple discipline client P (strictRpcAt client request).run fun _ => Q := by
  refine triple_atomically hp (fun _ => hq) fun s input hinv hs => ?_
  obtain ⟨hentry, hpost⟩ := h s hinv hs
  exact ⟨inv_send hinv hentry, fun j hj => rely_send hj, hpost⟩

theorem Tracks.send {request : Request} (h : Tracks client allowed current s)
    (hrequest : ∀ mutation authority, request ≠ .mutation mutation authority) :
    Tracks client allowed current { s with log := .sent client request :: s.log } := by
  intro mutation authority hsent
  rcases List.mem_cons.mp hsent with heq | hsent
  · cases heq
    exact absurd rfl (hrequest mutation authority)
  · obtain ⟨hallowed, hfollows⟩ := h mutation authority hsent
    exact ⟨hallowed, hfollows.mono fun _ => List.mem_cons_of_mem _⟩

theorem Unsent.send {request : Request} (h : Unsent client s)
    (hrequest : ∀ mutation authority, request ≠ .mutation mutation authority) :
    Unsent client { s with log := .sent client request :: s.log } := by
  intro mutation authority hsent
  rcases List.mem_cons.mp hsent with heq | hsent
  · cases heq
    exact absurd rfl (hrequest mutation authority)
  · exact h mutation authority hsent

theorem preserves_statusRpc :
    Preserves discipline client (Tracks client allowed current)
      (statusRpc client (.of current)) := by
  refine preserves_bind stable_tracks (triple_strictRpcAt stable_tracks stable_tracks ?_) fun _ => ?_
  · intro s _ hs
    refine ⟨fun mutation authority hsent => (hs mutation authority hsent).2, hs.send ?_⟩
    exact fun mutation authority heq => nomatch heq
  · refine preserves_bind stable_tracks (preserves_lift stable_tracks) fun _ => ?_
    exact triple_ret stable_tracks fun _ _ hs => hs

theorem preserves_requireSpeculationProtocolAt :
    Preserves discipline client (Unsent client) (requireSpeculationProtocolAt client) := by
  have hsend : Triple discipline client (Unsent client) (.atomically fun input s =>
      (input.protocolVersion, { s with log := .sent client .daemonStatus :: s.log }) :
        Prog World Input (SpeculationClientResult ℕ)) fun _ => Unsent client := by
    refine triple_atomically stable_unsent (fun _ => stable_unsent) fun s input hinv hs => ?_
    exact ⟨inv_send hinv hs, fun j hj => rely_send hj, hs.send nofun⟩
  exact preserves_bind stable_unsent hsend fun _ => preserves_lift stable_unsent

theorem changes_createPrepared {record : ClientLedgerRecord} (h : record.action = .prepared) :
    Changes (.createPrepared record) := by
  refine ⟨fun entry hentry => ?_, fun hmirrored => ?_⟩
  · cases hentry
  · rw [Call.written, h] at hmirrored
    cases hmirrored

/-- `mirror_status` writes a newer record of its tournament. -/
theorem changes_mirrorStatus {status : SpeculationStatus}
    (h : current.value.generation < status.generation) : Changes (.mirrorStatus current status) := by
  refine ⟨fun entry hentry heq => ?_, fun _ => ⟨current, rfl, h⟩⟩
  cases hentry
  have hgeneration : current.value.generation = status.generation := by
    rw [heq]
    rfl
  omega

/-- The client goes on with the entry of a status that it mirrors. -/
theorem triple_observeAndMirrorNewerStatus {root : DurableDirectoryIdentity}
    {status : SpeculationStatus} :
    FallibleTriple discipline client (Tracks client allowed current)
      (observeAndMirrorNewerStatus client root current status) (Tracks client allowed) := by
  refine fallible_known fun _ hvalid => ?_
  split_ifs with hsame
  · exact fallible_pure stable_tracks fun _ _ hs => hs
  simp only [validateObservedStatusAgainstJournal, validateSpeculationStatus, bind_eq_ok,
    exists_unit, require_eq_ok, not_or, not_not] at hvalid
  obtain ⟨⟨⟨-, -, -, htournament, hdaemon, hgeneration, -⟩, -⟩, -⟩ := hvalid
  have hnewer : current.value.generation < status.generation := by omega
  refine fallible_bind (triple_ledgerCall (fun _ => changes_mirrorStatus hnewer) stable_tracks
    (fun _ => stable_tracks) ?_) fun stored => triple_readbackLedger fun _ => stable_tracks
  intro s new hs he mutation authority hsent
  have hsent : .sent client (.mutation mutation authority) ∈ s.log := by
    rcases List.mem_cons.mp hsent with heq | hsent
    · cases heq
    · exact hsent
  obtain ⟨hallowed, hfollows⟩ := hs mutation authority hsent
  have hvalue : new.value = mirrored current.value status := he.value
  refine ⟨hallowed, ?_, ?_, ?_, .inr ⟨_, List.mem_cons_self, ?_, rfl⟩⟩
  · rw [← hfollows.tournament, RequestAuthority.of, hvalue]
    exact htournament
  · rw [← hfollows.daemon, RequestAuthority.of, hvalue]
    exact hdaemon
  · have hle := hfollows.generation
    simp only [RequestAuthority.of, hvalue, mirrored] at hle ⊢
    omega
  · rw [hvalue]
    rfl

/-- A client polls. -/
theorem triple_pollJournaledStatusUntil {root : DurableDirectoryIdentity}
    {stop : SpeculationStatus → Bool} (rounds : ℕ) (current : ClientLedgerEntry) :
    FallibleTriple discipline client (Tracks client allowed current)
      (pollJournaledStatusUntil client root stop rounds current) fun _ _ => True := by
  have htrue : ∀ a : SpeculationStatus, Stable discipline client fun _ => True :=
    fun _ _ _ _ _ => trivial
  induction rounds generalizing current with
  | zero =>
    refine fallible_bind preserves_statusRpc.triple fun status => ?_
    refine fallible_bind triple_observeAndMirrorNewerStatus fun current' => ?_
    split_ifs
    · exact fallible_pure (htrue status) fun _ _ _ => trivial
    · exact fallible_throw
  | succ rounds ih =>
    refine fallible_bind (fallible_attempt (fun _ => stable_tracks) preserves_statusRpc) fun
      | .error error => ?_
      | .ok status => ?_
    · dsimp only
      split_ifs
      · exact ih current
      · exact fallible_throw
    · refine fallible_bind triple_observeAndMirrorNewerStatus fun current' => ?_
      split_ifs
      · exact fallible_pure (htrue status) fun _ _ _ => trivial
      · exact ih current'

theorem isRequested_requested (mutation : Mutation) : mutation.requested.isRequested = true := by
  cases mutation <;> rfl

theorem Unsent.exchangeFile (h : Unsent client s) (call : Call) (new : ClientLedgerEntry)
    (returned : Bool) : Unsent client (exchangeFile client call new returned s) := by
  intro mutation authority hsent
  rcases List.mem_cons.mp hsent with heq | hsent
  · cases heq
  · exact h mutation authority hsent

/-- The announcement of a request. -/
theorem triple_writeRequestedAction {root : DurableDirectoryIdentity} {mutation : Mutation} :
    FallibleTriple discipline client (Unsent client)
      (writeRequestedAction client root current mutation.requested) (Ready client mutation) := by
  refine fallible_bind (triple_ledgerCall (fun hadvances => ⟨fun entry hentry heq => ?_, ?_⟩)
    stable_unsent (fun _ => stable_ready) ?_) fun stored =>
      triple_readbackLedger fun _ => stable_ready
  · have haction : entry.value.action.isRequested = true := by
      rw [heq]
      exact isRequested_requested mutation
    have hlt := (hadvances entry hentry).requested haction
    rw [← heq] at hlt
    exact absurd hlt (lt_irrefl _)
  · intro hmirrored
    have haction := isRequested_requested mutation
    rw [show mutation.requested = .statusMirrored from hmirrored] at haction
    cases haction
  · intro s new hs he
    refine ⟨hs.exchangeFile _ _ _, _, List.mem_cons_self, rfl, ?_, rfl, rfl, rfl⟩
    rw [he.value]
    rfl

/-- No client has sent a request for the generation that is announced. -/
theorem Inv.unsent_generation (h : Inv s) {exchange : Exchange} {mutation : Mutation}
    (hunsent : Unsent client s) (hmem : .exchanged client exchange ∈ s.log)
    (hannounces : Announces exchange mutation authority) {other : ℕ} {mutation' : Mutation}
    {authority' : RequestAuthority} (hsent : .sent other (.mutation mutation' authority') ∈ s.log) :
    ¬(authority'.tournamentUuid = authority.tournamentUuid ∧
      authority'.generation = authority.generation) := by
  rintro ⟨htournament, hgeneration⟩
  obtain ⟨after, before, hlog⟩ := List.append_of_mem hsent
  obtain ⟨⟨exchange', hmem', hannounces'⟩, -, -⟩ := h.admissible after _ before hlog
  have hmem' : .exchanged other exchange' ∈ s.log := by
    rw [hlog]
    exact List.mem_append_right _ (List.mem_cons_of_mem _ hmem')
  have hrequested : exchange.new.value.action.isRequested = true := by
    rw [hannounces.action]
    exact isRequested_requested mutation
  have hrequested' : exchange'.new.value.action.isRequested = true := by
    rw [hannounces'.action]
    exact isRequested_requested mutation'
  have heq := h.single client exchange other exchange' hmem hmem' hrequested hrequested'
    (by rw [hannounces.tournament, hannounces'.tournament, htournament])
    (by rw [hannounces.generation, hannounces'.generation, hgeneration])
  subst heq
  exact hunsent mutation' authority' hsent

/-- The request that was announced. -/
theorem triple_requestMutation {root : DurableDirectoryIdentity} {mutation : Mutation} :
    FallibleTriple discipline client (Ready client mutation current)
      (requestMutation client root mutation current) (Tracks client True) := by
  have hsend : Triple discipline client (Ready client mutation current)
      (strictRpcAt client (.mutation mutation (.of current))).run
      fun _ => Tracks client True current := by
    refine triple_strictRpcAt stable_ready stable_tracks fun s hinv hs => ?_
    obtain ⟨hunsent, exchange, hmem, hannounces⟩ := hs
    refine ⟨⟨⟨exchange, hmem, hannounces⟩, fun other mutation' authority' hsent => ?_, hunsent⟩, ?_⟩
    · exact hinv.unsent_generation hunsent hmem hannounces hsent
    · intro mutation' authority' hsent
      rcases List.mem_cons.mp hsent with heq | hsent
      · cases heq
        exact ⟨trivial, rfl, rfl, le_rfl, .inl rfl⟩
      · exact absurd hsent (hunsent mutation' authority')
  refine fallible_bind (fallible_attempt (fun _ => stable_tracks) hsend) fun
    | .ok status => ?_
    | .error error => ?_
  · have hrest : FallibleTriple discipline client (Tracks client True current)
        (do
          demand (¬status.generation = current.value.generation) .responseInvalid
          observeAndMirrorNewerStatus client root current status : ClientM ClientLedgerEntry)
        (Tracks client True) :=
      fallible_known fun _ _ => triple_observeAndMirrorNewerStatus
    dsimp only
    split_ifs
    · exact fallible_known fun _ _ => hrest
    · exact hrest
  · dsimp only
    split_ifs
    · exact fallible_pure stable_tracks fun _ _ hs => hs
    · exact fallible_throw

/-- The end of `speculate_finalize` and `speculate_rollback`. -/
theorem triple_actOnPhase {root : DurableDirectoryIdentity} {mutation : Mutation}
    {stop : SpeculationStatus → Bool} {rounds : ℕ} {action : PhaseAction}
    {observed : SpeculationStatus} :
    FallibleTriple discipline client (Unsent client)
      (actOnPhase client root mutation stop rounds action observed current) fun _ _ => True := by
  have hpoll (current : ClientLedgerEntry) : FallibleTriple discipline client (Unsent client)
      (pollJournaledStatusUntil client root stop rounds current) fun _ _ => True := by
    have htracks : FallibleTriple discipline client (Tracks client True current)
        (pollJournaledStatusUntil client root stop rounds current) fun _ _ => True :=
      triple_pollJournaledStatusUntil rounds current
    exact htracks.weaken fun s hs => hs.tracks current
  unfold actOnPhase
  cases action with
  | reject => exact fallible_throw
  | «return» => exact fallible_pure (fun _ _ _ _ => trivial) fun _ _ _ => trivial
  | poll => exact hpoll current
  | start =>
    dsimp only
    split
    · exact hpoll current
    · exact fallible_throw
    · refine fallible_bind triple_writeRequestedAction fun current' => ?_
      refine fallible_bind triple_requestMutation fun current'' => ?_
      exact triple_pollJournaledStatusUntil rounds current''

theorem triple_observe {root : DurableDirectoryIdentity} {status : SpeculationStatus} :
    FallibleTriple discipline client (Unsent client)
      (observeAndMirrorNewerStatus client root current status) fun _ => Unsent client := by
  have h : FallibleTriple discipline client (Tracks client False current)
      (observeAndMirrorNewerStatus client root current status) (Tracks client False) :=
    triple_observeAndMirrorNewerStatus
  refine Triple.mono (h.weaken fun s hs => (unsent_iff current).mp hs) fun result s hs a ha => ?_
  exact (unsent_iff a).mpr (hs a ha)

theorem preserves_unsent_statusRpc :
    Preserves discipline client (Unsent client) (statusRpc client (.of current)) := by
  have h : Preserves discipline client (Tracks client False current)
      (statusRpc client (.of current)) := preserves_statusRpc
  refine Triple.mono (Triple.weaken h fun s hs => (unsent_iff current).mp hs) fun _ s hs => ?_
  exact (unsent_iff current).mpr hs

theorem preserves_ledgerReadTournament {root : DurableDirectoryIdentity} {tournamentUuid : Uuid} :
    Preserves discipline client (Unsent client) (ledgerReadTournament root tournamentUuid) := by
  have hread : Preserves discipline client (Unsent client) (readJson tournamentUuid) :=
    triple_atomically stable_unsent (fun _ => stable_unsent) fun s _ hinv hs =>
      ⟨hinv, fun j _ => discipline.refl j s, hs⟩
  refine preserves_bind stable_unsent (preserves_lift stable_unsent) fun _ => ?_
  exact preserves_bind stable_unsent hread fun _ => preserves_lift stable_unsent

section Programs

variable {root : DurableDirectoryIdentity} {tournamentUuid : Uuid} {rounds : ℕ}

theorem stable_true {α : Type} (a : α) :
    Stable discipline client ((fun _ _ => True : α → World → Prop) a) :=
  fun _ _ _ _ => trivial

theorem triple_speculateRun {roots : ClientRootIdentities} :
    FallibleTriple discipline client (Unsent client) (speculateRun client root roots rounds)
      fun _ _ => True := by
  refine fallible_bind preserves_requireSpeculationProtocolAt.triple fun _ => ?_
  have hprepare : Triple discipline client (Unsent client) (strictRpcAt client .prepare).run
      fun _ => Unsent client :=
    triple_strictRpcAt stable_unsent stable_unsent fun s _ hs => ⟨hs, hs.send nofun⟩
  refine fallible_bind (Preserves.triple hprepare) fun prepared => fallible_known fun _ _ => ?_
  refine fallible_bind (triple_ledgerCall (fun _ => changes_createPrepared rfl) stable_unsent
    (fun _ => stable_unsent) fun s new hs _ => hs.exchangeFile _ _ _) fun created => ?_
  refine fallible_bind (triple_readbackLedger fun _ => stable_unsent) fun preparedEntry => ?_
  have hwrite : FallibleTriple discipline client (Unsent client)
      (writeRequestedAction client root preparedEntry Mutation.arm.requested) (Ready client .arm) :=
    triple_writeRequestedAction
  refine fallible_bind hwrite fun armEntry => ?_
  refine fallible_bind triple_requestMutation fun current => ?_
  exact triple_pollJournaledStatusUntil rounds current

theorem triple_speculateStatus :
    FallibleTriple discipline client (Unsent client) (speculateStatus client root tournamentUuid)
      fun _ _ => True := by
  refine fallible_bind preserves_ledgerReadTournament.triple fun tournament => ?_
  refine fallible_bind preserves_requireSpeculationProtocolAt.triple fun _ => ?_
  refine fallible_bind preserves_unsent_statusRpc.triple fun status => fallible_known fun _ _ => ?_
  exact fallible_known fun _ _ => fallible_pure (stable_true status) fun _ _ _ => trivial

theorem triple_speculateFinalize :
    FallibleTriple discipline client (Unsent client)
      (speculateFinalize client root tournamentUuid rounds) fun _ _ => True := by
  refine fallible_bind preserves_ledgerReadTournament.triple fun tournament => ?_
  refine fallible_known fun _ _ => ?_
  refine fallible_bind preserves_requireSpeculationProtocolAt.triple fun _ => ?_
  refine fallible_bind preserves_unsent_statusRpc.triple fun observed => ?_
  exact fallible_bind triple_observe fun current => triple_actOnPhase

theorem triple_speculateRollback :
    FallibleTriple discipline client (Unsent client)
      (speculateRollback client root tournamentUuid rounds) fun _ _ => True := by
  refine fallible_bind preserves_ledgerReadTournament.triple fun tournament => ?_
  refine fallible_bind preserves_requireSpeculationProtocolAt.triple fun _ => ?_
  refine fallible_bind preserves_unsent_statusRpc.triple fun observed => fallible_known fun _ _ => ?_
  split_ifs
  · exact fallible_known fun _ _ => fallible_pure (stable_true observed) fun _ _ _ => trivial
  · exact fallible_bind triple_observe fun current => triple_actOnPhase

end Programs

/-- **Every client keeps to the discipline.** -/
theorem triple_program (client : ℕ) (invocation : Invocation) :
    Triple discipline client (Unsent client) (program client invocation) fun _ _ => True := by
  cases invocation with
  | run root roots rounds => exact Triple.mono triple_speculateRun fun _ _ _ => trivial
  | status root tournamentUuid => exact Triple.mono triple_speculateStatus fun _ _ _ => trivial
  | finalize root tournamentUuid rounds =>
    exact Triple.mono triple_speculateFinalize fun _ _ _ => trivial
  | rollback root tournamentUuid rounds =>
    exact Triple.mono triple_speculateRollback fun _ _ _ => trivial

theorem clients_inv (files : Files) (events : List (Event Invocation Input)) :
    Inv (clients files events).state := by
  refine run_inv (D := discipline) (fun _ => stable_unsent) triple_program ?_ ?_ events
  · refine ⟨fun after entry before hlog => ?_, fun client exchange hmem => ?_,
      fun client exchange client' exchange' hmem => ?_⟩
    · exact absurd hlog.symm (by simp)
    · cases hmem
    · cases hmem
  · exact fun _ _ _ hsent => nomatch hsent

/-- **At most one mutation request for each generation.** In every run of any number of clients on a
ledger directory, with any responses of the daemon:

* a request was announced by its client, in a record with its action and its authority that the
  directory had before;
* no two requests are for one generation of a tournament;
* a client that sent a request goes on with `Status` requests for the same tournament and daemon, at
  the generation of the request until it has mirrored a later one;
* a mirrored status replaces an older one of the same tournament and daemon. -/
theorem mutation_requests (files : Files) (events : List (Event Invocation Input)) :
    let log := (clients files events).state.log
    (∀ after client mutation authority before,
      log = after ++ .sent client (.mutation mutation authority) :: before →
      ∃ exchange, .exchanged client exchange ∈ before ∧ Announces exchange mutation authority) ∧
    (∀ after client mutation authority before,
      log = after ++ .sent client (.mutation mutation authority) :: before →
      ∀ client' mutation' authority', .sent client' (.mutation mutation' authority') ∈ before →
        ¬(authority'.tournamentUuid = authority.tournamentUuid ∧
          authority'.generation = authority.generation)) ∧
    (∀ after client request before, log = after ++ .sent client request :: before →
      ∀ mutation authority, .sent client (.mutation mutation authority) ∈ before →
        ∃ later, request = .status later ∧ Follows before client authority later) ∧
    ∀ client exchange, .exchanged client exchange ∈ log →
      exchange.new.value.action = .statusMirrored → Newer exchange.old exchange.new := by
  intro log
  have h : Inv (clients files events).state := clients_inv files events
  refine ⟨?_, ?_, ?_, ?_⟩
  · intro after client mutation authority before hlog
    exact (h.admissible after _ before hlog).1
  · intro after client mutation authority before hlog
    exact (h.admissible after _ before hlog).2.1
  · intro after client request before hlog mutation authority hsent
    have hentry := h.admissible after _ before hlog
    cases request with
    | daemonStatus => exact absurd hsent (hentry mutation authority)
    | prepare => exact absurd hsent (hentry mutation authority)
    | status later => exact ⟨later, rfl, hentry mutation authority hsent⟩
    | mutation mutation' authority' => exact absurd hsent (hentry.2.2 mutation authority)
  · intro client exchange hmem
    obtain ⟨after, before, hlog⟩ := List.append_of_mem hmem
    exact h.admissible after _ before hlog

/-- A client whose `Arm` request is lost sends it once, and then asks for the status. -/
example :
    let prepared := { sampleStatus 1 with leaseDeadlineUnixMs := 1 }
    let input (ino : ℕ) : Input :=
      { response := .ok prepared, protocolVersion := .ok 9, system := ⟨⟨1, ino⟩, .done⟩
        unread := none }
    let lost (ino : ℕ) : Input := { input ino with response := .error .transport }
    let roots := (sampleEntry 1 .prepared 1).value.roots
    let pool := clients (fun _ => none) (.start (.run sampleRoot roots 1) ::
      ([input 1, input 1, input 1, input 1, input 2, input 2, lost 3, lost 3].map (.advance 0)))
    pool.state.log.filterMap (fun entry => match entry with
      | .sent _ request => some request
      | .exchanged _ _ => none) =
      [.status ⟨2, 3, 1⟩, .mutation .arm ⟨2, 3, 1⟩, .prepare, .daemonStatus] := by
  decide

end LightTerminal.Client.Requests
