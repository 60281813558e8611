import Mempulse.Ingest.DecodedPending

/-!
# Retrying a failed poll

A poll that fails returns no event. When it is the request for the pending hashes that fails, the
service is as it was and the batch can be processed as if for the first time. When a fetch fails, the
hashes before it and its own are remembered already and their sequence ids are spent: the retry drops
them as duplicates, and its events are numbered from beyond the lost ones.
-/

set_option autoImplicit false

namespace Mempulse.Ingest

open Std EventLog Library

/-! ## Numbered events -/

/-- Sequence ids that follow one another. -/
def seqIdsFrom (first : UInt64) : Nat → List UInt64
  | 0 => []
  | count + 1 => first :: seqIdsFrom (first + 1) count

theorem seqIdsFrom_add (first : UInt64) (count more : Nat) :
    seqIdsFrom first (count + more) =
      seqIdsFrom first count ++ seqIdsFrom (first + UInt64.ofNat count) more := by
  induction count generalizing first with
  | zero => simp [seqIdsFrom]
  | succ count ih =>
      have moved : first + 1 + UInt64.ofNat count = first + UInt64.ofNat (count + 1) := by
        rw [UInt64.ofNat_add, UInt64.add_assoc, UInt64.add_comm 1]
        rfl
      rw [Nat.add_right_comm, seqIdsFrom, ih, moved, seqIdsFrom, List.cons_append]

/-- Says of a payload that it announces the hash as seen. -/
def Sees (hash : TxHash) (payload : EventPayload) : Prop :=
  ∃ seen, payload = .txSeen seen ∧ seen.hash = hash

/-- Says of a payload that it reports the hash, as seen or as dropped. -/
def ReportsHash (hash : TxHash) (payload : EventPayload) : Prop :=
  Sees hash payload ∨ ∃ dropped, payload = .txDropped dropped ∧ dropped.hash = hash

namespace RpcIngestService

variable {P C : Type} [PendingTxProvider P] [IngestClock C]

/-- The events a step of the service has produced take up its sequence ids. -/
structure Emits (service : RpcIngestService P C) (events : List EventEnvelope)
    (next : RpcIngestService P C) : Prop where
  numbered : events.map (·.seqId) = seqIdsFrom service.nextSeqId events.length
  advanced : next.nextSeqId = service.nextSeqId + UInt64.ofNat events.length

section

omit [PendingTxProvider P] [IngestClock C]

theorem Emits.none (service next : RpcIngestService P C) (same : next.nextSeqId = service.nextSeqId) :
    Emits service [] next :=
  ⟨rfl, by simpa using same⟩

theorem Emits.append {service middle next : RpcIngestService P C}
    {events later : List EventEnvelope} (first : Emits service events middle)
    (second : Emits middle later next) : Emits service (events ++ later) next where
  numbered := by
    rw [List.map_append, first.numbered, second.numbered, first.advanced, List.length_append,
      seqIdsFrom_add]
  advanced := by
    rw [second.advanced, first.advanced, List.length_append, UInt64.ofNat_add, UInt64.add_assoc]

end

omit [PendingTxProvider P] in
theorem emits_newEvent (service start : RpcIngestService P C) (payload : EventPayload)
    (same : start.nextSeqId = service.nextSeqId) :
    Emits service [(start.newEvent payload).1] (start.newEvent payload).2 where
  numbered := by
    rw [← same]
    rfl
  advanced := by
    rw [← same]
    rfl

omit [PendingTxProvider P] in
/-- Two events in a row. -/
theorem emits_newEvents (service start : RpcIngestService P C) (payload other : EventPayload)
    (same : start.nextSeqId = service.nextSeqId) :
    Emits service [(start.newEvent payload).1, ((start.newEvent payload).2.newEvent other).1]
      ((start.newEvent payload).2.newEvent other).2 :=
  (emits_newEvent service start payload same).append (emits_newEvent _ _ other rfl)

omit [PendingTxProvider P] in
theorem emits_observe (service start : RpcIngestService P C) (hash : TxHash)
    (same : start.nextSeqId = service.nextSeqId) :
    Emits service [(start.observe hash).1] (start.observe hash).2 :=
  emits_newEvent service _ _ same

/-! ## A provider that succeeds -/

/-- The provider after fetches. -/
def afterFetches (provider : P) (hashes : List TxHash) : P :=
  hashes.foldl (fun provider hash => (PendingTxProvider.fetchTransaction provider hash).2) provider

/-- Whatever is fetched first, a fetch succeeds. -/
def Fetching (provider : P) : Prop :=
  ∀ hashes hash, ∃ answer,
    (PendingTxProvider.fetchTransaction (afterFetches provider hashes) hash).1 = .ok answer

omit [IngestClock C] in
theorem Fetching.answer {provider : P} (fetching : Fetching provider) (hash : TxHash) :
    ∃ answer, (PendingTxProvider.fetchTransaction provider hash).1 = .ok answer :=
  fetching [] hash

theorem Fetching.after {provider : P} (fetching : Fetching provider) (hash : TxHash) :
    Fetching (PendingTxProvider.fetchTransaction provider hash).2 :=
  fun hashes other => fetching (hash :: hashes) other

/-- The provider lists the batch and succeeds with every fetch. -/
def Succeeds (provider : P) (hashes : List TxHash) : Prop :=
  (PendingTxProvider.pendingHashes provider).1 = .ok hashes ∧
    Fetching (PendingTxProvider.pendingHashes provider).2

/-! ## One hash -/

omit [PendingTxProvider P] [IngestClock C] in
/-- Forgetting hashes adds none. -/
theorem contains_forgetOldest {maxSeenHashes : Nat} {seenHashes : ExtTreeSet TxHash}
    {order : List TxHash} {hash : TxHash}
    (held : (forgetOldest maxSeenHashes seenHashes order).2.contains hash = true) :
    seenHashes.contains hash = true := by
  rw [forgetOldest] at held
  refine (evict_invariant maxSeenHashes
    (fun (memory : ExtTreeSet TxHash) _ =>
      memory.contains hash = true → seenHashes.contains hash = true) ?_ id).2 held
  intro memory oldest rest earlier kept
  rw [ExtTreeSet.contains_erase, Bool.and_eq_true] at kept
  exact earlier kept.2

omit [PendingTxProvider P] [IngestClock C] in
/-- Remembering a hash remembers no other. -/
theorem not_contains_rememberHash (service : RpcIngestService P C) {hash other : TxHash}
    (differs : hash ≠ other) (unseen : service.seenHashes.contains other = false) :
    (service.rememberHash hash).2.seenHashes.contains other = false := by
  rw [rememberHash]
  split
  · exact unseen
  · rw [Bool.eq_false_iff]
    intro held
    have inserted := contains_forgetOldest held
    rw [ExtTreeSet.contains_insert, unseen, Bool.or_false, beq_iff_eq] at inserted
    exact differs (Std.compare_eq_iff_eq.mp inserted)

/-- What the service has after a hash of a batch was processed. -/
structure Processed (service : RpcIngestService P C) (entry : TxHash × Nat)
    (events : List EventEnvelope) (next : RpcIngestService P C) : Prop where
  emits : Emits service events next
  reports : ∃ event ∈ events, ReportsHash entry.1 event.payload
  sees : service.refuses entry = false → ∃ event ∈ events, Sees entry.1 event.payload
  config : next.config = service.config
  fetching : Fetching next.provider
  unseen : ∀ other, entry.1 ≠ other → service.seenHashes.contains other = false →
    next.seenHashes.contains other = false

theorem fetch_spec {service : RpcIngestService P C} (fetching : Fetching service.provider)
    (hash : TxHash) : ∃ events, (service.fetch hash).1 = .ok events ∧
      Emits service events (service.fetch hash).2 ∧
      (service.fetch hash).2.config = service.config ∧
      Fetching (service.fetch hash).2.provider ∧
      (service.fetch hash).2.seenHashes = service.seenHashes := by
  obtain ⟨answer, answered⟩ := fetching.answer hash
  have onward := fetching.after hash
  dsimp only [fetch]
  rw [answered]
  cases answer with
  | none => exact ⟨[], rfl, .none _ _ rfl, rfl, onward, rfl⟩
  | some tx =>
      exact ⟨_, rfl, emits_newEvents service _ _ _ rfl, rfl, onward, rfl⟩

theorem processHash_spec {service : RpcIngestService P C} (fetching : Fetching service.provider)
    (depthCurrent : Nat) (entry : TxHash × Nat) :
    ∃ events, (processHash depthCurrent service entry).1 = .ok events ∧
      Processed service entry events (processHash depthCurrent service entry).2 := by
  dsimp only [processHash]
  by_cases beyond : entry.2 ≥ service.config.pendingBatchCapacity
  · rw [if_pos beyond]
    refine ⟨_, rfl, emits_newEvent service service _ rfl,
      ⟨_, List.mem_singleton_self _, .inr ⟨_, rfl, rfl⟩⟩, ?_, rfl, fetching, fun _ _ unseen => unseen⟩
    simp [refuses, beyond]
  · rw [if_neg beyond]
    by_cases seen : service.seenHashes.contains entry.1
    · have refused : service.rememberHash entry.1 = (false, service) := by
        rw [rememberHash, if_pos seen]
      rw [refused]
      refine ⟨_, rfl, emits_newEvent service service _ rfl,
        ⟨_, List.mem_singleton_self _, .inr ⟨_, rfl, rfl⟩⟩, ?_, rfl, fetching,
        fun _ _ unseen => unseen⟩
      simp [refuses, seen]
    · have remembered : (service.rememberHash entry.1).1 = true ∧
          (service.rememberHash entry.1).2.nextSeqId = service.nextSeqId ∧
          (service.rememberHash entry.1).2.config = service.config ∧
          (service.rememberHash entry.1).2.provider = service.provider := by
        rw [rememberHash, if_neg seen]
        exact ⟨rfl, rfl, rfl, rfl⟩
      obtain ⟨isNew, sameIds, sameConfig, sameProvider⟩ := remembered
      rw [isNew, Bool.not_true, if_neg Bool.false_ne_true]
      have stillFetching : Fetching
          ((service.rememberHash entry.1).2.observe entry.1).2.provider := by
        have same : ((service.rememberHash entry.1).2.observe entry.1).2.provider =
          (service.rememberHash entry.1).2.provider := rfl
        rw [same, sameProvider]
        exact fetching
      obtain ⟨events, fetched, emits, config, onward, hashes⟩ := fetch_spec stillFetching entry.1
      have observes : Sees entry.1
          ((service.rememberHash entry.1).2.observe entry.1).1.payload := ⟨_, rfl, rfl⟩
      refine ⟨_, congrArg (Except.map _) fetched, ?_, ⟨_, List.mem_cons_self, .inl observes⟩,
        fun _ => ⟨_, List.mem_cons_self, observes⟩, config.trans sameConfig, onward, ?_⟩
      · exact (emits_observe service _ entry.1 sameIds).append emits
      · intro other differs unseen
        rw [hashes]
        exact not_contains_rememberHash service differs unseen

/-! ## A batch that succeeds -/

/-- An entry of a batch whose hash the service has not seen and accepts. -/
def Accepts (service : RpcIngestService P C) (entries : List (TxHash × Nat)) (hash : TxHash) : Prop :=
  service.seenHashes.contains hash = false ∧
    ∃ entry ∈ entries, entry.1 = hash ∧ entry.2 < service.config.pendingBatchCapacity

/-- What a batch returns that meets no failure: numbered events that report every hash, and announce
every hash that is new to the service. -/
structure Returns (service : RpcIngestService P C) (entries : List (TxHash × Nat))
    (events : List EventEnvelope) (next : RpcIngestService P C) : Prop where
  emits : Emits service events next
  reports : ∀ entry ∈ entries, ∃ event ∈ events, ReportsHash entry.1 event.payload
  sees : ∀ hash, service.Accepts entries hash → ∃ event ∈ events, Sees hash event.payload

theorem processHashes_spec (depthCurrent : Nat) {entries : List (TxHash × Nat)}
    {service : RpcIngestService P C} (fetching : Fetching service.provider) :
    ∃ events, (processHashes depthCurrent service entries).1 = .ok events ∧
      Returns service entries events (processHashes depthCurrent service entries).2 := by
  induction entries generalizing service with
  | nil =>
      refine ⟨[], rfl, .none _ _ rfl, nofun, ?_⟩
      rintro hash ⟨-, entry, member, -⟩
      cases member
  | cons entry rest ih =>
      obtain ⟨events, processed, here⟩ := processHash_spec fetching depthCurrent entry
      obtain ⟨later, returned, onward⟩ := ih here.fetching
      dsimp only [processHashes]
      rw [processed]
      dsimp only
      refine ⟨events ++ later, by rw [returned]; rfl, here.emits.append onward.emits, ?_, ?_⟩
      · intro other member
        rcases List.mem_cons.mp member with rfl | inRest
        · obtain ⟨event, produced, reported⟩ := here.reports
          exact ⟨event, List.mem_append_left _ produced, reported⟩
        · obtain ⟨event, produced, reported⟩ := onward.reports other inRest
          exact ⟨event, List.mem_append_right _ produced, reported⟩
      · rintro hash ⟨unseen, other, member, named, within⟩
        by_cases accepted : entry.1 = hash ∧ entry.2 < service.config.pendingBatchCapacity
        · obtain ⟨rfl, room⟩ := accepted
          have welcome : service.refuses entry = false := by
            rw [refuses, unseen, Bool.or_false, decide_eq_false (Nat.not_le_of_lt room)]
          obtain ⟨event, produced, seen⟩ := here.sees welcome
          exact ⟨event, List.mem_append_left _ produced, seen⟩
        · -- The hash of this entry is another one, or is dropped for its index alone.
          have inRest : other ∈ rest := by
            rcases List.mem_cons.mp member with rfl | inRest
            · exact absurd ⟨named, within⟩ accepted
            · exact inRest
          have still : (processHash depthCurrent service entry).2.seenHashes.contains hash = false := by
            by_cases same : entry.1 = hash
            · have beyond : entry.2 ≥ service.config.pendingBatchCapacity :=
                Nat.le_of_not_lt fun room => accepted ⟨same, room⟩
              dsimp only [processHash]
              rw [if_pos beyond]
              exact unseen
            · exact here.unseen hash same unseen
          obtain ⟨event, produced, seen⟩ := onward.sees hash
            ⟨still, other, inRest, named, by rwa [here.config]⟩
          exact ⟨event, List.mem_append_right _ produced, seen⟩

/-! ## A batch that fails -/

/-- The most events a hash has. -/
def eventsPerHash : Nat := 3

/-- The sequence ids a hash spends: at least the one of its observation, also when its fetch fails. -/
theorem nextSeqId_processHash (depthCurrent : Nat) (service : RpcIngestService P C)
    (entry : TxHash × Nat) : ∃ count, 0 < count ∧ count ≤ eventsPerHash ∧
      (processHash depthCurrent service entry).2.nextSeqId =
        service.nextSeqId + UInt64.ofNat count := by
  have fetched : ∀ start : RpcIngestService P C, ∃ count, count ≤ 2 ∧
      (start.fetch entry.1).2.nextSeqId = start.nextSeqId + UInt64.ofNat count := by
    intro start
    dsimp only [fetch]
    split
    · exact ⟨0, by decide, (UInt64.add_zero _).symm⟩
    · exact ⟨0, by decide, (UInt64.add_zero _).symm⟩
    · exact ⟨2, by decide, UInt64.add_assoc _ 1 1⟩
  have remembered : (service.rememberHash entry.1).2.nextSeqId = service.nextSeqId := by
    rw [rememberHash]
    split <;> rfl
  dsimp only [processHash]
  split
  · exact ⟨1, by decide, by decide, rfl⟩
  · split
    · exact ⟨1, by decide, by decide, congrArg (· + 1) remembered⟩
    · obtain ⟨count, few, moved⟩ := fetched ((service.rememberHash entry.1).2.observe entry.1).2
      refine ⟨1 + count, by omega, by rw [eventsPerHash]; omega, moved.trans ?_⟩
      have observed : ((service.rememberHash entry.1).2.observe entry.1).2.nextSeqId =
        (service.rememberHash entry.1).2.nextSeqId + 1 := rfl
      rw [observed, remembered, UInt64.ofNat_add, UInt64.add_assoc]
      rfl

theorem nextSeqId_processHashes (depthCurrent : Nat) {entries : List (TxHash × Nat)}
    {service : RpcIngestService P C} {error : IngestError}
    (failed : (processHashes depthCurrent service entries).1 = .error error) :
    ∃ count, 0 < count ∧ count ≤ eventsPerHash * entries.length ∧
      (processHashes depthCurrent service entries).2.nextSeqId =
        service.nextSeqId + UInt64.ofNat count := by
  induction entries generalizing service error with
  | nil => cases failed
  | cons entry rest ih =>
      obtain ⟨count, positive, few, moved⟩ := nextSeqId_processHash depthCurrent service entry
      dsimp only [processHashes] at failed ⊢
      rw [List.length_cons, Nat.mul_add_one]
      cases processed : (processHash depthCurrent service entry).1 with
      | error refusal =>
          dsimp only
          exact ⟨count, positive, by omega, moved⟩
      | ok events =>
          rw [processed] at failed
          dsimp only at failed ⊢
          have later : ∃ refusal,
              (processHashes depthCurrent (processHash depthCurrent service entry).2 rest).1 =
                .error refusal := by
            cases onward : (processHashes depthCurrent
                (processHash depthCurrent service entry).2 rest).1 with
            | error refusal => exact ⟨refusal, rfl⟩
            | ok events =>
                rw [onward] at failed
                cases failed
          obtain ⟨refusal, later⟩ := later
          obtain ⟨more, -, fewer, movedOn⟩ := ih later
          refine ⟨count + more, by omega, by omega, movedOn.trans ?_⟩
          rw [moved, UInt64.ofNat_add, UInt64.add_assoc]

/-! ## The retry -/

/-- The service after a poll, with a provider for the next one. -/
def retried (service : RpcIngestService P C) (provider : P) : RpcIngestService P C :=
  { service.processPendingBatch.2 with provider := provider }

/-- Processing the batch again returns events for every hash, announces the hashes that were new to
the service before the failed poll, and numbers its events from the first id that was free then. -/
def Retryable (service : RpcIngestService P C) (hashes : List TxHash) (provider : P) : Prop :=
  ∃ events, (service.retried provider).processPendingBatch.1 = .ok events ∧
    events.map (·.seqId) = seqIdsFrom service.nextSeqId events.length ∧
    (∀ hash ∈ hashes, ∃ event ∈ events, ReportsHash hash event.payload) ∧
    ∀ hash, service.Accepts hashes.zipIdx hash → ∃ event ∈ events, Sees hash event.payload

/-- The service after the request for the pending hashes. -/
def polled (service : RpcIngestService P C) : RpcIngestService P C :=
  { service with provider := (PendingTxProvider.pendingHashes service.provider).2 }

theorem processPendingBatch_of_ok {service : RpcIngestService P C} {hashes : List TxHash}
    (listed : (PendingTxProvider.pendingHashes service.provider).1 = .ok hashes) :
    service.processPendingBatch = processHashes hashes.length service.polled hashes.zipIdx := by
  unfold processPendingBatch
  dsimp only
  rw [listed]
  rfl

theorem processPendingBatch_of_error {service : RpcIngestService P C} {error : IngestError}
    (refused : (PendingTxProvider.pendingHashes service.provider).1 = .error error) :
    service.processPendingBatch = (.error error.intoRpcConnect, service.polled) := by
  unfold processPendingBatch
  dsimp only
  rw [refused]
  rfl

/-- A poll whose provider succeeds. -/
theorem processPendingBatch_spec {service : RpcIngestService P C} {hashes : List TxHash}
    (succeeds : Succeeds service.provider hashes) :
    ∃ events next, service.processPendingBatch.1 = .ok events ∧
      Returns service hashes.zipIdx events next := by
  obtain ⟨listed, fetching⟩ := succeeds
  have fetchingPolled : Fetching service.polled.provider := fetching
  obtain ⟨events, returned, returns⟩ := processHashes_spec hashes.length fetchingPolled
  rw [processPendingBatch_of_ok listed]
  exact ⟨events, _, returned, ⟨returns.emits.numbered, returns.emits.advanced⟩, returns.reports,
    returns.sees⟩

variable {service : RpcIngestService P C} {hashes : List TxHash} {provider : P}
  {error : IngestError}

/-- When the request for the hashes fails, the service is as it was. -/
theorem retryable_of_poll_failed
    (refused : (PendingTxProvider.pendingHashes service.provider).1 = .error error)
    (succeeds : Succeeds provider hashes) : Retryable service hashes provider := by
  have untouched : service.retried provider = { service with provider := provider } := by
    rw [retried, processPendingBatch_of_error refused]
    rfl
  have succeedsAgain : Succeeds (service.retried provider).provider hashes := succeeds
  obtain ⟨events, next, returned, returns⟩ := processPendingBatch_spec succeedsAgain
  rw [untouched] at returns
  refine ⟨events, returned, returns.emits.numbered, ?_, returns.sees⟩
  intro hash member
  obtain ⟨index, bound, rfl⟩ := List.mem_iff_getElem.mp member
  have entry : (hashes[index], index) ∈ hashes.zipIdx :=
    List.mem_zipIdx_iff_getElem?.mpr (List.getElem?_eq_getElem bound)
  exact returns.reports _ entry

/-- When a fetch fails, the ids of the lost events are spent. -/
theorem not_retryable_of_fetch_failed
    (listed : (PendingTxProvider.pendingHashes service.provider).1 = .ok hashes)
    (failed : service.processPendingBatch.1 = .error error)
    (succeeds : Succeeds provider hashes) (fits : eventsPerHash * hashes.length < 2 ^ 64) :
    ¬ Retryable service hashes provider := by
  rintro ⟨events, returned, numbered, -, -⟩
  have succeedsAgain : Succeeds (service.retried provider).provider hashes := succeeds
  obtain ⟨again, next, returnedAgain, returns⟩ := processPendingBatch_spec succeedsAgain
  cases returned.symm.trans returnedAgain
  have spent : ∃ count, 0 < count ∧ count < 2 ^ 64 ∧
      (service.retried provider).nextSeqId = service.nextSeqId + UInt64.ofNat count := by
    rw [processPendingBatch_of_ok listed] at failed
    obtain ⟨count, positive, few, moved⟩ := nextSeqId_processHashes hashes.length failed
    rw [List.length_zipIdx] at few
    refine ⟨count, positive, by omega, ?_⟩
    rw [retried, processPendingBatch_of_ok listed]
    exact moved
  obtain ⟨count, positive, small, moved⟩ := spent
  have some : events ≠ [] := by
    rintro rfl
    cases hashes with
    | nil =>
        rw [processPendingBatch_of_ok listed] at failed
        cases failed
    | cons hash rest =>
        obtain ⟨event, produced, -⟩ := returns.reports (hash, 0) List.mem_cons_self
        cases produced
  obtain ⟨first, rest, rfl⟩ := List.exists_cons_of_ne_nil some
  have clash := numbered.symm.trans returns.emits.numbered
  rw [List.length_cons, seqIdsFrom, seqIdsFrom, moved] at clash
  have free := (List.cons.inj clash).1
  have zero : UInt64.ofNat count = 0 := by
    rw [← UInt64.add_right_inj service.nextSeqId, ← free, UInt64.add_zero]
  have zeroNat := congrArg UInt64.toNat zero
  rw [UInt64.toNat_ofNat_of_lt' small] at zeroNat
  exact absurd zeroNat positive.ne'

/-- **A failed poll is retryable exactly when it is the request for the pending hashes that failed.**
A batch of hashes fits in memory, so the ids of its events do not run through all of them. -/
theorem retryable_iff_poll_failed (failed : service.processPendingBatch.1 = .error error)
    (batch : ∀ polled, (PendingTxProvider.pendingHashes service.provider).1 = .ok polled →
      polled = hashes)
    (succeeds : Succeeds provider hashes) (fits : eventsPerHash * hashes.length < 2 ^ 64) :
    Retryable service hashes provider ↔
      ∃ refusal, (PendingTxProvider.pendingHashes service.provider).1 = .error refusal := by
  constructor
  · intro retryable
    cases listed : (PendingTxProvider.pendingHashes service.provider).1 with
    | error refusal => exact ⟨refusal, rfl⟩
    | ok polled =>
        cases batch polled listed
        exact absurd retryable (not_retryable_of_fetch_failed listed failed succeeds fits)
  · rintro ⟨refusal, refused⟩
    exact retryable_of_poll_failed refused succeeds

end RpcIngestService

/-! ## Samples -/

/-- A provider with one batch that fails to fetch some of its hashes. -/
structure FlakyProvider where
  batch : List TxHash
  failing : List TxHash
  deriving DecidableEq

instance : PendingTxProvider FlakyProvider where
  pendingHashes provider := (.ok provider.batch, provider)
  fetchTransaction provider hash :=
    if hash ∈ provider.failing then (.error (.other "timeout"), provider)
    else (.ok (some { hash := hash, txType := 2, raw := [1, 1, 1, 1] }), provider)

theorem FlakyProvider.afterFetches_eq (provider : FlakyProvider) (hashes : List TxHash) :
    RpcIngestService.afterFetches provider hashes = provider := by
  induction hashes with
  | nil => rfl
  | cons hash rest ih =>
      have same : (PendingTxProvider.fetchTransaction provider hash).2 = provider := by
        dsimp only [PendingTxProvider.fetchTransaction]
        split <;> rfl
      rw [RpcIngestService.afterFetches, List.foldl_cons, same]
      exact ih

theorem FlakyProvider.succeeds (batch : List TxHash) :
    RpcIngestService.Succeeds ({ batch := batch, failing := [] } : FlakyProvider) batch := by
  refine ⟨rfl, fun hashes hash => ?_⟩
  have same : (PendingTxProvider.pendingHashes ({ batch := batch, failing := [] } :
      FlakyProvider)).2 = { batch := batch, failing := [] } := rfl
  rw [same, FlakyProvider.afterFetches_eq]
  exact ⟨_, rfl⟩

/-- A service whose second fetch fails. -/
def flakyService : RpcIngestService FlakyProvider StepClock :=
  .withConfig { batch := [10, 11], failing := [11] } "rpc-mainnet" {} {}

theorem retryable_iff_poll_failed_flaky :
    ¬ flakyService.Retryable [10, 11] { batch := [10, 11], failing := [] } := by
  have failed : flakyService.processPendingBatch.1 =
      .error (.txFetch (formatTxHash 11) (.other "timeout")) := by decide +kernel
  have retryable := RpcIngestService.retryable_iff_poll_failed failed
    (fun polled listed => (Except.ok.inj listed).symm) (FlakyProvider.succeeds [10, 11]) (by decide)
  rintro again
  obtain ⟨refusal, refused⟩ := retryable.mp again
  cases refused

/-- The first transaction was fetched in the failed poll. The retry drops it as a duplicate, and
its events are numbered from 5: the four of the failed poll are lost. -/
theorem flakyService_not_retryable :
    flakyService.processPendingBatch.1 =
        .error (.txFetch (formatTxHash 11) (.other "timeout")) ∧
      ((flakyService.retried { batch := [10, 11], failing := [] }).processPendingBatch.1.map
        fun events => events.map (·.seqId)) = .ok [5, 6] ∧
      ¬ flakyService.Retryable [10, 11] { batch := [10, 11], failing := [] } := by
  refine ⟨by decide +kernel, by decide +kernel, ?_⟩
  rintro ⟨events, returned, numbered, -, -⟩
  have ids : ((flakyService.retried { batch := [10, 11], failing := [] }).processPendingBatch.1.map
      fun events => events.map (·.seqId)) = .ok [5, 6] := by decide +kernel
  rw [returned] at ids
  have taken : events.map (·.seqId) = [5, 6] := Except.ok.inj ids
  have two : events.length = 2 := by
    rw [← List.length_map EventEnvelope.seqId, taken]
    rfl
  rw [numbered, two] at taken
  exact absurd taken (by decide)

end Mempulse.Ingest
