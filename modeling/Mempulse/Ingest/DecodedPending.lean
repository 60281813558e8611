import Mempulse.Ingest.P2p
import Mempulse.Ingest.Readings
import Mempulse.Ingest.Rpc

/-!
# Decoded transactions of the ingest services

Both services report a hash that they refuse as a drop, also when they have emitted its transaction
before. To the lifecycle model a drop ends the transaction. The RPC service also decodes every
transaction into the slot of the zero sender and the zero nonce, where each takes the place of the
one before. What both ingests need for every decoded transaction to stay pending is
`decodedStand_run_iff`.
-/

set_option autoImplicit false

namespace Mempulse.Ingest

open Std EventLog Library Scheduler Replay

/-- The payloads of events. -/
def payloadsOf (events : List EventEnvelope) : List EventPayload := events.map (·.payload)

theorem payloadsOf_append (earlier later : List EventEnvelope) :
    payloadsOf (earlier ++ later) = payloadsOf earlier ++ payloadsOf later :=
  List.map_append

/-! ## Pooled transactions -/

/-- What the pooled-transaction service hears. -/
inductive P2pInput where
  | announced (hash : TxHash)
  | delivered (tx : P2pTxPayload)
  deriving DecidableEq

namespace P2pIngestService

/-- A hash is refused when it is remembered or the fetch queue is full. -/
def refuses (service : P2pIngestService) (hash : TxHash) : Bool :=
  service.firstSeen.contains hash || service.fetchQueue.length ≥ service.config.fetchQueueCapacity

/-- The items of a call, each with the service before it. -/
def visits {α : Type} (handle : P2pIngestService → α → List EventEnvelope × P2pIngestService)
    (service : P2pIngestService) : List α → List (P2pIngestService × α)
  | [] => []
  | item :: rest => (service, item) :: visits handle (handle service item).2 rest

/-- What a call makes the service hear, each input with the service before it. -/
def hears (service : P2pIngestService) : Call → List (P2pIngestService × P2pInput)
  | .announced peerId hashes nowUnixMs nowMonoNs =>
    (visits (announce peerId nowUnixMs nowMonoNs) (service.countAnnouncements hashes) hashes).map
      fun visit => (visit.1, .announced visit.2)
  | .dequeued => []
  | .delivered _ txs nowUnixMs nowMonoNs =>
    (visits (deliver nowUnixMs nowMonoNs) service txs).map fun visit => (visit.1, .delivered visit.2)

/-- What the service hears in a run. -/
def trace (service : P2pIngestService) : List Call → List (P2pIngestService × P2pInput)
  | [] => []
  | call :: rest => service.hears call ++ trace (service.call call).2 rest

/-- The lifecycle event of an input. -/
def reading : P2pIngestService × P2pInput → Reading
  | (service, .announced hash) => if service.refuses hash then .dropped hash else .passed
  | (_, .delivered tx) => .decoded tx.hash (tx.sender, tx.nonce)

theorem spells_announce (peerId : PeerId) (nowUnixMs : Int64) (nowMonoNs : UInt64)
    (service : P2pIngestService) (hash : TxHash) :
    (reading (service, .announced hash)).Spells
      (payloadsOf (service.announce peerId nowUnixMs nowMonoNs hash).1) := by
  have refused : service.refuses hash = ((service.firstSeen[hash]?).isSome ||
      service.fetchQueue.length ≥ service.config.fetchQueueCapacity) := by
    rw [refuses, contains_eq_isSome]
  dsimp only [reading]
  rw [refused]
  dsimp only [announce]
  cases service.firstSeen[hash]? with
  | some first => exact ⟨_, rfl⟩
  | none =>
      by_cases full : service.fetchQueue.length ≥ service.config.fetchQueueCapacity
      · simp only [Option.isSome_none, Bool.false_or, full, decide_true, if_true]
        exact ⟨_, rfl⟩
      · simp only [Option.isSome_none, Bool.false_or, full, decide_false, if_false,
          Bool.false_eq_true]
        rfl

theorem spells_deliver (nowUnixMs : Int64) (nowMonoNs : UInt64) (service : P2pIngestService)
    (tx : P2pTxPayload) : (reading (service, .delivered tx)).Spells
      (payloadsOf (service.deliver nowUnixMs nowMonoNs tx).1) :=
  ⟨_, rfl, rfl, rfl⟩

theorem spelled_forEach {α : Type}
    {handle : P2pIngestService → α → List EventEnvelope × P2pIngestService}
    {read : P2pIngestService × α → Reading}
    (spells : ∀ service item, (read (service, item)).Spells (payloadsOf (handle service item).1))
    (service : P2pIngestService) (items : List α) :
    Spelled ((visits handle service items).map read) (payloadsOf (forEach handle service items).1) := by
  induction items generalizing service with
  | nil => exact .nil
  | cons item rest ih =>
      dsimp only [visits, forEach]
      rw [payloadsOf_append]
      exact .cons (spells service item) (ih _)

theorem spelled_call (service : P2pIngestService) (call : Call) :
    Spelled ((service.hears call).map reading) (payloadsOf (service.call call).1) := by
  cases call with
  | announced peerId hashes nowUnixMs nowMonoNs =>
      dsimp only [hears]
      rw [List.map_map]
      exact spelled_forEach (spells_announce peerId nowUnixMs nowMonoNs) _ hashes
  | dequeued => exact .nil
  | delivered peerId txs nowUnixMs nowMonoNs =>
      dsimp only [hears]
      rw [List.map_map]
      exact spelled_forEach (spells_deliver nowUnixMs nowMonoNs) service txs

/-- The events of a run spell what the service hears. -/
theorem spelled_run (service : P2pIngestService) (calls : List Call) :
    Spelled ((service.trace calls).map reading) (payloadsOf (service.run calls).1) := by
  induction calls generalizing service with
  | nil => exact .nil
  | cons call rest ih =>
      dsimp only [trace, run, forEach]
      rw [List.map_append, payloadsOf_append]
      exact (service.spelled_call call).append (ih _)

/-- The transactions delivered in a run. -/
def deliveredTxs (calls : List Call) : List P2pTxPayload :=
  calls.flatMap fun
    | .delivered _ txs _ _ => txs
    | _ => []

theorem mem_visits {α : Type} {handle : P2pIngestService → α → List EventEnvelope × P2pIngestService}
    {service : P2pIngestService} {items : List α} {visit : P2pIngestService × α}
    (member : visit ∈ visits handle service items) : visit.2 ∈ items := by
  induction items generalizing service with
  | nil => cases member
  | cons item rest ih =>
      rcases List.mem_cons.mp member with rfl | later
      · exact .head _
      · exact .tail _ (ih later)

theorem mem_deliveredTxs {service : P2pIngestService} {calls : List Call}
    {input : P2pIngestService × P2pInput} {tx : P2pTxPayload} (member : input ∈ service.trace calls)
    (delivers : input.2 = .delivered tx) : tx ∈ deliveredTxs calls := by
  induction calls generalizing service with
  | nil => cases member
  | cons call rest ih =>
      rw [deliveredTxs, List.flatMap_cons, List.mem_append]
      rcases List.mem_append.mp member with first | later
      · refine .inl ?_
        cases call with
        | announced peerId hashes nowUnixMs nowMonoNs =>
            obtain ⟨visit, -, rfl⟩ := List.mem_map.mp first
            cases delivers
        | dequeued => cases first
        | delivered peerId txs nowUnixMs nowMonoNs =>
            obtain ⟨visit, visited, rfl⟩ := List.mem_map.mp first
            cases delivers
            exact mem_visits visited
      · exact .inr (ih later)

/-- Each hash has one sender and nonce, and each sender and nonce has one hash. -/
def DistinctPlaces (calls : List Call) : Prop :=
  ∀ tx ∈ deliveredTxs calls, ∀ other ∈ deliveredTxs calls,
    tx.hash = other.hash ↔ (tx.sender, tx.nonce) = (other.sender, other.nonce)

/-- The transaction of a hash is among what was heard. -/
def Delivered (hash : TxHash) (inputs : List (P2pIngestService × P2pInput)) : Prop :=
  ∃ input ∈ inputs, ∃ tx, input.2 = .delivered tx ∧ tx.hash = hash

/-- An announcement that is refused is of a hash that was not delivered before, or that is delivered
again. -/
def RefusesUndelivered (service : P2pIngestService) (calls : List Call) : Prop :=
  ∀ earlier before hash later,
    service.trace calls = earlier ++ (before, .announced hash) :: later →
      before.refuses hash = true → Delivered hash earlier → Delivered hash later

/-- The place of a delivered transaction. -/
def placeOfDelivered (txs : List P2pTxPayload) (hash : TxHash) : Address × UInt64 :=
  ((txs.find? fun tx => tx.hash = hash).map fun tx => (tx.sender, tx.nonce)).getD (0, 0)

theorem DistinctPlaces.placeOfDelivered_eq {calls : List Call} (distinct : DistinctPlaces calls)
    {tx : P2pTxPayload} (member : tx ∈ deliveredTxs calls) :
    placeOfDelivered (deliveredTxs calls) tx.hash = (tx.sender, tx.nonce) := by
  have found : ((deliveredTxs calls).find? fun other => other.hash = tx.hash).isSome = true :=
    List.find?_isSome.mpr ⟨tx, member, by simp⟩
  obtain ⟨other, first⟩ := Option.isSome_iff_exists.mp found
  have same : other.hash = tx.hash := by simpa using List.find?_some first
  rw [placeOfDelivered, first]
  exact (distinct other (List.mem_of_find?_eq_some first) tx member).mp same

theorem decodes_reading (hash : TxHash) (input : P2pIngestService × P2pInput) :
    (reading input).decodes hash = true ↔ ∃ tx, input.2 = .delivered tx ∧ tx.hash = hash := by
  obtain ⟨service, announced | tx⟩ := input
  · dsimp only [reading]
    split <;> simp [Reading.decodes]
  · simp [reading, Reading.decodes]

/-- **The pooled-transaction service keeps what it decoded pending** exactly when it refuses no
announcement of a delivered hash for good. -/
theorem decodedStand_iff_refusesUndelivered (config : P2pIngestConfig) (sourceId : SourceId)
    {calls : List Call} (distinct : DistinctPlaces calls) :
    DecodedStand (payloadsOf ((new config sourceId).run calls).1) ↔
      (new config sourceId).RefusesUndelivered calls := by
  have placed : ∀ hash place, .decoded hash place ∈ ((new config sourceId).trace calls).map reading →
      place = placeOfDelivered (deliveredTxs calls) hash := by
    intro hash place listed
    obtain ⟨⟨service, announced | tx⟩, heard, is⟩ := List.mem_map.mp listed
    · dsimp only [reading] at is
      split at is <;> cases is
    · cases is
      exact (distinct.placeOfDelivered_eq (mem_deliveredTxs heard rfl)).symm
  have raised : ∀ hash inputs, (∃ input ∈ inputs, (reading input).decodes hash = true) ↔
      Delivered hash inputs := by
    intro hash inputs
    simp only [decodes_reading, Delivered]
  rw [decodedStand_iff (spelled_run _ calls) placed]
  simp only [reraised_map]
  simp only [Reraised, raised]
  constructor
  · intro reraised earlier before hash later whole refused delivered
    refine reraised hash earlier _ later whole ?_ delivered
    simp [reading, refused, Reading.unseats]
  · rintro spares hash earlier ⟨before, announced | tx⟩ later whole unseats delivered
    · dsimp only [reading] at unseats
      split at unseats
      case isTrue refused =>
        have same : announced = hash := of_decide_eq_true unseats
        subst same
        exact spares earlier before announced later whole refused delivered
      case isFalse => cases unseats
    · -- Another transaction of the same sender and nonce is never delivered.
      obtain ⟨differs, place⟩ := of_decide_eq_true unseats
      obtain ⟨input, inEarlier, other, delivers, rfl⟩ := delivered
      have heard : other ∈ deliveredTxs calls :=
        mem_deliveredTxs (whole ▸ List.mem_append_left _ inEarlier) delivers
      have here : (before, .delivered tx) ∈ (new config sourceId).trace calls :=
        whole ▸ List.mem_append_right _ (.head _)
      have last : tx ∈ deliveredTxs calls := mem_deliveredTxs here rfl
      rw [distinct.placeOfDelivered_eq heard] at place
      exact absurd ((distinct tx last other heard).mpr place) differs

end P2pIngestService

/-! ## Pending transactions of a provider -/

namespace RpcIngestService

variable {P C : Type} [PendingTxProvider P] [IngestClock C]

/-- A hash is refused when its index is beyond the capacity of a batch or it is remembered. -/
def refuses (service : RpcIngestService P C) (entry : TxHash × Nat) : Bool :=
  entry.2 ≥ service.config.pendingBatchCapacity || service.seenHashes.contains entry.1

/-- What the provider answers for a hash that is not refused. -/
def fetches (service : RpcIngestService P C) (entry : TxHash × Nat) : Option RawTransaction :=
  if service.refuses entry then none
  else (PendingTxProvider.fetchTransaction service.provider entry.1).1.toOption.join

/-- The hashes of a batch, each with the service before it. -/
def visits (depthCurrent : Nat) (service : RpcIngestService P C) :
    List (TxHash × Nat) → List (RpcIngestService P C × TxHash × Nat)
  | [] => []
  | entry :: rest => (service, entry) :: visits depthCurrent (processHash depthCurrent service entry).2 rest

/-- What a poll makes the service hear; a batch that fails is lost. -/
def hears (service : RpcIngestService P C) : List (RpcIngestService P C × TxHash × Nat) :=
  match service.processPendingBatch.1, (PendingTxProvider.pendingHashes service.provider).1 with
  | .ok _, .ok hashes =>
    visits hashes.length
      { service with provider := (PendingTxProvider.pendingHashes service.provider).2 }
      hashes.zipIdx
  | _, _ => []

/-- What the service hears in a number of polls. -/
def trace (service : RpcIngestService P C) : Nat → List (RpcIngestService P C × TxHash × Nat)
  | 0 => []
  | polls + 1 => service.hears ++ trace service.processPendingBatch.2 polls

/-- The lifecycle event of a provider's answer. -/
def answerReading : Option RawTransaction → Reading
  | some tx => .decoded tx.hash (0, 0)
  | none => .passed

/-- The lifecycle event of a hash of a batch. -/
def reading (input : RpcIngestService P C × TxHash × Nat) : Reading :=
  if input.1.refuses input.2 then .dropped input.2.1
  else answerReading (input.1.fetches input.2)

theorem spells_fetch {service : RpcIngestService P C} {hash : TxHash} {events : List EventEnvelope}
    (fetched : (service.fetch hash).1 = .ok events) :
    (answerReading
      (PendingTxProvider.fetchTransaction service.provider hash).1.toOption.join).Spells
        (payloadsOf events) := by
  dsimp only [fetch] at fetched
  split at fetched
  case h_1 => cases fetched
  case h_2 answered =>
    cases fetched
    rw [answered]
    rfl
  case h_3 tx answered =>
    cases fetched
    rw [answered]
    exact ⟨_, rfl, rfl, rfl⟩

/-- An observation before them changes nothing about what payloads spell. -/
theorem Spells.observed {reading : Reading} {payloads : List EventPayload} {seen : TxSeen}
    (spells : reading.Spells payloads) : reading.Spells (.txSeen seen :: payloads) := by
  cases reading with
  | decoded hash place => exact spells
  | dropped hash => exact spells
  | passed => exact spells

theorem spells_processHash {depthCurrent : Nat} {service : RpcIngestService P C}
    {entry : TxHash × Nat} {events : List EventEnvelope}
    (processed : (processHash depthCurrent service entry).1 = .ok events) :
    (reading (service, entry)).Spells (payloadsOf events) := by
  dsimp only [reading, fetches]
  dsimp only [processHash] at processed
  by_cases beyond : entry.2 ≥ service.config.pendingBatchCapacity
  · have refused : service.refuses entry = true := by
      rw [refuses, decide_eq_true beyond]
      rfl
    rw [if_pos beyond] at processed
    cases processed
    rw [if_pos refused]
    exact ⟨_, rfl⟩
  · have refused : service.refuses entry = service.seenHashes.contains entry.1 := by
      rw [refuses, decide_eq_false beyond]
      rfl
    rw [if_neg beyond, rememberHash] at processed
    rw [refused]
    by_cases known : service.seenHashes.contains entry.1 = true
    · rw [if_pos known] at processed ⊢
      cases processed
      exact ⟨_, rfl⟩
    · rw [if_neg known] at processed
      rw [if_neg known, if_neg known]
      dsimp only at processed
      generalize forgetOldest service.config.maxSeenHashes (service.seenHashes.insert entry.1)
        (service.seenOrder ++ [entry.1]) = kept at processed
      let remembered : RpcIngestService P C :=
        { service with seenHashes := kept.2, seenOrder := kept.1 }
      have answered : (((remembered.observe entry.1).2.fetch entry.1).1.map
          fun events => (remembered.observe entry.1).1 :: events) = .ok events := processed
      cases fetched : ((remembered.observe entry.1).2.fetch entry.1).1 with
      | error error =>
          rw [fetched] at answered
          cases answered
      | ok later =>
          rw [fetched] at answered
          cases answered
          have spells := spells_fetch fetched
          exact Spells.observed spells

theorem spelled_processHashes {depthCurrent : Nat} {service : RpcIngestService P C}
    {entries : List (TxHash × Nat)} {events : List EventEnvelope}
    (processed : (processHashes depthCurrent service entries).1 = .ok events) :
    Spelled ((visits depthCurrent service entries).map reading) (payloadsOf events) := by
  induction entries generalizing service events with
  | nil =>
      cases processed
      exact .nil
  | cons entry rest ih =>
      dsimp only [processHashes] at processed
      split at processed
      case h_1 => cases processed
      case h_2 front here =>
        cases later : (processHashes depthCurrent (processHash depthCurrent service entry).2 rest).1 with
        | error error =>
            rw [later] at processed
            cases processed
        | ok back =>
            rw [later] at processed
            cases processed
            rw [payloadsOf_append]
            exact .cons (spells_processHash here) (ih later)

theorem spelled_processPendingBatch {service : RpcIngestService P C} {events : List EventEnvelope}
    (processed : service.processPendingBatch.1 = .ok events) :
    Spelled (service.hears.map reading) (payloadsOf events) := by
  rw [hears, processed]
  dsimp only [processPendingBatch] at processed
  split at processed
  case h_1 => cases processed
  case h_2 hashes polled =>
    rw [polled]
    exact spelled_processHashes processed

/-- The events of a run spell what the service hears. -/
theorem spelled_run (service : RpcIngestService P C) (polls : Nat) :
    Spelled ((service.trace polls).map reading) (payloadsOf (service.run polls).1) := by
  induction polls generalizing service with
  | zero => exact .nil
  | succ polls ih =>
      dsimp only [trace, run]
      rw [List.map_append]
      cases processed : service.processPendingBatch.1 with
      | error error =>
          have lost : service.hears = [] := by
            rw [hears, processed]
          rw [lost]
          exact ih _
      | ok events =>
          rw [payloadsOf_append]
          exact (spelled_processPendingBatch processed).append (ih _)

/-- The transaction of a hash is among what was fetched. -/
def Fetched (hash : TxHash) (inputs : List (RpcIngestService P C × TxHash × Nat)) : Prop :=
  ∃ input ∈ inputs, ∃ tx, input.1.fetches input.2 = some tx ∧ tx.hash = hash

/-- The provider never answers with two different hashes. -/
def FetchesOneHash (service : RpcIngestService P C) (polls : Nat) : Prop :=
  ∀ first second, Fetched first (service.trace polls) → Fetched second (service.trace polls) →
    first = second

/-- A hash that is refused was not fetched before, or it is fetched again. -/
def RefusesUnfetched (service : RpcIngestService P C) (polls : Nat) : Prop :=
  ∀ earlier before hash index later,
    service.trace polls = earlier ++ (before, hash, index) :: later →
      before.refuses (hash, index) = true → Fetched hash earlier → Fetched hash later

omit [IngestClock C] in
theorem decodes_reading (hash : TxHash) (input : RpcIngestService P C × TxHash × Nat) :
    (reading input).decodes hash = true ↔
      ∃ tx, input.1.fetches input.2 = some tx ∧ tx.hash = hash := by
  dsimp only [reading, fetches]
  by_cases refused : input.1.refuses input.2 = true
  · rw [if_pos refused, if_pos refused]
    simp [Reading.decodes]
  · rw [if_neg refused, if_neg refused]
    cases (PendingTxProvider.fetchTransaction input.1.provider input.2.1).1.toOption.join with
    | none => simp [answerReading, Reading.decodes]
    | some tx => simp [answerReading, Reading.decodes]

omit [IngestClock C] in
theorem place_of_reading {input : RpcIngestService P C × TxHash × Nat} {hash : TxHash}
    {place : Address × UInt64} (decodes : reading input = .decoded hash place) : place = (0, 0) := by
  dsimp only [reading] at decodes
  split at decodes
  · cases decodes
  · unfold answerReading at decodes
    split at decodes
    · cases decodes
      rfl
    · cases decodes

/-- **The RPC service keeps what it decoded pending** exactly when it decodes one hash only and does
not refuse it for good. -/
theorem decodedStand_iff_fetchesOneHash (service : RpcIngestService P C) (polls : Nat) :
    DecodedStand (payloadsOf (service.run polls).1) ↔
      service.FetchesOneHash polls ∧ service.RefusesUnfetched polls := by
  have placed : ∀ hash place, .decoded hash place ∈ (service.trace polls).map reading →
      place = (fun _ => (0, 0) : TxHash → Address × UInt64) hash := by
    intro hash place listed
    obtain ⟨input, -, is⟩ := List.mem_map.mp listed
    exact place_of_reading is
  have raised : ∀ (hash : TxHash) (inputs : List (RpcIngestService P C × TxHash × Nat)),
      (∃ input ∈ inputs, (reading input).decodes hash = true) ↔ Fetched hash inputs := by
    intro hash inputs
    simp only [decodes_reading, Fetched]
  have spelled := service.spelled_run polls
  have stands := decodedStand_iff spelled placed
  simp only [reraised_map] at stands
  simp only [Reraised, raised] at stands
  constructor
  · intro stand
    refine ⟨fun first second fetched other => ?_, fun earlier before hash index later whole refused => ?_⟩
    · -- Two pending transactions are not in one slot.
      have standing := (Standing.empty fun _ => (0, 0)).replay spelled placed
      have pending : ∀ hash, Fetched hash (service.trace polls) →
          (MempoolState.replay {} (payloadsOf (service.run polls).1)).lifecycle hash =
            some .pending := by
        intro hash fetched
        have named : ∃ read ∈ (service.trace polls).map reading, read.decodes hash = true := by
          obtain ⟨input, member, decodes⟩ := (raised hash _).mpr fetched
          exact ⟨_, List.mem_map_of_mem member, decodes⟩
        obtain ⟨decoded, member, rfl⟩ := (spelled.decodes_iff hash).mpr named
        exact stand decoded member
      exact standing.slots.distinct (standing.placed (pending first fetched))
        (standing.placed (pending second other))
    · refine stands.mp stand hash earlier (before, hash, index) later whole ?_
      simp [reading, refused, Reading.unseats]
  · rintro ⟨one, spares⟩
    refine stands.mpr fun hash earlier input later whole unseats fetched => ?_
    obtain ⟨before, listed, index⟩ := input
    by_cases refused : before.refuses (listed, index) = true
    · have same : listed = hash := by simpa [reading, refused, Reading.unseats] using unseats
      subst same
      exact spares earlier before listed index later whole refused fetched
    · have decodes : ∃ tx, before.fetches (listed, index) = some tx ∧ tx.hash ≠ hash := by
        dsimp only [reading] at unseats
        rw [if_neg refused] at unseats
        cases answer : before.fetches (listed, index) with
        | none =>
            rw [answer] at unseats
            cases unseats
        | some tx =>
            rw [answer] at unseats
            exact ⟨tx, rfl, (of_decide_eq_true unseats).1⟩
      obtain ⟨tx, answer, differs⟩ := decodes
      have here : Fetched tx.hash (service.trace polls) :=
        ⟨_, whole ▸ List.mem_append_right _ (.head _), tx, answer, rfl⟩
      have known : Fetched hash (service.trace polls) := by
        obtain ⟨input, member, decoded⟩ := fetched
        exact ⟨input, whole ▸ List.mem_append_left _ member, decoded⟩
      exact absurd (one _ _ here known) differs

end RpcIngestService

/-- **When the decoded transactions of the ingest services stay pending.** Of a pooled-transaction
run they do when no announcement of a delivered hash is refused for good. Of a provider's run they
do when, besides, one hash only is decoded. -/
theorem decodedStand_run_iff (config : P2pIngestConfig) (sourceId : SourceId)
    (calls : List P2pIngestService.Call) (distinct : P2pIngestService.DistinctPlaces calls)
    {P C : Type} [PendingTxProvider P] [IngestClock C] (provider : P) (rpcSourceId : SourceId)
    (clock : C) (rpcConfig : RpcIngestConfig) (polls : Nat) :
    (DecodedStand (payloadsOf ((P2pIngestService.new config sourceId).run calls).1) ↔
      (P2pIngestService.new config sourceId).RefusesUndelivered calls) ∧
    (DecodedStand (payloadsOf
        ((RpcIngestService.withConfig provider rpcSourceId clock rpcConfig).run polls).1) ↔
      (RpcIngestService.withConfig provider rpcSourceId clock rpcConfig).FetchesOneHash polls ∧
        (RpcIngestService.withConfig provider rpcSourceId clock rpcConfig).RefusesUnfetched polls) :=
  ⟨P2pIngestService.decodedStand_iff_refusesUndelivered config sourceId distinct,
    RpcIngestService.decodedStand_iff_fetchesOneHash _ polls⟩

/-! ## Samples -/

/-- The stepping clock of the crate's tests. -/
structure StepClock where
  unixMs : Int64 := 0
  monoNs : UInt64 := 0

instance : IngestClock StepClock where
  nowUnixMs clock := (clock.unixMs + 1, { clock with unixMs := clock.unixMs + 1 })
  nowMonoNs clock := (clock.monoNs + 1, { clock with monoNs := clock.monoNs + 1 })

/-- A hash is announced, and its transaction is delivered. -/
def announceThenDeliver : List P2pIngestService.Call :=
  [.announced "peer-a" [1] 1700000000000 10, .dequeued,
    .delivered "peer-a" [{ hash := 1, txType := 2, sender := 7, nonce := 5 }] 1700000000005 15]

/-- A provider with a transaction for each of the hashes. -/
def sampleProvider (hashes : List TxHash) : InMemoryPendingTxProvider :=
  .new [hashes] (hashes.map fun hash => { hash := hash, txType := 2, raw := [1, 1, 1, 1] })

/-- A service whose provider holds the given hashes. -/
def sampleService (hashes : List TxHash) : RpcIngestService InMemoryPendingTxProvider StepClock :=
  .withConfig (sampleProvider hashes) "rpc-mainnet" {} {}

theorem decodedStand_run_iff_once :
    (P2pIngestService.new {} "p2p").RefusesUndelivered announceThenDeliver ∧
      (sampleService [1]).FetchesOneHash 1 ∧ (sampleService [1]).RefusesUnfetched 1 := by
  have distinct : P2pIngestService.DistinctPlaces announceThenDeliver := by
    intro tx listed other also
    rw [List.mem_singleton.mp listed, List.mem_singleton.mp also]
    exact iff_of_true rfl rfl
  have delivered : DecodedStand
      (payloadsOf ((P2pIngestService.new {} "p2p").run announceThenDeliver).1) := by decide +kernel
  have fetched : DecodedStand (payloadsOf ((sampleService [1]).run 1).1) := by decide +kernel
  have both := decodedStand_run_iff {} "p2p" announceThenDeliver distinct (sampleProvider [1])
    "rpc-mainnet" ({} : StepClock) {} 1
  exact ⟨both.1.mp delivered, both.2.mp fetched⟩

/-- Another peer announces the delivered hash: the lifecycle model drops the transaction. A provider
has two transactions: the second takes the slot of the first. -/
theorem decodedStand_run_lost :
    let calls := announceThenDeliver ++ [.announced "peer-b" [1] 1700000000011 20]
    let announcedAgain := payloadsOf ((P2pIngestService.new {} "p2p").run calls).1
    let fetchedBoth := payloadsOf ((sampleService [1, 2]).run 1).1
    P2pIngestService.DistinctPlaces calls ∧
      (Replay.MempoolState.replay {} announcedAgain).lifecycle 1 = some (.dropped
        "Duplicate;lane=p2p;source=p2p;peer=peer-b;queue=p2p.fetch;depth_current=0;depth_peak=1") ∧
      ¬ DecodedStand announcedAgain ∧
      (Replay.MempoolState.replay {} fetchedBoth).lifecycle 1 = some (.replaced 2) ∧
      ¬ DecodedStand fetchedBoth := by
  intro calls announcedAgain fetchedBoth
  have distinct : P2pIngestService.DistinctPlaces calls := by
    intro tx listed other also
    rw [List.mem_singleton.mp listed, List.mem_singleton.mp also]
    exact iff_of_true rfl rfl
  exact ⟨distinct, by decide +kernel, by decide +kernel, by decide +kernel, by decide +kernel⟩

end Mempulse.Ingest
