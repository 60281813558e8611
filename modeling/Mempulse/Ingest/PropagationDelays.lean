import Mempulse.Ingest.Announcements

/-!
# Propagation delays

A duplicate announcement records how long the hash took to the peer, and the service reports the count
and the average for each peer. A delay is the difference of two wall-clock times, cut to 32 bits when
it is recorded, and the sum of the delays is cut so again before the division. Both cuts keep the value
exactly when it is in range, a few others apart (`propagationExact_iff`).
-/

set_option autoImplicit false

namespace Mempulse.Ingest

open Std EventLog Library

/-! ## Statistics -/

/-- Aggregated propagation-delay view for one peer. -/
structure PropagationStats where
  count : UInt64
  avgDelayMs : UInt32
  p99DelayMs : UInt32

/-- The statistics of the delays of one peer. -/
def propagationStats (delays : List UInt32) : PropagationStats :=
  let sorted := delays.insertionSort (· ≤ ·)
  { count := UInt64.ofNat sorted.length
    avgDelayMs :=
      if sorted.isEmpty then 0
      else (sorted.map UInt32.toUInt64).sum.toUInt32 / UInt32.ofNat sorted.length
    p99DelayMs :=
      if sorted.isEmpty then 0
      else
        -- The index is that of the source, in floating point, and within the list.
        sorted.getD (Float.ofNat (sorted.length - 1) * 0.99).round.toUInt64.toNat 0 }

/-- Returns per-peer propagation delay aggregates computed from duplicate announcements. -/
def P2pIngestService.propagationStatsByPeer (service : P2pIngestService) :
    ExtTreeMap PeerId PropagationStats :=
  service.propagationDelaysByPeer.map fun _ delays => propagationStats delays

theorem count_propagationStats {delays : List UInt32} (few : delays.length < 2 ^ 32) :
    (propagationStats delays).count.toNat = delays.length := by
  have length : (delays.insertionSort (· ≤ ·)).length = delays.length :=
    (List.perm_insertionSort _ _).length_eq
  have small : delays.length < 2 ^ 64 := by omega
  change (UInt64.ofNat (delays.insertionSort (· ≤ ·)).length).toNat = _
  rw [length, UInt64.toNat_ofNat_of_lt' small]

/-- A sum of 32-bit values that fits 64 bits. -/
theorem toNat_sum_toUInt64 {delays : List UInt32}
    (fits : (delays.map UInt32.toNat).sum < 2 ^ 64) :
    (delays.map UInt32.toUInt64).sum.toNat = (delays.map UInt32.toNat).sum := by
  induction delays with
  | nil => rfl
  | cons delay rest ih =>
      rw [List.map_cons, List.sum_cons] at fits
      rw [List.map_cons, List.sum_cons, List.map_cons, List.sum_cons, UInt64.toNat_add,
        ih (by omega), UInt32.toNat_toUInt64]
      exact Nat.mod_eq_of_lt fits

/-- The sum of fewer than 2^32 delays does. -/
theorem sum_delays_lt {delays : List UInt32} (few : delays.length < 2 ^ 32) :
    (delays.map UInt32.toNat).sum < 2 ^ 64 := by
  have bound : ∀ value ∈ delays.map UInt32.toNat, value ≤ 2 ^ 32 - 1 := by
    intro value member
    obtain ⟨delay, -, rfl⟩ := List.mem_map.mp member
    exact Nat.le_pred_of_lt delay.toNat_lt
  have sum := List.sum_le_card_nsmul _ _ bound
  rw [List.length_map, smul_eq_mul] at sum
  have product := Nat.mul_le_mul_right (2 ^ 32 - 1) few.le
  omega

/-- The average, of the sum cut to 32 bits. -/
theorem avg_propagationStats {delays : List UInt32} (few : delays.length < 2 ^ 32)
    (some : delays ≠ []) :
    (propagationStats delays).avgDelayMs.toNat =
      (delays.map UInt32.toNat).sum % 2 ^ 32 / delays.length := by
  have sorted := List.perm_insertionSort (· ≤ ·) delays
  have notEmpty : ¬ (delays.insertionSort (· ≤ ·)).isEmpty = true := by
    rw [List.isEmpty_iff]
    intro nothing
    rw [nothing] at sorted
    exact some sorted.symm.eq_nil
  have sum : ((delays.insertionSort (· ≤ ·)).map UInt32.toUInt64).sum =
      (delays.map UInt32.toUInt64).sum := (sorted.map _).sum_eq
  rw [propagationStats]
  dsimp only
  rw [if_neg notEmpty, sum, sorted.length_eq, UInt32.toNat_div, UInt64.toNat_toUInt32,
    toNat_sum_toUInt64 (sum_delays_lt few), UInt32.toNat_ofNat_of_lt' few]

theorem cut_div_eq_iff {sum count : Nat} (positive : 0 < count) (few : count < 2 ^ 32) :
    sum % 2 ^ 32 / count = sum / count ↔ sum < 2 ^ 32 := by
  constructor
  · intro same
    by_contra large
    have less : sum % 2 ^ 32 + count ≤ sum := by omega
    have more := Nat.div_le_div_right (c := count) less
    rw [Nat.add_div_right _ positive] at more
    omega
  · exact fun small => by rw [Nat.mod_eq_of_lt small]

/-! ## One delay -/

/-- The delay: none when the clock has stepped back, and at most `u32::MAX`. -/
def exactDelay (nowUnixMs firstUnixMs : Int64) : Nat :=
  min (max 0 (nowUnixMs.toInt - firstUnixMs.toInt)).toNat (2 ^ 32 - 1)

/-- A difference of times that the cut to 32 bits leaves as it should be: one in range; also one
below whose low bits are none, or one above whose low bits are all, as at the ends of 64 bits. -/
def Narrows (difference : Int) : Prop :=
  if difference < 0 then difference ≤ -2 ^ 63 ∨ 2 ^ 32 ∣ difference
  else difference < 2 ^ 32 ∨ 2 ^ 63 - 1 ≤ difference ∨ 2 ^ 32 ∣ difference + 1

instance (difference : Int) : Decidable (Narrows difference) :=
  inferInstanceAs (Decidable (if difference < 0 then difference ≤ -2 ^ 63 ∨ 2 ^ 32 ∣ difference
    else difference < 2 ^ 32 ∨ 2 ^ 63 - 1 ≤ difference ∨ 2 ^ 32 ∣ difference + 1))

theorem toNat_propagationDelay (nowUnixMs firstUnixMs : Int64) :
    (propagationDelay nowUnixMs firstUnixMs).toNat =
      (max (-2 ^ 63) (min (2 ^ 63 - 1) (nowUnixMs.toInt - firstUnixMs.toInt)) % 2 ^ 32).toNat := by
  have least : Int64.minValue.toInt = -2 ^ 63 := rfl
  have largest : Int64.maxValue.toInt = 2 ^ 63 - 1 := rfl
  have small : (max (-2 ^ 63) (min (2 ^ 63 - 1) (nowUnixMs.toInt - firstUnixMs.toInt)) %
    2 ^ 32).toNat < 2 ^ 32 := by omega
  rw [propagationDelay, least, largest]
  exact UInt32.toNat_ofNat_of_lt' small

theorem propagationDelay_exact_iff (nowUnixMs firstUnixMs : Int64) :
    (propagationDelay nowUnixMs firstUnixMs).toNat = exactDelay nowUnixMs firstUnixMs ↔
      Narrows (nowUnixMs.toInt - firstUnixMs.toInt) := by
  rw [toNat_propagationDelay, exactDelay, Narrows]
  split_ifs <;> omega

/-! ## The duplicates of a run -/

/-- A duplicate announcement: the peer, its time, and the time at which the hash was first seen. -/
structure Sighting where
  peerId : PeerId
  nowUnixMs : Int64
  firstUnixMs : Int64
  deriving DecidableEq

/-- The delay it should record. -/
def Sighting.exactDelay (sighting : Sighting) : Nat :=
  Ingest.exactDelay sighting.nowUnixMs sighting.firstUnixMs

/-- The true difference of the two moments. -/
def Sighting.difference (sighting : Sighting) : Int :=
  sighting.nowUnixMs.toInt - sighting.firstUnixMs.toInt

namespace P2pIngestService

/-- What is observed before each of the items. -/
def observeEach {α β : Type} (handle : P2pIngestService → α → List EventEnvelope × P2pIngestService)
    (observe : P2pIngestService → α → List β) : P2pIngestService → List α → List β
  | _, [] => []
  | service, item :: rest =>
    observe service item ++ observeEach handle observe (handle service item).2 rest

/-- The duplicate an announced hash is, when it is remembered. -/
def sightingOf (peerId : PeerId) (nowUnixMs : Int64) (service : P2pIngestService) (hash : TxHash) :
    List Sighting :=
  match service.firstSeen[hash]? with
  | some first => [⟨peerId, nowUnixMs, first.unixMs⟩]
  | none => []

/-- What a call observes. -/
def sightingsOfCall (service : P2pIngestService) : Call → List Sighting
  | .announced peerId hashes nowUnixMs nowMonoNs =>
    observeEach (announce peerId nowUnixMs nowMonoNs) (sightingOf peerId nowUnixMs)
      (service.countAnnouncements hashes) hashes
  | .dequeued => []
  | .delivered .. => []

/-- The duplicate announcements of a run, in order. -/
def sightings (service : P2pIngestService) (calls : List Call) : List Sighting :=
  observeEach call sightingsOfCall service calls

/-- The exact delays of the duplicate announcements of a peer. -/
def exactDelays (service : P2pIngestService) (calls : List Call) (peerId : PeerId) : List Nat :=
  ((service.sightings calls).filter (·.peerId = peerId)).map (·.exactDelay)

/-- The delays the service has recorded for a peer. -/
def recordedDelays (service : P2pIngestService) (peerId : PeerId) : List UInt32 :=
  (service.propagationDelaysByPeer[peerId]?).getD []

/-- **Propagation delays are exact** after a run: each one that is recorded, and the count and the
average of each peer. -/
structure PropagationExact (start : P2pIngestService) (calls : List Call) : Prop where
  recorded : ∀ peerId, ((start.run calls).2.recordedDelays peerId).map UInt32.toNat =
    start.exactDelays calls peerId
  reported : ∀ peerId, (start.run calls).2.propagationStatsByPeer[peerId]?.isSome ↔
    start.exactDelays calls peerId ≠ []
  statistics : ∀ peerId stats, (start.run calls).2.propagationStatsByPeer[peerId]? = some stats →
    stats.count.toNat = (start.exactDelays calls peerId).length ∧
    stats.avgDelayMs.toNat =
      (start.exactDelays calls peerId).sum / (start.exactDelays calls peerId).length ∧
    (∃ delay ∈ (start.run calls).2.recordedDelays peerId, delay ≤ stats.avgDelayMs) ∧
    (∃ delay ∈ (start.run calls).2.recordedDelays peerId, stats.avgDelayMs ≤ delay)

/-- A peer the service lists has a delay. -/
def ListsNoEmpty (service : P2pIngestService) : Prop :=
  ∀ (peerId : PeerId) (delays : List UInt32),
    service.propagationDelaysByPeer[peerId]? = some delays → delays ≠ []

/-- What a step records: the delays of the duplicates it meets. -/
structure Records (service : P2pIngestService) (met : List Sighting) (next : P2pIngestService) :
    Prop where
  recorded : ∀ peerId, next.recordedDelays peerId = service.recordedDelays peerId ++
    (met.filter (·.peerId = peerId)).map fun sighting =>
      propagationDelay sighting.nowUnixMs sighting.firstUnixMs
  nonempty : service.ListsNoEmpty → next.ListsNoEmpty

namespace Records

theorem silent {service next : P2pIngestService}
    (same : next.propagationDelaysByPeer = service.propagationDelaysByPeer) :
    Records service [] next where
  recorded := by
    intro peerId
    rw [recordedDelays, same]
    exact (List.append_nil _).symm
  nonempty := by
    rw [ListsNoEmpty, ListsNoEmpty, same]
    exact id

theorem append {service middle next : P2pIngestService} {met more : List Sighting}
    (front : Records service met middle) (back : Records middle more next) :
    Records service (met ++ more) next where
  recorded := by
    intro peerId
    rw [back.recorded, front.recorded, List.filter_append, List.map_append, List.append_assoc]
  nonempty := fun some => back.nonempty (front.nonempty some)

theorem announced {peerId : PeerId} {nowUnixMs : Int64} {nowMonoNs : UInt64}
    {service next : P2pIngestService} {hash : TxHash} {events : List EventEnvelope}
    (step : Announced peerId nowUnixMs nowMonoNs service hash events next) :
    Records service (sightingOf peerId nowUnixMs service hash) next := by
  cases step with
  | duplicate first reason known =>
      rw [sightingOf, known]
      refine ⟨fun other => ?_, fun some other delays listed => ?_⟩
      · rw [recordedDelays]
        dsimp only
        rw [ExtTreeMap.getElem?_insert]
        by_cases own : peerId = other
        · subst own
          simp [recordedDelays]
        · simp [own, recordedDelays]
      · dsimp only at listed
        rw [ExtTreeMap.getElem?_insert] at listed
        split at listed
        · cases listed
          simp
        · exact some other delays listed
  | queueFull reason unknown full =>
      rw [sightingOf, unknown]
      exact silent rfl
  | accepted unknown room =>
      rw [sightingOf, unknown]
      exact silent rfl

/-- One item after another. -/
theorem forEach {α : Type} {handle : P2pIngestService → α → List EventEnvelope × P2pIngestService}
    {observe : P2pIngestService → α → List Sighting}
    (step : ∀ service item, Records service (observe service item) (handle service item).2)
    (service : P2pIngestService) (items : List α) :
    Records service (observeEach handle observe service items)
      (P2pIngestService.forEach handle service items).2 := by
  induction items generalizing service with
  | nil => exact silent rfl
  | cons item rest ih => exact (step service item).append (ih (handle service item).2)

end Records

theorem records_call (service : P2pIngestService) (call : Call) :
    Records service (service.sightingsOfCall call) (service.call call).2 := by
  cases call with
  | announced peerId hashes nowUnixMs nowMonoNs =>
      have counted : Records service [] (service.countAnnouncements hashes) := .silent rfl
      exact counted.append (Records.forEach (fun service hash => .announced
        (announce_spec peerId nowUnixMs nowMonoNs service hash)) _ hashes)
  | dequeued => exact .silent rfl
  | delivered peerId txs nowUnixMs nowMonoNs =>
      exact .silent (forEach_preserves
        (fun next => next.propagationDelaysByPeer = service.propagationDelaysByPeer)
        (fun _ _ same => same) rfl txs)

theorem records_run (service : P2pIngestService) (calls : List Call) :
    Records service (service.sightings calls) (service.run calls).2 :=
  Records.forEach records_call service calls

/-! ## First sightings -/

/-- The times at which events announce a hash as seen. -/
def seenTimes (hash : TxHash) (events : List EventEnvelope) : List Int64 :=
  events.filterMap fun event =>
    match event.payload with
    | .txSeen seen => if seen.hash = hash then some seen.seenAtUnixMs else none
    | _ => none

/-- The memory keeps the time at which a hash was last announced as seen. -/
def Dated (times : TxHash → List Int64) (service : P2pIngestService) : Prop :=
  ∀ (hash : TxHash) (first : FirstSeen), service.firstSeen[hash]? = some first →
    (times hash).getLast? = some first.unixMs

/-- Evicting hashes changes no time. -/
theorem getElem?_evictOldest {maxSeenHashes : Nat} {firstSeen : ExtTreeMap TxHash FirstSeen}
    {order : List TxHash} {hash : TxHash} {first : FirstSeen}
    (kept : (evictOldest maxSeenHashes firstSeen order).2[hash]? = some first) :
    firstSeen[hash]? = some first := by
  refine (evict_invariant maxSeenHashes
    (fun memory _ => memory[hash]? = some first → firstSeen[hash]? = some first) ?_ id).2 kept
  intro memory oldest rest earlier held
  rw [ExtTreeMap.getElem?_erase] at held
  split at held
  · cases held
  · exact earlier held

theorem Announced.dated {peerId : PeerId} {nowUnixMs : Int64} {nowMonoNs : UInt64}
    {service next : P2pIngestService} {hash : TxHash} {events : List EventEnvelope}
    {times : TxHash → List Int64} (dated : Dated times service)
    (step : Announced peerId nowUnixMs nowMonoNs service hash events next) :
    Dated (fun other => times other ++ seenTimes other events) next := by
  intro other first kept
  cases step with
  | duplicate _ reason known =>
      exact (congrArg List.getLast? (List.append_nil _)).trans (dated other first kept)
  | queueFull reason unknown full =>
      exact (congrArg List.getLast? (List.append_nil _)).trans (dated other first kept)
  | accepted unknown room =>
      have inserted := getElem?_evictOldest kept
      rw [ExtTreeMap.getElem?_insert] at inserted
      by_cases own : hash = other
      · subst own
        rw [if_pos compare_self] at inserted
        cases inserted
        simp [seenTimes]
      · rw [if_neg fun same => own (Std.compare_eq_iff_eq.mp same)] at inserted
        have none : seenTimes other [⟨service.seqId, nowUnixMs, nowMonoNs, service.sourceId,
            .txSeen ⟨hash, peerId, nowUnixMs, nowMonoNs⟩⟩] = [] := by
          simp [seenTimes, own]
        dsimp only
        rw [none, List.append_nil]
        exact dated other first inserted

/-- One item after another. -/
theorem dated_forEach {α : Type}
    {handle : P2pIngestService → α → List EventEnvelope × P2pIngestService}
    (step : ∀ times service item, Dated times service →
      Dated (fun hash => times hash ++ seenTimes hash (handle service item).1) (handle service item).2)
    {times : TxHash → List Int64} {service : P2pIngestService} (dated : Dated times service)
    (items : List α) :
    Dated (fun hash => times hash ++ seenTimes hash (forEach handle service items).1)
      (forEach handle service items).2 := by
  induction items generalizing times service with
  | nil => simpa [forEach, seenTimes] using dated
  | cons item rest ih =>
      have onward := ih (step times service item dated)
      simpa [forEach, seenTimes, List.append_assoc] using onward

theorem dated_call (times : TxHash → List Int64) (service : P2pIngestService) (call : Call)
    (dated : Dated times service) :
    Dated (fun hash => times hash ++ seenTimes hash (service.call call).1) (service.call call).2 := by
  cases call with
  | announced peerId hashes nowUnixMs nowMonoNs =>
      have started : Dated times (service.countAnnouncements hashes) := dated
      exact dated_forEach (fun times service hash dated =>
        (announce_spec peerId nowUnixMs nowMonoNs service hash).dated dated) started hashes
  | dequeued =>
      intro hash first kept
      exact (congrArg List.getLast? (List.append_nil _)).trans (dated hash first kept)
  | delivered peerId txs nowUnixMs nowMonoNs =>
      exact dated_forEach (fun times service tx dated => by
        simpa [deliver, seenTimes, newEvent, Dated] using dated) dated txs

/-- **The first-seen time of a remembered hash** is that of the last event that announced it. -/
theorem firstSeen_run (config : P2pIngestConfig) (sourceId : SourceId) (calls : List Call)
    (hash : TxHash) (first : FirstSeen)
    (remembered : ((new config sourceId).run calls).2.firstSeen[hash]? = some first) :
    (seenTimes hash ((new config sourceId).run calls).1).getLast? = some first.unixMs := by
  have start : Dated (fun _ => []) (new config sourceId) := by
    intro other first kept
    simp [new] at kept
  exact dated_forEach dated_call start calls hash first remembered

/-! ## Exactness -/

section Exact

variable (config : P2pIngestConfig) (sourceId : SourceId) (calls : List Call)

/-- The service has recorded the delay of each duplicate of a peer. -/
theorem recordedDelays_run (peerId : PeerId) :
    ((new config sourceId).run calls).2.recordedDelays peerId =
      (((new config sourceId).sightings calls).filter (·.peerId = peerId)).map fun sighting =>
        propagationDelay sighting.nowUnixMs sighting.firstUnixMs := by
  rw [(records_run _ calls).recorded]
  rfl

theorem propagationStatsByPeer_run (peerId : PeerId) :
    ((new config sourceId).run calls).2.propagationStatsByPeer[peerId]? =
      if ((new config sourceId).run calls).2.recordedDelays peerId = [] then none
      else some (propagationStats (((new config sourceId).run calls).2.recordedDelays peerId)) := by
  have none : (new config sourceId).ListsNoEmpty := by
    intro peer delays listed
    simp [new] at listed
  have nonempty := (records_run (new config sourceId) calls).nonempty none peerId
  rw [propagationStatsByPeer, ExtTreeMap.getElem?_map, recordedDelays]
  cases listed : ((new config sourceId).run calls).2.propagationDelaysByPeer[peerId]? with
  | none => rfl
  | some delays => exact (if_neg (nonempty delays listed)).symm

/-- The records are exact exactly when each difference narrows to the delay. -/
theorem recorded_iff :
    (∀ peerId, (((new config sourceId).run calls).2.recordedDelays peerId).map UInt32.toNat =
      (new config sourceId).exactDelays calls peerId) ↔
    ∀ sighting ∈ (new config sourceId).sightings calls, Narrows sighting.difference := by
  have each : ∀ peerId, (((new config sourceId).run calls).2.recordedDelays peerId).map UInt32.toNat =
      (new config sourceId).exactDelays calls peerId ↔
        ∀ sighting ∈ (new config sourceId).sightings calls, sighting.peerId = peerId →
          Narrows sighting.difference := by
    intro peerId
    rw [recordedDelays_run, exactDelays, List.map_map, List.map_inj_left]
    constructor
    · intro same sighting member own
      exact (propagationDelay_exact_iff _ _).mp
        (same sighting (List.mem_filter.mpr ⟨member, decide_eq_true own⟩))
    · intro narrows sighting member
      obtain ⟨listed, own⟩ := List.mem_filter.mp member
      exact (propagationDelay_exact_iff _ _).mpr (narrows sighting listed (of_decide_eq_true own))
  rw [forall_congr' each]
  exact ⟨fun narrows sighting member => narrows _ sighting member rfl,
    fun narrows _ sighting member _ => narrows sighting member⟩

theorem length_recordedDelays_run (peerId : PeerId) :
    (((new config sourceId).run calls).2.recordedDelays peerId).length =
      ((new config sourceId).exactDelays calls peerId).length := by
  rw [recordedDelays_run, exactDelays, List.length_map, List.length_map]

theorem recordedDelays_run_eq_nil_iff (peerId : PeerId) :
    ((new config sourceId).run calls).2.recordedDelays peerId = [] ↔
      (new config sourceId).exactDelays calls peerId = [] := by
  rw [← List.length_eq_zero_iff, length_recordedDelays_run, List.length_eq_zero_iff]

/-- The average of delays that are recorded exactly. -/
theorem avg_of_recorded {peerId : PeerId}
    (few : ((new config sourceId).exactDelays calls peerId).length < 2 ^ 32)
    (some : (new config sourceId).exactDelays calls peerId ≠ [])
    (same : (((new config sourceId).run calls).2.recordedDelays peerId).map UInt32.toNat =
      (new config sourceId).exactDelays calls peerId) :
    (propagationStats (((new config sourceId).run calls).2.recordedDelays peerId)).avgDelayMs.toNat =
      ((new config sourceId).exactDelays calls peerId).sum % 2 ^ 32 /
        ((new config sourceId).exactDelays calls peerId).length := by
  have length := length_recordedDelays_run config sourceId calls peerId
  rw [avg_propagationStats (length ▸ few) fun none =>
    some ((recordedDelays_run_eq_nil_iff config sourceId calls peerId).mp none), same, length]

end Exact

/-- An average is between two of its values. -/
theorem exists_le_average {delays : List Nat} (some : delays ≠ []) :
    (∃ delay ∈ delays, delay ≤ delays.sum / delays.length) ∧
      ∃ delay ∈ delays, delays.sum / delays.length ≤ delay := by
  have positive : 0 < delays.length := List.length_pos_of_ne_nil some
  constructor
  · by_contra above
    push Not at above
    have more := List.card_nsmul_le_sum delays (delays.sum / delays.length + 1) above
    have less := Nat.lt_mul_div_succ delays.sum positive
    rw [smul_eq_mul] at more
    omega
  · by_contra below
    push Not at below
    obtain ⟨first, member⟩ := List.exists_mem_of_ne_nil delays some
    obtain ⟨less, average⟩ := Nat.exists_eq_add_of_lt (Nat.zero_lt_of_lt (below first member))
    have bound := List.sum_le_card_nsmul delays less fun delay listed => by
      have := below delay listed
      omega
    have product := Nat.mul_div_le delays.sum delays.length
    rw [average, Nat.zero_add, Nat.mul_add, Nat.mul_one] at product
    rw [smul_eq_mul] at bound
    omega

/-- **Propagation delays are exact exactly when every difference of times narrows to its delay and the
delays of each peer sum up to less than 2^32**, in every run with fewer than 2^32 delays for each. -/
theorem propagationExact_iff (config : P2pIngestConfig) (sourceId : SourceId) (calls : List Call)
    (few : ∀ peerId, ((new config sourceId).exactDelays calls peerId).length < 2 ^ 32) :
    PropagationExact (new config sourceId) calls ↔
      (∀ sighting ∈ (new config sourceId).sightings calls, Narrows sighting.difference) ∧
        ∀ peerId, ((new config sourceId).exactDelays calls peerId).sum < 2 ^ 32 := by
  have length := length_recordedDelays_run config sourceId calls
  have nothing := recordedDelays_run_eq_nil_iff config sourceId calls
  have reported : ∀ peerId,
      ((new config sourceId).run calls).2.propagationStatsByPeer[peerId]?.isSome ↔
        (new config sourceId).exactDelays calls peerId ≠ [] := by
    intro peerId
    rw [propagationStatsByPeer_run, ne_eq, ← nothing]
    split_ifs with none <;> simp [none]
  constructor
  · intro exact
    refine ⟨(recorded_iff config sourceId calls).mp exact.recorded, fun peerId => ?_⟩
    by_cases none : (new config sourceId).exactDelays calls peerId = []
    · rw [none]
      decide
    · have listed := propagationStatsByPeer_run config sourceId calls peerId
      rw [if_neg fun empty => none ((nothing peerId).mp empty)] at listed
      obtain ⟨-, exactAverage, -, -⟩ := exact.statistics peerId _ listed
      rw [avg_of_recorded config sourceId calls (few peerId) none (exact.recorded peerId)]
        at exactAverage
      exact (cut_div_eq_iff (List.length_pos_of_ne_nil none) (few peerId)).mp exactAverage
  · rintro ⟨narrows, small⟩
    have recorded := (recorded_iff config sourceId calls).mpr narrows
    refine ⟨recorded, reported, fun peerId stats listed => ?_⟩
    have some : (new config sourceId).exactDelays calls peerId ≠ [] := by
      rw [← reported, listed]
      rfl
    rw [propagationStatsByPeer_run, if_neg fun empty => some ((nothing peerId).mp empty)] at listed
    cases listed
    have value := avg_of_recorded config sourceId calls (few peerId) some (recorded peerId)
    rw [Nat.mod_eq_of_lt (small peerId)] at value
    obtain ⟨⟨low, lowMember, below⟩, high, highMember, above⟩ := exists_le_average some
    rw [← value] at below above
    rw [← recorded peerId] at lowMember highMember
    obtain ⟨first, firstMember, rfl⟩ := List.mem_map.mp lowMember
    obtain ⟨second, secondMember, rfl⟩ := List.mem_map.mp highMember
    refine ⟨?_, value, ⟨first, firstMember, below⟩, ⟨second, secondMember, above⟩⟩
    rw [count_propagationStats (length peerId ▸ few peerId), length]

/-- The clock steps back a millisecond between the announcements of two peers. -/
def steppedBack : List Call :=
  [.announced "peer-a" [1] 1700000000000 10, .announced "peer-b" [1] 1699999999999 20]

/-- The delay to the second peer is recorded as `u32::MAX`. -/
theorem steppedBack_not_exact :
    ¬ ∀ (config : P2pIngestConfig) (sourceId : SourceId) (calls : List Call),
      (∀ peerId, ((new config sourceId).exactDelays calls peerId).length < 2 ^ 32) →
        PropagationExact (new config sourceId) calls := by
  intro exact
  have sightings : (new {} "p2p").sightings steppedBack =
      [⟨"peer-b", 1699999999999, 1700000000000⟩] := by decide +kernel
  have few : ∀ peerId, ((new {} "p2p").exactDelays steppedBack peerId).length < 2 ^ 32 := by
    intro peerId
    rw [exactDelays, sightings, List.length_map]
    exact (List.length_filter_le _ _).trans_lt (by decide)
  have recorded := (exact {} "p2p" steppedBack few).recorded "peer-b"
  rw [exactDelays, sightings] at recorded
  revert recorded
  decide +kernel

/-- A delay of eleven milliseconds. -/
def elevenMilliseconds : List Call :=
  [.announced "peer-a" [1] 1700000000000 10, .announced "peer-b" [1] 1700000000011 20]

theorem elevenMilliseconds_exact : PropagationExact (new {} "p2p") elevenMilliseconds := by
  have sightings : (new {} "p2p").sightings elevenMilliseconds =
      [⟨"peer-b", 1700000000011, 1700000000000⟩] := by decide +kernel
  have few : ∀ peerId, ((new {} "p2p").exactDelays elevenMilliseconds peerId).length < 2 ^ 32 := by
    intro peerId
    rw [exactDelays, sightings, List.length_map]
    exact (List.length_filter_le _ _).trans_lt (by decide)
  refine (propagationExact_iff {} "p2p" elevenMilliseconds few).mpr ⟨?_, fun peerId => ?_⟩
  · rw [sightings]
    decide
  · rw [exactDelays, sightings]
    by_cases own : "peer-b" = peerId
    · rw [List.filter_cons_of_pos (by simpa using own), List.filter_nil]
      decide
    · rw [List.filter_cons_of_neg (by simpa using own), List.filter_nil]
      decide

end P2pIngestService

end Mempulse.Ingest
