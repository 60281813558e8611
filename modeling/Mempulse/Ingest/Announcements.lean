import Mempulse.Ingest.Retry
import Mempulse.Library.Window

/-!
# Announced hashes

What holds of the pooled-transaction ingest after every run of its calls. The fetch queue holds the
last of the remembered hashes: a hash is queued when it is remembered, the queue loses its oldest hash
first, and the memory, which is at least as large, does so too.
-/

set_option autoImplicit false

namespace Mempulse.Ingest

open Std EventLog Library

/-! ## Numbered events -/

/-- Events that take up the sequence ids from the first up to the next. -/
structure Numbers (first : UInt64) (events : List EventEnvelope) (next : UInt64) : Prop where
  numbered : events.map (·.seqId) = seqIdsFrom first events.length
  advanced : next = first + UInt64.ofNat events.length

theorem Numbers.none (first : UInt64) : Numbers first [] first := ⟨rfl, (UInt64.add_zero _).symm⟩

theorem Numbers.append {first middle next : UInt64} {events later : List EventEnvelope}
    (front : Numbers first events middle) (back : Numbers middle later next) :
    Numbers first (events ++ later) next where
  numbered := by
    rw [List.map_append, front.numbered, back.numbered, front.advanced, List.length_append,
      seqIdsFrom_add]
  advanced := by
    rw [back.advanced, front.advanced, List.length_append, UInt64.ofNat_add, UInt64.add_assoc]

/-- The next event of the service. -/
theorem Numbers.one {first : UInt64} {event : EventEnvelope} (own : event.seqId = first) :
    Numbers first [event] (first + 1) :=
  ⟨congrArg (fun id => [id]) own, rfl⟩

/-! ## The memory -/

/-- The memory holds different hashes, those of its order. -/
structure Remembers (firstSeen : ExtTreeMap TxHash FirstSeen) (order : List TxHash) : Prop where
  distinct : order.Nodup
  holds : ∀ hash, hash ∈ firstSeen ↔ hash ∈ order

theorem Remembers.evictOldest (maxSeenHashes : Nat) {order : List TxHash}
    {firstSeen : ExtTreeMap TxHash FirstSeen} (remembers : Remembers firstSeen order) :
    (evictOldest maxSeenHashes firstSeen order).1 = window maxSeenHashes order ∧
      Remembers (evictOldest maxSeenHashes firstSeen order).2 (window maxSeenHashes order) := by
  refine evict_invariant maxSeenHashes Remembers ?_ remembers
  intro firstSeen oldest rest remembers
  obtain ⟨fresh, distinct⟩ := List.nodup_cons.mp remembers.distinct
  refine ⟨distinct, fun hash => ?_⟩
  rw [ExtTreeMap.mem_erase, remembers.holds, List.mem_cons, ne_eq, Std.compare_eq_iff_eq]
  constructor
  · rintro ⟨other, rfl | member⟩
    · exact absurd rfl other
    · exact member
  · exact fun member => ⟨fun same => fresh (same ▸ member), .inr member⟩

theorem Remembers.insert {order : List TxHash} {firstSeen : ExtTreeMap TxHash FirstSeen}
    (remembers : Remembers firstSeen order) {hash : TxHash} (unknown : hash ∉ firstSeen)
    (first : FirstSeen) : Remembers (firstSeen.insert hash first) (order ++ [hash]) where
  distinct := by
    rw [List.nodup_append_comm]
    exact List.nodup_cons.mpr ⟨fun member => unknown ((remembers.holds hash).mpr member),
      remembers.distinct⟩
  holds := by
    intro other
    rw [ExtTreeMap.mem_insert, remembers.holds, Std.compare_eq_iff_eq, List.mem_append,
      List.mem_singleton, or_comm, eq_comm]

namespace P2pIngestService

/-! ## One hash -/

/-- What becomes of an announced hash. -/
inductive Announced (peerId : PeerId) (nowUnixMs : Int64) (nowMonoNs : UInt64)
    (service : P2pIngestService) (hash : TxHash) : List EventEnvelope → P2pIngestService → Prop
  | duplicate (first : FirstSeen) (reason : String)
      (known : service.firstSeen[hash]? = some first) :
      Announced peerId nowUnixMs nowMonoNs service hash
        [⟨service.seqId, nowUnixMs, nowMonoNs, service.sourceId, .txDropped ⟨hash, reason⟩⟩]
        { service with
          seqId := service.seqId + 1
          propagationDelaysByPeer := service.propagationDelaysByPeer.insert peerId
            ((service.propagationDelaysByPeer[peerId]?).getD [] ++
              [propagationDelay nowUnixMs first.unixMs])
          metrics :=
            { service.metrics with
              duplicatesDroppedTotal := service.metrics.duplicatesDroppedTotal + 1 } }
  | queueFull (reason : String) (unknown : service.firstSeen[hash]? = none)
      (full : service.config.fetchQueueCapacity ≤ service.fetchQueue.length) :
      Announced peerId nowUnixMs nowMonoNs service hash
        [⟨service.seqId, nowUnixMs, nowMonoNs, service.sourceId, .txDropped ⟨hash, reason⟩⟩]
        { service with
          seqId := service.seqId + 1
          metrics :=
            { service.metrics with
              queueDroppedTotal := service.metrics.queueDroppedTotal + 1
              queueDepthCurrent := service.fetchQueue.length } }
  | accepted (unknown : service.firstSeen[hash]? = none)
      (room : service.fetchQueue.length < service.config.fetchQueueCapacity) :
      Announced peerId nowUnixMs nowMonoNs service hash
        [⟨service.seqId, nowUnixMs, nowMonoNs, service.sourceId,
          .txSeen ⟨hash, peerId, nowUnixMs, nowMonoNs⟩⟩]
        { service.rememberHash hash nowUnixMs with
          seqId := service.seqId + 1
          fetchQueue := service.fetchQueue ++ [⟨peerId, [hash]⟩]
          metrics :=
            { service.metrics with
              queueDepthCurrent := service.fetchQueue.length + 1
              queueDepthPeak := max service.metrics.queueDepthPeak (service.fetchQueue.length + 1) } }

theorem announce_spec (peerId : PeerId) (nowUnixMs : Int64) (nowMonoNs : UInt64)
    (service : P2pIngestService) (hash : TxHash) :
    Announced peerId nowUnixMs nowMonoNs service hash
      (announce peerId nowUnixMs nowMonoNs service hash).1
      (announce peerId nowUnixMs nowMonoNs service hash).2 := by
  unfold announce
  cases known : service.firstSeen[hash]? with
  | some first => exact .duplicate first _ known
  | none =>
      by_cases full : service.fetchQueue.length ≥ service.config.fetchQueueCapacity
      · dsimp only
        rw [if_pos full]
        exact .queueFull _ known full
      · dsimp only
        rw [if_neg full]
        simp only [List.length_append, List.length_singleton]
        exact .accepted known (Nat.lt_of_not_le full)

/-! ## The queue -/

/-- The hashes that are queued for a fetch. -/
def queuedHashes (service : P2pIngestService) : List TxHash :=
  service.fetchQueue.flatMap (·.hashes)

/-- **The invariant of the queue and the memory**, whose room is larger. -/
structure Bounded (service : P2pIngestService) : Prop where
  room : service.config.fetchQueueCapacity ≤ service.config.maxSeenHashes
  single : ∀ request ∈ service.fetchQueue, request.hashes.length = 1
  queueWithin : service.fetchQueue.length ≤ service.config.fetchQueueCapacity
  newest : service.queuedHashes <:+ service.seenOrder
  remembers : Remembers service.firstSeen service.seenOrder
  seenWithin : service.seenOrder.length ≤ service.config.maxSeenHashes
  depth : service.metrics.queueDepthCurrent = service.fetchQueue.length
  peak : service.fetchQueue.length ≤ service.metrics.queueDepthPeak

namespace Bounded

theorem length_queuedHashes {service : P2pIngestService}
    (single : ∀ request ∈ service.fetchQueue, request.hashes.length = 1) :
    service.queuedHashes.length = service.fetchQueue.length := by
  rw [queuedHashes, List.length_flatMap, List.map_congr_left single, List.map_const', List.sum_replicate]
  simp

theorem new {config : P2pIngestConfig} (room : config.fetchQueueCapacity ≤ config.maxSeenHashes)
    (sourceId : SourceId) : Bounded (.new config sourceId) where
  room := max_le_max_right 1 room
  single := nofun
  queueWithin := Nat.zero_le _
  newest := List.nil_suffix
  remembers := ⟨List.nodup_nil, by simp [P2pIngestService.new]⟩
  seenWithin := Nat.zero_le _
  depth := rfl
  peak := Nat.zero_le _

theorem announced {peerId : PeerId} {nowUnixMs : Int64} {nowMonoNs : UInt64}
    {service next : P2pIngestService} {hash : TxHash} {events : List EventEnvelope}
    (bounded : Bounded service)
    (step : Announced peerId nowUnixMs nowMonoNs service hash events next) : Bounded next := by
  cases step with
  | duplicate first reason known =>
      exact ⟨bounded.room, bounded.single, bounded.queueWithin, bounded.newest, bounded.remembers,
        bounded.seenWithin, bounded.depth, bounded.peak⟩
  | queueFull reason unknown full =>
      exact ⟨bounded.room, bounded.single, bounded.queueWithin, bounded.newest, bounded.remembers,
        bounded.seenWithin, rfl, bounded.peak⟩
  | accepted unknown room =>
      have fresh : hash ∉ service.firstSeen := by
        rw [ExtTreeMap.mem_iff_isSome_getElem?, unknown]
        exact Bool.false_ne_true
      obtain ⟨order, remembers⟩ := (bounded.remembers.insert fresh ⟨nowUnixMs⟩).evictOldest
        service.config.maxSeenHashes
      have kept : (service.rememberHash hash nowUnixMs).seenOrder =
          window service.config.maxSeenHashes (service.seenOrder ++ [hash]) := order
      have queue : (service.fetchQueue ++ [(⟨peerId, [hash]⟩ : GetPooledTransactionsRequest)]).flatMap
          (·.hashes) = service.queuedHashes ++ [hash] := by
        rw [List.flatMap_append, List.flatMap_singleton]
        rfl
      have longer : (service.fetchQueue ++ [(⟨peerId, [hash]⟩ : GetPooledTransactionsRequest)]).length =
          service.fetchQueue.length + 1 := List.length_append
      have count := length_queuedHashes bounded.single
      refine ⟨bounded.room, ?_, ?_, ?_, kept ▸ remembers, ?_, ?_, ?_⟩
      · intro request member
        rcases List.mem_append.mp member with queued | added
        · exact bounded.single request queued
        · rw [List.mem_singleton.mp added]
          rfl
      · exact longer.trans_le room
      · change List.flatMap _ _ <:+ (service.rememberHash hash nowUnixMs).seenOrder
        rw [queue, kept]
        refine isSuffix_window (List.suffix_append_self_iff.mpr bounded.newest) ?_
        rw [List.length_append, count]
        exact Nat.le_trans room bounded.room
      · change (service.rememberHash hash nowUnixMs).seenOrder.length ≤ _
        rw [kept, length_window]
        exact Nat.min_le_right _ _
      · exact longer.symm
      · exact longer.trans_le (Nat.le_max_right _ _)

theorem dequeued {service : P2pIngestService} (bounded : Bounded service) :
    Bounded service.dequeueGetPooledTransactions.2 where
  room := bounded.room
  single := fun request member => bounded.single request (List.mem_of_mem_tail member)
  queueWithin := (service.fetchQueue.tail_sublist.length_le).trans bounded.queueWithin
  newest := by
    refine List.IsSuffix.trans ?_ bounded.newest
    change service.fetchQueue.tail.flatMap _ <:+ service.fetchQueue.flatMap _
    cases service.fetchQueue with
    | nil => exact List.suffix_refl _
    | cons request rest => exact List.suffix_append _ _
  remembers := bounded.remembers
  seenWithin := bounded.seenWithin
  depth := rfl
  peak := (service.fetchQueue.tail_sublist.length_le).trans bounded.peak

theorem delivered {service : P2pIngestService} (bounded : Bounded service) (nowUnixMs : Int64)
    (nowMonoNs : UInt64) (tx : P2pTxPayload) :
    Bounded (deliver nowUnixMs nowMonoNs service tx).2 :=
  ⟨bounded.room, bounded.single, bounded.queueWithin, bounded.newest, bounded.remembers,
    bounded.seenWithin, bounded.depth, bounded.peak⟩

end Bounded

/-- What each item preserves is preserved by all of them. -/
theorem forEach_preserves {α : Type}
    {handle : P2pIngestService → α → List EventEnvelope × P2pIngestService}
    (holds : P2pIngestService → Prop)
    (step : ∀ service item, holds service → holds (handle service item).2)
    {service : P2pIngestService} (start : holds service) (items : List α) :
    holds (forEach handle service items).2 := by
  induction items generalizing service with
  | nil => exact start
  | cons item rest ih => exact ih (step service item start)

theorem Bounded.call {service : P2pIngestService} (bounded : Bounded service) (call : Call) :
    Bounded (service.call call).2 := by
  cases call with
  | announced peerId hashes nowUnixMs nowMonoNs =>
      refine forEach_preserves Bounded (fun _ hash bounded => bounded.announced
        (announce_spec peerId nowUnixMs nowMonoNs _ hash)) ?_ hashes
      exact ⟨bounded.room, bounded.single, bounded.queueWithin, bounded.newest, bounded.remembers,
        bounded.seenWithin, bounded.depth, bounded.peak⟩
  | dequeued => exact bounded.dequeued
  | delivered peerId txs nowUnixMs nowMonoNs =>
      exact forEach_preserves Bounded (fun _ tx bounded => bounded.delivered nowUnixMs nowMonoNs tx)
        bounded txs

theorem Bounded.run {service : P2pIngestService} (bounded : Bounded service) (calls : List Call) :
    Bounded (service.run calls).2 :=
  forEach_preserves Bounded (fun _ call bounded => bounded.call call) bounded calls

theorem Announced.config {peerId : PeerId} {nowUnixMs : Int64} {nowMonoNs : UInt64}
    {service next : P2pIngestService} {hash : TxHash} {events : List EventEnvelope}
    (step : Announced peerId nowUnixMs nowMonoNs service hash events next) :
    next.config = service.config := by
  cases step <;> rfl

theorem config_call (service : P2pIngestService) (call : Call) :
    (service.call call).2.config = service.config := by
  cases call with
  | announced peerId hashes nowUnixMs nowMonoNs =>
      have started : (service.countAnnouncements hashes).config = service.config := rfl
      exact forEach_preserves (fun next => next.config = service.config)
        (fun _ hash same => (announce_spec peerId nowUnixMs nowMonoNs _ hash).config.trans same)
        started hashes
  | dequeued => rfl
  | delivered peerId txs nowUnixMs nowMonoNs =>
      exact forEach_preserves (fun next => next.config = service.config)
        (fun _ _ same => same) rfl txs

theorem config_run (service : P2pIngestService) (calls : List Call) :
    (service.run calls).2.config = service.config :=
  forEach_preserves (fun next => next.config = service.config)
    (fun _ call same => (config_call _ call).trans same) rfl calls

/-! ## The deepest queue -/

/-- An announcement never shortens the queue. -/
theorem Announced.deepens {peerId : PeerId} {nowUnixMs : Int64} {nowMonoNs : UInt64}
    {service next : P2pIngestService} {hash : TxHash} {events : List EventEnvelope}
    (bounded : Bounded service)
    (step : Announced peerId nowUnixMs nowMonoNs service hash events next) :
    service.fetchQueue.length ≤ next.fetchQueue.length ∧
      next.metrics.queueDepthPeak =
        max service.metrics.queueDepthPeak next.fetchQueue.length := by
  cases step with
  | duplicate first reason known => exact ⟨Nat.le_refl _, (Nat.max_eq_left bounded.peak).symm⟩
  | queueFull reason unknown full => exact ⟨Nat.le_refl _, (Nat.max_eq_left bounded.peak).symm⟩
  | accepted unknown room =>
      have longer : (service.fetchQueue ++ [(⟨peerId, [hash]⟩ : GetPooledTransactionsRequest)]).length =
          service.fetchQueue.length + 1 := List.length_append
      exact ⟨(Nat.le_succ _).trans longer.symm.le, congrArg (max _) longer.symm⟩

theorem deepens_forEach (peerId : PeerId) (nowUnixMs : Int64) (nowMonoNs : UInt64)
    {service : P2pIngestService} (bounded : Bounded service) (hashes : List TxHash) :
    let next := (forEach (announce peerId nowUnixMs nowMonoNs) service hashes).2
    service.fetchQueue.length ≤ next.fetchQueue.length ∧
      next.metrics.queueDepthPeak =
        max service.metrics.queueDepthPeak next.fetchQueue.length := by
  induction hashes generalizing service with
  | nil => exact ⟨Nat.le_refl _, (Nat.max_eq_left bounded.peak).symm⟩
  | cons hash rest ih =>
      have step := announce_spec peerId nowUnixMs nowMonoNs service hash
      obtain ⟨longer, peak⟩ := step.deepens bounded
      obtain ⟨onward, deepest⟩ := ih (bounded.announced step)
      refine ⟨longer.trans onward, deepest.trans ?_⟩
      rw [peak, max_assoc, max_eq_right onward]
      rfl

/-- After a call the peak is at least what it was, and the depth. -/
theorem queueDepthPeak_call {service : P2pIngestService} (bounded : Bounded service) (call : Call) :
    (service.call call).2.metrics.queueDepthPeak =
      max service.metrics.queueDepthPeak (service.call call).2.fetchQueue.length := by
  cases call with
  | announced peerId hashes nowUnixMs nowMonoNs =>
      have started : Bounded (service.countAnnouncements hashes) :=
        ⟨bounded.room, bounded.single, bounded.queueWithin, bounded.newest, bounded.remembers,
          bounded.seenWithin, bounded.depth, bounded.peak⟩
      exact (deepens_forEach peerId nowUnixMs nowMonoNs started hashes).2
  | dequeued =>
      exact (Nat.max_eq_left ((service.fetchQueue.tail_sublist.length_le).trans bounded.peak)).symm
  | delivered peerId txs nowUnixMs nowMonoNs =>
      have same : (forEach (deliver nowUnixMs nowMonoNs) service txs).2.fetchQueue =
            service.fetchQueue ∧
          (forEach (deliver nowUnixMs nowMonoNs) service txs).2.metrics.queueDepthPeak =
            service.metrics.queueDepthPeak :=
        forEach_preserves (fun next => next.fetchQueue = service.fetchQueue ∧
          next.metrics.queueDepthPeak = service.metrics.queueDepthPeak) (fun _ _ same => same)
          ⟨rfl, rfl⟩ txs
      rw [P2pIngestService.call, handlePooledTransactions, same.1, same.2, Nat.max_eq_left bounded.peak]

/-- One call after a run. -/
theorem run_concat (service : P2pIngestService) (calls : List Call) (call : Call) :
    (service.run (calls ++ [call])).2 = ((service.run calls).2.call call).2 := by
  induction calls generalizing service with
  | nil => rfl
  | cons first rest ih => exact ih (service.call first).2

/-- The depths of the queue during a run. -/
def depths (service : P2pIngestService) (calls : List Call) : Set Nat :=
  {depth | ∃ earlier, earlier <+: calls ∧ (service.run earlier).2.fetchQueue.length = depth}

theorem queueDepthPeak_run {service : P2pIngestService} (bounded : Bounded service)
    (start : service.metrics.queueDepthPeak = service.fetchQueue.length) (calls : List Call) :
    IsGreatest (service.depths calls) (service.run calls).2.metrics.queueDepthPeak := by
  induction calls using List.reverseRecOn with
  | nil =>
      refine ⟨⟨[], List.prefix_refl _, start.symm⟩, ?_⟩
      rintro depth ⟨earlier, isPrefix, rfl⟩
      rw [List.prefix_nil.mp isPrefix]
      exact start.symm.le
  | append_singleton calls call ih =>
      have deeper := queueDepthPeak_call (bounded.run calls) call
      rw [run_concat, deeper]
      refine ⟨?_, ?_⟩
      · rcases max_choice (service.run calls).2.metrics.queueDepthPeak
          ((service.run calls).2.call call).2.fetchQueue.length with before | now
        · obtain ⟨earlier, isPrefix, depth⟩ := ih.1
          rw [before]
          exact ⟨earlier, isPrefix.trans (List.prefix_append _ _), depth⟩
        · rw [now]
          exact ⟨_, List.prefix_refl _, congrArg (·.fetchQueue.length) (run_concat service calls call)⟩
      · rintro depth ⟨earlier, isPrefix, rfl⟩
        rcases List.prefix_concat_iff.mp isPrefix with rfl | before
        · rw [run_concat]
          exact Nat.le_max_right _ _
        · exact (ih.2 ⟨earlier, before, rfl⟩).trans (Nat.le_max_left _ _)

/-! ## The books -/

/-- Says of a payload that it announces a hash as seen. -/
def isSeen : EventPayload → Bool
  | .txSeen _ => true
  | _ => false

/-- Says of a payload that it reports an announced hash, as seen or as dropped. -/
def isReport : EventPayload → Bool
  | .txSeen _ => true
  | .txDropped _ => true
  | _ => false

/-- What the events and the counters say of announced hashes. -/
structure Reports (announced : Nat) (hashes : List TxHash) (service : P2pIngestService)
    (events : List EventEnvelope) (next : P2pIngestService) : Prop where
  numbers : Numbers service.seqId events next.seqId
  reported : List.Forall₂ (fun hash event => ReportsHash hash event.payload) hashes
    (events.filter fun event => isReport event.payload)
  announcements : next.metrics.announcementsTotal =
    service.metrics.announcementsTotal + UInt64.ofNat announced
  counted : ∃ duplicates queueDropped,
    next.metrics.duplicatesDroppedTotal =
      service.metrics.duplicatesDroppedTotal + UInt64.ofNat duplicates ∧
    next.metrics.queueDroppedTotal =
      service.metrics.queueDroppedTotal + UInt64.ofNat queueDropped ∧
    hashes.length = events.countP (isSeen ·.payload) + duplicates + queueDropped

namespace Reports

/-- A step without events. -/
theorem silent {announced : Nat} {service next : P2pIngestService}
    (seqId : next.seqId = service.seqId)
    (announcements : next.metrics.announcementsTotal =
      service.metrics.announcementsTotal + UInt64.ofNat announced)
    (duplicates : next.metrics.duplicatesDroppedTotal = service.metrics.duplicatesDroppedTotal)
    (queueDropped : next.metrics.queueDroppedTotal = service.metrics.queueDroppedTotal) :
    Reports announced [] service [] next where
  numbers := seqId ▸ .none _
  reported := .nil
  announcements := announcements
  counted := ⟨0, 0, duplicates.trans (UInt64.add_zero _).symm,
    queueDropped.trans (UInt64.add_zero _).symm, rfl⟩

theorem refl (service : P2pIngestService) : Reports 0 [] service [] service :=
  silent rfl (UInt64.add_zero _).symm rfl rfl

theorem append {announced more : Nat} {hashes others : List TxHash}
    {service middle next : P2pIngestService} {events later : List EventEnvelope}
    (front : Reports announced hashes service events middle)
    (back : Reports more others middle later next) :
    Reports (announced + more) (hashes ++ others) service (events ++ later) next where
  numbers := front.numbers.append back.numbers
  reported := by
    rw [List.filter_append]
    exact List.rel_append front.reported back.reported
  announcements := by
    rw [back.announcements, front.announcements, UInt64.ofNat_add, UInt64.add_assoc]
  counted := by
    obtain ⟨duplicates, queueDropped, first, second, sum⟩ := front.counted
    obtain ⟨moreDuplicates, moreDropped, third, fourth, rest⟩ := back.counted
    refine ⟨duplicates + moreDuplicates, queueDropped + moreDropped, ?_, ?_, ?_⟩
    · rw [third, first, UInt64.ofNat_add, UInt64.add_assoc]
    · rw [fourth, second, UInt64.ofNat_add, UInt64.add_assoc]
    · rw [List.length_append, List.countP_append, sum, rest]
      omega

theorem announced {peerId : PeerId} {nowUnixMs : Int64} {nowMonoNs : UInt64}
    {service next : P2pIngestService} {hash : TxHash} {events : List EventEnvelope}
    (step : Announced peerId nowUnixMs nowMonoNs service hash events next) :
    Reports 0 [hash] service events next := by
  cases step with
  | duplicate first reason known =>
      exact ⟨.one rfl, .cons (.inr ⟨_, rfl, rfl⟩) .nil, (UInt64.add_zero _).symm,
        1, 0, rfl, (UInt64.add_zero _).symm, rfl⟩
  | queueFull reason unknown full =>
      exact ⟨.one rfl, .cons (.inr ⟨_, rfl, rfl⟩) .nil, (UInt64.add_zero _).symm,
        0, 1, (UInt64.add_zero _).symm, rfl, rfl⟩
  | accepted unknown room =>
      exact ⟨.one rfl, .cons (.inl ⟨_, rfl, rfl⟩) .nil, (UInt64.add_zero _).symm,
        0, 0, (UInt64.add_zero _).symm, (UInt64.add_zero _).symm, rfl⟩

theorem delivered (nowUnixMs : Int64) (nowMonoNs : UInt64) (service : P2pIngestService)
    (tx : P2pTxPayload) :
    Reports 0 [] service (deliver nowUnixMs nowMonoNs service tx).1
      (deliver nowUnixMs nowMonoNs service tx).2 :=
  ⟨(@Numbers.one service.seqId _ rfl).append (@Numbers.one (service.seqId + 1) _ rfl), .nil, (UInt64.add_zero _).symm,
    0, 0, (UInt64.add_zero _).symm, (UInt64.add_zero _).symm, rfl⟩

/-- One item after another. -/
theorem forEach {α : Type} {handle : P2pIngestService → α → List EventEnvelope × P2pIngestService}
    {announced : α → Nat} {hashes : α → List TxHash}
    (step : ∀ service item, Reports (announced item) (hashes item) service (handle service item).1
      (handle service item).2) (service : P2pIngestService) (items : List α) :
    Reports (items.map announced).sum (items.flatMap hashes) service
      (P2pIngestService.forEach handle service items).1
      (P2pIngestService.forEach handle service items).2 := by
  induction items generalizing service with
  | nil => exact refl service
  | cons item rest ih =>
      rw [List.map_cons, List.sum_cons, List.flatMap_cons]
      exact (step service item).append (ih (handle service item).2)

end Reports

/-- The hashes a call announces. -/
def Call.announcedHashes : Call → List TxHash
  | .announced _ hashes _ _ => hashes
  | .dequeued => []
  | .delivered .. => []

theorem reports_call (service : P2pIngestService) (call : Call) :
    Reports call.announcedHashes.length call.announcedHashes service (service.call call).1
      (service.call call).2 := by
  cases call with
  | announced peerId hashes nowUnixMs nowMonoNs =>
      have counted : Reports hashes.length [] service [] (service.countAnnouncements hashes) :=
        .silent rfl rfl rfl rfl
      have each := Reports.forEach (fun service hash => Reports.announced
        (announce_spec peerId nowUnixMs nowMonoNs service hash)) (service.countAnnouncements hashes)
        hashes
      rw [List.flatMap_singleton', List.map_const', List.sum_replicate,
        smul_zero] at each
      exact counted.append each
  | dequeued => exact .silent rfl (UInt64.add_zero _).symm rfl rfl
  | delivered peerId txs nowUnixMs nowMonoNs =>
      have each := Reports.forEach (Reports.delivered nowUnixMs nowMonoNs) service txs
      rw [List.map_const', List.sum_replicate, smul_zero, List.flatMap_eq_nil_iff.mpr fun _ _ => rfl] at each
      exact each

/-- The hashes a run announces. -/
def announcedHashes (calls : List Call) : List TxHash :=
  calls.flatMap (·.announcedHashes)

theorem reports_run (service : P2pIngestService) (calls : List Call) :
    Reports (announcedHashes calls).length (announcedHashes calls) service (service.run calls).1
      (service.run calls).2 := by
  have each := Reports.forEach reports_call service calls
  rwa [← List.length_flatMap] at each

/-- **The invariants of the ingest** after a run of calls. -/
structure Sound (start : P2pIngestService) (calls : List Call) : Prop where
  queueWithin : (start.run calls).2.fetchQueue.length ≤ start.config.fetchQueueCapacity
  queueDistinct : (start.run calls).2.queuedHashes.Nodup
  queueRemembered : ∀ hash ∈ (start.run calls).2.queuedHashes, hash ∈ (start.run calls).2.firstSeen
  seenDistinct : (start.run calls).2.seenOrder.Nodup
  seenSame : ∀ hash, hash ∈ (start.run calls).2.firstSeen ↔ hash ∈ (start.run calls).2.seenOrder
  seenWithin : (start.run calls).2.seenOrder.length ≤ start.config.maxSeenHashes
  accounted : (start.run calls).2.metrics.announcementsTotal =
    UInt64.ofNat ((start.run calls).1.countP (isSeen ·.payload)) +
      (start.run calls).2.metrics.duplicatesDroppedTotal +
      (start.run calls).2.metrics.queueDroppedTotal
  /-- The counters are exact until they wrap. -/
  accountedExactly : (announcedHashes calls).length < 2 ^ 64 →
    (start.run calls).2.metrics.announcementsTotal.toNat =
      (start.run calls).1.countP (isSeen ·.payload) +
        (start.run calls).2.metrics.duplicatesDroppedTotal.toNat +
        (start.run calls).2.metrics.queueDroppedTotal.toNat
  depthCurrent : (start.run calls).2.metrics.queueDepthCurrent =
    (start.run calls).2.fetchQueue.length
  depthPeak : IsGreatest (start.depths calls) (start.run calls).2.metrics.queueDepthPeak
  numbered : (start.run calls).1.map (·.seqId) = seqIdsFrom 1 (start.run calls).1.length
  reported : List.Forall₂ (fun hash event => ReportsHash hash event.payload) (announcedHashes calls)
    ((start.run calls).1.filter fun event => isReport event.payload)

/-- **The ingest is sound after every run**, when its memory is at least as large as its queue. -/
theorem sound_run (config : P2pIngestConfig) (sourceId : SourceId)
    (room : config.fetchQueueCapacity ≤ config.maxSeenHashes) (calls : List Call) :
    Sound (.new config sourceId) calls := by
  have start := Bounded.new room sourceId
  have bounded := start.run calls
  have reports := reports_run (.new config sourceId) calls
  have sameConfig := config_run (.new config sourceId) calls
  obtain ⟨duplicates, queueDropped, first, second, sum⟩ := reports.counted
  have total := reports.announcements
  have zero : (new config sourceId).metrics.announcementsTotal = 0 := rfl
  rw [zero, UInt64.zero_add] at total
  have noDuplicates : (new config sourceId).metrics.duplicatesDroppedTotal = 0 := rfl
  rw [noDuplicates, UInt64.zero_add] at first
  have noDropped : (new config sourceId).metrics.queueDroppedTotal = 0 := rfl
  rw [noDropped, UInt64.zero_add] at second
  exact
    { queueWithin := sameConfig ▸ bounded.queueWithin
      queueDistinct := bounded.remembers.distinct.sublist bounded.newest.sublist
      queueRemembered := fun hash queued =>
        (bounded.remembers.holds hash).mpr (bounded.newest.subset queued)
      seenDistinct := bounded.remembers.distinct
      seenSame := bounded.remembers.holds
      seenWithin := sameConfig ▸ bounded.seenWithin
      accounted := by
        rw [total, first, second, sum, UInt64.ofNat_add, UInt64.ofNat_add]
      accountedExactly := by
        intro small
        have fewDuplicates : duplicates < 2 ^ 64 := by omega
        have fewDropped : queueDropped < 2 ^ 64 := by omega
        rw [total, first, second, UInt64.toNat_ofNat_of_lt' small,
          UInt64.toNat_ofNat_of_lt' fewDuplicates, UInt64.toNat_ofNat_of_lt' fewDropped]
        exact sum
      depthCurrent := bounded.depth
      depthPeak := queueDepthPeak_run start rfl calls
      numbered := reports.numbers.numbered
      reported := reports.reported }

/-- A burst that fills the queue, a fetch, a duplicate and a delivery. -/
def burst : List Call :=
  [.announced "peer-a" [1, 2, 3] 1700000000000 10, .dequeued,
    .announced "peer-b" [1, 4] 1700000000011 20, .delivered "peer-a" [⟨1, 2, 7, 5⟩] 1700000000020 30]

theorem sound_burst : Sound (.new { fetchQueueCapacity := 2, maxSeenHashes := 2 } "p2p") burst :=
  sound_run _ _ (Nat.le_refl 2) burst

end P2pIngestService

end Mempulse.Ingest
