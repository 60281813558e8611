import Mempulse.EventLog
import Mempulse.Library.Sorting

/-!
# The deterministic order of events

Events are ordered by sequence id, then by source, then by the hash they are about. The order is
a total preorder: different events can have one key.
-/

set_option autoImplicit false

namespace Mempulse.EventLog

open Std Library

/-- Stable sort key for event envelopes. -/
structure EventOrderKey where
  seqId : UInt64
  sourceId : SourceId
  hash : TxHash
  deriving DecidableEq

/-- The derived order of the keys, field by field. -/
def EventOrderKey.cmp : EventOrderKey → EventOrderKey → Ordering :=
  compareLex (compareOn (·.seqId)) (compareLex (compareOn (·.sourceId)) (compareOn (·.hash)))

instance : TransCmp EventOrderKey.cmp := by
  unfold EventOrderKey.cmp
  infer_instance

instance : LawfulEqCmp EventOrderKey.cmp where
  eq_of_compare := by
    rintro ⟨seqId, sourceId, hash⟩ ⟨otherSeqId, otherSourceId, otherHash⟩ same
    simp only [EventOrderKey.cmp, compareLex, compareOn, Ordering.then_eq_eq,
      Std.compare_eq_iff_eq] at same
    obtain ⟨rfl, rfl, rfl⟩ := same
    rfl

/-- The key of an event in the deterministic order. -/
def EventEnvelope.orderKey (event : EventEnvelope) : EventOrderKey where
  seqId := event.seqId
  sourceId := event.sourceId
  hash := event.payload.primaryHash

/-- Compares two events using the canonical deterministic order. -/
def cmpDeterministic (left right : EventEnvelope) : Ordering := left.orderKey.cmp right.orderKey

/-- Sorts events in canonical deterministic order. -/
def sortDeterministic (events : List EventEnvelope) : List EventEnvelope :=
  stableSort cmpDeterministic events

instance : TransCmp cmpDeterministic where
  eq_swap := swap_eq EventOrderKey.cmp _ _
  isLE_trans earlier later := @TransCmp.isLE_trans _ EventOrderKey.cmp _ _ _ _ earlier later

theorem cmpDeterministic_eq_iff {left right : EventEnvelope} :
    cmpDeterministic left right = .eq ↔ left.orderKey = right.orderKey :=
  ⟨fun same => LawfulEqCmp.eq_of_compare same, fun same => by
    rw [cmpDeterministic, same]
    exact ReflCmp.compare_self⟩

theorem cmpDeterministic_of_lt {left right : EventEnvelope}
    (below : left.seqId.toNat < right.seqId.toNat) : cmpDeterministic left right = .lt := by
  have first : compare left.seqId right.seqId = .lt :=
    Std.compare_eq_lt.mpr (UInt64.lt_iff_toNat_lt.mpr below)
  simp only [cmpDeterministic, EventOrderKey.cmp, compareLex, compareOn, EventEnvelope.orderKey,
    first]
  rfl

theorem seqId_le_of_isLE {left right : EventEnvelope}
    (below : (cmpDeterministic left right).isLE = true) : left.seqId.toNat ≤ right.seqId.toNat := by
  by_contra above
  have greater := cmpDeterministic_of_lt (Nat.lt_of_not_le above)
  rw [swap_eq cmpDeterministic, greater] at below
  cases below

/-- Events in increasing sequence order are in deterministic order. -/
theorem ordered_of_increasing {events : List EventEnvelope}
    (increasing : events.Pairwise fun earlier later => earlier.seqId.toNat < later.seqId.toNat) :
    Ordered cmpDeterministic events := by
  refine increasing.imp fun below => ?_
  rw [cmpDeterministic_of_lt below]
  rfl

theorem sortDeterministic_of_increasing {events : List EventEnvelope}
    (increasing : events.Pairwise fun earlier later => earlier.seqId.toNat < later.seqId.toNat) :
    sortDeterministic events = events :=
  stableSort_eq_self (ordered_of_increasing increasing)

/-- Sorted events with different sequence ids are in increasing sequence order. -/
theorem increasing_sortDeterministic {events : List EventEnvelope}
    (distinct : (events.map (·.seqId)).Nodup) :
    (sortDeterministic events).Pairwise fun earlier later => earlier.seqId < later.seqId := by
  have sorted : ((sortDeterministic events).map (·.seqId)).Nodup :=
    ((stableSort_perm cmpDeterministic events).map (·.seqId)).nodup_iff.mpr distinct
  refine ((ordered_stableSort events).and (List.pairwise_map.mp sorted)).imp ?_
  intro earlier later both
  have below := seqId_le_of_isLE both.1
  have differ : earlier.seqId.toNat ≠ later.seqId.toNat := fun same =>
    both.2 (UInt64.toNat_inj.mp same)
  exact UInt64.lt_iff_toNat_lt.mpr (by omega)

/-- **Sorting events does not depend on the order of the input** when no two share a key. -/
theorem sortDeterministic_eq_of_perm {events other : List EventEnvelope} (same : events.Perm other)
    (keys : (events.map (·.orderKey)).Nodup) : sortDeterministic events = sortDeterministic other := by
  apply stableSort_eq_of_perm same
  intro left inEvents right alsoInEvents equal
  exact List.inj_on_of_nodup_map keys inEvents alsoInEvents (cmpDeterministic_eq_iff.mp equal)

end Mempulse.EventLog
