import Mempulse.Library.LastWord
import Mempulse.Replay.SlotInvariant

/-!
# What the lifecycle model reads of an ingest

The ingest services emit observations, decoded transactions and drops. The lifecycle model makes a
decoded transaction pending in the slot of its sender and nonce, and a drop ends it whatever its
reason. So a transaction that was decoded is pending at the end exactly when every drop of its hash,
and every other transaction decoded into its slot, is followed by another decoding of it
(`decodedStand_iff`).
-/

set_option autoImplicit false

namespace Mempulse.Ingest

open Std EventLog Library Scheduler Replay MempoolState

/-- The lifecycle event of an ingest step. -/
inductive Reading where
  | decoded (hash : TxHash) (place : Address × UInt64)
  | dropped (hash : TxHash)
  | passed
  deriving DecidableEq

namespace Reading

/-- Whether a reading decodes the hash. -/
def decodes (hash : TxHash) : Reading → Bool
  | .decoded other _ => other = hash
  | _ => false

/-- The step drops the hash, or decodes another one into its slot. -/
def unseats (places : TxHash → Address × UInt64) (hash : TxHash) : Reading → Bool
  | .decoded other place => other ≠ hash ∧ place = places hash
  | .dropped other => other = hash
  | .passed => false

theorem decodes_eq_false_of_unseats {places : TxHash → Address × UInt64} {hash : TxHash}
    (reading : Reading) (unseats : reading.unseats places hash = true) :
    reading.decodes hash = false := by
  cases reading with
  | decoded other place =>
      have differs := (of_decide_eq_true unseats).1
      exact decide_eq_false differs
  | dropped other => rfl
  | passed => rfl

/-- The payloads of an ingest step have the lifecycle event of the reading and no other. -/
def Spells (reading : Reading) (payloads : List EventPayload) : Prop :=
  match reading with
  | .decoded hash place => ∃ decoded, payloads.filter isLifecycle = [.txDecoded decoded] ∧
      decoded.hash = hash ∧ (decoded.sender, decoded.nonce) = place
  | .dropped hash => ∃ reason,
      payloads.filter isLifecycle = [.txDropped { hash := hash, reason := reason }]
  | .passed => payloads.filter isLifecycle = []

end Reading

/-- A list of readings and the payloads of their steps. -/
inductive Spelled : List Reading → List EventPayload → Prop
  | nil : Spelled [] []
  | cons {reading : Reading} {readings : List Reading} {front back : List EventPayload}
      (head : reading.Spells front) (tail : Spelled readings back) :
      Spelled (reading :: readings) (front ++ back)

theorem Spelled.append {earlier later : List Reading} {front back : List EventPayload}
    (first : Spelled earlier front) (second : Spelled later back) :
    Spelled (earlier ++ later) (front ++ back) := by
  induction first with
  | nil => exact second
  | cons head _ ih =>
      rw [List.append_assoc]
      exact .cons head ih

/-- A hash is decoded in the payloads exactly when a reading decodes it. -/
theorem Spelled.decodes_iff {readings : List Reading} {payloads : List EventPayload}
    (spelled : Spelled readings payloads) (hash : TxHash) :
    (∃ decoded, .txDecoded decoded ∈ payloads ∧ decoded.hash = hash) ↔
      ∃ reading ∈ readings, reading.decodes hash = true := by
  have lifecycle : ∀ (payloads : List EventPayload) (decoded : TxDecoded),
      .txDecoded decoded ∈ payloads ↔ .txDecoded decoded ∈ payloads.filter isLifecycle := by
    intro payloads decoded
    rw [List.mem_filter]
    exact ⟨fun member => ⟨member, rfl⟩, And.left⟩
  induction spelled with
  | nil => simp
  | @cons reading readings front back head _ ih =>
      have first : (∃ decoded, .txDecoded decoded ∈ front ∧ decoded.hash = hash) ↔
          reading.decodes hash = true := by
        simp only [lifecycle front]
        cases reading with
        | decoded other place =>
            obtain ⟨decoded, only, rfl, rfl⟩ := head
            rw [only]
            simp [Reading.decodes]
        | dropped other =>
            obtain ⟨reason, only⟩ := head
            rw [only]
            simp [Reading.decodes]
        | passed =>
            have none : front.filter isLifecycle = [] := head
            rw [none]
            simp [Reading.decodes]
      have parts : (∃ decoded, .txDecoded decoded ∈ front ++ back ∧ decoded.hash = hash) ↔
          (∃ decoded, .txDecoded decoded ∈ front ∧ decoded.hash = hash) ∨
            ∃ decoded, .txDecoded decoded ∈ back ∧ decoded.hash = hash := by
        simp only [List.mem_append, or_and_right, exists_or]
      refine (parts.trans (or_congr first ih)).trans ?_
      simp only [List.mem_cons, exists_eq_or_imp]

/-! ## The lifecycle model -/

section Standing

variable {places : TxHash → Address × UInt64} {state : MempoolState} {readings : List Reading}

/-- The pending transactions are known with their places, and they are those whose last reading
decodes them. -/
structure Standing (places : TxHash → Address × UInt64) (readings : List Reading)
    (state : MempoolState) : Prop where
  slots : SlotInvariant state
  knows : Knows places state
  placed : ∀ ⦃hash⦄, state.lifecycle hash = some .pending →
    state.profile hash = some ⟨some (places hash).1, some (places hash).2, .pending⟩
  pending : ∀ hash, state.lifecycle hash = some .pending ↔
    flagAfter (Reading.decodes hash) (Reading.unseats places hash) readings = true

theorem Standing.empty (places : TxHash → Address × UInt64) : Standing places [] {} where
  slots := SlotInvariant.empty
  knows := fun hash sender nonce status known => by simp [profile] at known
  placed := fun hash pending => by simp [lifecycle] at pending
  pending := fun hash => by simp [lifecycle]

/-- A hash sits in a slot exactly when it is pending and the slot is its own. -/
theorem Standing.slot_eq_some_iff (standing : Standing places readings state)
    {sender : Address} {nonce : UInt64} {hash : TxHash} : state.slot sender nonce = some hash ↔
      state.lifecycle hash = some .pending ∧ (sender, nonce) = places hash := by
  constructor
  · intro held
    have known := standing.slots.named held
    refine ⟨?_, standing.knows known⟩
    rw [lifecycle_eq, known]
    rfl
  · rintro ⟨pending, own⟩
    have known := standing.placed pending
    rw [← own] at known
    exact standing.slots.seated known

/-- A decoded transaction is pending, and the one that was in its slot is not any more. -/
theorem Standing.lifecycle_applyDecoded (standing : Standing places readings state)
    {decoded : TxDecoded} (hash : TxHash) :
    (state.applyDecoded decoded).2.lifecycle hash = some .pending ↔
      decoded.hash = hash ∨ state.lifecycle hash = some .pending ∧
        (decoded.sender, decoded.nonce) ≠ places hash := by
  rw [lifecycle_eq, profile_applyDecoded]
  by_cases same : decoded.hash = hash
  · rw [if_pos same]
    exact iff_of_true rfl (.inl same)
  · rw [if_neg same]
    by_cases here : state.slot decoded.sender decoded.nonce = some hash
    · obtain ⟨pending, own⟩ := standing.slot_eq_some_iff.mp here
      rw [if_pos here, standing.placed pending]
      exact iff_of_false (fun replaced => nomatch replaced)
        (not_or.mpr ⟨same, fun both => both.2 own⟩)
    · rw [if_neg here, ← lifecycle_eq]
      constructor
      · exact fun pending => .inr
          ⟨pending, fun own => here (standing.slot_eq_some_iff.mpr ⟨pending, own⟩)⟩
      · exact fun stays => (stays.resolve_left same).1

theorem Standing.decoded (standing : Standing places readings state) {decoded : TxDecoded}
    (own : (decoded.sender, decoded.nonce) = places decoded.hash) :
    Standing places (readings ++ [.decoded decoded.hash (decoded.sender, decoded.nonce)])
      (state.applyDecoded decoded).2 := by
  have placed : Placed places (.txDecoded decoded) := by
    rintro hash place ⟨⟩
    exact own
  refine ⟨standing.slots.applyDecoded standing.knows own, standing.knows.step placed,
    fun hash pending => ?_, fun hash => ?_⟩
  · rw [profile_applyDecoded]
    rcases (standing.lifecycle_applyDecoded hash).mp pending with same | ⟨before, elsewhere⟩
    · rw [if_pos same, ← same, ← own]
    · have vacant : state.slot decoded.sender decoded.nonce ≠ some hash :=
        fun held => elsewhere (standing.slot_eq_some_iff.mp held).2
      by_cases same : decoded.hash = hash
      · rw [if_pos same, ← same, ← own]
      · rw [if_neg same, if_neg vacant]
        exact standing.placed before
  · rw [standing.lifecycle_applyDecoded, flagAfter_append_singleton, standing.pending]
    simp only [Reading.decodes, Reading.unseats, Bool.or_eq_true, Bool.and_eq_true,
      decide_eq_true_eq, Bool.not_eq_true', decide_eq_false_iff_not]
    constructor
    · exact Or.imp_right fun stays => ⟨stays.1, fun unseats => stays.2 unseats.2⟩
    · rintro (same | ⟨up, stays⟩)
      · exact .inl same
      · by_cases same : decoded.hash = hash
        · exact .inl same
        · exact .inr ⟨up, fun place => stays ⟨same, place⟩⟩

theorem Standing.dropped (standing : Standing places readings state) (hash : TxHash)
    (reason : String) : Standing places (readings ++ [.dropped hash])
      (state.retire hash (.dropped reason)) := by
  have lifecycle : ∀ other, (state.retire hash (.dropped reason)).lifecycle other = some .pending ↔
      state.lifecycle other = some .pending ∧ hash ≠ other := by
    intro other
    rw [lifecycle_eq, profile_retire]
    split
    case isTrue same =>
      exact iff_of_false (fun dropped => nomatch dropped) fun both => both.2 same
    case isFalse differs =>
      rw [← lifecycle_eq]
      exact ⟨fun pending => ⟨pending, differs⟩, And.left⟩
  refine ⟨standing.slots.retire (by simp), standing.knows.retire _, fun other pending => ?_,
    fun other => ?_⟩
  · obtain ⟨before, differs⟩ := (lifecycle other).mp pending
    rw [profile_retire, if_neg differs]
    exact standing.placed before
  · rw [lifecycle, flagAfter_append_singleton, standing.pending]
    simp [Reading.decodes, Reading.unseats]

/-- **What the payloads of one step do to the pending transactions.** -/
theorem Standing.step (standing : Standing places readings state) {reading : Reading}
    {payloads : List EventPayload} (spells : reading.Spells payloads)
    (own : ∀ hash place, reading = .decoded hash place → place = places hash) :
    Standing places (readings ++ [reading]) (state.replay payloads) := by
  rw [← replay_filter]
  cases reading with
  | decoded hash place =>
      obtain ⟨decoded, only, rfl, rfl⟩ := spells
      rw [only]
      exact standing.decoded (own _ _ rfl)
  | dropped hash =>
      obtain ⟨reason, only⟩ := spells
      rw [only]
      exact standing.dropped hash reason
  | passed =>
      have none : payloads.filter isLifecycle = [] := spells
      rw [none]
      refine ⟨standing.slots, standing.knows, standing.placed, fun hash => ?_⟩
      rw [flagAfter_append_singleton]
      simp only [Reading.decodes, Reading.unseats, Bool.false_or, Bool.not_false, Bool.and_true]
      exact standing.pending hash

theorem Standing.replay (standing : Standing places readings state) {later : List Reading}
    {payloads : List EventPayload} (spelled : Spelled later payloads)
    (own : ∀ hash place, .decoded hash place ∈ later → place = places hash) :
    Standing places (readings ++ later) (state.replay payloads) := by
  induction spelled generalizing readings state with
  | nil =>
      rw [List.append_nil]
      exact standing
  | @cons reading others front back head _ ih =>
      have first := standing.step head fun hash place same => own hash place (by simp [same])
      have whole := ih first fun hash place listed => own hash place (.tail _ listed)
      rw [List.append_assoc] at whole
      rw [replay_append]
      exact whole

/-- Every transaction for which a decoding was emitted is pending once the payloads are folded. -/
def DecodedStand (payloads : List EventPayload) : Prop :=
  ∀ decoded, .txDecoded decoded ∈ payloads →
    (MempoolState.replay {} payloads).lifecycle decoded.hash = some .pending

/-- Whether the transaction of a decoding is pending. -/
def stands (state : MempoolState) : EventPayload → Bool
  | .txDecoded decoded => state.lifecycle decoded.hash = some .pending
  | _ => true

instance (payloads : List EventPayload) : Decidable (DecodedStand payloads) :=
  decidable_of_iff (payloads.all (stands (MempoolState.replay {} payloads)) = true) <| by
    rw [List.all_eq_true]
    constructor
    · exact fun all decoded member => of_decide_eq_true (all _ member)
    · intro stand payload member
      cases payload with
      | txDecoded decoded => exact decide_eq_true (stand decoded member)
      | _ => rfl

/-- **Every decoded transaction is pending exactly when each is decoded again after every step that
unseats it.** -/
theorem decodedStand_iff {payloads : List EventPayload} (spelled : Spelled readings payloads)
    (own : ∀ hash place, .decoded hash place ∈ readings → place = places hash) :
    DecodedStand payloads ↔
      ∀ hash, Reraised (Reading.decodes hash) (Reading.unseats places hash) readings := by
  have standing := (Standing.empty places).replay spelled own
  rw [List.nil_append] at standing
  have each : DecodedStand payloads ↔
      ∀ hash, (∃ reading ∈ readings, reading.decodes hash = true) →
        (MempoolState.replay {} payloads).lifecycle hash = some .pending := by
    constructor
    · intro stand hash named
      obtain ⟨decoded, member, rfl⟩ := (spelled.decodes_iff hash).mpr named
      exact stand decoded member
    · intro stand decoded member
      exact stand decoded.hash ((spelled.decodes_iff decoded.hash).mp ⟨decoded, member, rfl⟩)
  rw [each]
  refine forall_congr' fun hash => ?_
  rw [standing.pending hash]
  exact flagAfter_iff_reraised (Reading.decodes_eq_false_of_unseats)

end Standing

end Mempulse.Ingest
