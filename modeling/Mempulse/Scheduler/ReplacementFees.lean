import Mempulse.Scheduler.Invariant

/-!
# Replacement fees

A transaction takes an occupied slot when its fee reaches a threshold computed from the
incumbent's. The threshold is the exact one, rounded up, as long as the product of the incumbent's
fee and the bump fits a `u128`. A product that does not fit is cut to `u128::MAX`, and then a
cheaper transaction can take the slot.
-/

set_option autoImplicit false

namespace Mempulse.Scheduler

open Std Library

/-! ## The threshold -/

/-- The fee bump in exact integer arithmetic. -/
def PaysBump (feeBumpBps : UInt16) (incumbent tx : ValidatedTransaction) : Prop :=
  incumbent.replacementFee * (10000 + feeBumpBps.toNat) ≤ tx.replacementFee * 10000

/-- The fee reaches the saturated threshold and not the exact one. Then the product of the
incumbent's fee and the bump does not fit a `u128`. -/
def InSaturationGap (feeBumpBps : UInt16) (incumbent tx : ValidatedTransaction) : Prop :=
  u128Max ≤ tx.replacementFee * 10000 ∧
    tx.replacementFee * 10000 < incumbent.replacementFee * (10000 + feeBumpBps.toNat)

instance (feeBumpBps : UInt16) (incumbent tx : ValidatedTransaction) :
    Decidable (InSaturationGap feeBumpBps incumbent tx) :=
  inferInstanceAs (Decidable (_ ∧ _))

/-- A fee reaches the threshold when it pays the saturated product. -/
theorem replacementThresholdFee_le_iff {incumbent : ValidatedTransaction} {feeBumpBps : UInt16}
    {fee : Nat} : replacementThresholdFee incumbent feeBumpBps ≤ fee ↔
      min (incumbent.replacementFee * (10000 + feeBumpBps.toNat)) u128Max ≤ fee * 10000 := by
  have bump := feeBumpBps.toNat_lt
  have exact : saturatingAdd u128Max 10000 feeBumpBps.toNat = 10000 + feeBumpBps.toNat :=
    saturatingAdd_of_le (by rw [u128Max]; omega)
  rw [replacementThresholdFee, exact, saturatingMul]
  omega

/-- Paying the exact bump reaches the threshold, saturated or not. -/
theorem PaysBump.reaches {feeBumpBps : UInt16} {incumbent tx : ValidatedTransaction}
    (pays : PaysBump feeBumpBps incumbent tx) :
    replacementThresholdFee incumbent feeBumpBps ≤ tx.replacementFee :=
  replacementThresholdFee_le_iff.mpr ((Nat.min_le_left _ _).trans pays)

/-- Outside the gap the threshold is the exact one. -/
theorem paysBump_of_reaches {feeBumpBps : UInt16} {incumbent tx : ValidatedTransaction}
    (reaches : replacementThresholdFee incumbent feeBumpBps ≤ tx.replacementFee)
    (outside : ¬ InSaturationGap feeBumpBps incumbent tx) : PaysBump feeBumpBps incumbent tx := by
  have covered := replacementThresholdFee_le_iff.mp reaches
  unfold InSaturationGap at outside
  unfold PaysBump
  omega

/-- A fee in the gap reaches the threshold. -/
theorem InSaturationGap.reaches {feeBumpBps : UInt16} {incumbent tx : ValidatedTransaction}
    (gap : InSaturationGap feeBumpBps incumbent tx) :
    replacementThresholdFee incumbent feeBumpBps ≤ tx.replacementFee :=
  replacementThresholdFee_le_iff.mpr ((Nat.min_le_right _ _).trans gap.1)

theorem PaysBump.le {feeBumpBps : UInt16} {incumbent tx : ValidatedTransaction}
    (pays : PaysBump feeBumpBps incumbent tx) : incumbent.replacementFee ≤ tx.replacementFee := by
  refine Nat.le_of_mul_le_mul_right ?_ (Nat.zero_lt_succ 9999)
  exact (Nat.mul_le_mul_left _ (Nat.le_add_right _ _)).trans pays

/-! ## The occupant of a slot -/

namespace SchedulerState

/-- The pending transaction that holds a sender's nonce. -/
def occupant (state : SchedulerState) (sender : Address) (nonce : UInt64) :
    Option ValidatedTransaction :=
  (state.slot sender nonce).bind (state.pending[·]?)

theorem occupant_eq_some_iff {state : SchedulerState} {sender : Address} {nonce : UInt64}
    {held : ValidatedTransaction} : state.occupant sender nonce = some held ↔
      ∃ hash, state.slot sender nonce = some hash ∧ state.pending[hash]? = some held := by
  rw [occupant, Option.bind_eq_some_iff]

/-- The state after the admissions of a list of transactions. -/
def after (config : SchedulerConfig) (txs : List ValidatedTransaction) : SchedulerState :=
  (admitAll {} config txs).2

theorem admitAll_append (state : SchedulerState) (config : SchedulerConfig)
    (earlier later : List ValidatedTransaction) :
    (state.admitAll config (earlier ++ later)).2 =
      ((state.admitAll config earlier).2.admitAll config later).2 := by
  induction earlier generalizing state with
  | nil => rfl
  | cons tx rest ih => exact ih (state.admitTx tx config).2

theorem after_snoc (config : SchedulerConfig) (earlier : List ValidatedTransaction)
    (tx : ValidatedTransaction) :
    after config (earlier ++ [tx]) = ((after config earlier).admitTx tx config).2 :=
  admitAll_append {} config earlier [tx]

end SchedulerState

open SchedulerState (after)

theorem RepresentationInvariant.after (config : SchedulerConfig) (txs : List ValidatedTransaction) :
    RepresentationInvariant config (SchedulerState.after config txs) := by
  induction txs using List.reverseRecOn with
  | nil => exact .empty config
  | append_singleton earlier tx ih =>
      rw [SchedulerState.after_snoc]
      exact ih.admitTx tx

/-- **What an admission does to the occupant of a slot.** It stays, or the transaction admitted has
its sender and nonce, has replaced it, and reached the threshold. -/
theorem Seating.occupant_admitTx {state : SchedulerState} (seating : Seating state)
    {config : SchedulerConfig} {tx held : ValidatedTransaction} {sender : Address} {nonce : UInt64}
    (occupied : state.occupant sender nonce = some held) :
    (state.admitTx tx config).2.occupant sender nonce = some held ∨
      (state.admitTx tx config).2.occupant sender nonce = some tx ∧
        (state.admitTx tx config).1.admission = .replaced held.hash ∧
        state.pending[held.hash]? = some held := by
  obtain ⟨hash, named, stored⟩ := SchedulerState.occupant_eq_some_iff.mp occupied
  obtain ⟨found, sameFound, atSender, atNonce⟩ := seating.occupied named
  cases stored.symm.trans sameFound
  -- A transaction seated elsewhere, under another hash, leaves the slot and its holder.
  have elsewhere : ∀ (start : SchedulerState) (pending : ExtTreeMap TxHash ValidatedTransaction),
      start.slot sender nonce = some hash → pending[hash]? = some held → tx.hash ≠ hash →
      ¬ (tx.decoded.sender = sender ∧ tx.decoded.nonce = nonce) →
      (start.seat pending tx).occupant sender nonce = some held := by
    intro start pending named stored distinct apart
    refine SchedulerState.occupant_eq_some_iff.mpr ⟨hash, ?_, ?_⟩
    · rw [SchedulerState.slot_seat, if_neg apart, named]
    · rw [SchedulerState.pending_seat, getElem?_insert_eq, if_neg distinct, stored]
  have distinct : state.pending[tx.hash]? = none → tx.hash ≠ hash := by
    rintro fresh rfl
    rw [fresh] at stored
    cases stored
  refine SchedulerState.admit_cases (motive := fun admitted =>
    admitted.2.occupant sender nonce = some held ∨
      admitted.2.occupant sender nonce = some tx ∧
        admitted.1.admission = .replaced held.hash ∧ state.pending[held.hash]? = some held)
    ?duplicate ?dangling ?replaced ?underpriced ?limited ?admitted
  case duplicate => exact fun _ => .inl occupied
  case dangling => exact fun _ _ taken missing => absurd missing (seating.noDanglingSlot taken)
  case replaced =>
    rintro incumbentHash incumbent fresh taken present - next rfl
    by_cases here : tx.decoded.sender = sender ∧ tx.decoded.nonce = nonce
    · right
      rw [here.1, here.2, named] at taken
      cases taken
      have keyed : held.hash = hash := seating.keyed stored
      refine ⟨SchedulerState.occupant_eq_some_iff.mpr ⟨tx.hash, ?_, ?_⟩, ?_, ?_⟩
      · rw [SchedulerState.slot_seat, if_pos here]
      · rw [SchedulerState.pending_seat, getElem?_insert_eq, if_pos rfl]
      · rw [keyed, SchedulerState.seatedOutcome]
      · rw [keyed, stored]
    · left
      refine elsewhere _ _ named ?_ (distinct fresh) here
      rw [getElem?_erase_eq, if_neg, stored]
      rintro rfl
      obtain ⟨other, found, otherSender, otherNonce⟩ := seating.occupied taken
      cases stored.symm.trans found
      exact here ⟨otherSender.symm.trans atSender, otherNonce.symm.trans atNonce⟩
  case underpriced => exact fun _ _ _ _ _ _ => .inl occupied
  case limited => exact fun _ _ _ => .inl occupied
  case admitted =>
    intro fresh vacant _
    left
    refine elsewhere _ _ named stored (distinct fresh) ?_
    rintro ⟨rfl, rfl⟩
    rw [named] at vacant
    cases vacant

/-! ## A whole run -/

/-- **Replacement fees only go up.** Every replacement pays the bump, no payment of the bump is
refused as underpriced, and the fee of a slot's occupant never decreases. -/
structure FeesOnlyRise (config : SchedulerConfig) (txs : List ValidatedTransaction) : Prop where
  paid : ∀ earlier tx later replacedHash, txs = earlier ++ tx :: later →
    ((after config earlier).admitTx tx config).1.admission = .replaced replacedHash →
      ∃ incumbent, (after config earlier).pending[replacedHash]? = some incumbent ∧
        PaysBump config.replacementFeeBumpBps incumbent tx
  accepted : ∀ earlier tx later incumbent, txs = earlier ++ tx :: later →
    (after config earlier).occupant tx.decoded.sender tx.decoded.nonce = some incumbent →
      PaysBump config.replacementFeeBumpBps incumbent tx →
        ((after config earlier).admitTx tx config).1.admission ≠ .underpricedReplacement
  rising : ∀ earlier amid later sender nonce held, txs = earlier ++ amid ++ later →
    (after config earlier).occupant sender nonce = some held →
      ∃ next, (after config (earlier ++ amid)).occupant sender nonce = some next ∧
        held.replacementFee ≤ next.replacementFee

section Step

variable {state : SchedulerState} {config : SchedulerConfig} {tx : ValidatedTransaction}

/-- The admission does not meet an incumbent with a fee in the gap. -/
def GapAvoided (config : SchedulerConfig) (state : SchedulerState) (tx : ValidatedTransaction) :
    Prop :=
  state.pending[tx.hash]? = none → ∀ incumbent,
    state.occupant tx.decoded.sender tx.decoded.nonce = some incumbent →
      ¬ InSaturationGap config.replacementFeeBumpBps incumbent tx

/-- What a replacement has checked. -/
theorem reaches_of_replaced {replacedHash : TxHash}
    (replaces : (state.admitTx tx config).1.admission = .replaced replacedHash) :
    state.pending[tx.hash]? = none ∧ ∃ incumbent, state.pending[replacedHash]? = some incumbent ∧
      state.occupant tx.decoded.sender tx.decoded.nonce = some incumbent ∧
      replacementThresholdFee incumbent config.replacementFeeBumpBps ≤ tx.replacementFee := by
  revert replaces
  refine SchedulerState.admit_cases (motive := fun admitted =>
    admitted.1.admission = .replaced replacedHash → state.pending[tx.hash]? = none ∧
      ∃ incumbent, state.pending[replacedHash]? = some incumbent ∧
        state.occupant tx.decoded.sender tx.decoded.nonce = some incumbent ∧
        replacementThresholdFee incumbent config.replacementFeeBumpBps ≤ tx.replacementFee)
    ?duplicate ?dangling ?replaced ?underpriced ?limited ?admitted
  case replaced =>
    rintro hash incumbent fresh taken stored pays next rfl replaces
    cases replaces
    exact ⟨fresh, incumbent, stored, SchedulerState.occupant_eq_some_iff.mpr ⟨_, taken, stored⟩, pays⟩
  case duplicate => exact fun _ replaces => nomatch replaces
  case dangling => exact fun _ _ _ _ replaces => nomatch replaces
  case underpriced => exact fun _ _ _ _ _ _ replaces => nomatch replaces
  case limited => exact fun _ _ _ replaces => nomatch replaces
  case admitted => exact fun _ _ _ replaces => nomatch replaces

theorem paysBump_of_replaced (avoided : GapAvoided config state tx) {replacedHash : TxHash}
    (replaces : (state.admitTx tx config).1.admission = .replaced replacedHash) :
    ∃ incumbent, state.pending[replacedHash]? = some incumbent ∧
      PaysBump config.replacementFeeBumpBps incumbent tx := by
  obtain ⟨fresh, incumbent, stored, occupied, reaches⟩ := reaches_of_replaced replaces
  exact ⟨incumbent, stored, paysBump_of_reaches reaches (avoided fresh incumbent occupied)⟩

/-- Paying the exact bump is never refused as underpriced, saturated threshold or not. -/
theorem not_underpriced_of_paysBump {incumbent : ValidatedTransaction}
    (occupied : state.occupant tx.decoded.sender tx.decoded.nonce = some incumbent)
    (pays : PaysBump config.replacementFeeBumpBps incumbent tx) :
    (state.admitTx tx config).1.admission ≠ .underpricedReplacement := by
  obtain ⟨hash, taken, stored⟩ := SchedulerState.occupant_eq_some_iff.mp occupied
  cases held : state.pending[tx.hash]? with
  | some other =>
      rw [SchedulerState.admitTx_duplicate (by rw [held]; rfl)]
      exact nofun
  | none =>
      rw [SchedulerState.admitTx_replaced held taken stored pays.reaches]
      exact nofun

/-- One admission outside the gap does not lower the fee of an occupant. -/
theorem Seating.rising_admitTx (seating : Seating state) (avoided : GapAvoided config state tx)
    {sender : Address} {nonce : UInt64} {held : ValidatedTransaction}
    (occupied : state.occupant sender nonce = some held) :
    ∃ next, (state.admitTx tx config).2.occupant sender nonce = some next ∧
      held.replacementFee ≤ next.replacementFee := by
  rcases seating.occupant_admitTx occupied with stays | ⟨taken, replaces, stored⟩
  · exact ⟨held, stays, le_rfl⟩
  · obtain ⟨incumbent, present, pays⟩ := paysBump_of_replaced avoided replaces
    cases stored.symm.trans present
    exact ⟨tx, taken, pays.le⟩

end Step

/-- The fees of the occupants rise over every stretch of a run that avoids the gap. -/
theorem rising_of_gapAvoided {config : SchedulerConfig} {earlier amid : List ValidatedTransaction}
    (avoided : ∀ before tx rest, earlier ++ amid = before ++ tx :: rest →
      GapAvoided config (after config before) tx) {sender : Address} {nonce : UInt64}
    {held : ValidatedTransaction} (occupied : (after config earlier).occupant sender nonce = some held) :
    ∃ next, (after config (earlier ++ amid)).occupant sender nonce = some next ∧
      held.replacementFee ≤ next.replacementFee := by
  induction amid using List.reverseRecOn with
  | nil =>
      rw [List.append_nil]
      exact ⟨held, occupied, le_rfl⟩
  | append_singleton amid tx ih =>
      obtain ⟨middle, present, risen⟩ := ih fun before other rest split =>
        avoided before other (rest ++ [tx]) (by rw [← List.append_assoc, split, List.append_assoc]; rfl)
      have last := avoided (earlier ++ amid) tx [] (List.append_assoc _ _ _).symm
      have seating := (RepresentationInvariant.after config (earlier ++ amid)).seating
      obtain ⟨next, later, further⟩ := seating.rising_admitTx last present
      rw [← List.append_assoc, SchedulerState.after_snoc]
      exact ⟨next, later, risen.trans further⟩

/-- **When replacement fees only go up.** They do in a run exactly when no transaction of it that
is not yet pending meets an incumbent with a fee between the saturated threshold and the exact
one. -/
theorem feesOnlyRise_iff (config : SchedulerConfig) (txs : List ValidatedTransaction) :
    FeesOnlyRise config txs ↔ ∀ earlier tx later, txs = earlier ++ tx :: later →
      GapAvoided config (after config earlier) tx := by
  constructor
  · intro rise earlier tx later whole fresh incumbent occupied gap
    obtain ⟨hash, taken, stored⟩ := SchedulerState.occupant_eq_some_iff.mp occupied
    have replaces := SchedulerState.admitTx_replaced fresh taken stored gap.reaches
    obtain ⟨other, found, pays⟩ := rise.paid earlier tx later hash whole (by rw [replaces]; rfl)
    cases stored.symm.trans found
    exact Nat.not_le_of_lt gap.2 pays
  · intro avoided
    refine ⟨?_, ?_, ?_⟩
    · intro earlier tx later replacedHash whole replaces
      exact paysBump_of_replaced (avoided earlier tx later whole) replaces
    · intro earlier tx later incumbent _ occupied pays
      exact not_underpriced_of_paysBump occupied pays
    · intro earlier amid later sender nonce held whole occupied
      refine rising_of_gapAvoided (fun before tx rest split => ?_) occupied
      exact avoided before tx (rest ++ later) (by rw [whole, split, List.append_assoc]; rfl)

/-- The largest fee, and a fee of a ten thousandth of it for the same slot. -/
def undercutIncumbent : List ValidatedTransaction :=
  [sampleValidatedTx 10 1 0 (BitVec.ofNat 128 u128Max),
    sampleValidatedTx 11 1 0 34028236692093846346337460743176822]

theorem undercutIncumbent_not_feesOnlyRise : ¬ FeesOnlyRise {} undercutIncumbent := by
  intro rise
  obtain ⟨incumbent, found, pays⟩ := rise.paid [sampleValidatedTx 10 1 0 (BitVec.ofNat 128 u128Max)]
    (sampleValidatedTx 11 1 0 34028236692093846346337460743176822) [] 10 rfl (by decide +kernel)
  have held : (after {} [sampleValidatedTx 10 1 0 (BitVec.ofNat 128 u128Max)]).pending[(10 : TxHash)]? =
      some (sampleValidatedTx 10 1 0 (BitVec.ofNat 128 u128Max)) := by decide +kernel
  cases found.symm.trans held
  revert pays
  unfold PaysBump
  decide +kernel

end Mempulse.Scheduler
