import Mempulse.Library.Splits

/-!
# Bids for slots

A house keeps at most one bid for each slot. A bid takes a free slot, and a slot whose holder it
beats. When the bids a house took each beat the earlier ones for their slot, the last one for a
slot holds it.

Then the house can be rebuilt from any later state of it and the tail of the bids it took, although
the state may already know bids of the tail (`Fair.holds_replay`): a bid that the state has
overtaken is refused or takes the slot for a while, and the last bid for the slot gets it in any case.

A house that has lost some of its holders can be rebuilt under less (`Fair.holds_succession`): it is
enough that each bid beats what held its slot when it came, so beating need not be transitive.
-/

set_option autoImplicit false

namespace Mempulse.Library

universe u v w x

variable {σ : Type u} {Offer : Type v} {Slot : Type w} {Bid : Type x} [DecidableEq Slot]

/-! ## The last bid for a slot -/

/-- The last bid for a slot. -/
def lastFor (slotOf : Bid → Slot) (bids : List Bid) (slot : Slot) : Option Bid :=
  (bids.filter fun bid => slotOf bid = slot).getLast?

section LastFor

variable {slotOf : Bid → Slot} {bids : List Bid} {slot : Slot} {bid : Bid}

@[simp] theorem lastFor_nil : lastFor slotOf [] slot = none := rfl

theorem lastFor_append (earlier later : List Bid) :
    lastFor slotOf (earlier ++ later) slot =
      (lastFor slotOf later slot).or (lastFor slotOf earlier slot) := by
  rw [lastFor, List.filter_append, List.getLast?_append]
  rfl

theorem lastFor_singleton : lastFor slotOf [bid] slot = if slotOf bid = slot then some bid else none := by
  rw [lastFor, List.filter_singleton]
  by_cases here : slotOf bid = slot <;> simp [here]

theorem lastFor_cons : lastFor slotOf (bid :: bids) slot =
    (lastFor slotOf bids slot).or (if slotOf bid = slot then some bid else none) := by
  rw [← lastFor_singleton]
  exact lastFor_append [bid] bids

theorem mem_of_lastFor (last : lastFor slotOf bids slot = some bid) : bid ∈ bids ∧ slotOf bid = slot := by
  have member := List.mem_of_getLast? last
  rw [List.mem_filter, decide_eq_true_eq] at member
  exact member

theorem ne_slot_of_lastFor (free : lastFor slotOf bids slot = none) (member : bid ∈ bids) :
    slotOf bid ≠ slot := by
  intro here
  have listed : bid ∈ bids.filter fun other => slotOf other = slot :=
    List.mem_filter.mpr ⟨member, by simpa using here⟩
  rw [List.getLast?_eq_none_iff.mp free] at listed
  cases listed

end LastFor

/-! ## Houses -/

/-- What a house is told, which bid that is for which slot, and what the house then keeps. -/
structure House (σ : Type u) (Offer : Type v) (Slot : Type w) (Bid : Type x) where
  bidOf : Offer → Bid
  slotOf : Bid → Slot
  holds : σ → Slot → Option Bid
  offer : σ → Offer → σ

/-- The slot an offer is for. -/
def House.target (house : House σ Offer Slot Bid) (offer : Offer) : Slot :=
  house.slotOf (house.bidOf offer)

/-- Each bid beats the earlier ones for its slot. -/
def Outbidding (slotOf : Bid → Slot) (beats : Bid → Bid → Prop) (bids : List Bid) : Prop :=
  bids.Pairwise fun earlier later => slotOf earlier = slotOf later → beats later earlier

section Outbidding

variable {slotOf : Bid → Slot} {beats : Bid → Bid → Prop} {bids : List Bid} {bid : Bid}

/-- Every bid is the last one for its slot or is beaten by it. -/
theorem Outbidding.eq_or_beats (outbidding : Outbidding slotOf beats bids) {last : Bid}
    (final : lastFor slotOf bids (slotOf bid) = some last) (member : bid ∈ bids) :
    bid = last ∨ beats last bid := by
  induction bids with
  | nil => cases member
  | cons first rest ih =>
      obtain ⟨head, tail⟩ := List.pairwise_cons.mp outbidding
      rw [lastFor_cons] at final
      cases later : lastFor slotOf rest (slotOf bid) with
      | some winner =>
          rw [later, Option.some_or, Option.some_inj] at final
          subst final
          obtain ⟨inRest, sameSlot⟩ := mem_of_lastFor later
          rcases List.mem_cons.mp member with rfl | further
          · exact .inr (head winner inRest sameSlot.symm)
          · exact ih tail later further
      | none =>
          rw [later, Option.none_or] at final
          split at final
          case isFalse => cases final
          case isTrue here =>
            rcases List.mem_cons.mp member with rfl | further
            · exact .inl (Option.some.inj final)
            · exact absurd rfl (ne_slot_of_lastFor later further)

/-- A bid that beats the last one for its slot beats all of them. -/
theorem Outbidding.concat (trans : ∀ {first second third : Bid}, beats second first →
      beats third second → beats third first) (outbidding : Outbidding slotOf beats bids)
    (wins : ∀ last, lastFor slotOf bids (slotOf bid) = some last → beats bid last) :
    Outbidding slotOf beats (bids ++ [bid]) := by
  refine List.pairwise_append.mpr ⟨outbidding, List.pairwise_singleton _ _, ?_⟩
  intro earlier member other new sameSlot
  rw [List.mem_singleton.mp new] at sameSlot ⊢
  cases final : lastFor slotOf bids (slotOf bid) with
  | none => exact absurd sameSlot (ne_slot_of_lastFor final member)
  | some last =>
      rw [← sameSlot] at final
      rcases outbidding.eq_or_beats final member with rfl | beaten
      · exact wins _ (sameSlot ▸ final)
      · exact trans beaten (wins last (sameSlot ▸ final))

end Outbidding

/-- A house is fair in the states it is sound in: an offer concerns its own slot only, and a welcome
one gets it when the slot is free, or held by the same bid or by one that it beats. -/
structure Fair (house : House σ Offer Slot Bid) (beats : Bid → Bid → Prop) (sound : σ → Prop)
    (welcome : Offer → Prop) : Prop where
  keeps : ∀ {state : σ} {offer : Offer}, sound state → welcome offer → sound (house.offer state offer)
  elsewhere : ∀ {state : σ} {offer : Offer} {slot : Slot}, sound state → house.target offer ≠ slot →
    house.holds (house.offer state offer) slot = house.holds state slot
  own : ∀ {state : σ} (offer : Offer), sound state →
    house.holds (house.offer state offer) (house.target offer) =
        house.holds state (house.target offer) ∨
      house.holds (house.offer state offer) (house.target offer) = some (house.bidOf offer)
  wins : ∀ {state : σ} {offer : Offer}, sound state → welcome offer →
    (∀ held, house.holds state (house.target offer) = some held →
      held = house.bidOf offer ∨ beats (house.bidOf offer) held) →
    house.holds (house.offer state offer) (house.target offer) = some (house.bidOf offer)

/-- The offers will bring a slot to what it is meant to hold: it holds that already and there is no
offer for it, or the last offer for it is that and gets the slot from its holder. -/
def Leads (house : House σ Offer Slot Bid) (beats : Bid → Bid → Prop) (state : σ)
    (offers : List Offer) (slot : Slot) (meant : Option Bid) : Prop :=
  match lastFor house.slotOf (offers.map house.bidOf) slot with
  | none => house.holds state slot = meant
  | some last => meant = some last ∧
      ∀ held, house.holds state slot = some held → held = last ∨ beats last held

section Fair

variable {house : House σ Offer Slot Bid} {beats : Bid → Bid → Prop} {sound : σ → Prop}
  {welcome : Offer → Prop} {state : σ}

omit [DecidableEq Slot] in
/-- A house stays fair when fewer bids beat its holders. -/
theorem Fair.mono {fewer : Bid → Bid → Prop} (fair : Fair house beats sound welcome)
    (stronger : ∀ later earlier, fewer later earlier → beats later earlier) :
    Fair house fewer sound welcome where
  keeps := fair.keeps
  elsewhere := fair.elsewhere
  own := fair.own
  wins isSound isWelcome beaten := fair.wins isSound isWelcome fun held holds =>
    (beaten held holds).imp_right (stronger _ _)

omit [DecidableEq Slot] in
theorem Fair.sound_foldl (fair : Fair house beats sound welcome) {offers : List Offer}
    (isSound : sound state) (allWelcome : ∀ offer ∈ offers, welcome offer) :
    sound (offers.foldl house.offer state) := by
  induction offers generalizing state with
  | nil => exact isSound
  | cons offer rest ih =>
      obtain ⟨first, others⟩ := List.forall_mem_cons.mp allWelcome
      exact ih (fair.keeps isSound first) others

/-- One offer keeps the slot on the way. -/
theorem Fair.leads_step (fair : Fair house beats sound welcome) {offer : Offer} {rest : List Offer}
    {slot : Slot} {meant : Option Bid} (isSound : sound state) (isWelcome : welcome offer)
    (outbidding : Outbidding house.slotOf beats ((offer :: rest).map house.bidOf))
    (leads : Leads house beats state (offer :: rest) slot meant) :
    Leads house beats (house.offer state offer) rest slot meant := by
  unfold Leads at leads ⊢
  rw [List.map_cons, lastFor_cons] at leads
  by_cases here : house.target offer = slot
  · subst here
    cases final : lastFor house.slotOf (rest.map house.bidOf) (house.target offer) with
    | none =>
        rw [final, Option.none_or, if_pos (by rfl)] at leads
        rw [leads.1]
        exact fair.wins isSound isWelcome leads.2
    | some last =>
        rw [final, Option.some_or] at leads
        refine ⟨leads.1, fun held holds => ?_⟩
        rcases fair.own offer isSound with kept | taken
        · exact leads.2 held (kept ▸ holds)
        · obtain ⟨member, same⟩ := mem_of_lastFor final
          rw [taken, Option.some_inj] at holds
          subst holds
          exact .inr ((List.pairwise_cons.mp outbidding).1 last member same.symm)
  · rw [if_neg (show house.slotOf (house.bidOf offer) ≠ slot from here), Option.or_none] at leads
    rw [fair.elsewhere isSound here]
    exact leads

/-- The offers bring a slot to what they lead to. -/
theorem Fair.holds_of_leads (fair : Fair house beats sound welcome) {offers : List Offer}
    (isSound : sound state) (allWelcome : ∀ offer ∈ offers, welcome offer)
    (outbidding : Outbidding house.slotOf beats (offers.map house.bidOf)) {slot : Slot}
    {meant : Option Bid} (leads : Leads house beats state offers slot meant) :
    house.holds (offers.foldl house.offer state) slot = meant := by
  induction offers generalizing state with
  | nil => exact leads
  | cons offer rest ih =>
      obtain ⟨first, others⟩ := List.forall_mem_cons.mp allWelcome
      exact ih (fair.keeps isSound first) others (List.pairwise_cons.mp outbidding).2
        (fair.leads_step isSound first outbidding leads)

/-- **Replaying a tail over a newer state.** A state that holds only last bids of a longer part of
the bids, and every last bid of the part before the tail that the tail has no bid for, becomes
the whole by the offers of the tail. -/
theorem Fair.holds_replay (fair : Fair house beats sound welcome) {earlier overlap rest : List Bid}
    {offers : List Offer} (isSound : sound state) (allWelcome : ∀ offer ∈ offers, welcome offer)
    (offered : offers.map house.bidOf = overlap ++ rest)
    (outbidding : Outbidding house.slotOf beats (earlier ++ overlap ++ rest))
    (newer : ∀ slot held, house.holds state slot = some held →
      lastFor house.slotOf (earlier ++ overlap) slot = some held)
    (kept : ∀ slot bid, lastFor house.slotOf (overlap ++ rest) slot = none →
      lastFor house.slotOf earlier slot = some bid → house.holds state slot = some bid) (slot : Slot) :
    house.holds (offers.foldl house.offer state) slot =
      lastFor house.slotOf (earlier ++ overlap ++ rest) slot := by
  have tail := outbidding
  rw [List.append_assoc] at tail
  refine fair.holds_of_leads isSound allWelcome (offered ▸ (List.pairwise_append.mp tail).2.1) ?_
  unfold Leads
  rw [offered]
  cases final : lastFor house.slotOf (overlap ++ rest) slot with
  | none =>
      have none := final
      rw [lastFor_append, Option.or_eq_none_iff] at none
      rw [List.append_assoc, lastFor_append, final, Option.none_or]
      cases holds : house.holds state slot with
      | some held =>
          have same := newer slot held holds
          rw [lastFor_append, none.2, Option.none_or] at same
          exact same.symm
      | none =>
          cases before : lastFor house.slotOf earlier slot with
          | none => rfl
          | some bid => exact holds.symm.trans (kept slot bid final before)
  | some last =>
      refine ⟨by rw [List.append_assoc, lastFor_append, final, Option.some_or], fun held holds => ?_⟩
      have known := newer slot held holds
      rw [lastFor_append] at final
      cases further : lastFor house.slotOf rest slot with
      | some bid =>
          rw [further, Option.some_or, Option.some_inj] at final
          subst final
          obtain ⟨inRest, atSlot⟩ := mem_of_lastFor further
          obtain ⟨before, sameSlot⟩ := mem_of_lastFor known
          exact .inr ((List.pairwise_append.mp outbidding).2.2 held before bid inRest
            (sameSlot.trans atSlot.symm))
      | none =>
          rw [further, Option.none_or] at final
          rw [lastFor_append, final, Option.some_or, Option.some_inj] at known
          exact .inl known.symm

end Fair

/-! ## Successions -/

/-- What holds a slot after some bids that each got theirs. -/
def heldAfter (slotOf : Bid → Slot) (start : Slot → Option Bid) (bids : List Bid) (slot : Slot) :
    Option Bid :=
  (lastFor slotOf bids slot).or (start slot)

/-- Each bid is what holds its slot when it comes, or beats it. -/
def Succession (slotOf : Bid → Slot) (beats : Bid → Bid → Prop) (start : Slot → Option Bid)
    (bids : List Bid) : Prop :=
  ∀ earlier bid later, bids = earlier ++ bid :: later →
    ∀ held, heldAfter slotOf start earlier (slotOf bid) = some held → held = bid ∨ beats bid held

section Succession

variable {slotOf : Bid → Slot} {beats : Bid → Bid → Prop} {start less : Slot → Option Bid}
  {bids : List Bid} {bid : Bid} {slot : Slot}

@[simp] theorem heldAfter_nil : heldAfter slotOf start [] slot = start slot := rfl

theorem heldAfter_append (earlier later : List Bid) :
    heldAfter slotOf start (earlier ++ later) slot =
      (lastFor slotOf later slot).or (heldAfter slotOf start earlier slot) := by
  rw [heldAfter, lastFor_append, heldAfter, Option.or_assoc]

theorem heldAfter_append_singleton :
    heldAfter slotOf start (bids ++ [bid]) slot =
      if slotOf bid = slot then some bid else heldAfter slotOf start bids slot := by
  rw [heldAfter_append, lastFor_singleton]
  split <;> rfl

/-- A slot that is held stays held. -/
theorem isSome_heldAfter_append {earlier : List Bid} (later : List Bid)
    (held : (heldAfter slotOf start earlier slot).isSome = true) :
    (heldAfter slotOf start (earlier ++ later) slot).isSome = true := by
  rw [heldAfter_append, Option.isSome_or, held, Bool.or_true]

/-- From fewer holders the bids lead to fewer holders. -/
theorem heldAfter_of_less (within : ∀ slot held, less slot = some held → start slot = some held)
    {held : Bid} (holds : heldAfter slotOf less bids slot = some held) :
    heldAfter slotOf start bids slot = some held := by
  unfold heldAfter at holds ⊢
  cases final : lastFor slotOf bids slot with
  | some last =>
      rw [final] at holds
      exact holds
  | none =>
      rw [final, Option.none_or] at holds
      exact within slot held holds

theorem Succession.init (succession : Succession slotOf beats start (bids ++ [bid])) :
    Succession slotOf beats start bids :=
  (forall_split_append_singleton.mp succession).2

theorem Succession.concat (succession : Succession slotOf beats start bids)
    (wins : ∀ held, heldAfter slotOf start bids (slotOf bid) = some held →
      held = bid ∨ beats bid held) : Succession slotOf beats start (bids ++ [bid]) :=
  forall_split_append_singleton.mpr ⟨wins, succession⟩

/-- **A house that has lost some of its holders.** Every bid of a succession gets its slot, also when
the holder it would have met there has been lost. -/
theorem Fair.holds_succession {house : House σ Offer Slot Bid} {sound : σ → Prop}
    {welcome : Offer → Prop} {state : σ} (fair : Fair house beats sound welcome)
    {offers : List Offer} (isSound : sound state) (allWelcome : ∀ offer ∈ offers, welcome offer)
    (within : ∀ slot held, house.holds state slot = some held → start slot = some held)
    (succession : Succession house.slotOf beats start (offers.map house.bidOf)) (slot : Slot) :
    house.holds (offers.foldl house.offer state) slot =
      heldAfter house.slotOf (house.holds state) (offers.map house.bidOf) slot := by
  induction offers using List.reverseRecOn generalizing slot with
  | nil => rfl
  | append_singleton offers offer ih =>
      rw [List.map_append, List.map_singleton] at succession ⊢
      have welcomeBefore : ∀ other ∈ offers, welcome other := fun other member =>
        allWelcome other (List.mem_append_left _ member)
      have before := ih welcomeBefore succession.init
      have soundBefore := fair.sound_foldl isSound welcomeBefore
      rw [List.foldl_append, List.foldl_cons, List.foldl_nil, heldAfter_append_singleton]
      split
      case isTrue here =>
        rw [← here]
        refine fair.wins soundBefore (allWelcome offer (by simp)) fun held holds => ?_
        rw [before] at holds
        exact succession _ _ [] rfl held (heldAfter_of_less within holds)
      case isFalse elsewhere => rw [fair.elsewhere soundBefore elsewhere, before]

end Succession

end Mempulse.Library
