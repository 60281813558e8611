import Mempulse.Library.Splits

/-!
# Occupancy logs

Items claim places and give them up again, and a log records the claims and retirements in some
order. The place of an item is read off the entries about the item, and the occupant of a place
off the entries about the place. In a coherent log no entry contradicts what the log says before
it, and the two readings are inverse to each other.

A log may be reordered. As long as the entries about every item keep their order, the places stay
what they were, and as long as the claims to every place keep theirs, so do the last claimants.
Entries that carry tickets keep their order when they are written in ticket order.
-/

set_option autoImplicit false

namespace Mempulse.Library

universe u v w x

/-- An item claims a place, or gives up its claim to it. -/
inductive Touch (α : Type u) (β : Type v) where
  | claim (item : α) (place : β)
  | retire (item : α) (place : β)
  deriving DecidableEq

namespace Touch

variable {α : Type u} {β : Type v}

/-- The item of a touch. -/
def item : Touch α β → α
  | claim item _ | retire item _ => item

/-- The place of a touch. -/
def place : Touch α β → β
  | claim _ place | retire _ place => place

end Touch

section Readings

variable {α : Type u} {β : Type v} [DecidableEq α] [DecidableEq β]

/-! ## Reading a log -/

/-- The place of an item after one more entry. -/
def placeNext (item : α) (current : Option β) : Touch α β → Option β
  | .claim other place => if other = item then some place else current
  | .retire other _ => if other = item then none else current

/-- The occupant of a place after one more entry. -/
def occupantNext (place : β) (current : Option α) : Touch α β → Option α
  | .claim item other => if other = place then some item else current
  | .retire item other => if other = place ∧ current = some item then none else current

/-- The place an item has claimed last and not given up. -/
def placeOf (log : List (Touch α β)) (item : α) : Option β := log.foldl (placeNext item) none

/-- The item that has claimed a place last and not given it up. -/
def occupantOf (log : List (Touch α β)) (place : β) : Option α :=
  log.foldl (occupantNext place) none

omit [DecidableEq β] in
@[simp] theorem placeOf_nil (item : α) : placeOf ([] : List (Touch α β)) item = none := rfl

@[simp] theorem occupantOf_nil (place : β) : occupantOf ([] : List (Touch α β)) place = none := rfl

omit [DecidableEq β] in
theorem placeOf_append_singleton (log : List (Touch α β)) (touch : Touch α β) (item : α) :
    placeOf (log ++ [touch]) item = placeNext item (placeOf log item) touch := by
  rw [placeOf, List.foldl_append]
  rfl

theorem occupantOf_append_singleton (log : List (Touch α β)) (touch : Touch α β) (place : β) :
    occupantOf (log ++ [touch]) place = occupantNext place (occupantOf log place) touch := by
  rw [occupantOf, List.foldl_append]
  rfl

omit [DecidableEq β] in
/-- Entries about other items do not matter to the place of an item. -/
theorem placeOf_filter (log : List (Touch α β)) (item : α) :
    placeOf (log.filter fun touch => touch.item = item) item = placeOf log item := by
  have skip : ∀ (current : Option β) (touch : Touch α β),
      (if touch.item = item then placeNext item current touch else current) =
        placeNext item current touch := by
    intro current touch
    cases touch with
    | claim other place => by_cases same : other = item <;> simp [Touch.item, placeNext, same]
    | retire other place => by_cases same : other = item <;> simp [Touch.item, placeNext, same]
  rw [placeOf, List.foldl_filter, placeOf]
  congr 1
  funext current touch
  simp only [decide_eq_true_eq]
  exact skip current touch

/-! ## Coherence -/

/-- An entry that does not contradict the log before it: a claim is to a free place by an item
that has no other, and an item retires from the place it has, if it has one. -/
def Fits (log : List (Touch α β)) : Touch α β → Prop
  | .claim item place =>
    (placeOf log item = none ∨ placeOf log item = some place) ∧
      (occupantOf log place = none ∨ occupantOf log place = some item)
  | .retire item place => placeOf log item = none ∨ placeOf log item = some place

/-- No entry contradicts the log before it. -/
inductive Coherent : List (Touch α β) → Prop
  | nil : Coherent []
  | snoc {log : List (Touch α β)} {touch : Touch α β} (before : Coherent log)
      (fits : Fits log touch) : Coherent (log ++ [touch])

/-- **The readings of a coherent log are inverse to each other.** -/
theorem Coherent.occupantOf_eq_some_iff {log : List (Touch α β)} (coherent : Coherent log)
    {item : α} {place : β} : occupantOf log place = some item ↔ placeOf log item = some place := by
  induction coherent generalizing item place with
  | nil => simp
  | @snoc log touch before fits ih =>
      rw [placeOf_append_singleton, occupantOf_append_singleton]
      cases touch with
      | claim claimant claimed =>
          obtain ⟨placeFits, occupantFits⟩ := fits
          dsimp only [placeNext, occupantNext]
          by_cases samePlace : claimed = place
          · by_cases sameItem : claimant = item
            · simp [samePlace, sameItem]
            · rw [if_pos samePlace, if_neg sameItem, ← ih, ← samePlace]
              rcases occupantFits with free | own
              · simp [free, sameItem]
              · simp [own]
          · by_cases sameItem : claimant = item
            · rw [if_neg samePlace, if_pos sameItem, ih, ← sameItem]
              rcases placeFits with free | own
              · simp [free, samePlace]
              · simp [own]
            · rw [if_neg samePlace, if_neg sameItem, ih]
      | retire leaver left =>
          dsimp only [placeNext, occupantNext]
          by_cases sameItem : leaver = item
          · subst sameItem
            rw [if_pos rfl]
            constructor
            · intro remains
              split at remains
              case isTrue => cases remains
              case isFalse stays =>
                have placed := ih.mp remains
                rcases fits with free | own
                · rw [free] at placed
                  cases placed
                · rw [own] at placed
                  cases placed
                  exact absurd ⟨rfl, remains⟩ stays
            · rintro ⟨⟩
          · rw [if_neg sameItem, ← ih]
            split
            case isTrue leaves =>
              rw [leaves.2]
              simp [sameItem]
            case isFalse => rfl

theorem Coherent.fits {log : List (Touch α β)} (coherent : Coherent log)
    {before : List (Touch α β)} {touch : Touch α β} {after : List (Touch α β)}
    (whole : log = before ++ touch :: after) : Fits before touch := by
  induction coherent generalizing after with
  | nil => simp at whole
  | @snoc log last _ fits ih =>
      rcases split_append_singleton whole with ⟨rfl, rfl, rfl⟩ | ⟨others, rfl, shorter⟩
      · exact fits
      · exact ih shorter

/-! ## Reordering a log -/

/-- The item that has claimed a place last, whether or not it has given it up since. -/
def lastClaimantOf (log : List (Touch α β)) (place : β) : Option α :=
  log.foldl (fun current touch =>
    match touch with
    | .claim item other => if other = place then some item else current
    | .retire _ _ => current) none

omit [DecidableEq α] in
theorem lastClaimantOf_append_claim (log : List (Touch α β)) (item : α) (other place : β) :
    lastClaimantOf (log ++ [.claim item other]) place =
      if other = place then some item else lastClaimantOf log place := by
  rw [lastClaimantOf, List.foldl_append]
  rfl

omit [DecidableEq α] in
theorem lastClaimantOf_append_retire (log : List (Touch α β)) (item : α) (other place : β) :
    lastClaimantOf (log ++ [.retire item other]) place = lastClaimantOf log place := by
  rw [lastClaimantOf, List.foldl_append]
  rfl

/-- The occupant of a place is its last claimant. -/
theorem lastClaimantOf_eq_of_occupantOf {log : List (Touch α β)} {place : β} {item : α}
    (occupied : occupantOf log place = some item) : lastClaimantOf log place = some item := by
  induction log using List.reverseRecOn with
  | nil => cases occupied
  | append_singleton log touch ih =>
      rw [occupantOf_append_singleton] at occupied
      cases touch with
      | claim claimant claimed =>
          rw [lastClaimantOf_append_claim]
          dsimp only [occupantNext] at occupied
          split at occupied
          case isTrue here => rw [if_pos here, occupied]
          case isFalse elsewhere => rw [if_neg elsewhere, ih occupied]
      | retire leaver left =>
          rw [lastClaimantOf_append_retire]
          dsimp only [occupantNext] at occupied
          split at occupied
          case isTrue => cases occupied
          case isFalse => exact ih occupied

/-- Whether an entry is a claim to a place. -/
def Touch.claims (place : β) : Touch α β → Bool
  | .claim _ other => other = place
  | .retire _ _ => false

omit [DecidableEq α] in
/-- The last claimant of a place depends on the claims to it. -/
theorem lastClaimantOf_filter (log : List (Touch α β)) (place : β) :
    lastClaimantOf (log.filter (Touch.claims place)) place = lastClaimantOf log place := by
  induction log using List.reverseRecOn with
  | nil => rfl
  | append_singleton log touch ih =>
      rw [List.filter_append]
      cases touch with
      | claim claimant claimed =>
          by_cases here : claimed = place
          · rw [List.filter_cons_of_pos (by simp [Touch.claims, here]), List.filter_nil,
              lastClaimantOf_append_claim, lastClaimantOf_append_claim, if_pos here, if_pos here]
          · rw [List.filter_cons_of_neg (by simp [Touch.claims, here]), List.filter_nil,
              List.append_nil, ih, lastClaimantOf_append_claim, if_neg here]
      | retire leaver left =>
          rw [List.filter_cons_of_neg (by simp [Touch.claims]), List.filter_nil, List.append_nil, ih,
            lastClaimantOf_append_retire]

/-- Two entries whose order matters: they say different things about one item, or are claims of two
items to one place. -/
def Touch.Conflicts (first second : Touch α β) : Prop :=
  first ≠ second ∧
    (first.item = second.item ∨ first.claims second.place = true ∧ second.claims second.place = true)

instance (first second : Touch α β) : Decidable (first.Conflicts second) :=
  inferInstanceAs (Decidable (_ ∧ _))

/-- An entry that does not contradict what the log says about its item. -/
def FitsItem (log : List (Touch α β)) (touch : Touch α β) : Prop :=
  placeOf log touch.item = none ∨ placeOf log touch.item = some touch.place

omit [DecidableEq α] in
theorem Fits.fitsItem [DecidableEq α] {log : List (Touch α β)} {touch : Touch α β}
    (fits : Fits log touch) : FitsItem log touch := by
  cases touch with
  | claim item place => exact fits.1
  | retire item place => exact fits

/-- **A reordered log fits item by item**, when the original is coherent and the entries about each
item have kept their order. -/
theorem Coherent.fitsItem {log reordered : List (Touch α β)} (coherent : Coherent log)
    (same : ∀ item, (log.filter fun touch => touch.item = item) =
      reordered.filter fun touch => touch.item = item)
    {before : List (Touch α β)} {touch : Touch α β} {after : List (Touch α β)}
    (whole : reordered = before ++ touch :: after) : FitsItem before touch := by
  have entries := same touch.item
  rw [whole, List.filter_append, List.filter_cons_of_pos (by simp)] at entries
  obtain ⟨earlier, later, rfl, agree, rest⟩ := List.filter_eq_append_iff.mp entries
  obtain ⟨skipped, others, rfl, elsewhere, -, -⟩ := List.filter_eq_cons_iff.mp rest
  have silent : (skipped.filter fun other => other.item = touch.item) = [] :=
    List.filter_eq_nil_iff.mpr elsewhere
  have fits := (coherent.fits (List.append_assoc earlier skipped _).symm).fitsItem
  rw [FitsItem, ← placeOf_filter, List.filter_append, agree, silent, List.append_nil,
    placeOf_filter] at fits
  exact fits

end Readings

/-! ## Tickets -/

section Tickets

variable {ε : Type w} {γ : Type x} {ticket : ε → Nat} {value : ε → γ}

/-- **Ticket order determines the values.** Two lists agree on the records of each ticket. One of
them is in ticket order, and in the other the records with different values are. Then both have
the same values. -/
theorem map_eq_of_filter_ticket_eq {left right : List ε}
    (leftSorted : left.Pairwise fun earlier later => ticket earlier ≤ ticket later)
    (rightSorted : right.Pairwise fun earlier later =>
      value earlier ≠ value later → ticket earlier ≤ ticket later)
    (each : ∀ number, (left.filter fun record => ticket record = number) =
      right.filter fun record => ticket record = number) : left.map value = right.map value := by
  induction left generalizing right with
  | nil =>
      cases right with
      | nil => rfl
      | cons first rest =>
          have none := each (ticket first)
          simp at none
  | cons first left ih =>
      obtain ⟨least, sorted⟩ := List.pairwise_cons.mp leftSorted
      have heads := each (ticket first)
      rw [List.filter_cons_of_pos (by simp)] at heads
      obtain ⟨before, after, rfl, skipped, -, -⟩ := List.filter_eq_cons_iff.mp heads.symm
      obtain ⟨-, -, apart⟩ := List.pairwise_append.mp rightSorted
      -- What stands before the first record was written under a later ticket.
      have values : ∀ record ∈ before, value record = value first := by
        intro record member
        by_contra differ
        have early := apart record member first List.mem_cons_self differ
        have listed : record ∈ (first :: left).filter fun other => ticket other = ticket record := by
          rw [each]
          exact List.mem_filter.mpr ⟨List.mem_append_left _ member, decide_eq_true rfl⟩
        have late : ticket first ≤ ticket record := by
          rcases List.mem_cons.mp (List.mem_filter.mp listed).1 with same | later
          · rw [same]
          · exact least record later
        exact skipped record member (decide_eq_true (Nat.le_antisymm early late))
      have shifted : before.map value ++ [value first] = value first :: before.map value := by
        have constant : before.map value = List.replicate before.length (value first) :=
          List.eq_replicate_iff.mpr ⟨List.length_map _, fun made member => by
            obtain ⟨record, listed, rfl⟩ := List.mem_map.mp member
            exact values record listed⟩
        rw [constant, ← List.replicate_succ', List.replicate_succ]
      have rest : left.map value = (before ++ after).map value := by
        apply ih sorted
        · exact rightSorted.sublist
            ((List.Sublist.refl before).append (List.sublist_cons_self first after))
        · intro number
          have whole := each number
          rw [List.filter_append] at whole ⊢
          by_cases here : ticket first = number
          · have absent : (before.filter fun record => ticket record = number) = [] :=
              List.filter_eq_nil_iff.mpr fun record member same =>
                skipped record member (by rw [here]; exact same)
            rw [List.filter_cons_of_pos (by simpa using here),
              List.filter_cons_of_pos (by simpa using here), absent, List.nil_append] at whole
            rw [absent, List.nil_append]
            exact (List.cons.inj whole).2
          · rwa [List.filter_cons_of_neg (by simpa using here),
              List.filter_cons_of_neg (by simpa using here)] at whole
      rw [List.map_cons, rest, List.map_append, List.map_append, List.map_cons, ← List.cons_append,
        ← shifted, List.append_assoc]
      rfl

variable {α : Type u} {β : Type v} [DecidableEq β] {touch : ε → Touch α β}

/-- Records whose conflicting entries were written in ticket order, next to the same records in
ticket order: the entries of a kind that conflict with each other are the same. -/
theorem filter_map_eq_of_conflicts {kind : Touch α β → Bool} {left right : List ε}
    (conflicts : ∀ first second, kind first = true → kind second = true → first ≠ second →
      first.Conflicts second)
    (leftSorted : left.Pairwise fun earlier later => ticket earlier ≤ ticket later)
    (rightSorted : right.Pairwise fun earlier later =>
      (touch earlier).Conflicts (touch later) → ticket earlier ≤ ticket later)
    (each : ∀ number, (left.filter fun record => ticket record = number) =
      right.filter fun record => ticket record = number) :
    (left.map touch).filter kind = (right.map touch).filter kind := by
  rw [List.filter_map, List.filter_map]
  refine map_eq_of_filter_ticket_eq (leftSorted.filter _) ?_ ?_
  · refine List.Pairwise.imp_of_mem ?_ (rightSorted.filter (kind ∘ touch))
    intro earlier later first second ordered differ
    exact ordered (conflicts _ _ (List.mem_filter.mp first).2 (List.mem_filter.mp second).2 differ)
  · intro number
    rw [List.filter_comm, each, List.filter_comm]

theorem conflicts_of_item {item : α} (first second : Touch α β) (left : first.item = item)
    (right : second.item = item) (differ : first ≠ second) : first.Conflicts second :=
  ⟨differ, Or.inl (left.trans right.symm)⟩

theorem Touch.claims_place {place : β} {claim : Touch α β} (claims : claim.claims place = true) :
    claim.place = place := by
  cases claim with
  | claim _ other => exact of_decide_eq_true claims
  | retire _ _ => cases claims

theorem conflicts_of_claims {place : β} (first second : Touch α β)
    (left : first.claims place = true) (right : second.claims place = true)
    (differ : first ≠ second) : first.Conflicts second := by
  refine ⟨differ, Or.inr ?_⟩
  rw [Touch.claims_place right]
  exact ⟨left, right⟩

end Tickets

end Mempulse.Library
