import Mathlib

/-!
# Ordered maps

Facts about extensional tree maps that talk about a whole map at once: its entries as a list,
sums over its entries, and its size against the size of another map.
-/

set_option autoImplicit false

namespace Mempulse.Library

open Std

universe u v w

variable {κ : Type u} {ν : Type v} [DecidableEq κ] [Ord κ] [TransOrd κ] [LawfulEqOrd κ]

/-! ## Lookups -/

theorem getElem?_insert_eq (map : ExtTreeMap κ ν) (key other : κ) (value : ν) :
    (map.insert key value)[other]? = if key = other then some value else map[other]? := by
  rw [ExtTreeMap.getElem?_insert]
  simp only [Std.compare_eq_iff_eq]

theorem getElem?_erase_eq (map : ExtTreeMap κ ν) (key other : κ) :
    (map.erase key)[other]? = if key = other then none else map[other]? := by
  rw [ExtTreeMap.getElem?_erase]
  simp only [Std.compare_eq_iff_eq]

@[simp] theorem getElem?_insert_ne {map : ExtTreeMap κ ν} {key other : κ} {value : ν}
    (ne : key ≠ other) : (map.insert key value)[other]? = map[other]? := by
  rw [getElem?_insert_eq, if_neg ne]

omit [DecidableEq κ] [LawfulEqOrd κ] in
theorem contains_eq_isSome (map : ExtTreeMap κ ν) (key : κ) :
    map.contains key = map[key]?.isSome :=
  ExtTreeMap.contains_eq_isSome_getElem?

omit [DecidableEq κ] [LawfulEqOrd κ] in
theorem contains_iff_exists {map : ExtTreeMap κ ν} {key : κ} :
    map.contains key = true ↔ ∃ value, map[key]? = some value := by
  rw [contains_eq_isSome, Option.isSome_iff_exists]

omit [DecidableEq κ] in
theorem mem_toList {map : ExtTreeMap κ ν} {entry : κ × ν} :
    entry ∈ map.toList ↔ map[entry.1]? = some entry.2 :=
  ExtTreeMap.mem_toList_iff_getElem?_eq_some

omit [DecidableEq κ] in
/-- A map lists every key once. -/
theorem toList_pairwise_ne (map : ExtTreeMap κ ν) :
    map.toList.Pairwise fun earlier later => earlier.1 ≠ later.1 :=
  ExtTreeMap.distinct_keys_toList.imp fun distinct same =>
    distinct (Std.compare_eq_iff_eq.mpr same)

omit [DecidableEq κ] in
theorem toList_nodup (map : ExtTreeMap κ ν) : map.toList.Nodup :=
  (toList_pairwise_ne map).imp fun ne same => ne (congrArg Prod.fst same)

omit [DecidableEq κ] in
theorem keys_nodup (map : ExtTreeMap κ ν) : map.keys.Nodup :=
  ExtTreeMap.distinct_keys.imp fun distinct same => distinct (Std.compare_eq_iff_eq.mpr same)

omit [DecidableEq κ] in
theorem mem_keys_iff_exists {map : ExtTreeMap κ ν} {key : κ} :
    key ∈ map.keys ↔ ∃ value, map[key]? = some value := by
  rw [ExtTreeMap.mem_keys, ExtTreeMap.mem_iff_contains, contains_iff_exists]

/-- Inserting a key lists its entry and the entries of the other keys. -/
theorem toList_insert_perm (map : ExtTreeMap κ ν) (key : κ) (value : ν) :
    (map.insert key value).toList.Perm
      ((key, value) :: map.toList.filter fun entry => entry.1 ≠ key) := by
  rw [List.perm_ext_iff_of_nodup (toList_nodup _)
    (List.nodup_cons.mpr ⟨by simp, (toList_nodup map).filter _⟩)]
  rintro ⟨other, stored⟩
  rw [mem_toList, getElem?_insert_eq, List.mem_cons, List.mem_filter, mem_toList]
  by_cases same : key = other
  · subst same
    simp [eq_comm]
  · simp [same, Ne.symm same]

theorem toList_insert_empty (key : κ) (value : ν) :
    ((∅ : ExtTreeMap κ ν).insert key value).toList = [(key, value)] :=
  List.perm_singleton.mp ((toList_insert_perm ∅ key value).trans (by simp))

omit [DecidableEq κ] in
/-- Lists in increasing key order that have the same members are equal. -/
theorem eq_of_increasing_keys {μ : Type w} {key : μ → κ} {list other : List μ}
    (listed : list.Pairwise fun earlier later => compare (key earlier) (key later) = .lt)
    (alsoListed : other.Pairwise fun earlier later => compare (key earlier) (key later) = .lt)
    (same : ∀ element, element ∈ list ↔ element ∈ other) : list = other := by
  have irreflexive : Std.Irrefl fun earlier later : μ => compare (key earlier) (key later) = .lt :=
    ⟨fun element below => by cases (ReflCmp.compare_self (a := key element)).symm.trans below⟩
  have antisymmetric : Std.Antisymm
      fun earlier later : μ => compare (key earlier) (key later) = .lt := by
    refine ⟨fun earlier later below above => ?_⟩
    have swapped : compare (key later) (key earlier) = (compare (key earlier) (key later)).swap :=
      OrientedCmp.eq_swap
    rw [swapped, below] at above
    cases above
  exact listed.eq_of_mem_iff alsoListed same

/-! ## Lists spread over a map -/

section Spread

variable {μ : Type w}

omit [Ord κ] [TransOrd κ] [LawfulEqOrd κ] in
/-- The elements that belong to one key of a list of distinct keys. -/
theorem filter_flatMap_owner {owner : μ → κ} {entries : List (κ × ν)} {spread : κ × ν → List μ}
    (distinct : entries.Pairwise fun earlier later => earlier.1 ≠ later.1)
    (owned : ∀ entry ∈ entries, ∀ element ∈ spread entry, owner element = entry.1)
    {entry : κ × ν} (member : entry ∈ entries) :
    (entries.flatMap spread).filter (fun element => owner element = entry.1) = spread entry := by
  induction entries with
  | nil => cases member
  | cons first rest ih =>
      obtain ⟨apart, distinct⟩ := List.pairwise_cons.mp distinct
      obtain ⟨ownedFirst, ownedRest⟩ := List.forall_mem_cons.mp owned
      rw [List.flatMap_cons, List.filter_append]
      rcases List.mem_cons.mp member with rfl | later
      · have own : (spread entry).filter (fun element => owner element = entry.1) = spread entry := by
          rw [List.filter_eq_self]
          intro element belongs
          exact decide_eq_true (ownedFirst element belongs)
        have others : (rest.flatMap spread).filter (fun element => owner element = entry.1) = [] := by
          rw [List.filter_eq_nil_iff]
          intro element belongs same
          obtain ⟨other, listed, inOther⟩ := List.mem_flatMap.mp belongs
          exact apart other listed ((of_decide_eq_true same).symm.trans
            (ownedRest other listed element inOther))
        rw [own, others, List.append_nil]
      · have none : (spread first).filter (fun element => owner element = entry.1) = [] := by
          rw [List.filter_eq_nil_iff]
          intro element belongs same
          exact apart entry later ((ownedFirst element belongs).symm.trans (of_decide_eq_true same))
        rw [none, List.nil_append, ih distinct ownedRest later]

/-- Two lists spread over the entries of a map, each of whose elements tells which key it belongs
to, are equal exactly when they are equal at every entry. -/
theorem flatMap_toList_eq_iff (owner : μ → κ) {map : ExtTreeMap κ ν}
    {left right : κ × ν → List μ}
    (ownedLeft : ∀ entry ∈ map.toList, ∀ element ∈ left entry, owner element = entry.1)
    (ownedRight : ∀ entry ∈ map.toList, ∀ element ∈ right entry, owner element = entry.1) :
    map.toList.flatMap left = map.toList.flatMap right ↔
      ∀ entry ∈ map.toList, left entry = right entry := by
  constructor
  · intro same entry member
    rw [← filter_flatMap_owner (toList_pairwise_ne map) ownedLeft member, same,
      filter_flatMap_owner (toList_pairwise_ne map) ownedRight member]
  · exact List.flatMap_congr

end Spread

/-! ## Maps from lists -/

section FromList

omit [DecidableEq κ] [TransOrd κ] in
theorem pairwise_of_nodup_keys {entries : List (κ × ν)} (distinct : (entries.map Prod.fst).Nodup) :
    entries.Pairwise fun earlier later => ¬ compare earlier.1 later.1 = .eq := by
  refine (List.pairwise_map.mp distinct).imp fun differ same => ?_
  exact differ (Std.compare_eq_iff_eq.mp same)

/-- What a map holds after a list of entries with distinct keys was inserted. -/
theorem getElem?_insertMany_eq_some_iff (map : ExtTreeMap κ ν) {entries : List (κ × ν)}
    (distinct : (entries.map Prod.fst).Nodup) {key : κ} {value : ν} :
    (map.insertMany entries)[key]? = some value ↔
      (key, value) ∈ entries ∨ key ∉ entries.map Prod.fst ∧ map[key]? = some value := by
  by_cases listed : key ∈ entries.map Prod.fst
  · obtain ⟨⟨_, stored⟩, member, rfl⟩ := List.mem_map.mp listed
    rw [ExtTreeMap.getElem?_insertMany_list_of_mem ReflCmp.compare_self
      (pairwise_of_nodup_keys distinct) member, Option.some.injEq]
    constructor
    · rintro rfl
      exact .inl member
    · rintro (other | ⟨absent, -⟩)
      · have same := List.inj_on_of_nodup_map distinct member other rfl
        exact congrArg Prod.snd same
      · exact absurd listed absent
  · have unlisted : (entries.map Prod.fst).contains key = false := by simpa using listed
    rw [ExtTreeMap.getElem?_insertMany_list_of_contains_eq_false unlisted]
    constructor
    · exact fun held => .inr ⟨listed, held⟩
    · rintro (member | ⟨-, held⟩)
      · exact absurd (List.mem_map.mpr ⟨_, member, rfl⟩) listed
      · exact held

theorem getElem?_ofList_eq_some_iff {entries : List (κ × ν)}
    (distinct : (entries.map Prod.fst).Nodup) {key : κ} {value : ν} :
    (ExtTreeMap.ofList entries : ExtTreeMap κ ν)[key]? = some value ↔ (key, value) ∈ entries := by
  rw [ExtTreeMap.ofList_eq_insertMany_empty, getElem?_insertMany_eq_some_iff _ distinct]
  simp

/-- The entries of a list that a map does not already hold. -/
def changesOf [DecidableEq ν] (map : ExtTreeMap κ ν) (entries : List (κ × ν)) : List (κ × ν) :=
  entries.filter fun entry => map[entry.1]? ≠ some entry.2

/-- **Applying the changes.** A map that holds nothing beyond the keys of a list, and at those what
an earlier map holds, becomes the map of the list when the changes from the earlier map are
inserted. -/
theorem insertMany_changesOf [DecidableEq ν] (earlier kept : ExtTreeMap κ ν)
    {entries : List (κ × ν)} (distinct : (entries.map Prod.fst).Nodup)
    (agree : ∀ key ∈ entries.map Prod.fst, kept[key]? = earlier[key]?)
    (within : ∀ key value, kept[key]? = some value → key ∈ entries.map Prod.fst) :
    kept.insertMany (changesOf earlier entries) = ExtTreeMap.ofList entries := by
  have changed : ((changesOf earlier entries).map Prod.fst).Nodup :=
    distinct.sublist (List.filter_sublist.map Prod.fst)
  apply ExtTreeMap.ext_getElem?
  intro key
  apply Option.ext
  intro value
  rw [getElem?_insertMany_eq_some_iff _ changed, getElem?_ofList_eq_some_iff distinct, changesOf,
    List.mem_filter]
  constructor
  · rintro (⟨member, -⟩ | ⟨unchanged, held⟩)
    · exact member
    · have listed := within key value held
      rw [agree key listed] at held
      obtain ⟨⟨other, stored⟩, member, rfl⟩ := List.mem_map.mp listed
      by_cases same : earlier[other]? = some stored
      · cases held.symm.trans same
        exact member
      · exact absurd (List.mem_map.mpr ⟨_, List.mem_filter.mpr ⟨member, by simpa using same⟩, rfl⟩)
          unchanged
  · intro member
    have listed : key ∈ entries.map Prod.fst := List.mem_map.mpr ⟨(key, value), member, rfl⟩
    by_cases same : earlier[key]? = some value
    · refine .inr ⟨fun changedKey => ?_, (agree key listed).trans same⟩
      obtain ⟨⟨_, other⟩, filtered, rfl⟩ := List.mem_map.mp changedKey
      obtain ⟨alsoMember, differs⟩ := List.mem_filter.mp filtered
      have equal := List.inj_on_of_nodup_map distinct alsoMember member rfl
      rw [equal] at differs
      simp [same] at differs
    · exact .inl ⟨member, by simpa using same⟩

end FromList

/-! ## Sums over a map -/

/-- A sum of ones and zeros counts the ones. -/
theorem sum_map_eq_countP {μ : Type w} (weight : μ → Nat) (holds : μ → Bool) (elements : List μ)
    (indicates : ∀ element, weight element = if holds element then 1 else 0) :
    (elements.map weight).sum = elements.countP holds := by
  induction elements with
  | nil => rfl
  | cons element rest ih =>
      rw [List.map_cons, List.sum_cons, ih, indicates, List.countP_cons, Nat.add_comm]

/-- The sum of a weight over the entries of a map. -/
def weightOf (weight : κ → ν → Nat) (map : ExtTreeMap κ ν) : Nat :=
  (map.toList.map fun entry => weight entry.1 entry.2).sum

omit [DecidableEq κ] [LawfulEqOrd κ] in
@[simp] theorem weightOf_empty (weight : κ → ν → Nat) :
    weightOf weight (∅ : ExtTreeMap κ ν) = 0 := by
  simp [weightOf, ExtTreeMap.toList_eq_nil_iff.mpr]

/-- What an optional value weighs. -/
def optionWeight (weight : ν → Nat) (value : Option ν) : Nat := (value.map weight).getD 0

omit [DecidableEq κ] in
/-- A map weighs what its keys weigh. -/
theorem weightOf_eq_sum_keys (weight : κ → ν → Nat) (map : ExtTreeMap κ ν) :
    weightOf weight map = (map.keys.map fun key => optionWeight (weight key) map[key]?).sum := by
  rw [weightOf, ← ExtTreeMap.map_fst_toList_eq_keys, List.map_map]
  refine congrArg List.sum (List.map_congr_left fun entry member => ?_)
  simp only [Function.comp_apply, mem_toList.mp member]
  rfl

omit [DecidableEq κ] in
/-- A weight that is nowhere larger, on a map with no more keys, has no larger sum. -/
theorem weightOf_le_of_present {lighter : κ → ν → Nat} {μ : Type w} {heavier : κ → μ → Nat}
    {smaller : ExtTreeMap κ ν} (larger : ExtTreeMap κ μ)
    (le : ∀ (key : κ) (value : ν), smaller[key]? = some value →
      ∃ other : μ, larger[key]? = some other ∧ lighter key value ≤ heavier key other) :
    weightOf lighter smaller ≤ weightOf heavier larger := by
  rw [weightOf_eq_sum_keys, weightOf_eq_sum_keys]
  have keys : smaller.keys.Subperm larger.keys := by
    refine List.subperm_of_subset (keys_nodup smaller) fun key member => ?_
    obtain ⟨value, stored⟩ := mem_keys_iff_exists.mp member
    obtain ⟨other, found, -⟩ := le key value stored
    exact mem_keys_iff_exists.mpr ⟨other, found⟩
  obtain ⟨kept, perm, sublist⟩ := keys
  rw [← (perm.map _).sum_eq]
  refine Nat.le_trans (List.sum_le_sum fun key member => ?_)
    ((sublist.map fun key => optionWeight (heavier key) larger[key]?).sum_le_sum fun _ _ => Nat.zero_le _)
  obtain ⟨value, stored⟩ := mem_keys_iff_exists.mp (perm.mem_iff.mp member)
  obtain ⟨other, found, lighterHere⟩ := le key value stored
  rw [stored, found]
  exact lighterHere

/-- Two maps that agree off one key weigh the same off that key. -/
theorem weightOf_exchange (weight : κ → ν → Nat) {earlier later : ExtTreeMap κ ν} {key : κ}
    (agree : ∀ other : κ, other ≠ key → later[other]? = earlier[other]?) :
    weightOf weight later + optionWeight (weight key) earlier[key]? =
      weightOf weight earlier + optionWeight (weight key) later[key]? := by
  have without : ∀ map : ExtTreeMap κ ν,
      weightOf weight map = weightOf weight (map.erase key) + optionWeight (weight key) map[key]? := by
    intro map
    cases found : map[key]? with
    | none =>
        have untouched : map.erase key = map := by
          apply ExtTreeMap.ext_getElem?
          intro other
          rw [getElem?_erase_eq]
          split
          case isTrue same => rw [← same, found]
          case isFalse => rfl
        rw [untouched]
        rfl
    | some value =>
        have restored : (map.erase key).insert key value = map := by
          apply ExtTreeMap.ext_getElem?
          intro other
          rw [getElem?_insert_eq, getElem?_erase_eq]
          split
          case isTrue same => rw [← same, found]
          case isFalse => rfl
        have listed := toList_insert_perm (map.erase key) key value
        rw [restored] at listed
        have others : ((map.erase key).toList.filter fun entry => entry.1 ≠ key) =
            (map.erase key).toList := by
          rw [List.filter_eq_self]
          intro entry member
          rw [mem_toList, getElem?_erase_eq] at member
          simp only [decide_eq_true_eq]
          rintro same
          rw [if_pos same.symm] at member
          cases member
        rw [others] at listed
        rw [weightOf, (listed.map fun entry => weight entry.1 entry.2).sum_eq, List.map_cons,
          List.sum_cons, Nat.add_comm]
        rfl
  have same : later.erase key = earlier.erase key := by
    apply ExtTreeMap.ext_getElem?
    intro other
    rw [getElem?_erase_eq, getElem?_erase_eq]
    split
    case isTrue => rfl
    case isFalse differs => exact agree other (Ne.symm differs)
  rw [without later, without earlier, same]
  omega

omit [DecidableEq κ] in
theorem optionWeight_le_weightOf (weight : κ → ν → Nat) (map : ExtTreeMap κ ν) (key : κ) :
    optionWeight (weight key) map[key]? ≤ weightOf weight map := by
  cases found : map[key]? with
  | none => exact Nat.zero_le _
  | some value =>
      exact List.single_le_sum (fun _ _ => Nat.zero_le _) _
        (List.mem_map.mpr ⟨(key, value), mem_toList.mpr found, rfl⟩)

omit [DecidableEq κ] [LawfulEqOrd κ] in
theorem weightOf_map {μ : Type w} (weight : κ → μ → Nat) (map : ExtTreeMap κ ν) (f : κ → ν → μ) :
    weightOf weight (map.map f) = weightOf (fun key value => weight key (f key value)) map := by
  rw [weightOf, weightOf, ExtTreeMap.toList_map, List.map_map]
  rfl

/-! ## Sizes -/

omit [DecidableEq κ] in
/-- A map is at least as large as any list of distinct keys it has. -/
theorem length_le_size {map : ExtTreeMap κ ν} {keys : List κ} (distinct : keys.Nodup)
    (present : ∀ key ∈ keys, ∃ value : ν, map[key]? = some value) : keys.length ≤ map.size := by
  rw [← ExtTreeMap.length_keys]
  exact (List.subperm_of_subset distinct fun key member =>
    mem_keys_iff_exists.mpr (present key member)).length_le

omit [DecidableEq κ] in
theorem size_pos_of_getElem? {map : ExtTreeMap κ ν} {key : κ} {value : ν}
    (stored : map[key]? = some value) : 0 < map.size := by
  exact length_le_size (List.nodup_singleton key) (by simpa using ⟨value, stored⟩)

end Mempulse.Library
