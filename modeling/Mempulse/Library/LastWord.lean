import Mempulse.Library.Splits

/-!
# The last word

Events raise a flag and lower it. The flag is up after a sequence of events when the last event that
touches it raises it. Once raised, it is up at the end exactly when every lowering is followed by
another raising. Events also carry readings, of which the last one counts. Two ways of reading agree
in the end when they agree on the last reading of the coarser one.
-/

set_option autoImplicit false

namespace Mempulse.Library

universe u

variable {α : Type u} (raises lowers : α → Bool)

/-- The flag after one more event. -/
def flagNext (up : Bool) (event : α) : Bool := raises event || (up && !lowers event)

/-- The flag after a sequence of events. -/
def flagAfter (events : List α) : Bool := events.foldl (flagNext raises lowers) false

/-- Every lowering of a raised flag is followed by a raising. -/
def Reraised (events : List α) : Prop :=
  ∀ earlier event later, events = earlier ++ event :: later → lowers event = true →
    (∃ first ∈ earlier, raises first = true) → ∃ last ∈ later, raises last = true

section Flag

variable {raises lowers} {events : List α} {event : α}

@[simp] theorem flagAfter_nil : flagAfter raises lowers [] = false := rfl

@[simp] theorem flagAfter_append_singleton :
    flagAfter raises lowers (events ++ [event]) =
      (raises event || (flagAfter raises lowers events && !lowers event)) := by
  rw [flagAfter, List.foldl_append]
  rfl

theorem flagAfter_append (earlier later : List α) :
    flagAfter raises lowers (earlier ++ later) =
      later.foldl (flagNext raises lowers) (flagAfter raises lowers earlier) :=
  List.foldl_append

/-- A flag that is up after the later events is up, whatever came before. -/
theorem flagAfter_append_of_later (earlier : List α) {later : List α}
    (up : flagAfter raises lowers later = true) : flagAfter raises lowers (earlier ++ later) = true := by
  induction later using List.reverseRecOn with
  | nil => cases up
  | append_singleton later event ih =>
      rw [flagAfter_append_singleton, Bool.or_eq_true, Bool.and_eq_true] at up
      rw [← List.append_assoc, flagAfter_append_singleton, Bool.or_eq_true, Bool.and_eq_true]
      exact up.imp_right fun both => ⟨ih both.1, both.2⟩

/-- A flag that is up stays up while nothing lowers it. -/
theorem flagAfter_append_of_earlier {earlier later : List α}
    (up : flagAfter raises lowers earlier = true) (kept : ∀ event ∈ later, lowers event = false) :
    flagAfter raises lowers (earlier ++ later) = true := by
  induction later using List.reverseRecOn with
  | nil =>
      rw [List.append_nil]
      exact up
  | append_singleton later event ih =>
      rw [← List.append_assoc, flagAfter_append_singleton,
        ih fun other member => kept other (List.mem_append_left _ member), kept event (by simp)]
      simp

theorem flagAfter_append_silent (earlier : List α) {later : List α}
    (silent : ∀ event ∈ later, raises event = false ∧ lowers event = false) :
    flagAfter raises lowers (earlier ++ later) = flagAfter raises lowers earlier := by
  induction later using List.reverseRecOn with
  | nil => rw [List.append_nil]
  | append_singleton later event ih =>
      obtain ⟨notRaised, notLowered⟩ := silent event (by simp)
      rw [← List.append_assoc, flagAfter_append_singleton, notRaised, notLowered,
        ih fun other member => silent other (List.mem_append_left _ member), Bool.false_or,
        Bool.not_false, Bool.and_true]

/-- Events that do not touch the flag can be left out. -/
theorem flagAfter_filter {keep : α → Bool}
    (silent : ∀ event, keep event = false → raises event = false ∧ lowers event = false) :
    flagAfter raises lowers (events.filter keep) = flagAfter raises lowers events := by
  induction events using List.reverseRecOn with
  | nil => rfl
  | append_singleton events event ih =>
      rw [List.filter_append, List.filter_singleton, flagAfter_append_singleton]
      cases kept : keep event with
      | true => rw [cond_true, flagAfter_append_singleton, ih]
      | false =>
          obtain ⟨notRaised, notLowered⟩ := silent event kept
          rw [cond_false, List.append_nil, ih, notRaised, notLowered, Bool.false_or, Bool.not_false,
            Bool.and_true]

/-- An event that does not lower the flag changes nothing about the lowerings before it, and one that
raises it makes them all good. -/
theorem reraised_append_singleton (disjoint : lowers event = true → raises event = false) :
    Reraised raises lowers (events ++ [event]) ↔
      raises event = true ∨ Reraised raises lowers events ∧
        (lowers event = true → ¬ ∃ first ∈ events, raises first = true) := by
  constructor
  · intro reraised
    cases raised : raises event with
    | true => exact .inl rfl
    | false =>
        refine .inr ⟨?_, fun lowered before => ?_⟩
        · rintro earlier other later rfl lowered before
          obtain ⟨last, member, again⟩ :=
            reraised earlier other (later ++ [event]) (by simp) lowered before
          rcases List.mem_append.mp member with inLater | new
          · exact ⟨last, inLater, again⟩
          · rw [List.mem_singleton.mp new, raised] at again
            cases again
        · obtain ⟨last, never, -⟩ := reraised events event [] rfl lowered before
          cases never
  · intro fits earlier other later whole lowered before
    rcases split_append_singleton whole with ⟨rfl, rfl, rfl⟩ | ⟨rest, rfl, rfl⟩
    · rcases fits with raised | ⟨-, silent⟩
      · rw [disjoint lowered] at raised
        cases raised
      · exact absurd before (silent lowered)
    · rcases fits with raised | ⟨reraised, -⟩
      · exact ⟨event, by simp, raised⟩
      · obtain ⟨again, member, raised⟩ := reraised earlier other rest rfl lowered before
        exact ⟨again, List.mem_append_left _ member, raised⟩

/-- **A flag that was raised is up exactly when every lowering is followed by a raising.** -/
theorem flagAfter_iff_reraised (disjoint : ∀ event, lowers event = true → raises event = false) :
    ((∃ event ∈ events, raises event = true) → flagAfter raises lowers events = true) ↔
      Reraised raises lowers events := by
  induction events using List.reverseRecOn with
  | nil => exact iff_of_true (fun ⟨_, never, _⟩ => nomatch never) fun earlier _ _ whole => by simp at whole
  | append_singleton events event ih =>
      rw [reraised_append_singleton (disjoint event), ← ih, flagAfter_append_singleton]
      cases raised : raises event with
      | true => simp
      | false =>
          have before : (∃ first ∈ events ++ [event], raises first = true) ↔
              ∃ first ∈ events, raises first = true := by
            simp [raised]
          rw [before]
          cases lowered : lowers event with
          | true =>
              have down : (false || flagAfter raises lowers events && !true) ≠ true := by simp
              constructor
              · exact fun up => .inr ⟨fun raised => absurd (up raised) down,
                  fun _ raised => down (up raised)⟩
              · rintro (never | ⟨-, silent⟩) raised
                · cases never
                · exact absurd raised (silent rfl)
          | false => simp

/-- What is said of events can be said of what they are made from. -/
theorem reraised_map {β : Type u} (make : β → α) (sources : List β) :
    Reraised raises lowers (sources.map make) ↔
      Reraised (fun source => raises (make source)) (fun source => lowers (make source)) sources := by
  constructor
  · rintro reraised earlier source later rfl lowered ⟨first, member, raised⟩
    obtain ⟨last, inLater, again⟩ := reraised (earlier.map make) (make source) (later.map make)
      (by simp) lowered ⟨make first, List.mem_map_of_mem member, raised⟩
    obtain ⟨origin, listed, rfl⟩ := List.mem_map.mp inLater
    exact ⟨origin, listed, again⟩
  · rintro reraised earlier event later whole lowered ⟨first, member, raised⟩
    obtain ⟨front, back, rfl, rfl, rest⟩ := List.map_eq_append_iff.mp whole
    obtain ⟨source, others, rfl, rfl, rfl⟩ := List.map_eq_cons_iff.mp rest
    obtain ⟨origin, listed, rfl⟩ := List.mem_map.mp member
    obtain ⟨last, inLater, again⟩ :=
      reraised front source others rfl lowered ⟨origin, listed, raised⟩
    exact ⟨make last, List.mem_map_of_mem inLater, again⟩

end Flag

/-! ## Readings -/

universe v

section Reading

variable {β : Type v}

/-- The last value that is read off some events. -/
def lastReading (reads : α → Option β) (events : List α) : Option β :=
  (events.filterMap reads).getLast?

/-- The last value that is read since the first event of a kind. -/
def lastReadingSince (starts : α → Bool) (reads : α → Option β) (events : List α) : Option β :=
  lastReading reads (events.dropWhile fun event => !starts event)

variable {starts : α → Bool} {reads owns : α → Option β} {events : List α} {event : α}

theorem lastReading_append_singleton :
    lastReading reads (events ++ [event]) = (reads event).or (lastReading reads events) := by
  rw [lastReading, lastReading, List.filterMap_append]
  cases read : reads event with
  | none => rw [List.filterMap_cons_none read, List.filterMap_nil, List.append_nil, Option.none_or]
  | some value =>
      rw [List.filterMap_cons_some read, List.filterMap_nil, List.getLast?_concat, Option.some_or]

theorem lastReading_eq_none (silent : ∀ event ∈ events, reads event = none) :
    lastReading reads events = none := by
  rw [lastReading, List.filterMap_eq_nil_iff.mpr silent]
  rfl

theorem lastReadingSince_eq_none (before : ∀ event ∈ events, starts event = false) :
    lastReadingSince starts reads events = none := by
  rw [lastReadingSince, List.dropWhile_eq_nil_iff.mpr fun event member => by
    rw [before event member, Bool.not_false]]
  rfl

/-- An event after the first of the kind is read. -/
theorem lastReadingSince_append_singleton (started : ∃ first ∈ events, starts first = true) :
    lastReadingSince starts reads (events ++ [event]) =
      (reads event).or (lastReadingSince starts reads events) := by
  obtain ⟨first, member, start⟩ := started
  have kept : (events.dropWhile fun event => !starts event) ≠ [] := by
    intro dropped
    have never := List.dropWhile_eq_nil_iff.mp dropped first member
    rw [start] at never
    cases never
  rw [lastReadingSince, List.dropWhile_append, if_neg (by simpa using kept),
    lastReading_append_singleton]
  rfl

/-- An event that is not read changes nothing. -/
theorem lastReadingSince_append_silent (silent : reads event = none) :
    lastReadingSince starts reads (events ++ [event]) = lastReadingSince starts reads events := by
  by_cases started : ∃ first ∈ events, starts first = true
  · rw [lastReadingSince_append_singleton started, silent, Option.none_or]
  · have before : ∀ event ∈ events, starts event = false := fun event member =>
      Bool.eq_false_iff.mpr fun start => started ⟨event, member, start⟩
    have dropped : (events.dropWhile fun event => !starts event) = [] :=
      List.dropWhile_eq_nil_iff.mpr fun event member => by rw [before event member, Bool.not_false]
    rw [lastReadingSince_eq_none before, lastReadingSince, List.dropWhile_append, dropped,
      List.isEmpty_nil, if_pos rfl]
    refine lastReading_eq_none fun other member => ?_
    rw [List.mem_singleton.mp ((List.dropWhile_sublist _).mem member), silent]

theorem lastReadingSince_map {γ : Type u} (make : γ → α) (sources : List γ) :
    lastReadingSince starts reads (sources.map make) =
      lastReadingSince (fun source => starts (make source)) (fun source => reads (make source))
        sources := by
  rw [lastReadingSince, List.dropWhile_map, lastReading, List.filterMap_map]
  rfl

/-- What two ways of reading agree on: the last reading of the coarser one is one of the finer one, or
is what the finer one read last before. -/
def ReadingsAgree (starts : α → Bool) (reads owns : α → Option β) (events : List α) : Prop :=
  ∀ earlier event later value, events = earlier ++ event :: later → reads event = some value →
    (∃ first ∈ earlier, starts first = true) → (∀ other ∈ later, reads other = none) →
      owns event = some value ∨ lastReading owns earlier = some value

/-- **Two ways of reading give the same value in the end exactly when they agree.** The finer one
reads only what the coarser one reads, and only after the first event of the kind. -/
theorem lastReadingSince_eq_iff
    (quiet : ∀ event ∈ events, starts event = true → reads event = none)
    (finer : ∀ event ∈ events, ∀ value, owns event = some value → reads event = some value)
    (started : ∀ earlier event later, events = earlier ++ event :: later →
      (owns event).isSome = true → ∃ first ∈ earlier, starts first = true) :
    lastReadingSince starts reads events = lastReading owns events ↔
      ReadingsAgree starts reads owns events := by
  induction events using List.reverseRecOn with
  | nil => exact iff_of_true rfl fun earlier event later value whole => by simp at whole
  | append_singleton events event ih =>
      have before := ih (fun other member => quiet other (List.mem_append_left _ member))
        (fun other member => finer other (List.mem_append_left _ member))
        fun earlier other later whole => started earlier other (later ++ [event]) (by simp [whole])
      cases read : reads event with
      | none =>
          have silent : owns event = none := by
            cases own : owns event with
            | none => rfl
            | some value =>
                rw [finer event (by simp) value own] at read
                cases read
          rw [lastReadingSince_append_silent read, lastReading_append_singleton, silent,
            Option.none_or, before]
          constructor
          · intro agree earlier other later value whole reading first others
            rcases split_append_singleton whole with ⟨-, rfl, -⟩ | ⟨rest, rfl, before⟩
            · rw [read] at reading
              cases reading
            · exact agree earlier other rest value before reading first
                fun other member => others other (List.mem_append_left _ member)
          · intro agree earlier other later value whole reading first others
            refine agree earlier other (later ++ [event]) value (by simp [whole]) reading first ?_
            intro another member
            rcases List.mem_append.mp member with inLater | new
            · exact others another inLater
            · rw [List.mem_singleton.mp new, read]
      | some value =>
          have last : ReadingsAgree starts reads owns (events ++ [event]) ↔
              ((∃ first ∈ events, starts first = true) →
                owns event = some value ∨ lastReading owns events = some value) := by
            constructor
            · exact fun agree first => agree events event [] value rfl read first
                fun other never => nomatch never
            · intro agree earlier other later found whole reading first others
              rcases split_append_singleton whole with ⟨rfl, rfl, rfl⟩ | ⟨rest, rfl, -⟩
              · cases read.symm.trans reading
                exact agree first
              · rw [others event (by simp)] at read
                cases read
          rw [last]
          by_cases first : ∃ first ∈ events, starts first = true
          · rw [lastReadingSince_append_singleton first, read, Option.some_or,
              lastReading_append_singleton]
            cases own : owns event with
            | none =>
                rw [Option.none_or]
                exact ⟨fun same _ => .inr same.symm, fun agree => ((agree first).resolve_left
                  (fun never => nomatch never)).symm⟩
            | some found =>
                cases read.symm.trans (finer event (by simp) found own)
                exact iff_of_true rfl fun _ => .inl rfl
          · refine iff_of_true ?_ fun always => absurd always first
            have start : ∀ other ∈ events ++ [event], starts other = false := by
              intro other member
              refine Bool.eq_false_iff.mpr fun start => ?_
              rcases List.mem_append.mp member with inEvents | new
              · exact first ⟨other, inEvents, start⟩
              · cases List.mem_singleton.mp new
                rw [quiet event (by simp) start] at read
                cases read
            have unread : ∀ other ∈ events ++ [event], owns other = none := by
              intro other member
              obtain ⟨earlier, later, whole⟩ := List.append_of_mem member
              refine Option.not_isSome_iff_eq_none.mp fun own => ?_
              obtain ⟨one, inEarlier, begins⟩ := started earlier other later whole own
              have never := start one (whole ▸ List.mem_append_left _ inEarlier)
              rw [begins] at never
              cases never
            rw [lastReadingSince_eq_none start, lastReading_eq_none unread]

end Reading

end Mempulse.Library
