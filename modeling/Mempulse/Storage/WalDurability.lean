import Mempulse.Storage.WriterRun

/-!
# Durability of the write-ahead log

The log is cleared as a whole after a flush that the sink accepts, whatever else it holds. A batch that
the sink rejects, or that dies with its process, leaves memory while its records stay in the log, and
no later batch has them. So what decides whether every appended event stays in the log until the sink
has it is the history of the writer alone (`walDurable_iff`): which batches were lost, and what an
accepted flush removes.
-/

set_option autoImplicit false

namespace Mempulse.Storage

open EventLog Library

/-! ## Histories -/

/-- What the steps of a history tell of its appends, without a look at any writer. -/
structure LogOutline where
  /-- How many events were appended. -/
  appended : Nat := 0
  /-- How many of them, the last ones, are in the batch. -/
  batched : Nat := 0
  /-- How many of them, the first ones, were removed by accepted flushes. -/
  removed : Nat := 0

namespace LogOutline

/-- The sink accepts the batch, and the log is removed up to a position. An empty batch is not sent,
and nothing is removed. -/
def accept (outline : LogOutline) (upTo : Nat) : LogOutline :=
  if outline.batched = 0 then outline
  else { outline with batched := 0, removed := min upTo outline.appended }

/-- What a step does to the outline. -/
def step (outline : LogOutline) : WriterStep → LogOutline
  | .apply op =>
    if op.envelope.isSome then
      { outline with appended := outline.appended + 1, batched := outline.batched + 1 }
    else outline
  | .flush true => outline.accept outline.appended
  | .crashInFlush true cleared => outline.accept (outline.removed + cleared)
  | .flush false | .crash | .crashInFlush false _ => { outline with batched := 0 }

/-- The outline of a history. -/
def ofSteps (steps : List WriterStep) : LogOutline := steps.foldl step {}

theorem ofSteps_concat (steps : List WriterStep) (last : WriterStep) :
    ofSteps (steps ++ [last]) = (ofSteps steps).step last := by
  simp only [ofSteps, List.foldl_append, List.foldl_cons, List.foldl_nil]

end LogOutline

/-- The steps that take a batch out of memory without its having been accepted: a rejected flush, and a
restart. -/
def WriterStep.loses : WriterStep → Bool
  | .flush false | .crash | .crashInFlush false _ => true
  | .apply _ | .flush true | .crashInFlush true _ => false

/-- A nonempty batch was lost in a history, whose first event was appended at a position. -/
def LostBatch (history : List WriterStep) (first : Nat) : Prop :=
  ∃ before step after, history = before ++ step :: after ∧ step.loses = true ∧
    (LogOutline.ofSteps before).batched ≠ 0 ∧
    first + (LogOutline.ofSteps before).batched = (LogOutline.ofSteps before).appended

/-- A flush of a nonempty batch that is accepted comes after no lost batch. One that is interrupted by
a crash has by then not removed the first event of a lost batch. -/
def SparesLost (history : List WriterStep) : WriterStep → Prop
  | .flush true => (LogOutline.ofSteps history).batched ≠ 0 → ∀ first, ¬ LostBatch history first
  | .crashInFlush true cleared =>
    (LogOutline.ofSteps history).batched ≠ 0 →
      ∀ first, LostBatch history first → (LogOutline.ofSteps history).removed + cleared ≤ first
  | .apply _ | .flush false | .crash | .crashInFlush false _ => True

theorem LogOutline.step_of_loses (outline : LogOutline) {next : WriterStep}
    (loses : next.loses = true) : outline.step next = { outline with batched := 0 } := by
  cases next with
  | apply op => cases loses
  | flush accepts =>
      cases accepts with
      | false => rfl
      | true => cases loses
  | crash => rfl
  | crashInFlush accepts cleared =>
      cases accepts with
      | false => rfl
      | true => cases loses

theorem not_lostBatch_nil (first : Nat) : ¬ LostBatch [] first := by
  rintro ⟨before, step, after, whole, -⟩
  simp at whole

/-- The last step of a history loses a batch, or it was lost before. -/
theorem lostBatch_concat_iff {history : List WriterStep} {last : WriterStep} {first : Nat} :
    LostBatch (history ++ [last]) first ↔ LostBatch history first ∨
      (last.loses = true ∧ (LogOutline.ofSteps history).batched ≠ 0 ∧
        first + (LogOutline.ofSteps history).batched = (LogOutline.ofSteps history).appended) := by
  constructor
  · rintro ⟨before, step, after, whole, lost⟩
    rcases split_append_singleton whole with ⟨rfl, rfl, -⟩ | ⟨middle, -, shorter⟩
    · exact .inr lost
    · exact .inl ⟨before, step, middle, shorter, lost⟩
  · rintro (⟨before, step, after, rfl, lost⟩ | lost)
    · exact ⟨before, step, after ++ [last], by simp, lost⟩
    · exact ⟨history, last, [], rfl, lost⟩

namespace Writer

/-! ## What a step may remove -/

section Removal

variable {writer : Writer}

/-- Each appended record is in the log, or the sink has accepted it. -/
def Durable (writer : Writer) : Prop :=
  ∀ record ∈ writer.appended, record ∈ writer.wal ∨ record ∈ writer.accepted

/-- What the step removes from the log is in the batch that the sink accepts, or was accepted before. -/
def ClearsAccepted (writer : Writer) : WriterStep → Prop
  | .flush true =>
    writer.batch ≠ [] → ∀ record ∈ writer.wal, record ∈ writer.batch ∨ record ∈ writer.accepted
  | .crashInFlush true cleared =>
    writer.batch ≠ [] →
      ∀ record ∈ writer.wal.take cleared, record ∈ writer.batch ∨ record ∈ writer.accepted
  | .apply _ | .flush false | .crash | .crashInFlush false _ => True

/-- A batch that the sink accepts, after which some records have been removed from the log. -/
theorem Durable.deliver_iff (durable : Durable writer) (invariant : WriterInvariant writer)
    (cleared : Nat) :
    Durable { writer.deliver true with wal := writer.wal.drop cleared } ↔
      ∀ record ∈ writer.wal.take cleared, record ∈ writer.batch ∨ record ∈ writer.accepted := by
  have accepted : ∀ record, record ∈ writer.accepted ++ writer.batch ↔
      record ∈ writer.batch ∨ record ∈ writer.accepted := fun record =>
    List.mem_append.trans or_comm
  constructor
  · intro kept record member
    have listed := invariant.wal_appended.subset (List.mem_of_mem_take member)
    have distinct := invariant.appended_nodup.sublist invariant.wal_appended
    have gone := List.disjoint_take_drop distinct (Nat.le_refl cleared) member
    exact (accepted record).mp ((kept record listed).resolve_left gone)
  · intro covered record listed
    rcases durable record listed with logged | earlier
    · rw [← List.take_append_drop cleared writer.wal] at logged
      rcases List.mem_append.mp logged with out | still
      · exact .inr ((accepted record).mpr (covered record out))
      · exact .inl still
    · exact .inr ((accepted record).mpr (.inr earlier))

theorem Durable.step_iff (durable : Durable writer) (invariant : WriterInvariant writer)
    (next : WriterStep) : Durable (writer.step next) ↔ writer.ClearsAccepted next := by
  cases next with
  | apply op =>
      refine iff_of_true ?_ trivial
      change Durable (writer.applyWriteOp op)
      rcases applyWriteOp_cases writer op with ⟨event, -, appended⟩ | ⟨-, storage, projected⟩
      · rw [appended]
        intro record member
        rcases List.mem_append.mp member with earlier | new
        · exact (durable record earlier).imp_left fun logged => List.mem_append_left _ logged
        · exact .inl (List.mem_append_right _ new)
      · rw [projected]
        exact durable
  | flush accepts =>
      change Durable (writer.flushBatch accepts) ↔ _
      unfold flushBatch
      by_cases empty : writer.batch = []
      · rw [if_pos (by simp [empty])]
        cases accepts with
        | false => exact iff_of_true durable trivial
        | true => exact iff_of_true durable fun filled => absurd empty filled
      · rw [if_neg (by simp [empty])]
        cases accepts with
        | false => exact iff_of_true durable trivial
        | true =>
            have whole := durable.deliver_iff invariant writer.wal.length
            rw [List.drop_length, List.take_length] at whole
            exact whole.trans (imp_iff_right empty).symm
  | crash => exact iff_of_true durable trivial
  | crashInFlush accepts cleared =>
      change Durable (writer.crashInFlush accepts cleared) ↔ _
      unfold crashInFlush
      by_cases empty : writer.batch = []
      · rw [if_pos (by simp [empty])]
        cases accepts with
        | false => exact iff_of_true durable trivial
        | true => exact iff_of_true durable fun filled => absurd empty filled
      · rw [if_neg (by simp [empty])]
        cases accepts with
        | false => exact iff_of_true durable trivial
        | true =>
            exact (durable.deliver_iff invariant cleared).trans (imp_iff_right empty).symm

end Removal

/-! ## What a history removes -/

section Histories

variable {writer : Writer} {history : List WriterStep} {next : WriterStep}

/-- A record's ticket is its position. -/
theorem WriterInvariant.ticket_getElem (invariant : WriterInvariant writer) {position : Nat}
    (inside : position < writer.appended.length) : writer.appended[position].ticket = position := by
  have tickets := congrArg (·[position]?) invariant.tickets
  simpa [inside] using tickets

theorem WriterInvariant.mem_drop_iff (invariant : WriterInvariant writer) {count : Nat}
    {record : WalRecord} :
    record ∈ writer.appended.drop count ↔ record ∈ writer.appended ∧ count ≤ record.ticket := by
  constructor
  · intro member
    obtain ⟨offset, inside, rfl⟩ := List.mem_drop_iff_getElem.mp member
    exact ⟨List.getElem_mem _, by rw [invariant.ticket_getElem]; omega⟩
  · rintro ⟨member, late⟩
    obtain ⟨position, inside, rfl⟩ := List.mem_iff_getElem.mp member
    rw [invariant.ticket_getElem inside] at late
    exact List.mem_drop_iff_getElem.mpr ⟨position - count, by omega, by congr 1; omega⟩

/-- A writer stands as the history tells: its batch and its log are ends of its appends, and of those
that left the batch the ones before every lost batch were accepted, while the first one of a lost batch
never was. -/
structure Outlined (history : List WriterStep) (writer : Writer) : Prop where
  appended : writer.appended.length = (LogOutline.ofSteps history).appended
  batched : (LogOutline.ofSteps history).batched ≤ (LogOutline.ofSteps history).appended
  batch : writer.batch = writer.appended.drop
    ((LogOutline.ofSteps history).appended - (LogOutline.ofSteps history).batched)
  removed : (LogOutline.ofSteps history).removed ≤ (LogOutline.ofSteps history).appended
  wal : writer.wal = writer.appended.drop (LogOutline.ofSteps history).removed
  settled : ∀ record ∈ writer.appended,
    record.ticket + (LogOutline.ofSteps history).batched < (LogOutline.ofSteps history).appended →
      (∀ first, LostBatch history first → record.ticket < first) → record ∈ writer.accepted
  lost : ∀ first, LostBatch history first →
    first + (LogOutline.ofSteps history).batched < (LogOutline.ofSteps history).appended ∧
      ∀ record ∈ writer.accepted, record.ticket ≠ first

theorem Outlined.nil (config : StorageConfig) : Outlined [] { config := config } where
  appended := rfl
  batched := Nat.le_refl _
  batch := rfl
  removed := Nat.le_refl _
  wal := rfl
  settled record member := by cases member
  lost first lost := absurd lost (not_lostBatch_nil first)

theorem Outlined.batch_eq_nil_iff (outlined : Outlined history writer) :
    writer.batch = [] ↔ (LogOutline.ofSteps history).batched = 0 := by
  have bound := outlined.batched
  rw [outlined.batch, List.drop_eq_nil_iff, outlined.appended]
  omega

/-- A step that leaves the log, the batch and the appends alone, as it is told. -/
theorem Outlined.idle {after : Writer} (outlined : Outlined history writer)
    (told : LogOutline.ofSteps (history ++ [next]) = LogOutline.ofSteps history)
    (keeps : ∀ first, LostBatch (history ++ [next]) first ↔ LostBatch history first)
    (appended : after.appended = writer.appended) (batch : after.batch = writer.batch)
    (wal : after.wal = writer.wal) (accepted : after.accepted = writer.accepted) :
    Outlined (history ++ [next]) after := by
  constructor <;> simp only [told, keeps, appended, batch, wal, accepted]
  · exact outlined.appended
  · exact outlined.batched
  · exact outlined.batch
  · exact outlined.removed
  · exact outlined.wal
  · exact outlined.settled
  · exact outlined.lost

/-- A batch that was not sent before holds nothing that was accepted. -/
theorem WriterInvariant.not_mem_batch_of_accepted (invariant : WriterInvariant writer)
    {record : WalRecord} (accepted : record ∈ writer.accepted) : record ∉ writer.batch := by
  have apart := (List.nodup_append.mp (invariant.appended_nodup.sublist invariant.sent_appended)).2.2
  exact fun member => apart record (invariant.accepted_sent record accepted) record member rfl

/-- An event is appended. -/
theorem Outlined.append {op : StorageWriteOp} (outlined : Outlined history writer)
    {event : EventEnvelope} (told : op.envelope = some event) :
    Outlined (history ++ [.apply op]) (writer.appendNumbered event) := by
  have bound := outlined.batched
  have within := outlined.removed
  have length := outlined.appended
  have outline : LogOutline.ofSteps (history ++ [.apply op]) =
      { LogOutline.ofSteps history with
        appended := (LogOutline.ofSteps history).appended + 1
        batched := (LogOutline.ofSteps history).batched + 1 } := by
    rw [LogOutline.ofSteps_concat, LogOutline.step, told, Option.isSome_some, if_pos rfl]
  have keeps : ∀ first, LostBatch (history ++ [.apply op]) first ↔ LostBatch history first := by
    intro first
    rw [lostBatch_concat_iff]
    exact or_iff_left fun ⟨loses, _⟩ => by cases loses
  constructor <;> simp only [outline, keeps]
  · change (writer.appended ++ [_]).length = _
    rw [List.length_append, length, List.length_singleton]
  · omega
  · change writer.batch ++ [_] = (writer.appended ++ [_]).drop _
    rw [Nat.add_sub_add_right, List.drop_append_of_le_length (by omega), ← outlined.batch]
  · omega
  · change writer.wal ++ [_] = (writer.appended ++ [_]).drop _
    rw [List.drop_append_of_le_length (by omega), ← outlined.wal]
  · intro record member below early
    rcases List.mem_append.mp member with earlier | new
    · exact outlined.settled record earlier (by omega) early
    · rw [List.mem_singleton.mp new] at below
      change writer.appended.length + _ < _ at below
      omega
  · intro first lost
    obtain ⟨below, never⟩ := outlined.lost first lost
    exact ⟨by omega, never⟩

/-- A batch is lost, if there is one. -/
theorem Outlined.lose {after : Writer} (outlined : Outlined history writer)
    (invariant : WriterInvariant writer) (loses : next.loses = true)
    (appended : after.appended = writer.appended) (batch : after.batch = [])
    (wal : after.wal = writer.wal) (accepted : after.accepted = writer.accepted) :
    Outlined (history ++ [next]) after := by
  have bound := outlined.batched
  have outline : LogOutline.ofSteps (history ++ [next]) =
      { LogOutline.ofSteps history with batched := 0 } := by
    rw [LogOutline.ofSteps_concat, LogOutline.step_of_loses _ loses]
  constructor <;> simp only [outline, appended, batch, wal, accepted]
  · exact outlined.appended
  · exact Nat.zero_le _
  · rw [Nat.sub_zero, ← outlined.appended, List.drop_length]
  · exact outlined.removed
  · exact outlined.wal
  · intro record member _ early
    -- What is before the lost batch had left the batch before.
    have settled := outlined.settled record member
    by_cases empty : (LogOutline.ofSteps history).batched = 0
    · refine settled (by omega) fun first lost => early first ?_
      exact lostBatch_concat_iff.mpr (.inl lost)
    · have before := early _ (lostBatch_concat_iff.mpr (.inr ⟨loses, empty, Nat.sub_add_cancel bound⟩))
      exact settled (by omega) fun first lost => early first (lostBatch_concat_iff.mpr (.inl lost))
  · intro first lost
    rcases lostBatch_concat_iff.mp lost with earlier | ⟨-, filled, here⟩
    · obtain ⟨below, never⟩ := outlined.lost first earlier
      exact ⟨by omega, never⟩
    · refine ⟨by omega, fun record member same => ?_⟩
      have sent := invariant.accepted_sent record member
      have listed := invariant.sent_appended.subset (List.mem_append_left _ sent)
      refine invariant.not_mem_batch_of_accepted member ?_
      rw [outlined.batch]
      exact invariant.mem_drop_iff.mpr ⟨listed, by omega⟩

/-- A batch is accepted, and the log removed up to a position. -/
theorem Outlined.accept {after : Writer} {upTo : Nat} (outlined : Outlined history writer)
    (invariant : WriterInvariant writer) (filled : writer.batch ≠ [])
    (told : (LogOutline.ofSteps history).step next = (LogOutline.ofSteps history).accept upTo)
    (keeps : next.loses = false) (appended : after.appended = writer.appended)
    (batch : after.batch = []) (wal : after.wal = writer.appended.drop upTo)
    (accepted : after.accepted = writer.accepted ++ writer.batch) :
    Outlined (history ++ [next]) after := by
  have bound := outlined.batched
  have outline : LogOutline.ofSteps (history ++ [next]) =
      { LogOutline.ofSteps history with
        batched := 0, removed := min upTo (LogOutline.ofSteps history).appended } := by
    rw [LogOutline.ofSteps_concat, told, LogOutline.accept,
      if_neg fun empty => filled (outlined.batch_eq_nil_iff.mpr empty)]
  have same : ∀ first, LostBatch (history ++ [next]) first ↔ LostBatch history first := by
    intro first
    rw [lostBatch_concat_iff, keeps]
    exact or_iff_left fun ⟨loses, _⟩ => by cases loses
  constructor <;> simp only [outline, same, appended, batch, wal, accepted]
  · exact outlined.appended
  · exact Nat.zero_le _
  · rw [Nat.sub_zero, ← outlined.appended, List.drop_length]
  · exact Nat.min_le_right _ _
  · rcases Nat.le_total upTo (LogOutline.ofSteps history).appended with inside | beyond
    · rw [Nat.min_eq_left inside]
    · rw [Nat.min_eq_right beyond, ← outlined.appended, List.drop_length,
        List.drop_eq_nil_of_le (outlined.appended ▸ beyond)]
  · intro record member _ early
    by_cases settled : record.ticket + (LogOutline.ofSteps history).batched <
        (LogOutline.ofSteps history).appended
    · exact List.mem_append_left _ (outlined.settled record member settled early)
    · refine List.mem_append_right _ ?_
      rw [outlined.batch]
      exact invariant.mem_drop_iff.mpr ⟨member, by omega⟩
  · intro first lost
    obtain ⟨below, never⟩ := outlined.lost first lost
    refine ⟨by omega, fun record member => ?_⟩
    rcases List.mem_append.mp member with earlier | new
    · exact never record earlier
    · rw [outlined.batch] at new
      have late := (invariant.mem_drop_iff.mp new).2
      omega

/-- Every step keeps the writer to its history. -/
theorem Outlined.step (outlined : Outlined history writer) (invariant : WriterInvariant writer)
    (next : WriterStep) : Outlined (history ++ [next]) (writer.step next) := by
  have length := outlined.appended
  -- An accepted flush of an empty batch.
  have nothing : writer.batch = [] → ∀ upTo, (LogOutline.ofSteps history).accept upTo =
      LogOutline.ofSteps history := fun empty upTo => by
    rw [LogOutline.accept, if_pos (outlined.batch_eq_nil_iff.mp empty)]
  have keeps : ∀ {next : WriterStep}, next.loses = false →
      ∀ first, LostBatch (history ++ [next]) first ↔ LostBatch history first := by
    intro next still first
    rw [lostBatch_concat_iff, still]
    exact or_iff_left fun ⟨loses, _⟩ => by cases loses
  cases next with
  | apply op =>
      change Outlined _ (writer.applyWriteOp op)
      rcases applyWriteOp_cases writer op with ⟨event, told, appended⟩ | ⟨told, storage, projected⟩
      · rw [appended]
        exact outlined.append told
      · rw [projected]
        refine outlined.idle ?_ (keeps rfl) rfl rfl rfl rfl
        rw [LogOutline.ofSteps_concat, LogOutline.step, told, Option.isSome_none,
          if_neg Bool.false_ne_true]
  | flush accepts =>
      change Outlined _ (writer.flushBatch accepts)
      unfold flushBatch
      by_cases empty : writer.batch = []
      · rw [if_pos (by simp [empty])]
        cases accepts with
        | false => exact outlined.lose invariant rfl rfl empty rfl rfl
        | true =>
            refine outlined.idle ?_ (keeps rfl) rfl rfl rfl rfl
            rw [LogOutline.ofSteps_concat]
            exact nothing empty _
      · rw [if_neg (by simp [empty])]
        cases accepts with
        | false => exact outlined.lose invariant rfl rfl rfl rfl rfl
        | true =>
            refine outlined.accept invariant empty rfl rfl rfl rfl ?_ rfl
            rw [← length, List.drop_length]
            rfl
  | crash => exact outlined.lose invariant rfl rfl rfl rfl rfl
  | crashInFlush accepts cleared =>
      change Outlined _ (writer.crashInFlush accepts cleared)
      unfold crashInFlush
      by_cases empty : writer.batch = []
      · rw [if_pos (by simp [empty])]
        cases accepts with
        | false => exact outlined.lose invariant rfl rfl rfl rfl rfl
        | true =>
            refine outlined.idle ?_ (keeps rfl) rfl empty.symm rfl rfl
            rw [LogOutline.ofSteps_concat]
            exact nothing empty _
      · rw [if_neg (by simp [empty])]
        cases accepts with
        | false => exact outlined.lose invariant rfl rfl rfl rfl rfl
        | true =>
            refine outlined.accept invariant empty rfl rfl rfl rfl ?_ rfl
            rw [← List.drop_drop, ← outlined.wal]
            rfl

theorem Outlined.run (config : StorageConfig) (steps : List WriterStep) :
    Outlined steps (run config steps) := by
  induction steps using List.reverseRecOn with
  | nil => exact .nil config
  | append_singleton steps last ih =>
      rw [run_concat]
      exact ih.step (.run config steps) last

/-- What is removed of the log of an accepted batch was accepted exactly when it stops before the first
event of every lost batch. -/
theorem Outlined.covered_iff (outlined : Outlined history writer) (invariant : WriterInvariant writer)
    (durable : Durable writer) (cleared : Nat) :
    (∀ record ∈ writer.wal.take cleared, record ∈ writer.batch ∨ record ∈ writer.accepted) ↔
      ∀ first, LostBatch history first → (LogOutline.ofSteps history).removed + cleared ≤ first := by
  constructor
  · intro covered first lost
    obtain ⟨below, never⟩ := outlined.lost first lost
    have inside : first < writer.appended.length := by
      rw [outlined.appended]
      omega
    have ticket := invariant.ticket_getElem inside
    have rejected : writer.appended[first] ∉ writer.accepted := fun member => never _ member ticket
    -- The first event of the lost batch is still in the log, so not among what is removed.
    have logged := (durable _ (List.getElem_mem inside)).resolve_right rejected
    rw [← List.take_append_drop cleared writer.wal] at logged
    rcases List.mem_append.mp logged with out | still
    · refine absurd ((covered _ out).resolve_right rejected) fun batched => ?_
      rw [outlined.batch] at batched
      have late := (invariant.mem_drop_iff.mp batched).2
      omega
    · rw [outlined.wal, List.drop_drop] at still
      have late := (invariant.mem_drop_iff.mp still).2
      omega
  · intro spared record member
    rw [outlined.wal, List.take_drop] at member
    have early := List.mem_of_mem_drop member
    have listed := List.mem_of_mem_take early
    by_cases settled : record.ticket + (LogOutline.ofSteps history).batched <
        (LogOutline.ofSteps history).appended
    · refine .inr (outlined.settled record listed settled fun first lost => ?_)
      refine Nat.lt_of_lt_of_le ?_ (spared first lost)
      by_contra late
      refine List.disjoint_take_drop invariant.appended_nodup (Nat.le_refl _) early ?_
      exact invariant.mem_drop_iff.mpr ⟨listed, Nat.le_of_not_lt late⟩
    · refine .inl ?_
      rw [outlined.batch]
      exact invariant.mem_drop_iff.mpr ⟨listed, by omega⟩

/-- In a durable state a step removes only what was accepted exactly when it spares the lost
batches. -/
theorem Outlined.clearsAccepted_iff (outlined : Outlined history writer)
    (invariant : WriterInvariant writer) (durable : Durable writer) (next : WriterStep) :
    writer.ClearsAccepted next ↔ SparesLost history next := by
  cases next with
  | apply op => exact Iff.rfl
  | flush accepts =>
      cases accepts with
      | false => exact Iff.rfl
      | true =>
          refine imp_congr (not_congr outlined.batch_eq_nil_iff) ?_
          have whole := outlined.covered_iff invariant durable writer.wal.length
          rw [List.take_length] at whole
          rw [whole, outlined.wal, List.length_drop, outlined.appended]
          refine forall_congr' fun first => imp_congr_right fun lost => ?_
          have below := (outlined.lost first lost).1
          refine iff_of_false (fun late => ?_) id
          omega
  | crash => exact Iff.rfl
  | crashInFlush accepts cleared =>
      cases accepts with
      | false => exact Iff.rfl
      | true =>
          exact imp_congr (not_congr outlined.batch_eq_nil_iff)
            (outlined.covered_iff invariant durable cleared)

end Histories

/-- **The log is durable throughout a run exactly when no accepted flush of its history removes what a
lost batch left behind.** -/
theorem walDurable_iff (config : StorageConfig) (steps : List WriterStep) :
    (∀ before after, steps = before ++ after → Durable (run config before)) ↔
      ∀ before next after, steps = before ++ next :: after → SparesLost before next := by
  apply forall_front_iff
  · intro record member
    cases member
  · intro before next after whole durable
    rw [run_concat, durable.step_iff (.run config before) next]
    exact (Outlined.run config before).clearsAccepted_iff (.run config before) durable next

/-- One event is appended and its batch rejected, another one is appended and its batch accepted. -/
def rejectedThenAccepted : List WriterStep :=
  [.apply (.appendPayload "test" (.txSeen { hash := 10, peerId := "peer", seenAtUnixMs := 0
                                            seenAtMonoNs := 0 }) 0 0),
    .flush false,
    .apply (.appendPayload "test" (.txSeen { hash := 11, peerId := "peer", seenAtUnixMs := 0
                                             seenAtMonoNs := 0 }) 0 0),
    .flush true]

/-- The accepted flush clears the record of the rejected one. -/
theorem rejectedThenAccepted_not_durable : ¬ Durable (run {} rejectedThenAccepted) := by
  unfold Durable
  decide +kernel

end Writer

end Mempulse.Storage
