import Mempulse.Library.Splits
import Mempulse.Dashboard.Dispatch

/-!
# What a dispatch covers

A dispatch is built from one page of events. Without the gap flag it has, for every decoded
transaction and every detected opportunity of the page, the row of the event or of a later event of
the page that overwrote it. The flag is set when the page does not start at the event after the
cursor, and when the page has more keys than a table has rows.
-/

set_option autoImplicit false

namespace Mempulse.Dashboard

open EventLog Library

/-! ## One table -/

section Table

variable {Row Key : Type}

variable (rowOf : EventEnvelope → Option Row) (key : Row → Key)

/-- The table has the row of every event seen, or of a later one with its key, unless a row has
left. -/
structure Table (cap : Nat) (seen : List EventEnvelope) (rows : List Row) (dropped : Bool) :
    Prop where
  within : rows.length ≤ cap
  kept : dropped = false → ∀ before event after row, seen = before ++ event :: after →
    rowOf event = some row → ∃ later ∈ event :: after, ∃ latest, rowOf later = some latest ∧
      latest ∈ rows ∧ key latest = key row

variable {rowOf key} {cap : Nat} {seen : List EventEnvelope} {rows : List Row} {dropped : Bool}

theorem Table.nil (cap : Nat) (dropped : Bool) : Table rowOf key cap [] [] dropped where
  within := Nat.zero_le _
  kept := fun _ before _ _ _ split => absurd split (by simp)

theorem Table.of_dropped (table : Table rowOf key cap seen rows dropped) {flag : Bool}
    (flagged : flag = false → dropped = false) : Table rowOf key cap seen rows flag where
  within := table.within
  kept := fun unset => table.kept (flagged unset)

/-- An event without a row. -/
theorem Table.skip (table : Table rowOf key cap seen rows dropped) {event : EventEnvelope}
    (rowless : rowOf event = none) : Table rowOf key cap (seen ++ [event]) rows dropped := by
  refine ⟨table.within, fun unset before other after row split made => ?_⟩
  rcases split_append_singleton split with ⟨-, rfl, -⟩ | ⟨amid, rfl, earlier⟩
  · rw [rowless] at made
    cases made
  · obtain ⟨later, member, found⟩ := table.kept unset before other amid row earlier made
    exact ⟨later, List.mem_append_left [event] member, found⟩

variable [DecidableEq Key]

/-- What a push does: the row is in, the table keeps its cap, and unless a row left, every row
stays or had the key of the new one. -/
theorem pushStreamWithCap_spec (key : Row → Key) {rows : List Row} (row : Row) {pageLimit : Nat}
    (within : rows.length ≤ max pageLimit 1) :
    (pushStreamWithCap key rows row pageLimit).1.length ≤ max pageLimit 1 ∧
      row ∈ (pushStreamWithCap key rows row pageLimit).1 ∧
      ((pushStreamWithCap key rows row pageLimit).2 = false → ∀ kept ∈ rows,
        kept ∈ (pushStreamWithCap key rows row pageLimit).1 ∨ key kept = key row) := by
  unfold pushStreamWithCap
  dsimp only
  split
  case h_1 index found =>
    obtain ⟨bound, same, -⟩ := List.findIdx?_eq_some_iff_getElem.mp found
    refine ⟨by rw [List.length_set]; exact within, List.mem_set bound row, fun _ kept member => ?_⟩
    obtain ⟨position, inside, rfl⟩ := List.mem_iff_getElem.mp member
    by_cases here : index = position
    · subst here
      exact .inr (of_decide_eq_true same)
    · left
      refine List.mem_iff_getElem.mpr ⟨position, by rw [List.length_set]; exact inside, ?_⟩
      rw [List.getElem_set_ne here]
  case h_2 =>
    split
    case isTrue full =>
      refine ⟨?_, List.mem_append_right _ List.mem_cons_self, fun none => nomatch none⟩
      rw [List.length_append, List.length_drop, List.length_singleton]
      omega
    case isFalse room =>
      refine ⟨?_, List.mem_append_right _ List.mem_cons_self, fun _ kept member =>
        .inl (List.mem_append_left _ member)⟩
      rw [List.length_append, List.length_singleton]
      omega

/-- An event whose row is pushed. -/
theorem Table.push {pageLimit : Nat}
    (table : Table rowOf key (max pageLimit 1) seen rows dropped) {event : EventEnvelope} {row : Row}
    (made : rowOf event = some row) :
    Table rowOf key (max pageLimit 1) (seen ++ [event]) (pushStreamWithCap key rows row pageLimit).1
      (dropped || (pushStreamWithCap key rows row pageLimit).2) := by
  obtain ⟨length, pushed, stays⟩ := pushStreamWithCap_spec key row table.within
  refine ⟨length, fun unset before other after old split otherMade => ?_⟩
  obtain ⟨undropped, kept⟩ := Bool.or_eq_false_iff.mp unset
  rcases split_append_singleton split with ⟨-, rfl, rfl⟩ | ⟨amid, rfl, earlier⟩
  · cases made.symm.trans otherMade
    exact ⟨event, List.mem_cons_self, row, made, pushed, rfl⟩
  · obtain ⟨later, member, latest, laterMade, present, sameKey⟩ :=
      table.kept undropped before other amid old earlier otherMade
    rcases stays kept latest present with remains | overwritten
    · exact ⟨later, List.mem_append_left [event] member, latest, laterMade, remains, sameKey⟩
    · exact ⟨event, List.mem_append_right (other :: amid) List.mem_cons_self, row, made, pushed,
        overwritten.symm.trans sameKey⟩

/-- The keys of the rows of a page. -/
def keysOf (rowOf : EventEnvelope → Option Row) (key : Row → Key) (page : List EventEnvelope) :
    List Key :=
  page.filterMap fun event => (rowOf event).map key

/-- More keys than the table holds make a row leave. -/
theorem Table.dedup_keysOf_length_le (table : Table rowOf key cap seen rows false) :
    (keysOf rowOf key seen).dedup.length ≤ cap := by
  have held : ∀ each ∈ (keysOf rowOf key seen).dedup, each ∈ rows.map key := by
    intro each member
    obtain ⟨event, listed, keyed⟩ := List.mem_filterMap.mp (List.mem_dedup.mp member)
    obtain ⟨row, made, rfl⟩ := Option.map_eq_some_iff.mp keyed
    obtain ⟨before, after, split⟩ := List.append_of_mem listed
    obtain ⟨-, -, latest, -, present, same⟩ := table.kept rfl before event after row split made
    exact List.mem_map.mpr ⟨latest, present, same⟩
  have short := ((List.nodup_dedup _).subperm held).length_le
  rw [List.length_map] at short
  exact short.trans table.within

end Table

/-! ## One page -/

/-- The events that become rows. -/
def Relevant (event : EventEnvelope) : Prop :=
  match event.payload with
  | .txDecoded _ | .oppDetected _ => True
  | _ => False

instance : DecidablePred Relevant := fun event => by
  unfold Relevant
  split <;> infer_instance

/-- The page does not start at the event after the cursor. -/
def StartsBeyond (afterSeqId : UInt64) (page : List EventEnvelope) : Prop :=
  ∃ first, page.head? = some first ∧ 0 < afterSeqId ∧
    saturatingAdd u64Max afterSeqId.toNat 1 < first.seqId.toNat

/-- The page has more transactions or more opportunities than a dispatch has rows. -/
def Overflows (provider : VizDataProvider) (pageLimit : Nat) (page : List EventEnvelope) : Prop :=
  max pageLimit 1 < (keysOf transactionSummaryFromEvent (·.hash) page).dedup.length ∨
    max pageLimit 1 <
      (keysOf (opportunityDetailFromEvent provider) OpportunityDetail.key page).dedup.length

/-- The draft after the events of a page. -/
structure Drafted (provider : VizDataProvider) (afterSeqId : UInt64) (pageLimit : Nat)
    (seen : List EventEnvelope) (draft : DispatchDraft) : Prop where
  starts : draft.seqStart = (seen.head?.map (·.seqId)).getD 0
  ends : draft.seqEnd = (seen.getLast?.map (·.seqId)).getD afterSeqId
  above : ∀ event ∈ seen, afterSeqId < event.seqId
  gap : draft.hasGap = false → ¬ StartsBeyond afterSeqId seen
  summaries : Table transactionSummaryFromEvent (·.hash) (max pageLimit 1) seen draft.transactions
    draft.hasGap
  opportunities : Table (opportunityDetailFromEvent provider) OpportunityDetail.key (max pageLimit 1)
    seen draft.opportunityUpsert draft.hasGap
  quiet : (∀ event ∈ seen, ¬ Relevant event) →
    draft.transactions = [] ∧ draft.featureUpsert = [] ∧ draft.opportunityUpsert = []

section Draft

variable {provider : VizDataProvider} {afterSeqId : UInt64} {pageLimit : Nat}
  {seen : List EventEnvelope} {draft : DispatchDraft} {event : EventEnvelope}

theorem Drafted.nil : Drafted provider afterSeqId pageLimit [] { seqEnd := afterSeqId } where
  starts := rfl
  ends := rfl
  above := by simp
  gap := by simp [StartsBeyond]
  summaries := .nil _ _
  opportunities := .nil _ _
  quiet := fun _ => ⟨rfl, rfl, rfl⟩

/-- What the first event of a page sets, and what every event does. -/
theorem Drafted.advance_fields (drafted : Drafted provider afterSeqId pageLimit seen draft)
    (next : afterSeqId < event.seqId) :
    (draft.advance afterSeqId event.seqId).seqStart = ((seen ++ [event]).head?.map (·.seqId)).getD 0 ∧
      (draft.advance afterSeqId event.seqId).seqEnd = event.seqId ∧
      (draft.advance afterSeqId event.seqId).transactions = draft.transactions ∧
      (draft.advance afterSeqId event.seqId).featureUpsert = draft.featureUpsert ∧
      (draft.advance afterSeqId event.seqId).opportunityUpsert = draft.opportunityUpsert ∧
      ((draft.advance afterSeqId event.seqId).hasGap = false →
        draft.hasGap = false ∧ ¬ StartsBeyond afterSeqId (seen ++ [event])) := by
  have positive : (0 : UInt64) < event.seqId := UInt64.lt_of_le_of_lt UInt64.zero_le next
  have starts := drafted.starts
  cases seen with
  | nil =>
      have untouched : draft.seqStart = 0 := starts
      rw [DispatchDraft.advance, if_pos untouched]
      refine ⟨rfl, rfl, rfl, rfl, rfl, fun unset => ?_⟩
      obtain ⟨before, near⟩ := Bool.or_eq_false_iff.mp unset
      refine ⟨before, ?_⟩
      rintro ⟨first, same, resumed, beyond⟩
      cases same
      rw [Bool.and_eq_false_iff] at near
      rcases near with zero | reached
      · exact absurd resumed (of_decide_eq_false zero)
      · exact absurd beyond (of_decide_eq_false reached)
  | cons first rest =>
      have later := UInt64.lt_of_le_of_lt UInt64.zero_le (drafted.above first List.mem_cons_self)
      have started : draft.seqStart ≠ 0 := by
        rw [starts]
        exact (UInt64.ne_of_lt later).symm
      rw [DispatchDraft.advance, if_neg started]
      exact ⟨starts, rfl, rfl, rfl, rfl, fun unset => ⟨unset, drafted.gap unset⟩⟩

/-- The rows of one event: what each table gets, and that the flag is set when a row leaves. -/
structure RowsAdded (provider : VizDataProvider) (pageLimit : Nat) (event : EventEnvelope)
    (draft next : DispatchDraft) : Prop where
  seqStart : next.seqStart = draft.seqStart
  seqEnd : next.seqEnd = draft.seqEnd
  transactions : ∀ summary, transactionSummaryFromEvent event = some summary →
    next.transactions = (pushStreamSummaryWithCap draft.transactions summary pageLimit).1 ∧
      (next.hasGap = false →
        (pushStreamSummaryWithCap draft.transactions summary pageLimit).2 = false)
  noTransactions : transactionSummaryFromEvent event = none →
    next.transactions = draft.transactions ∧ next.featureUpsert = draft.featureUpsert
  opportunities : ∀ opportunity, opportunityDetailFromEvent provider event = some opportunity →
    next.opportunityUpsert =
        (pushStreamOpportunityWithCap draft.opportunityUpsert opportunity pageLimit).1 ∧
      (next.hasGap = false →
        (pushStreamOpportunityWithCap draft.opportunityUpsert opportunity pageLimit).2 = false)
  noOpportunities : opportunityDetailFromEvent provider event = none →
    next.opportunityUpsert = draft.opportunityUpsert
  gap : next.hasGap = false → draft.hasGap = false

theorem DispatchDraft.addRows_spec (provider : VizDataProvider) (pageLimit : Nat)
    (event : EventEnvelope) (draft : DispatchDraft) :
    RowsAdded provider pageLimit event draft (draft.addRows provider pageLimit event) := by
  unfold DispatchDraft.addRows
  cases summarized : transactionSummaryFromEvent event with
  | none =>
      cases detected : opportunityDetailFromEvent provider event with
      | none => constructor <;> simp [detected, summarized]
      | some opportunity =>
          constructor <;> simp +contextual [detected, summarized, addOpportunity]
  | some summary =>
      cases featured : featureDetailForHash provider summary.hash with
      | none =>
          cases detected : opportunityDetailFromEvent provider event with
          | none => constructor <;> simp +contextual [detected, summarized, featured, addSummary]
          | some opportunity =>
              constructor <;>
                simp +contextual [detected, summarized, featured, addSummary, addOpportunity]
      | some feature =>
          cases detected : opportunityDetailFromEvent provider event with
          | none =>
              constructor <;>
                simp +contextual [detected, summarized, featured, addSummary, addFeature]
          | some opportunity =>
              constructor <;> simp +contextual [detected, summarized, featured, addSummary,
                addFeature, addOpportunity]

theorem rowless_of_not_relevant (provider : VizDataProvider) (irrelevant : ¬ Relevant event) :
    transactionSummaryFromEvent event = none ∧ opportunityDetailFromEvent provider event = none := by
  unfold Relevant at irrelevant
  unfold transactionSummaryFromEvent opportunityDetailFromEvent
  cases payload : event.payload <;> simp_all

/-- **What one event of a page adds to the draft.** -/
theorem Drafted.visit (drafted : Drafted provider afterSeqId pageLimit seen draft)
    (next : afterSeqId < event.seqId) :
    Drafted provider afterSeqId pageLimit (seen ++ [event])
      (draft.visit provider afterSeqId pageLimit event) := by
  have after : ¬ event.seqId ≤ afterSeqId := UInt64.not_le.mpr next
  rw [DispatchDraft.visit, if_neg after]
  obtain ⟨starts, ends, transactions, features, opportunities, gap⟩ := drafted.advance_fields next
  have rows := (draft.advance afterSeqId event.seqId).addRows_spec provider pageLimit event
  have unset := fun set_ => (gap (rows.gap set_)).1
  refine ⟨rows.seqStart.trans starts, ?_, ?_, fun set_ => (gap (rows.gap set_)).2, ?_, ?_, ?_⟩
  · rw [rows.seqEnd, ends, List.getLast?_concat]
    rfl
  · intro other member
    rcases List.mem_append.mp member with earlier | last
    · exact drafted.above other earlier
    · rw [List.mem_singleton.mp last]
      exact next
  · cases made : transactionSummaryFromEvent event with
    | none =>
        rw [(rows.noTransactions made).1, transactions]
        exact (drafted.summaries.skip made).of_dropped unset
    | some summary =>
        obtain ⟨pushed, dropped⟩ := rows.transactions summary made
        rw [pushed, transactions]
        rw [transactions] at dropped
        refine (drafted.summaries.push made).of_dropped fun set_ => ?_
        rw [unset set_]
        exact dropped set_
  · cases made : opportunityDetailFromEvent provider event with
    | none =>
        rw [rows.noOpportunities made, opportunities]
        exact (drafted.opportunities.skip made).of_dropped unset
    | some opportunity =>
        obtain ⟨pushed, dropped⟩ := rows.opportunities opportunity made
        rw [pushed, opportunities]
        rw [opportunities] at dropped
        refine (drafted.opportunities.push made).of_dropped fun set_ => ?_
        rw [unset set_]
        exact dropped set_
  · intro irrelevant
    obtain ⟨noSummary, noOpportunity⟩ := rowless_of_not_relevant provider
      (irrelevant event (List.mem_append_right _ List.mem_cons_self))
    obtain ⟨noRows, noFeatures, noDetections⟩ := drafted.quiet fun other member =>
      irrelevant other (List.mem_append_left _ member)
    obtain ⟨sameRows, sameFeatures⟩ := rows.noTransactions noSummary
    exact ⟨sameRows.trans (transactions.trans noRows), sameFeatures.trans (features.trans noFeatures),
      (rows.noOpportunities noOpportunity).trans (opportunities.trans noDetections)⟩

/-- The draft of a whole page. -/
theorem drafted_foldl (provider : VizDataProvider) (afterSeqId : UInt64) (pageLimit : Nat)
    (page : List EventEnvelope) :
    Drafted provider afterSeqId pageLimit (page.filter fun event => afterSeqId < event.seqId)
      (page.foldl (DispatchDraft.visit provider afterSeqId pageLimit) { seqEnd := afterSeqId }) := by
  induction page using List.reverseRecOn with
  | nil => exact .nil
  | append_singleton page event ih =>
      rw [List.foldl_append, List.filter_append]
      by_cases next : afterSeqId < event.seqId
      · rw [List.filter_cons_of_pos (by simpa using next), List.filter_nil]
        exact ih.visit next
      · rw [List.filter_cons_of_neg (by simpa using next), List.filter_nil, List.append_nil]
        rw [List.foldl_cons, List.foldl_nil, DispatchDraft.visit,
          if_pos (UInt64.not_lt.mp next)]
        exact ih

end Draft

/-! ## The dispatch of a page -/

/-- The dispatch has the row of an event, or of a later event with the row's key. -/
def Carries (provider : VizDataProvider) (page : List EventEnvelope) (dispatch : StreamV2Dispatch)
    (event : EventEnvelope) : Prop :=
  ∃ later ∈ page, event.seqId ≤ later.seqId ∧
    ((∃ row latest, transactionSummaryFromEvent event = some row ∧
        transactionSummaryFromEvent later = some latest ∧ latest ∈ dispatch.patch.upsert ∧
        latest.hash = row.hash) ∨
      ∃ row latest, opportunityDetailFromEvent provider event = some row ∧
        opportunityDetailFromEvent provider later = some latest ∧
        latest ∈ dispatch.patch.opportunityUpsert ∧ latest.key = row.key)

/-- The events of a page that a tick looks at. -/
def pageAfter (provider : VizDataProvider) (afterSeqId : UInt64) (pageLimit : Nat) :
    List EventEnvelope :=
  (provider.events afterSeqId (maxScanEventsPerTick pageLimit)).filter
    fun event => afterSeqId < event.seqId

/-- The page announces a gap: it starts beyond the event after the cursor, or has too many keys. -/
def Announces (provider : VizDataProvider) (afterSeqId : UInt64) (pageLimit : Nat) : Prop :=
  StartsBeyond afterSeqId (pageAfter provider afterSeqId pageLimit) ∨
    Overflows provider pageLimit (pageAfter provider afterSeqId pageLimit)

theorem row_of_relevant (provider : VizDataProvider) {event : EventEnvelope}
    (relevant : Relevant event) : (∃ row, transactionSummaryFromEvent event = some row) ∨
      ∃ row, opportunityDetailFromEvent provider event = some row := by
  unfold Relevant at relevant
  unfold transactionSummaryFromEvent opportunityDetailFromEvent
  split at relevant
  case h_1 decoded payload => rw [payload]; exact .inl ⟨_, rfl⟩
  case h_2 detected payload => rw [payload]; exact .inr ⟨_, rfl⟩
  case h_3 => exact relevant.elim

/-- The row a table has for an event of an ordered page is the event's or a later one's. -/
theorem Table.carried {Row Key : Type} {rowOf : EventEnvelope → Option Row} {key : Row → Key}
    {cap : Nat} {page : List EventEnvelope} {rows : List Row}
    (table : Table rowOf key cap page rows false)
    (ordered : page.Pairwise fun earlier later => earlier.seqId ≤ later.seqId)
    {event : EventEnvelope} (listed : event ∈ page) {row : Row} (made : rowOf event = some row) :
    ∃ later ∈ page, event.seqId ≤ later.seqId ∧ ∃ latest, rowOf later = some latest ∧
      latest ∈ rows ∧ key latest = key row := by
  obtain ⟨before, after, rfl⟩ := List.append_of_mem listed
  obtain ⟨later, member, found⟩ := table.kept rfl before event after row rfl made
  refine ⟨later, List.mem_append_right before member, ?_, found⟩
  rcases List.mem_cons.mp member with rfl | behind
  · exact UInt64.le_refl _
  · exact (List.pairwise_cons.mp (List.pairwise_append.mp ordered).2.1).1 later behind

/-- **What a dispatch covers.** It ends with the last event of its page. When the page announces a
gap it has the flag, and without the flag it carries every relevant event of the page. -/
theorem buildDashboardEventsV1Dispatch_spec {provider : VizDataProvider} {afterSeqId : UInt64}
    {pageLimit : Nat} {dispatch : StreamV2Dispatch}
    (built : buildDashboardEventsV1Dispatch provider afterSeqId pageLimit = some dispatch)
    (ordered : (pageAfter provider afterSeqId pageLimit).Pairwise
      fun earlier later => earlier.seqId ≤ later.seqId) :
    (∃ last, (pageAfter provider afterSeqId pageLimit).getLast? = some last ∧
        dispatch.seq = last.seqId) ∧
      (∃ event ∈ pageAfter provider afterSeqId pageLimit, Relevant event) ∧
      (Announces provider afterSeqId pageLimit → dispatch.hasGap = true) ∧
      (dispatch.hasGap = false → ∀ event ∈ pageAfter provider afterSeqId pageLimit, Relevant event →
        Carries provider (pageAfter provider afterSeqId pageLimit) dispatch event) := by
  have drafted := drafted_foldl provider afterSeqId pageLimit
    (provider.events afterSeqId (maxScanEventsPerTick pageLimit))
  change Drafted _ _ _ (pageAfter provider afterSeqId pageLimit) _ at drafted
  unfold buildDashboardEventsV1Dispatch at built
  dsimp only at built
  split at built
  · cases built
  split at built
  · cases built
  case isFalse filled =>
    rw [not_or] at filled
    obtain ⟨started, rows⟩ := filled
    cases built
    refine ⟨?_, ?_, ?_, ?_⟩
    · cases final : (pageAfter provider afterSeqId pageLimit).getLast? with
      | none =>
          rw [drafted.starts, List.getLast?_eq_none_iff.mp final] at started
          exact absurd rfl started
      | some last =>
          refine ⟨last, rfl, drafted.ends.trans ?_⟩
          rw [final]
          rfl
    · by_contra! irrelevant
      obtain ⟨noRows, noFeatures, noDetections⟩ := drafted.quiet irrelevant
      rw [noRows, noFeatures, noDetections] at rows
      exact rows ⟨rfl, rfl, rfl⟩
    · intro announces
      by_contra flag
      have unset := Bool.eq_false_of_not_eq_true flag
      rcases announces with beyond | many | many
      · exact drafted.gap unset beyond
      · exact absurd (drafted.summaries.of_dropped fun _ => unset).dedup_keysOf_length_le
          (Nat.not_le_of_lt many)
      · exact absurd (drafted.opportunities.of_dropped fun _ => unset).dedup_keysOf_length_le
          (Nat.not_le_of_lt many)
    · intro unset event listed relevant
      rcases row_of_relevant provider relevant with ⟨row, made⟩ | ⟨row, made⟩
      · obtain ⟨later, member, order, latest, found⟩ :=
          (drafted.summaries.of_dropped fun _ => unset).carried ordered listed made
        exact ⟨later, member, order, .inl ⟨row, latest, made, found⟩⟩
      · obtain ⟨later, member, order, latest, found⟩ :=
          (drafted.opportunities.of_dropped fun _ => unset).carried ordered listed made
        exact ⟨later, member, order, .inr ⟨row, latest, made, found⟩⟩

end Mempulse.Dashboard
