import Mempulse.Dashboard.Coverage
import Mempulse.Library.Runs
import Mempulse.Storage.EventIndex

/-!
# The stream producer

Once a second the producer asks the storage for the events after its cursor. It publishes what
becomes rows and moves the cursor to the end of the page; a page without rows makes it read the
latest sequence id and move the cursor there. The storage goes on appending and evicting events all
the while, between the two reads of a tick as well.
-/

set_option autoImplicit false

namespace Mempulse.Dashboard

open EventLog Storage Library

/-! ## The producer -/

/-- What a tick finds in the tables of the storage, beside the events. -/
structure Lookups where
  transactionDetailByHash : String → Option TransactionDetail
  marketStats : MarketStats

/-- The storage as the stream's data provider. -/
def storageProvider (storage : InMemoryStorage) (lookups : Lookups) : VizDataProvider where
  events := fun afterSeqId limit =>
    (storage.scanEvents afterSeqId (max (saturatingMul usizeMax limit 2) limit)).take limit
  latestSeqId := storage.latestSeqId
  transactionDetailByHash := lookups.transactionDetailByHash
  marketStats := lookups.marketStats

/-- `DASHBOARD_STREAM_BROADCAST_PAGE_LIMIT`. -/
def broadcastPageLimit : Nat := 20

/-- The producer and the storage it reads, with the dispatches it has published. -/
structure ProducerState where
  storage : InMemoryStorage
  afterSeqId : UInt64 := 0
  /-- The tick has found nothing to publish and is about to read the latest sequence id. -/
  stalled : Bool := false
  published : List StreamV2Dispatch := []

/-- A write to the storage, or a step of the producer. -/
inductive ProducerStep where
  | append (event : EventEnvelope)
  | tick (lookups : Lookups)
  | readLatest

namespace ProducerState

/-- The effect of a step, where it is possible. -/
def step (state : ProducerState) : ProducerStep → Option ProducerState
  | .append event => some { state with storage := state.storage.appendEvent event }
  | .tick lookups =>
    if state.stalled then none
    else
      match buildDashboardEventsV1Dispatch (storageProvider state.storage lookups) state.afterSeqId
          broadcastPageLimit with
      | some dispatch =>
        some { state with afterSeqId := dispatch.seq, published := state.published ++ [dispatch] }
      | none => some { state with stalled := true }
  | .readLatest =>
    if state.stalled then
      let latestSeqId := state.storage.latestSeqId.getD state.afterSeqId
      some { state with afterSeqId := max state.afterSeqId latestSeqId, stalled := false }
    else none

/-- The producer can take the step. -/
def Takes (state : ProducerState) (label : ProducerStep) (next : ProducerState) : Prop :=
  state.step label = some next

/-- The producer over an empty storage. -/
def start (config : StorageConfig) : ProducerState where
  storage := .withConfig config

/-- The page a tick looks at. -/
def page (state : ProducerState) (lookups : Lookups) : List EventEnvelope :=
  pageAfter (storageProvider state.storage lookups) state.afterSeqId broadcastPageLimit

end ProducerState

/-- The event a step appends. -/
def ProducerStep.appended : ProducerStep → List EventEnvelope
  | .append event => [event]
  | .tick _ | .readLatest => []

/-- The events a history appends. -/
def appendedIn (history : List ProducerStep) : List EventEnvelope :=
  history.flatMap ProducerStep.appended

/-! ## Gap honesty -/

/-- An event lies behind a published dispatch with the gap flag. -/
def Announced (published : List StreamV2Dispatch) (event : EventEnvelope) : Prop :=
  ∃ dispatch ∈ published, dispatch.hasGap = true ∧ event.seqId ≤ dispatch.seq

/-- A published dispatch has the row of an event, or that of a later event which overwrote it. -/
def Delivered (appended : List EventEnvelope) (published : List StreamV2Dispatch)
    (event : EventEnvelope) : Prop :=
  ∃ dispatch ∈ published, event.seqId ≤ dispatch.seq ∧
    ∃ provider, Carries provider appended dispatch event

/-- **The producer is gap-honest.** Every event that becomes a row and lies behind the cursor has
been delivered or announced as lost. -/
def GapHonest (appended : List EventEnvelope) (state : ProducerState) : Prop :=
  ∀ event ∈ appended, Relevant event → event.seqId ≤ state.afterSeqId →
    Delivered appended state.published event ∨ Announced state.published event

/-- What keeps a step from leaving an event behind. -/
def ProducerState.Meets (appended : List EventEnvelope) (state : ProducerState) :
    ProducerStep → Prop
  -- The event lands above the cursor, or in a range announced as lost.
  | .append event =>
    Relevant event → state.afterSeqId < event.seqId ∨ Announced state.published event
  -- The page of a dispatch announces a gap, or has every event in its range.
  | .tick lookups => (∃ event ∈ state.page lookups, Relevant event) →
    Announces (storageProvider state.storage lookups) state.afterSeqId broadcastPageLimit ∨
      ∀ event ∈ appended, Relevant event → state.afterSeqId < event.seqId →
        (∃ last ∈ (state.page lookups).getLast?, event.seqId ≤ last.seqId) →
          event ∈ state.page lookups
  -- Nothing that becomes a row lies between the cursor and the latest event.
  | .readLatest => ∀ event ∈ appended, Relevant event → state.afterSeqId < event.seqId →
    state.storage.latestSeqId.getD state.afterSeqId < event.seqId

theorem appendedIn_concat (history : List ProducerStep) (label : ProducerStep) :
    appendedIn (history ++ [label]) = appendedIn history ++ label.appended := by
  rw [appendedIn, List.flatMap_append, List.flatMap_singleton, appendedIn]

theorem Delivered.mono {appended : List EventEnvelope} {published : List StreamV2Dispatch}
    {event : EventEnvelope} (delivered : Delivered appended published event)
    (more : List EventEnvelope) (others : List StreamV2Dispatch) :
    Delivered (appended ++ more) (published ++ others) event := by
  obtain ⟨dispatch, member, behind, provider, later, listed, carried⟩ := delivered
  exact ⟨dispatch, List.mem_append_left _ member, behind, provider, later,
    List.mem_append_left _ listed, carried⟩

theorem Announced.mono {published : List StreamV2Dispatch} {event : EventEnvelope}
    (announced : Announced published event) (others : List StreamV2Dispatch) :
    Announced (published ++ others) event := by
  obtain ⟨dispatch, member, flag, behind⟩ := announced
  exact ⟨dispatch, List.mem_append_left _ member, flag, behind⟩

/-! ## The page of a tick -/

section Page

variable {config : StorageConfig} {appended : List EventEnvelope}

theorem indexed_appendEvents (config : StorageConfig) (appended : List EventEnvelope) :
    Ordered cmpDeterministic ((InMemoryStorage.withConfig config).appendEvents appended).eventIndex ∧
      ∀ event ∈ ((InMemoryStorage.withConfig config).appendEvents appended).eventIndex,
        event ∈ appended := by
  have fresh : InMemoryStorage.Indexed (InMemoryStorage.withConfig config).eventIndex
      (InMemoryStorage.withConfig config).events := ⟨List.Pairwise.nil, List.Perm.refl _⟩
  obtain ⟨-, kept, indexed⟩ :=
    InMemoryStorage.appendEvents_spec fresh (Nat.zero_le _) appended
  refine ⟨indexed.ordered, fun event member => ?_⟩
  have retained := indexed.perm.mem_iff.mp member
  rw [kept] at retained
  exact List.mem_of_mem_drop retained

/-- The page is part of what was appended, in the order of its sequence ids. -/
theorem page_spec {state : ProducerState}
    (stored : state.storage = (InMemoryStorage.withConfig config).appendEvents appended)
    (lookups : Lookups) :
    (state.page lookups).Pairwise (fun earlier later => earlier.seqId ≤ later.seqId) ∧
      ∀ event ∈ state.page lookups, event ∈ appended := by
  obtain ⟨ordered, members⟩ := indexed_appendEvents config appended
  rw [← stored] at ordered members
  have sublist : (state.page lookups).Sublist state.storage.eventIndex := by
    refine List.filter_sublist.trans ((List.take_sublist _ _).trans ?_)
    exact (List.take_sublist _ _).trans (List.drop_sublist _ _)
  refine ⟨(ordered.sublist sublist).imp fun below => ?_, fun event member =>
    members event (sublist.subset member)⟩
  exact UInt64.le_iff_toNat_le.mpr (seqId_le_of_isLE below)

end Page

/-! ## Runs -/

/-- **What one step keeps.** -/
theorem GapHonest.step {config : StorageConfig} {appended : List EventEnvelope}
    {state next : ProducerState} {label : ProducerStep}
    (stored : state.storage = (InMemoryStorage.withConfig config).appendEvents appended)
    (honest : GapHonest appended state) (met : state.Meets appended label)
    (taken : state.Takes label next) :
    GapHonest (appended ++ label.appended) next := by
  unfold ProducerState.Takes ProducerState.step at taken
  cases label with
  | append appendedEvent =>
      cases taken
      intro event listed relevant behind
      have kept : ∀ event ∈ appended, Relevant event → event.seqId ≤ state.afterSeqId →
          Delivered (appended ++ [appendedEvent]) state.published event ∨
            Announced state.published event := by
        intro event listed relevant behind
        refine (honest event listed relevant behind).imp (fun delivered => ?_) id
        have grown := delivered.mono [appendedEvent] []
        rwa [List.append_nil] at grown
      rcases List.mem_append.mp listed with before | now
      · exact kept event before relevant behind
      · cases List.mem_singleton.mp now
        rcases met relevant with above | announced
        · exact absurd behind (UInt64.not_le.mpr above)
        · exact .inr announced
  | tick lookups =>
      dsimp only [ProducerStep.appended] at taken met ⊢
      rw [List.append_nil]
      split at taken
      · cases taken
      split at taken
      case h_1 dispatch built =>
        cases taken
        obtain ⟨order, members⟩ := page_spec stored lookups
        obtain ⟨⟨last, final, ends⟩, relevantPage, announces, carries⟩ :=
          buildDashboardEventsV1Dispatch_spec built order
        intro event listed relevant behind
        by_cases before : event.seqId ≤ state.afterSeqId
        · have kept := (honest event listed relevant before).imp
            (fun delivered => delivered.mono [] [dispatch])
            (fun announced => announced.mono [dispatch])
          rwa [List.append_nil] at kept
        · have published : dispatch ∈ state.published ++ [dispatch] :=
            List.mem_append_right _ List.mem_cons_self
          by_cases flag : dispatch.hasGap = true
          · exact .inr ⟨dispatch, published, flag, behind⟩
          · have unset := Bool.eq_false_of_not_eq_true flag
            rcases met relevantPage with announced | whole
            · exact absurd (announces announced) flag
            · have inPage := whole event listed relevant (UInt64.not_le.mp before)
                ⟨last, final, ends ▸ behind⟩
              obtain ⟨later, member, carried⟩ := carries unset event inPage relevant
              exact .inl ⟨dispatch, published, behind, _, later, members later member, carried⟩
      case h_2 =>
        cases taken
        exact honest
  | readLatest =>
      dsimp only [ProducerStep.appended] at taken met ⊢
      rw [List.append_nil]
      split at taken
      · cases taken
        intro event listed relevant behind
        by_cases before : event.seqId ≤ state.afterSeqId
        · exact honest event listed relevant before
        · have beyond := UInt64.not_le.mp before
          have latest := met event listed relevant beyond
          change event.seqId ≤ if state.afterSeqId ≤ state.storage.latestSeqId.getD state.afterSeqId
            then state.storage.latestSeqId.getD state.afterSeqId else state.afterSeqId at behind
          split at behind
          · exact absurd behind (UInt64.not_le.mpr latest)
          · exact absurd behind before
      · cases taken

theorem storage_takes {state next : ProducerState} {label : ProducerStep}
    (taken : state.Takes label next) :
    next.storage = state.storage.appendEvents label.appended := by
  unfold ProducerState.Takes ProducerState.step at taken
  cases label with
  | append event =>
      cases taken
      rfl
  | tick lookups =>
      dsimp only at taken ⊢
      split at taken
      · cases taken
      split at taken <;> cases taken <;> rfl
  | readLatest =>
      dsimp only at taken ⊢
      split at taken
      · cases taken
        rfl
      · cases taken

theorem ProducerState.stored_of_run (config : StorageConfig) {history : List ProducerStep}
    {last : ProducerState} (run : Run ProducerState.Takes (ProducerState.start config) history last) :
    last.storage = (InMemoryStorage.withConfig config).appendEvents (appendedIn history) := by
  refine run.invariant (motive := fun past state =>
    state.storage = (InMemoryStorage.withConfig config).appendEvents (appendedIn past)) rfl ?_
  intro past state next label _ stored taken
  rw [appendedIn_concat, storage_takes taken, stored, InMemoryStorage.appendEvents,
    InMemoryStorage.appendEvents, InMemoryStorage.appendEvents, List.foldl_append]

/-- **When the producer is gap-honest.** In every run over an empty storage of any capacity, whose
appends and ticks each leave no event behind, every event that becomes a row and lies behind the
cursor has been delivered or announced as lost. -/
theorem gapHonest_of_run (config : StorageConfig) {history : List ProducerStep}
    {last : ProducerState} (run : Run ProducerState.Takes (ProducerState.start config) history last)
    (met : ∀ past label rest state, history = past ++ label :: rest →
      Run ProducerState.Takes (ProducerState.start config) past state →
        state.Meets (appendedIn past) label) :
    GapHonest (appendedIn history) last := by
  refine run.invariant_of_history (motive := fun past state => GapHonest (appendedIn past) state)
    (by simp [GapHonest, appendedIn]) ?_
  intro past state next label rest whole front honest taken
  rw [appendedIn_concat]
  exact honest.step (ProducerState.stored_of_run config front)
    (met past label rest state whole front) taken

/-- A decoded transaction under a sequence id. -/
def decodedEvent (seqId : UInt64) (hash : TxHash) : EventEnvelope :=
  sampleEnvelope seqId
    (.txDecoded
      { hash := hash, txType := 2, sender := 1, nonce := 0, chainId := some 1, toAddress := none
        valueWei := none, gasLimit := none, gasPriceWei := none, maxFeePerGasWei := none
        maxPriorityFeePerGasWei := none, maxFeePerBlobGasWei := none, calldataLen := none })

/-- Empty tables. -/
def noLookups : Lookups where
  transactionDetailByHash := fun _ => none
  marketStats :=
    { totalSignalVolume := 0, totalTxCount := 0, lowRiskCount := 0, mediumRiskCount := 0
      highRiskCount := 0, successRateBps := 0 }

/-- The state after a history, where its steps are possible. -/
def ProducerState.after (config : StorageConfig) (history : List ProducerStep) : ProducerState :=
  (history.foldlM ProducerState.step (.start config)).getD (.start config)

theorem ProducerState.run_after {config : StorageConfig} {history : List ProducerStep}
    (possible : (history.foldlM ProducerState.step (.start config)).isSome = true) :
    Run ProducerState.Takes (.start config) history (.after config history) := by
  obtain ⟨last, executed⟩ := Option.isSome_iff_exists.mp possible
  rw [ProducerState.after, executed]
  exact Run.of_foldlM executed

/-- One transaction, and a tick. -/
def deliveredOnTick : List ProducerStep := [.append (decodedEvent 1 10), .tick noLookups]

theorem deliveredOnTick_gapHonest :
    GapHonest (appendedIn deliveredOnTick) (.after {} deliveredOnTick) := by
  refine gapHonest_of_run {} (ProducerState.run_after (by decide +kernel))
    fun past label rest state whole front => ?_
  match past with
  | [] =>
      obtain ⟨rfl, -⟩ := List.cons.inj whole
      intro _
      cases front
      exact .inl (by decide)
  | [first] =>
      obtain ⟨rfl, others⟩ := List.cons.inj whole
      obtain ⟨rfl, -⟩ := List.cons.inj others
      rintro -
      cases front with
      | cons head tail =>
          cases tail
          cases head
          right
          intro event listed _ _ _
          cases List.mem_singleton.mp listed
          decide +kernel
  | first :: second :: more => simp [deliveredOnTick] at whole

/-- Two transactions before the first tick. -/
def twoBeforeFirstTick : List ProducerStep :=
  [.append (decodedEvent 1 10), .append (decodedEvent 2 11), .tick noLookups]

/-- The storage retains one event: the first page starts at the second transaction, and no gap is
announced. -/
theorem twoBeforeFirstTick_not_gapHonest :
    Run ProducerState.Takes (.start { eventCapacity := 1 }) twoBeforeFirstTick
        (.after { eventCapacity := 1 } twoBeforeFirstTick) ∧
      ¬ GapHonest (appendedIn twoBeforeFirstTick)
        (.after { eventCapacity := 1 } twoBeforeFirstTick) := by
  refine ⟨ProducerState.run_after (by decide +kernel), fun honest => ?_⟩
  have flags : ∀ dispatch ∈
      (ProducerState.after { eventCapacity := 1 } twoBeforeFirstTick).published,
        dispatch.hasGap = false ∧ ∀ row ∈ dispatch.patch.upsert, row.hash = formatBytes (11 : TxHash) := by
    decide +kernel
  have distinct : formatBytes (11 : TxHash) ≠ formatBytes (10 : TxHash) := by decide +kernel
  rcases honest (decodedEvent 1 10) (by decide +kernel) trivial (by decide +kernel) with
    ⟨dispatch, member, -, provider, later, -, -, carried⟩ | ⟨dispatch, member, flag, -⟩
  · obtain ⟨-, rows⟩ := flags dispatch member
    rcases carried with ⟨row, latest, made, -, present, same⟩ | ⟨row, latest, made, -⟩
    · cases made
      exact distinct ((rows latest present).symm.trans same)
    · cases made
  · rw [(flags dispatch member).1] at flag
    cases flag

/-! ## What is published -/

theorem buildDashboardEventsV1Dispatch_watermark {provider : VizDataProvider} {afterSeqId : UInt64}
    {pageLimit : Nat} {dispatch : StreamV2Dispatch}
    (built : buildDashboardEventsV1Dispatch provider afterSeqId pageLimit = some dispatch) :
    dispatch.watermark.latestIngestSeq = dispatch.seq := by
  unfold buildDashboardEventsV1Dispatch at built
  dsimp only at built
  split at built
  · cases built
  split at built <;> cases built
  rfl

/-- What the producer has published lies behind its cursor, in strictly increasing order. -/
structure ProducerState.Ascending (state : ProducerState) : Prop where
  increasing : state.published.Pairwise fun earlier later => earlier.seq < later.seq
  behind : ∀ dispatch ∈ state.published, dispatch.seq ≤ state.afterSeqId
  watermark : ∀ dispatch ∈ state.published, dispatch.watermark.latestIngestSeq = dispatch.seq

/-- A page moves the cursor up. -/
theorem ProducerState.lt_seq_of_built {config : StorageConfig} {appended : List EventEnvelope}
    {state : ProducerState}
    (stored : state.storage = (InMemoryStorage.withConfig config).appendEvents appended)
    {lookups : Lookups} {dispatch : StreamV2Dispatch}
    (built : buildDashboardEventsV1Dispatch (storageProvider state.storage lookups)
      state.afterSeqId broadcastPageLimit = some dispatch) :
    state.afterSeqId < dispatch.seq := by
  obtain ⟨⟨last, final, ends⟩, -⟩ :=
    buildDashboardEventsV1Dispatch_spec built (page_spec stored lookups).1
  have inPage := List.mem_of_getLast? final
  rw [ends]
  exact of_decide_eq_true (List.mem_filter.mp inPage).2

theorem ProducerState.Ascending.step {config : StorageConfig} {appended : List EventEnvelope}
    {state next : ProducerState} {label : ProducerStep}
    (stored : state.storage = (InMemoryStorage.withConfig config).appendEvents appended)
    (ascending : state.Ascending) (taken : state.Takes label next) : next.Ascending := by
  unfold ProducerState.Takes ProducerState.step at taken
  cases label with
  | append event =>
      cases taken
      exact ⟨ascending.increasing, ascending.behind, ascending.watermark⟩
  | tick lookups =>
      dsimp only at taken
      split at taken
      · cases taken
      split at taken
      case h_1 dispatch built =>
        cases taken
        have above := ProducerState.lt_seq_of_built stored built
        refine ⟨?_, fun other member => ?_, fun other member => ?_⟩
        · refine List.pairwise_append.mpr ⟨ascending.increasing, List.pairwise_singleton .., ?_⟩
          intro earlier before later now
          cases List.mem_singleton.mp now
          exact UInt64.lt_of_le_of_lt (ascending.behind earlier before) above
        · rcases List.mem_append.mp member with before | now
          · exact UInt64.le_of_lt (UInt64.lt_of_le_of_lt (ascending.behind other before) above)
          · cases List.mem_singleton.mp now
            exact UInt64.le_refl _
        · rcases List.mem_append.mp member with before | now
          · exact ascending.watermark other before
          · cases List.mem_singleton.mp now
            exact buildDashboardEventsV1Dispatch_watermark built
      case h_2 =>
        cases taken
        exact ⟨ascending.increasing, ascending.behind, ascending.watermark⟩
  | readLatest =>
      dsimp only at taken
      split at taken
      · cases taken
        refine ⟨ascending.increasing, fun dispatch member => ?_, ascending.watermark⟩
        change dispatch.seq ≤ if state.afterSeqId ≤ state.storage.latestSeqId.getD state.afterSeqId
          then state.storage.latestSeqId.getD state.afterSeqId else state.afterSeqId
        split
        case isTrue more => exact UInt64.le_trans (ascending.behind dispatch member) more
        case isFalse => exact ascending.behind dispatch member
      · cases taken

theorem ProducerState.ascending_of_run {config : StorageConfig} {history : List ProducerStep}
    {last : ProducerState} (run : Run ProducerState.Takes (ProducerState.start config) history last) :
    last.Ascending :=
  run.invariant_of_history (motive := fun _ state => state.Ascending)
    ⟨List.Pairwise.nil, (by simp [ProducerState.start]), (by simp [ProducerState.start])⟩
    fun _ _ front ascending taken => ascending.step (ProducerState.stored_of_run config front) taken

end Mempulse.Dashboard
