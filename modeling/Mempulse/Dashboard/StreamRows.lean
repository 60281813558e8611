import Mempulse.Dashboard.FeatureCounts
import Mempulse.Dashboard.Listings
import Mempulse.LiveRpc.Handoffs
import Mempulse.LiveRpc.SimulationWorkers
import Mempulse.Storage.WriterRun

/-!
# Rows of the stream and of the snapshot

The stream makes a feature row from the detail of the transaction, and an opportunity row from the
event of its detection and the chain of the detail. The snapshot takes both from their tables. The
detail has the chain of the full row and no method selector, so the rows agree only where the tables
say the same (`streamRowsAgree_iff`).
-/

set_option autoImplicit false

namespace Mempulse.Dashboard

open Std EventLog Library Scheduler Storage Replay

/-! ## Tables that drop their oldest row -/

section Pushed

variable {Row Key Other : Type} [DecidableEq Key] [DecidableEq Other]

/-- The keys a table of a cap has after some keys are pushed, oldest first. -/
def keptKeys (cap : Nat) (keys : List Key) : List Key :=
  keys.foldl (fun kept key =>
    if key ∈ kept then kept
    else if cap ≤ kept.length then kept.drop 1 ++ [key] else kept ++ [key]) []

theorem keptKeys_concat (cap : Nat) (keys : List Key) (key : Key) :
    keptKeys cap (keys ++ [key]) =
      if key ∈ keptKeys cap keys then keptKeys cap keys
      else if cap ≤ (keptKeys cap keys).length then (keptKeys cap keys).drop 1 ++ [key]
      else keptKeys cap keys ++ [key] := by
  rw [keptKeys, List.foldl_append]
  rfl

theorem keptKeys_map (cap : Nat) {name : Key → Other} (injective : Function.Injective name)
    (keys : List Key) : keptKeys cap (keys.map name) = (keptKeys cap keys).map name := by
  induction keys using List.reverseRecOn with
  | nil => rfl
  | append_singleton keys key ih =>
      rw [List.map_append, List.map_singleton, keptKeys_concat, keptKeys_concat, ih]
      simp only [List.mem_map_of_injective injective, List.length_map]
      split_ifs <;> simp

theorem latest_map {Source : Type} (make : Source → Row) {keyOf : Row → Key}
    {sourceKey : Source → Other} {name : Other → Key} (injective : Function.Injective name)
    (keyed : ∀ source, keyOf (make source) = name (sourceKey source)) (key : Other)
    (sources : List Source) :
    latest keyOf (name key) (sources.map make) = (latest sourceKey key sources).map make := by
  have same : ∀ source, (decide (keyOf (make source) = name key)) =
      decide (sourceKey source = key) := by
    intro source
    rw [keyed, decide_eq_decide]
    exact injective.eq_iff
  rw [latest, latest, List.filter_map, List.getLast?_map]
  simp only [Function.comp_def, same]

/-- The rows of a table after some rows are pushed. -/
structure PushedRows (key : Row → Key) (cap : Nat) (pushes rows : List Row) : Prop where
  keys : rows.map key = keptKeys cap (pushes.map key)
  nodup : (rows.map key).Nodup
  newest : ∀ row ∈ rows, latest key (key row) pushes = some row

variable {key : Row → Key} {cap pageLimit : Nat} {pushes rows : List Row}

theorem PushedRows.nil : PushedRows key cap [] [] where
  keys := rfl
  nodup := List.nodup_nil
  newest := fun _ member => nomatch member

theorem PushedRows.newest_concat (pushed : PushedRows key cap pushes rows) (row : Row) {kept : Row}
    (member : kept ∈ rows) (differs : key kept ≠ key row) :
    latest key (key kept) (pushes ++ [row]) = some kept := by
  rw [latest_concat, if_neg (Ne.symm differs)]
  exact pushed.newest kept member

theorem latest_concat_self (pushes : List Row) (row : Row) :
    latest key (key row) (pushes ++ [row]) = some row := by
  rw [latest_concat, if_pos rfl]

/-- A row that overwrites the one of its key. -/
theorem PushedRows.overwrite (pushed : PushedRows key cap pushes rows) {row : Row} {index : Nat}
    (bound : index < rows.length) (same : key rows[index] = key row) :
    PushedRows key cap (pushes ++ [row]) (rows.set index row) := by
  have keys : (rows.set index row).map key = rows.map key := by
    have inside : index < (rows.map key).length := by rwa [List.length_map]
    have read : (rows.map key)[index] = key row := (List.getElem_map key).trans same
    rw [List.map_set, ← read, List.set_getElem_self]
  have nodup : ((rows.set index row).map key).Nodup := keys ▸ pushed.nodup
  have present : key row ∈ keptKeys cap (pushes.map key) := by
    rw [← pushed.keys, ← same]
    exact List.mem_map_of_mem (List.getElem_mem bound)
  refine ⟨?_, nodup, fun kept member => ?_⟩
  · rw [keys, List.map_append, List.map_singleton, keptKeys_concat, if_pos present, pushed.keys]
  · by_cases ours : key kept = key row
    · obtain rfl := List.inj_on_of_nodup_map nodup member (List.mem_set bound row) ours
      exact latest_concat_self pushes _
    · rcases List.mem_or_eq_of_mem_set member with before | rfl
      · exact pushed.newest_concat row before ours
      · exact latest_concat_self pushes _

/-- A row of a new key behind the rows that stay. -/
theorem PushedRows.append (pushed : PushedRows key cap pushes rows) {row : Row}
    (absent : key row ∉ rows.map key) {before : List Row} (part : before.Sublist rows)
    (keys : keptKeys cap ((pushes ++ [row]).map key) = before.map key ++ [key row]) :
    PushedRows key cap (pushes ++ [row]) (before ++ [row]) := by
  refine ⟨?_, ?_, fun kept member => ?_⟩
  · rw [keys, List.map_append, List.map_singleton]
  · rw [List.map_append, List.map_singleton, List.nodup_append_comm, List.singleton_append,
      List.nodup_cons]
    exact ⟨fun member => absent ((part.map key).subset member),
      (part.map key).nodup pushed.nodup⟩
  · rcases List.mem_append.mp member with old | new
    · have listed := part.subset old
      exact pushed.newest_concat row listed fun same => absent (same ▸ List.mem_map_of_mem listed)
    · obtain rfl := List.mem_singleton.mp new
      exact latest_concat_self pushes _

/-- A push overwrites the row of its key, or appends a row of a key that the table has not. -/
theorem PushedRows.push (pushed : PushedRows key (max pageLimit 1) pushes rows) (row : Row) :
    PushedRows key (max pageLimit 1) (pushes ++ [row])
      (pushStreamWithCap key rows row pageLimit).1 := by
  unfold pushStreamWithCap
  dsimp only
  split
  case h_1 index found =>
    obtain ⟨bound, same, -⟩ := List.findIdx?_eq_some_iff_getElem.mp found
    exact pushed.overwrite bound (of_decide_eq_true same)
  case h_2 missing =>
    have absent : key row ∉ rows.map key := by
      intro member
      obtain ⟨kept, listed, same⟩ := List.mem_map.mp member
      have differs := List.findIdx?_eq_none_iff.mp missing kept listed
      exact of_decide_eq_false differs same
    have length : (keptKeys (max pageLimit 1) (pushes.map key)).length = rows.length := by
      rw [← pushed.keys, List.length_map]
    have grown : keptKeys (max pageLimit 1) ((pushes ++ [row]).map key) =
        if max pageLimit 1 ≤ rows.length then (rows.map key).drop 1 ++ [key row]
        else rows.map key ++ [key row] := by
      rw [List.map_append, List.map_singleton, keptKeys_concat, length, ← pushed.keys,
        if_neg absent]
    split
    case isTrue full =>
      rw [if_pos full, ← List.map_drop] at grown
      exact pushed.append absent (List.drop_sublist 1 rows) grown
    case isFalse room =>
      rw [if_neg room] at grown
      exact pushed.append absent (List.Sublist.refl rows) grown

/-- The table has the newest row of each key that is kept. -/
theorem PushedRows.mem_iff (pushed : PushedRows key cap pushes rows) {row : Row} :
    row ∈ rows ↔ key row ∈ keptKeys cap (pushes.map key) ∧
      latest key (key row) pushes = some row := by
  constructor
  · intro member
    exact ⟨pushed.keys ▸ List.mem_map_of_mem member, pushed.newest row member⟩
  · rintro ⟨kept, newest⟩
    rw [← pushed.keys] at kept
    obtain ⟨other, member, same⟩ := List.mem_map.mp kept
    have found := pushed.newest other member
    rw [same, newest] at found
    obtain rfl := Option.some.inj found
    exact member

/-- A table of rows that are made from sources has those made from the newest source of each key that
is kept. -/
theorem PushedRows.mem_map_iff {Source : Type} {make : Source → Row} {sourceKey : Source → Other}
    {name : Other → Key} (injective : Function.Injective name)
    (keyed : ∀ source, key (make source) = name (sourceKey source)) {sources : List Source}
    (pushed : PushedRows key cap (sources.map make) rows) (row : Row) :
    row ∈ rows ↔ ∃ source, sourceKey source ∈ keptKeys cap (sources.map sourceKey) ∧
      latest sourceKey (sourceKey source) sources = some source ∧ make source = row := by
  have keys : (sources.map make).map key = (sources.map sourceKey).map name := by
    rw [List.map_map, List.map_map]
    exact List.map_congr_left fun source _ => keyed source
  rw [pushed.mem_iff, keys, keptKeys_map cap injective]
  constructor
  · rintro ⟨kept, last⟩
    obtain ⟨other, member, same⟩ := List.mem_map.mp kept
    rw [← same, latest_map make injective keyed] at last
    obtain ⟨source, found, made⟩ := Option.map_eq_some_iff.mp last
    have own : sourceKey source = other := (mem_of_latest _ _ found).2
    exact ⟨source, own.symm ▸ member, own.symm ▸ found, made⟩
  · rintro ⟨source, member, found, rfl⟩
    rw [keyed, latest_map make injective keyed, found]
    exact ⟨List.mem_map_of_mem member, rfl⟩

end Pushed

/-! ## The rows of a dispatch -/

/-- The feature row of an event. -/
def featureFromEvent (provider : VizDataProvider) (event : EventEnvelope) : Option FeatureDetail :=
  (transactionSummaryFromEvent event).bind fun summary => featureDetailForHash provider summary.hash

/-- The feature and opportunity rows of a draft are those that its events pushed. -/
structure DraftRows (provider : VizDataProvider) (pageLimit : Nat) (seen : List EventEnvelope)
    (draft : DispatchDraft) : Prop where
  features : PushedRows FeatureDetail.hash (max pageLimit 1)
    (seen.filterMap (featureFromEvent provider)) draft.featureUpsert
  opportunities : PushedRows OpportunityDetail.key (max pageLimit 1)
    (seen.filterMap (opportunityDetailFromEvent provider)) draft.opportunityUpsert

section Draft

variable {provider : VizDataProvider} {pageLimit : Nat} {seen : List EventEnvelope}
  {draft : DispatchDraft}

theorem featureUpsert_addRows (provider : VizDataProvider) (pageLimit : Nat) (event : EventEnvelope)
    (draft : DispatchDraft) :
    (draft.addRows provider pageLimit event).featureUpsert =
      match featureFromEvent provider event with
      | none => draft.featureUpsert
      | some feature => (pushStreamFeatureWithCap draft.featureUpsert feature pageLimit).1 := by
  unfold DispatchDraft.addRows featureFromEvent
  cases transactionSummaryFromEvent event with
  | none => cases opportunityDetailFromEvent provider event <;> rfl
  | some summary =>
      dsimp only [Option.bind_some]
      cases featureDetailForHash provider summary.hash <;>
        cases opportunityDetailFromEvent provider event <;> rfl

theorem opportunityUpsert_addRows (provider : VizDataProvider) (pageLimit : Nat)
    (event : EventEnvelope) (draft : DispatchDraft) :
    (draft.addRows provider pageLimit event).opportunityUpsert =
      match opportunityDetailFromEvent provider event with
      | none => draft.opportunityUpsert
      | some opportunity =>
        (pushStreamOpportunityWithCap draft.opportunityUpsert opportunity pageLimit).1 := by
  have rows := DispatchDraft.addRows_spec provider pageLimit event draft
  cases made : opportunityDetailFromEvent provider event with
  | none => exact rows.noOpportunities made
  | some opportunity => exact (rows.opportunities opportunity made).1

theorem DraftRows.addRows (rows : DraftRows provider pageLimit seen draft) (event : EventEnvelope) :
    DraftRows provider pageLimit (seen ++ [event]) (draft.addRows provider pageLimit event) := by
  constructor
  · rw [List.filterMap_append, featureUpsert_addRows]
    cases made : featureFromEvent provider event with
    | none => simpa [made] using rows.features
    | some feature =>
        simpa [made, pushStreamFeatureWithCap] using rows.features.push feature
  · rw [List.filterMap_append, opportunityUpsert_addRows]
    cases made : opportunityDetailFromEvent provider event with
    | none => simpa [made] using rows.opportunities
    | some opportunity =>
        simpa [made, pushStreamOpportunityWithCap] using rows.opportunities.push opportunity

theorem DraftRows.advance (rows : DraftRows provider pageLimit seen draft)
    (afterSeqId seqId : UInt64) :
    DraftRows provider pageLimit seen (draft.advance afterSeqId seqId) := by
  unfold DispatchDraft.advance
  split <;> exact ⟨rows.features, rows.opportunities⟩

/-- The rows of the draft of a whole page. -/
theorem draftRows_foldl (provider : VizDataProvider) (afterSeqId : UInt64) (pageLimit : Nat)
    (page : List EventEnvelope) :
    DraftRows provider pageLimit (page.filter fun event => afterSeqId < event.seqId)
      (page.foldl (DispatchDraft.visit provider afterSeqId pageLimit)
        { seqEnd := afterSeqId }) := by
  induction page using List.reverseRecOn with
  | nil => exact ⟨.nil, .nil⟩
  | append_singleton page event ih =>
      rw [List.foldl_append, List.filter_append, List.foldl_cons, List.foldl_nil,
        DispatchDraft.visit]
      by_cases next : afterSeqId < event.seqId
      · rw [List.filter_cons_of_pos (by simpa using next), List.filter_nil,
          if_neg (UInt64.not_le.mpr next)]
        exact (ih.advance afterSeqId event.seqId).addRows event
      · rw [List.filter_cons_of_neg (by simpa using next), List.filter_nil, List.append_nil,
          if_pos (UInt64.not_lt.mp next)]
        exact ih

/-- The rows of a dispatch. -/
theorem rows_of_built {afterSeqId : UInt64} {dispatch : StreamV2Dispatch}
    (built : buildDashboardEventsV1Dispatch provider afterSeqId pageLimit = some dispatch) :
    PushedRows FeatureDetail.hash (max pageLimit 1)
        ((pageAfter provider afterSeqId pageLimit).filterMap (featureFromEvent provider))
        dispatch.patch.featureUpsert ∧
      PushedRows OpportunityDetail.key (max pageLimit 1)
        ((pageAfter provider afterSeqId pageLimit).filterMap (opportunityDetailFromEvent provider))
        dispatch.patch.opportunityUpsert := by
  have rows := draftRows_foldl provider afterSeqId pageLimit
    (provider.events afterSeqId (maxScanEventsPerTick pageLimit))
  unfold buildDashboardEventsV1Dispatch at built
  dsimp only at built
  split at built
  · cases built
  split at built
  · cases built
  · cases built
    exact ⟨rows.features, rows.opportunities⟩

end Draft

/-! ## The rows of the tables -/

/-- The provider the stream reads, over the tables of a storage. The stream looks up formatted hashes
only, on which the lookup does not panic (`transactionDetailByHash_streamProvider`). -/
def streamProvider (storage : InMemoryStorage) : VizDataProvider :=
  storageProvider storage
    { transactionDetailByHash := fun hash =>
        (LiveRpc.spelledHash hash).bind fun hash =>
          (detailOfHash storage hash).map (·.streamFields)
      marketStats := mapMarketStats storage.marketStats }

/-- The row of the table from which the stream makes the feature row of an event. -/
def streamedFeature (storage : InMemoryStorage) (event : EventEnvelope) : Option TxFeaturesRecord :=
  match event.payload with
  | .txDecoded decoded =>
    (latest (·.hash) decoded.hash storage.txSeen.rows).bind fun _ =>
      latest (·.hash) decoded.hash storage.txFeatures.rows
  | _ => none

/-- The stream shows the chain of the full row, and no selector. -/
def streamFeature (storage : InMemoryStorage) (feature : TxFeaturesRecord) : FeatureDetail :=
  { featureDetail feature with chainId := fullChain storage feature.hash, methodSelector := none }

/-- What the stream tells of a detection: the event, and the chain of the detail. -/
def streamedOpportunity (storage : InMemoryStorage) (event : EventEnvelope) :
    Option OpportunityRecord :=
  match event.payload with
  | .oppDetected opp =>
    some
      { txHash := opp.hash
        chainId := (latest (·.hash) opp.hash storage.txSeen.rows).bind fun _ =>
          fullChain storage opp.hash
        strategy := opp.strategy
        score := opp.score
        protocol := opp.protocol
        category := opp.category
        featureEngineVersion := opp.featureEngineVersion
        scorerVersion := opp.scorerVersion
        strategyVersion := opp.strategyVersion
        reasons := opp.reasons
        detectedUnixMs := event.ingestTsUnixMs }
  | _ => none

/-- The row both views show of an opportunity. -/
def opportunityDetail (record : OpportunityRecord) : OpportunityDetail where
  txHash := formatBytes record.txHash
  status := "detected"
  strategy := record.strategy
  score := record.score
  protocol := record.protocol
  category := record.category
  chainId := record.chainId
  featureEngineVersion := record.featureEngineVersion
  scorerVersion := record.scorerVersion
  strategyVersion := record.strategyVersion
  reasons := record.reasons
  detectedUnixMs := record.detectedUnixMs

/-- What the records of one opportunity share. -/
def opportunityKey (record : OpportunityRecord) : TxHash × String × Int64 :=
  (record.txHash, record.strategy, record.detectedUnixMs)

/-- A key as the dashboard shows it. -/
def shownKey (key : TxHash × String × Int64) : String × String × Int64 :=
  (formatBytes key.1, key.2)

theorem shownKey_injective : Function.Injective shownKey := by
  intro key other same
  obtain ⟨texts, rest⟩ := Prod.mk.inj same
  exact Prod.ext (formatBytes_injective texts) rest

theorem formatBytes_hash_injective : Function.Injective (formatBytes : TxHash → String) :=
  fun _ _ same => formatBytes_injective same

theorem key_opportunityDetail (record : OpportunityRecord) :
    (opportunityDetail record).key = shownKey (opportunityKey record) := rfl

theorem opportunityDetail_injective : Function.Injective opportunityDetail := by
  intro record other same
  obtain ⟨texts, -⟩ := OpportunityDetail.mk.inj same
  have hashes := formatBytes_injective texts
  cases record
  cases other
  simp_all [opportunityDetail]

section Tables

variable {storage : InMemoryStorage}

theorem mem_buildOpportunities {row : OpportunityDetail} :
    row ∈ buildOpportunities storage ↔
      ∃ record ∈ storage.opportunities, opportunityDetail record = row := by
  rw [buildOpportunities, List.mem_map]
  constructor <;> rintro ⟨record, member, rfl⟩
  · exact ⟨record, (stableSort_perm cmpOpportunity _).subset member, rfl⟩
  · exact ⟨record, (stableSort_perm cmpOpportunity _).symm.subset member, rfl⟩

theorem mem_buildFeatureDetails {row : FeatureDetail} :
    row ∈ buildFeatureDetails storage ↔ ∃ feature,
      latest (·.hash) feature.hash storage.txFeatures.rows = some feature ∧
        featureDetail feature = row := by
  rw [buildFeatureDetails_eq, List.mem_map]
  simp only [mem_firstOfEach_reverse_iff]

/-- The stream's lookup of a formatted hash is the provider's. -/
theorem transactionDetailByHash_streamProvider (storage : InMemoryStorage) (hash : TxHash) :
    (transactionDetailByHash storage (formatBytes hash)).map (Option.map (·.streamFields)) =
      .returned ((streamProvider storage).transactionDetailByHash (formatBytes hash)) := by
  have read : LiveRpc.spelledHash (formatBytes hash) = some hash := LiveRpc.spelledHash_hexText hash
  change _ = Outcome.returned ((LiveRpc.spelledHash (formatBytes hash)).bind _)
  rw [transactionDetailByHash_formatBytes, read]
  rfl

/-- The lifecycle of a detail does not matter to the stream. -/
theorem lookup_streamProvider (storage : InMemoryStorage) (hash : TxHash) :
    (streamProvider storage).transactionDetailByHash (formatBytes hash) =
      (latest (·.hash) hash storage.txSeen.rows).map fun seen =>
        (tableDetail storage seen).streamFields := by
  apply Outcome.returned.inj
  rw [← transactionDetailByHash_streamProvider, transactionDetailByHash_formatBytes, Outcome.map,
    detailOfHash_eq, Option.map_map]
  refine congrArg _ (Option.map_congr fun seen _ => ?_)
  rw [Function.comp_apply]
  split <;> rfl

theorem latest_streamedFeature {event : EventEnvelope} {feature : TxFeaturesRecord}
    (streamed : streamedFeature storage event = some feature) :
    latest (·.hash) feature.hash storage.txFeatures.rows = some feature := by
  unfold streamedFeature at streamed
  split at streamed
  case h_1 decoded _ =>
    obtain ⟨-, -, found⟩ := Option.bind_eq_some_iff.mp streamed
    have own := (mem_of_latest _ _ found).2
    rw [own]
    exact found
  case h_2 => cases streamed

/-- The feature row of an event is made from a row of the table. -/
theorem featureFromEvent_streamProvider (storage : InMemoryStorage) (event : EventEnvelope) :
    featureFromEvent (streamProvider storage) event =
      (streamedFeature storage event).map (streamFeature storage) := by
  unfold featureFromEvent transactionSummaryFromEvent streamedFeature
  cases event.payload with
  | txDecoded decoded =>
      dsimp only [Option.bind_some]
      rw [featureDetailForHash, lookup_streamProvider]
      cases known : latest (·.hash) decoded.hash storage.txSeen.rows with
      | none => rfl
      | some seen =>
          have sameSeen : seen.hash = decoded.hash := (mem_of_latest _ _ known).2
          cases found : latest (·.hash) decoded.hash storage.txFeatures.rows with
          | none =>
              simp [tableDetail, joinDetail, FullTransactionDetail.streamFields, sameSeen, found]
          | some feature =>
              have own : feature.hash = decoded.hash := (mem_of_latest _ _ found).2
              simp [tableDetail, joinDetail, FullTransactionDetail.streamFields, sameSeen, found,
                streamFeature, featureDetail, fullChain, own]
  | _ => rfl

/-- The opportunity row of an event is the row of what the stream tells. -/
theorem opportunityDetailFromEvent_streamProvider (storage : InMemoryStorage)
    (event : EventEnvelope) :
    opportunityDetailFromEvent (streamProvider storage) event =
      (streamedOpportunity storage event).map opportunityDetail := by
  unfold opportunityDetailFromEvent streamedOpportunity
  cases event.payload with
  | oppDetected opp =>
      dsimp only
      rw [lookup_streamProvider]
      cases known : latest (·.hash) opp.hash storage.txSeen.rows with
      | none => rfl
      | some seen =>
          have sameSeen : seen.hash = opp.hash := (mem_of_latest _ _ known).2
          simp [tableDetail, joinDetail, FullTransactionDetail.streamFields, sameSeen, fullChain,
            opportunityDetail]
  | _ => rfl

end Tables

/-! ## Agreement -/

/-- **The rows of a dispatch are those of a snapshot**: each feature row, and each opportunity row
whose opportunity is retained. -/
structure StreamRowsAgree (storage : InMemoryStorage) (dispatch : StreamV2Dispatch) : Prop where
  features : ∀ row ∈ dispatch.patch.featureUpsert, row ∈ buildFeatureDetails storage
  opportunities : ∀ row ∈ dispatch.patch.opportunityUpsert, ∀ other ∈ buildOpportunities storage,
    other.key = row.key → row = other

/-- The tables say what the stream tells of a page: the feature rows that are shown have no selector
and the chain of the full row, and each record of a shown opportunity is its last detection. -/
structure TablesTellPage (storage : InMemoryStorage) (pageLimit : Nat) (page : List EventEnvelope) :
    Prop where
  features : ∀ feature ∈ page.filterMap (streamedFeature storage),
    feature.hash ∈
        keptKeys (max pageLimit 1) ((page.filterMap (streamedFeature storage)).map (·.hash)) →
      feature.methodSelector = none ∧ feature.chainId = fullChain storage feature.hash
  opportunities : ∀ detection,
    opportunityKey detection ∈ keptKeys (max pageLimit 1)
        ((page.filterMap (streamedOpportunity storage)).map opportunityKey) →
      latest opportunityKey (opportunityKey detection)
          (page.filterMap (streamedOpportunity storage)) = some detection →
        ∀ record ∈ storage.opportunities, opportunityKey record = opportunityKey detection →
          record = detection

section Agreement

variable {storage : InMemoryStorage}

/-- A row of the stream is the row of the snapshot where the table says the same. -/
theorem streamFeature_mem_iff {feature : TxFeaturesRecord}
    (newest : latest (·.hash) feature.hash storage.txFeatures.rows = some feature) :
    streamFeature storage feature ∈ buildFeatureDetails storage ↔
      feature.methodSelector = none ∧ feature.chainId = fullChain storage feature.hash := by
  rw [mem_buildFeatureDetails]
  constructor
  · rintro ⟨other, found, same⟩
    have hashes : other.hash = feature.hash :=
      formatBytes_injective (congrArg FeatureDetail.hash same)
    rw [hashes, newest] at found
    obtain rfl := Option.some.inj found
    have selector := congrArg FeatureDetail.methodSelector same
    have chain := congrArg FeatureDetail.chainId same
    exact ⟨Option.map_eq_none_iff.mp selector, chain⟩
  · rintro ⟨selector, chain⟩
    refine ⟨feature, newest, ?_⟩
    simp [streamFeature, featureDetail, selector, chain, formatMethodSelector]

/-- The rows of one hash come from one row of the table. -/
theorem eq_of_streamedFeature {page : List EventEnvelope} {feature other : TxFeaturesRecord}
    (streamed : feature ∈ page.filterMap (streamedFeature storage))
    (another : other ∈ page.filterMap (streamedFeature storage))
    (same : feature.hash = other.hash) : feature = other := by
  obtain ⟨_, _, made⟩ := List.mem_filterMap.mp streamed
  obtain ⟨_, _, otherMade⟩ := List.mem_filterMap.mp another
  have newest := latest_streamedFeature made
  rw [same, latest_streamedFeature otherMade] at newest
  exact (Option.some.inj newest).symm

theorem filterMap_featureFromEvent (page : List EventEnvelope) :
    page.filterMap (featureFromEvent (streamProvider storage)) =
      (page.filterMap (streamedFeature storage)).map (streamFeature storage) := by
  rw [List.map_filterMap]
  exact List.filterMap_congr fun event _ => featureFromEvent_streamProvider storage event

theorem filterMap_opportunityDetailFromEvent (page : List EventEnvelope) :
    page.filterMap (opportunityDetailFromEvent (streamProvider storage)) =
      (page.filterMap (streamedOpportunity storage)).map opportunityDetail := by
  rw [List.map_filterMap]
  exact List.filterMap_congr fun event _ => opportunityDetailFromEvent_streamProvider storage event

/-- The feature rows agree. -/
theorem features_agree_iff {page : List EventEnvelope} {cap : Nat} {rows : List FeatureDetail}
    (pushed : PushedRows FeatureDetail.hash cap
      (page.filterMap (featureFromEvent (streamProvider storage))) rows) :
    (∀ row ∈ rows, row ∈ buildFeatureDetails storage) ↔
      ∀ feature ∈ page.filterMap (streamedFeature storage),
        feature.hash ∈ keptKeys cap ((page.filterMap (streamedFeature storage)).map (·.hash)) →
          feature.methodSelector = none ∧ feature.chainId = fullChain storage feature.hash := by
  rw [filterMap_featureFromEvent] at pushed
  have keyed : ∀ feature : TxFeaturesRecord,
      (streamFeature storage feature).hash = formatBytes feature.hash := fun _ => rfl
  have shown : ∀ row, row ∈ rows ↔ ∃ feature ∈ page.filterMap (streamedFeature storage),
      feature.hash ∈ keptKeys cap ((page.filterMap (streamedFeature storage)).map (·.hash)) ∧
        streamFeature storage feature = row := by
    intro row
    rw [pushed.mem_map_iff formatBytes_hash_injective keyed]
    constructor
    · rintro ⟨feature, kept, found, made⟩
      exact ⟨feature, (mem_of_latest _ _ found).1, kept, made⟩
    · -- the features of one hash are one
      rintro ⟨feature, listed, kept, made⟩
      refine ⟨feature, kept, ?_, made⟩
      cases found : latest (·.hash) feature.hash (page.filterMap (streamedFeature storage)) with
      | none =>
          exact absurd (List.mem_map_of_mem listed) ((latest_eq_none_iff _ _).mp found)
      | some other =>
          obtain ⟨otherListed, own⟩ := mem_of_latest _ _ found
          rw [eq_of_streamedFeature otherListed listed own]
  constructor
  · intro agree feature listed kept
    obtain ⟨_, _, made⟩ := List.mem_filterMap.mp listed
    exact (streamFeature_mem_iff (latest_streamedFeature made)).mp
      (agree _ ((shown _).mpr ⟨feature, listed, kept, rfl⟩))
  · intro told row member
    obtain ⟨feature, listed, kept, rfl⟩ := (shown row).mp member
    obtain ⟨_, _, made⟩ := List.mem_filterMap.mp listed
    exact (streamFeature_mem_iff (latest_streamedFeature made)).mpr (told feature listed kept)

/-- The opportunity rows agree. -/
theorem opportunities_agree_iff {page : List EventEnvelope} {cap : Nat}
    {rows : List OpportunityDetail}
    (pushed : PushedRows OpportunityDetail.key cap
      (page.filterMap (opportunityDetailFromEvent (streamProvider storage))) rows) :
    (∀ row ∈ rows, ∀ other ∈ buildOpportunities storage, other.key = row.key → row = other) ↔
      ∀ detection, opportunityKey detection ∈
          keptKeys cap ((page.filterMap (streamedOpportunity storage)).map opportunityKey) →
        latest opportunityKey (opportunityKey detection)
            (page.filterMap (streamedOpportunity storage)) = some detection →
          ∀ record ∈ storage.opportunities, opportunityKey record = opportunityKey detection →
            record = detection := by
  rw [filterMap_opportunityDetailFromEvent] at pushed
  have shown := pushed.mem_map_iff shownKey_injective key_opportunityDetail
  constructor
  · intro agree detection kept last record member same
    have rows := agree _ ((shown _).mpr ⟨detection, kept, last, rfl⟩) _
      (mem_buildOpportunities.mpr ⟨record, member, rfl⟩)
      (by rw [key_opportunityDetail, key_opportunityDetail, same])
    exact (opportunityDetail_injective rows).symm
  · intro told row member other retained same
    obtain ⟨record, listed, rfl⟩ := mem_buildOpportunities.mp retained
    obtain ⟨detection, kept, last, rfl⟩ := (shown row).mp member
    rw [told detection kept last record listed (shownKey_injective same)]

/-- **The rows of a dispatch are those of a snapshot exactly when the tables say what the stream
tells of its page.** -/
theorem streamRowsAgree_iff (storage : InMemoryStorage) (afterSeqId : UInt64) (pageLimit : Nat)
    (dispatch : StreamV2Dispatch)
    (built : buildDashboardEventsV1Dispatch (streamProvider storage) afterSeqId pageLimit =
      some dispatch) :
    StreamRowsAgree storage dispatch ↔
      TablesTellPage storage pageLimit
        (pageAfter (streamProvider storage) afterSeqId pageLimit) := by
  obtain ⟨features, opportunities⟩ := rows_of_built built
  have featureRows := features_agree_iff features
  have opportunityRows := opportunities_agree_iff opportunities
  constructor
  · intro agree
    exact ⟨featureRows.mp agree.features, opportunityRows.mp agree.opportunities⟩
  · intro told
    exact ⟨featureRows.mpr told.features, opportunityRows.mpr told.opportunities⟩

end Agreement

/-! ## The content of a live run -/

open Builder (AssemblyConfig)

open LiveRpc (LiveSystem Arrival LiveTurn sampleArrival sampleLiveTx sampleSwapLiveTx)

/-- The storage whose writer has applied the first writes of the live system. -/
def writtenStorage (storageConfig : StorageConfig) (system : LiveSystem) (taken : Nat) :
    InMemoryStorage :=
  (Writer.run storageConfig ((system.live.storageQueue.take taken).map .apply)).storage

/-- The storage after some turns of the chain workers and the simulation workers. -/
def LiveContent (storage : InMemoryStorage) : Prop :=
  ∃ (config : SchedulerConfig) (nextSeqId : UInt64) (assembly : AssemblyConfig)
    (jobs : List (List Arrival)) (turns : List LiveTurn) (storageConfig : StorageConfig)
    (taken : Nat), storage = writtenStorage storageConfig
      ((LiveSystem.start nextSeqId assembly jobs).run config turns) taken

/-- A worker has processed one arrival, and the writer has applied all its writes. -/
def contentOf (arrival : Arrival) : InMemoryStorage :=
  let turns := List.replicate 30 (.worker 0 none)
  writtenStorage {} ((LiveSystem.start 1 {} [[arrival]]).run {} turns) 40

theorem liveContent_contentOf (arrival : Arrival) : LiveContent (contentOf arrival) :=
  ⟨{}, 1, {}, [[arrival]], List.replicate 30 (.worker 0 none), {}, 40, rfl⟩

/-- The calldata of this transaction is too short for a selector. -/
def plainContent : InMemoryStorage := contentOf (sampleArrival (sampleLiveTx 10 1 0 100))

/-- The storage after a swap has been processed. -/
def swapContent : InMemoryStorage := contentOf (sampleArrival (sampleSwapLiveTx 10 1 0 100))

theorem plainContent_streamRowsAgree : ∃ dispatch,
    buildDashboardEventsV1Dispatch (streamProvider plainContent) 0 100 = some dispatch ∧
      dispatch.patch.featureUpsert.length = 1 ∧ StreamRowsAgree plainContent dispatch := by
  have one : (buildDashboardEventsV1Dispatch (streamProvider plainContent) 0 100).map
      (fun dispatch => dispatch.patch.featureUpsert.length) = some 1 := by decide +kernel
  obtain ⟨dispatch, built, length⟩ := Option.map_eq_some_iff.mp one
  refine ⟨dispatch, built, length, (streamRowsAgree_iff _ 0 100 dispatch built).mpr ⟨?_, ?_⟩⟩
  · have told : ∀ feature ∈ (pageAfter (streamProvider plainContent) 0 100).filterMap
        (streamedFeature plainContent), feature.methodSelector = none ∧
          feature.chainId = fullChain plainContent feature.hash := by decide +kernel
    exact fun feature listed _ => told feature listed
  · have empty : plainContent.opportunities = [] := by decide +kernel
    intro detection _ _ record member
    rw [empty] at member
    cases member

/-- A swap has a selector in the snapshot, and none in the stream. -/
theorem swapContent_not_streamRowsAgree :
    ¬ ∀ storage, LiveContent storage → ∀ (afterSeqId : UInt64) (pageLimit : Nat)
      (dispatch : StreamV2Dispatch),
      buildDashboardEventsV1Dispatch (streamProvider storage) afterSeqId pageLimit =
        some dispatch → StreamRowsAgree storage dispatch := by
  intro claim
  have streamed : (buildDashboardEventsV1Dispatch (streamProvider swapContent) 0 100).map
      (fun dispatch => dispatch.patch.featureUpsert.map (·.methodSelector)) = some [none] := by
    decide +kernel
  have selectors : (buildFeatureDetails swapContent).map (·.methodSelector) =
      [some "0x38ed1739"] := by decide +kernel
  obtain ⟨dispatch, built, rows⟩ := Option.map_eq_some_iff.mp streamed
  have agree := claim _ (liveContent_contentOf _) 0 100 dispatch built
  have member : none ∈ dispatch.patch.featureUpsert.map (·.methodSelector) := by
    rw [rows]
    exact List.mem_singleton_self none
  obtain ⟨row, pushed, unnamed⟩ := List.mem_map.mp member
  have shown : row.methodSelector ∈ (buildFeatureDetails swapContent).map (·.methodSelector) :=
    List.mem_map_of_mem (agree.features row pushed)
  rw [selectors, unnamed] at shown
  cases List.mem_singleton.mp shown

end Mempulse.Dashboard
