import Mempulse.LiveRpc.CandidateIds
import Mempulse.LiveRpc.Sequential
import Mempulse.Scheduler.QueueTransitions

/-!
# Remote simulation requests

After an admission the pipeline fetches the transactions that became ready and the ready frontier of
the scheduler, builds opportunities of the former, and asks for each to be simulated on top of its
ready predecessors. The frontier lists the leading run of every sender, so a request is the beginning
of one such run, up to the highest nonce it was built for.
-/

set_option autoImplicit false

namespace Mempulse

open Std Library

namespace Scheduler

/-! ## The ready run of a sender -/

/-- The place of a transaction in its sender's queue. -/
def ValidatedTransaction.entry (tx : ValidatedTransaction) : UInt64 × TxHash :=
  (tx.decoded.nonce, tx.hash)

/-- The transactions of a sender before its first gap. -/
def SchedulerState.readyRun (state : SchedulerState) (sender : Address) :
    List ValidatedTransaction :=
  (readyEntries (state.senderQueue sender)).filterMap fun entry => state.pending[entry.2]?

namespace Slotted

variable {state : SchedulerState} (slotted : Slotted state)

include slotted

theorem map_entry_readyRun (sender : Address) :
    (state.readyRun sender).map (·.entry) = readyEntries (state.senderQueue sender) := by
  rw [SchedulerState.readyRun, List.map_filterMap]
  refine (List.filterMap_congr fun entry member => ?_).trans List.filterMap_some
  have listed := (leadingRun_isInitial _ _).subset member
  have named := (state.getElem?_senderQueue sender entry.1).symm.trans (mem_toList.mp listed)
  obtain ⟨tx, stored, -, nonce⟩ := slotted.occupied named
  rw [stored, Option.map_some, ValidatedTransaction.entry, nonce, slotted.keyed stored]

theorem mem_readyRun {sender : Address} {tx : ValidatedTransaction}
    (member : tx ∈ state.readyRun sender) :
    state.pending[tx.hash]? = some tx ∧ tx.decoded.sender = sender ∧
      (state.queueStates sender)[tx.hash]? = some .ready := by
  obtain ⟨entry, inRun, stored⟩ := List.mem_filterMap.mp member
  have listed := (leadingRun_isInitial _ _).subset inRun
  have named := (state.getElem?_senderQueue sender entry.1).symm.trans (mem_toList.mp listed)
  obtain ⟨same, held, owner, -⟩ := slotted.occupied named
  cases stored.symm.trans held
  have hash := slotted.keyed stored
  refine ⟨hash ▸ stored, owner, slotted.getElem?_queueStates.mpr ?_⟩
  have ready : tx.hash ∈ ((queuePositions (state.senderQueue sender)).filter
      (·.state = .ready)).map (·.hash) := by
    rw [map_hash_ready_queuePositions, hash]
    exact List.mem_map_of_mem inRun
  obtain ⟨position, kept, same⟩ := List.mem_map.mp ready
  obtain ⟨inQueue, verdict⟩ := List.mem_filter.mp kept
  rw [slotted.senderQueuePositions_eq]
  exact ⟨position, inQueue, same, of_decide_eq_true verdict⟩

/-- The ready entries of a queue are in the run. -/
theorem exists_mem_readyRun {sender : Address} {hash : TxHash}
    (ready : (state.queueStates sender)[hash]? = some .ready) :
    ∃ tx ∈ state.readyRun sender, state.pending[hash]? = some tx := by
  obtain ⟨position, member, rfl, verdict⟩ := slotted.getElem?_queueStates.mp ready
  rw [slotted.senderQueuePositions_eq] at member
  have inRun : position.hash ∈ (readyEntries (state.senderQueue sender)).map Prod.snd := by
    rw [← map_hash_ready_queuePositions]
    exact List.mem_map_of_mem (List.mem_filter.mpr ⟨member, decide_eq_true verdict⟩)
  obtain ⟨entry, listed, same⟩ := List.mem_map.mp inRun
  have named := (state.getElem?_senderQueue sender entry.1).symm.trans
    (mem_toList.mp ((leadingRun_isInitial _ _).subset listed))
  obtain ⟨tx, stored, -⟩ := slotted.occupied named
  exact ⟨tx, List.mem_filterMap.mpr ⟨entry, listed, stored⟩, same ▸ stored⟩

/-- The frontier lists the runs sender by sender. -/
theorem classifyReady_eq :
    state.classifyReady =
      state.senderQueues.toList.flatMap fun queued => state.readyRun queued.1 := by
  rw [SchedulerState.classifyReady, List.flatMap_map]
  refine List.flatMap_congr fun queued member => ?_
  have stored := mem_toList.mp member
  have queue : state.senderQueue queued.1 = queued.2 := by
    rw [SchedulerState.senderQueue, stored, Option.getD_some]
  have walked : state.walkQueue queued.2 = queuePositions queued.2 := by
    have positions := slotted.senderQueuePositions_eq queued.1
    rwa [SchedulerState.senderQueuePositions, stored, queue] at positions
  have hashes := map_hash_ready_queuePositions queued.2
  rw [walked, SchedulerState.readyRun, queue]
  calc ((queuePositions queued.2).filter (·.state = .ready)).filterMap (state.pending[·.hash]?)
      = (((queuePositions queued.2).filter (·.state = .ready)).map (·.hash)).filterMap
          (state.pending[·]?) := List.filterMap_map.symm
    _ = ((readyEntries queued.2).map Prod.snd).filterMap (state.pending[·]?) := by rw [hashes]
    _ = (readyEntries queued.2).filterMap fun entry => state.pending[entry.2]? :=
          List.filterMap_map

theorem mem_classifyReady_iff {tx : ValidatedTransaction} :
    tx ∈ state.classifyReady ↔ tx ∈ state.readyRun tx.decoded.sender := by
  rw [slotted.classifyReady_eq, List.mem_flatMap]
  constructor
  · rintro ⟨queued, -, member⟩
    rwa [(slotted.mem_readyRun member).2.1]
  · intro member
    cases stored : state.senderQueues[tx.decoded.sender]? with
    | none =>
        have unlisted : (∅ : SenderQueue).toList = [] := ExtTreeMap.toList_eq_nil_iff.mpr rfl
        rw [SchedulerState.readyRun, SchedulerState.senderQueue, stored, Option.getD_none,
          readyEntries, unlisted] at member
        cases member
    | some queue => exact ⟨(tx.decoded.sender, queue), mem_toList.mpr stored, member⟩

/-- The frontier has one run of a sender, at one place. -/
theorem filter_classifyReady {sender : Address} {tx : ValidatedTransaction}
    (member : tx ∈ state.readyRun sender) :
    state.classifyReady.filter (fun other => other.decoded.sender = sender) =
      state.readyRun sender := by
  have owner := (slotted.mem_readyRun member).2.1
  have listed : tx ∈ state.classifyReady := by
    rw [slotted.mem_classifyReady_iff, owner]
    exact member
  rw [slotted.classifyReady_eq] at listed ⊢
  obtain ⟨queued, inQueues, inRun⟩ := List.mem_flatMap.mp listed
  have same : queued.1 = sender := (slotted.mem_readyRun inRun).2.1.symm.trans owner
  subst same
  exact filter_flatMap_owner (toList_pairwise_ne _)
    (fun _ _ _ belongs => (slotted.mem_readyRun belongs).2.1) inQueues

end Slotted

end Scheduler

namespace LiveRpc

open EventLog Scheduler SchedulerState

/-! ## What the scheduler is asked -/

/-- The transactions that are fetched for the transitions. -/
def readyTransactions (state : SchedulerState)
    (queueTransitions : List SchedulerQueueTransition) : List ValidatedTransaction :=
  state.pendingTransactions (readyHashes queueTransitions)

/-- The frontier that is fetched for the transitions. -/
def readyFrontier (state : SchedulerState) (queueTransitions : List SchedulerQueueTransition) :
    List ValidatedTransaction :=
  if queueTransitions.any fun transition => transition.state = .ready then state.classifyReady
  else []

/-- What is fetched stands in the sender's ready run. -/
theorem mem_readyTransactions {state next : SchedulerState} (slotted : Slotted next)
    {sender : Address} {tx : ValidatedTransaction}
    (fetched : tx ∈ readyTransactions next
      (next.queueTransitions sender (state.senderQueuePositions sender))) :
    tx ∈ next.readyRun sender := by
  obtain ⟨hash, listed, stored⟩ := List.mem_filterMap.mp fetched
  obtain ⟨transition, kept, rfl⟩ := List.mem_map.mp (List.mem_eraseDups.mp listed)
  obtain ⟨member, verdict⟩ := List.mem_filter.mp kept
  obtain ⟨position, inQueue, reported⟩ := List.mem_filterMap.mp member
  split at reported
  case isTrue => cases reported
  case isFalse =>
    cases reported
    obtain ⟨other, inRun, held⟩ := slotted.exists_mem_readyRun
      (slotted.getElem?_queueStates.mpr ⟨position, inQueue, rfl, of_decide_eq_true verdict⟩)
    rwa [Option.some.inj (stored.symm.trans held)]

/-! ## Requests -/

/-- The hashes a request is built for. -/
def ExecutableOpportunity.requestedHashes (opportunity : ExecutableOpportunity) : List TxHash :=
  if opportunity.candidate.memberTxHashes.isEmpty then [opportunity.record.txHash]
  else opportunity.candidate.memberTxHashes

theorem ExecutableOpportunity.requestedHashes_ne_nil (opportunity : ExecutableOpportunity) :
    opportunity.requestedHashes ≠ [] := by
  rw [requestedHashes]
  split
  case isTrue => exact List.cons_ne_nil _ _
  case isFalse some =>
    intro none
    exact some (List.isEmpty_iff.mpr none)

/-- Hashes that are all executable are all found. -/
theorem exists_requestedTxs {executable : List ValidatedTransaction} {hashes : List TxHash}
    (found : ∀ hash ∈ hashes, ∃ tx ∈ executable, tx.hash = hash) :
    ∃ txs, (hashes.mapM fun hash => executable.find? fun tx => tx.hash = hash) = some txs ∧
      (∀ tx ∈ txs, tx ∈ executable ∧ tx.hash ∈ hashes) ∧ ∀ hash ∈ hashes, ∃ tx ∈ txs, tx.hash = hash := by
  induction hashes with
  | nil => exact ⟨[], rfl, List.forall_mem_nil _, List.forall_mem_nil _⟩
  | cons hash rest ih =>
      obtain ⟨here, later⟩ := List.forall_mem_cons.mp found
      obtain ⟨txs, all, sound, complete⟩ := ih later
      have some : (executable.find? fun tx => tx.hash = hash).isSome = true := by
        obtain ⟨tx, member, same⟩ := here
        exact List.find?_isSome.mpr ⟨tx, member, decide_eq_true same⟩
      obtain ⟨tx, first⟩ := Option.isSome_iff_exists.mp some
      have same : tx.hash = hash := by simpa using List.find?_some first
      refine ⟨tx :: txs, ?_, ?_, ?_⟩
      · rw [List.mapM_cons, first, all]
        rfl
      · refine List.forall_mem_cons.mpr ⟨⟨List.mem_of_find?_eq_some first, ?_⟩, ?_⟩
        · rw [same]
          exact List.mem_cons_self
        · intro other member
          exact ⟨(sound other member).1, List.mem_cons_of_mem _ (sound other member).2⟩
      · refine List.forall_mem_cons.mpr ⟨⟨tx, List.mem_cons_self, same⟩, ?_⟩
        intro other listed
        obtain ⟨found, member, named⟩ := complete other listed
        exact ⟨found, List.mem_cons_of_mem _ member, named⟩

/-- The transactions of the request, once its hashes are found. -/
theorem exists_request {opportunity : ExecutableOpportunity}
    {executable requestedTxs : List ValidatedTransaction}
    (found : (opportunity.requestedHashes.mapM fun hash =>
      executable.find? fun tx => tx.hash = hash) = some requestedTxs) :
    ∃ request, buildRemoteSimulationRequest opportunity executable = some request ∧
      request.txs = executable.filter fun tx => tx.hash ∈ opportunity.requestedHashes ++
        requestedTxs.flatMap fun requested =>
          (executable.filter fun candidate =>
            candidate.decoded.sender = requested.decoded.sender ∧
              candidate.decoded.nonce ≤ requested.decoded.nonce).map (·.hash) := by
  unfold buildRemoteSimulationRequest
  dsimp only
  rw [← ExecutableOpportunity.requestedHashes, found]
  exact ⟨_, rfl, rfl⟩

/-- The transactions to simulate for members of a sender: a run without a gap from the sender's
lowest nonce to the highest one of a member. -/
structure SimulatesRun (state : SchedulerState) (sender : Address) (members : List TxHash)
    (txs : List ValidatedTransaction) : Prop where
  complete : ∀ hash ∈ members, ∃ tx ∈ txs, tx.hash = hash
  ready : ∀ tx ∈ txs, state.pending[tx.hash]? = some tx ∧
    (state.queueStates sender)[tx.hash]? = some .ready
  ofSender : ∀ tx ∈ txs, tx.decoded.sender = sender
  gapFree : Consecutive checkedSucc (txs.map (·.entry))
  lowest : ∃ first ∈ txs.head?, IsLowest (state.senderQueue sender) first.decoded.nonce
  highest : ∃ last ∈ txs.getLast?, last.hash ∈ members ∧
    ∀ tx ∈ txs, tx.hash ∈ members → tx.decoded.nonce ≤ last.decoded.nonce

section Requests

variable {state : SchedulerState} {sender : Address} {opportunity : ExecutableOpportunity}

/-- The request for members of one ready run: the run up to the highest of them. -/
theorem buildRemoteSimulationRequest_eq (slotted : Slotted state)
    (ready : ∀ hash ∈ opportunity.requestedHashes, ∃ tx ∈ state.readyRun sender, tx.hash = hash) :
    ∃ last ∈ state.readyRun sender, last.hash ∈ opportunity.requestedHashes ∧
      (∀ tx ∈ state.readyRun sender, tx.hash ∈ opportunity.requestedHashes →
        tx.decoded.nonce ≤ last.decoded.nonce) ∧
      ∃ request, buildRemoteSimulationRequest opportunity state.classifyReady = some request ∧
        request.txs = (state.readyRun sender).filter
          fun tx => tx.decoded.nonce.toNat ≤ last.decoded.nonce.toNat := by
  have inFrontier : ∀ tx ∈ state.readyRun sender, tx ∈ state.classifyReady := by
    intro tx member
    rwa [slotted.mem_classifyReady_iff, (slotted.mem_readyRun member).2.1]
  have unique : ∀ tx ∈ state.classifyReady, ∀ other ∈ state.classifyReady, tx.hash = other.hash →
      tx = other := by
    intro tx member other otherMember same
    have stored := (slotted.mem_readyRun (slotted.mem_classifyReady_iff.mp member)).1
    have otherStored := (slotted.mem_readyRun (slotted.mem_classifyReady_iff.mp otherMember)).1
    rw [same, otherStored] at stored
    exact (Option.some.inj stored).symm
  have available : ∀ hash ∈ opportunity.requestedHashes, ∃ tx ∈ state.classifyReady,
      tx.hash = hash := by
    intro hash member
    obtain ⟨tx, inRun, same⟩ := ready hash member
    exact ⟨tx, inFrontier tx inRun, same⟩
  obtain ⟨requestedTxs, found, sound, complete⟩ := exists_requestedTxs available
  have inRun : ∀ tx ∈ requestedTxs, tx ∈ state.readyRun sender := by
    intro tx member
    obtain ⟨frontier, named⟩ := sound tx member
    obtain ⟨other, inRun, same⟩ := ready tx.hash named
    rwa [unique tx frontier other (inFrontier other inRun) same.symm]
  -- The requested transaction of the highest nonce.
  obtain ⟨last, top⟩ : ∃ last, (requestedTxs.argmax fun tx => tx.decoded.nonce.toNat) =
      some last := by
    rw [← Option.ne_none_iff_exists', ne_eq, List.argmax_eq_none]
    rintro rfl
    obtain ⟨hash, member⟩ := List.exists_mem_of_ne_nil _ opportunity.requestedHashes_ne_nil
    obtain ⟨tx, none, -⟩ := complete hash member
    cases none
  have lastRequested : last ∈ requestedTxs := List.argmax_mem top
  have highest : ∀ tx ∈ requestedTxs, tx.decoded.nonce.toNat ≤ last.decoded.nonce.toNat := by
    intro tx member
    have below := List.le_of_mem_argmax member top
    exact below
  have requested_iff : ∀ tx ∈ state.classifyReady,
      tx.hash ∈ opportunity.requestedHashes ↔ tx ∈ requestedTxs := by
    intro tx member
    constructor
    · intro named
      obtain ⟨other, listed, same⟩ := complete tx.hash named
      rwa [unique tx member other (sound other listed).1 same.symm]
    · exact fun listed => (sound tx listed).2
  refine ⟨last, inRun last lastRequested, (sound last lastRequested).2, ?_, ?_⟩
  · intro tx member named
    exact UInt64.le_iff_toNat_le.mpr
      (highest tx ((requested_iff tx (inFrontier tx member)).mp named))
  · have owner := (slotted.mem_readyRun (inRun last lastRequested)).2.1
    obtain ⟨request, built, txs⟩ := exists_request found
    refine ⟨request, built, ?_⟩
    rw [txs, ← slotted.filter_classifyReady (inRun last lastRequested), List.filter_filter]
    refine List.filter_congr fun tx member => ?_
    rw [← Bool.decide_and, decide_eq_decide, List.mem_append, requested_iff tx member,
      List.mem_flatMap]
    constructor
    · rintro (listed | ⟨requested, listed, preceding⟩)
      · exact ⟨highest tx listed, (slotted.mem_readyRun (inRun tx listed)).2.1⟩
      · obtain ⟨candidate, kept, same⟩ := List.mem_map.mp preceding
        obtain ⟨inFrontier, below⟩ := List.mem_filter.mp kept
        obtain ⟨together, low⟩ := of_decide_eq_true below
        rw [unique candidate inFrontier tx member same] at together low
        exact ⟨(UInt64.le_iff_toNat_le.mp low).trans (highest requested listed),
          together.trans (slotted.mem_readyRun (inRun requested listed)).2.1⟩
    · rintro ⟨below, mine⟩
      refine .inr ⟨last, lastRequested, List.mem_map_of_mem (List.mem_filter.mpr ⟨member, ?_⟩)⟩
      exact decide_eq_true ⟨mine.trans owner.symm, UInt64.le_iff_toNat_le.mpr below⟩

/-- The run up to a member of it. -/
theorem simulatesRun_filter (slotted : Slotted state) {members : List TxHash}
    {last : ValidatedTransaction} (inRun : last ∈ state.readyRun sender)
    (named : last.hash ∈ members)
    (complete : ∀ hash ∈ members, ∃ tx ∈ state.readyRun sender, tx.hash = hash)
    (highest : ∀ tx ∈ state.readyRun sender, tx.hash ∈ members →
      tx.decoded.nonce ≤ last.decoded.nonce) :
    SimulatesRun state sender members ((state.readyRun sender).filter
      fun tx => tx.decoded.nonce.toNat ≤ last.decoded.nonce.toNat) := by
  generalize selected : (state.readyRun sender).filter
    (fun tx => tx.decoded.nonce.toNat ≤ last.decoded.nonce.toNat) = txs
  have mem_iff : ∀ tx, tx ∈ txs ↔ tx ∈ state.readyRun sender ∧
      tx.decoded.nonce.toNat ≤ last.decoded.nonce.toNat := by
    intro tx
    rw [← selected, List.mem_filter, decide_eq_true_iff]
  have lastIn : last ∈ txs := (mem_iff last).mpr ⟨inRun, le_rfl⟩
  have inQueue : readyEntries (state.senderQueue sender) <+: (state.senderQueue sender).toList :=
    leadingRun_isInitial _ _
  have ascending := (ascending_toList (state.senderQueue sender)).sublist inQueue.sublist
  have begins : txs.map (·.entry) <+: readyEntries (state.senderQueue sender) := by
    have kept : txs.map (·.entry) = (readyEntries (state.senderQueue sender)).filter
        (fun entry => entry.1.toNat ≤ last.decoded.nonce.toNat) := by
      rw [← slotted.map_entry_readyRun, List.filter_map, ← selected]
      rfl
    rw [kept]
    exact filter_rank_le_isInitial ascending _
  refine ⟨?_, ?_, ?_, ?_, ?_, ?_⟩
  · intro hash member
    obtain ⟨tx, listed, same⟩ := complete hash member
    exact ⟨tx, (mem_iff tx).mpr ⟨listed, UInt64.le_iff_toNat_le.mp
      (highest tx listed (same ▸ member))⟩, same⟩
  · intro tx member
    have facts := slotted.mem_readyRun ((mem_iff tx).mp member).1
    exact ⟨facts.1, facts.2.2⟩
  · exact fun tx member => (slotted.mem_readyRun ((mem_iff tx).mp member).1).2.1
  · have consecutive : Consecutive checkedSucc (readyEntries (state.senderQueue sender)) :=
      consecutive_leadingRun _ _
    exact consecutive.prefix begins
  · obtain ⟨first, rest, split⟩ := List.exists_cons_of_ne_nil (List.ne_nil_of_mem lastIn)
    obtain ⟨others, entries⟩ := begins.trans inQueue
    rw [split, List.map_cons, List.cons_append] at entries
    exact ⟨first, by rw [split]; rfl, isLowest_head entries.symm⟩
  · -- Nothing of the selection stands above the member the run was cut at.
    obtain ⟨front, top, split⟩ :=
      (List.eq_nil_or_concat' txs).resolve_left (List.ne_nil_of_mem lastIn)
    have order : Ascending UInt64.toNat (txs.map (·.entry)) := ascending.sublist begins.sublist
    rw [split, List.map_append] at order
    have same : last = top := by
      rw [split] at lastIn
      rcases List.mem_append.mp lastIn with below | here
      · have above : last.decoded.nonce.toNat < top.decoded.nonce.toNat :=
          (List.pairwise_append.mp order).2.2 _ (List.mem_map_of_mem below) _
            (List.mem_singleton_self _)
        have cut := ((mem_iff top).mp (by rw [split]; simp)).2
        omega
      · exact List.mem_singleton.mp here
    refine ⟨last, by rw [split, same]; simp, named, ?_⟩
    intro tx member requested
    exact highest tx ((mem_iff tx).mp member).1 requested

/-- **Remote simulation requests are executable.** In every reachable scheduler, an opportunity of
the transactions that an admission made ready has a request over the ready frontier. It holds all
members of the opportunity, ready transactions of their sender only, and these form a run without a
gap from the sender's lowest nonce to the highest one of a member. -/
theorem remoteSimulationRequest_executable {config : SchedulerConfig} {before : SchedulerState}
    (reachable : Reachable config before) (tx : ValidatedTransaction) (detectedUnixMs : Int64)
    (chainId : Option UInt64)
    (built : opportunity ∈ buildExecutableOpportunities
      (readyTransactions (before.admitTx tx config).2 (before.admitTx tx config).1.queueTransitions)
      detectedUnixMs chainId) :
    ∃ request,
      buildRemoteSimulationRequest opportunity
          (readyFrontier (before.admitTx tx config).2
            (before.admitTx tx config).1.queueTransitions) = some request ∧
        SimulatesRun (before.admitTx tx config).2 tx.decoded.sender opportunity.requestedHashes
          request.txs := by
  have after : Slotted (before.admitTx tx config).2 :=
    (Slotted.reached reachable).admitTx tx config
  have among := mem_buildExecutableOpportunities built
  have members : ∀ hash ∈ opportunity.requestedHashes,
      ∃ ready ∈ readyTransactions (before.admitTx tx config).2
        (before.admitTx tx config).1.queueTransitions, ready.hash = hash := by
    intro hash requested
    rw [ExecutableOpportunity.requestedHashes] at requested
    refine List.mem_map.mp ?_
    split at requested
    · rw [List.mem_singleton.mp requested, among.1]
      exact among.2.1
    · exact among.2.2 hash requested
  have inRun : ∀ ready ∈ readyTransactions (before.admitTx tx config).2
      (before.admitTx tx config).1.queueTransitions,
      ready ∈ (before.admitTx tx config).2.readyRun tx.decoded.sender := by
    intro ready fetched
    rcases queueTransitions_admitTx before tx config with none | diff
    · rw [none] at fetched
      cases fetched
    · rw [diff] at fetched
      exact mem_readyTransactions after fetched
  -- A ready transaction was fetched, so the frontier is.
  have frontier : readyFrontier (before.admitTx tx config).2
      (before.admitTx tx config).1.queueTransitions =
        (before.admitTx tx config).2.classifyReady := by
    obtain ⟨hash, requested⟩ := List.exists_mem_of_ne_nil _ opportunity.requestedHashes_ne_nil
    obtain ⟨ready, fetched, -⟩ := members hash requested
    obtain ⟨_, listed, -⟩ := List.mem_filterMap.mp fetched
    obtain ⟨transition, kept, -⟩ := List.mem_map.mp (List.mem_eraseDups.mp listed)
    obtain ⟨member, verdict⟩ := List.mem_filter.mp kept
    exact if_pos (List.any_eq_true.mpr ⟨transition, member, verdict⟩)
  have complete : ∀ hash ∈ opportunity.requestedHashes,
      ∃ ready ∈ (before.admitTx tx config).2.readyRun tx.decoded.sender, ready.hash = hash := by
    intro hash requested
    obtain ⟨ready, fetched, same⟩ := members hash requested
    exact ⟨ready, inRun ready fetched, same⟩
  obtain ⟨last, member, named, highest, request, requests, txs⟩ :=
    buildRemoteSimulationRequest_eq after complete
  rw [frontier]
  refine ⟨request, requests, ?_⟩
  rw [txs]
  exact simulatesRun_filter after member named complete highest

end Requests

/-- A swap of the sample sender. -/
def sampleSwapTx (hash : TxHash) (nonce : UInt64) : ValidatedTransaction :=
  { sampleValidatedTx hash 1 nonce 100 with calldata := [0x38, 0xed, 0x17, 0x39] }

/-- Two swaps with a gap between them, at nonce 8. -/
def gappedSwaps : SchedulerState :=
  SchedulerState.run {} {} [.admitTx (sampleSwapTx 10 7), .admitTx (sampleSwapTx 11 9)]

/-- The swap that fills the gap makes a bundle with the one beyond it, to be simulated on top of the
one before it. -/
theorem remoteSimulationRequest_executable_bundle :
    let admitted := gappedSwaps.admitTx (sampleSwapTx 12 8) {}
    ∃ opportunity request,
      opportunity.requestedHashes = [12, 11] ∧
        buildRemoteSimulationRequest opportunity
          (readyFrontier admitted.2 admitted.1.queueTransitions) = some request ∧
        SimulatesRun admitted.2 1 [12, 11] request.txs := by
  intro admitted
  have reachable : Reachable {} gappedSwaps := ⟨none, [], {}, _, rfl, rfl⟩
  have hashes : (buildExecutableOpportunities
      (readyTransactions admitted.2 admitted.1.queueTransitions) 0 none).map (·.requestedHashes) =
        [[12, 11], [11], [12]] := by decide +kernel
  obtain ⟨opportunity, rest, listed, requested, -⟩ := List.map_eq_cons_iff.mp hashes
  obtain ⟨request, built, run⟩ := remoteSimulationRequest_executable reachable (sampleSwapTx 12 8)
    0 none (by rw [listed]; exact List.mem_cons_self)
  refine ⟨opportunity, request, requested, built, ?_⟩
  rwa [requested] at run

end LiveRpc

end Mempulse
