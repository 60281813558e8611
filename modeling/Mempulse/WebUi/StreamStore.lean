import Mempulse.Library.DistinctRows
import Mempulse.Library.Runs
import Mempulse.WebUi.Values

/-!
# The stream store of the dashboard

The store holds the transaction rows that the dashboard shows. A commit of rows waits for the next
animation frame, and a later one takes its place. Beside the rows a bounded cache keeps the details
of transactions, from which a timer drops those whose rows are gone.

A cached detail is the one that was stored last under its hash (`run_detailCache`), and it stays as
long as fewer details than the limit follow (`run_keepsDetail`).

As in a browser there are timers and animation frames, and a frame that is requested runs later and
not within the request. The branches for a host without them are left out.
-/

set_option autoImplicit false

namespace Mempulse.WebUi

open Library

/-! ## The store -/

/-- Rows to show. What is no array counts as no rows. -/
structure TickerCommit (Row : Type) where
  recentTxRows : Option (List Row)
  transactionRows : Option (List Row)
  deriving DecidableEq

/-- The fields of the store and of its module, with the animation frames that were requested and have
neither run nor been cancelled. -/
structure StreamStore (Row Detail : Type) where
  recentTxRows : List Row := []
  transactionRows : List Row := []
  activeSelectedTxId : JsValue := .null
  detailVersion : Nat := 0
  transactionDetailCache : List (JsValue × Detail) := []
  pendingTickerCommit : Option (TickerCommit Row) := none
  rafHandle : Option Nat := none
  detailCachePruneTimer : Bool := false
  pendingDetailCachePruneRows : Option (List Row) := none
  frames : List Nat := []
  nextFrame : Nat := 1
  deriving DecidableEq

/-- The bound on details when none is given. -/
def defaultDetailCacheLimit : Nat := 96

/-- What is no array of rows is no rows. -/
def normalizeRows {Row : Type} (rows : Option (List Row)) : List Row := rows.getD []

section Store

variable {Row Detail : Type} (hashOf : Row → JsValue)

/-- The hashes of the rows that are shown. -/
def buildLiveHashSet (rows : Option (List Row)) : List JsValue :=
  ((normalizeRows rows).map hashOf).filter JsValue.truthy

/-- `value ?? null`. -/
def orNull : JsValue → JsValue
  | .undefined => .null
  | value => value

/-- A selected hash stays while its row is shown. -/
def resolveNextSelectedHash (currentSelectedHash : JsValue) (transactionRows : List Row) : JsValue :=
  if currentSelectedHash.truthy &&
      transactionRows.any (fun row => (hashOf row).strictEquals currentSelectedHash) then
    currentSelectedHash
  else (transactionRows.head?.map fun row => orNull (hashOf row)).getD .null

namespace StreamStore

/-- Tells the readers of details to look again. -/
def bumpDetailVersion (store : StreamStore Row Detail) : StreamStore Row Detail :=
  { store with detailVersion := store.detailVersion + 1 }

/-- The changed cache and whether it changed. -/
def pruneTransactionDetailCache (store : StreamStore Row Detail) (liveHashes : List JsValue) :
    Bool × StreamStore Row Detail :=
  (store.transactionDetailCache.any (fun entry => !liveHashes.contains entry.1),
    { store with transactionDetailCache :=
        store.transactionDetailCache.filter fun entry => liveHashes.contains entry.1 })

/-- What the timer of a prune does. -/
def pruneTimer (store : StreamStore Row Detail) : StreamStore Row Detail :=
  let rows := store.pendingDetailCachePruneRows
  let store :=
    { store with detailCachePruneTimer := false, pendingDetailCachePruneRows := none }
  let (changed, store) := store.pruneTransactionDetailCache (buildLiveHashSet hashOf rows)
  if changed then store.bumpDetailVersion else store

/-- A prune that is scheduled already takes the rows of the last call. -/
def scheduleTransactionDetailCachePrune (store : StreamStore Row Detail)
    (transactionRows : List Row) : StreamStore Row Detail :=
  if store.transactionDetailCache.length = 0 then store
  else
    { store with
      pendingDetailCachePruneRows := some transactionRows
      detailCachePruneTimer := true }

/-- The frame of a commit is not cancelled here, it finds nothing to show. -/
def commitTickerRows (store : StreamStore Row Detail) :
    Option (TickerCommit Row) → StreamStore Row Detail
  | none => store
  | some commit =>
    let transactionRows := normalizeRows commit.transactionRows
    let store :=
      { store with
        transactionRows := transactionRows
        recentTxRows := normalizeRows commit.recentTxRows
        activeSelectedTxId :=
          resolveNextSelectedHash hashOf store.activeSelectedTxId transactionRows
        pendingTickerCommit := none
        rafHandle := none }
    store.scheduleTransactionDetailCachePrune transactionRows

/-- The newest commit waits for the frame; one frame is asked for. -/
def enqueueTickerCommit (store : StreamStore Row Detail) (commit : Option (TickerCommit Row)) :
    StreamStore Row Detail :=
  let store := { store with pendingTickerCommit := commit }
  if store.rafHandle.isSome then store
  else
    { store with
      rafHandle := some store.nextFrame
      frames := store.frames ++ [store.nextFrame]
      nextFrame := store.nextFrame + 1 }

/-- What a requested frame does. -/
def frame (store : StreamStore Row Detail) (handle : Nat) : StreamStore Row Detail :=
  let store := { store with frames := store.frames.erase handle, rafHandle := none }
  store.commitTickerRows hashOf store.pendingTickerCommit

/-- The frame of the last request is cancelled, when there is one. -/
def cancelFrame (store : StreamStore Row Detail) : StreamStore Row Detail :=
  match store.rafHandle with
  | some handle => { store with frames := store.frames.erase handle, rafHandle := none }
  | none => store

/-- Commits what waits without the frame. -/
def flushTickerCommit (store : StreamStore Row Detail) : StreamStore Row Detail :=
  if store.pendingTickerCommit.isNone then store
  else
    let store := store.cancelFrame
    store.commitTickerRows hashOf store.pendingTickerCommit

/-- Forgets what waits. -/
def cancelTickerCommit (store : StreamStore Row Detail) : StreamStore Row Detail :=
  { store with pendingTickerCommit := none }.cancelFrame

/-- Selects a transaction. -/
def setActiveSelectedTxId (store : StreamStore Row Detail) (hash : JsValue) :
    StreamStore Row Detail :=
  { store with activeSelectedTxId := hash }

/-- The cache stays, its prune is cleared. -/
def reset (store : StreamStore Row Detail) : StreamStore Row Detail :=
  let store := { store with pendingTickerCommit := none }.cancelFrame
  { store with
    detailCachePruneTimer := false
    pendingDetailCachePruneRows := none
    recentTxRows := []
    transactionRows := []
    activeSelectedTxId := .null
    detailVersion := 0 }

/-! ### The details -/

/-- A detail may be `null` or `undefined`, and `null` is what the cache gives where it has nothing. -/
def getTransactionDetailByHash (store : StreamStore Row (Option Detail)) (hash : JsValue) :
    Option Detail :=
  if hash.truthy then
    (store.transactionDetailCache.find? fun entry => entry.1 = hash).bind Prod.snd
  else none

/-- The bound on details: at least one, and the default for what is no number. -/
def boundedLimit (limit : JsValue) : Nat :=
  match limit.finite? with
  | some limit => max 1 (floorFromZero limit)
  | none => defaultDetailCacheLimit

/-- The loop that drops the oldest entries. -/
def evictOldest (limit : Nat) : List (JsValue × Detail) → List (JsValue × Detail)
  | [] => []
  | oldest :: rest =>
    if limit < (oldest :: rest).length then evictOldest limit rest else oldest :: rest

/-- A map keeps its keys in the order in which they were set, and a key that is deleted first comes
last. -/
def storeDetail (cache : List (JsValue × Detail)) (hash : JsValue) (detail : Detail) (limit : Nat) :
    List (JsValue × Detail) :=
  evictOldest limit (cache.filter (fun entry => entry.1 ≠ hash) ++ [(hash, detail)])

/-- Stores a detail as the newest, and drops the oldest beyond the bound. -/
def setTransactionDetailByHash (store : StreamStore Row Detail) (hash : JsValue) (detail : Detail)
    (limit : JsValue) : StreamStore Row Detail :=
  if hash.truthy then
    { store with transactionDetailCache :=
        storeDetail store.transactionDetailCache hash detail (boundedLimit limit)
      }.bumpDetailVersion
  else store

/-- Forgets every detail. -/
def clearTransactionDetailCache (store : StreamStore Row Detail) : StreamStore Row Detail :=
  if store.transactionDetailCache.length = 0 then store
  else { store with transactionDetailCache := [] }.bumpDetailVersion

end StreamStore

end Store

/-! ## Runs -/

/-- What happens to a store. -/
inductive StoreEvent (Row Detail : Type) where
  | enqueueTickerCommit (commit : Option (TickerCommit Row))
  | frame (handle : Nat)
  | flushTickerCommit
  | cancelTickerCommit
  | commitTickerRows (commit : Option (TickerCommit Row))
  | setActiveSelectedTxId (hash : JsValue)
  | setTransactionDetailByHash (hash : JsValue) (detail : Detail) (limit : JsValue)
  | pruneTimer
  | clearTransactionDetailCache
  | reset
  deriving DecidableEq

section Runs

variable {Row Detail : Type} (hashOf : Row → JsValue)

/-- A frame runs when it was requested, a timer when it is set. -/
def StreamStore.next (store : StreamStore Row Detail) :
    StoreEvent Row Detail → Option (StreamStore Row Detail)
  | .enqueueTickerCommit commit => some (store.enqueueTickerCommit commit)
  | .frame handle => if handle ∈ store.frames then some (store.frame hashOf handle) else none
  | .flushTickerCommit => some (store.flushTickerCommit hashOf)
  | .cancelTickerCommit => some store.cancelTickerCommit
  | .commitTickerRows commit => some (store.commitTickerRows hashOf commit)
  | .setActiveSelectedTxId hash => some (store.setActiveSelectedTxId hash)
  | .setTransactionDetailByHash hash detail limit =>
    some (store.setTransactionDetailByHash hash detail limit)
  | .pruneTimer => if store.detailCachePruneTimer then some (store.pruneTimer hashOf) else none
  | .clearTransactionDetailCache => some store.clearTransactionDetailCache
  | .reset => some store.reset

/-- The steps of a store. -/
def StreamStore.Steps (store : StreamStore Row Detail) (event : StoreEvent Row Detail)
    (after : StreamStore Row Detail) : Prop :=
  store.next hashOf event = some after

end Runs

/-! ## Details -/

section Details

variable {Row Detail : Type} {hashOf : Row → JsValue}

namespace StreamStore

theorem evictOldest_eq (limit : Nat) (cache : List (JsValue × Detail)) :
    evictOldest limit cache = window limit cache := by
  induction cache with
  | nil => rw [evictOldest, window_nil]
  | cons oldest rest ih =>
      rw [evictOldest, ih]
      split
      case isTrue full => rw [window_cons_of_lt full]
      case isFalse room => rw [window_of_le (Nat.le_of_not_lt room)]

theorem boundedLimit_pos (limit : JsValue) : 0 < boundedLimit limit := by
  unfold boundedLimit
  split
  · exact Nat.lt_of_lt_of_le Nat.zero_lt_one (Nat.le_max_left _ _)
  · decide

/-- What is left of a cache beside a detail that is stored. -/
def olderDetails (cache : List (JsValue × Detail)) (hash : JsValue) (limit : Nat) :
    List (JsValue × Detail) :=
  window (limit - 1) (cache.filter fun entry => entry.1 ≠ hash)

theorem storeDetail_eq (cache : List (JsValue × Detail)) (hash : JsValue) (detail : Detail)
    {limit : Nat} (positive : 0 < limit) :
    storeDetail cache hash detail limit = olderDetails cache hash limit ++ [(hash, detail)] := by
  have count : ∀ others : List (JsValue × Detail),
      (others ++ [(hash, detail)]).length - limit = others.length - (limit - 1) := by
    intro others
    rw [List.length_append, List.length_singleton]
    omega
  rw [storeDetail, evictOldest_eq, window, count, olderDetails, window,
    List.drop_append_of_le_length (Nat.sub_le _ _)]

theorem ne_of_mem_olderDetails {cache : List (JsValue × Detail)} {hash : JsValue} {limit : Nat}
    {entry : JsValue × Detail} (older : entry ∈ olderDetails cache hash limit) : entry.1 ≠ hash :=
  of_decide_eq_true (List.mem_filter.mp ((window_isSuffix _ _).mem older)).2

/-- The detail that was just stored is cached. -/
theorem getTransactionDetailByHash_set (store : StreamStore Row (Option Detail)) {hash : JsValue}
    (detail : Option Detail) (limit : JsValue) (named : hash.truthy = true) :
    (store.setTransactionDetailByHash hash detail limit).getTransactionDetailByHash hash =
      detail := by
  have absent : (olderDetails store.transactionDetailCache hash (boundedLimit limit)).find?
      (fun entry => entry.1 = hash) = none :=
    List.find?_eq_none.mpr fun entry older same =>
      ne_of_mem_olderDetails older (of_decide_eq_true same)
  rw [setTransactionDetailByHash, if_pos named, getTransactionDetailByHash, if_pos named]
  change ((storeDetail store.transactionDetailCache hash detail (boundedLimit limit)).find? _).bind _ = _
  rw [storeDetail_eq _ _ _ (boundedLimit_pos limit), List.find?_append, absent, Option.none_or,
    List.find?_cons_of_pos (by simp)]
  rfl

end StreamStore

/-- The details that were stored since the cache was last cleared, the latest last. -/
def storedDetails (history : List (StoreEvent Row Detail)) : List (JsValue × Detail) :=
  history.foldl (fun stored event =>
    match event with
    | .setTransactionDetailByHash hash detail _ =>
      if hash.truthy then stored ++ [(hash, detail)] else stored
    | .clearTransactionDetailCache => []
    | _ => stored) []

@[simp] theorem storedDetails_append_singleton (history : List (StoreEvent Row Detail))
    (event : StoreEvent Row Detail) :
    storedDetails (history ++ [event]) =
      match event with
      | .setTransactionDetailByHash hash detail _ =>
        if hash.truthy then storedDetails history ++ [(hash, detail)] else storedDetails history
      | .clearTransactionDetailCache => []
      | _ => storedDetails history := by
  rw [storedDetails, List.foldl_append]
  cases event <;> rfl

/-- The cached details are of those that were stored last under their hashes, in the order in which
they were stored. -/
def Cached (cache stored : List (JsValue × Detail)) : Prop :=
  cache.Sublist (latestOfEach Prod.fst stored)

theorem Cached.store {cache stored : List (JsValue × Detail)} (cached : Cached cache stored)
    (hash : JsValue) (detail : Detail) {limit : Nat} (positive : 0 < limit) :
    Cached (StreamStore.storeDetail cache hash detail limit) (stored ++ [(hash, detail)]) := by
  rw [Cached, StreamStore.storeDetail_eq cache hash detail positive, latestOfEach_concat]
  refine List.Sublist.append ?_ (List.Sublist.refl _)
  exact (window_isSuffix _ _).sublist.trans (cached.filter _)

@[simp] theorem cache_schedulePrune (store : StreamStore Row Detail) (rows : List Row) :
    (store.scheduleTransactionDetailCachePrune rows).transactionDetailCache =
      store.transactionDetailCache := by
  unfold StreamStore.scheduleTransactionDetailCachePrune
  split <;> rfl

@[simp] theorem cache_commitTickerRows (store : StreamStore Row Detail)
    (commit : Option (TickerCommit Row)) :
    (store.commitTickerRows hashOf commit).transactionDetailCache =
      store.transactionDetailCache := by
  cases commit with
  | none => rfl
  | some commit => exact cache_schedulePrune _ _

@[simp] theorem cache_cancelFrame (store : StreamStore Row Detail) :
    store.cancelFrame.transactionDetailCache = store.transactionDetailCache := by
  unfold StreamStore.cancelFrame
  split <;> rfl

/-- No event but those of the details touches the cache. -/
theorem cache_of_steps {store after : StreamStore Row Detail} {event : StoreEvent Row Detail}
    (taken : store.Steps hashOf event after) :
    after.transactionDetailCache =
      match event with
      | .setTransactionDetailByHash hash detail limit =>
        if hash.truthy then
          StreamStore.storeDetail store.transactionDetailCache hash detail
            (StreamStore.boundedLimit limit)
        else store.transactionDetailCache
      | .pruneTimer => store.transactionDetailCache.filter fun entry =>
          (buildLiveHashSet hashOf store.pendingDetailCachePruneRows).contains entry.1
      | .clearTransactionDetailCache => []
      | _ => store.transactionDetailCache := by
  unfold StreamStore.Steps StreamStore.next at taken
  cases event with
  | enqueueTickerCommit commit =>
      cases taken
      unfold StreamStore.enqueueTickerCommit
      dsimp only
      split <;> rfl
  | frame handle =>
      dsimp only at taken
      split at taken
      · cases taken
        exact cache_commitTickerRows _ _
      · cases taken
  | flushTickerCommit =>
      cases taken
      unfold StreamStore.flushTickerCommit
      split
      · rfl
      · exact (cache_commitTickerRows _ _).trans (cache_cancelFrame store)
  | cancelTickerCommit =>
      cases taken
      exact cache_cancelFrame _
  | commitTickerRows commit =>
      cases taken
      exact cache_commitTickerRows store commit
  | setActiveSelectedTxId hash =>
      cases taken
      rfl
  | setTransactionDetailByHash hash detail limit =>
      cases taken
      unfold StreamStore.setTransactionDetailByHash
      dsimp only
      split <;> rfl
  | pruneTimer =>
      dsimp only at taken
      split at taken
      · cases taken
        unfold StreamStore.pruneTimer
        dsimp only [StreamStore.pruneTransactionDetailCache]
        split <;> rfl
      · cases taken
  | clearTransactionDetailCache =>
      cases taken
      unfold StreamStore.clearTransactionDetailCache
      split
      case isTrue empty => exact List.eq_nil_of_length_eq_zero empty
      case isFalse => rfl
  | reset =>
      cases taken
      exact cache_cancelFrame _

/-- One event keeps the cached details among those that were stored. -/
theorem Cached.step {store after : StreamStore Row Detail} {history : List (StoreEvent Row Detail)}
    {event : StoreEvent Row Detail}
    (cached : Cached store.transactionDetailCache (storedDetails history))
    (taken : store.Steps hashOf event after) :
    Cached after.transactionDetailCache (storedDetails (history ++ [event])) := by
  rw [cache_of_steps taken, storedDetails_append_singleton]
  cases event with
  | setTransactionDetailByHash hash detail limit =>
      dsimp only
      split
      · exact cached.store hash detail (StreamStore.boundedLimit_pos limit)
      · exact cached
  | pruneTimer => exact List.filter_sublist.trans cached
  | clearTransactionDetailCache => exact List.nil_sublist _
  | _ => exact cached

theorem Cached.run {store : StreamStore Row Detail} {history : List (StoreEvent Row Detail)}
    (run : Run (StreamStore.Steps hashOf) {} history store) :
    Cached store.transactionDetailCache (storedDetails history) :=
  run.invariant (motive := fun past store => Cached store.transactionDetailCache (storedDetails past))
    (by exact List.nil_sublist _) fun _ cached taken => cached.step taken

/-- The cache has room for as many details as the greatest limit so far. -/
theorem length_cache_le {store : StreamStore Row Detail} {history : List (StoreEvent Row Detail)}
    (run : Run (StreamStore.Steps hashOf) {} history store) {bound : Nat}
    (limits : ∀ hash detail limit, .setTransactionDetailByHash hash detail limit ∈ history →
      StreamStore.boundedLimit limit ≤ bound) :
    store.transactionDetailCache.length ≤ bound := by
  refine run.invariant_of_history
    (motive := fun _ store => store.transactionDetailCache.length ≤ bound) (Nat.zero_le _) ?_
  intro past store after event rest whole _ fits taken
  rw [cache_of_steps taken]
  cases event with
  | setTransactionDetailByHash hash detail limit =>
      dsimp only
      split
      · have listed := limits hash detail limit (by rw [whole]; simp)
        rw [StreamStore.storeDetail, StreamStore.evictOldest_eq, length_window]
        exact Nat.le_trans (Nat.min_le_right _ _) listed
      · exact fits
  | pruneTimer => exact Nat.le_trans (List.length_filter_le _ _) fits
  | clearTransactionDetailCache => exact Nat.zero_le _
  | _ => exact fits

/-- What the cache gives was stored last under its hash. -/
theorem Cached.newest_of_get {store : StreamStore Row (Option Detail)}
    {stored : List (JsValue × Option Detail)} (cached : Cached store.transactionDetailCache stored)
    {hash : JsValue} {detail : Detail}
    (given : store.getTransactionDetailByHash hash = some detail) :
    latest Prod.fst hash stored = some (hash, some detail) := by
  unfold StreamStore.getTransactionDetailByHash at given
  split at given
  case isFalse => cases given
  case isTrue =>
    obtain ⟨⟨key, value⟩, found, rfl⟩ := Option.bind_eq_some_iff.mp given
    have own : key = hash := by simpa using List.find?_some found
    subst own
    exact (mem_latestOfEach_iff Prod.fst).mp (cached.subset (List.mem_of_find?_eq_some found))

/-- **A cached detail is the one that was stored last under its hash.** Of the details that were stored
last under their hashes the cache has some, in the order in which they were stored and no more than the
greatest limit. What it gives was stored last, and what was just stored is given. -/
theorem run_detailCache {store : StreamStore Row (Option Detail)}
    {history : List (StoreEvent Row (Option Detail))}
    (run : Run (StreamStore.Steps hashOf) {} history store) {bound : Nat}
    (limits : ∀ hash detail limit, .setTransactionDetailByHash hash detail limit ∈ history →
      StreamStore.boundedLimit limit ≤ bound) :
    (store.transactionDetailCache.map Prod.fst).Nodup ∧
      store.transactionDetailCache.Sublist (latestOfEach Prod.fst (storedDetails history)) ∧
      store.transactionDetailCache.length ≤ bound ∧
      (∀ hash detail, store.getTransactionDetailByHash hash = some detail →
        latest Prod.fst hash (storedDetails history) = some (hash, some detail)) ∧
      ∀ hash detail limit, hash.truthy = true →
        (store.setTransactionDetailByHash hash detail limit).getTransactionDetailByHash hash =
          detail := by
  have cached := Cached.run run
  exact ⟨(cached.map _).nodup (latestOfEach_nodup_keys Prod.fst _), cached,
    length_cache_le run limits, fun _ _ given => cached.newest_of_get given,
    fun _ detail limit named => StreamStore.getTransactionDetailByHash_set store detail limit named⟩

/-! ### How long a detail stays -/

/-- The event drops a detail neither by clearing the cache, nor by pruning it, nor by a limit below a
bound, and it does not store another one under its hash. -/
def StreamStore.Spares (hashOf : Row → JsValue) (bound : Nat) (hash : JsValue)
    (store : StreamStore Row Detail) : StoreEvent Row Detail → Prop
  | .setTransactionDetailByHash other _ limit =>
    other.truthy = true → other ≠ hash ∧ bound ≤ StreamStore.boundedLimit limit
  | .pruneTimer => hash ∈ buildLiveHashSet hashOf store.pendingDetailCachePruneRows
  | .clearTransactionDetailCache => False
  | _ => True

/-- A detail is cached with fewer than some details behind it, each of them stored under a hash of a
list. -/
def Stays (cache : List (JsValue × Detail)) (hash : JsValue) (detail : Detail)
    (stored : List JsValue) : Prop :=
  ∃ front back, cache = front ++ (hash, detail) :: back ∧
    (∀ entry ∈ front, entry.1 ≠ hash) ∧ (back.map Prod.fst).Nodup ∧
    ∀ entry ∈ back, entry.1 ∈ stored

theorem Stays.filter {cache : List (JsValue × Detail)} {hash : JsValue} {detail : Detail}
    {stored : List JsValue} (stays : Stays cache hash detail stored)
    (keep : JsValue × Detail → Bool) (kept : keep (hash, detail) = true) :
    Stays (cache.filter keep) hash detail stored := by
  obtain ⟨front, back, rfl, before, distinct, behind⟩ := stays
  refine ⟨front.filter keep, back.filter keep, ?_,
    fun entry member => before entry (List.mem_of_mem_filter member),
    (List.filter_sublist.map _).nodup distinct,
    fun entry member => behind entry (List.mem_of_mem_filter member)⟩
  rw [List.filter_append, List.filter_cons, if_pos kept]

/-- Another stored detail leaves it, as long as the hashes are fewer than the limit. -/
theorem Stays.store {cache : List (JsValue × Detail)} {hash other : JsValue} {detail : Detail}
    {stored : List JsValue} (stays : Stays cache hash detail stored) (apart : other ≠ hash)
    (value : Detail) {limit bound : Nat} (room : bound ≤ limit)
    (listed : other ∈ stored) (few : stored.dedup.length < bound) :
    Stays (StreamStore.storeDetail cache other value limit) hash detail stored := by
  have kept := stays.filter (fun entry => entry.1 ≠ other) (decide_eq_true apart.symm)
  obtain ⟨front, back, whole, before, distinct, behind⟩ := kept
  have fresh : other ∉ back.map Prod.fst := by
    intro among
    obtain ⟨entry, member, own⟩ := List.mem_map.mp among
    have listed : entry ∈ cache.filter fun entry => entry.1 ≠ other := by
      rw [whole]
      exact List.mem_append_right _ (List.mem_cons_of_mem _ member)
    exact of_decide_eq_true (List.mem_filter.mp listed).2 own
  have appended : ((back ++ [(other, value)]).map Prod.fst).Nodup := by
    rw [List.map_append, List.nodup_append]
    refine ⟨distinct, List.nodup_singleton _, ?_⟩
    rintro key among alone single rfl
    have own : key = other := List.mem_singleton.mp single
    exact fresh (own ▸ among)
  have behindIt : ∀ entry ∈ back ++ [(other, value)], entry.1 ∈ stored := by
    intro entry member
    rcases List.mem_append.mp member with member | member
    · exact behind entry member
    · rw [List.mem_singleton.mp member]
      exact listed
  have count : (back ++ [(other, value)]).length ≤ stored.dedup.length := by
    rw [← List.length_map Prod.fst]
    refine (List.Nodup.subperm appended fun key among => ?_).length_le
    obtain ⟨entry, member, rfl⟩ := List.mem_map.mp among
    exact List.mem_dedup.mpr (behindIt entry member)
  rw [List.length_append, List.length_singleton] at count
  refine ⟨front.drop ((front ++ (hash, detail) :: back ++ [(other, value)]).length - limit),
    back ++ [(other, value)], ?_, fun entry member => before entry (List.mem_of_mem_drop member),
    appended, behindIt⟩
  rw [StreamStore.storeDetail, StreamStore.evictOldest_eq, whole, window]
  rw [List.append_assoc, List.cons_append, List.drop_append_of_le_length]
  simp only [List.length_append, List.length_cons, List.length_nil]
  omega

/-- The hashes under which details are stored. -/
def storedHashes (history : List (StoreEvent Row Detail)) : List JsValue :=
  history.filterMap fun event =>
    match event with
    | .setTransactionDetailByHash hash _ _ => if hash.truthy then some hash else none
    | _ => none

theorem mem_storedHashes {history : List (StoreEvent Row Detail)} {hash : JsValue} {detail : Detail}
    {limit : JsValue} (member : .setTransactionDetailByHash hash detail limit ∈ history)
    (named : hash.truthy = true) : hash ∈ storedHashes history :=
  List.mem_filterMap.mpr ⟨_, member, if_pos named⟩

/-- **A detail stays** until the cache is cleared, a prune finds its row gone, or as many details as
a limit are stored under other hashes. -/
theorem run_keepsDetail {store last : StreamStore Row (Option Detail)} {hash : JsValue}
    {detail : Option Detail} {limit : JsValue} {bound : Nat}
    {onward : List (StoreEvent Row (Option Detail))}
    (named : hash.truthy = true)
    (run : Run (fun store event after => StreamStore.Steps hashOf store event after ∧
      store.Spares hashOf bound hash event)
      (store.setTransactionDetailByHash hash detail limit) onward last)
    (few : (storedHashes onward).dedup.length < bound) :
    last.getTransactionDetailByHash hash = detail := by
  have stays : Stays last.transactionDetailCache hash detail (storedHashes onward) := by
    refine run.invariant_of_history (motive := fun _ store =>
      Stays store.transactionDetailCache hash detail (storedHashes onward)) ?_ ?_
    · refine ⟨StreamStore.olderDetails store.transactionDetailCache hash
        (StreamStore.boundedLimit limit), [], ?_,
        fun entry older => StreamStore.ne_of_mem_olderDetails older, List.nodup_nil,
        fun entry member => by cases member⟩
      rw [StreamStore.setTransactionDetailByHash, if_pos named]
      exact StreamStore.storeDetail_eq _ _ _ (StreamStore.boundedLimit_pos limit)
    · rintro past state after event rest whole - held ⟨taken, spared⟩
      rw [cache_of_steps taken]
      cases event with
      | setTransactionDetailByHash other value otherLimit =>
          dsimp only
          split
          case isTrue otherNamed =>
            obtain ⟨apart, room⟩ := spared otherNamed
            have stored : .setTransactionDetailByHash other value otherLimit ∈ onward :=
              whole ▸ List.mem_append_right _ List.mem_cons_self
            exact held.store apart value room (mem_storedHashes stored otherNamed) few
          case isFalse => exact held
      | pruneTimer => exact held.filter _ (List.contains_iff_mem.mpr spared)
      | clearTransactionDetailCache => exact spared.elim
      | _ => exact held
  obtain ⟨front, back, whole, before, -⟩ := stays
  have absent : front.find? (fun entry => entry.1 = hash) = none :=
    List.find?_eq_none.mpr fun entry member same => before entry member (of_decide_eq_true same)
  rw [StreamStore.getTransactionDetailByHash, if_pos named, whole, List.find?_append, absent,
    Option.none_or, List.find?_cons_of_pos (by simp)]
  rfl

end Details

/-! ## Sample runs -/

/-- A commit of rows that are their own hashes. -/
def sampleCommit (hashes : List String) : TickerCommit String where
  recentTxRows := some hashes
  transactionRows := some hashes

/-- Where sample events lead. -/
def sampleStore (history : List (StoreEvent String (Option Nat))) :
    StreamStore String (Option Nat) :=
  (history.foldlM (StreamStore.next JsValue.string) {}).getD {}

/-- Two details under a limit of two, and the prune that a commit of the second one's row starts. -/
def prunedDetails : List (StoreEvent String (Option Nat)) :=
  [.setTransactionDetailByHash (.string "0x1") (some 7) (.number (.finite 2)),
    .setTransactionDetailByHash (.string "0x2") (some 8) (.number (.finite 2)),
    .commitTickerRows (some (sampleCommit ["0x2"])), .pruneTimer]

theorem prunedDetails_cached :
    (sampleStore prunedDetails).transactionDetailCache.length ≤ 2 ∧
      latest Prod.fst (.string "0x2") (storedDetails prunedDetails) =
        some (.string "0x2", some 8) := by
  have reached : Run (StreamStore.Steps JsValue.string) {} prunedDetails
      (sampleStore prunedDetails) := Run.of_foldlM (by decide +kernel)
  have limits : ∀ hash detail limit, .setTransactionDetailByHash hash detail limit ∈ prunedDetails →
      StreamStore.boundedLimit limit ≤ 2 := by
    intro hash detail limit member
    simp only [prunedDetails, List.mem_cons, StoreEvent.setTransactionDetailByHash.injEq,
      reduceCtorEq, List.not_mem_nil, or_false] at member
    rcases member with ⟨-, -, rfl⟩ | ⟨-, -, rfl⟩ <;> decide
  obtain ⟨-, -, fits, newest, -⟩ := run_detailCache reached limits
  exact ⟨fits, newest _ _ (by decide +kernel)⟩

/-- The second detail leaves the first one, since two fit. -/
theorem prunedDetails_keeps :
    (sampleStore (prunedDetails.take 2)).getTransactionDetailByHash (.string "0x1") = some 7 := by
  have spared : Run (fun store event after => StreamStore.Steps JsValue.string store event after ∧
      store.Spares JsValue.string 2 (.string "0x1") event)
      (({} : StreamStore String (Option Nat)).setTransactionDetailByHash (.string "0x1") (some 7)
        (.number (.finite 2)))
      [.setTransactionDetailByHash (.string "0x2") (some 8) (.number (.finite 2))]
      (sampleStore (prunedDetails.take 2)) :=
    .single ⟨by unfold StreamStore.Steps; decide +kernel, fun _ => ⟨by decide, by decide⟩⟩
  exact run_keepsDetail (by decide) spared (by decide)

end Mempulse.WebUi
