import Mempulse.LiveRpc.Refetch

/-!
# Caches of seen hashes

The live worker and the RPC service remember hashes alike, in a set and in a queue. From the empty
cache both hold the last hashes that were accepted, at most the bound of the cache, and they refuse
a hash exactly while they hold it (`remembersLast`).
-/

set_option autoImplicit false

namespace Mempulse.LiveRpc

open Std Ingest

/-! ## Calls -/

/-- The hashes that a sequence of calls accepts, and the state after it. -/
def rememberAll {σ : Type} (remember : σ → TxHash → Bool × σ) : σ → List TxHash → List TxHash × σ
  | state, [] => ([], state)
  | state, hash :: rest =>
    let remembered := remember state hash
    let later := rememberAll remember remembered.2 rest
    (if remembered.1 then hash :: later.1 else later.1, later.2)

/-- **The dedup cache law** of calls from a start: after any sequence of them the set and the queue
have the same hashes, each once, the last ones that were accepted and in this order, and the next
call returns false exactly when they have its hash. -/
structure RemembersLast {σ : Type} (maxSeenHashes : Nat) (remember : σ → TxHash → Bool × σ)
    (cacheOf : σ → SeenCache) (start : σ) : Prop where
  recalls : ∀ hashes, Recalls maxSeenHashes (rememberAll remember start hashes).1
    (cacheOf (rememberAll remember start hashes).2)
  length : ∀ hashes, (cacheOf (rememberAll remember start hashes).2).seenOrder.length =
    min maxSeenHashes (rememberAll remember start hashes).1.length
  refuses : ∀ hashes hash, (remember (rememberAll remember start hashes).2 hash).1 = false ↔
    hash ∈ (cacheOf (rememberAll remember start hashes).2).seenOrder

/-! ## The live worker -/

section Worker

variable {maxSeenHashes : Nat} {accepted : List TxHash} {cache : SeenCache}

theorem Recalls.rememberAll (recalls : Recalls maxSeenHashes accepted cache)
    (hashes : List TxHash) :
    Recalls maxSeenHashes
      (accepted ++ (LiveRpc.rememberAll (fun cache hash => rememberHash maxSeenHashes hash cache)
        cache hashes).1)
      (LiveRpc.rememberAll (fun cache hash => rememberHash maxSeenHashes hash cache)
        cache hashes).2 := by
  induction hashes generalizing accepted cache with
  | nil =>
      rw [LiveRpc.rememberAll, List.append_nil]
      exact recalls
  | cons hash rest ih =>
      rw [LiveRpc.rememberAll]
      dsimp only
      by_cases seen : cache.seenHashes.contains hash = true
      · rw [rememberHash_of_contains seen]
        exact ih recalls
      · obtain ⟨isNew, onward⟩ := recalls.rememberHash_of_fresh seen
        rw [if_pos isNew, List.append_cons]
        exact ih onward

theorem Recalls.length_seenOrder (recalls : Recalls maxSeenHashes accepted cache) :
    cache.seenOrder.length = min maxSeenHashes accepted.length := by
  rw [recalls.order, Library.length_window, Nat.min_comm]

/-- A call returns false exactly when the cache has the hash. -/
theorem Recalls.refuses_iff (recalls : Recalls maxSeenHashes accepted cache) (hash : TxHash) :
    (rememberHash maxSeenHashes hash cache).1 = false ↔ hash ∈ cache.seenOrder := by
  rw [← recalls.holds]
  by_cases seen : cache.seenHashes.contains hash = true
  · rw [rememberHash_of_contains seen]
    exact iff_of_true rfl seen
  · rw [(recalls.rememberHash_of_fresh seen).1]
    exact iff_of_false Bool.true_eq_false_eq_False seen

theorem rememberHash_remembersLast (maxSeenHashes : Nat) :
    RemembersLast maxSeenHashes (fun cache hash => rememberHash maxSeenHashes hash cache) id
      .empty where
  recalls hashes := (Recalls.empty maxSeenHashes).rememberAll hashes
  length hashes := ((Recalls.empty maxSeenHashes).rememberAll hashes).length_seenOrder
  refuses hashes hash := ((Recalls.empty maxSeenHashes).rememberAll hashes).refuses_iff hash

end Worker

/-! ## The RPC service -/

section Service

variable {P C : Type}

/-- The part of a service that remembers hashes. -/
def cacheOfService (service : RpcIngestService P C) : SeenCache where
  seenHashes := service.seenHashes
  seenOrder := service.seenOrder

/-- The service with another cache. -/
def withCache (service : RpcIngestService P C) (cache : SeenCache) : RpcIngestService P C :=
  { service with seenHashes := cache.seenHashes, seenOrder := cache.seenOrder }

/-- The service remembers a hash as a live worker does. -/
theorem rememberHash_withCache (service : RpcIngestService P C) (cache : SeenCache)
    (hash : TxHash) :
    (withCache service cache).rememberHash hash =
      ((rememberHash service.config.maxSeenHashes hash cache).1,
        withCache service (rememberHash service.config.maxSeenHashes hash cache).2) := by
  unfold RpcIngestService.rememberHash rememberHash
  by_cases seen : cache.seenHashes.contains hash = true
  · have alsoSeen : (withCache service cache).seenHashes.contains hash = true := seen
    rw [if_pos seen, if_pos alsoSeen]
  · have alsoFresh : ¬ (withCache service cache).seenHashes.contains hash = true := seen
    rw [if_neg seen, if_neg alsoFresh]
    rfl

theorem rememberAll_withCache (service : RpcIngestService P C) (cache : SeenCache)
    (hashes : List TxHash) :
    rememberAll RpcIngestService.rememberHash (withCache service cache) hashes =
      ((rememberAll (fun cache hash => rememberHash service.config.maxSeenHashes hash cache)
          cache hashes).1,
        withCache service
          (rememberAll (fun cache hash => rememberHash service.config.maxSeenHashes hash cache)
            cache hashes).2) := by
  induction hashes generalizing cache with
  | nil => rfl
  | cons hash rest ih =>
      rw [rememberAll, rememberHash_withCache]
      dsimp only
      rw [ih]
      rfl

theorem rememberHash_service_remembersLast (service : RpcIngestService P C) :
    RemembersLast service.config.maxSeenHashes RpcIngestService.rememberHash cacheOfService
      (withCache service .empty) where
  recalls hashes := by
    rw [rememberAll_withCache]
    exact (rememberHash_remembersLast service.config.maxSeenHashes).recalls hashes
  length hashes := by
    rw [rememberAll_withCache]
    exact (rememberHash_remembersLast service.config.maxSeenHashes).length hashes
  refuses hashes hash := by
    rw [rememberAll_withCache, rememberHash_withCache]
    exact (rememberHash_remembersLast service.config.maxSeenHashes).refuses hashes hash

end Service

/-- **Both caches keep the law**, for every bound and from every service whose cache is empty. -/
theorem remembersLast (P C : Type) :
    (∀ maxSeenHashes : Nat,
      RemembersLast maxSeenHashes (fun cache hash => rememberHash maxSeenHashes hash cache) id
        .empty) ∧
      ∀ service : RpcIngestService P C,
        RemembersLast service.config.maxSeenHashes RpcIngestService.rememberHash cacheOfService
          (withCache service .empty) :=
  ⟨rememberHash_remembersLast, rememberHash_service_remembersLast⟩

end Mempulse.LiveRpc
