import DistCache.Cache.Engine
import DistCache.Persistence.WalSequence

namespace DistCache.Concurrency

open Cache Persistence

-- A thread's path: the mutexes it locks and unlocks, and the calls that wait on the network.

inductive Mutex
  | ring (owner : String)
  | shard (index : Nat)
  | wal
deriving DecidableEq, Repr

-- A mutex's place in the hierarchy: ring before engine shard before WAL.
def Mutex.level : Mutex → Nat
  | .ring _ => 0
  | .shard _ => 1
  | .wal => 2

def Mutex.shardIndex? : Mutex → Option Nat
  | .shard i => some i
  | _ => none

-- `rpc` is a call that waits on the network: an RPC, or a write to an RPC's response stream.
inductive Action
  | lock (m : Mutex)
  | unlock (m : Mutex)
  | rpc
deriving DecidableEq, Repr

inductive Violation
  | relock (m : Mutex)
  | outOfOrder (held taken : Mutex)
  | rpcUnderShard (index : Nat)
deriving DecidableEq, Repr

-- The first breach along a path, from the mutexes `held`, the last one locked first.
def firstViolation (held : List Mutex) : List Action → Option Violation
  | [] => none
  | .lock m :: p =>
    if m ∈ held then some (.relock m)
    else
      match held.find? fun h => m.level < h.level with
      | some h => some (.outOfOrder h m)
      | none => firstViolation (m :: held) p
  | .unlock m :: p => firstViolation (held.erase m) p
  | .rpc :: p =>
    match held.findSome? Mutex.shardIndex? with
    | some i => some (.rpcUnderShard i)
    | none => firstViolation held p

section Walk

variable (p : List Action)

@[simp] theorem firstViolation_nil (held : List Mutex) : firstViolation held [] = none := rfl

@[simp] theorem firstViolation_lock_free (m : Mutex) :
    firstViolation [] (.lock m :: p) = firstViolation [m] p := by
  simp [firstViolation]

@[simp] theorem firstViolation_unlock_only (m : Mutex) :
    firstViolation [m] (.unlock m :: p) = firstViolation [] p := by
  simp [firstViolation]

@[simp] theorem firstViolation_ring_under_shard (i : Nat) (owner : String) :
    firstViolation [.shard i] (.lock (.ring owner) :: p) =
      some (.outOfOrder (.shard i) (.ring owner)) := by
  simp [firstViolation, Mutex.level]

@[simp] theorem firstViolation_rpc_under_shard (i : Nat) :
    firstViolation [.shard i] (.rpc :: p) = some (.rpcUnderShard i) := rfl

end Walk

-- The entries `for_each` visits in a shard: the live ones, in the shard's order.
def liveEntries (s : Shard) (now : Int) : List (Bytes × CacheEntry) :=
  (s.data.entries.filter fun e => !e.2.entry.isExpired now).map fun e => (e.1, e.2.entry)

def forEachPathFrom (now : Int) (fn : Bytes × CacheEntry → List Action) :
    Nat → List Shard → List Action
  | _, [] => []
  | i, s :: ss =>
    .lock (.shard i) ::
      ((liveEntries s now).flatMap fn ++ .unlock (.shard i) :: forEachPathFrom now fn (i + 1) ss)

-- `ShardedHashTable::for_each`.
def forEachPath (t : ShardedHashTable) (now : Int) (fn : Bytes × CacheEntry → List Action) :
    List Action :=
  forEachPathFrom now fn 0 t.shards

section ForEach

variable {fn : Bytes × CacheEntry → List Action}

-- A callback that breaks the discipline under any shard's lock whenever it does anything.
def BreaksUnderShard (fn : Bytes × CacheEntry → List Action) : Prop :=
  ∀ i e rest, fn e = [] ∨ (firstViolation [.shard i] (fn e ++ rest)).isSome

theorem firstViolation_flatMap (hfn : BreaksUnderShard fn) (i : Nat)
    (es : List (Bytes × CacheEntry)) (rest : List Action) :
    (firstViolation [.shard i] (es.flatMap fn ++ rest)).isSome ↔
      (∃ e ∈ es, fn e ≠ []) ∨ (firstViolation [.shard i] rest).isSome := by
  induction es with
  | nil => simp
  | cons e es ih =>
    rw [List.flatMap_cons, List.append_assoc]
    by_cases he : fn e = []
    · simp [he, ih]
    · have hs := (hfn i e (es.flatMap fn ++ rest)).resolve_left he
      simp only [hs, true_iff]
      exact .inl ⟨e, List.mem_cons_self _ _, he⟩

theorem firstViolation_forEachPathFrom (hfn : BreaksUnderShard fn) (now : Int) :
    ∀ (i : Nat) (ss : List Shard), (firstViolation [] (forEachPathFrom now fn i ss)).isSome ↔
      ∃ s ∈ ss, ∃ e ∈ liveEntries s now, fn e ≠ []
  | _, [] => by simp [forEachPathFrom]
  | i, s :: ss => by
    rw [forEachPathFrom, firstViolation_lock_free, firstViolation_flatMap hfn,
      firstViolation_unlock_only, firstViolation_forEachPathFrom hfn now (i + 1) ss]
    simp

theorem forEach_eq_flatMap (t : ShardedHashTable) (now : Int) :
    t.forEach now = t.shards.flatMap fun s => liveEntries s now := rfl

-- The scan breaks the discipline exactly when the callback does something on a live entry.
theorem firstViolation_forEachPath (hfn : BreaksUnderShard fn) (t : ShardedHashTable)
    (now : Int) :
    (firstViolation [] (forEachPath t now fn)).isSome ↔ ∃ e ∈ t.forEach now, fn e ≠ [] := by
  rw [forEachPath, firstViolation_forEachPathFrom hfn, forEach_eq_flatMap]
  simp only [List.mem_flatMap]
  constructor
  · rintro ⟨s, hs, e, he, h⟩
    exact ⟨e, ⟨s, hs, he⟩, h⟩
  · rintro ⟨e, ⟨s, hs, he⟩, h⟩
    exact ⟨s, hs, e, he, h⟩

-- A callback that always does something: the scan breaks the discipline on a non-empty engine.
theorem firstViolation_forEachPath_of_ne_nil (hfn : BreaksUnderShard fn) (hne : ∀ e, fn e ≠ [])
    (t : ShardedHashTable) (now : Int) :
    (firstViolation [] (forEachPath t now fn)).isSome ↔ t.forEach now ≠ [] := by
  rw [firstViolation_forEachPath hfn]
  constructor
  · rintro ⟨e, he, -⟩ h
    simp [h] at he
  · intro h
    obtain ⟨e, he⟩ := List.exists_mem_of_ne_nil _ h
    exact ⟨e, he, hne e⟩

-- A callback that starts with a ring's lock.
theorem breaksUnderShard_of_ring (owner : String) (after : Bytes × CacheEntry → List Action) :
    BreaksUnderShard fun e => .lock (.ring owner) :: after e :=
  fun _ _ _ => .inr (by simp)

end ForEach

-- `HashRing::get_node`, `get_replicas`: the ring's mutex around the lookup.
def getNodePath (owner : String) : List Action := [.lock (.ring owner), .unlock (.ring owner)]

-- `HashRing::get_affected_keys`: `get_node` of each key, with the ring's mutex held.
def getAffectedKeysPath (owner : String) (keys : List String) : List Action :=
  .lock (.ring owner) :: ((keys.flatMap fun _ => getNodePath owner) ++ [.unlock (.ring owner)])

-- `RebalanceOrchestrator::calculate_affected_keys`: both rings' `get_node` in the callback.
def calculateAffectedKeysPath (t : ShardedHashTable) (now : Int) : List Action :=
  forEachPath t now fun _ => getNodePath "old_ring_" ++ getNodePath "new_ring_"

-- The scan of `RebalanceOrchestrator::execute_job`: the new ring's `get_node` in the callback.
def executeJobScanPath (t : ShardedHashTable) (now : Int) : List Action :=
  forEachPath t now fun _ => getNodePath "new_ring_"

-- `FailoverServiceImpl::RequestCatchup`: one write to the response stream per entry sent.
def requestCatchupPath (t : ShardedHashTable) (now : Int) (keysOwned : List Bytes) :
    List Action :=
  forEachPath t now fun e => if keysOwned.contains e.1 || keysOwned.isEmpty then [.rpc] else []

-- `WAL::Sync`.
def syncPath : List Action := [.lock .wal, .unlock .wal]

-- `WAL::AppendEntry`: `mutex_` held throughout, and `Sync` on an open log with `sync_on_write`.
def appendEntryPath (w : WAL) : List Action :=
  .lock .wal :: ((if w.isOpen && w.config.syncOnWrite then syncPath else []) ++ [.unlock .wal])

-- `get_affected_keys` locks the ring's mutex again as soon as it has a key.
theorem firstViolation_getAffectedKeysPath (owner : String) (keys : List String) :
    firstViolation [] (getAffectedKeysPath owner keys) =
      if keys = [] then none else some (.relock (.ring owner)) := by
  cases keys <;> simp [getAffectedKeysPath, getNodePath, firstViolation]

theorem requestCatchup_breaksUnderShard (keysOwned : List Bytes) :
    BreaksUnderShard fun e : Bytes × CacheEntry =>
      if keysOwned.contains e.1 || keysOwned.isEmpty then [Action.rpc] else [] := by
  intro i e rest
  dsimp only
  split <;> simp

-- The scans of the rebalancer and the catchup service break the discipline on a live entry.
theorem scans_break_discipline (t : ShardedHashTable) (now : Int) (keysOwned : List Bytes) :
    ((firstViolation [] (calculateAffectedKeysPath t now)).isSome ↔ t.forEach now ≠ []) ∧
    ((firstViolation [] (executeJobScanPath t now)).isSome ↔ t.forEach now ≠ []) ∧
    ((firstViolation [] (requestCatchupPath t now keysOwned)).isSome ↔
      ∃ e ∈ t.forEach now, keysOwned.contains e.1 || keysOwned.isEmpty) := by
  refine ⟨firstViolation_forEachPath_of_ne_nil
      (breaksUnderShard_of_ring "old_ring_" fun _ => .unlock (.ring "old_ring_") ::
        getNodePath "new_ring_") (fun _ => List.cons_ne_nil _ _) t now,
    firstViolation_forEachPath_of_ne_nil
      (breaksUnderShard_of_ring "new_ring_" fun _ => [.unlock (.ring "new_ring_")])
      (fun _ => List.cons_ne_nil _ _) t now, ?_⟩
  · rw [requestCatchupPath, firstViolation_forEachPath (requestCatchup_breaksUnderShard _)]
    refine exists_congr fun e => and_congr_right fun _ => ?_
    split <;> simp_all

theorem firstViolation_appendEntryPath (w : WAL) :
    firstViolation [] (appendEntryPath w) =
      if w.isOpen && w.config.syncOnWrite then some (.relock .wal) else none := by
  unfold appendEntryPath
  split <;> simp [syncPath, firstViolation]

-- The log's model of `AppendEntry` gives no result exactly on the paths that lock `mutex_` again.
theorem appendEntry_eq_none_iff (sz : Record → Nat) (w : WAL) (d : Dir) (now : Int)
    (entry : WALEntry) :
    WAL.appendEntry sz w d now entry = none ↔ (firstViolation [] (appendEntryPath w)).isSome := by
  rw [firstViolation_appendEntryPath]
  unfold WAL.appendEntry WAL.writeEntryToFile
  cases w.isOpen <;> simp

-- Paths that break the discipline.
theorem lock_discipline_broken :
    let sz : Record → Nat := fun _ => 64
    let r := WAL.openWal sz (WAL.create {}) [] 0
    let t := (ShardedHashTable.create 1 1024 0 List.length (by decide)).exec
      [.set [1] (.init [1] [1] none 0)]
    WAL.appendSet sz r.1 r.2 1 [1] (.init [1] [1] none 0) = none ∧
      firstViolation [] (appendEntryPath r.1) = some (.relock .wal) ∧
      firstViolation [] (getAffectedKeysPath "ring" ["k"]) = some (.relock (.ring "ring")) ∧
      firstViolation [] (calculateAffectedKeysPath t 0) =
        some (.outOfOrder (.shard 0) (.ring "old_ring_")) ∧
      firstViolation [] (executeJobScanPath t 0) =
        some (.outOfOrder (.shard 0) (.ring "new_ring_")) ∧
      firstViolation [] (requestCatchupPath t 0 []) = some (.rpcUnderShard 0) := by
  decide

end DistCache.Concurrency
