import DistCache.Replication.ReplicationManager

namespace DistCache.Replication

open Cache Cluster

section Follower

variable {now : Int}

-- Every entry counts as applied: `set` never fails and a DELETE of a missing key is fine.
theorem applyEntry_fst (storage : ShardedHashTable) (now : Int) (entry : ReplicationEntry) :
    (applyEntry storage now entry).1 = true := by
  unfold applyEntry
  split
  · exact ShardedHashTable.set_fst _ _ _
  · rfl

-- A SET leaves its key stored as sent, whatever was stored; a DELETE leaves it absent.
theorem find_applyEntry (storage : ShardedHashTable) (now : Int) (entry : ReplicationEntry) :
    ((applyEntry storage now entry).2.find entry.key).map (fun c => (c.value, c.version)) =
      if entry.op = .set then some (entry.value, entry.version) else none := by
  unfold applyEntry
  split
  · rename_i h
    simp [h, ShardedHashTable.find_set]
  · rename_i h
    simp [h, ShardedHashTable.find_del]

theorem applyEntries_failed (now : Int) :
    ∀ (entries : List ReplicationEntry) (storage : ShardedHashTable) (failed : Nat),
      (applyEntries now (storage, failed) entries).2 = failed
  | [], _, _ => rfl
  | entry :: rest, storage, failed => by
    simp only [applyEntries, applyEntry_fst, if_true]
    exact applyEntries_failed now rest _ _

theorem applyEntries_append (now : Int) (entry : ReplicationEntry) :
    ∀ (entries : List ReplicationEntry) (storage : ShardedHashTable) (failed : Nat),
      (applyEntries now (storage, failed) (entries ++ [entry])).1 =
        (applyEntry (applyEntries now (storage, failed) entries).1 now entry).2
  | [], storage, failed => by
    simp only [List.nil_append, applyEntries, applyEntry_fst, if_true]
  | e :: rest, storage, failed => by
    simp only [List.cons_append, applyEntries]
    exact applyEntries_append now entry rest _ _

-- `Replicate` acknowledges every batch, and a SET of a lower version replaces a higher one.
theorem replicate_stores_as_sent (storage : ShardedHashTable) (now : Int)
    (entries : List ReplicationEntry) (entry : ReplicationEntry) :
    let r := replicate storage now (entries ++ [entry])
    r.1.success = true ∧
      (r.2.find entry.key).map (fun c => (c.value, c.version)) =
        if entry.op = .set then some (entry.value, entry.version) else none := by
  refine ⟨by simp [replicate, applyEntries_failed], ?_⟩
  simp only [replicate, applyEntries_append, find_applyEntry]

theorem replicate_single (storage : ShardedHashTable) (now : Int) (entry : ReplicationEntry) :
    (replicate storage now [entry]).2 = (applyEntry storage now entry).2 := by
  simp [replicate, applyEntries, applyEntry_fst]

-- A follower holding a key at version 5 takes a later batch's version 3 for it, on any table.
theorem replicate_regresses_version (storage : ShardedHashTable) (now₁ now₂ : Int) :
    let r₁ := replicate storage now₁
      [{ op := .set, key := bytesOf "k", value := bytesOf "v5", version := 5 }]
    let r₂ := replicate r₁.2 now₂
      [{ op := .set, key := bytesOf "k", value := bytesOf "v3", version := 3 }]
    (r₁.2.find (bytesOf "k")).map CacheEntry.version = some 5 ∧ r₂.1.success = true ∧
      (r₂.2.find (bytesOf "k")).map CacheEntry.version = some 3 := by
  intro r₁ r₂
  have version_of : ∀ {o : Option CacheEntry} {v : Bytes} {n : Int},
      o.map (fun c => (c.value, c.version)) = some (v, n) → o.map CacheEntry.version = some n := by
    intro o v n h
    cases o <;> simp_all
  have h₁ := find_applyEntry storage now₁
    { op := .set, key := bytesOf "k", value := bytesOf "v5", version := 5 }
  have h₂ := find_applyEntry r₁.2 now₂
    { op := .set, key := bytesOf "k", value := bytesOf "v3", version := 3 }
  rw [if_pos rfl] at h₁ h₂
  refine ⟨?_, by simp [r₂, replicate, applyEntries_failed], ?_⟩
  · rw [replicate_single]
    exact version_of h₁
  · rw [replicate_single]
    exact version_of h₂

-- A new follower table of 256 shards gets version 5 of `k` at 1000 ms, then version 3 at 2000 ms.
theorem follower_version_regresses :
    let storage := ShardedHashTable.create 256 (1024 * 1024 * 1024) 0 List.length (by decide)
    let r₁ := replicate storage 1000
      [{ op := .set, key := bytesOf "k", value := bytesOf "v5", version := 5 }]
    let r₂ := replicate r₁.2 2000
      [{ op := .set, key := bytesOf "k", value := bytesOf "v3", version := 3 }]
    (r₁.2.find (bytesOf "k")).map CacheEntry.version = some 5 ∧ r₂.1.success = true ∧
      (r₂.2.find (bytesOf "k")).map CacheEntry.version = some 3 :=
  replicate_regresses_version _ 1000 2000

end Follower

namespace ReplicationManager

-- A worker pass sends its whole batch to the replicas of the queue's front key.
theorem workerPass_sends_to_front_key (m : ReplicationManager) {e : QueuedEntry}
    {rest : List QueuedEntry} (hq : m.queue = e :: rest) (hb : 0 < m.config.batchSize) :
    m.workerPass.1 = some
      ((m.ring.getReplicas e.key m.config.replicationFactor).filter
          (fun node => node.id != m.config.nodeId),
        (m.queue.take m.config.batchSize).map toEntry) := by
  obtain ⟨b, hb'⟩ : ∃ b, m.config.batchSize = b + 1 := ⟨_, (Nat.succ_pred_eq_of_pos hb).symm⟩
  simp only [workerPass, hq, hb', List.isEmpty_cons, Bool.false_eq_true, if_false, List.take_succ_cons,
    sendBatch]

-- Writes of `user:1` and `user:2` go to `node-2` alone: `node-3` never gets `user:2`.
theorem batch_skips_second_key_replica :
    let ring : HashRing := ((((HashRing.create 2 1).addNode ⟨"node-1", "localhost:50051"⟩).2.addNode
      ⟨"node-2", "localhost:50052"⟩).2.addNode ⟨"node-3", "localhost:50053"⟩).2
    let m₀ : ReplicationManager := ⟨{ nodeId := "node-1" }, ring, []⟩
    let m₁ := (m₀.queueWrite (bytesOf "user:1") (bytesOf "a") 0 1).2
    let m₂ := (m₁.queueWrite (bytesOf "user:2") (bytesOf "b") 0 1).2
    m₂.workerPass.1.map (fun sent => (sent.1.map Node.id, sent.2.map ReplicationEntry.key)) =
        some (["node-2"], [bytesOf "user:1", bytesOf "user:2"]) ∧
      ((ring.getReplicas (bytesOf "user:2") 2).filter fun node => node.id != "node-1").map
        Node.id = ["node-3", "node-2"] := by
  intro ring m₀ m₁ m₂
  rw [workerPass_sends_to_front_key m₂ rfl (by decide)]
  decide

end ReplicationManager

end DistCache.Replication
