import DistCache.Cluster.HashRing
import DistCache.Cache.Spec

namespace DistCache.Replication

open Cache Cluster

inductive Operation
  | set
  | delete
deriving DecidableEq, Repr

-- `v1::ReplicationEntry`: an unset field keeps its protobuf default.
structure ReplicationEntry where
  op : Operation
  key : Bytes
  value : Bytes := []
  ttlSeconds : Int := 0
  version : Int
deriving DecidableEq, Repr

-- `ReplicationManager::QueuedEntry` without its enqueue time.
structure QueuedEntry where
  op : Operation
  key : Bytes
  value : Bytes
  ttlSeconds : Int
  version : Int
deriving DecidableEq, Repr

-- `ReplicationManager::Config`, with the fields the queue and `SendBatch` read.
structure Config where
  nodeId : String
  replicationFactor : Nat := 2
  batchSize : Nat := 100
  maxQueueSize : Nat := 10000

-- `ReplicationManager`: its configuration, the shared ring and the queue, front first.
structure ReplicationManager where
  config : Config
  ring : HashRing
  queue : List QueuedEntry

namespace ReplicationManager

-- `QueueWrite` and `QueueDelete` drop the entry when the queue is full.
def queueWrite (m : ReplicationManager) (key value : Bytes) (ttlSeconds version : Int) :
    Bool × ReplicationManager :=
  if m.config.maxQueueSize ≤ m.queue.length then (false, m)
  else (true, { m with queue := m.queue ++ [⟨.set, key, value, ttlSeconds, version⟩] })

def queueDelete (m : ReplicationManager) (key : Bytes) (version : Int) :
    Bool × ReplicationManager :=
  if m.config.maxQueueSize ≤ m.queue.length then (false, m)
  else (true, { m with queue := m.queue ++ [⟨.delete, key, [], 0, version⟩] })

-- The wire form of a queued entry: value and TTL are set for a SET only.
def toEntry (e : QueuedEntry) : ReplicationEntry :=
  match e.op with
  | .set => { op := .set, key := e.key, value := e.value, ttlSeconds := e.ttlSeconds,
              version := e.version }
  | .delete => { op := .delete, key := e.key, version := e.version }

-- `SendBatch`: the replicas of the first entry's key, without this node, and the batch.
def sendBatch (m : ReplicationManager) : List QueuedEntry → List Node × List ReplicationEntry
  | [] => ([], [])
  | entries@(first :: _) =>
    ((m.ring.getReplicas first.key m.config.replicationFactor).filter
        fun node => node.id != m.config.nodeId,
      entries.map toEntry)

-- One pass of `ReplicationWorker` that finds the queue non-empty.
def workerPass (m : ReplicationManager) : Option (List Node × List ReplicationEntry) × ReplicationManager :=
  if m.queue.isEmpty then (none, m)
  else (some (m.sendBatch (m.queue.take m.config.batchSize)),
    { m with queue := m.queue.drop m.config.batchSize })

end ReplicationManager

structure ReplicationAck where
  success : Bool
  error : String
deriving DecidableEq, Repr

-- One entry of `ReplicationServiceImpl::Replicate`; the result says whether it was applied.
def applyEntry (storage : ShardedHashTable) (now : Int) (entry : ReplicationEntry) :
    Bool × ShardedHashTable :=
  match entry.op with
  | .set =>
    storage.set entry.key
      { CacheEntry.empty with
        value := entry.value
        ttlSeconds := if 0 < entry.ttlSeconds then some entry.ttlSeconds else none
        version := entry.version
        createdAtMs := now
        lastAccessedMs := now }
  | .delete => (true, (storage.del entry.key).2)

-- The loop of `Replicate`, counting failed entries.
def applyEntries (now : Int) : ShardedHashTable × Nat → List ReplicationEntry → ShardedHashTable × Nat
  | acc, [] => acc
  | (storage, failed), entry :: rest =>
    let result := applyEntry storage now entry
    applyEntries now (result.2, if result.1 then failed else failed + 1) rest

def replicate (storage : ShardedHashTable) (now : Int) (entries : List ReplicationEntry) :
    ReplicationAck × ShardedHashTable :=
  let result := applyEntries now (storage, 0) entries
  (⟨result.2 == 0,
    if 0 < result.2 then "Failed to apply " ++ toString result.2 ++ " entries" else ""⟩, result.1)

end DistCache.Replication
