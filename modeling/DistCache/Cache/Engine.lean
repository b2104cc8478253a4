import DistCache.Cache.Entry
import Mathlib.Data.List.AList

namespace DistCache.Cache

-- A node of a shard's `std::list<std::string>`; an `LRUIterator` is the node's `id`.
structure LruNode where
  id : Nat
  key : Bytes
deriving DecidableEq, Repr

namespace LruList

-- `lru_list.erase(it)`.
def erase (l : List LruNode) (it : Nat) : List LruNode := l.filter fun n => !decide (n.id = it)

-- `lru_list.splice(lru_list.begin(), lru_list, it)`: the node `it` moves to the front.
def splice (l : List LruNode) (it : Nat) : List LruNode :=
  l.filter (fun n => decide (n.id = it)) ++ erase l it

end LruList

structure CacheData where
  entry : CacheEntry
  lruIter : Nat
deriving DecidableEq, Repr

-- `ShardedHashTable::Shard` without its mutex.
structure Shard where
  data : AList (fun _ : Bytes => CacheData)
  lruList : List LruNode
  memoryBytes : Nat
  nextNode : Nat

instance : Inhabited Shard := ⟨⟨∅, [], 0, 0⟩⟩

-- `ShardedHashTable`; `hash` stands for `std::hash<std::string>`.
structure ShardedHashTable where
  shards : List Shard
  shards_pos : 0 < shards.length
  maxMemoryBytes : Nat
  totalMemoryBytes : Nat
  totalEntries : Nat
  entryOverhead : Nat
  hash : Bytes → Nat

structure CASResult where
  success : Bool
  newVersion : Int
  actualVersion : Int
  error : String
deriving DecidableEq, Repr

namespace ShardedHashTable

def create (numShards maxMemoryBytes overhead : Nat) (hash : Bytes → Nat)
    (h : 0 < numShards) : ShardedHashTable where
  shards := List.replicate numShards default
  shards_pos := by simpa using h
  maxMemoryBytes := maxMemoryBytes
  totalMemoryBytes := 0
  totalEntries := 0
  entryOverhead := overhead
  hash := hash

def shard (t : ShardedHashTable) (i : Nat) : Shard := t.shards.getD i default

-- The table after an operation on shard `i`.
def update (t : ShardedHashTable) (i : Nat) (s : Shard) (totalMemoryBytes totalEntries : Nat) :
    ShardedHashTable :=
  { t with shards := t.shards.set i s, shards_pos := by simpa using t.shards_pos,
           totalMemoryBytes := totalMemoryBytes, totalEntries := totalEntries }

def getShardIndex (t : ShardedHashTable) (key : Bytes) : Nat := t.hash key % t.shards.length

def size (t : ShardedHashTable) : Nat := t.totalEntries

def memoryUsage (t : ShardedHashTable) : Nat := t.totalMemoryBytes

def needsEviction (t : ShardedHashTable) (newEntrySize : Nat) : Bool :=
  decide (t.maxMemoryBytes < t.totalMemoryBytes + newEntrySize)

-- The loop of `evict_if_needed` on shard `i`, one pop per unit of fuel.
def evictLoop (i required : Nat) : Nat → ShardedHashTable → ShardedHashTable
  | 0, t => t
  | fuel + 1, t =>
    if t.needsEviction required then
      let s := t.shard i
      match s.lruList.getLast? with
      | none => t
      | some back =>
        match s.data.lookup back.key with
        | some d =>
          let size := d.entry.totalSize t.entryOverhead
          evictLoop i required fuel
            (t.update i { s with data := s.data.erase back.key, lruList := s.lruList.dropLast,
                                 memoryBytes := s.memoryBytes - size }
              (t.totalMemoryBytes - size) (t.totalEntries - 1))
        | none =>
          evictLoop i required fuel
            (t.update i { s with lruList := s.lruList.dropLast } t.totalMemoryBytes t.totalEntries)
    else t

def evictIfNeeded (t : ShardedHashTable) (i required : Nat) : ShardedHashTable :=
  evictLoop i required (t.shard i).lruList.length t

-- `get` after its shared-lock pre-check, which changes nothing.
def get (t : ShardedHashTable) (key : Bytes) (now : Int) : Option CacheEntry × ShardedHashTable :=
  let i := t.getShardIndex key
  let s := t.shard i
  match s.data.lookup key with
  | none => (none, t)
  | some d =>
    if d.entry.isExpired now then (none, t)
    else
      let d' : CacheData := { d with entry := d.entry.touch now }
      (some d'.entry, t.update i { s with data := s.data.replace key d',
                                          lruList := LruList.splice s.lruList d.lruIter }
                        t.totalMemoryBytes t.totalEntries)

def set (t : ShardedHashTable) (key : Bytes) (entry : CacheEntry) : Bool × ShardedHashTable :=
  let i := t.getShardIndex key
  let s := t.shard i
  let entrySize := entry.totalSize t.entryOverhead
  match s.data.lookup key with
  | some d =>
    let oldSize := d.entry.totalSize t.entryOverhead
    (true, t.update i { s with data := s.data.replace key { d with entry := entry },
                               lruList := LruList.splice s.lruList d.lruIter,
                               memoryBytes := s.memoryBytes - oldSize + entrySize }
             (t.totalMemoryBytes - oldSize + entrySize) t.totalEntries)
  | none =>
    let t := if t.needsEviction entrySize then t.evictIfNeeded i entrySize else t
    let s := t.shard i
    (true, t.update i { s with data := s.data.insert key ⟨entry, s.nextNode⟩,
                               lruList := ⟨s.nextNode, key⟩ :: s.lruList,
                               memoryBytes := s.memoryBytes + entrySize,
                               nextNode := s.nextNode + 1 }
             (t.totalMemoryBytes + entrySize) (t.totalEntries + 1))

def del (t : ShardedHashTable) (key : Bytes) : Bool × ShardedHashTable :=
  let i := t.getShardIndex key
  let s := t.shard i
  match s.data.lookup key with
  | none => (false, t)
  | some d =>
    let size := d.entry.totalSize t.entryOverhead
    (true, t.update i { s with lruList := LruList.erase s.lruList d.lruIter,
                               data := s.data.erase key, memoryBytes := s.memoryBytes - size }
             (t.totalMemoryBytes - size) (t.totalEntries - 1))

def compareAndSwap (t : ShardedHashTable) (key : Bytes) (expectedVersion : Int)
    (newEntry : CacheEntry) (now : Int) : CASResult × ShardedHashTable :=
  let i := t.getShardIndex key
  let s := t.shard i
  match s.data.lookup key with
  | none => (⟨false, 0, 0, "Key not found"⟩, t)
  | some d =>
    if d.entry.isExpired now then (⟨false, 0, 0, "Key expired"⟩, t)
    else if d.entry.version ≠ expectedVersion then
      (⟨false, 0, d.entry.version, "Version mismatch"⟩, t)
    else
      let oldSize := d.entry.totalSize t.entryOverhead
      let e := { newEntry with version := d.entry.version + 1, modifiedAtMs := now,
                               lastAccessedMs := now }
      let newSize := e.totalSize t.entryOverhead
      (⟨true, d.entry.version + 1, 0, ""⟩,
       t.update i { s with data := s.data.replace key { d with entry := e },
                           lruList := LruList.splice s.lruList d.lruIter,
                           memoryBytes := s.memoryBytes - oldSize + newSize }
         (t.totalMemoryBytes - oldSize + newSize) t.totalEntries)

-- `exists` (a keyword in Lean).
def keyExists (t : ShardedHashTable) (key : Bytes) (now : Int) : Bool :=
  match (t.shard (t.getShardIndex key)).data.lookup key with
  | none => false
  | some d => !d.entry.isExpired now

def forEach (t : ShardedHashTable) (now : Int) : List (Bytes × CacheEntry) :=
  t.shards.flatMap fun s =>
    (s.data.entries.filter fun e => !e.2.entry.isExpired now).map fun e => (e.1, e.2.entry)

def clear (t : ShardedHashTable) : ShardedHashTable :=
  { t with shards := t.shards.map fun s => { s with data := ∅, lruList := [], memoryBytes := 0 },
           shards_pos := by simpa using t.shards_pos,
           totalMemoryBytes := 0, totalEntries := 0 }

end ShardedHashTable

-- The calls a client thread can make on the table.
inductive Op
  | get (key : Bytes) (now : Int)
  | set (key : Bytes) (entry : CacheEntry)
  | del (key : Bytes)
  | compareAndSwap (key : Bytes) (expectedVersion : Int) (newEntry : CacheEntry) (now : Int)
  | keyExists (key : Bytes) (now : Int)
  | forEach (now : Int)
  | clear

namespace ShardedHashTable

def step (t : ShardedHashTable) : Op → ShardedHashTable
  | .get key now => (t.get key now).2
  | .set key entry => (t.set key entry).2
  | .del key => (t.del key).2
  | .compareAndSwap key ev e now => (t.compareAndSwap key ev e now).2
  | .keyExists _ _ => t
  | .forEach _ => t
  | .clear => t.clear

def exec (t : ShardedHashTable) (ops : List Op) : ShardedHashTable := ops.foldl step t

end ShardedHashTable

end DistCache.Cache
