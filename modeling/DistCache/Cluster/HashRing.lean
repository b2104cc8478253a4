import DistCache.Cache.Entry
import Mathlib.Data.List.Forall2

namespace DistCache.Cluster

-- `murmur_hash3_64` of hash_ring.cpp, on a little-endian machine.

def rotl64 (x r : UInt64) : UInt64 := (x <<< r) ||| (x >>> (64 - r))

def fmix64 (k : UInt64) : UInt64 :=
  let k := k ^^^ (k >>> 33)
  let k := k * 0xff51afd7ed558ccd
  let k := k ^^^ (k >>> 33)
  let k := k * 0xc4ceb9fe1a85ec53
  k ^^^ (k >>> 33)

def murmurC1 : UInt64 := 0x87c37b91114253d5

def murmurC2 : UInt64 := 0x4cf5ad432745937f

-- `k1 *= c1; k1 = rotl(k1, 31); k1 *= c2`.
def mixK1 (k1 : UInt64) : UInt64 := rotl64 (k1 * murmurC1) 31 * murmurC2

-- A block, or the tail of the `switch`, read as a little-endian word.
def loadLE (bytes : Bytes) : UInt64 := bytes.foldr (fun b acc => (acc <<< 8) ||| b.toUInt64) 0

-- The loop over the 8-byte blocks: the state after it, and the tail.
def murmurBody (h1 h2 : UInt64) : Bytes → UInt64 × UInt64 × Bytes
  | b0 :: b1 :: b2 :: b3 :: b4 :: b5 :: b6 :: b7 :: rest =>
    let h1 := rotl64 (h1 ^^^ mixK1 (loadLE [b0, b1, b2, b3, b4, b5, b6, b7])) 27 + h2
    murmurBody (h1 * 5 + 0x52dce729) (rotl64 h2 31) rest
  | tail => (h1, h2, tail)

def murmurHash3_64 (data : Bytes) (seed : UInt32) : UInt64 :=
  let (h1, h2, tail) := murmurBody seed.toUInt64 seed.toUInt64 data
  let h1 := if tail.isEmpty then h1 else h1 ^^^ mixK1 (loadLE tail)
  let len := data.length.toUInt64
  let h1 := h1 ^^^ len
  let h2 := h2 ^^^ len
  let h1 := h1 + h2
  let h2 := h2 + h1
  fmix64 h1 + fmix64 h2

-- An `std::map` is its entries in ascending key order.

namespace StdMap

variable {κ ν : Type}

def erase [DecidableEq κ] (m : List (κ × ν)) (k : κ) : List (κ × ν) :=
  m.filter fun p => !decide (p.1 = k)

def find [DecidableEq κ] (m : List (κ × ν)) (k : κ) : Option ν :=
  (m.find? fun p => decide (p.1 = k)).map Prod.snd

-- `m[k] = v` in a map whose `Compare` is `lt`.
def insert [DecidableEq κ] (lt : κ → κ → Bool) : List (κ × ν) → κ → ν → List (κ × ν)
  | [], k, v => [(k, v)]
  | (k', v') :: m, k, v =>
    if lt k k' then (k, v) :: (k', v') :: m
    else if k = k' then (k, v) :: m
    else (k', v') :: insert lt m k v

-- The position of `lower_bound(k)`, the first key not below `k`; `m.length` is `end()`.
def lowerBound (lt : κ → κ → Bool) (m : List (κ × ν)) (k : κ) : Nat := m.findIdx fun p => !lt p.1 k

end StdMap

structure Node where
  id : String
  address : String
deriving DecidableEq, Repr

-- `HashRing` without its mutex.
structure HashRing where
  virtualNodesPerNode : Nat
  ring : List (UInt64 × String)
  nodes : List (String × Node)

namespace HashRing

-- The replication factor is not stored.
def create (_replicationFactor virtualNodesPerNode : Nat) : HashRing := ⟨virtualNodesPerNode, [], []⟩

def hash (key : Bytes) : UInt64 := murmurHash3_64 key 0

-- `node_id + ":" + std::to_string(i)`.
def vnodeKey (nodeId : String) (i : Nat) : Bytes := bytesOf (nodeId ++ ":" ++ toString i)

def addNode (r : HashRing) (node : Node) : Bool × HashRing :=
  if (StdMap.find r.nodes node.id).isSome then (false, r)
  else
    (true, { r with
      nodes := StdMap.insert stringLt r.nodes node.id node,
      ring := (List.range r.virtualNodesPerNode).foldl
        (fun ring i => StdMap.insert (· < ·) ring (hash (vnodeKey node.id i)) node.id) r.ring })

def removeNode (r : HashRing) (nodeId : String) : Bool × HashRing :=
  if (StdMap.find r.nodes nodeId).isSome then
    (true, { r with
      ring := (List.range r.virtualNodesPerNode).foldl
        (fun ring i => StdMap.erase ring (hash (vnodeKey nodeId i))) r.ring,
      nodes := StdMap.erase r.nodes nodeId })
  else (false, r)

-- The virtual nodes clockwise from the key's hash: `find_next_node`, then from `begin()`.
def fromKey (r : HashRing) (key : Bytes) : List (UInt64 × String) :=
  let i := StdMap.lowerBound (· < ·) r.ring (hash key)
  r.ring.drop i ++ r.ring.take i

def getNode (r : HashRing) (key : Bytes) : Option Node :=
  match r.fromKey key with
  | [] => none
  | (_, nodeId) :: _ => StdMap.find r.nodes nodeId

-- The loop of `get_replicas`: one turn of the ring, keeping each physical node once.
def collectReplicas (nodes : List (String × Node)) (n : Nat) : List Node → List String → List Node
  | replicas, [] => replicas
  | replicas, nodeId :: rest =>
    if replicas.length < n then
      let replicas :=
        if replicas.any fun node => node.id == nodeId then replicas
        else
          match StdMap.find nodes nodeId with
          | some node => replicas ++ [node]
          | none => replicas
      collectReplicas nodes n replicas rest
    else replicas

def getReplicas (r : HashRing) (key : Bytes) (n : Nat) : List Node :=
  if r.ring.isEmpty || n == 0 then []
  else collectReplicas r.nodes (min n r.nodes.length) [] ((r.fromKey key).map Prod.snd)

def nodeCount (r : HashRing) : Nat := r.nodes.length

def virtualNodeCount (r : HashRing) : Nat := r.ring.length

end HashRing

-- `generate_node_id`: the index written with at least three digits, zeros in front.
def generateNodeId (name : String) (index : Nat) : String :=
  let digits := toString index
  name ++ "-" ++ String.mk (List.replicate (3 - digits.length) '0') ++ digits

example : generateNodeId "node" 7 = "node-007" := by decide

end DistCache.Cluster
