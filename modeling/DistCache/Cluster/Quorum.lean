import DistCache.Service.CacheService

namespace DistCache.Cluster

open Cache Service

-- `QuorumConfig`.
structure QuorumConfig where
  writeQuorum : Int := 2
  readQuorum : Int := 2
  totalReplicas : Int := 3
  timeoutMs : Int := 5000

-- The constructor's checks; a configuration with `W + R <= N` is accepted with a warning.
def QuorumCoordinator.create (config : QuorumConfig) : Except String QuorumConfig :=
  if config.totalReplicas < config.writeQuorum then
    .error "Write quorum cannot exceed total replicas"
  else if config.totalReplicas < config.readQuorum then
    .error "Read quorum cannot exceed total replicas"
  else .ok config

-- What became of the RPC to one replica: when it reached the server, and whether it answered in time.
structure Delivery where
  arrivedAt : Option Int
  answered : Bool

structure WriteResult where
  success : Bool
  version : Int
  replicasAcknowledged : Int
deriving DecidableEq, Repr

structure ReplicaResponse where
  value : Bytes
  version : Int
  timestampMs : Int
deriving DecidableEq, Repr

structure ReadResult where
  success : Bool
  value : Option Bytes
  version : Int
  replicasResponded : Int
deriving DecidableEq, Repr

namespace QuorumCoordinator

variable (config : QuorumConfig) (validator : Option Validator)

-- One replica's part of `QuorumWrite`: its client's `Set`, with the TTL `value_or(0)`.
def writeReplica (key value : Bytes) (ttlSeconds : Option Int) (storage : ShardedHashTable)
    (delivery : Delivery) : Option Int × ShardedHashTable :=
  match delivery.arrivedAt with
  | none => (none, storage)
  | some now =>
    let r := CacheServiceImpl.set validator storage now ⟨key, value, some (ttlSeconds.getD 0)⟩
    (if delivery.answered && r.1.code == .ok && r.2.1.success then some r.2.1.version else none,
      r.2.2)

def quorumWrite (key value : Bytes) (ttlSeconds : Option Int) (replicas : List ShardedHashTable)
    (deliveries : List Delivery) : WriteResult × List ShardedHashTable :=
  let results := List.zipWith (writeReplica validator key value ttlSeconds) replicas deliveries
  let acks := results.filterMap Prod.fst
  if replicas.isEmpty then (⟨false, 0, 0⟩, replicas)
  else
    (⟨decide (config.writeQuorum ≤ acks.length), acks.foldl max 0, acks.length⟩,
      results.map Prod.snd)

-- One replica's part of `QuorumRead`: its client's `Get`.
def readReplica (key : Bytes) (storage : ShardedHashTable) (delivery : Delivery) :
    Option ReplicaResponse × ShardedHashTable :=
  match delivery.arrivedAt with
  | none => (none, storage)
  | some now =>
    let r := CacheServiceImpl.get validator storage now ⟨key⟩
    (if delivery.answered && r.1.code == .ok && r.2.1.found then
      some ⟨r.2.1.value, r.2.1.version, 0⟩ else none, r.2.2)

-- `std::max_element` by version, then timestamp: the first of the greatest.
def latest : List ReplicaResponse → Option ReplicaResponse
  | [] => none
  | r :: rs => some (rs.foldl (fun best x =>
      if best.version < x.version ∨ (best.version = x.version ∧ best.timestampMs < x.timestampMs)
      then x else best) r)

def quorumRead (key : Bytes) (replicas : List ShardedHashTable) (deliveries : List Delivery) :
    ReadResult × List ShardedHashTable :=
  let results := List.zipWith (readReplica validator key) replicas deliveries
  let responses := results.filterMap Prod.fst
  if replicas.isEmpty then (⟨false, none, 0, 0⟩, replicas)
  else if (responses.length : Int) < config.readQuorum then
    (⟨false, none, 0, responses.length⟩, results.map Prod.snd)
  else
    match latest responses with
    | some r => (⟨true, some r.value, r.version, responses.length⟩, results.map Prod.snd)
    | none => (⟨false, none, 0, responses.length⟩, results.map Prod.snd)

-- The addresses `QuorumRead` hands to `ReadRepair`: `replica_addresses[i]` for each stale response `i`.
def staleReplicas (addresses : List String) (responses : List ReplicaResponse) (version : Int) :
    List String :=
  ((responses.zip addresses).filter fun p => decide (p.1.version < version)).map Prod.snd

-- The repair targets of a `QuorumRead`, from what each replica's RPC gave.
def repairTargets (addresses : List String) (outcomes : List (Option ReplicaResponse)) :
    List String :=
  let responses := outcomes.filterMap id
  if addresses.isEmpty then []
  else if (responses.length : Int) < config.readQuorum then []
  else
    match latest responses with
    | some r => staleReplicas addresses responses r.version
    | none => []

-- What the claim asks the repair to target: each replica whose own response is below `version`.
def staleByReplica (addresses : List String) (outcomes : List (Option ReplicaResponse))
    (version : Int) : List String :=
  (addresses.zip outcomes).filterMap fun p =>
    p.2.bind fun r => if r.version < version then some p.1 else none

variable {config validator} {key value : Bytes}

-- A replica reached at `now` stores the value with the TTL `value_or(0)`.
theorem writeReplica_answered (ttlSeconds : Option Int)
    (hv : ∀ v ∈ validator, (v.validateSetOperation key value (some (ttlSeconds.getD 0))).valid = true)
    (storage : ShardedHashTable) (now : Int) :
    (writeReplica validator key value ttlSeconds storage ⟨some now, true⟩).1 = some 1 ∧
      (writeReplica validator key value ttlSeconds storage ⟨some now, true⟩).2.find key =
        some (CacheEntry.init key value (some (ttlSeconds.getD 0)) now) := by
  have h := CacheServiceImpl.set_of_valid storage now ⟨key, value, some (ttlSeconds.getD 0)⟩ hv
  simp only [writeReplica, h.1, h.2.1, h.2.2]
  decide

-- A replica whose entry has expired does not count for the read.
theorem readReplica_expired (hv : ∀ v ∈ validator, (v.validateKey key).valid = true)
    {storage : ShardedHashTable} {e : CacheEntry} (h : storage.find key = some e) {now : Int}
    (hx : e.isExpired now = true) (answered : Bool) :
    readReplica validator key storage ⟨some now, answered⟩ = (none, storage) := by
  simp only [readReplica, CacheServiceImpl.get_of_expired ⟨key⟩ hv h hx]
  simp

-- With the default configuration, a `QuorumWrite` without TTL is missed by the next `QuorumRead`.
theorem quorum_read_misses_fresh_write (validate : Bool) (s₁ s₂ s₃ : ShardedHashTable) (t : Int) :
    let validator := if validate then some serverValidator else none
    let config : QuorumConfig := {}
    let w := quorumWrite config validator (bytesOf "key") (bytesOf "value") none [s₁, s₂, s₃]
      (List.replicate 3 ⟨some t, true⟩)
    let r := quorumRead config validator (bytesOf "key") w.2 (List.replicate 3 ⟨some (t + 1), true⟩)
    create config = .ok config ∧ w.1.success = true ∧ r.1.success = false := by
  intro validator config w r
  have hset : ∀ v ∈ validator,
      (v.validateSetOperation (bytesOf "key") (bytesOf "value") (some 0)).valid = true := by
    intro v hv
    cases validate <;> simp only [validator, Bool.false_eq_true, if_false, if_true, Option.mem_def,
      Option.some.injEq, reduceCtorEq] at hv
    subst hv
    decide
  have hkey : ∀ v ∈ validator, (v.validateKey (bytesOf "key")).valid = true := fun v hv =>
    (Validator.validateSetOperation_valid.mp (hset v hv)).1
  have hx : (CacheEntry.init (bytesOf "key") (bytesOf "value") (some 0) t).isExpired (t + 1) =
      true := by
    simp [CacheEntry.isExpired, CacheEntry.init, toInt32]
  have hw := fun s => writeReplica_answered none hset s t
  refine ⟨rfl, ?_, ?_⟩
  · simp only [w, quorumWrite, List.replicate, List.zipWith_cons_cons, List.zipWith_nil_left,
      List.filterMap_cons, (hw _).1, List.filterMap_nil, List.isEmpty_cons]
    simp
  · simp only [r, w, quorumWrite, quorumRead, List.replicate, List.zipWith_cons_cons,
      List.zipWith_nil_left, List.map_cons, List.map_nil, List.isEmpty_cons, Bool.false_eq_true,
      if_false,
      readReplica_expired hkey (hw s₁).2 hx, readReplica_expired hkey (hw s₂).2 hx,
      readReplica_expired hkey (hw s₃).2 hx, List.filterMap_cons, List.filterMap_nil,
      Bool.false_eq_true, if_false]
    simp

-- `QuorumRead` marks stale replicas as if the replicas that returned the key were the first ones.
theorem staleReplicas_eq_staleByReplica (version : Int) :
    ∀ (addresses : List String) (responses : List ReplicaResponse),
      staleReplicas addresses responses version =
        staleByReplica addresses (responses.map some) version
  | [], _ => by simp [staleReplicas, staleByReplica]
  | _ :: _, [] => rfl
  | a :: addresses, r :: responses => by
    have ih := staleReplicas_eq_staleByReplica version addresses responses
    simp only [staleReplicas, staleByReplica] at ih ⊢
    by_cases h : r.version < version <;> simp [List.filter_cons, h, ih]

-- A `QuorumRead` that succeeds repairs the responses below the version it returns.
theorem repairTargets_quorumRead (key : Bytes) (addresses : List String)
    (replicas : List ShardedHashTable) (deliveries : List Delivery) (ha : addresses ≠ [])
    (hs : (quorumRead config validator key replicas deliveries).1.success = true) :
    let outcomes := (List.zipWith (readReplica validator key) replicas deliveries).map Prod.fst
    repairTargets config addresses outcomes =
      staleReplicas addresses (outcomes.filterMap id)
        (quorumRead config validator key replicas deliveries).1.version := by
  intro outcomes
  have hf : outcomes.filterMap id =
      (List.zipWith (readReplica validator key) replicas deliveries).filterMap Prod.fst := by
    simp [outcomes, List.filterMap_map]
  simp only [quorumRead, repairTargets, hf, List.isEmpty_iff, ha, if_false] at hs ⊢
  generalize (List.zipWith (readReplica validator key) replicas deliveries).filterMap Prod.fst =
    responses at hs ⊢
  split_ifs at hs ⊢
  split <;> simp_all

-- The first replica's `Get` fails: the read repairs it instead of the stale second one.
theorem read_repair_targets_wrong_replica :
    let t₀ : ShardedHashTable := .create 1 1024 0 List.length (by decide)
    let replicas := [t₀, (t₀.set [1] (.init [1] (bytesOf "old") none 0)).2,
      (t₀.set [1] { CacheEntry.init [1] (bytesOf "new") none 0 with version := 2 }).2]
    let deliveries : List Delivery := [⟨none, false⟩, ⟨some 1, true⟩, ⟨some 1, true⟩]
    let addresses := ["10.0.0.1:50051", "10.0.0.2:50051", "10.0.0.3:50051"]
    let outcomes := (List.zipWith (readReplica none [1]) replicas deliveries).map Prod.fst
    (quorumRead {} none [1] replicas deliveries).1 = ⟨true, some (bytesOf "new"), 2, 2⟩ ∧
      repairTargets {} addresses outcomes =
        staleByReplica addresses ((outcomes.filterMap id).map some) 2 ∧
      repairTargets {} addresses outcomes = ["10.0.0.1:50051"] ∧
      staleByReplica addresses outcomes 2 = ["10.0.0.2:50051"] := by
  intro t₀ replicas deliveries addresses outcomes
  have hread : (quorumRead {} none [1] replicas deliveries).1 = ⟨true, some (bytesOf "new"), 2, 2⟩ := by
    decide
  have hrep : repairTargets {} addresses outcomes =
      staleByReplica addresses ((outcomes.filterMap id).map some) 2 := by
    rw [repairTargets_quorumRead [1] addresses replicas deliveries (by decide) (by rw [hread]),
      hread, staleReplicas_eq_staleByReplica]
  exact ⟨hread, hrep, by rw [hrep]; decide, by decide⟩

end QuorumCoordinator

end DistCache.Cluster
