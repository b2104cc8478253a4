import DistCache.Cluster.Quorum
import DistCache.Cache.Refinement

namespace DistCache.Cluster

open Cache Service

-- A replica is its server's storage, and what became of each RPC is a `Delivery`.

-- `s.find(sub) != std::string::npos`.
def containsSubstr : List Char → List Char → Bool
  | [], sub => sub.isEmpty
  | c :: s, sub => sub.isPrefixOf (c :: s) || containsSubstr s sub

-- The fields of `OperationResult<bool>` that `QuorumCAS` reads.
structure CasResult where
  success : Bool
  version : Int
  error : String
deriving DecidableEq, Repr

namespace QuorumCoordinator

variable (config : QuorumConfig) (validator : Option Validator)

-- One replica's part of `QuorumCAS`: the coordinator's answer, and the server's new storage.
def casReplica (key : Bytes) (expectedVersion : Int) (newValue : Bytes) (ttlSeconds : Option Int)
    (storage : ShardedHashTable) (delivery : Delivery) : Option CasResult × ShardedHashTable :=
  match delivery.arrivedAt with
  | none => (none, storage)
  | some now =>
    let r := CacheServiceImpl.compareAndSwap validator storage now
      ⟨key, expectedVersion, newValue, some (ttlSeconds.getD 0)⟩
    let result : CasResult :=
      if r.1.code == .ok && r.2.1.success then ⟨true, r.2.1.newVersion, ""⟩
      else if r.1.code == .ok then ⟨false, r.2.1.actualVersion, "CAS failed: " ++ r.2.1.error⟩
      else ⟨false, 0, "All replicas failed. Last error: RPC failed: " ++ r.1.message⟩
    (if delivery.answered then some result else none, r.2.2)

-- The test `QuorumCAS` makes on the error of a replica that did not swap.
def namesVersionMismatch (result : CasResult) : Bool :=
  containsSubstr result.error.data "version".data || containsSubstr result.error.data "mismatch".data

def quorumCAS (key : Bytes) (expectedVersion : Int) (newValue : Bytes) (ttlSeconds : Option Int)
    (replicas : List ShardedHashTable) (deliveries : List Delivery) :
    WriteResult × List ShardedHashTable :=
  let results := List.zipWith (casReplica validator key expectedVersion newValue ttlSeconds)
    replicas deliveries
  let answers := results.filterMap Prod.fst
  let acks := (answers.filter CasResult.success).map CasResult.version
  let versionMismatch := answers.any fun r => !r.success && namesVersionMismatch r
  if replicas.isEmpty then (⟨false, 0, 0⟩, replicas)
  else
    (⟨decide (config.writeQuorum ≤ acks.length) && !versionMismatch, acks.foldl max 0, acks.length⟩,
      results.map Prod.snd)

-- One stale replica's part of `ReadRepair`: its client's `Set` of the latest value, without TTL.
def repairReplica (key latestValue : Bytes) (storage : ShardedHashTable) (delivery : Delivery) :
    ShardedHashTable :=
  match delivery.arrivedAt with
  | none => storage
  | some now => (CacheServiceImpl.set validator storage now ⟨key, latestValue, none⟩).2.2

-- `ReadRepair`: `latest_version` is only printed.
def readRepair (key latestValue : Bytes) (_latestVersion : Int)
    (staleReplicas : List ShardedHashTable) (deliveries : List Delivery) : List ShardedHashTable :=
  List.zipWith (repairReplica validator key latestValue) staleReplicas deliveries

-- The time the RPC reached the server, when its answer came back in time.
def answeredAt (d : Delivery) : Option Int := if d.answered then d.arrivedAt else none

-- What a replica reached at `now` answers, from the entry it holds for the key.
def casAnswer (expectedVersion now : Int) : Option CacheEntry → CasResult
  | none => ⟨false, 0, "CAS failed: Key not found"⟩
  | some e =>
    if e.isExpired now then ⟨false, 0, "CAS failed: Key expired"⟩
    else if e.version ≠ expectedVersion then ⟨false, e.version, "CAS failed: Version mismatch"⟩
    else ⟨true, e.version + 1, ""⟩

-- The version of the key's live entry at `now`, if any.
def liveVersion (storage : ShardedHashTable) (key : Bytes) (now : Int) : Option Int :=
  (storage.find key).bind fun e => if e.isExpired now then none else some e.version

variable {validator} {key newValue : Bytes} {expectedVersion : Int} {ttlSeconds : Option Int}

-- With the request valid, a replica's part is the engine's swap, answered as `casAnswer` says.
theorem casReplica_eq
    (hv : ∀ v ∈ validator,
      (v.validateSetOperation key newValue (some (ttlSeconds.getD 0))).valid = true)
    (storage : ShardedHashTable) (d : Delivery) :
    casReplica validator key expectedVersion newValue ttlSeconds storage d =
      ((answeredAt d).map fun now => casAnswer expectedVersion now (storage.find key),
        match d.arrivedAt with
        | none => storage
        | some now => (storage.compareAndSwap key expectedVersion
            (CacheEntry.init key newValue (some (ttlSeconds.getD 0)) now) now).2) := by
  obtain ⟨_ | now, answered⟩ := d
  · simp [casReplica, answeredAt]
  · simp only [casReplica, CacheServiceImpl.compareAndSwap, validateOrReturn_eq_none.mpr hv,
      answeredAt]
    cases answered
    · simp
    · simp only [if_true, Option.map_some', Prod.mk.injEq, and_true, Option.some.injEq]
      cases h : storage.find key with
      | none => simp [ShardedHashTable.compareAndSwap_of_find_none h, casAnswer, Status.ok]
      | some e =>
        cases hx : e.isExpired now
        · by_cases he : e.version = expectedVersion
          · subst he
            simp [(ShardedHashTable.compareAndSwap_of_match h hx _).1, casAnswer, hx, Status.ok]
          · simp [ShardedHashTable.compareAndSwap_of_mismatch h hx he, casAnswer, hx, he, Status.ok]
        · simp [ShardedHashTable.compareAndSwap_of_expired h hx, casAnswer, hx, Status.ok]

-- A replica swaps exactly when it holds the key live at the expected version.
theorem casAnswer_success (now : Int) (o : Option CacheEntry) :
    (casAnswer expectedVersion now o).success =
      ((o.bind fun e => if e.isExpired now then none else some e.version) == some expectedVersion) := by
  cases o with
  | none => rfl
  | some e =>
    by_cases hx : e.isExpired now <;> by_cases he : e.version = expectedVersion <;>
      simp [casAnswer, hx, he]

-- The three errors of an answered swap, as the test reads them.
theorem namesVersionMismatch_errors (success : Bool) (version : Int) :
    namesVersionMismatch ⟨success, version, "CAS failed: Key not found"⟩ = false ∧
      namesVersionMismatch ⟨success, version, "CAS failed: Key expired"⟩ = false ∧
      namesVersionMismatch ⟨success, version, "CAS failed: Version mismatch"⟩ = true := by
  simp only [namesVersionMismatch]
  decide

theorem casAnswer_mismatch (now : Int) (o : Option CacheEntry) :
    (!(casAnswer expectedVersion now o).success &&
        namesVersionMismatch (casAnswer expectedVersion now o)) =
      (o.bind fun e => if e.isExpired now then none else some e.version).any (· != expectedVersion) := by
  cases o with
  | none => simp [casAnswer, namesVersionMismatch_errors]
  | some e =>
    by_cases hx : e.isExpired now <;> by_cases he : e.version = expectedVersion <;>
      simp [casAnswer, hx, he, namesVersionMismatch_errors]

theorem casAnswer_version {now : Int} {o : Option CacheEntry}
    (h : (casAnswer expectedVersion now o).success = true) :
    (casAnswer expectedVersion now o).version = expectedVersion + 1 := by
  cases o with
  | none => cases h
  | some e =>
    by_cases hx : e.isExpired now <;> by_cases he : e.version = expectedVersion <;>
      simp_all [casAnswer]

-- Whether one replica swaps, and whether it reports a version mismatch.
def swapsAt (key : Bytes) (expectedVersion : Int) (storage : ShardedHashTable) (d : Delivery) :
    Bool :=
  (answeredAt d).any fun now => liveVersion storage key now == some expectedVersion

def mismatchesAt (key : Bytes) (expectedVersion : Int) (storage : ShardedHashTable) (d : Delivery) :
    Bool :=
  (answeredAt d).any fun now => (liveVersion storage key now).any (· != expectedVersion)

section Replicas

variable (expectedVersion)

variable (hv : ∀ v ∈ validator,
  (v.validateSetOperation key newValue (some (ttlSeconds.getD 0))).valid = true)
include hv

-- The versions acknowledged: one `expected_version + 1` per replica that swapped.
theorem acks_zipWith : ∀ (replicas : List ShardedHashTable) (deliveries : List Delivery),
    (((List.zipWith (casReplica validator key expectedVersion newValue ttlSeconds) replicas
        deliveries).filterMap Prod.fst).filter CasResult.success).map CasResult.version =
      List.replicate ((replicas.zip deliveries).filter
        fun p => swapsAt key expectedVersion p.1 p.2).length (expectedVersion + 1)
  | [], _ => by simp
  | _ :: _, [] => by simp
  | s :: replicas, d :: deliveries => by
    have ih := acks_zipWith replicas deliveries
    rw [List.zipWith_cons_cons, List.filterMap_cons, casReplica_eq hv, List.zip_cons_cons,
      List.filter_cons]
    cases ha : answeredAt d with
    | none => simpa [swapsAt, ha] using ih
    | some now =>
      have hs : swapsAt key expectedVersion s d = (casAnswer expectedVersion now (s.find key)).success := by
        simp only [swapsAt, ha, Option.any_some, liveVersion, casAnswer_success]
      by_cases h : (casAnswer expectedVersion now (s.find key)).success
      · simp [hs, h, casAnswer_version h, ih, List.replicate_succ]
      · simp [hs, h, ih]

theorem mismatch_zipWith : ∀ (replicas : List ShardedHashTable) (deliveries : List Delivery),
    ((List.zipWith (casReplica validator key expectedVersion newValue ttlSeconds) replicas
        deliveries).filterMap Prod.fst).any (fun r => !r.success && namesVersionMismatch r) =
      (replicas.zip deliveries).any fun p => mismatchesAt key expectedVersion p.1 p.2
  | [], _ => by simp
  | _ :: _, [] => by simp
  | s :: replicas, d :: deliveries => by
    have ih := mismatch_zipWith replicas deliveries
    rw [List.zipWith_cons_cons, List.filterMap_cons, casReplica_eq hv, List.zip_cons_cons,
      List.any_cons]
    cases ha : answeredAt d with
    | none => simpa [mismatchesAt, ha] using ih
    | some now =>
      simp only [Option.map_some', List.any_cons, ih, mismatchesAt, ha, Option.any_some,
        liveVersion, casAnswer_mismatch]

end Replicas

theorem foldl_max_replicate (a c : Int) : ∀ n,
    (List.replicate n c).foldl max a = if n = 0 then a else max a c
  | 0 => rfl
  | n + 1 => by
    rw [List.replicate_succ, List.foldl_cons, foldl_max_replicate]
    simp [max_assoc]

variable {config}

-- With the request valid on every replica, when `QuorumCAS` succeeds and what it reports.
theorem quorumCAS_result
    (hv : ∀ v ∈ validator,
      (v.validateSetOperation key newValue (some (ttlSeconds.getD 0))).valid = true)
    (replicas : List ShardedHashTable) (deliveries : List Delivery) :
    let r := (quorumCAS config validator key expectedVersion newValue ttlSeconds replicas
      deliveries).1
    let swaps := ((replicas.zip deliveries).filter
      fun p => swapsAt key expectedVersion p.1 p.2).length
    (r.success = true ↔ replicas ≠ [] ∧ config.writeQuorum ≤ swaps ∧
        ∀ p ∈ replicas.zip deliveries, mismatchesAt key expectedVersion p.1 p.2 = false) ∧
      r.replicasAcknowledged = (if replicas.isEmpty then 0 else swaps) ∧
      r.version = if replicas.isEmpty || swaps == 0 then 0 else max 0 (expectedVersion + 1) := by
  intro r swaps
  have ha := acks_zipWith expectedVersion hv replicas deliveries
  have hm := mismatch_zipWith expectedVersion hv replicas deliveries
  cases replicas with
  | nil => simp [r, quorumCAS]
  | cons s replicas =>
    simp only [r, quorumCAS, List.isEmpty_cons, Bool.false_eq_true, if_false, ha, hm,
      List.length_replicate, foldl_max_replicate]
    simp only [swaps, List.any_eq_false, Bool.false_or, beq_iff_eq, and_true]
    simp

theorem quorumCAS_result_two_of_three :
    (∀ v ∈ some serverValidator,
      (v.validateSetOperation [1] [9] (some ((none : Option Int).getD 0))).valid = true) ∧
      let held := ((ShardedHashTable.create 1 64 0 List.length (by decide)).set [1]
        (.init [1] [7] none 0)).2
      let replicas := [held, held, ShardedHashTable.create 1 64 0 List.length (by decide)]
      let deliveries : List Delivery := List.replicate 3 ⟨some 5, true⟩
      let r := (quorumCAS {} (some serverValidator) [1] 1 [9] none replicas deliveries).1
      let swaps := ((replicas.zip deliveries).filter fun p => swapsAt [1] 1 p.1 p.2).length
      (r.success = true ↔ replicas ≠ [] ∧ ({} : QuorumConfig).writeQuorum ≤ swaps ∧
          ∀ p ∈ replicas.zip deliveries, mismatchesAt [1] 1 p.1 p.2 = false) ∧
        r.replicasAcknowledged = (if replicas.isEmpty then 0 else swaps) ∧
        r.version = if replicas.isEmpty || swaps == 0 then 0 else max 0 (1 + 1) :=
  have hv : ∀ v ∈ some serverValidator,
      (v.validateSetOperation [1] [9] (some ((none : Option Int).getD 0))).valid = true :=
    fun v hv => by cases hv; decide
  ⟨hv, quorumCAS_result hv _ _⟩

-- Whatever `QuorumCAS` reports, each replica it reached swapped exactly when it could.
theorem quorumCAS_replicas
    (hv : ∀ v ∈ validator,
      (v.validateSetOperation key newValue (some (ttlSeconds.getD 0))).valid = true)
    (replicas : List ShardedHashTable) (deliveries : List Delivery) (k : Bytes) :
    (quorumCAS config validator key expectedVersion newValue ttlSeconds replicas
        deliveries).2.map (·.find k) =
      List.zipWith (fun s d =>
        match d.arrivedAt with
        | none => s.find k
        | some now =>
          if k = key then
            AbsCache.swapped expectedVersion
              (CacheEntry.init key newValue (some (ttlSeconds.getD 0)) now) now (s.find key)
          else s.find k) replicas deliveries := by
  cases replicas with
  | nil => simp [quorumCAS]
  | cons s replicas =>
    simp only [quorumCAS, List.isEmpty_cons, Bool.false_eq_true, if_false, List.map_zipWith]
    congr
    funext s d
    rw [casReplica_eq hv]
    obtain ⟨_ | now, answered⟩ := d
    · rfl
    · dsimp only
      by_cases hk : k = key
      · subst hk
        rw [if_pos rfl]
        exact ShardedHashTable.find_compareAndSwap_self _ _ _ _ _
      · simpa [hk] using ShardedHashTable.find_compareAndSwap_ne hk _ _ _

theorem quorumCAS_replicas_two_of_three :
    (∀ v ∈ some serverValidator,
      (v.validateSetOperation [1] [9] (some ((none : Option Int).getD 0))).valid = true) ∧
      let held := ((ShardedHashTable.create 1 64 0 List.length (by decide)).set [1]
        (.init [1] [7] none 0)).2
      let replicas := [held, held, ShardedHashTable.create 1 64 0 List.length (by decide)]
      let deliveries : List Delivery := [⟨some 5, true⟩, ⟨some 5, false⟩, ⟨none, false⟩]
      (quorumCAS {} (some serverValidator) [1] 1 [9] none replicas deliveries).2.map (·.find [1]) =
        List.zipWith (fun s d =>
          match d.arrivedAt with
          | none => s.find [1]
          | some now =>
            if ([1] : Bytes) = [1] then
              AbsCache.swapped 1 (CacheEntry.init [1] [9] (some ((none : Option Int).getD 0)) now)
                now (s.find [1])
            else s.find [1]) replicas deliveries :=
  have hv : ∀ v ∈ some serverValidator,
      (v.validateSetOperation [1] [9] (some ((none : Option Int).getD 0))).valid = true :=
    fun v hv => by cases hv; decide
  ⟨hv, quorumCAS_replicas hv _ _ _⟩

-- A replica asked at `t` for a key it holds live answers with the entry's value and version.
theorem readReplica_of_live (hv : ∀ v ∈ validator, (v.validateKey key).valid = true)
    {storage : ShardedHashTable} {e : CacheEntry} (h : storage.find key = some e) {t : Int}
    (hx : e.isExpired t = false) :
    (readReplica validator key storage ⟨some t, true⟩).1 = some ⟨e.value, e.version, 0⟩ := by
  have hg := ShardedHashTable.get_of_live h hx
  simp [readReplica, CacheServiceImpl.get, validateOrReturn_eq_none.mpr hv, hg.1, Status.ok]

-- Each stale replica `ReadRepair` reaches answers every later read with version 1.
theorem readRepair_answers_version_one
    {latestValue : Bytes} (hv : ∀ v ∈ validator, (v.validateSetOperation key latestValue none).valid = true)
    (latestVersion : Int) (staleReplicas : List ShardedHashTable) (deliveries : List Delivery)
    (t : Int) :
    (readRepair validator key latestValue latestVersion staleReplicas deliveries).map
        (fun s => (readReplica validator key s ⟨some t, true⟩).1) =
      List.zipWith (fun s d =>
        match d.arrivedAt with
        | none => (readReplica validator key s ⟨some t, true⟩).1
        | some _ => some ⟨latestValue, 1, 0⟩) staleReplicas deliveries := by
  have hk : ∀ v ∈ validator, (v.validateKey key).valid = true := fun v hv' =>
    (Validator.validateSetOperation_valid.mp (hv v hv')).1
  simp only [readRepair, List.map_zipWith]
  congr
  funext s d
  obtain ⟨_ | now, answered⟩ := d
  · rfl
  · have hs := CacheServiceImpl.set_of_valid s now ⟨key, latestValue, none⟩ hv
    exact readReplica_of_live hk hs.2.2 rfl

theorem readRepair_answers_version_one_two_replicas :
    (∀ v ∈ some serverValidator, (v.validateSetOperation [1] [9] none).valid = true) ∧
      let stale := [ShardedHashTable.create 1 64 0 List.length (by decide),
        ((ShardedHashTable.create 1 64 0 List.length (by decide)).set [1] (.init [1] [7] none 0)).2]
      let deliveries : List Delivery := [⟨some 5, false⟩, ⟨none, false⟩]
      (readRepair (some serverValidator) [1] [9] 3 stale deliveries).map
          (fun s => (readReplica (some serverValidator) [1] s ⟨some 9, true⟩).1) =
        List.zipWith (fun s d =>
          match d.arrivedAt with
          | none => (readReplica (some serverValidator) [1] s ⟨some 9, true⟩).1
          | some _ => some ⟨[9], 1, 0⟩) stale deliveries :=
  have hv : ∀ v ∈ some serverValidator, (v.validateSetOperation [1] [9] none).valid = true :=
    fun v hv => by cases hv; decide
  ⟨hv, readRepair_answers_version_one hv 3 _ _ 9⟩

end QuorumCoordinator

end DistCache.Cluster
