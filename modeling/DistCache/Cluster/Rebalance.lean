import DistCache.Cache.Spec
import DistCache.Cluster.Disruption

namespace DistCache.Cluster

open Cache

-- Each job runs as one step of a run; interleavings inside a job are not modelled.

-- `RebalanceJob`. `started_at` serves only the worker's cleanup and is left out.
structure RebalanceJob where
  jobId : String
  sourceNodeId : String
  targetNodeId : String
  keysMigrated : Nat := 0
  keysTotal : Nat := 0
  completed : Bool := false
  failed : Bool := false
  errorMessage : String := ""
deriving DecidableEq, Repr

-- A `ShardingClient::Set` a job makes; whether it succeeds is the argument `client`.
structure SetCall where
  key : Bytes
  value : Bytes
  ttlSeconds : Option Int
deriving DecidableEq, Repr

-- `RebalanceOrchestrator` without its threads, mutexes and pointers.
structure RebalanceOrchestrator where
  oldRing : HashRing
  newRing : HashRing
  batchSize : Nat
  batchSize_pos : 0 < batchSize
  jobs : List (String × RebalanceJob)
  jobCounter : Nat

-- `std::less<std::pair<std::string, std::string>>`.
def pathLt (a b : String × String) : Bool := stringLt a.1 b.1 || (a.1 == b.1 && stringLt a.2 b.2)

-- The batches `[i, min(i + batch_size_, n))` of the loop of `execute_job`.
def batchesAux {α : Type} (size : Nat) : Nat → List α → List (List α)
  | 0, _ => []
  | fuel + 1, l => if l.isEmpty then [] else l.take size :: batchesAux size fuel (l.drop size)

def batches {α : Type} (size : Nat) (l : List α) : List (List α) := batchesAux size l.length l

-- `cleanup_migrated_keys`: `del` of each key. Nothing in the model throws, so it reports success.
def cleanupMigratedKeys (storage : ShardedHashTable) (keys : List Bytes) : ShardedHashTable :=
  keys.foldl (fun s key => (s.del key).2) storage

-- The `Set` of an entry: its key, its value bytes as the string `value_str`, its TTL.
def SetCall.ofEntry (p : Bytes × CacheEntry) : SetCall := ⟨p.1, p.2.value, p.2.ttlSeconds⟩

-- The loop of `migrate_batch` over the batch: one `Set` per key, stopping at the first failure.
def sendSets (client : SetCall → Bool) : List (Bytes × CacheEntry) → Bool × List SetCall
  | [] => (true, [])
  | p :: rest =>
    if client (.ofEntry p) then
      let r := sendSets client rest
      (r.1, .ofEntry p :: r.2)
    else (false, [.ofEntry p])

namespace RebalanceOrchestrator

def create (oldRing newRing : HashRing) (batchSize : Nat) (h : 0 < batchSize) :
    RebalanceOrchestrator :=
  ⟨oldRing, newRing, batchSize, h, [], 0⟩

-- `"job-" + <seconds> + "-" + <counter, four digits>`.
def generateJobId (o : RebalanceOrchestrator) (now : Int) : String × RebalanceOrchestrator :=
  let digits := toString o.jobCounter
  ("job-" ++ toString now ++ "-" ++ String.mk (List.replicate (4 - digits.length) '0') ++ digits,
    { o with jobCounter := o.jobCounter + 1 })

-- The local keys whose owner is known in both rings and differs.
def calculateAffectedKeys (o : RebalanceOrchestrator) (storage : ShardedHashTable) (now : Int) :
    List Bytes :=
  (storage.forEach now).filterMap fun p =>
    match o.oldRing.getNode p.1, o.newRing.getNode p.1 with
    | some a, some b => if a.id ≠ b.id then some p.1 else none
    | _, _ => none

-- The keys by (old owner, new owner), for the keys whose owner is known in both rings and differs.
def groupKeysByMigrationPath (o : RebalanceOrchestrator) (keys : List Bytes) :
    List ((String × String) × List Bytes) :=
  keys.foldl (fun paths key =>
    match o.oldRing.getNode key, o.newRing.getNode key with
    | some a, some b =>
      if a.id ≠ b.id then
        StdMap.insert pathLt paths (a.id, b.id) ((StdMap.find paths (a.id, b.id)).getD [] ++ [key])
      else paths
    | _, _ => paths) []

-- The loop over `migration_paths`: one job per path, registered with its key count.
def createJobs (o : RebalanceOrchestrator) (now : Int) :
    List ((String × String) × List Bytes) → RebalanceOrchestrator × List String
  | [] => (o, [])
  | ((source, target), keys) :: rest =>
    let r := o.generateJobId now
    let job : RebalanceJob :=
      { jobId := r.1, sourceNodeId := source, targetNodeId := target, keysTotal := keys.length }
    let o := { r.2 with jobs := StdMap.insert stringLt r.2.jobs r.1 job }
    let rest := o.createJobs now rest
    (rest.1, r.1 :: rest.2)

-- `start_rebalance`: the first job's id (empty when no key moves), and every job started.
def startRebalance (o : RebalanceOrchestrator) (storage : ShardedHashTable) (now : Int) :
    String × RebalanceOrchestrator × List String :=
  let affected := o.calculateAffectedKeys storage now
  if affected.isEmpty then ("", o, [])
  else
    let r := o.createJobs now (o.groupKeysByMigrationPath affected)
    (r.2.headD "", r.1, r.2)

-- `start_drain`: the first job's id, and every job started.
def startDrain (o : RebalanceOrchestrator) (storage : ShardedHashTable) (now : Int) :
    String × RebalanceOrchestrator × List String :=
  let allKeys := (storage.forEach now).map Prod.fst
  if allKeys.isEmpty then ("", o, [])
  else
    let r := o.createJobs now (o.groupKeysByMigrationPath allKeys)
    (r.2.headD "", r.1, r.2)

-- `migrate_batch`: the target must be a node of the new ring.
def migrateBatch (o : RebalanceOrchestrator) (client : SetCall → Bool)
    (batch : List (Bytes × CacheEntry)) (targetNode : String) : Bool × List SetCall :=
  if o.newRing.nodes.any fun p => p.2.id == targetNode then sendSets client batch
  else (false, [])

-- The batch loop of `execute_job`: stop at a cancelled job or a failed batch.
def migrateBatches (o : RebalanceOrchestrator) (client : SetCall → Bool) :
    ShardedHashTable → RebalanceJob → List (List (Bytes × CacheEntry)) →
      ShardedHashTable × RebalanceJob × List SetCall
  | storage, job, [] => (storage, job, [])
  | storage, job, batch :: rest =>
    if job.failed then (storage, job, [])
    else
      let r := o.migrateBatch client batch job.targetNodeId
      if r.1 then
        let rest := o.migrateBatches client (cleanupMigratedKeys storage (batch.map Prod.fst))
          { job with keysMigrated := job.keysMigrated + batch.length } rest
        (rest.1, rest.2.1, r.2 ++ rest.2.2)
      else (storage, { job with failed := true, errorMessage := "Failed to migrate batch" }, r.2)

-- The live local entries the new ring places on `target`.
def entriesFor (o : RebalanceOrchestrator) (storage : ShardedHashTable) (now : Int)
    (target : String) : List (Bytes × CacheEntry) :=
  (storage.forEach now).filter fun p => (o.newRing.getNode p.1).map Node.id == some target

-- `execute_job`: the engine is scanned again for every key the new ring puts on the target.
def executeJob (o : RebalanceOrchestrator) (client : SetCall → Bool) (storage : ShardedHashTable)
    (now : Int) (jobId : String) : RebalanceOrchestrator × ShardedHashTable × List SetCall :=
  match StdMap.find o.jobs jobId with
  | none => (o, storage, [])
  | some job =>
    let entries := o.entriesFor storage now job.targetNodeId
    let r := o.migrateBatches client storage { job with keysTotal := entries.length }
      (batches o.batchSize entries)
    ({ o with jobs := StdMap.insert stringLt o.jobs jobId { r.2.1 with completed := true } },
      r.1, r.2.2)

-- Jobs in the order their threads run them.
def runJobs (o : RebalanceOrchestrator) (client : SetCall → Bool) (storage : ShardedHashTable)
    (now : Int) : List String → RebalanceOrchestrator × ShardedHashTable × List SetCall
  | [] => (o, storage, [])
  | jobId :: rest =>
    let r := o.executeJob client storage now jobId
    let rest := r.1.runJobs client r.2.1 now rest
    (rest.1, rest.2.1, r.2.2 ++ rest.2.2)

-- A job `jobs_` does not hold counts as complete.
def isComplete (o : RebalanceOrchestrator) (jobId : String) : Bool :=
  match StdMap.find o.jobs jobId with
  | none => true
  | some job => job.completed

def getProgress (o : RebalanceOrchestrator) (jobId : String) : Option RebalanceJob :=
  StdMap.find o.jobs jobId

def cancelJob (o : RebalanceOrchestrator) (jobId : String) : Bool × RebalanceOrchestrator :=
  match StdMap.find o.jobs jobId with
  | none => (false, o)
  | some job =>
    let job := { job with failed := true, errorMessage := "Cancelled by user" }
    (true, { o with jobs := StdMap.insert stringLt o.jobs jobId job })

-- The jobs run in the order `schedule` gives until `is_complete(jobId)` answers true.
def runUntilComplete (o : RebalanceOrchestrator) (client : SetCall → Bool)
    (storage : ShardedHashTable) (now : Int) (jobId : String) :
    List String → RebalanceOrchestrator × ShardedHashTable × List SetCall
  | [] => (o, storage, [])
  | j :: schedule =>
    if o.isComplete jobId then (o, storage, [])
    else
      let r := o.executeJob client storage now j
      let rest := r.1.runUntilComplete client r.2.1 now jobId schedule
      (rest.1, rest.2.1, r.2.2 ++ rest.2.2)

section Spec

variable (o : RebalanceOrchestrator) {client : SetCall → Bool} {job : RebalanceJob}

theorem sendSets_of_ok (hc : ∀ c, client c = true) :
    ∀ batch : List (Bytes × CacheEntry), sendSets client batch = (true, batch.map .ofEntry)
  | [] => rfl
  | p :: rest => by simp [sendSets, hc, sendSets_of_ok hc rest]

-- The batches of a job put back together are the entries it collected.
theorem flatten_batchesAux {α : Type} {size : Nat} (hs : 0 < size) :
    ∀ (fuel : Nat) (l : List α), l.length ≤ fuel → (batchesAux size fuel l).flatten = l
  | 0, l, h => by simp [List.eq_nil_of_length_eq_zero (Nat.le_zero.mp h), batchesAux]
  | fuel + 1, l, h => by
    cases l with
    | nil => rfl
    | cons a l =>
      simp only [batchesAux, List.isEmpty_cons, Bool.false_eq_true, if_false, List.flatten_cons]
      rw [flatten_batchesAux hs fuel _ (by simp only [List.length_drop, List.length_cons] at h ⊢; omega),
        List.take_append_drop]

theorem flatten_batches {α : Type} {size : Nat} (hs : 0 < size) (l : List α) :
    (batches size l).flatten = l :=
  flatten_batchesAux hs _ l le_rfl

theorem cleanupMigratedKeys_append (storage : ShardedHashTable) (keys keys' : List Bytes) :
    cleanupMigratedKeys storage (keys ++ keys') =
      cleanupMigratedKeys (cleanupMigratedKeys storage keys) keys' :=
  List.foldl_append _ _ _ _

-- Deleting a list of keys removes exactly those.
theorem find_cleanupMigratedKeys (k : Bytes) :
    ∀ (keys : List Bytes) (storage : ShardedHashTable),
      (cleanupMigratedKeys storage keys).find k = if k ∈ keys then none else storage.find k
  | [], _ => rfl
  | key :: keys, storage => by
    rw [cleanupMigratedKeys, List.foldl_cons, ← cleanupMigratedKeys,
      find_cleanupMigratedKeys k keys]
    by_cases hk : k = key
    · subst hk
      simp [ShardedHashTable.find_del]
    · by_cases hm : k ∈ keys <;> simp [hk, hm, ShardedHashTable.find_del_ne hk]

-- Every batch goes through: each is sent, then deleted and counted.
theorem migrateBatches_of_ok (hc : ∀ c, client c = true)
    (ht : (o.newRing.nodes.any fun p => p.2.id == job.targetNodeId) = true) :
    ∀ (bs : List (List (Bytes × CacheEntry))) (storage : ShardedHashTable) (job' : RebalanceJob),
      job'.failed = false → job'.targetNodeId = job.targetNodeId →
      o.migrateBatches client storage job' bs =
        (cleanupMigratedKeys storage (bs.flatten.map Prod.fst),
          { job' with keysMigrated := job'.keysMigrated + bs.flatten.length },
          bs.flatten.map .ofEntry)
  | [], storage, job', _, _ => by simp [migrateBatches, cleanupMigratedKeys]
  | batch :: bs, storage, job', hf, htarget => by
    have hb : o.migrateBatch client batch job'.targetNodeId = (true, batch.map .ofEntry) := by
      rw [migrateBatch, htarget, ht, if_pos rfl, sendSets_of_ok hc]
    rw [migrateBatches, if_neg (by simp [hf]), hb, if_pos rfl]
    simp only [migrateBatches_of_ok hc ht bs _ { job' with keysMigrated := job'.keysMigrated + batch.length }
      hf htarget]
    simp only [List.flatten_cons, List.map_append, cleanupMigratedKeys_append, List.length_append,
      Nat.add_assoc]

-- When every `Set` succeeds, a job moves exactly the live entries the new ring puts on its target.
theorem executeJob_of_ok (hc : ∀ c, client c = true) {storage : ShardedHashTable} {now : Int}
    {jobId : String}
    (hjob : StdMap.find o.jobs jobId = some job) (hf : job.failed = false)
    (ht : (o.newRing.nodes.any fun p => p.2.id == job.targetNodeId) = true) :
    let es := o.entriesFor storage now job.targetNodeId
    let r := o.executeJob client storage now jobId
    r.2.2 = es.map .ofEntry ∧
      (∀ k, r.2.1.find k = if k ∈ es.map Prod.fst then none else storage.find k) ∧
      StdMap.find r.1.jobs jobId =
        some { job with keysTotal := es.length, keysMigrated := job.keysMigrated + es.length,
                        completed := true } := by
  intro es r
  have hm := o.migrateBatches_of_ok hc ht (batches o.batchSize es) storage
    { job with keysTotal := es.length } hf rfl
  rw [flatten_batches o.batchSize_pos] at hm
  refine ⟨by simp only [r, executeJob, hjob, hm], fun k => ?_, ?_⟩ <;>
    simp only [r, executeJob, hjob, hm]
  · exact find_cleanupMigratedKeys k _ storage
  · exact StdMap.find_insert_self _ _ _ _

end Spec

end RebalanceOrchestrator

inductive NodeState
  | healthy
  | draining
  | failed
deriving DecidableEq, Repr

structure DrainRequest where
  nodeId : String
  timeoutSeconds : Int

structure DrainResponse where
  success : Bool := false
  keysMigrated : Nat := 0
  error : String := ""
deriving DecidableEq, Repr

-- `AdminServiceImpl` as `DrainNode` uses it; the rings are those of `set_hash_rings`.
structure AdminServiceImpl where
  nodeId : String
  state : NodeState
  oldRing : Option HashRing
  newRing : Option HashRing
  orchestrator : Option RebalanceOrchestrator
  activeJobId : String

namespace AdminServiceImpl

-- `DrainNode`; `schedule` is the order in which the drain jobs run while it polls the first.
def drainNode (a : AdminServiceImpl) (client : SetCall → Bool) (storage : ShardedHashTable)
    (now : Int) (request : DrainRequest) (schedule : List String) :
    DrainResponse × AdminServiceImpl × ShardedHashTable × List SetCall :=
  if request.nodeId ≠ a.nodeId then ({ error := "Node ID mismatch" }, a, storage, [])
  else
    match a.oldRing, a.newRing with
    | some oldRing, some newRing =>
      let o := a.orchestrator.getD (RebalanceOrchestrator.create oldRing newRing 100 (by decide))
      let d := o.startDrain storage now
      if d.1 = "" then
        ({ success := true, keysMigrated := 0 },
          { a with state := .healthy, orchestrator := some d.2.1 }, storage, [])
      else
        let r := d.2.1.runUntilComplete client storage now d.1 schedule
        let a := { a with state := .draining, orchestrator := some r.1, activeJobId := d.1 }
        if !r.1.isComplete d.1 then
          ({ error := "Drain timeout exceeded" },
            { a with state := .healthy, orchestrator := some (r.1.cancelJob d.1).2 }, r.2.1, r.2.2)
        else
          match r.1.getProgress d.1 with
          | some job =>
            if !job.failed then ({ success := true, keysMigrated := job.keysMigrated }, a, r.2.1, r.2.2)
            else ({ error := job.errorMessage }, { a with state := .healthy }, r.2.1, r.2.2)
          | none => ({ error := "Unknown error" }, { a with state := .healthy }, r.2.1, r.2.2)
    | _, _ => ({ error := "Hash rings not configured" }, { a with state := .healthy }, storage, [])

end AdminServiceImpl

namespace RebalanceOrchestrator

theorem executeJob_of_ok_rebalance :
    let oldRing := (((HashRing.create 3 1).addNode ⟨"node-000", "10.0.0.1:50051"⟩).2.addNode
      ⟨"node-001", "10.0.0.2:50051"⟩).2
    let newRing := ((HashRing.create 3 1).addNode ⟨"node-000", "10.0.0.1:50051"⟩).2
    let storage := (ShardedHashTable.create 1 1024 0 List.length (by decide)).exec
      [.set [0] (.init [0] [0] none 0), .set [37] (.init [37] [37] none 0)]
    let o := ((RebalanceOrchestrator.create oldRing newRing 100 (by decide)).startRebalance
      storage 0).2.1
    let job : RebalanceJob := ⟨"job-0-0000", "node-001", "node-000", 0, 1, false, false, ""⟩
    let es := o.entriesFor storage 0 job.targetNodeId
    let r := o.executeJob (fun _ => true) storage 0 "job-0-0000"
    (∀ c : SetCall, (fun _ => true) c = true) ∧ StdMap.find o.jobs "job-0-0000" = some job ∧
      job.failed = false ∧ (o.newRing.nodes.any fun p => p.2.id == job.targetNodeId) = true ∧
      r.2.2 = es.map .ofEntry ∧
      (∀ k, r.2.1.find k = if k ∈ es.map Prod.fst then none else storage.find k) ∧
      StdMap.find r.1.jobs "job-0-0000" =
        some { job with keysTotal := es.length, keysMigrated := job.keysMigrated + es.length,
                        completed := true } :=
  ⟨fun _ => rfl, by decide, rfl, by decide, executeJob_of_ok _ (fun _ => rfl) (by decide) rfl (by decide)⟩

-- `node-001` leaves: the one job also sends [37], which stays on `node-000`, and deletes it.
theorem rebalance_moves_unmoved_key :
    let a : Node := ⟨"node-000", "10.0.0.1:50051"⟩
    let b : Node := ⟨"node-001", "10.0.0.2:50051"⟩
    let oldRing := (((HashRing.create 3 1).addNode a).2.addNode b).2
    let newRing := ((HashRing.create 3 1).addNode a).2
    let storage := (ShardedHashTable.create 1 1024 0 List.length (by decide)).exec
      [.set [0] (.init [0] [0] none 0), .set [37] (.init [37] [37] none 0)]
    let o := RebalanceOrchestrator.create oldRing newRing 100 (by decide)
    let s := o.startRebalance storage 0
    let r := s.2.1.runJobs (fun _ => true) storage 0 s.2.2
    oldRing.getNode [37] = some a ∧ newRing.getNode [37] = some a ∧ storage.find [37] ≠ none ∧
      o.calculateAffectedKeys storage 0 = [[0]] ∧ s.2.2.length = 1 ∧
      r.2.2.map SetCall.key = [[37], [0]] ∧ r.2.1.find [37] = none := by
  decide

end RebalanceOrchestrator

namespace AdminServiceImpl

-- The second drain job fails, and `DrainNode`, which reads only the first, reports success.
theorem drain_reports_first_job_only :
    let oldRing : HashRing :=
      (((HashRing.create 3 1).addNode ⟨"node-000", "10.0.0.1:50051"⟩).2.addNode
        ⟨"node-001", "10.0.0.2:50051"⟩).2
    let newRing := (((HashRing.create 3 1).addNode ⟨"node-002", "10.0.0.3:50051"⟩).2.addNode
      ⟨"node-003", "10.0.0.4:50051"⟩).2
    let storage := (ShardedHashTable.create 1 1024 0 List.length (by decide)).exec
      [.set [0] (.init [0] [0] none 0), .set [1] (.init [1] [1] none 0)]
    let a : AdminServiceImpl := ⟨"node-001", .healthy, some oldRing, some newRing, none, ""⟩
    let r := a.drainNode (fun c => c.key != [0]) storage 0 ⟨"node-001", 30⟩
      ["job-0-0001", "job-0-0000"]
    r.1 = { success := true, keysMigrated := 1 } ∧
      ((r.2.1.orchestrator.bind fun o => o.getProgress "job-0-0001").map fun job =>
        (job.targetNodeId, job.completed, job.failed)) = some ("node-003", true, true) := by
  decide

end AdminServiceImpl

end DistCache.Cluster
