import DistCache.Cluster.Replicas
import DistCache.Cluster.Membership
import DistCache.Cache.Enumeration
import DistCache.Persistence.SnapshotCodec

namespace DistCache.Cluster

open Cache Persistence

namespace HashRing

-- The distinct owners met walking clockwise from a key, and how many the ring has.
def owners (r : HashRing) (key : Bytes) : List String :=
  ((r.fromKey key).map Prod.snd).reverse.dedup.reverse

def ownerCount (r : HashRing) : Nat := (r.ring.map Prod.snd).dedup.length

variable {r : HashRing}

theorem live_of_mem_owners (hw : r.WellFormed) {key : Bytes} {x : String}
    (hx : x ∈ r.owners key) : (StdMap.find r.nodes x).isSome := by
  obtain ⟨p, hp, rfl⟩ := List.mem_map.mp (List.mem_reverse.mp
    (List.mem_dedup.mp (List.mem_reverse.mp hx)))
  exact hw.live p ((fromKey_perm r key).subset hp)

theorem owners_nodup (r : HashRing) (key : Bytes) : (r.owners key).Nodup :=
  List.nodup_reverse.mpr (List.nodup_dedup _)

theorem length_owners (r : HashRing) (key : Bytes) : (r.owners key).length = r.ownerCount :=
  length_firstOwners r key

-- On a ring with a virtual node the walk starts at `get_node`'s owner.
theorem owners_eq_cons (hr : r.Reachable) (key : Bytes) (hne : r.ring ≠ []) :
    ∃ node t, r.getNode key = some node ∧ r.owners key = node.id :: t := by
  obtain ⟨p, ps, hps⟩ : ∃ p ps, r.fromKey key = p :: ps := by
    cases h : r.fromKey key with
    | nil => exact absurd (List.Perm.nil_eq (h ▸ fromKey_perm r key)).symm hne
    | cons p ps => exact ⟨p, ps, rfl⟩
  obtain ⟨t, ht⟩ := reverse_dedup_reverse_cons p.2 (ps.map Prod.snd)
  obtain ⟨node, hnode⟩ := Option.isSome_iff_exists.mp (hr.wellFormed.live p (by
    rw [← (fromKey_perm r key).mem_iff, hps]
    exact List.mem_cons_self _ _))
  refine ⟨node, t, ?_, ?_⟩
  · rw [getNode, hps]
    exact hnode
  · rw [owners, hps, List.map_cons, ht, id_of_find hr.nodesKeyed hnode]

end HashRing

namespace Failover

structure Config where
  nodeId : String
  replicationFactor : Nat := 2
  autoFailoverEnabled : Bool := true

-- `FailoverInfo` without its two time points.
structure FailoverInfo where
  failoverId : String
  failedNodeId : String
  newPrimaryId : String
  inProgress : Bool
  keysMigrated : Int
  status : String
deriving DecidableEq, Repr

-- `FailoverManager` without its mutexes; `failovers_` is an association list in iteration order.
structure FailoverManager where
  config : Config
  ring : HashRing
  failovers : List (String × FailoverInfo)
  callbackSet : Bool
  totalFailovers : Nat
  successfulFailovers : Nat
  failedFailovers : Nat

-- `map[k] = v`: an entry of the key is overwritten in place, a new one goes at the end.
def assign {ν : Type} (m : List (String × ν)) (k : String) (v : ν) : List (String × ν) :=
  if (StdMap.find m k).isSome then StdMap.setValue m k v else m ++ [(k, v)]

-- `std::setfill('0') << std::setw(width) << n`.
def zeroPadded (width n : Nat) : String :=
  let digits := toString n
  String.mk (List.replicate (width - digits.length) '0') ++ digits

namespace FailoverManager

def create (config : Config) (ring : HashRing) : FailoverManager :=
  ⟨config, ring, [], false, 0, 0, 0⟩

-- `GenerateFailoverId`: the system clock in milliseconds and the count of failovers so far.
def generateFailoverId (m : FailoverManager) (now : Int) : String :=
  "failover-" ++ toString now ++ "-" ++ zeroPadded 4 (m.totalFailovers % 10000)

-- `SelectNewPrimary`: the first replica of the failed node's id that is not the failed node.
def selectNewPrimary (m : FailoverManager) (failedNodeId : String) : String :=
  let replicas := m.ring.getReplicas (bytesOf failedNodeId) m.config.replicationFactor
  if replicas.isEmpty then ""
  else
    match replicas.find? fun replica => replica.id != failedNodeId with
    | some replica => replica.id
    | none => ""

-- `UpdateTopology`: `remove_node`, whose result is not read; nothing in it throws.
def updateTopology (m : FailoverManager) (failedNodeId _newPrimaryId : String) : Bool × HashRing :=
  (true, (m.ring.removeNode failedNodeId).2)

-- `ExecuteFailover`, with the callback's calls.
def executeFailover (m : FailoverManager) (failoverId : String) :
    FailoverManager × List (String × String) :=
  match StdMap.find m.failovers failoverId with
  | none => (m, [])
  | some info =>
    let info := { info with status := "promoting" }
    let r := m.updateTopology info.failedNodeId info.newPrimaryId
    if !r.1 then
      ({ m with ring := r.2, failedFailovers := m.failedFailovers + 1,
                failovers := StdMap.setValue m.failovers failoverId
                  { info with status := "failed", inProgress := false } }, [])
    else
      ({ m with ring := r.2, successfulFailovers := m.successfulFailovers + 1,
                failovers := StdMap.setValue m.failovers failoverId
                  { info with status := "complete", inProgress := false } },
        if m.callbackSet then [(info.failedNodeId, info.newPrimaryId)] else [])

-- `InitiateFailover` at `now`: the id it returns, empty on failure.
def initiateFailover (m : FailoverManager) (failedNodeId : String) (now : Int) :
    String × FailoverManager × List (String × String) :=
  if !m.config.autoFailoverEnabled then ("", m, [])
  else
    let failoverId := m.generateFailoverId now
    let newPrimary := m.selectNewPrimary failedNodeId
    if newPrimary = "" then ("", { m with failedFailovers := m.failedFailovers + 1 }, [])
    else
      let info : FailoverInfo := ⟨failoverId, failedNodeId, newPrimary, true, 0, "initiated"⟩
      let m := { m with failovers := assign m.failovers failoverId info,
                        totalFailovers := m.totalFailovers + 1 }
      let r := m.executeFailover failoverId
      (failoverId, r.1, r.2)

def isFailoverInProgress (m : FailoverManager) (failoverId : String) : Bool :=
  match StdMap.find m.failovers failoverId with
  | some info => info.inProgress
  | none => false

def getFailoverStatus (m : FailoverManager) (failoverId : String) : Option FailoverInfo :=
  StdMap.find m.failovers failoverId

def getActiveFailovers (m : FailoverManager) : List FailoverInfo :=
  (m.failovers.map Prod.snd).filter FailoverInfo.inProgress

def cancelFailover (m : FailoverManager) (failoverId : String) : Bool × FailoverManager :=
  match StdMap.find m.failovers failoverId with
  | some info =>
    if info.inProgress then
      (true, { m with failovers := StdMap.setValue m.failovers failoverId
                        { info with inProgress := false, status := "cancelled" } })
    else (false, m)
  | none => (false, m)

-- `Stats` without the average time.
structure Stats where
  totalFailovers : Nat
  successfulFailovers : Nat
  failedFailovers : Nat
  activeFailovers : Nat
deriving DecidableEq, Repr

def getStats (m : FailoverManager) : Stats :=
  ⟨m.totalFailovers, m.successfulFailovers, m.failedFailovers,
    (m.failovers.filter fun p => p.2.inProgress).length⟩

-- The calls of a run: the manager's own, and the changes other holders of the ring make to it.
inductive Call
  | initiateFailover (failedNodeId : String) (now : Int)
  | cancelFailover (failoverId : String)
  | setFailoverCallback
  | addNode (node : Node)
  | removeNode (nodeId : String)

def step (m : FailoverManager) : Call → FailoverManager × List (String × String)
  | .initiateFailover failedNodeId now => (m.initiateFailover failedNodeId now).2
  | .cancelFailover failoverId => ((m.cancelFailover failoverId).2, [])
  | .setFailoverCallback => ({ m with callbackSet := true }, [])
  | .addNode node => ({ m with ring := (m.ring.addNode node).2 }, [])
  | .removeNode nodeId => ({ m with ring := (m.ring.removeNode nodeId).2 }, [])

def run (m : FailoverManager) : List Call → FailoverManager
  | [] => m
  | c :: cs => (m.step c).1.run cs

end FailoverManager

section Assign

variable {ν : Type} {m : List (String × ν)} {k : String} {v v' : ν}

theorem find_assign_self : StdMap.find (assign m k v) k = some v := by
  unfold assign
  split_ifs with h
  · obtain ⟨w, hw⟩ := Option.isSome_iff_exists.mp h
    simp [StdMap.find_setValue_self, hw]
  · simp only [Option.not_isSome_iff_eq_none, StdMap.find, Option.map_eq_none'] at h
    simp [StdMap.find, List.find?_append, h]

theorem mem_assign {p : String × ν} (hp : p ∈ assign m k v) : p = (k, v) ∨ p ∈ m := by
  unfold assign at hp
  split_ifs at hp
  · exact StdMap.mem_setValue hp
  · rcases List.mem_append.mp hp with h | h
    · exact .inr h
    · exact .inl (List.mem_singleton.mp h)

theorem find_assign_ne {k' : String} (h : k' ≠ k) :
    StdMap.find (assign m k v) k' = StdMap.find m k' := by
  unfold assign
  split_ifs
  · exact StdMap.find_setValue_ne h
  · cases hf : m.find? fun p => decide (p.1 = k') <;>
      simp [StdMap.find, List.find?_append, hf, Ne.symm h]

-- Overwriting the entry just assigned is assigning the new value.
theorem setValue_assign : StdMap.setValue (assign m k v) k v' = assign m k v' := by
  unfold assign
  split_ifs with h
  · simp only [StdMap.setValue, List.map_map]
    congr 1
    funext p
    by_cases hp : p.1 = k <;> simp [hp]
  · simp only [Option.not_isSome_iff_eq_none, StdMap.find, Option.map_eq_none',
      List.find?_eq_none, decide_eq_true_eq] at h
    simp only [StdMap.setValue, List.map_append, List.map_cons, List.map_nil, if_true]
    congr 1
    exact (List.map_congr_left fun p hp => (if_neg (h p hp) : _ = id p)).trans (List.map_id m)

end Assign

namespace FailoverManager

variable {m : FailoverManager} {failedNodeId failoverId : String} {now : Int}

theorem executeFailover_of_find {info : FailoverInfo}
    (h : StdMap.find m.failovers failoverId = some info) :
    m.executeFailover failoverId =
      ({ m with ring := (m.ring.removeNode info.failedNodeId).2,
                successfulFailovers := m.successfulFailovers + 1,
                failovers := StdMap.setValue m.failovers failoverId
                  { info with status := "complete", inProgress := false } },
        if m.callbackSet then [(info.failedNodeId, info.newPrimaryId)] else []) := by
  simp [executeFailover, h, updateTopology]

-- A failover that finds a new primary removes the failed node and files a complete record.
theorem initiateFailover_of_selected (now : Int) (ha : m.config.autoFailoverEnabled = true)
    (hp : m.selectNewPrimary failedNodeId ≠ "") :
    m.initiateFailover failedNodeId now =
      (m.generateFailoverId now,
        { m with ring := (m.ring.removeNode failedNodeId).2,
                 failovers := assign m.failovers (m.generateFailoverId now)
                   ⟨m.generateFailoverId now, failedNodeId, m.selectNewPrimary failedNodeId, false,
                     0, "complete"⟩,
                 totalFailovers := m.totalFailovers + 1,
                 successfulFailovers := m.successfulFailovers + 1 },
        if m.callbackSet then [(failedNodeId, m.selectNewPrimary failedNodeId)] else []) := by
  simp only [initiateFailover, ha, hp, Bool.not_true, Bool.false_eq_true, if_false]
  rw [executeFailover_of_find find_assign_self]
  simp [setValue_assign]

theorem initiateFailover_of_empty (now : Int) (hp : m.selectNewPrimary failedNodeId = "") :
    m.initiateFailover failedNodeId now =
      ("", { m with failedFailovers :=
              m.failedFailovers + if m.config.autoFailoverEnabled then 1 else 0 }, []) := by
  cases ha : m.config.autoFailoverEnabled <;> simp [initiateFailover, ha, hp]

theorem initiateFailover_of_disabled (ha : m.config.autoFailoverEnabled = false) :
    m.initiateFailover failedNodeId now = ("", m, []) := by
  simp [initiateFailover, ha]

-- `SelectNewPrimary` without its test for no replica, which the search already covers.
theorem selectNewPrimary_eq (m : FailoverManager) (failedNodeId : String) :
    m.selectNewPrimary failedNodeId =
      (((m.ring.getReplicas (bytesOf failedNodeId) m.config.replicationFactor).find?
        fun replica => replica.id != failedNodeId).map Node.id).getD "" := by
  simp only [selectNewPrimary]
  split_ifs with h
  · simp [List.isEmpty_iff.mp h]
  · split <;> rename_i hr <;> simp [hr]

-- The node `SelectNewPrimary` picks is never the failed one.
theorem selectNewPrimary_ne_failed (h : m.selectNewPrimary failedNodeId ≠ "") :
    m.selectNewPrimary failedNodeId ≠ failedNodeId := by
  rw [selectNewPrimary_eq] at h ⊢
  cases hr : (m.ring.getReplicas (bytesOf failedNodeId) m.config.replicationFactor).find?
      fun replica => replica.id != failedNodeId with
  | none => simp [hr] at h
  | some replica => simpa [hr] using List.find?_some hr

-- Every record is a finished failover with another node promoted, and every counted one succeeded.
structure Inv (m : FailoverManager) : Prop where
  records : ∀ p ∈ m.failovers, p.2.failoverId = p.1 ∧ p.2.inProgress = false ∧
    p.2.status = "complete" ∧ p.2.newPrimaryId ≠ p.2.failedNodeId ∧ p.2.newPrimaryId ≠ ""
  counts : m.successfulFailovers = m.totalFailovers
  ring : m.ring.Reachable

theorem Inv.find (hm : m.Inv) {info : FailoverInfo}
    (h : StdMap.find m.failovers failoverId = some info) :
    info.failoverId = failoverId ∧ info.inProgress = false ∧ info.status = "complete" ∧
      info.newPrimaryId ≠ info.failedNodeId ∧ info.newPrimaryId ≠ "" :=
  hm.records _ (StdMap.mem_of_find h)

theorem Inv.cancelFailover (hm : m.Inv) (failoverId : String) :
    m.cancelFailover failoverId = (false, m) := by
  unfold FailoverManager.cancelFailover
  split
  · rename_i info h
    simp [(hm.find h).2.1]
  · rfl

theorem Inv.isFailoverInProgress (hm : m.Inv) (failoverId : String) :
    m.isFailoverInProgress failoverId = false := by
  unfold FailoverManager.isFailoverInProgress
  split
  · rename_i info h
    exact (hm.find h).2.1
  · rfl

theorem Inv.initiateFailover (hm : m.Inv) (failedNodeId : String) (now : Int) :
    (m.initiateFailover failedNodeId now).2.1.Inv := by
  by_cases ha : m.config.autoFailoverEnabled = true
  · by_cases hp : m.selectNewPrimary failedNodeId = ""
    · rw [initiateFailover_of_empty now hp]
      exact ⟨hm.records, hm.counts, hm.ring⟩
    · rw [initiateFailover_of_selected now ha hp]
      refine ⟨fun q hq => ?_, congrArg (· + 1) hm.counts, hm.ring.removeNode failedNodeId⟩
      rcases mem_assign hq with rfl | hq
      · exact ⟨rfl, rfl, rfl, selectNewPrimary_ne_failed hp, hp⟩
      · exact hm.records q hq
  · rw [initiateFailover_of_disabled (Bool.eq_false_iff.mpr ha)]
    exact hm

theorem Inv.step (hm : m.Inv) : ∀ c, (m.step c).1.Inv
  | .initiateFailover failedNodeId now => hm.initiateFailover failedNodeId now
  | .cancelFailover failoverId => by
    simp only [FailoverManager.step, hm.cancelFailover failoverId]
    exact hm
  | .setFailoverCallback => ⟨hm.records, hm.counts, hm.ring⟩
  | .addNode node => ⟨hm.records, hm.counts, hm.ring.addNode node⟩
  | .removeNode nodeId => ⟨hm.records, hm.counts, hm.ring.removeNode nodeId⟩

theorem Inv.run (hm : m.Inv) (cs : List Call) : (m.run cs).Inv := by
  induction cs generalizing m with
  | nil => exact hm
  | cons c cs ih => exact ih (hm.step c)

theorem create_inv (config : Config) {r : HashRing} (hr : r.Reachable) : (create config r).Inv :=
  ⟨fun _ h => absurd h (List.not_mem_nil _), rfl, hr⟩

-- Over every run, whatever else changes the ring: no failover is ever in progress between calls.
theorem failover_never_in_progress (config : Config) {r : HashRing} (hr : r.Reachable)
    (cs : List Call) :
    let m := (create config r).run cs
    m.getActiveFailovers = [] ∧ m.getStats.activeFailovers = 0 ∧
      (∀ failoverId, m.isFailoverInProgress failoverId = false ∧
        m.cancelFailover failoverId = (false, m)) ∧
      (∀ info ∈ m.failovers.map Prod.snd,
        info.status = "complete" ∧ info.newPrimaryId ≠ info.failedNodeId) ∧
      m.getStats.successfulFailovers = m.getStats.totalFailovers := by
  intro m
  have hm : m.Inv := (create_inv config hr).run cs
  refine ⟨?_, ?_, fun id => ⟨hm.isFailoverInProgress id, hm.cancelFailover id⟩, ?_, hm.counts⟩
  · simp only [getActiveFailovers, List.filter_eq_nil_iff, List.mem_map]
    rintro _ ⟨p, hp, rfl⟩
    simp [(hm.records p hp).2.1]
  · simp only [getStats, List.length_eq_zero, List.filter_eq_nil_iff]
    intro p hp
    simp [(hm.records p hp).2.1]
  · simp only [List.mem_map]
    rintro _ ⟨p, hp, rfl⟩
    exact ⟨(hm.records p hp).2.2.1, (hm.records p hp).2.2.2.1⟩

theorem failover_never_in_progress_two_nodes :
    let r := HashRing.create 2 1
    r.Reachable ∧
      let m := (create ⟨"node-1", 2, true⟩ r).run
        [.addNode ⟨"node-1", "10.0.0.1:50051"⟩, .addNode ⟨"node-2", "10.0.0.2:50051"⟩,
          .setFailoverCallback, .initiateFailover "node-2" 1000, .cancelFailover "failover-1000-0000"]
      m.getActiveFailovers = [] ∧ m.getStats.activeFailovers = 0 ∧
        (∀ failoverId, m.isFailoverInProgress failoverId = false ∧
          m.cancelFailover failoverId = (false, m)) ∧
        (∀ info ∈ m.failovers.map Prod.snd,
          info.status = "complete" ∧ info.newPrimaryId ≠ info.failedNodeId) ∧
        m.getStats.successfulFailovers = m.getStats.totalFailovers :=
  ⟨.create 2 1, failover_never_in_progress _ (.create 2 1) _⟩

end FailoverManager

namespace FailoverManager

variable {m : FailoverManager} {failedNodeId : String}

-- `SelectNewPrimary` takes the first owner other than the failed node on the walk from its id.
theorem selectNewPrimary_walk (hr : m.ring.Reachable) :
    m.selectNewPrimary failedNodeId =
      (((m.ring.owners (bytesOf failedNodeId)).take
        (min m.config.replicationFactor m.ring.ownerCount)).find? (· != failedNodeId)).getD "" := by
  have hk := hr.nodesKeyed
  have hlive : ∀ x ∈ (m.ring.owners (bytesOf failedNodeId)).take
      (min m.config.replicationFactor m.ring.ownerCount), (StdMap.find m.ring.nodes x).isSome :=
    fun x hx => HashRing.live_of_mem_owners hr.wellFormed (List.mem_of_mem_take hx)
  rw [selectNewPrimary_eq, HashRing.getReplicas_eq hr.wellFormed hk]
  conv_rhs => rw [← HashRing.map_id_filterMap_find hk hlive]
  rw [List.find?_map]
  rfl

theorem generateFailoverId_ne_empty (m : FailoverManager) (now : Int) :
    m.generateFailoverId now ≠ "" := by
  intro h
  have := congrArg (fun s => s.data.head?) h
  simp [generateFailoverId] at this

theorem initiateFailover_eq_empty_iff (hr : m.ring.Reachable)
    (ha : m.config.autoFailoverEnabled = true) (now : Int) :
    (m.initiateFailover failedNodeId now).1 = "" ↔
      (((m.ring.owners (bytesOf failedNodeId)).take
        (min m.config.replicationFactor m.ring.ownerCount)).find? (· != failedNodeId)).getD "" = "" := by
  rw [← selectNewPrimary_walk hr]
  by_cases h : m.selectNewPrimary failedNodeId = ""
  · simp [initiateFailover_of_empty now h, h]
  · simp [initiateFailover_of_selected now ha h, h, generateFailoverId_ne_empty]

-- `InitiateFailover` succeeds exactly when that walk meets another owner with a non-empty id.
theorem initiateFailover_promotes (hr : m.ring.Reachable) (ha : m.config.autoFailoverEnabled = true)
    (now : Int) :
    let primary := (((m.ring.owners (bytesOf failedNodeId)).take
      (min m.config.replicationFactor m.ring.ownerCount)).find? (· != failedNodeId)).getD ""
    let r := m.initiateFailover failedNodeId now
    (r.1 = "" ↔ primary = "") ∧
      (primary ≠ "" → r.1 = m.generateFailoverId now ∧
        r.2.1.ring = (m.ring.removeNode failedNodeId).2 ∧
        StdMap.find r.2.1.failovers r.1 = some ⟨r.1, failedNodeId, primary, false, 0, "complete"⟩ ∧
        r.2.1.totalFailovers = m.totalFailovers + 1 ∧
        r.2.2 = if m.callbackSet then [(failedNodeId, primary)] else []) := by
  intro primary r
  refine ⟨initiateFailover_eq_empty_iff hr ha now, fun h => ?_⟩
  have hp : m.selectNewPrimary failedNodeId = primary := selectNewPrimary_walk hr
  simp [r, initiateFailover_of_selected now ha (hp.trans_ne h), hp, find_assign_self]

theorem initiateFailover_promotes_two_nodes :
    let r := (((HashRing.create 2 1).addNode ⟨"node-1", "10.0.0.1:50051"⟩).2.addNode
      ⟨"node-2", "10.0.0.2:50051"⟩).2
    let m := create ⟨"node-1", 2, true⟩ r
    (m.ring.Reachable ∧ m.config.autoFailoverEnabled = true) ∧
      let primary := (((m.ring.owners (bytesOf "node-2")).take
        (min m.config.replicationFactor m.ring.ownerCount)).find? (· != "node-2")).getD ""
      let r := m.initiateFailover "node-2" 1000
      (r.1 = "" ↔ primary = "") ∧
        (primary ≠ "" → r.1 = m.generateFailoverId 1000 ∧
          r.2.1.ring = (m.ring.removeNode "node-2").2 ∧
          StdMap.find r.2.1.failovers r.1 = some ⟨r.1, "node-2", primary, false, 0, "complete"⟩ ∧
          r.2.1.totalFailovers = m.totalFailovers + 1 ∧
          r.2.2 = if m.callbackSet then [("node-2", primary)] else []) :=
  have hr := HashRing.Reachable.addNode _ (.addNode _ (.create 2 1))
  ⟨⟨hr, rfl⟩, initiateFailover_promotes hr rfl 1000⟩

-- A list of at least two distinct names holds one other than any given name.
private theorem find?_ne_isSome {l : List String} (hl : l.Nodup) (h2 : 2 ≤ l.length) (x : String) :
    (l.find? (· != x)).isSome := by
  match l, hl, h2 with
  | a :: b :: _, hl, _ =>
    by_cases ha : a = x
    · have hb : b ≠ x := fun hb => (List.nodup_cons.mp hl).1 (by simp [ha, hb])
      simp [ha, hb]
    · simp [ha]

-- With a replication factor of 1, a failover can fail on a ring of many nodes.
theorem initiateFailover_succeeds (hr : m.ring.Reachable) (ha : m.config.autoFailoverEnabled = true)
    (now : Int) :
    let r := (m.initiateFailover failedNodeId now).1
    (2 ≤ m.config.replicationFactor → 2 ≤ m.ring.ownerCount → (∀ q ∈ m.ring.nodes, q.1 ≠ "") →
        r ≠ "") ∧
      (m.config.replicationFactor = 1 → m.ring.ring ≠ [] →
        (r = "" ↔ (m.ring.getNode (bytesOf failedNodeId)).map Node.id = some failedNodeId ∨
          (m.ring.getNode (bytesOf failedNodeId)).map Node.id = some "")) := by
  intro r
  have hpromote : r = "" ↔ _ := initiateFailover_eq_empty_iff hr ha now
  refine ⟨fun hrf hd hids => ?_, fun hrf hne => ?_⟩
  · -- the first two owners met are distinct, so one of them is not the failed node
    set l := (m.ring.owners (bytesOf failedNodeId)).take
      (min m.config.replicationFactor m.ring.ownerCount)
    have hl : l.Nodup := (HashRing.owners_nodup _ _).sublist (List.take_sublist _ _)
    have h2 : 2 ≤ l.length := by
      simp only [l, List.length_take, HashRing.length_owners]
      omega
    obtain ⟨x, hx⟩ := Option.isSome_iff_exists.mp (find?_ne_isSome hl h2 failedNodeId)
    obtain ⟨node, hnode⟩ := Option.isSome_iff_exists.mp
      (HashRing.live_of_mem_owners hr.wellFormed (List.mem_of_mem_take (List.mem_of_find?_eq_some hx)))
    intro h
    have hx' : x = "" := by simpa [hx] using hpromote.mp h
    exact hids _ (StdMap.mem_of_find_eq_some hnode) hx'
  · -- with one replica the walk's first owner is the only candidate
    obtain ⟨node, t, hnode, ht⟩ := HashRing.owners_eq_cons hr (bytesOf failedNodeId) hne
    have hd : 1 ≤ m.ring.ownerCount := by
      rw [← HashRing.length_owners m.ring (bytesOf failedNodeId), ht]
      simp
    rw [hpromote, ht, hrf, Nat.min_eq_left hd, List.take_succ_cons, List.take_zero, hnode]
    by_cases hf : node.id = failedNodeId <;> simp [hf]

theorem initiateFailover_succeeds_two_nodes :
    let r := (((HashRing.create 2 1).addNode ⟨"node-1", "10.0.0.1:50051"⟩).2.addNode
      ⟨"node-2", "10.0.0.2:50051"⟩).2
    let m := create ⟨"node-1", 1, true⟩ r
    (m.ring.Reachable ∧ m.config.autoFailoverEnabled = true) ∧
      let r := (m.initiateFailover "node-2" 1000).1
      (2 ≤ m.config.replicationFactor → 2 ≤ m.ring.ownerCount → (∀ q ∈ m.ring.nodes, q.1 ≠ "") →
          r ≠ "") ∧
        (m.config.replicationFactor = 1 → m.ring.ring ≠ [] →
          (r = "" ↔ (m.ring.getNode (bytesOf "node-2")).map Node.id = some "node-2" ∨
            (m.ring.getNode (bytesOf "node-2")).map Node.id = some "")) :=
  have hr := HashRing.Reachable.addNode _ (.addNode _ (.create 2 1))
  ⟨⟨hr, rfl⟩, initiateFailover_succeeds hr rfl 1000⟩

-- The padded counter reads back as the counter, whatever the padding.
theorem decimalValue_zeroPadded (w n : Nat) :
    IStream.decimalValue (bytesOf (zeroPadded w n)) = n := by
  obtain ⟨l, hl, -, -, hv⟩ := IStream.bytesOf_toString n
  have hz : ∀ k, IStream.decimalValue ((List.replicate k '0').flatMap String.utf8EncodeChar ++ l) =
      IStream.decimalValue l := by
    intro k
    induction k with
    | zero => rfl
    | succ k ih =>
      simpa [IStream.decimalValue, List.replicate_succ] using ih
  have hl' : (toString n).data.flatMap String.utf8EncodeChar = l := hl
  simp only [zeroPadded, bytesOf, String.toList, String.data_append, List.flatMap_append, hl', hz, hv]

theorem length_zeroPadded {n : Nat} (h : n < 10000) : (zeroPadded 4 n).data.length = 4 := by
  have hr : (toString n).length ≤ 4 := Nat.repr_length n 4 (by decide) (by norm_num; omega)
  simp only [zeroPadded, String.data_append, List.length_append, List.length_replicate]
  exact Nat.sub_add_cancel hr

-- The count is a failover id's last four characters.
theorem generateFailoverId_ne {m m' : FailoverManager}
    (h : m.totalFailovers % 10000 ≠ m'.totalFailovers % 10000) (now now' : Int) :
    m.generateFailoverId now ≠ m'.generateFailoverId now' := by
  intro he
  have hd := congrArg String.data he
  simp only [generateFailoverId, String.data_append] at hd
  have hs := (List.append_inj' hd (by
    rw [length_zeroPadded (Nat.mod_lt _ (by decide)), length_zeroPadded (Nat.mod_lt _ (by decide))])).2
  have hv := congrArg (fun l : List Char => IStream.decimalValue (l.flatMap String.utf8EncodeChar)) hs
  rw [← decimalValue_zeroPadded 4 (m.totalFailovers % 10000),
    ← decimalValue_zeroPadded 4 (m'.totalFailovers % 10000)] at h
  exact h hv

-- A second `InitiateFailover` for the same node files a second record under its own id.
theorem initiateFailover_repeat (now₁ now₂ : Int)
    (h₁ : (m.initiateFailover failedNodeId now₁).1 ≠ "") :
    let r₁ := m.initiateFailover failedNodeId now₁
    let r₂ := r₁.2.1.initiateFailover failedNodeId now₂
    r₂.1 ≠ r₁.1 ∧ StdMap.find r₂.2.1.failovers r₁.1 = StdMap.find r₁.2.1.failovers r₁.1 ∧
      (r₂.1 ≠ "" → ((StdMap.find r₂.2.1.failovers r₂.1).map fun info =>
        (info.failedNodeId, info.status)) = some (failedNodeId, "complete")) := by
  intro r₁ r₂
  -- the first call succeeded, so it counted one failover
  have ha : m.config.autoFailoverEnabled = true := by
    by_contra ha
    exact h₁ (by simp [r₁, initiateFailover_of_disabled (Bool.eq_false_iff.mpr ha)])
  have hp₁ : m.selectNewPrimary failedNodeId ≠ "" := fun hp =>
    h₁ (by simp [r₁, initiateFailover_of_empty now₁ hp])
  have hr₁ := initiateFailover_of_selected now₁ ha hp₁
  have ht : r₁.2.1.totalFailovers = m.totalFailovers + 1 := by simp only [r₁, hr₁]
  have hid : r₁.1 = m.generateFailoverId now₁ := by simp only [r₁, hr₁]
  have ha₁ : r₁.2.1.config.autoFailoverEnabled = true := by simp only [r₁, hr₁]; exact ha
  by_cases hp₂ : r₁.2.1.selectNewPrimary failedNodeId = ""
  · -- the second call finds no primary and changes no record
    have hr₂ := initiateFailover_of_empty now₂ hp₂
    simp only [r₂, hr₂]
    exact ⟨Ne.symm h₁, by simp, fun h => absurd rfl h⟩
  · have hr₂ := initiateFailover_of_selected now₂ ha₁ hp₂
    have hne : r₁.2.1.generateFailoverId now₂ ≠ m.generateFailoverId now₁ :=
      generateFailoverId_ne (by rw [ht]; omega) now₂ now₁
    simp only [r₂, hr₂, hid]
    exact ⟨hne, find_assign_ne (Ne.symm hne), fun _ => by simp [find_assign_self]⟩

-- Two failovers of the same node in the same millisecond: the second promotes the node left.
theorem initiateFailover_repeat_two_nodes :
    let r := (((HashRing.create 2 1).addNode ⟨"node-1", "10.0.0.1:50051"⟩).2.addNode
      ⟨"node-2", "10.0.0.2:50051"⟩).2
    let m := create ⟨"node-1", 2, true⟩ r
    (m.initiateFailover "node-2" 1000).1 ≠ "" ∧
      (let r₁ := m.initiateFailover "node-2" 1000
       let r₂ := r₁.2.1.initiateFailover "node-2" 1000
       r₂.1 ≠ r₁.1 ∧ StdMap.find r₂.2.1.failovers r₁.1 = StdMap.find r₁.2.1.failovers r₁.1 ∧
        (r₂.1 ≠ "" → ((StdMap.find r₂.2.1.failovers r₂.1).map fun info =>
          (info.failedNodeId, info.status)) = some ("node-2", "complete"))) :=
  ⟨by decide, initiateFailover_repeat 1000 1000 (by decide)⟩

end FailoverManager

structure CatchupRequest where
  nodeId : String
  keysOwned : List Bytes

structure CatchupEntry where
  key : Bytes
  value : Bytes
  ttlSeconds : Int
  version : Int
  timestamp : Int
  isDeleted : Bool
deriving DecidableEq, Repr

namespace FailoverServiceImpl

-- The entry the callback writes for an engine entry.
def catchupEntry (key : Bytes) (e : CacheEntry) : CatchupEntry :=
  ⟨key, e.value, e.ttlSeconds.getD 0, e.version, e.createdAtMs, false⟩

-- `RequestCatchup`: the entries written to the stream, in `for_each` order.
def requestCatchup (storage : ShardedHashTable) (now : Int) (request : CatchupRequest) :
    List CatchupEntry :=
  (storage.forEach now).filterMap fun e =>
    let shouldSend := request.keysOwned.any (· == e.1)
    if shouldSend || request.keysOwned.isEmpty then some (catchupEntry e.1 e.2) else none

@[simp] theorem key_catchupEntry (key : Bytes) (e : CacheEntry) : (catchupEntry key e).key = key :=
  rfl

theorem map_key_filterMap (p : Bytes → Bool) : ∀ l : List (Bytes × CacheEntry),
    (l.filterMap fun e => if p e.1 then some (catchupEntry e.1 e.2) else none).map
      CatchupEntry.key = (l.map Prod.fst).filter p
  | [] => rfl
  | e :: l => by
    by_cases h : p e.1 <;> simp [List.filter_cons, h, map_key_filterMap p l]

-- The catchup stream holds the live keys the requester owns, with their current values.
theorem requestCatchup_streams_owned (n maxMemory overhead : Nat) (hash : Bytes → Nat)
    (hn : 0 < n) (ops : List Op) (now : Int) (request : CatchupRequest) :
    let t := (ShardedHashTable.create n maxMemory overhead hash hn).exec ops
    let out := requestCatchup t now request
    (out.map CatchupEntry.key).Nodup ∧
      ∀ c, c ∈ out ↔ (c.key ∈ request.keysOwned ∨ request.keysOwned = []) ∧
        ∃ e, t.find c.key = some e ∧ e.isExpired now = false ∧ c = catchupEntry c.key e := by
  intro t out
  have hp : t.Placed := (ShardedHashTable.exec_lruInvariant ops _ []
    (ShardedHashTable.create_invariant n maxMemory overhead hash hn) (.create [] _ _ _ _ hn)).placed
  let sent : Bytes → Bool := fun k => request.keysOwned.any (· == k) || request.keysOwned.isEmpty
  have hsent : ∀ k, sent k = true ↔ (k ∈ request.keysOwned ∨ request.keysOwned = []) := fun k => by
    simp only [sent, Bool.or_eq_true, List.any_eq_true, beq_iff_eq, exists_eq_right,
      List.isEmpty_iff]
  have hout : out = (t.forEach now).filterMap fun e =>
      if sent e.1 then some (catchupEntry e.1 e.2) else none := rfl
  refine ⟨?_, fun c => ?_⟩
  · rw [hout, map_key_filterMap]
    exact (ShardedHashTable.forEach_keys_nodup hp now).filter _
  · rw [hout, List.mem_filterMap]
    constructor
    · rintro ⟨⟨k, e⟩, he, hc⟩
      split_ifs at hc with hs
      obtain rfl := Option.some.inj hc
      obtain ⟨hf, hx⟩ := (ShardedHashTable.mem_forEach hp now k e).mp he
      exact ⟨(hsent k).mp hs, e, hf, hx, rfl⟩
    · rintro ⟨hs, e, hf, hx, hc⟩
      refine ⟨(c.key, e), (ShardedHashTable.mem_forEach hp now _ _).mpr ⟨hf, hx⟩, ?_⟩
      rw [if_pos ((hsent c.key).mpr hs)]
      exact congrArg some hc.symm

theorem requestCatchup_streams_owned_two_shards :
    0 < 2 ∧
      let t := (ShardedHashTable.create 2 64 0 List.length (by decide)).exec
        [.set [1] (.init [1] [7] none 0), .set [2] (.init [2] [9] none 0)]
      let out := requestCatchup t 5 ⟨"node-2", [[2]]⟩
      (out.map CatchupEntry.key).Nodup ∧
        ∀ c, c ∈ out ↔ (c.key ∈ [[2]] ∨ [[2]] = ([] : List Bytes)) ∧
          ∃ e, t.find c.key = some e ∧ e.isExpired 5 = false ∧ c = catchupEntry c.key e :=
  ⟨by decide, requestCatchup_streams_owned 2 64 0 List.length (by decide) _ 5 ⟨"node-2", [[2]]⟩⟩

end FailoverServiceImpl

end Failover

end DistCache.Cluster
