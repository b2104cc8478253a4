import DistCache.Cluster.Disruption

namespace DistCache.Cluster

-- A run is a sequence of the events below: each part of the worker that holds `nodes_mutex_`.

namespace StdMap

variable {κ ν : Type} [DecidableEq κ]

-- `m[k] = v` on a key the map holds: the entry is replaced where it stands.
def setValue (m : List (κ × ν)) (k : κ) (v : ν) : List (κ × ν) :=
  m.map fun p => if p.1 = k then (k, v) else p

variable {m : List (κ × ν)} {k k' : κ} {v : ν}

theorem find_setValue_self : find (setValue m k v) k = (find m k).map fun _ => v := by
  induction m with
  | nil => rfl
  | cons p m ih =>
    by_cases h : p.1 = k
    · simp [setValue, h]
    · simpa [setValue, h] using ih

theorem find_setValue_ne (h : k' ≠ k) : find (setValue m k v) k' = find m k' := by
  induction m with
  | nil => rfl
  | cons p m ih =>
    obtain ⟨a, b⟩ := p
    by_cases hp : a = k
    · subst hp
      simpa [setValue, Ne.symm h] using ih
    · by_cases hq : a = k'
      · subst hq
        simp [setValue, hp]
      · simpa [setValue, hp, hq] using ih

theorem mem_setValue {p : κ × ν} (hp : p ∈ setValue m k v) : p = (k, v) ∨ p ∈ m := by
  obtain ⟨q, hq, rfl⟩ := List.mem_map.mp hp
  by_cases h : q.1 = k
  · simp [h]
  · simp [h, hq]

theorem mem_of_find (h : find m k = some v) : (k, v) ∈ m := by
  induction m with
  | nil => simp at h
  | cons p m ih =>
    obtain ⟨a, b⟩ := p
    rw [find_cons] at h
    split_ifs at h with hp
    · obtain rfl := Option.some.inj h
      subst hp
      exact List.mem_cons_self _ _
    · exact List.mem_cons_of_mem _ (ih h)

variable {ν' : Type} {P : ν → ν' → Prop} {m' : List (κ × ν')} {v' : ν'}

theorem Rel.setValue (h : Rel P m m') (k : κ) (hv : P v v') :
    Rel P (setValue m k v) (setValue m' k v') := by
  unfold Rel at h ⊢
  induction h with
  | nil => exact .nil
  | @cons p p' m m' hp h ih =>
    obtain ⟨k₁, v₁⟩ := p
    obtain ⟨k₂, v₂⟩ := p'
    obtain ⟨rfl, h₁⟩ : k₁ = k₂ ∧ P v₁ v₂ := hp
    by_cases hk : k₁ = k
    · exact .cons (by simp [hk, hv]) ih
    · exact .cons (by simp [hk, h₁]) ih

theorem Rel.find_of_find (h : Rel P m m') (hk : StdMap.find m k = some v) :
    ∃ v', StdMap.find m' k = some v' ∧ P v v' := by
  have hr := h.find k
  rw [hk] at hr
  generalize StdMap.find m' k = b at hr ⊢
  cases hr with
  | some hp => exact ⟨_, rfl, hp⟩

omit [DecidableEq κ] in
theorem Rel.map_fst (h : Rel P m m') : m.map Prod.fst = m'.map Prod.fst := by
  unfold Rel at h
  induction h with
  | nil => rfl
  | cons hp _ ih => simp [hp.1, ih]

end StdMap

namespace Membership

inductive NodeStatus
  | healthy
  | unhealthy
  | dead
deriving DecidableEq, Repr

structure NodeInfo where
  node : Node
  status : NodeStatus
  consecutiveFailures : Nat
deriving DecidableEq, Repr

-- `MembershipManager::Config`; the check outcomes are the events' arguments.
structure Config where
  selfNodeId : String
  failureThreshold : UInt32 := 3
  deadThreshold : UInt32 := 6

-- The manager without its mutexes, thread and channels, with the round's `nodes_to_check`.
structure MembershipManager where
  config : Config
  nodes : List (String × NodeInfo)
  nodesToCheck : List NodeInfo

inductive Event
  | addNode (node : Node)
  | removeNode (nodeId : String)
  | snapshot
  | check (healthy : Bool)

namespace MembershipManager

def create (config : Config) : MembershipManager := ⟨config, [], []⟩

def addNode (m : MembershipManager) (node : Node) : MembershipManager :=
  if (StdMap.find m.nodes node.id).isSome then m
  else { m with nodes := (node.id, ⟨node, .healthy, 0⟩) :: m.nodes }

def removeNode (m : MembershipManager) (nodeId : String) : MembershipManager :=
  { m with nodes := StdMap.erase m.nodes nodeId }

-- `UpdateNodeStatus`, with `nodes_mutex_` held: the state, and the callback's invocations.
def updateNodeStatus (m : MembershipManager) (nodeId : String) (newStatus : NodeStatus) :
    MembershipManager × List (Node × NodeStatus) :=
  match StdMap.find m.nodes nodeId with
  | none => (m, [])
  | some info =>
    if info.status = newStatus then (m, [])
    else
      ({ m with nodes := StdMap.setValue m.nodes nodeId { info with status := newStatus } },
        [(info.node, newStatus)])

-- The worker's loop body under `nodes_mutex_`, for a peer whose check answered `healthy`.
def recordCheck (m : MembershipManager) (nodeId : String) (healthy : Bool) :
    MembershipManager × List (Node × NodeStatus) :=
  match StdMap.find m.nodes nodeId with
  | none => (m, [])
  | some info =>
    if healthy then
      let info' := { info with consecutiveFailures := 0 }
      let m := { m with nodes := StdMap.setValue m.nodes nodeId info' }
      if info.status ≠ .healthy then m.updateNodeStatus nodeId .healthy else (m, [])
    else
      let failures := (info.consecutiveFailures + 1) % 4294967296
      let info' := { info with consecutiveFailures := failures }
      let m := { m with nodes := StdMap.setValue m.nodes nodeId info' }
      if m.config.deadThreshold.toNat ≤ failures then
        if info.status ≠ .dead then m.updateNodeStatus nodeId .dead else (m, [])
      else if m.config.failureThreshold.toNat ≤ failures then
        if info.status ≠ .unhealthy ∧ info.status ≠ .dead then
          m.updateNodeStatus nodeId .unhealthy
        else (m, [])
      else (m, [])

-- One event: the state after it and the callback's invocations.
def step (m : MembershipManager) : Event → MembershipManager × List (Node × NodeStatus)
  | .addNode node => (m.addNode node, [])
  | .removeNode nodeId => (m.removeNode nodeId, [])
  | .snapshot =>
    if m.nodesToCheck.isEmpty then
      let peers := (m.nodes.filter fun p => p.2.node.id != m.config.selfNodeId).map Prod.snd
      ({ m with nodesToCheck := peers }, [])
    else (m, [])
  | .check healthy =>
    match m.nodesToCheck with
    | [] => (m, [])
    | info :: rest => { m with nodesToCheck := rest }.recordCheck info.node.id healthy

def run (m : MembershipManager) : List Event → MembershipManager
  | [] => m
  | e :: es => (m.step e).1.run es

end MembershipManager

-- What the detector is for: per peer, the checks failed since its last successful one.

def classify (failureThreshold deadThreshold failures : Nat) : NodeStatus :=
  if failures < failureThreshold then .healthy
  else if failures < deadThreshold then .unhealthy
  else .dead

structure Tally where
  counts : List (String × Nat)
  pending : List String

namespace Tally

def step (self : String) (a : Tally) : Event → Tally
  | .addNode node =>
    if (StdMap.find a.counts node.id).isSome then a
    else { a with counts := (node.id, 0) :: a.counts }
  | .removeNode nodeId => { a with counts := StdMap.erase a.counts nodeId }
  | .snapshot =>
    if a.pending.isEmpty then { a with pending := (a.counts.map Prod.fst).filter (· != self) }
    else a
  | .check healthy =>
    match a.pending with
    | [] => a
    | nodeId :: rest =>
      { counts := match StdMap.find a.counts nodeId with
          | some c => StdMap.setValue a.counts nodeId (if healthy then 0 else c + 1)
          | none => a.counts,
        pending := rest }

def run (self : String) (a : Tally) : List Event → Tally
  | [] => a
  | e :: es => (a.step self e).run self es

end Tally

-- The counter and the status the worker leaves after a check of a peer it holds.
def failuresAfter (info : NodeInfo) (healthy : Bool) : Nat :=
  if healthy then 0 else (info.consecutiveFailures + 1) % 4294967296

def statusAfter (config : Config) (info : NodeInfo) (healthy : Bool) : NodeStatus :=
  if healthy then .healthy
  else if config.deadThreshold.toNat ≤ failuresAfter info false then .dead
  else if config.failureThreshold.toNat ≤ failuresAfter info false then
    if info.status = .dead then .dead else .unhealthy
  else info.status

-- The entry after a check: the same node, the new status and counter.
def checkedInfo (config : Config) (info : NodeInfo) (healthy : Bool) : NodeInfo :=
  ⟨info.node, statusAfter config info healthy, failuresAfter info healthy⟩

@[simp] theorem checkedInfo_node (config : Config) (info : NodeInfo) (healthy : Bool) :
    (checkedInfo config info healthy).node = info.node := rfl

namespace MembershipManager

variable {m : MembershipManager} {nodeId : String} {info : NodeInfo}

theorem setValue_setValue {κ ν : Type} [DecidableEq κ] (l : List (κ × ν)) (k : κ) (v w : ν) :
    StdMap.setValue (StdMap.setValue l k v) k w = StdMap.setValue l k w := by
  simp only [StdMap.setValue, List.map_map]
  congr 1
  funext p
  by_cases h : p.1 = k <;> simp [h]

theorem updateNodeStatus_setValue (h : StdMap.find m.nodes nodeId = some info)
    (info' : NodeInfo) (s : NodeStatus) :
    ({ m with nodes := StdMap.setValue m.nodes nodeId info' }).updateNodeStatus nodeId s =
      if info'.status = s then ({ m with nodes := StdMap.setValue m.nodes nodeId info' }, [])
      else ({ m with nodes := StdMap.setValue m.nodes nodeId { info' with status := s } },
        [(info'.node, s)]) := by
  simp only [updateNodeStatus, StdMap.find_setValue_self, h, Option.map_some', setValue_setValue]

-- The callback is invoked once, with the new status, exactly when the status changes.
theorem recordCheck_of_find (h : StdMap.find m.nodes nodeId = some info) (healthy : Bool) :
    m.recordCheck nodeId healthy =
      ({ m with nodes := StdMap.setValue m.nodes nodeId (checkedInfo m.config info healthy) },
        if info.status = (checkedInfo m.config info healthy).status then []
        else [(info.node, (checkedInfo m.config info healthy).status)]) := by
  obtain ⟨node, status, failures⟩ := info
  simp only [checkedInfo, recordCheck, h, updateNodeStatus_setValue h, statusAfter, failuresAfter]
  -- with the status known, only the two thresholds are left to split on
  cases healthy <;> cases status <;>
    simp only [Bool.false_eq_true, if_true, if_false, ne_eq, reduceCtorEq, not_true_eq_false,
      not_false_eq_true, and_true, and_false, true_and, ite_self] <;>
    split_ifs <;> first | rfl | contradiction

theorem recordCheck_of_find_eq_none (h : StdMap.find m.nodes nodeId = none) (healthy : Bool) :
    m.recordCheck nodeId healthy = (m, []) := by
  simp only [recordCheck, h]

-- What one event does to the entries.
theorem step_cases (m : MembershipManager) (e : Event) :
    ((m.step e).2 = [] ∧ ∀ k i, StdMap.find (m.step e).1.nodes k = some i →
        StdMap.find m.nodes k = some i ∨ StdMap.find m.nodes k = none) ∨
    ∃ healthy info rest i, e = .check healthy ∧ m.nodesToCheck = info :: rest ∧
      StdMap.find m.nodes info.node.id = some i ∧
      (m.step e).1.nodes = StdMap.setValue m.nodes info.node.id (checkedInfo m.config i healthy) ∧
      (m.step e).2 = if i.status = (checkedInfo m.config i healthy).status then []
        else [(i.node, (checkedInfo m.config i healthy).status)] := by
  cases e with
  | addNode node =>
    refine .inl ⟨rfl, fun k i hk => ?_⟩
    simp only [step, addNode] at hk
    split_ifs at hk with h
    · exact .inl hk
    · rw [StdMap.find_cons] at hk
      split_ifs at hk with hkn
      · exact .inr (by simpa [← hkn] using h)
      · exact .inl hk
  | removeNode nodeId =>
    refine .inl ⟨rfl, fun k i hk => .inl ?_⟩
    simp only [step, removeNode] at hk
    by_cases hkn : k = nodeId
    · rw [hkn, StdMap.find_erase_self] at hk
      cases hk
    · rwa [StdMap.find_erase_ne hkn] at hk
  | snapshot =>
    refine .inl ⟨?_, fun k i hk => .inl ?_⟩
    · simp only [step]
      split_ifs <;> rfl
    · simp only [step] at hk
      split_ifs at hk <;> exact hk
  | check healthy =>
    cases hn : m.nodesToCheck with
    | nil => exact .inl ⟨by simp [step, hn], fun k i hk => .inl (by simpa [step, hn] using hk)⟩
    | cons info rest =>
      cases hm : StdMap.find m.nodes info.node.id with
      | none =>
        have hr := recordCheck_of_find_eq_none (m := { m with nodesToCheck := rest }) hm healthy
        exact .inl ⟨by simp [step, hn, hr], fun k i hk => .inl (by simpa [step, hn, hr] using hk)⟩
      | some i =>
        have hr := recordCheck_of_find (m := { m with nodesToCheck := rest }) hm healthy
        exact .inr ⟨healthy, info, rest, i, rfl, rfl, hm, by simp [step, hn, hr],
          by simp [step, hn, hr]⟩

-- An event invokes the callback at most once.
theorem length_step_calls_le (m : MembershipManager) (e : Event) : (m.step e).2.length ≤ 1 := by
  rcases step_cases m e with ⟨h, -⟩ | ⟨_, _, _, _, _, _, _, _, h⟩
  · simp [h]
  · rw [h]
    split_ifs <;> simp

end MembershipManager

theorem classify_eq_healthy {ft dt n : Nat} : classify ft dt n = .healthy ↔ n < ft := by
  unfold classify
  split_ifs <;> simp_all

theorem classify_ne_dead {ft dt n : Nat} (h : n < dt) : classify ft dt n ≠ .dead := by
  unfold classify
  split_ifs <;> simp_all

theorem classify_unhealthy {ft dt n : Nat} (h₁ : ft ≤ n) (h₂ : n < dt) :
    classify ft dt n = .unhealthy := by
  rw [classify, if_neg (by omega), if_pos h₂]

theorem classify_dead {ft dt n : Nat} (h₁ : ft ≤ n) (h₂ : dt ≤ n) : classify ft dt n = .dead := by
  rw [classify, if_neg (by omega), if_neg (by omega)]

-- Once the `uint32_t` counter wraps, the tally is past the dead threshold.
theorem statusAfter_failure {config : Config} {info : NodeInfo} {c : Nat}
    (hft : 0 < config.failureThreshold.toNat)
    (hlt : config.failureThreshold.toNat < config.deadThreshold.toNat)
    (hc : info.consecutiveFailures = c % 4294967296)
    (hs : info.status = classify config.failureThreshold.toNat config.deadThreshold.toNat c) :
    statusAfter config info false =
      classify config.failureThreshold.toNat config.deadThreshold.toNat (c + 1) := by
  have hdt : config.deadThreshold.toNat < 4294967296 := config.deadThreshold.toBitVec.isLt
  have hf : failuresAfter info false = (c + 1) % 4294967296 := by
    simp only [failuresAfter, hc, Bool.false_eq_true, if_false]
    omega
  simp only [statusAfter, hf, Bool.false_eq_true, if_false]
  by_cases hw : c + 1 < 4294967296
  · rw [Nat.mod_eq_of_lt hw, hs]
    rcases Nat.lt_or_ge (c + 1) config.failureThreshold.toNat with h₁ | h₁
    · rw [if_neg (by omega), if_neg (by omega), classify_eq_healthy.mpr (by omega),
        classify_eq_healthy.mpr h₁]
    rcases Nat.lt_or_ge (c + 1) config.deadThreshold.toNat with h₂ | h₂
    · rw [if_neg (by omega), if_pos h₁, if_neg (classify_ne_dead (by omega)),
        classify_unhealthy h₁ h₂]
    · rw [if_pos h₂, classify_dead h₁ h₂]
  · -- The counter wrapped: the tally is past the dead threshold, before and after.
    rw [hs, classify_dead (by omega) (by omega), classify_dead (by omega) (by omega)]
    simp

-- An entry agrees with a tally `c`: its counter is `c` modulo 2^32, its status the class of `c`.
def Agrees (config : Config) (info : NodeInfo) (c : Nat) : Prop :=
  info.consecutiveFailures = c % 4294967296 ∧
    info.status = classify config.failureThreshold.toNat config.deadThreshold.toNat c

-- The manager simulates the tally: the same peers in the same order with agreeing entries.
structure Simulates (config : Config) (m : MembershipManager) (a : Tally) : Prop where
  config_eq : m.config = config
  rel : StdMap.Rel (Agrees config) m.nodes a.counts
  ids : ∀ p ∈ m.nodes, p.2.node.id = p.1
  pending : m.nodesToCheck.map (fun info => info.node.id) = a.pending
  self_pending : config.selfNodeId ∉ a.pending

section Thresholds

variable {config : Config} {m : MembershipManager} {a : Tally}

theorem agrees_added (hft : 0 < config.failureThreshold.toNat) (node : Node) :
    Agrees config ⟨node, .healthy, 0⟩ 0 :=
  ⟨rfl, (classify_eq_healthy.mpr hft).symm⟩

theorem Agrees.after (hft : 0 < config.failureThreshold.toNat)
    (hlt : config.failureThreshold.toNat < config.deadThreshold.toNat)
    {info : NodeInfo} {c : Nat} (h : Agrees config info c) (healthy : Bool) :
    Agrees config (checkedInfo config info healthy) (if healthy then 0 else c + 1) := by
  cases healthy
  · refine ⟨?_, statusAfter_failure hft hlt h.1 h.2⟩
    simp only [checkedInfo, failuresAfter, h.1, Bool.false_eq_true, if_false]
    omega
  · exact agrees_added hft info.node

theorem simulates_create (config : Config) :
    Simulates config (MembershipManager.create config) ⟨[], []⟩ :=
  ⟨rfl, .nil, fun _ h => absurd h (List.not_mem_nil _), rfl, List.not_mem_nil _⟩

-- The ids of the peers a round snapshots are the keys but the self node's.
theorem snapshot_ids (self : String) (l : List (String × NodeInfo))
    (hids : ∀ p ∈ l, p.2.node.id = p.1) :
    ((l.filter fun p => p.2.node.id != self).map Prod.snd).map (fun info => info.node.id) =
      (l.map Prod.fst).filter (· != self) := by
  induction l with
  | nil => rfl
  | cons p l ih =>
    rw [List.forall_mem_cons] at hids
    by_cases hp : p.1 = self <;> simp [List.filter_cons, hids.1, hp, ih hids.2]

theorem Simulates.step (hft : 0 < config.failureThreshold.toNat)
    (hlt : config.failureThreshold.toNat < config.deadThreshold.toNat)
    (h : Simulates config m a) (e : Event) :
    Simulates config (m.step e).1 (a.step config.selfNodeId e) := by
  obtain ⟨hc, hr, hids, hp, hs⟩ := h
  cases e with
  | addNode node =>
    simp only [MembershipManager.step, MembershipManager.addNode, Tally.step, hr.isSome_find]
    split_ifs
    · exact ⟨hc, hr, hids, hp, hs⟩
    · exact ⟨hc, .cons ⟨rfl, agrees_added hft node⟩ hr,
        List.forall_mem_cons.mpr ⟨rfl, hids⟩, hp, hs⟩
  | removeNode nodeId =>
    refine ⟨hc, hr.erase nodeId, fun p hm => hids p (StdMap.mem_erase.mp hm).1, hp, hs⟩
  | snapshot =>
    cases hn : m.nodesToCheck with
    | nil =>
      have hpe : a.pending = [] := by simpa [hn] using hp.symm
      simp only [MembershipManager.step, Tally.step, hn, hpe, List.isEmpty_nil, if_true]
      refine ⟨hc, hr, hids, ?_, by simp⟩
      rw [hc, snapshot_ids _ _ hids, hr.map_fst]
    | cons info rest =>
      have hpe : a.pending ≠ [] := by simp [← hp, hn]
      simp only [MembershipManager.step, Tally.step, hn, List.isEmpty_cons, List.isEmpty_iff, hpe,
        Bool.false_eq_true, if_false]
      exact ⟨hc, hr, hids, hp, hs⟩
  | check healthy =>
    cases hn : m.nodesToCheck with
    | nil =>
      have hpe : a.pending = [] := by simpa [hn] using hp.symm
      simp only [MembershipManager.step, Tally.step, hn, hpe]
      exact ⟨hc, hr, hids, hp, hs⟩
    | cons info rest =>
      have hpe : a.pending = info.node.id :: rest.map fun info => info.node.id := by
        simpa [hn] using hp.symm
      have hs' : config.selfNodeId ∉ rest.map fun info => info.node.id := by
        rw [hpe] at hs
        exact fun h => hs (List.mem_cons_of_mem _ h)
      simp only [MembershipManager.step, Tally.step, hn, hpe]
      have hf := hr.find info.node.id
      cases hm : StdMap.find m.nodes info.node.id <;>
        cases hfa : StdMap.find a.counts info.node.id <;> rw [hm, hfa] at hf <;> cases hf
      case none.none =>
        simp only [MembershipManager.recordCheck, hm]
        exact ⟨hc, hr, hids, rfl, hs'⟩
      case some.some i c hag =>
        rw [MembershipManager.recordCheck_of_find (m := { m with nodesToCheck := rest }) hm]
        have hid : i.node.id = info.node.id := hids _ (StdMap.mem_of_find hm)
        refine ⟨hc, hr.setValue _ (hc ▸ hag.after hft hlt healthy), ?_, rfl, hs'⟩
        intro p hm'
        rcases StdMap.mem_setValue hm' with rfl | hm'
        · exact hid
        · exact hids p hm'

theorem Simulates.run (hft : 0 < config.failureThreshold.toNat)
    (hlt : config.failureThreshold.toNat < config.deadThreshold.toNat) (es : List Event) :
    ∀ {m a}, Simulates config m a →
      Simulates config (m.run es) (a.run config.selfNodeId es) := by
  induction es with
  | nil => exact id
  | cons e es ih => exact fun h => ih (h.step hft hlt e)

-- The self node is never checked, so no event changes its entry.
theorem Simulates.step_self (h : Simulates config m a) (e : Event) {i i' : NodeInfo}
    (hi : StdMap.find m.nodes config.selfNodeId = some i)
    (hi' : StdMap.find (m.step e).1.nodes config.selfNodeId = some i') : i' = i := by
  rcases MembershipManager.step_cases m e with ⟨-, hk⟩ | ⟨_, info, _, _, rfl, hn, -, hnodes, -⟩
  · rcases hk _ _ hi' with hk | hk <;> rw [hi] at hk
    · exact (Option.some.inj hk).symm
    · cases hk
  · have hne : config.selfNodeId ≠ info.node.id := fun heq =>
      h.self_pending (by rw [← h.pending, hn, heq]; exact List.mem_cons_self _ _)
    rw [hnodes, StdMap.find_setValue_ne hne, hi] at hi'
    exact (Option.some.inj hi').symm

theorem Simulates.mem_step_calls (h : Simulates config m a) (e : Event) (node : Node)
    (s : NodeStatus) :
    (node, s) ∈ (m.step e).2 ↔ ∃ i i', StdMap.find m.nodes node.id = some i ∧
      StdMap.find (m.step e).1.nodes node.id = some i' ∧ i'.node = node ∧
      i.status ≠ i'.status ∧ i'.status = s := by
  rcases MembershipManager.step_cases m e with
    ⟨hcalls, hk⟩ | ⟨healthy, info, _, j, rfl, -, hj, hnodes, hcalls⟩
  · simp only [hcalls, List.not_mem_nil, false_iff, not_exists, not_and]
    intro i i' hi hi' _ hne _
    rcases hk _ _ hi' with hk | hk <;> rw [hi] at hk <;> cases hk
    exact hne rfl
  · have hid : j.node.id = info.node.id := h.ids _ (StdMap.mem_of_find hj)
    rw [hcalls, hnodes]
    constructor
    · intro hm
      split_ifs at hm with hst
      · cases hm
      · obtain ⟨rfl, rfl⟩ := Prod.mk.inj (List.mem_singleton.mp hm)
        refine ⟨j, checkedInfo m.config j healthy, hid ▸ hj, ?_, rfl, hst, rfl⟩
        rw [hid, StdMap.find_setValue_self, hj]
        rfl
    · rintro ⟨i, i', hi, hi', rfl, hne, rfl⟩
      by_cases hk : i'.node.id = info.node.id
      · rw [hk, StdMap.find_setValue_self, hj, Option.map_some'] at hi'
        rw [hk, hj] at hi
        cases hi
        cases hi'
        simp [hne]
      · rw [StdMap.find_setValue_ne hk, hi] at hi'
        cases hi'
        exact absurd rfl hne

-- A check moves the tally by one, so a healthy peer is never found dead after one event.
theorem Simulates.step_not_healthy_to_dead (hft : 0 < config.failureThreshold.toNat)
    (hlt : config.failureThreshold.toNat < config.deadThreshold.toNat)
    (h : Simulates config m a) (e : Event) {k : String} {i i' : NodeInfo}
    (hi : StdMap.find m.nodes k = some i) (hi' : StdMap.find (m.step e).1.nodes k = some i')
    (hh : i.status = .healthy) : i'.status ≠ .dead := by
  rcases MembershipManager.step_cases m e with ⟨-, hk⟩ | ⟨healthy, info, _, j, rfl, -, hj, hnodes, -⟩
  · rcases hk _ _ hi' with hk | hk <;> rw [hi] at hk <;> cases hk
    rw [hh]
    exact nofun
  · by_cases hkn : k = info.node.id
    · subst hkn
      rw [hnodes, StdMap.find_setValue_self, hj, Option.map_some'] at hi'
      rw [hj] at hi
      cases hi
      cases hi'
      obtain ⟨c, -, hag⟩ := h.rel.find_of_find hj
      have hc : c < config.failureThreshold.toNat := classify_eq_healthy.mp (hag.2 ▸ hh)
      rw [h.config_eq, (hag.after hft hlt healthy).2]
      exact classify_ne_dead (by split <;> omega)
    · rw [hnodes, StdMap.find_setValue_ne hkn, hi] at hi'
      cases hi'
      rw [hh]
      exact nofun

end Thresholds

-- From the start, after any events, the manager refines the tally and the callback reports changes.
theorem membership_state_machine (config : Config) (hft : 0 < config.failureThreshold.toNat)
    (hlt : config.failureThreshold.toNat < config.deadThreshold.toNat) (es : List Event)
    (e : Event) :
    let m := (MembershipManager.create config).run es
    let a := Tally.run config.selfNodeId ⟨[], []⟩ es
    (∀ k, (StdMap.find m.nodes k).isSome = (StdMap.find a.counts k).isSome) ∧
    (∀ k info c, StdMap.find m.nodes k = some info → StdMap.find a.counts k = some c →
      info.status = classify config.failureThreshold.toNat config.deadThreshold.toNat c) ∧
    (∀ info info', StdMap.find m.nodes config.selfNodeId = some info →
      StdMap.find (m.step e).1.nodes config.selfNodeId = some info' →
      info'.status = info.status) ∧
    (m.step e).2.length ≤ 1 ∧
    (∀ node s, (node, s) ∈ (m.step e).2 ↔ ∃ info info', StdMap.find m.nodes node.id = some info ∧
      StdMap.find (m.step e).1.nodes node.id = some info' ∧ info'.node = node ∧
      info.status ≠ info'.status ∧ info'.status = s) ∧
    (∀ k info info', StdMap.find m.nodes k = some info →
      StdMap.find (m.step e).1.nodes k = some info' →
      info.status = .healthy → info'.status ≠ .dead) := by
  intro m a
  have h : Simulates config m a := Simulates.run hft hlt es (simulates_create config)
  refine ⟨fun k => (h.rel.isSome_find k).symm, fun k info c hi hc => ?_,
    fun info info' hi hi' => by rw [h.step_self e hi hi'], MembershipManager.length_step_calls_le m e,
    h.mem_step_calls e, fun k info info' => h.step_not_healthy_to_dead hft hlt e⟩
  obtain ⟨c', hc', hag⟩ := h.rel.find_of_find hi
  rw [hc] at hc'
  cases hc'
  exact hag.2

theorem membership_state_machine_defaults :
    let config : Config := { selfNodeId := "node-0" }
    0 < config.failureThreshold.toNat ∧
    config.failureThreshold.toNat < config.deadThreshold.toNat ∧
    let m := (MembershipManager.create config).run [.addNode ⟨"node-1", "10.0.0.2:50051"⟩, .snapshot]
    let a := Tally.run config.selfNodeId ⟨[], []⟩ [.addNode ⟨"node-1", "10.0.0.2:50051"⟩, .snapshot]
    let e := Event.check false
    (∀ k, (StdMap.find m.nodes k).isSome = (StdMap.find a.counts k).isSome) ∧
    (∀ k info c, StdMap.find m.nodes k = some info → StdMap.find a.counts k = some c →
      info.status = classify config.failureThreshold.toNat config.deadThreshold.toNat c) ∧
    (∀ info info', StdMap.find m.nodes config.selfNodeId = some info →
      StdMap.find (m.step e).1.nodes config.selfNodeId = some info' →
      info'.status = info.status) ∧
    (m.step e).2.length ≤ 1 ∧
    (∀ node s, (node, s) ∈ (m.step e).2 ↔ ∃ info info', StdMap.find m.nodes node.id = some info ∧
      StdMap.find (m.step e).1.nodes node.id = some info' ∧ info'.node = node ∧
      info.status ≠ info'.status ∧ info'.status = s) ∧
    (∀ k info info', StdMap.find m.nodes k = some info →
      StdMap.find (m.step e).1.nodes k = some info' →
      info.status = .healthy → info'.status ≠ .dead) :=
  ⟨by decide, by decide, membership_state_machine _ (by decide) (by decide) _ _⟩

end Membership

end DistCache.Cluster
