import DistCache.Cluster.Placement

namespace DistCache.Cluster

namespace HashRing

variable {r : HashRing}

-- Every virtual node sits where one of its own node's virtual keys hashes.
structure WellFormed (r : HashRing) : Prop where
  placed : ∀ p ∈ r.ring, ∃ i < r.virtualNodesPerNode, p.1 = hash (vnodeKey p.2 i)
  live : ∀ p ∈ r.ring, (StdMap.find r.nodes p.2).isSome

section Loops

variable {f : Nat → UInt64}

-- The loop of `add_node` puts down the node's virtual nodes and keeps every other one.
private theorem mem_foldl_insert {v : String} :
    ∀ (n : Nat) (ring : List (UInt64 × String)) {p : UInt64 × String},
      p ∈ (List.range n).foldl (fun ring i => StdMap.insert (· < ·) ring (f i) v) ring →
        p ∈ ring ∨ ∃ i < n, p = (f i, v)
  | 0, _, _, hp => .inl hp
  | n + 1, ring, p, hp => by
    rw [List.range_succ, List.foldl_append, List.foldl_cons, List.foldl_nil] at hp
    rcases StdMap.mem_insert _ hp with rfl | hp
    · exact .inr ⟨n, Nat.lt_succ_self n, rfl⟩
    · rcases mem_foldl_insert n ring hp with hp | ⟨i, hi, rfl⟩
      · exact .inl hp
      · exact .inr ⟨i, Nat.lt_succ_of_lt hi, rfl⟩

private theorem foldl_insert_ne_nil {v : String} :
    ∀ (n : Nat) (ring : List (UInt64 × String)), ring ≠ [] ∨ 0 < n →
      (List.range n).foldl (fun ring i => StdMap.insert (· < ·) ring (f i) v) ring ≠ []
  | 0, _, h => h.resolve_right (Nat.lt_irrefl 0)
  | n + 1, ring, _ => by
    rw [List.range_succ, List.foldl_append, List.foldl_cons, List.foldl_nil]
    exact StdMap.insert_ne_nil _ _ _ _

-- The loop of `remove_node` drops exactly the virtual nodes at the node's positions.
private theorem mem_foldl_erase :
    ∀ (n : Nat) (ring : List (UInt64 × String)) {p : UInt64 × String},
      p ∈ (List.range n).foldl (fun ring i => StdMap.erase ring (f i)) ring ↔
        p ∈ ring ∧ ∀ i < n, p.1 ≠ f i
  | 0, _, _ => by simp
  | n + 1, ring, p => by
    rw [List.range_succ, List.foldl_append, List.foldl_cons, List.foldl_nil, StdMap.mem_erase,
      mem_foldl_erase n ring]
    constructor
    · rintro ⟨⟨hp, hi⟩, hn⟩
      refine ⟨hp, fun i hi' => ?_⟩
      rcases Nat.lt_succ_iff_lt_or_eq.mp hi' with h | rfl
      · exact hi i h
      · exact hn
    · rintro ⟨hp, hi⟩
      exact ⟨⟨hp, fun i h => hi i (Nat.lt_succ_of_lt h)⟩, hi n (Nat.lt_succ_self n)⟩

end Loops

theorem create_wellFormed (replicationFactor virtualNodesPerNode : Nat) :
    (HashRing.create replicationFactor virtualNodesPerNode).WellFormed :=
  ⟨fun _ h => absurd h (List.not_mem_nil _), fun _ h => absurd h (List.not_mem_nil _)⟩

theorem WellFormed.addNode (hw : r.WellFormed) (node : Node) : (r.addNode node).2.WellFormed := by
  unfold HashRing.addNode
  split
  · exact hw
  · refine ⟨fun p hp => ?_, fun p hp => ?_⟩ <;> rcases mem_foldl_insert _ _ hp with hp | ⟨i, hi, rfl⟩
    · exact hw.placed p hp
    · exact ⟨i, hi, rfl⟩
    · by_cases he : p.2 = node.id
      · simp [he, StdMap.find_insert_self]
      · rw [StdMap.find_insert_ne _ he]
        exact hw.live p hp
    · simp [StdMap.find_insert_self]

-- A removed node takes all its virtual nodes with it, whatever other nodes were added since.
theorem WellFormed.removeNode (hw : r.WellFormed) (nodeId : String) :
    (r.removeNode nodeId).2.WellFormed := by
  unfold HashRing.removeNode
  split
  · refine ⟨fun p hp => ?_, fun p hp => ?_⟩ <;> obtain ⟨hp, hne⟩ := (mem_foldl_erase _ _).mp hp
    · exact hw.placed p hp
    · have hid : p.2 ≠ nodeId := by
        rintro he
        obtain ⟨i, hi, hpos⟩ := hw.placed p hp
        exact hne i hi (by rw [← he]; exact hpos)
      rw [StdMap.find_erase_ne hid]
      exact hw.live p hp
  · exact hw

theorem addNode_ring_ne_nil (node : Node)
    (h : r.ring ≠ [] ∨ (0 < r.virtualNodesPerNode ∧ StdMap.find r.nodes node.id = none)) :
    (r.addNode node).2.ring ≠ [] := by
  unfold HashRing.addNode
  split
  · rename_i hs
    rcases h with h | ⟨-, hn⟩
    · exact h
    · simp [hn] at hs
  · exact foldl_insert_ne_nil _ _ (h.imp_right And.left)

-- A well-formed ring with a virtual node answers every key with a node.
theorem WellFormed.getNode_isSome (hw : r.WellFormed) (hne : r.ring ≠ []) (key : Bytes) :
    (r.getNode key).isSome := by
  have hmem : ∀ p ∈ r.fromKey key, p ∈ r.ring := by
    intro p hp
    rcases List.mem_append.mp hp with hp | hp
    · exact List.mem_of_mem_drop hp
    · exact List.mem_of_mem_take hp
  unfold getNode
  cases hk : r.fromKey key with
  | nil =>
    have := List.take_append_drop (StdMap.lowerBound (· < ·) r.ring (hash key)) r.ring
    simp only [fromKey, List.append_eq_nil] at hk
    rw [hk.1, hk.2] at this
    exact absurd this.symm hne
  | cons p _ => exact hw.live p (hmem p (by rw [hk]; exact List.mem_cons_self _ _))

end HashRing

end DistCache.Cluster
