import DistCache.Cluster.RingInvariant

namespace DistCache.Cluster

namespace StdMap

variable {κ ν : Type}

-- `lower_bound` lands on the first entry that passes the test.
theorem head?_drop_findIdx (q : κ × ν → Bool) :
    ∀ m : List (κ × ν), (m.drop (m.findIdx q)).head? = m.find? q
  | [] => rfl
  | a :: m => by
    cases h : q a <;> simp [List.findIdx_cons, h, head?_drop_findIdx q m]

-- The entry `lower_bound` lands on, or `begin()` when it reaches `end()`.
theorem head?_rotate (q : κ × ν → Bool) (m : List (κ × ν)) :
    (m.drop (m.findIdx q) ++ m.take (m.findIdx q)).head? = (m.find? q).or m.head? := by
  rw [List.head?_append, head?_drop_findIdx]
  cases h : m.find? q with
  | none =>
    have hq : m.findIdx q = m.length := List.findIdx_eq_length.mpr fun x hx => by
      simpa using List.find?_eq_none.mp h x hx
    rw [hq, List.take_length]
  | some p => rfl

variable [DecidableEq κ] (lt : κ → κ → Bool) (k : κ) (v : ν) (q : κ → Bool)

-- An insertion changes the first entry that passes a test on keys only by being that entry.
theorem find?_insert : ∀ m : List (κ × ν),
    (insert lt m k v).find? (fun p => q p.1) = some (k, v) ∨
      (insert lt m k v).find? (fun p => q p.1) = m.find? fun p => q p.1
  | [] => by cases h : q k <;> simp [insert, h]
  | (k', v') :: m => by
    simp only [insert]
    split_ifs with hlt heq
    · cases h : q k <;> simp [h]
    · subst heq
      cases h : q k <;> simp [h]
    · cases h : q k'
      · simpa [h] using find?_insert m
      · simp [h]

theorem head?_insert : ∀ m : List (κ × ν),
    (insert lt m k v).head? = some (k, v) ∨ (insert lt m k v).head? = m.head?
  | [] => .inl rfl
  | (k', v') :: m => by
    simp only [insert]
    split_ifs <;> simp

-- Where a walk starts after an insertion: at the inserted entry, or where it started before.
theorem start_insert (m : List (κ × ν)) :
    ((insert lt m k v).find? (fun p => q p.1)).or (insert lt m k v).head? = some (k, v) ∨
      ((insert lt m k v).find? (fun p => q p.1)).or (insert lt m k v).head? =
        (m.find? fun p => q p.1).or m.head? := by
  rcases find?_insert lt k v q m with h | h <;> rw [h]
  · exact .inl rfl
  · cases m.find? fun p => q p.1 with
    | none => simpa using head?_insert lt k v m
    | some p => exact .inr rfl

end StdMap

namespace HashRing

variable {r : HashRing}

theorem getNode_eq_head? (r : HashRing) (key : Bytes) :
    r.getNode key = (r.fromKey key).head?.bind fun p => StdMap.find r.nodes p.2 := by
  unfold getNode
  split <;> simp_all

theorem fromKey_head? (r : HashRing) (key : Bytes) :
    (r.fromKey key).head? =
      (r.ring.find? fun p => !decide (p.1 < hash key)).or r.ring.head? :=
  StdMap.head?_rotate _ r.ring

-- The loop of `add_node` moves the start of a walk only onto one of the new node's virtual nodes.
private theorem start_foldl_insert (f : Nat → UInt64) (id : String) (q : UInt64 → Bool) :
    ∀ (n : Nat) (ring : List (UInt64 × String)),
      (∃ pos, (((List.range n).foldl (fun ring i => StdMap.insert (· < ·) ring (f i) id)
          ring).find? (fun p => q p.1)).or
          ((List.range n).foldl (fun ring i => StdMap.insert (· < ·) ring (f i) id) ring).head? =
          some (pos, id)) ∨
        (((List.range n).foldl (fun ring i => StdMap.insert (· < ·) ring (f i) id)
          ring).find? (fun p => q p.1)).or
          ((List.range n).foldl (fun ring i => StdMap.insert (· < ·) ring (f i) id) ring).head? =
          (ring.find? fun p => q p.1).or ring.head?
  | 0, _ => .inr rfl
  | n + 1, ring => by
    simp only [List.range_succ, List.foldl_append, List.foldl_cons, List.foldl_nil]
    rcases StdMap.start_insert (· < ·) (f n) id q
      ((List.range n).foldl (fun ring i => StdMap.insert (· < ·) ring (f i) id) ring) with h | h
    · exact .inl ⟨f n, h⟩
    · rw [h]
      exact start_foldl_insert f id q n ring

-- Adding a node moves a key only onto the added node, on every ring.
theorem addNode_getNode (r : HashRing) (node : Node) (key : Bytes) :
    (r.addNode node).2.getNode key = r.getNode key ∨
      (r.addNode node).2.getNode key = some node := by
  unfold addNode
  split
  · exact .inl rfl
  · simp only [getNode_eq_head?, fromKey_head?]
    rcases start_foldl_insert (fun i => hash (vnodeKey node.id i)) node.id
      (fun pos => !decide (pos < hash key)) r.virtualNodesPerNode r.ring with ⟨pos, h⟩ | h
    · rw [h]
      exact .inr (StdMap.find_insert_self _ _ _ _)
    · rw [h]
      cases (r.ring.find? fun p => !decide (p.1 < hash key)).or r.ring.head? with
      | none => exact .inl rfl
      | some p =>
        by_cases hp : p.2 = node.id
        · exact .inr (by simp [hp, StdMap.find_insert_self])
        · exact .inl (by simp [StdMap.find_insert_ne _ hp])

-- A ring of one virtual node sends every key to its node.
theorem getNode_of_ring_eq_singleton {p : UInt64 × String} (h : r.ring = [p]) (key : Bytes) :
    r.getNode key = StdMap.find r.nodes p.2 := by
  rw [getNode_eq_head?, fromKey_head?, h]
  by_cases hq : p.1 < hash key <;> simp [hq]

theorem getNode_of_ring_eq_nil (h : r.ring = []) (key : Bytes) : r.getNode key = none := by
  simp [getNode, fromKey, h]

-- Two node ids whose first virtual keys hash alike: removing one leaves every key without owner.
theorem remove_node_drops_other_owner (key : Bytes) :
    let x : Node := ⟨"aocb7200ctgvo2", "10.0.0.1:50051"⟩
    let y : Node := ⟨"bercc000de0a63", "10.0.0.2:50051"⟩
    let r := ((HashRing.create 3 1).addNode x).2.addNode y |>.2
    r.getNode key = some y ∧ (r.removeNode x.id).1 = true ∧
      (r.removeNode x.id).2.getNode key = none := by
  intro x y r
  have hring : r.ring = [(hash (vnodeKey y.id 0), y.id)] := by decide
  refine ⟨?_, by decide, getNode_of_ring_eq_nil (by decide) key⟩
  rw [getNode_of_ring_eq_singleton hring]
  decide

-- The same two nodes: once `y` is removed, `x` is a member with no position.
theorem colliding_nodes_break_count (key : Bytes) :
    let x : Node := ⟨"aocb7200ctgvo2", "10.0.0.1:50051"⟩
    let y : Node := ⟨"bercc000de0a63", "10.0.0.2:50051"⟩
    let r := ((HashRing.create 3 1).addNode x).2.addNode y |>.2
    r.virtualNodeCount = 1 ∧ r.virtualNodesPerNode * r.nodeCount = 2 ∧
      (r.removeNode y.id).2.nodes = [(x.id, x)] ∧ (r.removeNode y.id).2.ring = [] ∧
      (r.removeNode y.id).2.getNode key = none := by
  intro x y r
  have hring : (r.removeNode y.id).2.ring = [] := by decide
  exact ⟨by decide, by decide, by decide, hring, getNode_of_ring_eq_nil hring key⟩

end HashRing

end DistCache.Cluster
