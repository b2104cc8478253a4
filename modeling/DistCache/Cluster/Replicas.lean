import DistCache.Cluster.RingInvariant
import Mathlib.Data.List.Dedup
import Mathlib.Data.List.Infix

namespace DistCache.Cluster

namespace HashRing

inductive Reachable : HashRing → Prop
  | create (replicationFactor virtualNodesPerNode : Nat) :
      Reachable (HashRing.create replicationFactor virtualNodesPerNode)
  | addNode {r : HashRing} (node : Node) : Reachable r → Reachable (r.addNode node).2
  | removeNode {r : HashRing} (nodeId : String) : Reachable r → Reachable (r.removeNode nodeId).2

-- `nodes_` keeps each node under its own id.
def NodesKeyed (r : HashRing) : Prop := ∀ p ∈ r.nodes, p.2.id = p.1

variable {r : HashRing}

theorem NodesKeyed.addNode (hk : r.NodesKeyed) (node : Node) : (r.addNode node).2.NodesKeyed := by
  unfold HashRing.addNode
  split
  · exact hk
  · intro p hp
    rcases StdMap.mem_insert _ hp with rfl | hp
    · rfl
    · exact hk p hp

theorem NodesKeyed.removeNode (hk : r.NodesKeyed) (nodeId : String) :
    (r.removeNode nodeId).2.NodesKeyed := by
  unfold HashRing.removeNode
  split
  · exact fun p hp => hk p (StdMap.mem_erase.mp hp).1
  · exact hk

theorem Reachable.wellFormed (hr : r.Reachable) : r.WellFormed := by
  induction hr with
  | create rf v => exact create_wellFormed rf v
  | addNode node _ ih => exact ih.addNode node
  | removeNode nodeId _ ih => exact ih.removeNode nodeId

theorem Reachable.nodesKeyed (hr : r.Reachable) : r.NodesKeyed := by
  induction hr with
  | create => exact fun _ h => absurd h (List.not_mem_nil _)
  | addNode node _ ih => exact ih.addNode node
  | removeNode nodeId _ ih => exact ih.removeNode nodeId

-- `ring_` lists its positions in ascending order, as `std::map` keeps them.
def Ascending (r : HashRing) : Prop := r.ring.Pairwise fun a b => a.1 < b.1

theorem uint64_lt_of_not_lt {k k' : UInt64} (h₁ : ¬ k < k') (h₂ : k ≠ k') : k' < k := by
  have : k.toBitVec ≠ k'.toBitVec := fun h => h₂ (UInt64.eq_of_toBitVec_eq h)
  simp only [UInt64.lt_def] at *
  bv_omega

theorem pairwise_insert {m : List (UInt64 × String)} (h : m.Pairwise fun a b => a.1 < b.1)
    (k : UInt64) (v : String) : (StdMap.insert (· < ·) m k v).Pairwise fun a b => a.1 < b.1 := by
  induction m with
  | nil => simp [StdMap.insert]
  | cons q m ih =>
    obtain ⟨hq, hm⟩ := List.pairwise_cons.mp h
    simp only [StdMap.insert]
    split_ifs with h₁ h₂
    · have hk : k < q.1 := by simpa using h₁
      refine List.pairwise_cons.mpr ⟨fun a ha => ?_, h⟩
      rcases List.mem_cons.mp ha with rfl | ha
      · exact hk
      · have := hq a ha
        simp only [UInt64.lt_def] at *
        bv_omega
    · exact List.pairwise_cons.mpr ⟨fun a ha => h₂ ▸ hq a ha, hm⟩
    · have hk : q.1 < k := uint64_lt_of_not_lt (by simpa using h₁) h₂
      refine List.pairwise_cons.mpr ⟨fun a ha => ?_, ih hm⟩
      rcases StdMap.mem_insert _ ha with rfl | ha
      · exact hk
      · exact hq a ha

theorem pairwise_foldl_insert (f : Nat → UInt64) (v : String) :
    ∀ (is : List Nat) {ring : List (UInt64 × String)}, ring.Pairwise (fun a b => a.1 < b.1) →
      (is.foldl (fun ring i => StdMap.insert (· < ·) ring (f i) v) ring).Pairwise
        fun a b => a.1 < b.1
  | [], _, h => h
  | _ :: is, _, h => pairwise_foldl_insert f v is (pairwise_insert h _ _)

theorem pairwise_foldl_erase (f : Nat → UInt64) :
    ∀ (is : List Nat) {ring : List (UInt64 × String)}, ring.Pairwise (fun a b => a.1 < b.1) →
      (is.foldl (fun ring i => StdMap.erase ring (f i)) ring).Pairwise fun a b => a.1 < b.1
  | [], _, h => h
  | _ :: is, _, h => pairwise_foldl_erase f is (h.filter _)

theorem Ascending.addNode (ha : r.Ascending) (node : Node) : (r.addNode node).2.Ascending := by
  unfold HashRing.addNode
  split
  · exact ha
  · exact pairwise_foldl_insert _ _ _ ha

theorem Ascending.removeNode (ha : r.Ascending) (nodeId : String) :
    (r.removeNode nodeId).2.Ascending := by
  unfold HashRing.removeNode
  split
  · exact pairwise_foldl_erase _ _ ha
  · exact ha

theorem Reachable.ascending (hr : r.Reachable) : r.Ascending := by
  induction hr with
  | create => exact List.Pairwise.nil
  | addNode node _ ih => exact ih.addNode node
  | removeNode nodeId _ ih => exact ih.removeNode nodeId

-- The walk the hashing describes: the positions not below the key's hash, then the others.
def clockwise (r : HashRing) (key : Bytes) : List (UInt64 × String) :=
  r.ring.filter (fun p => hash key ≤ p.1) ++ r.ring.filter (fun p => p.1 < hash key)

-- On ascending positions, `lower_bound(h)` splits the ring into those below `h` and the others.
theorem lowerBound_split (h : UInt64) : ∀ {l : List (UInt64 × String)},
    l.Pairwise (fun a b => a.1 < b.1) →
      l.drop (StdMap.lowerBound (· < ·) l h) = l.filter (fun p => h ≤ p.1) ∧
        l.take (StdMap.lowerBound (· < ·) l h) = l.filter (fun p => p.1 < h)
  | [], _ => ⟨rfl, rfl⟩
  | a :: l, hl => by
    obtain ⟨ha, hl⟩ := List.pairwise_cons.mp hl
    have ih := lowerBound_split h hl
    simp only [StdMap.lowerBound, List.findIdx_cons] at ih ⊢
    by_cases hah : a.1 < h
    · have hle : ¬ h ≤ a.1 := fun hle => by
        simp only [UInt64.lt_def, UInt64.le_def] at hah hle
        bv_omega
      simp [hah, hle, ih]
    · have hge : ∀ b ∈ l, h ≤ b.1 ∧ ¬ b.1 < h := fun b hb => by
        have := ha b hb
        simp only [UInt64.lt_def, UInt64.le_def] at *
        constructor <;> bv_omega
      have hle : h ≤ a.1 := by
        simp only [UInt64.lt_def, UInt64.le_def] at hah ⊢
        bv_omega
      simp only [hah, decide_False, Bool.not_false, cond_true, List.drop_zero, List.take_zero]
      rw [List.filter_cons_of_pos (by simpa using hle), List.filter_cons_of_neg (by simpa using hah),
        List.filter_eq_self.mpr fun b hb => by simpa using (hge b hb).1,
        List.filter_eq_nil_iff.mpr fun b hb => by simpa using (hge b hb).2]
      exact ⟨rfl, rfl⟩

theorem fromKey_eq_clockwise (ha : r.Ascending) (key : Bytes) : r.fromKey key = r.clockwise key := by
  obtain ⟨hd, ht⟩ := lowerBound_split (hash key) ha
  simp only [fromKey, clockwise, hd, ht]

theorem fromKey_perm (r : HashRing) (key : Bytes) : (r.fromKey key).Perm r.ring :=
  List.perm_append_comm.trans (by rw [List.take_append_drop])

-- As many distinct owners are met from any key as the ring has.
theorem length_firstOwners (r : HashRing) (key : Bytes) :
    (((r.fromKey key).map Prod.snd).reverse.dedup.reverse).length =
      (r.ring.map Prod.snd).dedup.length := by
  rw [List.length_reverse]
  exact ((List.reverse_perm _).trans ((fromKey_perm r key).map Prod.snd)).dedup.length_eq

theorem reverse_dedup_reverse_cons (x : String) (l : List String) :
    ∃ t, (x :: l).reverse.dedup.reverse = x :: t := by
  obtain ⟨t, -, ht⟩ := List.sublist_suffix_of_union l.reverse [x]
  refine ⟨t.reverse, ?_⟩
  rw [List.reverse_cons, List.dedup_append, List.dedup_cons_of_not_mem (List.not_mem_nil x),
    List.dedup_nil, ← ht, List.reverse_append]
  rfl

section Collect

variable {nodes : List (String × Node)} (hk : ∀ p ∈ nodes, p.2.id = p.1)
include hk

theorem id_of_find {x : String} {node : Node} (h : StdMap.find nodes x = some node) : node.id = x :=
  hk _ (StdMap.mem_of_find_eq_some h)

-- Ids that all name nodes of the table, turned into those nodes and back.
theorem map_id_filterMap_find {l : List String} (hl : ∀ x ∈ l, (StdMap.find nodes x).isSome) :
    (l.filterMap (StdMap.find nodes)).map Node.id = l := by
  induction l with
  | nil => rfl
  | cons x l ih =>
    rw [List.forall_mem_cons] at hl
    obtain ⟨node, hn⟩ := Option.isSome_iff_exists.mp hl.1
    simp only [List.filterMap_cons, hn, List.map_cons, id_of_find hk hn, ih hl.2]

omit hk in
theorem filterMap_find_map_id {acc : List Node}
    (ha : ∀ node ∈ acc, StdMap.find nodes node.id = some node) :
    (acc.map Node.id).filterMap (StdMap.find nodes) = acc := by
  induction acc with
  | nil => rfl
  | cons node acc ih =>
    rw [List.forall_mem_cons] at ha
    simp only [List.map_cons, List.filterMap_cons, ha.1, ih ha.2]

-- The loop, started with `acc` kept and at most `n` to keep.
theorem collectReplicas_eq {n : Nat} {l : List String} (hl : ∀ x ∈ l, (StdMap.find nodes x).isSome) :
    ∀ {acc : List Node}, (∀ node ∈ acc, StdMap.find nodes node.id = some node) → acc.length ≤ n →
      collectReplicas nodes n acc l =
        ((l.reverse ∪ (acc.map Node.id).reverse).reverse.take n).filterMap (StdMap.find nodes) := by
  induction l with
  | nil =>
    intro acc ha hn
    rw [collectReplicas, List.reverse_nil, List.nil_union, List.reverse_reverse,
      List.take_of_length_le (by simpa using hn), filterMap_find_map_id ha]
  | cons x l ih =>
    intro acc ha hn
    rw [List.forall_mem_cons] at hl
    have hunion : (x :: l).reverse ∪ (acc.map Node.id).reverse =
        l.reverse ∪ List.insert x (acc.map Node.id).reverse := by
      simp only [List.reverse_cons, List.union_def, List.foldr_append, List.foldr_cons, List.foldr_nil]
    rw [collectReplicas, hunion]
    by_cases hfull : acc.length < n
    · rw [if_pos hfull]
      by_cases hx : x ∈ acc.map Node.id
      · have hany : (acc.any fun node => node.id == x) = true := by simpa using hx
        rw [if_pos hany, List.insert_of_mem (List.mem_reverse.mpr hx)]
        exact ih hl.2 ha hn
      · have hany : (acc.any fun node => node.id == x) = false := by simpa using hx
        obtain ⟨node, hnode⟩ := Option.isSome_iff_exists.mp hl.1
        have hid := id_of_find hk hnode
        rw [if_neg (by simp [hany]), hnode, @ih hl.2 (acc ++ [node]) ?_ (by simp; omega),
          List.insert_of_not_mem (by simpa using hx)]
        · simp [hid]
        · intro node' hn'
          rcases List.mem_append.mp hn' with hn' | hn'
          · exact ha node' hn'
          · rw [List.mem_singleton.mp hn', hid, hnode]
    · rw [if_neg hfull]
      obtain ⟨t, -, ht⟩ := List.sublist_suffix_of_union l.reverse
        (List.insert x (acc.map Node.id).reverse)
      obtain ⟨v, hv⟩ := List.suffix_insert x (acc.map Node.id).reverse
      rw [← ht, ← hv, ← List.append_assoc, List.reverse_append, List.reverse_reverse,
        List.take_left' (by simp; omega), filterMap_find_map_id ha]

end Collect

-- On a well-formed ring, `get_replicas` is the first `min n d` distinct owners met from the key.
theorem getReplicas_eq (hw : r.WellFormed) (hk : r.NodesKeyed) (key : Bytes) (n : Nat) :
    r.getReplicas key n =
      ((((r.fromKey key).map Prod.snd).reverse.dedup.reverse).take
        (min n (r.ring.map Prod.snd).dedup.length)).filterMap (StdMap.find r.nodes) := by
  have hlive : ∀ x ∈ (r.fromKey key).map Prod.snd, (StdMap.find r.nodes x).isSome := by
    intro x hx
    obtain ⟨p, hp, rfl⟩ := List.mem_map.mp hx
    exact hw.live p ((fromKey_perm r key).subset hp)
  have hd : (r.ring.map Prod.snd).dedup.length ≤ r.nodes.length := by
    rw [← List.length_map r.nodes Prod.fst]
    refine (List.subperm_of_subset (List.nodup_dedup _) fun x hx => ?_).length_le
    obtain ⟨p, hp, rfl⟩ := List.mem_map.mp (List.mem_dedup.mp hx)
    obtain ⟨node, hn⟩ := Option.isSome_iff_exists.mp (hw.live p hp)
    exact List.mem_map.mpr ⟨_, StdMap.mem_of_find_eq_some hn, rfl⟩
  have hlen := length_firstOwners r key
  unfold getReplicas
  split_ifs with h
  · rcases Bool.or_eq_true_iff.mp h with h | h
    · simp [List.isEmpty_iff.mp h, fromKey]
    · simp [beq_iff_eq.mp h]
  · have hnil : ∀ l : List String, l ∪ [] = l.dedup := fun l => by
      simpa using (List.dedup_append l []).symm
    rw [@collectReplicas_eq _ hk _ _ hlive [] (by simp) (Nat.zero_le _), List.map_nil,
      List.reverse_nil, hnil]
    congr 1
    exact List.take_eq_take.mpr (by rw [hlen]; omega)

-- For every ring `add_node` and `remove_node` build, what `get_replicas` returns.
theorem getReplicas_first_distinct_owners (hr : r.Reachable) (key : Bytes) (n : Nat) :
    let d := (r.ring.map Prod.snd).dedup.length
    r.ring.Pairwise (fun a b => a.1 < b.1) ∧
      r.getReplicas key n =
        ((((r.clockwise key).map Prod.snd).reverse.dedup.reverse).take (min n d)).filterMap
          (StdMap.find r.nodes) ∧
      ((r.getReplicas key n).map Node.id).Nodup ∧
      (1 ≤ n → r.ring ≠ [] → (r.getReplicas key n).head? = r.getNode key) ∧
      ∀ m, n ≤ m → r.getReplicas key n <+: r.getReplicas key m := by
  intro d
  have hw := hr.wellFormed
  have hk := hr.nodesKeyed
  have hlive : ∀ x ∈ ((r.fromKey key).map Prod.snd).reverse.dedup.reverse,
      (StdMap.find r.nodes x).isSome := by
    intro x hx
    obtain ⟨p, hp, rfl⟩ := List.mem_map.mp (List.mem_reverse.mp
      (List.mem_dedup.mp (List.mem_reverse.mp hx)))
    exact hw.live p ((fromKey_perm r key).subset hp)
  refine ⟨hr.ascending, fromKey_eq_clockwise hr.ascending key ▸ getReplicas_eq hw hk key n, ?_,
    fun hn hne => ?_, fun m hm => ?_⟩
  · rw [getReplicas_eq hw hk, map_id_filterMap_find hk fun x hx => hlive x (List.mem_of_mem_take hx)]
    exact (List.nodup_reverse.mpr (List.nodup_dedup _)).sublist (List.take_sublist _ _)
  · obtain ⟨p, ps, hps⟩ : ∃ p ps, r.fromKey key = p :: ps := by
      cases h : r.fromKey key with
      | nil => exact absurd (List.Perm.nil_eq (h ▸ fromKey_perm r key)).symm hne
      | cons p ps => exact ⟨p, ps, rfl⟩
    obtain ⟨t, ht⟩ := reverse_dedup_reverse_cons p.2 (ps.map Prod.snd)
    have hd : 1 ≤ d := by
      show 1 ≤ (r.ring.map Prod.snd).dedup.length
      rw [← length_firstOwners r key, hps, List.map_cons, ht]
      simp
    obtain ⟨node, hnode⟩ := Option.isSome_iff_exists.mp (hw.live p (by
      rw [← (fromKey_perm r key).mem_iff, hps]
      exact List.mem_cons_self _ _))
    obtain ⟨k, hk'⟩ : ∃ k, min n d = k + 1 := ⟨min n d - 1, by omega⟩
    rw [getReplicas_eq hw hk, hps, List.map_cons, ht, hk', List.take_succ_cons, List.filterMap_cons,
      hnode, getNode, hps]
    simp [hnode]
  · rw [getReplicas_eq hw hk, getReplicas_eq hw hk]
    exact (List.take_prefix_take_left _ (by omega)).filterMap _

theorem getReplicas_first_distinct_owners_two_nodes :
    let r := (((HashRing.create 3 2).addNode ⟨"node-1", "127.0.0.1:50051"⟩).2.addNode
      ⟨"node-2", "127.0.0.1:50052"⟩).2
    let d := (r.ring.map Prod.snd).dedup.length
    r.Reachable ∧
      (r.ring.Pairwise (fun a b => a.1 < b.1) ∧
        r.getReplicas [1] 2 =
          ((((r.clockwise [1]).map Prod.snd).reverse.dedup.reverse).take (min 2 d)).filterMap
            (StdMap.find r.nodes) ∧
        ((r.getReplicas [1] 2).map Node.id).Nodup ∧
        (1 ≤ 2 → r.ring ≠ [] → (r.getReplicas [1] 2).head? = r.getNode [1]) ∧
        ∀ m, 2 ≤ m → r.getReplicas [1] 2 <+: r.getReplicas [1] m) :=
  have hr := Reachable.addNode _ (Reachable.addNode _ (Reachable.create 3 2))
  ⟨hr, getReplicas_first_distinct_owners hr [1] 2⟩

end HashRing

end DistCache.Cluster
