import DistCache.Cluster.RingInvariant

namespace DistCache.Client

open Cluster

-- `ClientConfig`, with the fields routing reads.
structure ClientConfig where
  nodeAddresses : List String
  maxReplicas : Nat := 2
  virtualNodesPerNode : Nat := 150

-- The loop of the constructor: node `i` is `node-<i>`, at the `i`-th address.
def addNodes (r : HashRing) (i : Nat) : List String → HashRing
  | [] => r
  | address :: rest => addNodes (r.addNode ⟨generateNodeId "node" i, address⟩).2 (i + 1) rest

-- `ShardingClient` as far as routing goes: its configuration and `ring_`.
structure ShardingClient where
  config : ClientConfig
  ring : HashRing

namespace ShardingClient

def create (config : ClientConfig) : ShardingClient :=
  ⟨config, addNodes (HashRing.create config.maxReplicas config.virtualNodesPerNode) 0
    config.nodeAddresses⟩

def getNodeForKey (c : ShardingClient) (key : Bytes) : Option Node := c.ring.getNode key

-- The nodes `Get`, `Set`, `Delete` and `CompareAndSwap` try for a key, in order.
def replicasForKey (c : ShardingClient) (key : Bytes) : List Node :=
  c.ring.getReplicas key c.config.maxReplicas

end ShardingClient

theorem addNodes_wellFormed :
    ∀ (r : HashRing) (i : Nat) (as : List String), r.WellFormed → (addNodes r i as).WellFormed
  | _, _, [], hw => hw
  | _, i, _ :: as, hw => addNodes_wellFormed _ (i + 1) as (hw.addNode _)

theorem addNodes_ring_ne_nil :
    ∀ (r : HashRing) (i : Nat) (as : List String), r.ring ≠ [] → (addNodes r i as).ring ≠ []
  | _, _, [], h => h
  | _, i, _ :: as, h => addNodes_ring_ne_nil _ (i + 1) as (HashRing.addNode_ring_ne_nil _ (.inl h))

-- With at least one address and one virtual node, every key has a node.
theorem getNodeForKey_isSome (config : ClientConfig) (ha : config.nodeAddresses ≠ [])
    (hv : 0 < config.virtualNodesPerNode) (key : Bytes) :
    ((ShardingClient.create config).getNodeForKey key).isSome := by
  obtain ⟨a, as, hA⟩ := List.exists_cons_of_ne_nil ha
  refine HashRing.WellFormed.getNode_isSome
    (addNodes_wellFormed _ 0 _ (HashRing.create_wellFormed _ _)) ?_ key
  simp only [ShardingClient.create, hA, addNodes]
  exact addNodes_ring_ne_nil _ 1 as (HashRing.addNode_ring_ne_nil _ (.inr ⟨hv, rfl⟩))

-- Node `i` of two clients: the same id `node-<i>`, each at its own list's `i`-th address.
def SameIndex (A A' : List String) (n n' : Node) : Prop :=
  ∃ i a a', A[i]? = some a ∧ A'[i]? = some a' ∧
    n = ⟨generateNodeId "node" i, a⟩ ∧ n' = ⟨generateNodeId "node" i, a'⟩

theorem SameIndex.id_eq {A A' : List String} {n n' : Node} (h : SameIndex A A' n n') :
    n'.id = n.id := by
  obtain ⟨i, a, a', -, -, rfl, rfl⟩ := h
  rfl

-- From one list, node `i` is one node.
theorem SameIndex.eq {A : List String} {n n' : Node} (h : SameIndex A A n n') : n = n' := by
  obtain ⟨i, a, a', ha, ha', rfl, rfl⟩ := h
  rw [ha] at ha'
  cases ha'
  rfl

theorem addNodes_samePlacement (A A' : List String) :
    ∀ (i : Nat) (as as' : List String) (r r' : HashRing), A.drop i = as → A'.drop i = as' →
      as.length = as'.length → HashRing.SamePlacement (SameIndex A A') r r' →
        HashRing.SamePlacement (SameIndex A A') (addNodes r i as) (addNodes r' i as')
  | _, [], [], _, _, _, _, _, h => h
  | i, a :: as, a' :: as', r, r', hA, hA', hl, h => by
    have hget : ∀ (L : List String) (x : String) (xs : List String), L.drop i = x :: xs →
        L[i]? = some x ∧ L.drop (i + 1) = xs := fun L x xs hL => by
      have h0 : (L.drop i)[0]? = some x := by rw [hL]; simp
      rw [List.getElem?_drop, Nat.add_zero] at h0
      refine ⟨h0, ?_⟩
      rw [← List.drop_drop, hL]
      rfl
    obtain ⟨ha, hA⟩ := hget A a as hA
    obtain ⟨ha', hA'⟩ := hget A' a' as' hA'
    exact addNodes_samePlacement A A' (i + 1) as as' _ _ hA hA' (Nat.succ.inj hl)
      (h.addNode ⟨i, a, a', ha, ha', rfl, rfl⟩ rfl).2
  | _, [], _ :: _, _, _, _, _, hl, _ => absurd hl (by simp)
  | _, _ :: _, [], _, _, _, _, hl, _ => absurd hl (by simp)

-- Clients whose address lists have one length build rings that differ only in the addresses.
theorem create_samePlacement (config config' : ClientConfig)
    (hlen : config.nodeAddresses.length = config'.nodeAddresses.length)
    (hv : config.virtualNodesPerNode = config'.virtualNodesPerNode) :
    HashRing.SamePlacement (SameIndex config.nodeAddresses config'.nodeAddresses)
      (ShardingClient.create config).ring (ShardingClient.create config').ring :=
  addNodes_samePlacement _ _ 0 _ _ _ _ rfl rfl hlen ⟨hv.symm, rfl, .nil⟩

-- A client sends every key to the node of one index of its list.
theorem routes_by_index (config config' : ClientConfig)
    (hlen : config.nodeAddresses.length = config'.nodeAddresses.length)
    (hv : config.virtualNodesPerNode = config'.virtualNodesPerNode)
    (hm : config.maxReplicas = config'.maxReplicas) (key : Bytes) :
    let c := ShardingClient.create config
    let c' := ShardingClient.create config'
    Option.Rel (SameIndex config.nodeAddresses config'.nodeAddresses)
        (c.getNodeForKey key) (c'.getNodeForKey key) ∧
      List.Forall₂ (SameIndex config.nodeAddresses config'.nodeAddresses)
        (c.replicasForKey key) (c'.replicasForKey key) := by
  have h := create_samePlacement config config' hlen hv
  refine ⟨h.getNode key, ?_⟩
  simp only [ShardingClient.replicasForKey, ShardingClient.create, ← hm]
  exact h.getReplicas (fun _ _ => SameIndex.id_eq) key _

theorem routes_by_index_two_lists :
    let config : ClientConfig := { nodeAddresses := ["localhost:50051", "localhost:50052"] }
    let config' : ClientConfig := { nodeAddresses := ["localhost:50052", "localhost:50051"] }
    config.nodeAddresses.length = config'.nodeAddresses.length ∧
      config.virtualNodesPerNode = config'.virtualNodesPerNode ∧
      config.maxReplicas = config'.maxReplicas ∧
      let c := ShardingClient.create config
      let c' := ShardingClient.create config'
      Option.Rel (SameIndex config.nodeAddresses config'.nodeAddresses)
          (c.getNodeForKey (bytesOf "key")) (c'.getNodeForKey (bytesOf "key")) ∧
        List.Forall₂ (SameIndex config.nodeAddresses config'.nodeAddresses)
          (c.replicasForKey (bytesOf "key")) (c'.replicasForKey (bytesOf "key")) :=
  ⟨rfl, rfl, rfl, routes_by_index { nodeAddresses := ["localhost:50051", "localhost:50052"] }
    { nodeAddresses := ["localhost:50052", "localhost:50051"] } rfl rfl rfl (bytesOf "key")⟩

-- Two clients given the same two addresses in the two orders send every key to different ones.
theorem swapped_addresses_split_keys :
    ∀ key : Bytes,
      let c := ShardingClient.create { nodeAddresses := ["localhost:50051", "localhost:50052"] }
      let c' := ShardingClient.create { nodeAddresses := ["localhost:50052", "localhost:50051"] }
      ∃ n n', c.getNodeForKey key = some n ∧ c'.getNodeForKey key = some n' ∧
        n.id = n'.id ∧ n.address ≠ n'.address := by
  intro key c c'
  have hrel : Option.Rel (SameIndex ["localhost:50051", "localhost:50052"]
      ["localhost:50052", "localhost:50051"]) (c.getNodeForKey key) (c'.getNodeForKey key) :=
    (create_samePlacement { nodeAddresses := ["localhost:50051", "localhost:50052"] }
      { nodeAddresses := ["localhost:50052", "localhost:50051"] } rfl rfl).getNode key
  obtain ⟨n, hn⟩ := Option.isSome_iff_exists.mp
    (getNodeForKey_isSome { nodeAddresses := ["localhost:50051", "localhost:50052"] } (by simp)
      (by decide) key)
  rw [hn] at hrel
  obtain ⟨n', hn', hsame⟩ : ∃ n', c'.getNodeForKey key = some n' ∧
      SameIndex ["localhost:50051", "localhost:50052"] ["localhost:50052", "localhost:50051"] n n' := by
    generalize c'.getNodeForKey key = b at hrel
    cases hrel with
    | some h => exact ⟨_, rfl, h⟩
  obtain ⟨i, a, a', ha, ha', rfl, rfl⟩ := hsame
  refine ⟨_, _, hn, hn', rfl, ?_⟩
  rcases i with _ | _ | i <;> simp at ha ha' <;> subst ha ha' <;> decide

theorem swapped_addresses_route_apart :
    let c := ShardingClient.create { nodeAddresses := ["localhost:50051", "localhost:50052"] }
    let c' := ShardingClient.create { nodeAddresses := ["localhost:50052", "localhost:50051"] }
    ∃ n n', c.getNodeForKey (bytesOf "key") = some n ∧ c'.getNodeForKey (bytesOf "key") = some n' ∧
      n.id = n'.id ∧ n.address ≠ n'.address :=
  swapped_addresses_split_keys (bytesOf "key")

end DistCache.Client
