import DistCache.Cluster.HashRing

namespace DistCache.Cluster

namespace StdMap

variable {κ ν ν' : Type} [DecidableEq κ]

section Find

variable {m : List (κ × ν)} {k k' : κ} {v : ν}

@[simp] theorem find_nil (k : κ) : find ([] : List (κ × ν)) k = none := rfl

@[simp] theorem find_cons (p : κ × ν) (m : List (κ × ν)) (k : κ) :
    find (p :: m) k = if p.1 = k then some p.2 else find m k := by
  by_cases h : p.1 = k <;> simp [find, List.find?_cons, h]

theorem find_erase_self (m : List (κ × ν)) (k : κ) : find (erase m k) k = none := by
  simp [find, erase, List.find?_filter]

theorem find_erase_ne (h : k' ≠ k) (m : List (κ × ν)) : find (erase m k) k' = find m k' := by
  have hp : (fun p : κ × ν => !decide (p.1 = k) && decide (p.1 = k')) = fun p => decide (p.1 = k') := by
    funext p
    by_cases hp : p.1 = k' <;> simp [hp, h]
  simp [find, erase, List.find?_filter, hp]

theorem mem_erase {p : κ × ν} : p ∈ erase m k ↔ p ∈ m ∧ p.1 ≠ k := by
  simp [erase]

theorem mem_of_find_eq_some (h : find m k = some v) : (k, v) ∈ m := by
  induction m with
  | nil => simp at h
  | cons p m ih =>
    rw [find_cons] at h
    split_ifs at h with hp
    · cases h
      exact hp ▸ List.mem_cons_self _ _
    · exact List.mem_cons_of_mem _ (ih h)

variable (lt : κ → κ → Bool)

theorem find_insert_self (m : List (κ × ν)) (k : κ) (v : ν) : find (insert lt m k v) k = some v := by
  induction m with
  | nil => simp [insert, find]
  | cons p m ih =>
    obtain ⟨k₁, v₁⟩ := p
    simp only [insert]
    split_ifs with h₁ h₂
    · simp [find]
    · simp [find]
    · simpa [find, List.find?_cons, Ne.symm h₂] using ih

theorem find_insert_ne (h : k' ≠ k) (m : List (κ × ν)) (v : ν) :
    find (insert lt m k v) k' = find m k' := by
  have h' : k ≠ k' := Ne.symm h
  induction m with
  | nil => simp [insert, find, h']
  | cons p m ih =>
    obtain ⟨k₁, v₁⟩ := p
    simp only [insert]
    split_ifs with h₁ h₂
    · simp [find, List.find?_cons, h']
    · subst h₂
      simp [find, List.find?_cons, h']
    · simp only [find, List.find?_cons] at ih ⊢
      split <;> simp_all

theorem mem_insert {p : κ × ν} (hp : p ∈ insert lt m k v) : p = (k, v) ∨ p ∈ m := by
  induction m with
  | nil => simpa [insert] using hp
  | cons q m ih =>
    obtain ⟨k₁, v₁⟩ := q
    simp only [insert] at hp
    split_ifs at hp
    · exact List.mem_cons.mp hp
    · exact (List.mem_cons.mp hp).imp_right (List.mem_cons_of_mem _)
    · rcases List.mem_cons.mp hp with rfl | h
      · exact .inr (List.mem_cons_self _ _)
      · exact (ih h).imp_right (List.mem_cons_of_mem _)

theorem insert_ne_nil (m : List (κ × ν)) (k : κ) (v : ν) : insert lt m k v ≠ [] := by
  cases m with
  | nil => simp [insert]
  | cons p m =>
    simp only [insert]
    split_ifs <;> simp

end Find

-- Two maps with the same keys in the same order, their values related by `P`.
def Rel (P : ν → ν' → Prop) (m : List (κ × ν)) (m' : List (κ × ν')) : Prop :=
  List.Forall₂ (fun p p' => p.1 = p'.1 ∧ P p.2 p'.2) m m'

variable {P : ν → ν' → Prop} {m : List (κ × ν)} {m' : List (κ × ν')}

theorem Rel.insert (h : Rel P m m') (lt : κ → κ → Bool) (k : κ) {v : ν} {v' : ν'} (hv : P v v') :
    Rel P (insert lt m k v) (insert lt m' k v') := by
  unfold Rel at h ⊢
  induction h with
  | nil => exact .cons ⟨rfl, hv⟩ .nil
  | @cons p p' m m' hp h ih =>
    obtain ⟨k₁, v₁⟩ := p
    obtain ⟨k₂, v₂⟩ := p'
    obtain ⟨rfl, h₁⟩ : k₁ = k₂ ∧ P v₁ v₂ := hp
    simp only [StdMap.insert]
    split_ifs
    · exact .cons ⟨rfl, hv⟩ (.cons ⟨rfl, h₁⟩ h)
    · exact .cons ⟨rfl, hv⟩ h
    · exact .cons ⟨rfl, h₁⟩ ih

theorem Rel.erase (h : Rel P m m') (k : κ) : Rel P (erase m k) (erase m' k) := by
  unfold Rel at h ⊢
  induction h with
  | nil => exact .nil
  | @cons p p' m m' hp h ih =>
    obtain ⟨k₁, v₁⟩ := p
    obtain ⟨k₂, v₂⟩ := p'
    obtain ⟨rfl, h₁⟩ : k₁ = k₂ ∧ P v₁ v₂ := hp
    by_cases hk : k₁ = k
    · simpa [StdMap.erase, hk] using ih
    · simp only [StdMap.erase, List.filter_cons, hk, decide_False, Bool.not_false, if_true]
      exact .cons ⟨rfl, h₁⟩ ih

theorem Rel.find (h : Rel P m m') (k : κ) : Option.Rel P (find m k) (find m' k) := by
  unfold Rel at h
  induction h with
  | nil => exact .none
  | @cons p p' m m' hp h ih =>
    obtain ⟨k₁, v₁⟩ := p
    obtain ⟨k₂, v₂⟩ := p'
    obtain ⟨rfl, h₁⟩ : k₁ = k₂ ∧ P v₁ v₂ := hp
    by_cases hk : k₁ = k
    · simpa [StdMap.find, List.find?_cons, hk] using Option.Rel.some h₁
    · simpa [StdMap.find, List.find?_cons, hk] using ih

theorem Rel.isSome_find (h : Rel P m m') (k : κ) :
    (StdMap.find m' k).isSome = (StdMap.find m k).isSome := by
  have hr := h.find k
  generalize StdMap.find m k = a, StdMap.find m' k = b at hr
  cases hr <;> rfl

end StdMap

namespace HashRing

variable {P : Node → Node → Prop} {r r' : HashRing}

-- Two rings that place keys by the same ids.
structure SamePlacement (P : Node → Node → Prop) (r r' : HashRing) : Prop where
  virtualNodesPerNode : r'.virtualNodesPerNode = r.virtualNodesPerNode
  ring : r'.ring = r.ring
  nodes : StdMap.Rel P r.nodes r'.nodes

theorem SamePlacement.addNode (h : SamePlacement P r r') {n n' : Node} (hn : P n n')
    (hid : n'.id = n.id) :
    (r'.addNode n').1 = (r.addNode n).1 ∧ SamePlacement P (r.addNode n).2 (r'.addNode n').2 := by
  have hs : (StdMap.find r'.nodes n'.id).isSome = (StdMap.find r.nodes n.id).isSome := by
    rw [hid]
    exact h.nodes.isSome_find n.id
  cases hf : (StdMap.find r.nodes n.id).isSome
  · rw [hf] at hs
    simp only [HashRing.addNode, hs, hf, Bool.false_eq_true, if_false, true_and]
    refine ⟨h.virtualNodesPerNode, by rw [h.ring, h.virtualNodesPerNode, hid], ?_⟩
    rw [hid]
    exact h.nodes.insert stringLt n.id hn
  · rw [hf] at hs
    simp only [HashRing.addNode, hs, hf, if_true, true_and]
    exact h

theorem SamePlacement.removeNode (h : SamePlacement P r r') (nodeId : String) :
    (r'.removeNode nodeId).1 = (r.removeNode nodeId).1 ∧
      SamePlacement P (r.removeNode nodeId).2 (r'.removeNode nodeId).2 := by
  have hs := h.nodes.isSome_find nodeId
  cases hf : (StdMap.find r.nodes nodeId).isSome
  · rw [hf] at hs
    simp only [HashRing.removeNode, hs, hf, Bool.false_eq_true, if_false, true_and]
    exact h
  · rw [hf] at hs
    simp only [HashRing.removeNode, hs, hf, if_true, true_and]
    exact ⟨h.virtualNodesPerNode, by rw [h.ring, h.virtualNodesPerNode], h.nodes.erase nodeId⟩

theorem SamePlacement.fromKey (h : SamePlacement P r r') (key : Bytes) :
    r'.fromKey key = r.fromKey key := by
  simp only [HashRing.fromKey, h.ring]

theorem SamePlacement.getNode (h : SamePlacement P r r') (key : Bytes) :
    Option.Rel P (r.getNode key) (r'.getNode key) := by
  rw [HashRing.getNode, HashRing.getNode, h.fromKey]
  cases r.fromKey key with
  | nil => exact .none
  | cons p _ => exact h.nodes.find p.2

section Replicas

variable (hP : ∀ n n', P n n' → n'.id = n.id)
include hP

private theorem any_id_eq {reps : List Node} {reps' : List Node} (h : List.Forall₂ P reps reps')
    (nodeId : String) :
    (reps'.any fun node => node.id == nodeId) = (reps.any fun node => node.id == nodeId) := by
  induction h with
  | nil => rfl
  | cons hn _ ih => simp only [List.any_cons, hP _ _ hn, ih]

theorem collectReplicas_rel {nodes nodes' : List (String × Node)} (hn : StdMap.Rel P nodes nodes')
    (k : Nat) :
    ∀ (ids : List String) {reps reps' : List Node}, List.Forall₂ P reps reps' →
      List.Forall₂ P (collectReplicas nodes k reps ids) (collectReplicas nodes' k reps' ids)
  | [], _, _, h => h
  | nodeId :: ids, reps, reps', h => by
    simp only [collectReplicas, h.length_eq, any_id_eq hP h]
    split_ifs
    · exact collectReplicas_rel hn k ids h
    · have hf := hn.find nodeId
      generalize StdMap.find nodes nodeId = a, StdMap.find nodes' nodeId = b at hf ⊢
      cases hf with
      | none => exact collectReplicas_rel hn k ids h
      | some hab => exact collectReplicas_rel hn k ids (List.rel_append h (.cons hab .nil))
    · exact h

theorem SamePlacement.getReplicas (h : SamePlacement P r r') (key : Bytes) (n : Nat) :
    List.Forall₂ P (r.getReplicas key n) (r'.getReplicas key n) := by
  simp only [HashRing.getReplicas, h.fromKey, h.ring, ← List.Forall₂.length_eq h.nodes]
  split_ifs
  · exact .nil
  · exact collectReplicas_rel hP h.nodes _ _ .nil

end Replicas

end HashRing

end DistCache.Cluster
