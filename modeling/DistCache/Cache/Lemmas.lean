import DistCache.Cache.Engine
import Mathlib.Data.List.Sigma
import Mathlib.Data.List.Nodup
import Mathlib.Algebra.Order.BigOperators.Group.List
import Mathlib.Algebra.Order.Ring.Nat

namespace DistCache.Cache

-- The sum of `total_size()` over the entries of a shard's map.
def dataSize (overhead : Nat) (data : AList fun _ : Bytes => CacheData) : Nat :=
  (data.entries.map fun e => e.2.entry.totalSize overhead).sum

section Entries

variable (g : CacheData → Nat)

private theorem sum_kerase (k : Bytes) (d : CacheData) :
    ∀ l : List (Σ _ : Bytes, CacheData), l.dlookup k = some d →
      ((l.kerase k).map fun e => g e.2).sum + g d = (l.map fun e => g e.2).sum
  | [], h => by simp at h
  | ⟨k', d'⟩ :: l, h => by
    by_cases hk : k = k'
    · subst hk
      obtain rfl : d' = d := by simpa using h
      simp [List.kerase_cons_eq, Nat.add_comm]
    · have ih := sum_kerase k d l (by rwa [List.dlookup_cons_ne _ _ hk] at h)
      simp only [ne_eq, hk, not_false_eq_true, List.kerase_cons_ne, List.map_cons, List.sum_cons]
      omega

private theorem sum_kreplace (k : Bytes) (d d' : CacheData) :
    ∀ l : List (Σ _ : Bytes, CacheData), l.dlookup k = some d →
      ((l.kreplace k d').map fun e => g e.2).sum + g d = (l.map fun e => g e.2).sum + g d'
  | [], h => by simp at h
  | ⟨k', d''⟩ :: l, h => by
    by_cases hk : k = k'
    · subst hk
      obtain rfl : d'' = d := by simpa using h
      simp [List.kreplace, List.lookmap_cons_some]
      omega
    · have ih := sum_kreplace k d d' l (by rwa [List.dlookup_cons_ne _ _ hk] at h)
      simp only [List.kreplace] at ih ⊢
      simp only [if_neg hk, List.lookmap_cons_none, List.map_cons, List.sum_cons]
      omega

private theorem length_kerase (k : Bytes) :
    ∀ l : List (Σ _ : Bytes, CacheData), k ∈ l.keys → (l.kerase k).length + 1 = l.length
  | [], h => by simp at h
  | ⟨k', _⟩ :: l, h => by
    by_cases hk : k = k'
    · simp [List.kerase_cons_eq, hk]
    · have hl : k ∈ l.keys := by simpa [List.keys, hk] using h
      simp [List.kerase_cons_ne, hk, length_kerase k l hl]

private theorem dlookup_kreplace (k k' : Bytes) (d' : CacheData) :
    ∀ l : List (Σ _ : Bytes, CacheData),
      (l.kreplace k d').dlookup k' = if k' = k ∧ k ∈ l.keys then some d' else l.dlookup k'
  | [] => by simp [List.kreplace]
  | ⟨k₁, d₁⟩ :: l => by
    have ih := dlookup_kreplace k k' d' l
    simp only [List.kreplace] at ih ⊢
    by_cases hk : k = k₁
    · subst hk
      by_cases hk' : k' = k
      · subst hk'
        simp [List.lookmap_cons_some]
      · simp [List.lookmap_cons_some, hk', List.dlookup_cons_ne]
    · rw [List.lookmap_cons_none _ _ (by simp [hk])]
      by_cases hk' : k' = k₁
      · subst hk'
        simp [Ne.symm hk]
      · simp [List.dlookup_cons_ne, hk', hk, ih]

end Entries

variable (o : Nat) {data : AList fun _ : Bytes => CacheData} {k : Bytes} {d d' : CacheData}

theorem dataSize_erase (h : data.lookup k = some d) :
    dataSize o (data.erase k) + d.entry.totalSize o = dataSize o data :=
  sum_kerase (fun d => d.entry.totalSize o) k d data.entries h

theorem dataSize_replace (h : data.lookup k = some d) (d' : CacheData) :
    dataSize o (data.replace k d') + d.entry.totalSize o = dataSize o data + d'.entry.totalSize o :=
  sum_kreplace (fun d => d.entry.totalSize o) k d d' data.entries h

theorem dataSize_insert (h : k ∉ data) (d : CacheData) :
    dataSize o (data.insert k d) = d.entry.totalSize o + dataSize o data := by
  rw [dataSize, AList.insert_entries_of_neg h]
  simp [dataSize]

@[simp] theorem dataSize_empty : dataSize o ∅ = 0 := rfl

theorem length_erase (h : k ∈ data) : (data.erase k).entries.length + 1 = data.entries.length :=
  length_kerase k data.entries h

@[simp] theorem length_replace (k : Bytes) (d : CacheData) :
    (data.replace k d).entries.length = data.entries.length := by
  have := congrArg List.length (AList.keys_replace k d data)
  simpa [AList.keys, List.keys] using this

theorem length_insert (h : k ∉ data) (d : CacheData) :
    (data.insert k d).entries.length = data.entries.length + 1 := by
  rw [AList.insert_entries_of_neg h]
  rfl

theorem lookup_replace_self (h : k ∈ data) (d' : CacheData) :
    (data.replace k d').lookup k = some d' := by
  have hk : k ∈ data.entries.keys := h
  simp [AList.lookup, AList.replace, dlookup_kreplace, hk]

theorem lookup_replace_ne {k' : Bytes} (h : k' ≠ k) (d' : CacheData) :
    (data.replace k d').lookup k' = data.lookup k' := by
  simp [AList.lookup, AList.replace, dlookup_kreplace, h]

namespace LruList

theorem splice_perm (l : List LruNode) (it : Nat) : List.Perm (splice l it) l :=
  List.filter_append_perm _ _

theorem mem_erase {l : List LruNode} {it : Nat} {n : LruNode} :
    n ∈ erase l it ↔ n ∈ l ∧ n.id ≠ it := by
  simp [erase]

theorem erase_sublist (l : List LruNode) (it : Nat) : List.Sublist (erase l it) l :=
  List.filter_sublist _

end LruList

-- With distinct ids, a node of the list is determined by its id.
theorem LruNode.eq_of_id {l : List LruNode} (h : (l.map LruNode.id).Nodup) {a b : LruNode}
    (ha : a ∈ l) (hb : b ∈ l) (e : a.id = b.id) : a = b :=
  List.inj_on_of_nodup_map h ha hb e

-- With distinct keys, a node of the list is determined by its key.
theorem LruNode.eq_of_key {l : List LruNode} (h : (l.map LruNode.key).Nodup) {a b : LruNode}
    (ha : a ∈ l) (hb : b ∈ l) (e : a.key = b.key) : a = b :=
  List.inj_on_of_nodup_map h ha hb e

theorem sum_map_set {α : Type} [Inhabited α] (f : α → Nat) :
    ∀ (l : List α) (i : Nat) (x : α), i < l.length →
      ((l.set i x).map f).sum + f (l.getD i default) = (l.map f).sum + f x
  | [], _, _, h => by simp at h
  | a :: l, 0, x, _ => by simp; omega
  | a :: l, i + 1, x, h => by
    have := sum_map_set f l i x (by simpa using h)
    simp only [List.set_cons_succ, List.map_cons, List.sum_cons, List.getD_cons_succ]
    omega

@[simp] theorem Shard.default_data : (default : Shard).data = ∅ := rfl
@[simp] theorem Shard.default_lruList : (default : Shard).lruList = [] := rfl
@[simp] theorem Shard.default_memoryBytes : (default : Shard).memoryBytes = 0 := rfl

namespace ShardedHashTable

variable {t : ShardedHashTable} {i j : Nat} {s : Shard}

theorem shard_of_le (h : t.shards.length ≤ i) : t.shard i = default := by
  simp [shard, List.getD_eq_getElem?_getD, List.getElem?_eq_none h]

@[simp] theorem update_length {M E : Nat} : (t.update i s M E).shards.length = t.shards.length := by
  simp [update]

@[simp] theorem update_entryOverhead {M E : Nat} : (t.update i s M E).entryOverhead = t.entryOverhead :=
  rfl
@[simp] theorem update_maxMemoryBytes {M E : Nat} :
    (t.update i s M E).maxMemoryBytes = t.maxMemoryBytes := rfl
@[simp] theorem update_shards {M E : Nat} : (t.update i s M E).shards = t.shards.set i s := rfl
@[simp] theorem update_totalMemoryBytes {M E : Nat} : (t.update i s M E).totalMemoryBytes = M := rfl
@[simp] theorem update_totalEntries {M E : Nat} : (t.update i s M E).totalEntries = E := rfl
@[simp] theorem update_hash {M E : Nat} : (t.update i s M E).hash = t.hash := rfl

@[simp] theorem getShardIndex_update {M E : Nat} (key : Bytes) :
    (t.update i s M E).getShardIndex key = t.getShardIndex key := by
  simp [getShardIndex]

theorem getShardIndex_lt (t : ShardedHashTable) (key : Bytes) :
    t.getShardIndex key < t.shards.length :=
  Nat.mod_lt _ t.shards_pos

@[simp] theorem shard_update_self {M E : Nat} (hi : i < t.shards.length) :
    (t.update i s M E).shard i = s := by
  simp [shard, update, List.getD_eq_getElem?_getD, hi]

theorem shard_update_ne {M E : Nat} (h : j ≠ i) : (t.update i s M E).shard j = t.shard j := by
  simp [shard, update, List.getD_eq_getElem?_getD, List.getElem?_set_ne (Ne.symm h)]

theorem mem_shards (hi : i < t.shards.length) : t.shard i ∈ t.shards := by
  simp [shard, List.getD_eq_getElem?_getD, hi, List.getElem_mem]

theorem mem_update {s' : Shard} {M E : Nat} (h : s' ∈ (t.update i s M E).shards) :
    s' = s ∨ s' ∈ t.shards := by
  simpa [update] using List.mem_or_eq_of_mem_set h |>.symm

-- Two tables with the same configuration; every operation keeps it.
structure SameConfig (t t' : ShardedHashTable) : Prop where
  length : t'.shards.length = t.shards.length
  entryOverhead : t'.entryOverhead = t.entryOverhead
  hash : t'.hash = t.hash
  maxMemoryBytes : t'.maxMemoryBytes = t.maxMemoryBytes

theorem SameConfig.refl (t : ShardedHashTable) : SameConfig t t := ⟨rfl, rfl, rfl, rfl⟩

theorem SameConfig.trans {t' t'' : ShardedHashTable} (h₁ : SameConfig t t')
    (h₂ : SameConfig t' t'') : SameConfig t t'' :=
  ⟨h₂.length.trans h₁.length, h₂.entryOverhead.trans h₁.entryOverhead, h₂.hash.trans h₁.hash,
    h₂.maxMemoryBytes.trans h₁.maxMemoryBytes⟩

theorem SameConfig.getShardIndex {t' : ShardedHashTable} (h : SameConfig t t') (key : Bytes) :
    t'.getShardIndex key = t.getShardIndex key := by
  simp [ShardedHashTable.getShardIndex, h.length, h.hash]

@[simp] theorem clear_shards (t : ShardedHashTable) :
    t.clear.shards = t.shards.map fun s => { s with data := ∅, lruList := [], memoryBytes := 0 } :=
  rfl

@[simp] theorem clear_shard_data (t : ShardedHashTable) (j : Nat) : (t.clear.shard j).data = ∅ := by
  rw [shard, clear_shards, List.getD_eq_getElem?_getD, List.getElem?_map]
  cases t.shards[j]? <;> rfl

@[simp] theorem clear_shard_lruList (t : ShardedHashTable) (j : Nat) : (t.clear.shard j).lruList = [] := by
  rw [shard, clear_shards, List.getD_eq_getElem?_getD, List.getElem?_map]
  cases t.shards[j]? <;> rfl

@[simp] theorem create_shard (n max overhead : Nat) (hash : Bytes → Nat) (hn : 0 < n) (j : Nat) :
    (create n max overhead hash hn).shard j = default := by
  simp only [create, shard, List.getD_eq_getElem?_getD, List.getElem?_replicate]
  split <;> rfl

theorem sameConfig_update (i : Nat) (s : Shard) (M E : Nat) : SameConfig t (t.update i s M E) :=
  ⟨by simp, rfl, rfl, rfl⟩

end ShardedHashTable

end DistCache.Cache
