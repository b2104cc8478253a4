import DistCache.Cache.Lemmas

namespace DistCache.Cache

-- One shard is well formed when its LRU list and its map hold the same keys, once each.
structure Shard.WellFormed (overhead : Nat) (s : Shard) : Prop where
  keys_nodup : (s.lruList.map LruNode.key).Nodup
  mem_iff : ∀ k, k ∈ s.data ↔ k ∈ s.lruList.map LruNode.key
  iter_key : ∀ k d, s.data.lookup k = some d → (⟨d.lruIter, k⟩ : LruNode) ∈ s.lruList
  ids_nodup : (s.lruList.map LruNode.id).Nodup
  ids_fresh : ∀ n ∈ s.lruList, n.id < s.nextNode
  memory : s.memoryBytes = dataSize overhead s.data

namespace Shard.WellFormed

variable {o : Nat} {s : Shard} {k : Bytes} {d : CacheData}

theorem default_wf (o : Nat) : (default : Shard).WellFormed o :=
  ⟨List.nodup_nil, by simp [AList.not_mem_empty], by simp [AList.lookup_empty], List.nodup_nil,
    by simp, rfl⟩

theorem size_le (hw : s.WellFormed o) (h : s.data.lookup k = some d) :
    d.entry.totalSize o ≤ s.memoryBytes := by
  have := dataSize_erase o h
  rw [hw.memory]
  omega

theorem mem_of_lookup (h : s.data.lookup k = some d) : k ∈ s.data :=
  AList.lookup_isSome.mp (by simp [h])

-- The byte counter as the code moves it, when an entry is removed or rewritten.
theorem memory_erase (hw : s.WellFormed o) (h : s.data.lookup k = some d) :
    s.memoryBytes - d.entry.totalSize o = dataSize o (s.data.erase k) := by
  have := dataSize_erase o h
  rw [hw.memory]
  omega

theorem memory_replace (hw : s.WellFormed o) (h : s.data.lookup k = some d) (e : CacheEntry) :
    s.memoryBytes - d.entry.totalSize o + e.totalSize o =
      dataSize o (s.data.replace k { d with entry := e }) := by
  have hle := hw.size_le h
  have hd := dataSize_replace o h { d with entry := e }
  rw [hw.memory] at hle ⊢
  simp only at hd
  omega

-- `get`, a replacing `set` and a successful `compare_and_swap` rewrite one entry in place.
theorem replace (hw : s.WellFormed o) (h : s.data.lookup k = some d) (e : CacheEntry) (m : Nat)
    (hm : m = dataSize o (s.data.replace k { d with entry := e })) :
    Shard.WellFormed o { s with data := s.data.replace k { d with entry := e },
                                lruList := LruList.splice s.lruList d.lruIter, memoryBytes := m } := by
  have p := LruList.splice_perm s.lruList d.lruIter
  refine ⟨(p.map _).nodup_iff.mpr hw.keys_nodup, fun k' => ?_, fun k' d'' h' => ?_,
    (p.map _).nodup_iff.mpr hw.ids_nodup, fun n hn => hw.ids_fresh n (p.mem_iff.mp hn), hm⟩
  · simp only [AList.mem_replace, hw.mem_iff, (p.map _).mem_iff]
  · refine p.mem_iff.mpr ?_
    by_cases hk : k' = k
    · subst hk
      rw [lookup_replace_self (mem_of_lookup h)] at h'
      cases h'
      exact hw.iter_key k' d h
    · rw [lookup_replace_ne hk] at h'
      exact hw.iter_key k' d'' h'

-- `del` unlinks the entry's node and erases the entry.
theorem erase (hw : s.WellFormed o) (h : s.data.lookup k = some d) (m : Nat)
    (hm : m = dataSize o (s.data.erase k)) :
    Shard.WellFormed o { s with lruList := LruList.erase s.lruList d.lruIter,
                                data := s.data.erase k, memoryBytes := m } := by
  have hn := hw.iter_key k d h
  -- the only node with the entry's id, and the only node with its key, is its own node
  have by_id : ∀ n ∈ s.lruList, n.id = d.lruIter → n = ⟨d.lruIter, k⟩ :=
    fun n hm e => LruNode.eq_of_id hw.ids_nodup hm hn e
  have by_key : ∀ n ∈ s.lruList, n.key = k → n = ⟨d.lruIter, k⟩ :=
    fun n hm e => LruNode.eq_of_key hw.keys_nodup hm hn e
  have sub := LruList.erase_sublist s.lruList d.lruIter
  refine ⟨(sub.map _).nodup hw.keys_nodup, fun k' => ?_, fun k' d'' h' => ?_,
    (sub.map _).nodup hw.ids_nodup, fun n hn => hw.ids_fresh n (sub.subset hn), hm⟩
  · simp only [AList.mem_erase, hw.mem_iff, List.mem_map, LruList.mem_erase]
    constructor
    · rintro ⟨hk, n, hn', rfl⟩
      exact ⟨n, ⟨hn', fun e => hk (by rw [by_id n hn' e])⟩, rfl⟩
    · rintro ⟨n, ⟨hn', hid⟩, rfl⟩
      exact ⟨fun e => hid (by rw [by_key n hn' e]), n, hn', rfl⟩
  · have hk : k' ≠ k := by
      rintro rfl
      simp [AList.lookup_erase] at h'
    rw [AList.lookup_erase_ne hk] at h'
    refine LruList.mem_erase.mpr ⟨hw.iter_key k' d'' h', fun e => hk ?_⟩
    simpa using congrArg LruNode.key (by_id _ (hw.iter_key k' d'' h') e)

-- An inserting `set` links a fresh node at the front.
theorem insert (hw : s.WellFormed o) (h : k ∉ s.data) (e : CacheEntry) (m : Nat)
    (hm : m = dataSize o (s.data.insert k ⟨e, s.nextNode⟩)) :
    Shard.WellFormed o { s with data := s.data.insert k ⟨e, s.nextNode⟩,
                                lruList := ⟨s.nextNode, k⟩ :: s.lruList, memoryBytes := m,
                                nextNode := s.nextNode + 1 } := by
  refine ⟨List.nodup_cons.mpr ⟨(hw.mem_iff k).not.mp h, hw.keys_nodup⟩, fun k' => ?_,
    fun k' d'' h' => ?_, List.nodup_cons.mpr ⟨fun hid => ?_, hw.ids_nodup⟩, fun n hn => ?_, hm⟩
  · simp [AList.mem_insert, hw.mem_iff]
  · by_cases hk : k' = k
    · subst hk
      rw [AList.lookup_insert] at h'
      cases h'
      exact List.mem_cons_self _ _
    · rw [AList.lookup_insert_ne hk] at h'
      exact List.mem_cons_of_mem _ (hw.iter_key k' d'' h')
  · obtain ⟨n, hn, e⟩ := List.mem_map.mp hid
    exact absurd (hw.ids_fresh n hn) (by simp [e])
  · rcases List.mem_cons.mp hn with rfl | hn
    · exact Nat.lt_succ_self _
    · exact Nat.lt_succ_of_lt (hw.ids_fresh n hn)

-- The back node's key is always in the map, so the else-branch of `evict_if_needed` is dead.
theorem back_mem (hw : s.WellFormed o) {back : LruNode} (hb : s.lruList.getLast? = some back) :
    back.key ∈ s.data :=
  (hw.mem_iff _).mpr (List.mem_map_of_mem _ (List.mem_of_getLast?_eq_some hb))

-- One pass of `evict_if_needed` pops the back node and erases its entry.
theorem popBack (hw : s.WellFormed o) {back : LruNode} (hb : s.lruList.getLast? = some back)
    (m : Nat) (hm : m = dataSize o (s.data.erase back.key)) :
    Shard.WellFormed o { s with data := s.data.erase back.key,
                                lruList := s.lruList.dropLast, memoryBytes := m } := by
  obtain ⟨ys, hys⟩ := List.getLast?_eq_some_iff.mp hb
  have hl : s.lruList.dropLast = ys := by rw [hys, List.dropLast_concat]
  have hkeys := hw.keys_nodup
  have hids := hw.ids_nodup
  rw [hys, List.map_append, List.nodup_append] at hkeys hids
  have hback : back.key ∉ ys.map LruNode.key := fun h => hkeys.2.2 h (List.mem_singleton_self _)
  refine ⟨by rw [hl]; exact hkeys.1, fun k' => ?_, fun k' d'' h' => ?_, by rw [hl]; exact hids.1,
    fun n hn => hw.ids_fresh n (by rw [hl] at hn; rw [hys]; exact List.mem_append_left _ hn), hm⟩
  · rw [hl, AList.mem_erase, hw.mem_iff, hys]
    simp only [List.map_append, List.mem_append, List.map_cons, List.map_nil, List.mem_singleton]
    constructor
    · rintro ⟨hk, h | h⟩
      · exact h
      · exact absurd h hk
    · intro h
      exact ⟨fun e => hback (e ▸ h), Or.inl h⟩
  · have hk : k' ≠ back.key := by
      rintro rfl
      simp [AList.lookup_erase] at h'
    rw [AList.lookup_erase_ne hk] at h'
    have hn := hw.iter_key k' d'' h'
    rw [hys, List.mem_append, List.mem_singleton] at hn
    rw [hl]
    rcases hn with hn | hn
    · exact hn
    · exact absurd (congrArg LruNode.key hn) hk

end Shard.WellFormed

namespace ShardedHashTable

-- Every shard well formed, and the table's counters the sums of the shards'.
structure Invariant (t : ShardedHashTable) : Prop where
  shards : ∀ s ∈ t.shards, s.WellFormed t.entryOverhead
  memory : t.totalMemoryBytes = (t.shards.map Shard.memoryBytes).sum
  entries : t.totalEntries = (t.shards.map fun s => s.data.entries.length).sum

variable {t : ShardedHashTable} {i : Nat} {s : Shard}

theorem Invariant.wf (ht : t.Invariant) (i : Nat) : (t.shard i).WellFormed t.entryOverhead := by
  by_cases hi : i < t.shards.length
  · exact ht.shards _ (mem_shards hi)
  · rw [shard_of_le (Nat.le_of_not_lt hi)]
    exact Shard.WellFormed.default_wf _

theorem Invariant.memoryBytes_le (ht : t.Invariant) (i : Nat) :
    (t.shard i).memoryBytes ≤ t.totalMemoryBytes := by
  by_cases hi : i < t.shards.length
  · rw [ht.memory]
    exact List.le_sum_of_mem (List.mem_map_of_mem Shard.memoryBytes (mem_shards hi))
  · simp [shard_of_le (Nat.le_of_not_lt hi)]

theorem Invariant.length_le (ht : t.Invariant) (i : Nat) :
    (t.shard i).data.entries.length ≤ t.totalEntries := by
  by_cases hi : i < t.shards.length
  · rw [ht.entries]
    exact List.le_sum_of_mem
      (List.mem_map_of_mem (fun s : Shard => s.data.entries.length) (mem_shards hi))
  · simp [shard_of_le (Nat.le_of_not_lt hi)]

-- Replacing one shard keeps the invariant when the counters move by the shard's change.
theorem Invariant.update (ht : t.Invariant) (hi : i < t.shards.length)
    (hs : s.WellFormed t.entryOverhead) (M E : Nat)
    (hM : M + (t.shard i).memoryBytes = t.totalMemoryBytes + s.memoryBytes)
    (hE : E + (t.shard i).data.entries.length = t.totalEntries + s.data.entries.length) :
    (t.update i s M E).Invariant := by
  refine ⟨fun s' hs' => ?_, ?_, ?_⟩
  · rcases mem_update hs' with rfl | hs'
    · exact hs
    · exact ht.shards s' hs'
  · have := sum_map_set Shard.memoryBytes t.shards i s hi
    simp only [update_shards, update_totalMemoryBytes, shard] at this hM ⊢
    rw [ht.memory] at hM
    omega
  · have := sum_map_set (fun s : Shard => s.data.entries.length) t.shards i s hi
    simp only [update_shards, update_totalEntries, shard] at this hE ⊢
    rw [ht.entries] at hE
    omega

section Entry

variable (ht : t.Invariant) (hi : i < t.shards.length) {k : Bytes} {d : CacheData}
  (hd : (t.shard i).data.lookup k = some d)
include ht hi hd

-- A stored entry removed from shard `i`.
theorem Invariant.update_erase (hs : s.WellFormed t.entryOverhead)
    (hdata : s.data = (t.shard i).data.erase k)
    (hm : s.memoryBytes = (t.shard i).memoryBytes - d.entry.totalSize t.entryOverhead) :
    (t.update i s (t.totalMemoryBytes - d.entry.totalSize t.entryOverhead)
      (t.totalEntries - 1)).Invariant := by
  have := (ht.wf i).size_le hd
  have := ht.memoryBytes_le i
  have := ht.length_le i
  have := length_erase (Shard.WellFormed.mem_of_lookup hd)
  refine ht.update hi hs _ _ (by omega) ?_
  rw [hdata]
  omega

-- A stored entry rewritten in shard `i` to `e`: both byte counters move by the change of size.
theorem Invariant.update_replace (e : CacheEntry) (hs : s.WellFormed t.entryOverhead)
    (hdata : s.data = (t.shard i).data.replace k { d with entry := e })
    (hm : s.memoryBytes =
      (t.shard i).memoryBytes - d.entry.totalSize t.entryOverhead + e.totalSize t.entryOverhead) :
    (t.update i s (t.totalMemoryBytes - d.entry.totalSize t.entryOverhead + e.totalSize t.entryOverhead)
      t.totalEntries).Invariant := by
  have := (ht.wf i).size_le hd
  have := ht.memoryBytes_le i
  exact ht.update hi hs _ _ (by omega) (by rw [hdata, length_replace])

end Entry

end ShardedHashTable

end DistCache.Cache
