import DistCache.Cache.Invariant

namespace DistCache.Cache

namespace ShardedHashTable

variable {t : ShardedHashTable} {i : Nat}

theorem evictLoop_sameConfig (i r : Nat) : ∀ fuel t, SameConfig t (evictLoop i r fuel t)
  | 0, t => .refl t
  | fuel + 1, t => by
    simp only [evictLoop]
    split
    · split
      · exact .refl t
      · split
        · exact (sameConfig_update _ _ _ _).trans (evictLoop_sameConfig i r fuel _)
        · exact (sameConfig_update _ _ _ _).trans (evictLoop_sameConfig i r fuel _)
    · exact .refl t

-- Eviction drains shard `i` only.
theorem evictLoop_shard_ne (i r : Nat) {j : Nat} (h : j ≠ i) :
    ∀ fuel t, (evictLoop i r fuel t).shard j = t.shard j
  | 0, t => rfl
  | fuel + 1, t => by
    simp only [evictLoop]
    split
    · split
      · rfl
      · split
        · rw [evictLoop_shard_ne i r h fuel]
          exact shard_update_ne h
        · rw [evictLoop_shard_ne i r h fuel]
          exact shard_update_ne h
    · rfl

-- Eviction only removes keys.
theorem evictLoop_lookup_none (i r : Nat) {k : Bytes} :
    ∀ fuel t, i < t.shards.length → (t.shard i).data.lookup k = none →
      ((evictLoop i r fuel t).shard i).data.lookup k = none
  | 0, t, _, h => h
  | fuel + 1, t, hi, h => by
    simp only [evictLoop]
    split
    · split
      · exact h
      · rename_i back _
        split
        · refine evictLoop_lookup_none i r fuel _ (by simpa using hi) ?_
          rw [shard_update_self hi]
          by_cases hk : k = back.key
          · subst hk
            exact AList.lookup_erase _ _
          · rw [AList.lookup_erase_ne hk]
            exact h
        · refine evictLoop_lookup_none i r fuel _ (by simpa using hi) ?_
          rw [shard_update_self hi]
          exact h
    · exact h

private theorem take_of_dropLast {L L₁ L₂ : List LruNode} (h₁ : L₁ = L.dropLast)
    (h₂ : ∃ m, L₂ = L₁.take m) : ∃ m, L₂ = L.take m := by
  obtain ⟨m, rfl⟩ := h₂
  subst h₁
  exact ⟨min m (L.length - 1), by rw [List.dropLast_eq_take, List.take_take]⟩

-- Every pass pops the back of shard `i`'s list, so what is left is a prefix of it.
theorem evictLoop_lruList (i r : Nat) :
    ∀ fuel t, i < t.shards.length →
      ∃ m, ((evictLoop i r fuel t).shard i).lruList = (t.shard i).lruList.take m
  | 0, t, _ => ⟨(t.shard i).lruList.length, by simp [evictLoop]⟩
  | fuel + 1, t, hi => by
    simp only [evictLoop]
    split
    · split
      · exact ⟨(t.shard i).lruList.length, by simp⟩
      · split <;>
        exact take_of_dropLast (by rw [shard_update_self hi])
          (evictLoop_lruList i r fuel _ (by simpa using hi))
    · exact ⟨(t.shard i).lruList.length, by simp⟩

theorem evictLoop_invariant (i r : Nat) :
    ∀ fuel t, t.Invariant → i < t.shards.length → (evictLoop i r fuel t).Invariant
  | 0, t, ht, _ => ht
  | fuel + 1, t, ht, hi => by
    have hw := ht.wf i
    simp only [evictLoop]
    split
    · split
      · exact ht
      · rename_i back hb
        split
        · rename_i d hd
          exact evictLoop_invariant i r fuel _
            (ht.update_erase hi hd (hw.popBack hb _ (hw.memory_erase hd)) rfl rfl) (by simpa using hi)
        · exact absurd (hw.back_mem hb) (by simp [AList.lookup_isSome.symm, *])
    · exact ht

theorem evictIfNeeded_invariant (ht : t.Invariant) (hi : i < t.shards.length) (r : Nat) :
    (t.evictIfNeeded i r).Invariant :=
  evictLoop_invariant i r _ t ht hi

theorem get_invariant (ht : t.Invariant) (key : Bytes) (now : Int) :
    (t.get key now).2.Invariant := by
  have hi := t.getShardIndex_lt key
  have hw := ht.wf (t.getShardIndex key)
  simp only [get]
  split
  · exact ht
  · rename_i d hd
    split
    · exact ht
    · have hm := hw.memory_replace hd (d.entry.touch now)
      rw [CacheEntry.totalSize_touch, Nat.sub_add_cancel (hw.size_le hd)] at hm
      exact ht.update hi (hw.replace hd _ _ hm) _ _ (by simp) (by simp)

-- The insertion branch of `set`, after the eviction it may run.
theorem insert_invariant (ht : t.Invariant) (hi : i < t.shards.length) {key : Bytes}
    (hk : (t.shard i).data.lookup key = none) (entry : CacheEntry) :
    (t.update i { t.shard i with data := (t.shard i).data.insert key ⟨entry, (t.shard i).nextNode⟩,
                                 lruList := ⟨(t.shard i).nextNode, key⟩ :: (t.shard i).lruList,
                                 memoryBytes := (t.shard i).memoryBytes + entry.totalSize t.entryOverhead,
                                 nextNode := (t.shard i).nextNode + 1 }
        (t.totalMemoryBytes + entry.totalSize t.entryOverhead) (t.totalEntries + 1)).Invariant := by
  have hw := ht.wf i
  have hk' : key ∉ (t.shard i).data := AList.lookup_eq_none.mp hk
  refine ht.update hi (hw.insert hk' _ _ ?_) _ _ ?_ ?_
  · rw [dataSize_insert t.entryOverhead hk', hw.memory]
    simp only
    omega
  · simp only
    omega
  · simp only [length_insert hk']
    omega

theorem set_invariant (ht : t.Invariant) (key : Bytes) (entry : CacheEntry) :
    (t.set key entry).2.Invariant := by
  have hi := t.getShardIndex_lt key
  have hw := ht.wf (t.getShardIndex key)
  simp only [set]
  split
  · rename_i d hd
    exact ht.update_replace hi hd entry (hw.replace hd _ _ (hw.memory_replace hd entry)) rfl rfl
  · rename_i hd
    split
    · have hc : SameConfig t (t.evictIfNeeded (t.getShardIndex key) (entry.totalSize t.entryOverhead)) :=
        evictLoop_sameConfig _ _ _ t
      have := insert_invariant (evictIfNeeded_invariant ht hi (entry.totalSize t.entryOverhead))
        (by rw [hc.length]; exact hi)
        (evictLoop_lookup_none _ _ _ t hi hd) entry
      rwa [hc.entryOverhead] at this
    · exact insert_invariant ht hi hd entry

theorem del_invariant (ht : t.Invariant) (key : Bytes) : (t.del key).2.Invariant := by
  have hi := t.getShardIndex_lt key
  have hw := ht.wf (t.getShardIndex key)
  simp only [del]
  split
  · exact ht
  · rename_i d hd
    exact ht.update_erase hi hd (hw.erase hd _ (hw.memory_erase hd)) rfl rfl

theorem compareAndSwap_invariant (ht : t.Invariant) (key : Bytes) (ev : Int) (e : CacheEntry)
    (now : Int) : (t.compareAndSwap key ev e now).2.Invariant := by
  have hi := t.getShardIndex_lt key
  have hw := ht.wf (t.getShardIndex key)
  simp only [compareAndSwap]
  split
  · exact ht
  · rename_i d hd
    split
    · exact ht
    · split
      · exact ht
      · exact ht.update_replace hi hd _ (hw.replace hd _ _ (hw.memory_replace hd _)) rfl rfl

theorem clear_invariant (t : ShardedHashTable) : t.clear.Invariant := by
  refine ⟨fun s hs => ?_, ?_, ?_⟩
  · obtain ⟨s₀, -, rfl⟩ := List.mem_map.mp hs
    exact ⟨List.nodup_nil, by simp [AList.not_mem_empty], by simp [AList.lookup_empty],
      List.nodup_nil, by simp, rfl⟩
  · simp [clear, Function.comp_def]
  · simp [clear, Function.comp_def]

theorem step_invariant (ht : t.Invariant) : ∀ op, (t.step op).Invariant
  | .get key now => get_invariant ht key now
  | .set key entry => set_invariant ht key entry
  | .del key => del_invariant ht key
  | .compareAndSwap key ev e now => compareAndSwap_invariant ht key ev e now
  | .keyExists _ _ => ht
  | .forEach _ => ht
  | .clear => clear_invariant t

theorem exec_invariant (ops : List Op) : ∀ t : ShardedHashTable, t.Invariant → (t.exec ops).Invariant := by
  induction ops with
  | nil => exact fun _ ht => ht
  | cons op ops ih => exact fun t ht => ih _ (step_invariant ht op)

theorem create_invariant (n max overhead : Nat) (hash : Bytes → Nat) (hn : 0 < n) :
    (create n max overhead hash hn).Invariant := by
  refine ⟨fun s hs => ?_, ?_, ?_⟩
  · obtain rfl := List.eq_of_mem_replicate hs
    exact Shard.WellFormed.default_wf _
  · simp [create]
  · simp [create]

-- No subtraction in `set`, `del`, `compare_and_swap` and `evict_if_needed` goes below zero.
theorem Invariant.no_underflow (ht : t.Invariant) :
    ∀ s ∈ t.shards, ∀ k d, s.data.lookup k = some d →
      d.entry.totalSize t.entryOverhead ≤ s.memoryBytes ∧ s.memoryBytes ≤ t.memoryUsage ∧
        1 ≤ t.size := by
  intro s hs k d h
  have hw := ht.shards s hs
  have hlen : 1 ≤ s.data.entries.length := by
    have := length_erase (Shard.WellFormed.mem_of_lookup h)
    omega
  refine ⟨hw.size_le h, ?_, ?_⟩
  · rw [memoryUsage, ht.memory]
    exact List.le_sum_of_mem (List.mem_map_of_mem Shard.memoryBytes hs)
  · rw [size, ht.entries]
    exact hlen.trans (List.le_sum_of_mem (List.mem_map_of_mem (fun s : Shard => s.data.entries.length) hs))

theorem exec_representation (n maxMemory overhead : Nat) (hash : Bytes → Nat) (hn : 0 < n)
    (ops : List Op) :
    let t := (create n maxMemory overhead hash hn).exec ops
    t.Invariant ∧ t.memoryUsage = (t.shards.map Shard.memoryBytes).sum ∧
      t.size = (t.shards.map fun s => s.data.entries.length).sum ∧
      ∀ s ∈ t.shards, ∀ k d, s.data.lookup k = some d →
        d.entry.totalSize t.entryOverhead ≤ s.memoryBytes ∧ s.memoryBytes ≤ t.memoryUsage ∧
          1 ≤ t.size := by
  have ht := exec_invariant ops _ (create_invariant n maxMemory overhead hash hn)
  exact ⟨ht, ht.memory, ht.entries, ht.no_underflow⟩

theorem exec_representation_256 :
    0 < 256 ∧
      let t := (create 256 (1024 * 1024 * 1024) 168 List.length (by decide)).exec [.set [7] (.init [7] [1] none 0)]
      t.Invariant ∧ t.memoryUsage = (t.shards.map Shard.memoryBytes).sum ∧
        t.size = (t.shards.map fun s => s.data.entries.length).sum ∧
        ∀ s ∈ t.shards, ∀ k d, s.data.lookup k = some d →
          d.entry.totalSize t.entryOverhead ≤ s.memoryBytes ∧ s.memoryBytes ≤ t.memoryUsage ∧
            1 ≤ t.size :=
  ⟨by decide, exec_representation 256 (1024 * 1024 * 1024) 168 List.length (by decide) _⟩

end ShardedHashTable

end DistCache.Cache
