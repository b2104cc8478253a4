import DistCache.Cache.Spec

namespace DistCache.Cache

namespace ShardedHashTable

variable {t : ShardedHashTable} {key : Bytes} {e : CacheEntry}

-- `set` never reports failure, and the new entry's size is always counted.
theorem set_memoryUsage_ge (ht : t.Invariant) (key : Bytes) (e : CacheEntry) :
    e.totalSize t.entryOverhead ≤ (t.set key e).2.memoryUsage := by
  simp only [set]
  split
  · rename_i d hd
    have := (ht.wf _).size_le hd
    have := ht.memoryBytes_le (t.getShardIndex key)
    simp only [memoryUsage, update_totalMemoryBytes]
    omega
  · simp [memoryUsage]

-- An entry larger than the cap is stored all the same, with `true`.
theorem set_over_cap (ht : t.Invariant) (key : Bytes) (hbig : t.maxMemoryBytes < e.totalSize t.entryOverhead) :
    (t.set key e).1 = true ∧ t.maxMemoryBytes < (t.set key e).2.memoryUsage ∧
      (t.set key e).2.find key = some e :=
  ⟨set_fst t key e, Nat.lt_of_lt_of_le hbig (set_memoryUsage_ge ht key e), find_set t key e⟩

-- One shard with a cap of 10 bytes: a 20-byte value under any key is stored, with `true`.
theorem set_over_cap_one_shard (key : Bytes) :
    let t := create 1 10 0 List.length (by decide)
    let e := CacheEntry.init key (List.replicate 20 0) none 0
    (t.set key e).1 = true ∧ t.maxMemoryBytes < (t.set key e).2.memoryUsage ∧
      (t.set key e).2.find key = some e :=
  set_over_cap (create_invariant 1 10 0 List.length (by decide)) key
    (by simp [create, CacheEntry.totalSize, CacheEntry.init])

end ShardedHashTable

end DistCache.Cache
