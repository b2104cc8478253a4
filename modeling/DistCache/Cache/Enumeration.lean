import DistCache.Cache.Lru
import DistCache.Cache.Spec

namespace DistCache.Cache

namespace ShardedHashTable

variable {t : ShardedHashTable}

theorem shards_eq_map_shard (t : ShardedHashTable) :
    t.shards = (List.range t.shards.length).map t.shard := by
  refine List.ext_getElem (by simp) fun j h₁ h₂ => ?_
  simp [shard, List.getD_eq_getElem?_getD, h₁]

-- The pairs `for_each` passes from shard `j`.
theorem mem_liveEntries (j : Nat) (now : Int) (k : Bytes) (e : CacheEntry) :
    (k, e) ∈ ((t.shard j).data.entries.filter fun x => !x.2.entry.isExpired now).map
        (fun x => (x.1, x.2.entry)) ↔
      ∃ d, (t.shard j).data.lookup k = some d ∧ d.entry = e ∧ e.isExpired now = false := by
  simp only [List.mem_map, List.mem_filter, Bool.not_eq_true', Prod.mk.injEq]
  constructor
  · rintro ⟨⟨k', d⟩, ⟨hm, hx⟩, rfl, rfl⟩
    exact ⟨d, AList.mem_lookup_iff.mpr hm, rfl, hx⟩
  · rintro ⟨d, hd, rfl, hx⟩
    exact ⟨⟨k, d⟩, ⟨AList.mem_lookup_iff.mp hd, hx⟩, rfl, rfl⟩

theorem mem_forEach (hp : t.Placed) (now : Int) (k : Bytes) (e : CacheEntry) :
    (k, e) ∈ t.forEach now ↔ t.find k = some e ∧ e.isExpired now = false := by
  rw [forEach, shards_eq_map_shard t, List.flatMap_map]
  simp only [List.mem_flatMap, List.mem_range, mem_liveEntries, find_eq_some]
  constructor
  · rintro ⟨j, -, d, hd, rfl, hx⟩
    have hj : t.getShardIndex k = j := hp j k (AList.lookup_isSome.mp (by simp [hd]))
    exact ⟨⟨d, hj ▸ hd, rfl⟩, hx⟩
  · rintro ⟨⟨d, hd, rfl⟩, hx⟩
    exact ⟨t.getShardIndex k, t.getShardIndex_lt k, d, hd, rfl, hx⟩

theorem forEach_keys_nodup (hp : t.Placed) (now : Int) : ((t.forEach now).map Prod.fst).Nodup := by
  rw [forEach, shards_eq_map_shard t, List.flatMap_map, List.map_flatMap, List.nodup_flatMap]
  refine ⟨fun j _ => ?_, (List.nodup_range _).imp fun hne => ?_⟩
  · -- within a shard: the keys of an association list
    have h := (t.shard j).data.nodupKeys.sublist
      (List.filter_sublist (p := fun x => !x.2.entry.isExpired now) _)
    simpa only [List.map_map, Function.comp_def] using h
  · -- across shards: a key is only in the shard of its hash
    simp only [List.map_map]
    intro k hk hk'
    simp only [List.mem_map, List.mem_filter, Function.comp_apply] at hk hk'
    obtain ⟨x, ⟨hm, -⟩, rfl⟩ := hk
    obtain ⟨y, ⟨hm', -⟩, he⟩ := hk'
    have h₁ := hp _ _ (List.mem_keys_of_mem hm)
    have h₂ := hp _ _ (List.mem_keys_of_mem hm')
    rw [he] at h₂
    exact hne (h₁.symm.trans h₂)

-- Over every run of the engine, `for_each` passes each live entry of the map once.
theorem exec_forEach (n maxMemory overhead : Nat) (hash : Bytes → Nat) (hn : 0 < n)
    (ops : List Op) (now : Int) :
    let t := (create n maxMemory overhead hash hn).exec ops
    ((t.forEach now).map Prod.fst).Nodup ∧
      ∀ k e, (k, e) ∈ t.forEach now ↔ t.find k = some e ∧ e.isExpired now = false := by
  intro t
  have hp : t.Placed := (exec_lruInvariant ops _ [] (create_invariant n maxMemory overhead hash hn)
    (.create [] _ _ _ _ hn)).placed
  exact ⟨forEach_keys_nodup hp now, mem_forEach hp now⟩

theorem exec_forEach_two_shards :
    0 < 2 ∧
      let t := (create 2 64 0 List.length (by decide)).exec
        [.set [1] (.init [1] [7] none 0), .set [2] (.init [2] [9] (some 1) 0), .del [3]]
      ((t.forEach 5000).map Prod.fst).Nodup ∧
        ∀ k e, (k, e) ∈ t.forEach 5000 ↔ t.find k = some e ∧ e.isExpired 5000 = false :=
  ⟨by decide, exec_forEach 2 64 0 List.length (by decide) _ 5000⟩

end ShardedHashTable

end DistCache.Cache
