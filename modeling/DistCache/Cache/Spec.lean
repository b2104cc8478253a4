import DistCache.Cache.Operations

namespace DistCache.Cache

namespace ShardedHashTable

variable {t : ShardedHashTable} {key : Bytes} {e : CacheEntry} {d : CacheData} {now : Int}

-- The entry the table holds for `key`, expired or not: what `shard.data.find(key)` sees.
def find (t : ShardedHashTable) (key : Bytes) : Option CacheEntry :=
  ((t.shard (t.getShardIndex key)).data.lookup key).map CacheData.entry

theorem find_eq_some : t.find key = some e ↔
    ∃ d, (t.shard (t.getShardIndex key)).data.lookup key = some d ∧ d.entry = e := by
  simp [find]

theorem find_eq_none : t.find key = none ↔ (t.shard (t.getShardIndex key)).data.lookup key = none := by
  simp [find]

-- After an operation on the key's own shard, the key's entry is read from the new shard.
theorem find_update {t' : ShardedHashTable} (hc : SameConfig t t') {i : Nat}
    (hi : t.getShardIndex key = i) (s : Shard) (M E : Nat) :
    (t'.update i s M E).find key = (s.data.lookup key).map CacheData.entry := by
  have hlt : i < t'.shards.length := by rw [hc.length, ← hi]; exact t.getShardIndex_lt key
  rw [find, getShardIndex_update, hc.getShardIndex, hi, shard_update_self hlt]

-- `set` reports success on every path.
theorem set_fst (t : ShardedHashTable) (key : Bytes) (e : CacheEntry) : (t.set key e).1 = true := by
  simp only [set]
  split <;> rfl

-- Whatever was stored and whatever eviction did, `set` leaves its own entry under its key.
theorem find_set (t : ShardedHashTable) (key : Bytes) (e : CacheEntry) :
    (t.set key e).2.find key = some e := by
  simp only [set]
  split
  · rename_i d hd
    rw [find_update (.refl t) rfl]
    simp [lookup_replace_self (Shard.WellFormed.mem_of_lookup hd)]
  · have hc : SameConfig t (if t.needsEviction (e.totalSize t.entryOverhead) then
        t.evictIfNeeded (t.getShardIndex key) (e.totalSize t.entryOverhead) else t) := by
      split
      · exact evictLoop_sameConfig _ _ _ t
      · exact .refl t
    rw [find_update hc rfl]
    simp

theorem find_del (t : ShardedHashTable) (key : Bytes) : (t.del key).2.find key = none := by
  simp only [del]
  split
  · rename_i hd
    exact find_eq_none.mpr hd
  · rw [find_update (.refl t) rfl]
    simp [AList.lookup_erase]

theorem get_of_find_none (h : t.find key = none) (now : Int) : t.get key now = (none, t) := by
  simp [get, find_eq_none.mp h]

theorem get_of_expired (h : t.find key = some e) (hx : e.isExpired now = true) :
    t.get key now = (none, t) := by
  obtain ⟨d, hd, rfl⟩ := find_eq_some.mp h
  simp [get, hd, hx]

-- A live entry is returned touched, and stays stored touched.
theorem get_of_live (h : t.find key = some e) (hx : e.isExpired now = false) :
    (t.get key now).1 = some (e.touch now) ∧ (t.get key now).2.find key = some (e.touch now) := by
  obtain ⟨d, hd, rfl⟩ := find_eq_some.mp h
  simp only [get, hd, hx, Bool.false_eq_true, if_false, true_and]
  rw [find_update (.refl t) rfl]
  simp [lookup_replace_self (Shard.WellFormed.mem_of_lookup hd)]

theorem compareAndSwap_of_find_none (h : t.find key = none) (ev : Int) (e' : CacheEntry) :
    t.compareAndSwap key ev e' now = (⟨false, 0, 0, "Key not found"⟩, t) := by
  simp [compareAndSwap, find_eq_none.mp h]

theorem compareAndSwap_of_expired (h : t.find key = some e) (hx : e.isExpired now = true)
    (ev : Int) (e' : CacheEntry) :
    t.compareAndSwap key ev e' now = (⟨false, 0, 0, "Key expired"⟩, t) := by
  obtain ⟨d, hd, rfl⟩ := find_eq_some.mp h
  simp [compareAndSwap, hd, hx]

theorem compareAndSwap_of_mismatch (h : t.find key = some e) (hx : e.isExpired now = false)
    {ev : Int} (hv : e.version ≠ ev) (e' : CacheEntry) :
    t.compareAndSwap key ev e' now = (⟨false, 0, e.version, "Version mismatch"⟩, t) := by
  obtain ⟨d, hd, rfl⟩ := find_eq_some.mp h
  simp [compareAndSwap, hd, hx, hv]

-- A matching version on a live entry: the new entry is stored one version up.
theorem compareAndSwap_of_match (h : t.find key = some e) (hx : e.isExpired now = false)
    (e' : CacheEntry) :
    (t.compareAndSwap key e.version e' now).1 = ⟨true, e.version + 1, 0, ""⟩ ∧
      (t.compareAndSwap key e.version e' now).2.find key =
        some { e' with version := e.version + 1, modifiedAtMs := now, lastAccessedMs := now } := by
  obtain ⟨d, hd, rfl⟩ := find_eq_some.mp h
  simp only [compareAndSwap, hd, hx, Bool.false_eq_true, if_false, ne_eq, not_true_eq_false,
    true_and]
  rw [find_update (.refl t) rfl]
  simp [lookup_replace_self (Shard.WellFormed.mem_of_lookup hd)]

section Frame

variable {k : Bytes}

-- An update of shard `i` leaves the keys of the other shards alone.
theorem find_update_of_ne {i : Nat} (hk : t.getShardIndex k ≠ i) (s : Shard) (M E : Nat) :
    (t.update i s M E).find k = t.find k := by
  rw [find, getShardIndex_update, shard_update_ne hk, find]

-- An update of `key`'s shard whose map is unchanged at `k` leaves `k`'s entry alone.
theorem find_update_ne {t' : ShardedHashTable} (hc : SameConfig t t') {s : Shard}
    (hs : s.data.lookup k = (t'.shard (t.getShardIndex key)).data.lookup k) (M E : Nat) :
    (t'.update (t.getShardIndex key) s M E).find k = t'.find k := by
  by_cases hi : t.getShardIndex k = t.getShardIndex key
  · rw [find_update hc hi, hs, find, hc.getShardIndex, hi]
  · rw [find_update_of_ne (by rwa [hc.getShardIndex])]

-- An update whose new shard holds only entries of the old one adds no entry.
theorem find_update_sub {i : Nat} {s : Shard}
    (hs : ∀ k d, s.data.lookup k = some d → (t.shard i).data.lookup k = some d) {M E : Nat}
    (h : (t.update i s M E).find k = some e) : t.find k = some e := by
  by_cases hk : t.getShardIndex k = i
  · rw [find_update (.refl t) hk] at h
    obtain ⟨d, hd, rfl⟩ := Option.map_eq_some'.mp h
    rw [find, hk, hs k d hd]
    rfl
  · rwa [find_update_of_ne hk] at h

-- Eviction only removes entries.
theorem find_evictLoop (i r : Nat) : ∀ fuel t, (evictLoop i r fuel t).find k = some e → t.find k = some e
  | 0, t, h => h
  | fuel + 1, t, h => by
    simp only [evictLoop] at h
    split at h
    · split at h
      · exact h
      · rename_i back _
        split at h
        · refine find_update_sub (fun k' d hd => ?_) (find_evictLoop i r fuel _ h)
          by_cases hb : k' = back.key
          · rw [hb, AList.lookup_erase] at hd
            cases hd
          · rwa [AList.lookup_erase_ne hb] at hd
        · refine find_update_sub ?_ (find_evictLoop i r fuel _ h)
          exact fun _ _ hd => hd
    · exact h

theorem find_get_ne (hk : k ≠ key) (now : Int) : (t.get key now).2.find k = t.find k := by
  simp only [get]
  split
  · rfl
  · split
    · rfl
    · exact find_update_ne (.refl t) (lookup_replace_ne hk _) _ _

theorem find_del_ne (hk : k ≠ key) : (t.del key).2.find k = t.find k := by
  simp only [del]
  split
  · rfl
  · exact find_update_ne (.refl t) (AList.lookup_erase_ne hk) _ _

theorem find_compareAndSwap_ne (hk : k ≠ key) (ev : Int) (e' : CacheEntry) (now : Int) :
    (t.compareAndSwap key ev e' now).2.find k = t.find k := by
  simp only [compareAndSwap]
  split
  · rfl
  · split
    · rfl
    · split
      · rfl
      · exact find_update_ne (.refl t) (lookup_replace_ne hk _) _ _

-- `set` leaves every other key's entry alone, unless its eviction removed it.
theorem find_set_ne (hk : k ≠ key) {e' : CacheEntry} (h : (t.set key e).2.find k = some e') :
    t.find k = some e' := by
  simp only [set] at h
  split at h
  · rwa [find_update_ne (.refl t) (lookup_replace_ne hk _)] at h
  · split at h
    · have hc : SameConfig t (t.evictIfNeeded (t.getShardIndex key) (e.totalSize t.entryOverhead)) :=
        evictLoop_sameConfig _ _ _ t
      rw [find_update_ne hc (AList.lookup_insert_ne hk)] at h
      exact find_evictLoop _ _ _ t h
    · rwa [find_update_ne (.refl t) (AList.lookup_insert_ne hk)] at h

-- Without eviction, `set` leaves every other key's entry alone.
theorem find_set_ne_of_fits (hk : k ≠ key)
    (hn : ((t.find key).isNone && t.needsEviction (e.totalSize t.entryOverhead)) = false) :
    (t.set key e).2.find k = t.find k := by
  simp only [set]
  split
  · exact find_update_ne (.refl t) (lookup_replace_ne hk _) _ _
  · rename_i hd
    have hfit : t.needsEviction (e.totalSize t.entryOverhead) = false := by simpa [find, hd] using hn
    simp only [hfit, Bool.false_eq_true, if_false]
    exact find_update_ne (.refl t) (AList.lookup_insert_ne hk) _ _

end Frame

end ShardedHashTable

end DistCache.Cache
