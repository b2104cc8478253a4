import DistCache.Service.CacheService
import DistCache.Persistence.Recovery
import DistCache.Replication.Properties

namespace DistCache

open Cache Service Persistence Replication

section Ttl

-- `1000 * t` in `int32_t`, for a TTL the server's validator accepts: exact up to 2147483 s.
theorem toInt32_accepted_ttl {t : Int} (ht : (serverValidator.validateTtl t).valid = true) :
    toInt32 (t * 1000) = if t ≤ 2147483 then t * 1000 else t * 1000 - 4294967296 := by
  have h := Validator.validateTtl_valid.mp ht
  simp only [serverValidator] at h
  unfold toInt32
  split_ifs <;> omega

-- An entry that has expired when it is stored is missed by every later `get`.
theorem get_set_of_expired (storage : ShardedHashTable) {k : Bytes} {e : CacheEntry} {c : Int}
    (hx : ∀ now, c ≤ now → e.isExpired now = true) {now : Int} (hc : c ≤ now) :
    ((storage.set k e).2.get k now).1 = none := by
  rw [ShardedHashTable.get_of_expired (ShardedHashTable.find_set storage k e) (hx now hc)]

-- Past 2147483 s, an accepted TTL has expired before the entry is stored.
theorem accepted_ttl_overflows {t : Int} (ht : (serverValidator.validateTtl t).valid = true)
    (k v : Bytes) (c : Int) (e : WALEntry) :
    let entry := CacheEntry.init k v (some t) c
    let replayed := RecoveryManager.walCacheEntry { e with ttlSeconds := some t, timestampMs := c }
    (entry.expiresAtMs = some (c + 1000 * t) ↔ t ≤ 2147483) ∧
      replayed.expiresAtMs = entry.expiresAtMs ∧
      (2147483 < t → ∀ (storage : ShardedHashTable) (now : Int), c ≤ now →
        ((storage.set k entry).2.get k now).1 = none ∧
          ((storage.set e.key replayed).2.get e.key now).1 = none) := by
  intro entry replayed
  have hm := toInt32_accepted_ttl ht
  have hv := Validator.validateTtl_valid.mp ht
  simp only [serverValidator] at hv
  have hexp : entry.expiresAtMs = some (c + toInt32 (t * 1000)) := rfl
  have hx : 2147483 < t → ∀ now, c ≤ now → entry.isExpired now = true := fun hlt now hc => by
    rw [hm, if_neg (by omega)] at hexp
    simp only [CacheEntry.isExpired, hexp, decide_eq_true_eq]
    omega
  refine ⟨?_, rfl, fun hlt storage now hc => ⟨get_set_of_expired storage (hx hlt) hc,
    get_set_of_expired storage (e := replayed) (hx hlt) hc⟩⟩
  rw [hexp, hm, Option.some_inj]
  split_ifs <;> omega

theorem accepted_ttl_overflows_thirty_days :
    (serverValidator.validateTtl 2592000).valid = true ∧
      let entry := CacheEntry.init [1] [1] (some 2592000) 0
      let replayed := RecoveryManager.walCacheEntry
        { (⟨.set, 1, 0, [1], [1], 1, none, none⟩ : WALEntry) with ttlSeconds := some 2592000, timestampMs := 0 }
      (entry.expiresAtMs = some (0 + 1000 * 2592000) ↔ (2592000 : Int) ≤ 2147483) ∧
        replayed.expiresAtMs = entry.expiresAtMs ∧
        ((2147483 : Int) < 2592000 → ∀ (storage : ShardedHashTable) (now : Int), 0 ≤ now →
          ((storage.set [1] entry).2.get [1] now).1 = none ∧
            ((storage.set [1] replayed).2.get [1] now).1 = none) :=
  ⟨by decide, accepted_ttl_overflows (by decide) [1] [1] 0 ⟨.set, 1, 0, [1], [1], 1, none, none⟩⟩

end Ttl

section Follower

-- The entry a follower stores for a replicated SET has no expiry.
theorem find_replicate_set (storage : ShardedHashTable) (now : Int) (entries : List ReplicationEntry)
    {entry : ReplicationEntry} (hset : entry.op = .set) :
    (replicate storage now (entries ++ [entry])).2.find entry.key =
      some { CacheEntry.empty with
        value := entry.value
        ttlSeconds := if 0 < entry.ttlSeconds then some entry.ttlSeconds else none
        version := entry.version
        createdAtMs := now
        lastAccessedMs := now } := by
  simp only [replicate, applyEntries_append, applyEntry, hset, ShardedHashTable.find_set]

-- A follower's replicated entry never expires, while the primary's does.
theorem replicated_entry_never_expires (storage : ShardedHashTable) (now : Int)
    (entries : List ReplicationEntry) {entry : ReplicationEntry} (hset : entry.op = .set)
    (later : Int) :
    let follower := (replicate storage now (entries ++ [entry])).2
    ((follower.find entry.key).map fun c => (c.value, c.version, c.ttlSeconds, c.expiresAtMs)) =
        some (entry.value, entry.version,
          if 0 < entry.ttlSeconds then some entry.ttlSeconds else none, none) ∧
      ((follower.get entry.key later).1.map fun c => (c.value, c.version)) =
        some (entry.value, entry.version) ∧
      (0 < entry.ttlSeconds → entry.ttlSeconds ≤ 2147483 →
        (CacheEntry.init entry.key entry.value (some entry.ttlSeconds) now).isExpired
          (now + 1000 * entry.ttlSeconds + 1) = true) := by
  intro follower
  have hf := find_replicate_set storage now entries hset
  refine ⟨by rw [hf]; rfl, ?_, fun hpos hle => ?_⟩
  · rw [(ShardedHashTable.get_of_live hf rfl).1]
    rfl
  · have hm : toInt32 (entry.ttlSeconds * 1000) = entry.ttlSeconds * 1000 :=
      toInt32_of_range (by omega) (by omega)
    simp only [CacheEntry.isExpired, CacheEntry.init, Option.map_some', hm, decide_eq_true_eq]
    omega

theorem replicated_entry_never_expires_sixty :
    ({ op := .set, key := [1], value := [2], ttlSeconds := 60, version := 3 } : ReplicationEntry).op =
        .set ∧
      let follower := (replicate (ShardedHashTable.create 1 1024 0 List.length (by decide)) 0
        [{ op := .set, key := [1], value := [2], ttlSeconds := 60, version := 3 }]).2
      ((follower.find [1]).map fun c => (c.value, c.version, c.ttlSeconds, c.expiresAtMs)) =
          some ([2], 3, if (0 : Int) < 60 then some 60 else none, none) ∧
        ((follower.get [1] 3600000).1.map fun c => (c.value, c.version)) = some ([2], 3) ∧
        ((0 : Int) < 60 → (60 : Int) ≤ 2147483 →
          (CacheEntry.init [1] [2] (some 60) 0).isExpired (0 + 1000 * 60 + 1) = true) :=
  ⟨rfl, @replicated_entry_never_expires (ShardedHashTable.create 1 1024 0 List.length (by decide)) 0 []
    { op := .set, key := [1], value := [2], ttlSeconds := 60, version := 3 } rfl 3600000⟩

end Follower

end DistCache
