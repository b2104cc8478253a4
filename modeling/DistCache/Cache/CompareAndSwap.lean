import DistCache.Cache.Lru
import DistCache.Cache.Refinement

namespace DistCache.Cache

namespace ShardedHashTable

-- What one call reports for `k`: its success, if it is a `compare_and_swap` on `k`.
def casOutcome (k : Bytes) (t : ShardedHashTable) : Op → List Bool
  | .compareAndSwap key ev e now =>
    if key = k then [(t.compareAndSwap key ev e now).1.success] else []
  | _ => []

-- The outcome of every `compare_and_swap` on `k` along a run, in order.
def casOutcomes (k : Bytes) : ShardedHashTable → List Op → List Bool
  | _, [] => []
  | t, op :: ops => casOutcome k t op ++ casOutcomes k (t.step op) ops

-- No entry under `k` carries version `ev`, so a `compare_and_swap` on `k` expecting it fails.
def Superseded (t : ShardedHashTable) (k : Bytes) (ev : Int) : Prop :=
  ∀ y, t.find k = some y → y.version ≠ ev

variable {t : ShardedHashTable} {k : Bytes} {ev : Int} {x : CacheEntry} {now : Int}

-- The three failures answer from the entry found, and leave the table as it was.
theorem compareAndSwap_eq (t : ShardedHashTable) (k : Bytes) (ev : Int) (e : CacheEntry)
    (now : Int) :
    (t.compareAndSwap k ev e now).1.success = true ∧
        (∃ x, t.find k = some x ∧ x.isExpired now = false ∧ x.version = ev) ∨
      (t.compareAndSwap k ev e now).1.success = false ∧ (t.compareAndSwap k ev e now).2 = t ∧
        ¬(∃ x, t.find k = some x ∧ x.isExpired now = false ∧ x.version = ev) ∧
        ∀ x, t.find k = some x → x.isExpired now = false →
          (t.compareAndSwap k ev e now).1.actualVersion = x.version := by
  cases h : t.find k with
  | none => exact .inr (by simp [compareAndSwap_of_find_none h])
  | some x =>
    cases hx : x.isExpired now
    · by_cases hv : x.version = ev
      · subst hv
        exact .inl ⟨by simp [(compareAndSwap_of_match h hx e).1], x, rfl, hx, rfl⟩
      · exact .inr (by simp [compareAndSwap_of_mismatch h hx hv, hv])
    · exact .inr (by simp [compareAndSwap_of_expired h hx, hx])

-- A success moves the key's node to the front of its shard's LRU list.
theorem compareAndSwap_lru_front (ht : t.Invariant) (h : t.find k = some x)
    (hx : x.isExpired now = false) (e : CacheEntry) :
    ((t.compareAndSwap k x.version e now).2.shard (t.getShardIndex k)).lruList.head?.map
      LruNode.key = some k := by
  obtain ⟨d, hd, rfl⟩ := find_eq_some.mp h
  have hw := ht.wf (t.getShardIndex k)
  simp only [compareAndSwap, hd, hx, Bool.false_eq_true, if_false, ne_eq, not_true_eq_false,
    shard_update_self (t.getShardIndex_lt k), LruList.splice_eq hw.ids_nodup (hw.iter_key k d hd)]
  rfl

-- Every call but a `set` of `k` or a `compare_and_swap` on `k` keeps `k` superseded.
theorem Superseded.step (hs : t.Superseded k ev) :
    ∀ op : Op, (∀ e, op ≠ .set k e) → (∀ ev' e now, op = .compareAndSwap k ev' e now → ev' = ev) →
      (t.step op).Superseded k ev
  | .get key now, _, _ => by
    intro y hy
    by_cases hk : key = k
    · subst hk
      rw [ShardedHashTable.step, find_get_self] at hy
      cases h : t.find key with
      | none => simp [h, AbsCache.touched] at hy
      | some z =>
        cases hz : z.isExpired now <;> simp only [h, hz, AbsCache.touched, if_true, if_false,
          Bool.false_eq_true, Option.some.injEq] at hy <;> subst hy <;> simpa using hs z h
    · exact hs y (by rwa [ShardedHashTable.step, find_get_ne (Ne.symm hk)] at hy)
  | .set key e, hset, _ => fun y hy =>
    hs y (find_set_ne (fun hk => hset e (by rw [hk])) hy)
  | .del key, _, _ => fun y hy => by
    by_cases hk : key = k
    · subst hk
      simp [ShardedHashTable.step, find_del] at hy
    · exact hs y (by rwa [ShardedHashTable.step, find_del_ne (Ne.symm hk)] at hy)
  | .compareAndSwap key ev' e now, _, hcas => by
    by_cases hk : key = k
    · subst hk
      obtain rfl := hcas ev' e now rfl
      rcases compareAndSwap_eq t key ev' e now with ⟨-, y, hy, -, hv⟩ | ⟨-, hsame, -⟩
      · exact absurd hv (hs y hy)
      · rwa [ShardedHashTable.step, hsame]
    · intro y hy
      exact hs y (by rwa [ShardedHashTable.step, find_compareAndSwap_ne (Ne.symm hk)] at hy)
  | .keyExists _ _, _, _ => hs
  | .forEach _, _, _ => hs
  | .clear, _, _ => fun y hy => by simp [ShardedHashTable.step, find_clear] at hy

theorem casOutcome_of_superseded (hs : t.Superseded k ev) :
    ∀ op : Op, (∀ ev' e now, op = .compareAndSwap k ev' e now → ev' = ev) →
      true ∉ casOutcome k t op
  | .compareAndSwap key ev' e now, hcas => by
    simp only [casOutcome]
    split
    · rename_i hk
      subst hk
      obtain rfl := hcas ev' e now rfl
      rcases compareAndSwap_eq t key ev' e now with ⟨-, y, hy, -, hv⟩ | ⟨hf, -⟩
      · exact absurd hv (hs y hy)
      · simp [hf]
    · simp
  | .get _ _, _ | .set _ _, _ | .del _, _ | .keyExists _ _, _ | .forEach _, _ | .clear, _ => by
    simp [casOutcome]

-- Once `k` is superseded, no later `compare_and_swap` on `k` expecting the old version succeeds.
theorem casOutcomes_of_superseded (hcas : ∀ ev' e now, .compareAndSwap k ev' e now ∈ ops → ev' = ev)
    (hset : ∀ e, .set k e ∉ ops) : ∀ t : ShardedHashTable, t.Superseded k ev →
      true ∉ casOutcomes k t ops := by
  induction ops with
  | nil => simp [casOutcomes]
  | cons op ops ih =>
    intro t hs
    have hcas₁ : ∀ ev' e now, op = .compareAndSwap k ev' e now → ev' = ev := fun ev' e now h =>
      hcas ev' e now (h ▸ List.mem_cons_self _ _)
    have hset₁ : ∀ e, op ≠ .set k e := fun e h => hset e (h ▸ List.mem_cons_self _ _)
    simp only [casOutcomes, List.mem_append, not_or]
    exact ⟨casOutcome_of_superseded hs op hcas₁,
      ih (fun ev' e now h => hcas ev' e now (List.mem_cons_of_mem _ h))
        (fun e h => hset e (List.mem_cons_of_mem _ h)) _ (hs.step op hset₁ hcas₁)⟩

theorem casOutcomes_append (k : Bytes) :
    ∀ (t : ShardedHashTable) (pre ops : List Op),
      casOutcomes k t (pre ++ ops) = casOutcomes k t pre ++ casOutcomes k (t.exec pre) ops
  | _, [], _ => rfl
  | t, op :: pre, ops => by
    show casOutcome k t op ++ casOutcomes k (t.step op) (pre ++ ops) =
      (casOutcome k t op ++ casOutcomes k (t.step op) pre) ++ casOutcomes k ((t.step op).exec pre) ops
    rw [casOutcomes_append k (t.step op) pre ops, List.append_assoc]

-- A run with no `compare_and_swap` on `k` reports nothing for `k`.
theorem casOutcomes_eq_nil (hpre : ∀ ev e now, .compareAndSwap k ev e now ∉ pre) :
    ∀ t : ShardedHashTable, casOutcomes k t pre = [] := by
  induction pre with
  | nil => intro t; rfl
  | cons op pre ih =>
    intro t
    have hop : casOutcome k t op = [] := by
      cases op with
      | compareAndSwap key ev e now =>
        simp only [casOutcome]
        split
        · rename_i hk
          exact absurd (hk ▸ List.mem_cons_self _ _) (hpre ev e now)
        · rfl
      | _ => rfl
    simp only [casOutcomes, hop, List.nil_append]
    exact ih (fun ev e now h => hpre ev e now (List.mem_cons_of_mem _ h)) _

-- On a table reached from `create`, `compare_and_swap` is an atomic conditional update.
theorem compare_and_swap_atomic (n maxMemory overhead : Nat) (hash : Bytes → Nat) (hn : 0 < n)
    (ops : List Op) (k : Bytes) (ev : Int) (e : CacheEntry) (now : Int) :
    let t := (create n maxMemory overhead hash hn).exec ops
    let r := t.compareAndSwap k ev e now
    ((r.1.success = true ↔ ∃ x, t.find k = some x ∧ x.isExpired now = false ∧ x.version = ev) ∧
      (r.1.success = true → r.1.newVersion = ev + 1 ∧
        r.2.find k = some { e with version := ev + 1, modifiedAtMs := now, lastAccessedMs := now } ∧
        (r.2.shard (t.getShardIndex k)).lruList.head?.map LruNode.key = some k) ∧
      (r.1.success = false → r.2 = t ∧
        ∀ x, t.find k = some x → x.isExpired now = false → r.1.actualVersion = x.version)) ∧
    ∀ (pre post : List Op) (x : CacheEntry),
      (∀ ev' e' now', .compareAndSwap k ev' e' now' ∉ pre) →
      (t.exec pre).find k = some x → x.isExpired now = false →
      (∀ ev' e' now', .compareAndSwap k ev' e' now' ∈ post → ev' = x.version) →
      (∀ e', .set k e' ∉ post) →
      (casOutcomes k t (pre ++ .compareAndSwap k x.version e now :: post)).count true = 1 := by
  intro t r
  have ht : t.Invariant := exec_invariant ops _ (create_invariant n maxMemory overhead hash hn)
  refine ⟨⟨?_, fun hs => ?_, fun hf => ?_⟩, fun pre post x hpre hx hlive hcas hset => ?_⟩
  · rcases compareAndSwap_eq t k ev e now with ⟨hs, hx⟩ | ⟨hf, -, hx, -⟩
    · exact iff_of_true hs hx
    · simp only [r, hf, Bool.false_eq_true, false_iff]
      exact hx
  · rcases compareAndSwap_eq t k ev e now with ⟨-, x, hx, hlive, rfl⟩ | ⟨hf, -⟩
    · obtain ⟨hres, hfind⟩ := compareAndSwap_of_match hx hlive e
      exact ⟨by rw [hres], hfind, compareAndSwap_lru_front ht hx hlive e⟩
    · simp [r, hf] at hs
  · rcases compareAndSwap_eq t k ev e now with ⟨hs, -⟩ | ⟨-, hsame, -, hv⟩
    · simp [r, hs] at hf
    · exact ⟨hsame, hv⟩
  · obtain ⟨hres, hfind⟩ := compareAndSwap_of_match hx hlive e
    have hsup : ((t.exec pre).step (.compareAndSwap k x.version e now)).Superseded k x.version :=
      fun y hy => by
        rw [ShardedHashTable.step, hfind, Option.some.injEq] at hy
        subst hy
        show x.version + 1 ≠ x.version
        omega
    rw [casOutcomes_append, casOutcomes_eq_nil hpre, List.nil_append, casOutcomes]
    simp only [casOutcome, if_true, hres, List.singleton_append, List.count_cons_self,
      List.count_eq_zero.mpr (casOutcomes_of_superseded hcas hset _ hsup)]

theorem compare_and_swap_atomic_one_shard :
    0 < 1 ∧
      let t := (create 1 64 0 List.length (by decide)).exec [.set [1] (.init [1] [1] none 0)]
      let r := t.compareAndSwap [1] 1 (.init [1] [2] none 0) 5
      ((r.1.success = true ↔
          ∃ x, t.find [1] = some x ∧ x.isExpired 5 = false ∧ x.version = 1) ∧
        (r.1.success = true → r.1.newVersion = 1 + 1 ∧
          r.2.find [1] = some { CacheEntry.init [1] [2] none 0 with
            version := 1 + 1, modifiedAtMs := 5, lastAccessedMs := 5 } ∧
          (r.2.shard (t.getShardIndex [1])).lruList.head?.map LruNode.key = some [1]) ∧
        (r.1.success = false → r.2 = t ∧
          ∀ x, t.find [1] = some x → x.isExpired 5 = false → r.1.actualVersion = x.version)) ∧
      ∀ (pre post : List Op) (x : CacheEntry),
        (∀ ev' e' now', .compareAndSwap [1] ev' e' now' ∉ pre) →
        (t.exec pre).find [1] = some x → x.isExpired 5 = false →
        (∀ ev' e' now', .compareAndSwap [1] ev' e' now' ∈ post → ev' = x.version) →
        (∀ e', .set [1] e' ∉ post) →
        (casOutcomes [1] t
          (pre ++ .compareAndSwap [1] x.version (.init [1] [2] none 0) 5 :: post)).count true = 1 :=
  ⟨by decide, compare_and_swap_atomic 1 64 0 List.length (by decide) _ [1] 1 _ 5⟩

-- A successful `compare_and_swap` stamps the stored entry with the call's clock.
theorem compare_and_swap_restamps_entry :
    let t := ((create 1 64 0 List.length (by decide)).set [1] (.init [1] [1] none 0)).2
    let e := CacheEntry.init [1] [2] none 0
    (t.compareAndSwap [1] 1 e 5).1.success = true ∧
      (t.compareAndSwap [1] 1 e 5).2.find [1] ≠ some { e with version := 2 } := by
  intro t e
  have hm : (t.compareAndSwap [1] 1 e 5).1 = ⟨true, 1 + 1, 0, ""⟩ ∧
      (t.compareAndSwap [1] 1 e 5).2.find [1] =
        some { e with version := 1 + 1, modifiedAtMs := 5, lastAccessedMs := 5 } :=
    compareAndSwap_of_match (find_set _ _ _)
      (show (CacheEntry.init [1] [1] none 0).isExpired 5 = false from rfl) e
  rw [hm.1, hm.2]
  decide

end ShardedHashTable

end DistCache.Cache
