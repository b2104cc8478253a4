import DistCache.Cache.Spec

namespace DistCache.Cache

-- What the engine is for: a map from keys to entries, with none of its machinery.

abbrev AbsCache := Bytes → Option CacheEntry

namespace AbsCache

def empty : AbsCache := fun _ => none

def write (m : AbsCache) (key : Bytes) (f : Option CacheEntry → Option CacheEntry) : AbsCache :=
  fun k => if k = key then f (m key) else m k

-- What `get` returns: the live entry, touched.
def getResult (o : Option CacheEntry) (now : Int) : Option CacheEntry :=
  match o with
  | some e => if e.isExpired now then none else some (e.touch now)
  | none => none

-- What `get` leaves: a live entry touched, an expired one as it was.
def touched (now : Int) : Option CacheEntry → Option CacheEntry
  | some e => if e.isExpired now then some e else some (e.touch now)
  | none => none

-- What `compare_and_swap` leaves: a live entry at the expected version replaced, one version up.
def swapped (expectedVersion : Int) (newEntry : CacheEntry) (now : Int) :
    Option CacheEntry → Option CacheEntry
  | some d =>
    if d.isExpired now = false ∧ d.version = expectedVersion then
      some { newEntry with version := d.version + 1, modifiedAtMs := now, lastAccessedMs := now }
    else some d
  | none => none

def step (m : AbsCache) : Op → AbsCache
  | .get key now => m.write key (touched now)
  | .set key entry => m.write key fun _ => some entry
  | .del key => m.write key fun _ => none
  | .compareAndSwap key ev e now => m.write key (swapped ev e now)
  | .keyExists _ _ => m
  | .forEach _ => m
  | .clear => empty

def exec (m : AbsCache) (ops : List Op) : AbsCache := ops.foldl step m

variable {m : AbsCache} {key k : Bytes} {f : Option CacheEntry → Option CacheEntry}

@[simp] theorem write_self : m.write key f key = f (m key) := if_pos rfl

@[simp] theorem write_ne (hk : k ≠ key) : m.write key f k = m k := if_neg hk

end AbsCache

-- A write at a key: `set` of an entry, or `del` for `none`.
def writeOp : Bytes × Option CacheEntry → Op
  | (k, some e) => .set k e
  | (k, none) => .del k

namespace AbsCache

-- The last write at `key`, if any.
def lastWrite (ws : List (Bytes × Option CacheEntry)) (key : Bytes) : Option (Option CacheEntry) :=
  (ws.reverse.find? fun w => decide (w.1 = key)).map Prod.snd

theorem step_writeOp (m : AbsCache) (w : Bytes × Option CacheEntry) :
    m.step (writeOp w) = m.write w.1 fun _ => w.2 := by
  obtain ⟨k, _ | e⟩ := w <;> rfl

-- After a run of writes, a key holds its last write, or what it held if none was at it.
theorem exec_writes (m : AbsCache) (ws : List (Bytes × Option CacheEntry)) (key : Bytes) :
    m.exec (ws.map writeOp) key = (lastWrite ws key).getD (m key) := by
  induction ws using List.reverseRecOn with
  | nil => rfl
  | append_singleton ws w ih =>
    have hsnoc : m.exec ((ws ++ [w]).map writeOp) = (m.exec (ws.map writeOp)).step (writeOp w) := by
      simp only [exec, List.map_append, List.map_singleton, List.foldl_append, List.foldl_cons,
        List.foldl_nil]
    rw [hsnoc, step_writeOp, lastWrite, List.reverse_append, List.reverse_singleton,
      List.singleton_append, List.find?_cons]
    by_cases hk : key = w.1
    · subst hk
      simp
    · rw [write_ne hk, ih, lastWrite]
      simp [Ne.symm hk]

-- Running the same writes twice is running them once.
theorem exec_writes_twice (m : AbsCache) (ws : List (Bytes × Option CacheEntry)) :
    (m.exec (ws.map writeOp)).exec (ws.map writeOp) = m.exec (ws.map writeOp) := by
  funext key
  rw [exec_writes, exec_writes]
  cases lastWrite ws key <;> rfl

end AbsCache

namespace ShardedHashTable

variable {t : ShardedHashTable} {m : AbsCache} {key : Bytes}

-- Every entry the engine holds is the one the abstract store holds under its key.
def Within (t : ShardedHashTable) (m : AbsCache) : Prop := ∀ k e, t.find k = some e → m k = some e

-- The engine and the abstract store hold the same entry under every key.
def Agrees (t : ShardedHashTable) (m : AbsCache) : Prop := ∀ k, t.find k = m k

-- Whether a call may run the eviction loop: only a `set` of a new key past the cap does.
def mayEvict (t : ShardedHashTable) : Op → Bool
  | .set key e => (t.find key).isNone && t.needsEviction (e.totalSize t.entryOverhead)
  | _ => false

def evictsDuring : ShardedHashTable → List Op → Bool
  | _, [] => false
  | t, op :: ops => t.mayEvict op || evictsDuring (t.step op) ops

theorem get_fst (t : ShardedHashTable) (key : Bytes) (now : Int) :
    (t.get key now).1 = AbsCache.getResult (t.find key) now := by
  cases h : t.find key with
  | none => simp [get_of_find_none h, AbsCache.getResult]
  | some e =>
    cases hx : e.isExpired now
    · simp [(get_of_live h hx).1, AbsCache.getResult, hx]
    · simp [get_of_expired h hx, AbsCache.getResult, hx]

theorem keyExists_eq (t : ShardedHashTable) (key : Bytes) (now : Int) :
    t.keyExists key now = (AbsCache.getResult (t.find key) now).isSome := by
  simp only [keyExists, find]
  cases (t.shard (t.getShardIndex key)).data.lookup key with
  | none => rfl
  | some d => cases hx : d.entry.isExpired now <;> simp [AbsCache.getResult, hx]

theorem find_get_self (t : ShardedHashTable) (key : Bytes) (now : Int) :
    (t.get key now).2.find key = AbsCache.touched now (t.find key) := by
  cases h : t.find key with
  | none => simp [get_of_find_none h, h, AbsCache.touched]
  | some e =>
    cases hx : e.isExpired now
    · simp [(get_of_live h hx).2, AbsCache.touched, hx]
    · simp [get_of_expired h hx, h, AbsCache.touched, hx]

theorem find_compareAndSwap_self (t : ShardedHashTable) (key : Bytes) (ev : Int) (e : CacheEntry)
    (now : Int) : (t.compareAndSwap key ev e now).2.find key = AbsCache.swapped ev e now (t.find key) := by
  cases h : t.find key with
  | none => simp [compareAndSwap_of_find_none h, h, AbsCache.swapped]
  | some d =>
    cases hx : d.isExpired now
    · by_cases hv : d.version = ev
      · subst hv
        simp [(compareAndSwap_of_match h hx e).2, AbsCache.swapped, hx]
      · simp [compareAndSwap_of_mismatch h hx hv, h, AbsCache.swapped, hx, hv]
    · simp [compareAndSwap_of_expired h hx, h, AbsCache.swapped, hx]

theorem find_clear (t : ShardedHashTable) (k : Bytes) : t.clear.find k = none := by
  simp [find, AList.lookup_empty]

-- A write that leaves nothing where there was nothing keeps the engine within the abstract store.
private theorem within_write (h : t.Within m) {f : Option CacheEntry → Option CacheEntry}
    (hf : f none = none) {e : CacheEntry} (he : f (t.find key) = some e) : f (m key) = some e := by
  cases hd : t.find key with
  | none => rw [hd, hf] at he; cases he
  | some d => rwa [h key d hd, ← hd]

-- `get` reports nothing the abstract store does not hold.
theorem Within.getResult (h : t.Within m) {e : CacheEntry} {now : Int}
    (he : AbsCache.getResult (t.find key) now = some e) : AbsCache.getResult (m key) now = some e :=
  @within_write t m key h (fun o => AbsCache.getResult o now) rfl e he

-- A call that writes `f` of the old entry at `key` and at most removes entries elsewhere.
private theorem Within.write (h : t.Within m) {t' : ShardedHashTable}
    {f : Option CacheEntry → Option CacheEntry}
    (hkey : ∀ e, t'.find key = some e → f (m key) = some e)
    (hne : ∀ k e, k ≠ key → t'.find k = some e → t.find k = some e) :
    t'.Within (m.write key f) := fun k e hf => by
  by_cases hk : k = key
  · subst hk
    rw [AbsCache.write_self]
    exact hkey e hf
  · rw [AbsCache.write_ne hk]
    exact h k e (hne k e hk hf)

theorem Within.step (h : t.Within m) : ∀ op, (t.step op).Within (m.step op)
  | .get key now =>
    h.write (fun _ he => within_write h rfl ((find_get_self t key now).symm.trans he))
      fun _ _ hk hf => (find_get_ne hk now).symm.trans hf
  | .set key e =>
    h.write (f := fun _ => some e) (fun _ he => (find_set t key e).symm.trans he)
      fun _ _ hk hf => find_set_ne hk hf
  | .del key =>
    h.write (f := fun _ => none) (fun _ he => nomatch (find_del t key).symm.trans he)
      fun _ _ hk hf => (find_del_ne hk).symm.trans hf
  | .compareAndSwap key ev e now =>
    h.write (fun _ he => within_write h rfl ((find_compareAndSwap_self t key ev e now).symm.trans he))
      fun _ _ hk hf => (find_compareAndSwap_ne hk ev e now).symm.trans hf
  | .keyExists _ _ => h
  | .forEach _ => h
  | .clear => fun k e hf => by
    rw [ShardedHashTable.step, find_clear] at hf
    cases hf

theorem Within.exec (h : t.Within m) (ops : List Op) : (t.exec ops).Within (m.exec ops) := by
  induction ops generalizing t m with
  | nil => exact h
  | cons op ops ih => exact ih (h.step op)

-- A call that writes `f` of the old entry at `key` and leaves every other key alone.
private theorem Agrees.write (h : t.Agrees m) {t' : ShardedHashTable}
    {f : Option CacheEntry → Option CacheEntry} (hkey : t'.find key = f (t.find key))
    (hne : ∀ k, k ≠ key → t'.find k = t.find k) : t'.Agrees (m.write key f) := fun k => by
  by_cases hk : k = key
  · subst hk
    rw [hkey, h k, AbsCache.write_self]
  · rw [hne k hk, h k, AbsCache.write_ne hk]

theorem Agrees.step (h : t.Agrees m) :
    ∀ op, t.mayEvict op = false → (t.step op).Agrees (m.step op)
  | .get key now, _ => h.write (find_get_self t key now) fun _ hk => find_get_ne hk now
  | .set key e, hn =>
    h.write (f := fun _ => some e) (find_set t key e) fun _ hk => find_set_ne_of_fits hk hn
  | .del key, _ => h.write (f := fun _ => none) (find_del t key) fun _ hk => find_del_ne hk
  | .compareAndSwap key ev e now, _ =>
    h.write (find_compareAndSwap_self t key ev e now) fun _ hk => find_compareAndSwap_ne hk ev e now
  | .keyExists _ _, _ => h
  | .forEach _, _ => h
  | .clear, _ => find_clear t

theorem Agrees.exec (h : t.Agrees m) (ops : List Op) (hn : t.evictsDuring ops = false) :
    (t.exec ops).Agrees (m.exec ops) := by
  induction ops generalizing t m with
  | nil => exact h
  | cons op ops ih =>
    rw [evictsDuring, Bool.or_eq_false_iff] at hn
    exact ih (h.step op hn.1) hn.2

theorem Agrees.within (h : t.Agrees m) : t.Within m := fun k _ hf => h k ▸ hf

theorem create_agrees (n maxMemory overhead : Nat) (hash : Bytes → Nat) (hn : 0 < n) :
    (create n maxMemory overhead hash hn).Agrees AbsCache.empty := by
  intro k
  simp [find, AList.lookup_empty, AbsCache.empty]

-- From a new table, over every run, the engine holds at most what the abstract store holds.
theorem exec_within_absCache (n maxMemory overhead : Nat) (hash : Bytes → Nat) (hn : 0 < n)
    (ops : List Op) (key : Bytes) (now : Int) :
    let t := (create n maxMemory overhead hash hn).exec ops
    let m := AbsCache.empty.exec ops
    (∀ e, t.find key = some e → m key = some e) ∧
      (∀ e, (t.get key now).1 = some e → AbsCache.getResult (m key) now = some e) ∧
      (t.keyExists key now = true → (AbsCache.getResult (m key) now).isSome = true) := by
  intro t m
  have h : t.Within m := (create_agrees n maxMemory overhead hash hn).within.exec ops
  refine ⟨h key, fun e he => h.getResult (get_fst t key now ▸ he), fun he => ?_⟩
  rw [keyExists_eq] at he
  obtain ⟨e, he⟩ := Option.isSome_iff_exists.mp he
  rw [h.getResult he]
  rfl

theorem exec_within_absCache_two_shards :
    0 < 2 ∧
      let t := (create 2 16 0 List.length (by decide)).exec
        [.set [1] (.init [1] [7, 7, 7, 7, 7, 7, 7, 7] none 0), .set [2] (.init [2] [9] none 0)]
      let m := AbsCache.empty.exec
        [.set [1] (.init [1] [7, 7, 7, 7, 7, 7, 7, 7] none 0), .set [2] (.init [2] [9] none 0)]
      (∀ e, t.find [2] = some e → m [2] = some e) ∧
        (∀ e, (t.get [2] 5).1 = some e → AbsCache.getResult (m [2]) 5 = some e) ∧
        (t.keyExists [2] 5 = true → (AbsCache.getResult (m [2]) 5).isSome = true) :=
  ⟨by decide, exec_within_absCache 2 16 0 List.length (by decide) _ [2] 5⟩

-- Over every run in which no `set` of a new key goes past the cap, the two agree.
theorem exec_agrees_absCache (n maxMemory overhead : Nat) (hash : Bytes → Nat) (hn : 0 < n)
    (ops : List Op) (hfree : (create n maxMemory overhead hash hn).evictsDuring ops = false)
    (key : Bytes) (now : Int) :
    let t := (create n maxMemory overhead hash hn).exec ops
    let m := AbsCache.empty.exec ops
    t.find key = m key ∧ (t.get key now).1 = AbsCache.getResult (m key) now ∧
      t.keyExists key now = (AbsCache.getResult (m key) now).isSome := by
  intro t m
  have h : t.Agrees m := (create_agrees n maxMemory overhead hash hn).exec ops hfree
  exact ⟨h key, by rw [get_fst, h key], by rw [keyExists_eq, h key]⟩

theorem exec_agrees_absCache_set_del :
    0 < 2 ∧
      (create 2 (1024 * 1024) 0 List.length (by decide)).evictsDuring
        [.set [1] (.init [1] [7] none 0), .set [2] (.init [2] [9] none 0), .del [1]] = false ∧
      let t := (create 2 (1024 * 1024) 0 List.length (by decide)).exec
        [.set [1] (.init [1] [7] none 0), .set [2] (.init [2] [9] none 0), .del [1]]
      let m := AbsCache.empty.exec
        [.set [1] (.init [1] [7] none 0), .set [2] (.init [2] [9] none 0), .del [1]]
      t.find [2] = m [2] ∧ (t.get [2] 5).1 = AbsCache.getResult (m [2]) 5 ∧
        t.keyExists [2] 5 = (AbsCache.getResult (m [2]) 5).isSome :=
  ⟨by decide, by decide, exec_agrees_absCache 2 (1024 * 1024) 0 List.length (by decide) _ (by decide) [2] 5⟩

end ShardedHashTable

end DistCache.Cache
