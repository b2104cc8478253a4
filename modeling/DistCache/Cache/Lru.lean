import DistCache.Cache.Operations
import Mathlib.Data.List.Sort

namespace DistCache.Cache

namespace ShardedHashTable

variable {t : ShardedHashTable} {i : Nat}

-- The key an operation touches.
def touched (t : ShardedHashTable) : Op → Option Bytes
  | .get key now => if (t.get key now).1.isSome then some key else none
  | .set key _ => some key
  | .compareAndSwap key ev e now =>
    if (t.compareAndSwap key ev e now).1.success then some key else none
  | _ => none

-- The touches of a run in front of `log`, the most recent first.
def touchLog : ShardedHashTable → List Op → List (Option Bytes) → List (Option Bytes)
  | _, [], log => log
  | t, op :: ops, log => touchLog (t.step op) ops (t.touched op :: log)

end ShardedHashTable

-- How many steps ago `k` was last touched (the length of the log if never).
def age : List (Option Bytes) → Bytes → Nat
  | [], _ => 0
  | x :: log, k => if x = some k then 0 else age log k + 1

theorem age_cons_self (log : List (Option Bytes)) (k : Bytes) : age (some k :: log) k = 0 := by
  simp [age]

theorem age_cons_ne {log : List (Option Bytes)} {x : Option Bytes} {k : Bytes} (h : x ≠ some k) :
    age (x :: log) k = age log k + 1 := by
  simp [age, h]

-- A list of nodes in increasing age, each of whose keys was touched.
def Recent (log : List (Option Bytes)) (l : List LruNode) : Prop :=
  (l.map fun n => age log n.key).Sorted (· < ·) ∧ ∀ n ∈ l, some n.key ∈ log

namespace Recent

variable {log : List (Option Bytes)} {l l' : List LruNode}

theorem nil (log : List (Option Bytes)) : Recent log [] := ⟨List.sorted_nil, by simp⟩

theorem sublist (h : Recent log l) (hs : List.Sublist l' l) : Recent log l' :=
  ⟨List.Pairwise.sublist (hs.map _) h.1, fun n hn => h.2 n (hs.subset hn)⟩

-- A step that does not touch a listed key ages all of them by one.
theorem shift (h : Recent log l) {x : Option Bytes} (hx : ∀ n ∈ l, x ≠ some n.key) :
    Recent (x :: log) l := by
  refine ⟨?_, fun n hn => List.mem_cons_of_mem _ (h.2 n hn)⟩
  have e : l.map (fun n => age (x :: log) n.key) = l.map (fun n => age log n.key + 1) :=
    List.map_congr_left fun n hn => age_cons_ne (hx n hn)
  rw [List.Sorted, e]
  exact List.pairwise_map.mpr ((List.pairwise_map.mp h.1).imp fun h => Nat.succ_lt_succ h)

-- The node of the touched key goes in front of the others.
theorem touch (h : Recent log l) {k : Bytes} (hk : ∀ n ∈ l, n.key ≠ k) (id : Nat) :
    Recent (some k :: log) (⟨id, k⟩ :: l) := by
  have hs : Recent (some k :: log) l := h.shift fun n hn e => hk n hn (Option.some.inj e).symm
  refine ⟨List.sorted_cons.mpr ⟨fun a ha => ?_, hs.1⟩, ?_⟩
  · obtain ⟨n, hn, rfl⟩ := List.mem_map.mp ha
    show age (some k :: log) k < age (some k :: log) n.key
    rw [age_cons_self, age_cons_ne fun e => hk n hn (Option.some.inj e).symm]
    omega
  · rintro n (_ | ⟨_, hn⟩)
    · exact List.mem_cons_self _ _
    · exact hs.2 n hn

end Recent

-- With distinct ids, the node a listed iterator designates is the only one with its id.
private theorem filter_id_eq {l : List LruNode} (hids : (l.map LruNode.id).Nodup) {n : LruNode}
    (hn : n ∈ l) : l.filter (fun m => decide (m.id = n.id)) = [n] := by
  induction l with
  | nil => simp at hn
  | cons a l ih =>
    rw [List.map_cons, List.nodup_cons] at hids
    rcases List.mem_cons.mp hn with rfl | hn
    · have : l.filter (fun m => decide (m.id = n.id)) = [] :=
        List.filter_eq_nil_iff.mpr fun m hm e => hids.1 (by simpa using ⟨m, hm, of_decide_eq_true e⟩)
      simp [List.filter_cons, this]
    · have hne : a.id ≠ n.id := fun e => hids.1 (e ▸ List.mem_map_of_mem _ hn)
      simp [List.filter_cons, hne, ih hids.2 hn]

-- `splice` puts the node of the entry's own key in front of the rest of the list.
theorem LruList.splice_eq {l : List LruNode} (hids : (l.map LruNode.id).Nodup) {n : LruNode}
    (hn : n ∈ l) : LruList.splice l n.id = n :: LruList.erase l n.id := by
  rw [LruList.splice, filter_id_eq hids hn, List.singleton_append]

namespace Recent

variable {log : List (Option Bytes)} {l : List LruNode}

-- Splicing the node of a touched key makes it the front node.
theorem splice (h : Recent log l) (hids : (l.map LruNode.id).Nodup)
    (hkeys : (l.map LruNode.key).Nodup) {it : Nat} {k : Bytes} (hn : ⟨it, k⟩ ∈ l) :
    Recent (some k :: log) (LruList.splice l it) := by
  rw [LruList.splice_eq hids hn]
  refine (h.sublist (LruList.erase_sublist l it)).touch (fun m hm e => ?_) it
  have hm' := LruList.mem_erase.mp hm
  exact hm'.2 (by rw [LruNode.eq_of_key hkeys hm'.1 hn e])

theorem erase (h : Recent log l) (it : Nat) : Recent (none :: log) (LruList.erase l it) :=
  (h.sublist (LruList.erase_sublist l it)).shift fun _ _ e => Option.noConfusion e

-- Cutting an ordered list: every node kept in front is younger than every node behind.
theorem take_drop (h : Recent log l) (m : Nat) :
    ∀ a ∈ l.take m, ∀ b ∈ l.drop m, age log a.key < age log b.key := by
  have hs := h.1
  rw [List.Sorted, ← List.take_append_drop m l, List.map_append, List.pairwise_append] at hs
  exact fun a ha b hb => hs.2.2 _ (List.mem_map_of_mem _ ha) _ (List.mem_map_of_mem _ hb)

end Recent

namespace ShardedHashTable

variable {t : ShardedHashTable} {i : Nat} {log : List (Option Bytes)}

-- Every key sits in the shard its hash selects.
def Placed (t : ShardedHashTable) : Prop := ∀ j k, k ∈ (t.shard j).data → t.getShardIndex k = j

-- The LRU order: every shard's list in increasing age of its keys' last touch.
def LruOrdered (log : List (Option Bytes)) (t : ShardedHashTable) : Prop :=
  ∀ j, Recent log (t.shard j).lruList

theorem Placed.update (hp : t.Placed) (hi : i < t.shards.length) {s : Shard}
    (hs : ∀ k ∈ s.data, t.getShardIndex k = i) (M E : Nat) : (t.update i s M E).Placed := by
  intro j k hk
  rw [getShardIndex_update]
  by_cases hj : j = i
  · subst hj
    rw [shard_update_self hi] at hk
    exact hs k hk
  · rw [shard_update_ne hj] at hk
    exact hp j k hk

theorem LruOrdered.none (ho : LruOrdered log t) : LruOrdered (none :: log) t :=
  fun j => (ho j).shift fun _ _ e => Option.noConfusion e

-- An operation on shard `i` touching at most a key of shard `i` ages the other shards' keys.
theorem LruOrdered.update (ho : LruOrdered log t) (ht : t.Invariant) (hp : t.Placed)
    (hi : i < t.shards.length) {x : Option Bytes} (hx : ∀ k, x = some k → t.getShardIndex k = i)
    {s : Shard} (hs : Recent (x :: log) s.lruList) (M E : Nat) :
    LruOrdered (x :: log) (t.update i s M E) := by
  intro j
  by_cases hj : j = i
  · subst hj
    rw [shard_update_self hi]
    exact hs
  · rw [shard_update_ne hj]
    refine (ho j).shift fun n hn e => hj ?_
    rw [← hp j n.key (((ht.wf j).mem_iff _).mpr (List.mem_map_of_mem _ hn))]
    exact hx _ e

theorem evictLoop_placed (i r : Nat) :
    ∀ fuel t, t.Placed → i < t.shards.length → (evictLoop i r fuel t).Placed
  | 0, t, hp, _ => hp
  | fuel + 1, t, hp, hi => by
    simp only [evictLoop]
    split
    · split
      · exact hp
      · split <;>
          refine evictLoop_placed i r fuel _ (hp.update hi (fun k hk => ?_) _ _) (by simpa using hi)
        · exact hp i k (AList.mem_erase.mp hk).2
        · exact hp i k hk
    · exact hp

theorem evictLoop_lruOrdered (ho : LruOrdered log t) (hi : i < t.shards.length) (r fuel : Nat) :
    LruOrdered log (evictLoop i r fuel t) := by
  intro j
  by_cases hj : j = i
  · subst hj
    obtain ⟨m, hm⟩ := evictLoop_lruList j r fuel t hi
    rw [hm]
    exact (ho j).sublist (List.take_sublist _ _)
  · rw [evictLoop_shard_ne i r hj]
    exact ho j

-- Keys in place and lists in order.
structure LruInvariant (log : List (Option Bytes)) (t : ShardedHashTable) : Prop where
  placed : t.Placed
  ordered : LruOrdered log t

namespace LruInvariant

variable {key : Bytes} {s : Shard}

theorem untouched (h : LruInvariant log t) : LruInvariant (none :: log) t :=
  ⟨h.placed, h.ordered.none⟩

theorem evictLoop (h : LruInvariant log t) (hi : i < t.shards.length) (r fuel : Nat) :
    LruInvariant log (evictLoop i r fuel t) :=
  ⟨evictLoop_placed i r fuel t h.placed hi, evictLoop_lruOrdered h.ordered hi r fuel⟩

-- A live `get`, a replacing `set` and a successful `compare_and_swap` splice the key's node.
theorem splice (h : LruInvariant log t) (ht : t.Invariant) {d d' : CacheData}
    (hd : (t.shard (t.getShardIndex key)).data.lookup key = some d)
    (hdata : s.data = (t.shard (t.getShardIndex key)).data.replace key d')
    (hlru : s.lruList = LruList.splice (t.shard (t.getShardIndex key)).lruList d.lruIter) (M E : Nat) :
    LruInvariant (some key :: log) (t.update (t.getShardIndex key) s M E) := by
  have hi := t.getShardIndex_lt key
  have hw := ht.wf (t.getShardIndex key)
  refine ⟨h.placed.update hi (fun k hk => h.placed _ k ?_) M E,
    h.ordered.update ht h.placed hi (fun k e => by cases e; rfl) ?_ M E⟩
  · rwa [hdata, AList.mem_replace] at hk
  · rw [hlru]
    exact (h.ordered _).splice hw.ids_nodup hw.keys_nodup (hw.iter_key _ _ hd)

-- A `del` that finds its key.
theorem erase (h : LruInvariant log t) (ht : t.Invariant) {it : Nat}
    (hdata : s.data = (t.shard (t.getShardIndex key)).data.erase key)
    (hlru : s.lruList = LruList.erase (t.shard (t.getShardIndex key)).lruList it) (M E : Nat) :
    LruInvariant (none :: log) (t.update (t.getShardIndex key) s M E) := by
  have hi := t.getShardIndex_lt key
  refine ⟨h.placed.update hi (fun k hk => h.placed _ k ?_) M E,
    h.ordered.update ht h.placed hi (fun _ e => Option.noConfusion e) ?_ M E⟩
  · rw [hdata] at hk
    exact (AList.mem_erase.mp hk).2
  · rw [hlru]
    exact (h.ordered _).erase it

-- An inserting `set`: a fresh node for the new key goes in front.
theorem insert (h : LruInvariant log t) (ht : t.Invariant) (hi : t.getShardIndex key = i)
    (hk : key ∉ (t.shard i).data) {x : CacheData} {id : Nat}
    (hdata : s.data = (t.shard i).data.insert key x)
    (hlru : s.lruList = ⟨id, key⟩ :: (t.shard i).lruList) (M E : Nat) :
    LruInvariant (some key :: log) (t.update i s M E) := by
  have hlt : i < t.shards.length := hi ▸ t.getShardIndex_lt key
  have hw := ht.wf i
  refine ⟨h.placed.update hlt (fun k hk' => ?_) M E,
    h.ordered.update ht h.placed hlt (fun k e => by cases e; exact hi) ?_ M E⟩
  · rw [hdata, AList.mem_insert] at hk'
    rcases hk' with rfl | hk'
    · exact hi
    · exact h.placed i k hk'
  · rw [hlru]
    exact (h.ordered i).touch
      (fun n hn e => hk (by rw [← e]; exact (hw.mem_iff _).mpr (List.mem_map_of_mem _ hn))) id

theorem clear (log : List (Option Bytes)) (t : ShardedHashTable) : LruInvariant log t.clear :=
  ⟨fun j k hk => by simp [AList.not_mem_empty] at hk, fun j => by simpa using Recent.nil log⟩

theorem create (log : List (Option Bytes)) (n max overhead : Nat) (hash : Bytes → Nat) (hn : 0 < n) :
    LruInvariant log (create n max overhead hash hn) :=
  ⟨fun j k hk => by simp [AList.not_mem_empty] at hk, fun j => by simpa using Recent.nil log⟩

end LruInvariant

theorem step_lruInvariant (ht : t.Invariant) (h : LruInvariant log t) :
    ∀ op, LruInvariant (t.touched op :: log) (t.step op)
  | .get key now => by
    rcases hd : (t.shard (t.getShardIndex key)).data.lookup key with _ | d
    · simpa [touched, step, get, hd] using h.untouched
    · cases hx : d.entry.isExpired now
      · simp only [touched, step, get, hd, hx]
        exact h.splice ht hd (by rfl) (by rfl) _ _
      · simpa [touched, step, get, hd, hx] using h.untouched
  | .set key entry => by
    have hi := t.getShardIndex_lt key
    rcases hd : (t.shard (t.getShardIndex key)).data.lookup key with _ | d
    · simp only [touched, step, set, hd]
      split
      · have hc := evictLoop_sameConfig (t.getShardIndex key) (entry.totalSize t.entryOverhead)
          (t.shard (t.getShardIndex key)).lruList.length t
        exact (h.evictLoop hi _ _).insert (evictIfNeeded_invariant ht hi _) (hc.getShardIndex key)
          (AList.lookup_eq_none.mp (evictLoop_lookup_none _ _ _ t hi hd)) (by rfl) (by rfl) _ _
      · exact h.insert ht rfl (AList.lookup_eq_none.mp hd) (by rfl) (by rfl) _ _
    · simp only [touched, step, set, hd]
      exact h.splice ht hd (by rfl) (by rfl) _ _
  | .del key => by
    rcases hd : (t.shard (t.getShardIndex key)).data.lookup key with _ | d
    · simpa [touched, step, del, hd] using h.untouched
    · simp only [touched, step, del, hd]
      exact h.erase ht (by rfl) (by rfl) _ _
  | .compareAndSwap key ev e now => by
    rcases hd : (t.shard (t.getShardIndex key)).data.lookup key with _ | d
    · simpa [touched, step, compareAndSwap, hd] using h.untouched
    · cases hx : d.entry.isExpired now
      · by_cases hv : d.entry.version = ev
        · simp only [touched, step, compareAndSwap, hd, hx, hv, Bool.false_eq_true, if_false,
            ne_eq, not_true_eq_false, if_true]
          exact h.splice ht hd (by rfl) (by rfl) _ _
        · simpa [touched, step, compareAndSwap, hd, hx, hv] using h.untouched
      · simpa [touched, step, compareAndSwap, hd, hx] using h.untouched
  | .keyExists _ _ => h.untouched
  | .forEach _ => h.untouched
  | .clear => LruInvariant.clear _ t

theorem exec_lruInvariant :
    ∀ (ops : List Op) (t : ShardedHashTable) (log : List (Option Bytes)), t.Invariant →
      LruInvariant log t → LruInvariant (touchLog t ops log) (t.exec ops)
  | [], _, _, _, h => h
  | op :: ops, t, _, ht, h =>
    exec_lruInvariant ops (t.step op) _ (step_invariant ht op) (step_lruInvariant ht h op)

-- Every shard's list holds its keys from the most recently touched to the least.
theorem exec_lru_order (n maxMemory overhead : Nat) (hash : Bytes → Nat) (hn : 0 < n)
    (ops : List Op) :
    let t₀ := create n maxMemory overhead hash hn
    let t := t₀.exec ops
    let log := touchLog t₀ ops []
    (∀ j, Recent log (t.shard j).lruList ∧
      ∀ k, k ∈ (t.shard j).data ↔ k ∈ (t.shard j).lruList.map LruNode.key) ∧
    ∀ j < t.shards.length, ∀ r, ∃ m,
      ((t.evictIfNeeded j r).shard j).lruList = (t.shard j).lruList.take m ∧
      (∀ k, k ∈ ((t.evictIfNeeded j r).shard j).data ↔
        k ∈ ((t.shard j).lruList.take m).map LruNode.key) ∧
      ∀ a ∈ (t.shard j).lruList.take m, ∀ b ∈ (t.shard j).lruList.drop m,
        age log a.key < age log b.key := by
  intro t₀ t log
  have h₀ := create_invariant n maxMemory overhead hash hn
  have ht : t.Invariant := exec_invariant ops t₀ h₀
  have hl : LruInvariant log t := exec_lruInvariant ops t₀ [] h₀ (.create [] _ _ _ _ hn)
  refine ⟨fun j => ⟨hl.ordered j, (ht.wf j).mem_iff⟩, fun j hj r => ?_⟩
  obtain ⟨m, hm⟩ : ∃ m, ((t.evictIfNeeded j r).shard j).lruList = (t.shard j).lruList.take m :=
    evictLoop_lruList j r _ t hj
  refine ⟨m, hm, fun k => ?_, (hl.ordered j).take_drop m⟩
  rw [((evictIfNeeded_invariant ht hj r).wf j).mem_iff, hm]

theorem exec_lru_order_two_sets_get :
    0 < 4 ∧
      let t₀ := create 4 64 0 List.length (by decide)
      let ops : List Op := [.set [1] (.init [1] [1] none 0), .set [2] (.init [2] [2] none 0),
        .get [1] 5]
      let t := t₀.exec ops
      let log := touchLog t₀ ops []
      (∀ j, Recent log (t.shard j).lruList ∧
        ∀ k, k ∈ (t.shard j).data ↔ k ∈ (t.shard j).lruList.map LruNode.key) ∧
      ∀ j < t.shards.length, ∀ r, ∃ m,
        ((t.evictIfNeeded j r).shard j).lruList = (t.shard j).lruList.take m ∧
        (∀ k, k ∈ ((t.evictIfNeeded j r).shard j).data ↔
          k ∈ ((t.shard j).lruList.take m).map LruNode.key) ∧
        ∀ a ∈ (t.shard j).lruList.take m, ∀ b ∈ (t.shard j).lruList.drop m,
          age log a.key < age log b.key :=
  ⟨by decide, exec_lru_order 4 64 0 List.length (by decide) _⟩

end ShardedHashTable

end DistCache.Cache
