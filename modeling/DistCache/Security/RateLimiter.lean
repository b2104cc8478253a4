import DistCache.Cluster.Failover

namespace DistCache.Security

open Cluster

-- The buckets count tokens in `double`s, modelled by `Float`; no result depends on their answers.

-- `TokenBucket`.
structure TokenBucket where
  capacity : Nat
  refillRate : Float
  tokens : Float
  lastRefill : Int

namespace TokenBucket

def create (capacity : Nat) (refillRate : Float) (now : Int) : TokenBucket :=
  ⟨capacity, refillRate, capacity.toFloat, now⟩

-- `refill`: the whole microseconds since the last refill, in seconds, times the rate, capped.
def refill (b : TokenBucket) (now : Int) : TokenBucket :=
  let elapsed := Float.ofInt ((now - b.lastRefill).tdiv 1000) / 1000000.0
  let total := b.tokens + elapsed * b.refillRate
  { b with
    tokens := if total < b.capacity.toFloat then total else b.capacity.toFloat
    lastRefill := now }

def tryConsume (b : TokenBucket) (tokens : Nat) (now : Int) : Bool × TokenBucket :=
  let b := b.refill now
  if tokens.toFloat ≤ b.tokens then (true, { b with tokens := b.tokens - tokens.toFloat })
  else (false, b)

def reset (b : TokenBucket) (now : Int) : TokenBucket :=
  { b with tokens := b.capacity.toFloat, lastRefill := now }

end TokenBucket

-- `RateLimiter::Config`, with its defaults.
structure RateLimiterConfig where
  clientCapacity : Nat := 100
  clientRefillRate : Float := 10.0
  globalCapacity : Nat := 10000
  globalRefillRate : Float := 1000.0
  enablePerClient : Bool := true
  enableGlobal : Bool := true
  maxClients : Nat := 10000
  cleanupIntervalSeconds : Int := 300

-- The order an `unordered_map` of access times is iterated in: some permutation of its entries.
structure IterationOrder where
  order : List (String × Int) → List (String × Int)
  perm : ∀ m, (order m).Perm m

-- `RateLimiter` without its mutex: `client_buckets_` and `last_access_`.
structure RateLimiter where
  config : RateLimiterConfig
  globalBucket : Option TokenBucket
  clientBuckets : List (String × TokenBucket)
  lastAccess : List (String × Int)

namespace RateLimiter

-- `steady_clock::time_point::max()`.
def timeMax : Int := 2 ^ 63 - 1

def create (config : RateLimiterConfig) (now : Int) : RateLimiter :=
  ⟨config,
    if config.enableGlobal then some (.create config.globalCapacity config.globalRefillRate now)
    else none, [], []⟩

def clientCount (l : RateLimiter) : Nat := l.clientBuckets.length

-- `client_buckets_.erase(client_id); last_access_.erase(client_id);`
def eraseClient (l : RateLimiter) (clientId : String) : RateLimiter :=
  { l with
    clientBuckets := StdMap.erase l.clientBuckets clientId
    lastAccess := StdMap.erase l.lastAccess clientId }

-- `cleanup_inactive_clients`: every client idle for longer than the interval loses its bucket.
def cleanupInactiveClients (l : RateLimiter) (now : Int) : RateLimiter :=
  let toRemove := (l.lastAccess.filter fun p =>
    now - p.2 > l.config.cleanupIntervalSeconds * 1000000000).map Prod.fst
  toRemove.foldl eraseClient l

-- One turn of the scan for the least recently used client: `if (access_time < oldest_time)`.
def olderOf (acc p : String × Int) : String × Int := if p.2 < acc.2 then p else acc

-- The scan, from an empty id and `time_point::max()`.
def oldestClient (it : IterationOrder) (lastAccess : List (String × Int)) : String :=
  ((it.order lastAccess).foldl olderOf ("", timeMax)).1

-- The room `get_or_create_bucket` makes for a new client when the table is full.
def makeRoom (it : IterationOrder) (l : RateLimiter) (now : Int) : RateLimiter :=
  if l.config.maxClients ≤ l.clientBuckets.length then
    let l := l.cleanupInactiveClients now
    if l.config.maxClients ≤ l.clientBuckets.length then
      let oldest := oldestClient it l.lastAccess
      if oldest ≠ "" then l.eraseClient oldest else l
    else l
  else l

-- `get_or_create_bucket`: the client's bucket, or a new one.
def getOrCreateBucket (it : IterationOrder) (l : RateLimiter) (clientId : String) (now : Int) :
    TokenBucket × RateLimiter :=
  match StdMap.find l.clientBuckets clientId with
  | some b => (b, l)
  | none =>
    let l := l.makeRoom it now
    let bucket := TokenBucket.create l.config.clientCapacity l.config.clientRefillRate now
    (bucket,
      { l with
        clientBuckets := Failover.assign l.clientBuckets clientId bucket
        lastAccess := Failover.assign l.lastAccess clientId now })

-- The global check of `allow_request`, when it is enabled and there is a global bucket.
def consumeGlobal (l : RateLimiter) (tokens : Nat) (now : Int) : Bool × RateLimiter :=
  if l.config.enableGlobal then
    match l.globalBucket with
    | some b =>
      let attempt := b.tryConsume tokens now
      (attempt.1, { l with globalBucket := some attempt.2 })
    | none => (true, l)
  else (true, l)

-- The per-client check of `allow_request`; a grant renews the client's access time.
def consumeClient (it : IterationOrder) (l : RateLimiter) (clientId : String) (tokens : Nat)
    (now : Int) : Bool × RateLimiter :=
  let r := l.getOrCreateBucket it clientId now
  let attempt := r.1.tryConsume tokens now
  let l := { r.2 with clientBuckets := StdMap.setValue r.2.clientBuckets clientId attempt.2 }
  if attempt.1 then (true, { l with lastAccess := Failover.assign l.lastAccess clientId now })
  else (false, l)

-- `allow_request`: the global check first, then the client's.
def allowRequest (it : IterationOrder) (l : RateLimiter) (clientId : String) (tokens : Nat)
    (now : Int) : Bool × RateLimiter :=
  let global := l.consumeGlobal tokens now
  if !global.1 then (false, global.2)
  else if global.2.config.enablePerClient then global.2.consumeClient it clientId tokens now
  else (true, global.2)

def clear (l : RateLimiter) (now : Int) : RateLimiter :=
  { l with clientBuckets := [], lastAccess := [], globalBucket := l.globalBucket.map (·.reset now) }

-- The public calls that change the limiter, each with its clock reading.
inductive Call
  | allowRequest (clientId : String) (tokens : Nat) (now : Int)
  | cleanupInactiveClients (now : Int)
  | clear (now : Int)

def step (it : IterationOrder) (l : RateLimiter) : Call → RateLimiter
  | .allowRequest clientId tokens now => (l.allowRequest it clientId tokens now).2
  | .cleanupInactiveClients now => l.cleanupInactiveClients now
  | .clear now => l.clear now

def run (it : IterationOrder) (l : RateLimiter) (calls : List Call) : RateLimiter :=
  calls.foldl (step it) l

-- A request names its client and reads the clock before `time_point::max()`.
def Call.Valid : Call → Prop
  | .allowRequest clientId _ now => clientId ≠ "" ∧ now < timeMax
  | _ => True

instance : DecidablePred Call.Valid
  | .allowRequest clientId _ now => inferInstanceAs (Decidable (clientId ≠ "" ∧ now < timeMax))
  | .cleanupInactiveClients _ => inferInstanceAs (Decidable True)
  | .clear _ => inferInstanceAs (Decidable True)

section Maps

variable {ν : Type} {m : List (String × ν)} {k : String} {v : ν}

theorem find_eq_none_iff : StdMap.find m k = none ↔ k ∉ m.map Prod.fst := by
  simp only [StdMap.find, Option.map_eq_none', List.find?_eq_none, decide_eq_true_eq,
    List.mem_map, not_exists, not_and]

theorem assign_of_isSome (h : (StdMap.find m k).isSome) :
    Failover.assign m k v = StdMap.setValue m k v := by
  simp [Failover.assign, h]

theorem assign_of_none (h : StdMap.find m k = none) : Failover.assign m k v = m ++ [(k, v)] := by
  simp [Failover.assign, h]

theorem keys_setValue : (StdMap.setValue m k v).map Prod.fst = m.map Prod.fst := by
  simp only [StdMap.setValue, List.map_map]
  congr 1
  funext p
  by_cases h : p.1 = k <;> simp [h]

theorem keys_erase_sublist : ((StdMap.erase m k).map Prod.fst).Sublist (m.map Prod.fst) :=
  (List.filter_sublist m).map Prod.fst

theorem erase_of_not_mem (h : k ∉ m.map Prod.fst) : StdMap.erase m k = m :=
  List.filter_eq_self.mpr fun p hp => by
    simpa using fun e : p.1 = k => h (e ▸ List.mem_map_of_mem _ hp)

-- Erasing a key that is there once takes one entry off.
theorem length_erase_of_mem (hn : (m.map Prod.fst).Nodup) (hk : k ∈ m.map Prod.fst) :
    (StdMap.erase m k).length + 1 = m.length := by
  induction m with
  | nil => simp at hk
  | cons p m ih =>
    rw [List.map_cons, List.nodup_cons] at hn
    by_cases hp : p.1 = k
    · subst hp
      have he : StdMap.erase (p :: m) p.1 = StdMap.erase m p.1 := by
        simp [StdMap.erase, List.filter_cons]
      rw [he, erase_of_not_mem hn.1, List.length_cons]
    · have he : StdMap.erase (p :: m) k = p :: StdMap.erase m k := by
        simp [StdMap.erase, List.filter_cons, hp]
      have hk' : k ∈ m.map Prod.fst := by
        rw [List.map_cons, List.mem_cons] at hk
        exact hk.resolve_left (Ne.symm hp)
      rw [he, List.length_cons, List.length_cons, ← ih hn.2 hk']

theorem isSome_find_iff : (StdMap.find m k).isSome ↔ k ∈ m.map Prod.fst := by
  rw [← not_iff_not, Option.not_isSome_iff_eq_none, find_eq_none_iff]

theorem keys_erase :
    (StdMap.erase m k).map Prod.fst = (m.map Prod.fst).filter fun x => !decide (x = k) := by
  simp [StdMap.erase, List.filter_map, Function.comp_def]

theorem keys_assign : (Failover.assign m k v).map Prod.fst =
    if k ∈ m.map Prod.fst then m.map Prod.fst else m.map Prod.fst ++ [k] := by
  split_ifs with h
  · rw [assign_of_isSome (isSome_find_iff.mpr h), keys_setValue]
  · rw [assign_of_none (find_eq_none_iff.mpr h), List.map_append]
    rfl

end Maps

-- The scan ends on where it started or on an entry, no later than either.
theorem scan_olderOf (l : List (String × Int)) (acc : String × Int) :
    (l.foldl olderOf acc = acc ∨ l.foldl olderOf acc ∈ l) ∧ (l.foldl olderOf acc).2 ≤ acc.2 ∧
      ∀ q ∈ l, (l.foldl olderOf acc).2 ≤ q.2 := by
  induction l generalizing acc with
  | nil => simp
  | cons p l ih =>
    obtain ⟨hm, ha, hq⟩ := ih (olderOf acc p)
    have hp : olderOf acc p = acc ∨ olderOf acc p = p := by
      unfold olderOf
      split_ifs <;> simp
    have hle : (olderOf acc p).2 ≤ acc.2 ∧ (olderOf acc p).2 ≤ p.2 := by
      unfold olderOf
      split_ifs <;> omega
    rw [List.foldl_cons]
    refine ⟨?_, ha.trans hle.1, List.forall_mem_cons.mpr ⟨ha.trans hle.2, hq⟩⟩
    rcases hm with hm | hm
    · rw [hm]
      rcases hp with hp | hp
      · exact .inl hp
      · rw [hp]
        exact .inr (List.mem_cons_self _ _)
    · exact .inr (List.mem_cons_of_mem _ hm)

-- Some client is evicted from a nonempty table: the scan ends on an entry.
theorem oldestClient_mem (it : IterationOrder) {lastAccess : List (String × Int)}
    (hne : lastAccess ≠ []) (hmax : ∀ p ∈ lastAccess, p.2 < timeMax) :
    oldestClient it lastAccess ∈ lastAccess.map Prod.fst := by
  obtain ⟨p, hp⟩ := List.exists_mem_of_ne_nil _ hne
  have hperm := it.perm lastAccess
  obtain ⟨hm | hm, -, hq⟩ := scan_olderOf (it.order lastAccess) ("", timeMax)
  · have h₁ := hq p (hperm.mem_iff.mpr hp)
    have h₂ := hmax p hp
    rw [hm] at h₁
    exact absurd h₁ (by simp only [not_le]; exact h₂)
  · exact List.mem_map_of_mem _ (hperm.mem_iff.mp hm)

-- What every run keeps of the two maps.
structure Inv (l : RateLimiter) : Prop where
  keys : l.clientBuckets.map Prod.fst = l.lastAccess.map Prod.fst
  nodup : (l.lastAccess.map Prod.fst).Nodup
  named : ∀ p ∈ l.lastAccess, p.1 ≠ ""
  beforeMax : ∀ p ∈ l.lastAccess, p.2 < timeMax
  bound : l.clientBuckets.length ≤ max 1 l.config.maxClients

variable {it : IterationOrder} {l : RateLimiter} {clientId : String} {now : Int}

theorem inv_eraseClient (hi : Inv l) (k : String) : Inv (l.eraseClient k) :=
  ⟨by simp only [RateLimiter.eraseClient, keys_erase, hi.keys], hi.nodup.sublist keys_erase_sublist,
    fun p hp => hi.named p (StdMap.mem_erase.mp hp).1,
    fun p hp => hi.beforeMax p (StdMap.mem_erase.mp hp).1,
    (List.length_filter_le _ _).trans hi.bound⟩

theorem inv_foldl_eraseClient (hi : Inv l) (ks : List String) :
    Inv (ks.foldl eraseClient l) ∧ (ks.foldl eraseClient l).clientBuckets.Sublist l.clientBuckets ∧
      (ks.foldl eraseClient l).config = l.config := by
  induction ks generalizing l with
  | nil => exact ⟨hi, List.Sublist.refl _, rfl⟩
  | cons k ks ih =>
    obtain ⟨h₁, h₂, h₃⟩ := ih (inv_eraseClient hi k)
    exact ⟨h₁, h₂.trans (List.filter_sublist _), h₃⟩

theorem inv_cleanupInactiveClients (hi : Inv l) (now : Int) :
    Inv (l.cleanupInactiveClients now) ∧
      (l.cleanupInactiveClients now).clientBuckets.Sublist l.clientBuckets ∧
      (l.cleanupInactiveClients now).config = l.config :=
  inv_foldl_eraseClient hi _

theorem oldestClient_nil (it : IterationOrder) : oldestClient it [] = "" := by
  simp [oldestClient, (it.perm []).eq_nil]

-- The scan finds no client only in an empty table.
theorem clientBuckets_eq_nil_of_oldest (hi : Inv l) (h : oldestClient it l.lastAccess = "") :
    l.clientBuckets = [] := by
  have hl : l.lastAccess = [] := by
    by_contra hne
    obtain ⟨⟨c, t⟩, hp, rfl⟩ := List.mem_map.mp (oldestClient_mem it hne hi.beforeMax)
    exact hi.named _ hp h
  have hk := hi.keys
  rw [hl, List.map_nil, List.map_eq_nil_iff] at hk
  exact hk

-- Making room leaves space for one more client, and brings in no client that was not there.
theorem inv_makeRoom (hi : Inv l) (it : IterationOrder) (now : Int) :
    Inv (l.makeRoom it now) ∧
      (l.makeRoom it now).clientBuckets.length + 1 ≤ max 1 l.config.maxClients ∧
      (l.makeRoom it now).clientBuckets.Sublist l.clientBuckets ∧
      (l.makeRoom it now).config = l.config := by
  obtain ⟨hi₁, hs₁, hc₁⟩ := inv_cleanupInactiveClients hi now
  have hb := hs₁.length_le.trans hi.bound
  simp only [RateLimiter.makeRoom]
  generalize l.cleanupInactiveClients now = l₁ at hi₁ hs₁ hc₁ hb ⊢
  split_ifs with h₁ h₂ h₃
  · -- still full after the cleanup: the scan finds a client, and it is evicted
    have hne : l₁.lastAccess ≠ [] := fun he => h₃ (he ▸ oldestClient_nil it)
    have hk := hi₁.keys
    have hm := oldestClient_mem it hne hi₁.beforeMax
    have he := length_erase_of_mem (hk ▸ hi₁.nodup) (hk ▸ hm)
    refine ⟨inv_eraseClient hi₁ _, ?_, (List.filter_sublist _).trans hs₁, hc₁⟩
    simp only [RateLimiter.eraseClient]
    omega
  · -- the scan finds no client: the table is empty
    have hnil := clientBuckets_eq_nil_of_oldest hi₁ (not_not.mp h₃)
    refine ⟨hi₁, by simp [hnil], hs₁, hc₁⟩
  · exact ⟨hi₁, by rw [hc₁] at h₂; omega, hs₁, hc₁⟩
  · exact ⟨hi, by omega, List.Sublist.refl _, rfl⟩

-- After `get_or_create_bucket` the client has a bucket, and the table still keeps its invariant.
theorem inv_getOrCreateBucket (hi : Inv l) (it : IterationOrder) (hc : clientId ≠ "")
    (hn : now < timeMax) :
    Inv (l.getOrCreateBucket it clientId now).2 ∧
      (StdMap.find (l.getOrCreateBucket it clientId now).2.clientBuckets clientId).isSome ∧
      (l.getOrCreateBucket it clientId now).2.config = l.config := by
  unfold RateLimiter.getOrCreateBucket
  cases hf : StdMap.find l.clientBuckets clientId with
  | some b => exact ⟨hi, by simp [hf], rfl⟩
  | none =>
    obtain ⟨hi₁, hb, hs, hcfg⟩ := inv_makeRoom hi it now
    generalize l.makeRoom it now = l₁ at hi₁ hb hs hcfg
    have hnot : clientId ∉ l₁.clientBuckets.map Prod.fst := fun h =>
      find_eq_none_iff.mp hf ((hs.map _).subset h)
    have hnot' : clientId ∉ l₁.lastAccess.map Prod.fst := hi₁.keys ▸ hnot
    simp only
    rw [assign_of_none (find_eq_none_iff.mpr hnot), assign_of_none (find_eq_none_iff.mpr hnot')]
    refine ⟨⟨by simp only [List.map_append, hi₁.keys]; rfl, ?_, ?_, ?_, ?_⟩, ?_, hcfg⟩
    · rw [List.map_append]
      exact List.nodup_append.mpr ⟨hi₁.nodup, List.nodup_singleton _, by simpa using hnot'⟩
    · exact fun p hp => (List.mem_append.mp hp).elim (hi₁.named p) fun h => by
        rw [List.mem_singleton.mp h]
        exact hc
    · exact fun p hp => (List.mem_append.mp hp).elim (hi₁.beforeMax p) fun h => by
        rw [List.mem_singleton.mp h]
        exact hn
    · simp only [List.length_append, List.length_singleton, hcfg]
      omega
    · simp [StdMap.find, List.find?_append]

-- The invariant reads only the two maps and the configuration.
theorem inv_globalBucket (hi : Inv l) (g : Option TokenBucket) :
    Inv { l with globalBucket := g } :=
  ⟨hi.keys, hi.nodup, hi.named, hi.beforeMax, hi.bound⟩

-- Storing the client's bucket back after the attempt, and renewing its access time.
theorem inv_setBucket (hi : Inv l) (hf : (StdMap.find l.clientBuckets clientId).isSome)
    (b : TokenBucket) (hc : clientId ≠ "") (hn : now < timeMax) :
    Inv { l with clientBuckets := StdMap.setValue l.clientBuckets clientId b } ∧
      Inv { l with
        clientBuckets := StdMap.setValue l.clientBuckets clientId b
        lastAccess := Failover.assign l.lastAccess clientId now } := by
  have hl : (StdMap.setValue l.clientBuckets clientId b).length = l.clientBuckets.length :=
    List.length_map _ _
  have hk : (StdMap.setValue l.clientBuckets clientId b).map Prod.fst = l.lastAccess.map Prod.fst :=
    keys_setValue.trans hi.keys
  have hm : clientId ∈ l.lastAccess.map Prod.fst := hi.keys ▸ isSome_find_iff.mp hf
  refine ⟨⟨hk, hi.nodup, hi.named, hi.beforeMax, hl ▸ hi.bound⟩, ?_⟩
  rw [assign_of_isSome (isSome_find_iff.mpr hm)]
  refine ⟨hk.trans keys_setValue.symm, by rw [keys_setValue]; exact hi.nodup, ?_, ?_,
    hl ▸ hi.bound⟩
  · exact fun p hp => (StdMap.mem_setValue hp).elim (fun e => e ▸ hc) (hi.named p)
  · exact fun p hp => (StdMap.mem_setValue hp).elim (fun e => e ▸ hn) (hi.beforeMax p)

theorem inv_consumeGlobal (hi : Inv l) (tokens : Nat) (now : Int) :
    Inv (l.consumeGlobal tokens now).2 ∧ (l.consumeGlobal tokens now).2.config = l.config := by
  unfold RateLimiter.consumeGlobal
  split
  · split
    · exact ⟨inv_globalBucket hi _, rfl⟩
    · exact ⟨hi, rfl⟩
  · exact ⟨hi, rfl⟩

theorem inv_consumeClient (hi : Inv l) (it : IterationOrder) (hc : clientId ≠ "")
    (hn : now < timeMax) (tokens : Nat) :
    Inv (l.consumeClient it clientId tokens now).2 ∧
      (l.consumeClient it clientId tokens now).2.config = l.config := by
  obtain ⟨hi₁, hf₁, hc₁⟩ := inv_getOrCreateBucket hi it hc hn
  have hs := inv_setBucket hi₁ hf₁ ((l.getOrCreateBucket it clientId now).1.tryConsume tokens now).2
    hc hn
  dsimp only [RateLimiter.consumeClient]
  split_ifs
  · exact ⟨hs.2, hc₁⟩
  · exact ⟨hs.1, hc₁⟩

theorem inv_allowRequest (hi : Inv l) (hc : clientId ≠ "") (hn : now < timeMax) (tokens : Nat) :
    Inv (l.allowRequest it clientId tokens now).2 ∧
      (l.allowRequest it clientId tokens now).2.config = l.config := by
  obtain ⟨hi₁, hc₁⟩ := inv_consumeGlobal hi tokens now
  dsimp only [RateLimiter.allowRequest]
  split_ifs
  · exact ⟨hi₁, hc₁⟩
  · obtain ⟨hi₂, hc₂⟩ := inv_consumeClient hi₁ it hc hn tokens
    exact ⟨hi₂, hc₂.trans hc₁⟩
  · exact ⟨hi₁, hc₁⟩

theorem inv_clear (now : Int) : Inv (l.clear now) ∧ (l.clear now).config = l.config :=
  ⟨⟨rfl, List.nodup_nil, by simp [RateLimiter.clear], by simp [RateLimiter.clear],
    by simp [RateLimiter.clear]⟩, rfl⟩

theorem inv_step (hi : Inv l) (it : IterationOrder) {c : Call} (hv : c.Valid) :
    Inv (step it l c) ∧ (step it l c).config = l.config := by
  cases c with
  | allowRequest clientId tokens now => exact inv_allowRequest hi hv.1 hv.2 tokens
  | cleanupInactiveClients now =>
    exact ⟨(inv_cleanupInactiveClients hi now).1, (inv_cleanupInactiveClients hi now).2.2⟩
  | clear now => exact inv_clear now

theorem inv_run (hi : Inv l) (it : IterationOrder) (calls : List Call) (hv : ∀ c ∈ calls, c.Valid) :
    Inv (l.run it calls) ∧ (l.run it calls).config = l.config := by
  induction calls generalizing l with
  | nil => exact ⟨hi, rfl⟩
  | cons c calls ih =>
    rw [List.forall_mem_cons] at hv
    obtain ⟨h₁, h₂⟩ := inv_step hi it hv.1
    obtain ⟨h₃, h₄⟩ := ih h₁ hv.2
    exact ⟨h₃, h₄.trans h₂⟩

theorem inv_create (config : RateLimiterConfig) (now : Int) : Inv (create config now) :=
  ⟨rfl, List.nodup_nil, by simp [create], by simp [create], by simp [create]⟩

-- Over every run whose requests name their client, the table holds at most `max_clients` buckets.
theorem client_table_bounded (it : IterationOrder) (config : RateLimiterConfig) (now : Int)
    (calls : List Call) (hv : ∀ c ∈ calls, c.Valid) :
    let l := (create config now).run it calls
    l.clientCount ≤ max 1 config.maxClients ∧
      l.clientBuckets.map Prod.fst = l.lastAccess.map Prod.fst ∧
      (l.lastAccess.map Prod.fst).Nodup := by
  obtain ⟨hi, hc⟩ := inv_run (inv_create config now) it calls hv
  have hb := hi.bound
  rw [hc] at hb
  exact ⟨hb, hi.keys, hi.nodup⟩

theorem client_table_bounded_three_clients :
    let calls : List Call := [.allowRequest "a" 1 10, .allowRequest "b" 1 20,
      .allowRequest "c" 1 30, .cleanupInactiveClients 40, .allowRequest "a" 1 50]
    (∀ c ∈ calls, c.Valid) ∧
      let l := (create { maxClients := 2 } 0).run ⟨id, fun _ => List.Perm.refl _⟩ calls
      l.clientCount ≤ max 1 2 ∧
        l.clientBuckets.map Prod.fst = l.lastAccess.map Prod.fst ∧
        (l.lastAccess.map Prod.fst).Nodup :=
  ⟨by decide, client_table_bounded _ { maxClients := 2 } 0 _ (by decide)⟩

-- The cleanup removes nobody when nobody has been idle past the interval.
theorem cleanupInactiveClients_of_active
    (h : ∀ p ∈ l.lastAccess, now - p.2 ≤ l.config.cleanupIntervalSeconds * 1000000000) :
    l.cleanupInactiveClients now = l := by
  have hf : (l.lastAccess.filter fun p =>
      now - p.2 > l.config.cleanupIntervalSeconds * 1000000000) = [] :=
    List.filter_eq_nil_iff.mpr fun p hp => by simpa using h p hp
  simp [RateLimiter.cleanupInactiveClients, hf]

-- While a client with an empty id is the least recently used, the scan ends on an empty id.
theorem oldestClient_of_empty_oldest {lastAccess : List (String × Int)} {t₀ : Int}
    (h₀ : ("", t₀) ∈ lastAccess) (hold : ∀ p ∈ lastAccess, p.1 ≠ "" → t₀ < p.2) :
    oldestClient it lastAccess = "" := by
  have hperm := it.perm lastAccess
  obtain ⟨hm | hm, -, hq⟩ := scan_olderOf (it.order lastAccess) ("", timeMax)
  · rw [oldestClient, hm]
  · by_contra hne
    have h₁ := hq _ (hperm.mem_iff.mpr h₀)
    have h₂ := hold _ (hperm.mem_iff.mp hm) hne
    exact absurd h₁ (not_le.mpr h₂)

-- The scan never evicts a client with an empty id, so the table can grow past `max_clients`.
theorem empty_client_blocks_eviction (it : IterationOrder) (l : RateLimiter) (t₀ : Int) {now : Int}
    (h₀ : ("", t₀) ∈ l.lastAccess) (hold : ∀ p ∈ l.lastAccess, p.1 ≠ "" → t₀ < p.2)
    (hidle : ∀ p ∈ l.lastAccess, now - p.2 ≤ l.config.cleanupIntervalSeconds * 1000000000)
    {clientId : String} (hc : StdMap.find l.clientBuckets clientId = none) :
    (l.getOrCreateBucket it clientId now).2.clientCount = l.clientCount + 1 := by
  have hroom : l.makeRoom it now = l := by
    simp only [RateLimiter.makeRoom, cleanupInactiveClients_of_active hidle,
      oldestClient_of_empty_oldest h₀ hold, ne_eq, not_true_eq_false, if_false, ite_self]
  simp only [RateLimiter.getOrCreateBucket, hc, hroom, clientCount, assign_of_none hc,
    List.length_append, List.length_singleton]

theorem empty_client_blocks_eviction_full_table :
    let l : RateLimiter := ⟨{ maxClients := 1 }, none, [("", .create 100 10.0 0)], [("", 0)]⟩
    ("", 0) ∈ l.lastAccess ∧ (∀ p ∈ l.lastAccess, p.1 ≠ "" → 0 < p.2) ∧
      (∀ p ∈ l.lastAccess, 1 - p.2 ≤ l.config.cleanupIntervalSeconds * 1000000000) ∧
      StdMap.find l.clientBuckets "a" = none ∧
      (l.getOrCreateBucket ⟨id, fun _ => List.Perm.refl _⟩ "a" 1).2.clientCount =
        l.clientCount + 1 :=
  ⟨by decide, by decide, by decide, rfl, empty_client_blocks_eviction _ _ 0 (by decide)
    (by decide) (by decide) rfl⟩

end RateLimiter

-- `s.rfind(c)`: the position of the last `c`, if any.
def rfind (c : Char) : List Char → Option Nat
  | [] => none
  | x :: xs =>
    match rfind c xs with
    | some i => some (i + 1)
    | none => if x = c then some 0 else none

-- `extract_client_id`: the peer without its `ipv4:` or `ipv6:` prefix, and from its last ':' on.
def extractClientId (peer : String) : String :=
  let peer := peer.data
  let peer :=
    if "ipv4:".data.isPrefixOf peer then peer.drop 5
    else if "ipv6:".data.isPrefixOf peer then peer.drop 5
    else peer
  match rfind ':' peer with
  | some lastColon => ⟨peer.take lastColon⟩
  | none => ⟨peer⟩

end DistCache.Security
