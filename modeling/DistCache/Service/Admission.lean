import DistCache.Service.Server
import DistCache.Security.AuthManager
import DistCache.Security.RateLimiter

namespace DistCache.Service

open Cache Security

-- Every RPC but `HealthCheck` starts with `CHECK_RATE_LIMIT`, then `REQUIRE_AUTH` when enabled.

-- What the handlers read of a `ServerContext`: the peer and the client's metadata.
structure ServerContext where
  peer : String
  metadata : List (Bytes × Bytes)

-- The RPCs of `CacheService`.
inductive ServiceCall
  | cache (request : Request)
  | getMetrics
  | healthCheck

-- The operation each cache handler passes to `REQUIRE_AUTH`.
def Request.operation : Request → Operation
  | .get _ => .read
  | .set _ => .write
  | .delete _ => .write
  | .compareAndSwap _ => .write

-- The operation a handler passes to `REQUIRE_AUTH`; `HealthCheck` has no prologue.
def ServiceCall.operation : ServiceCall → Option Operation
  | .cache r => some r.operation
  | .getMetrics => some .metrics
  | .healthCheck => none

structure Rpc where
  context : ServerContext
  steadyNs : Int
  nowMs : Int
  call : ServiceCall

-- The globals `main` sets from its flags, other than the limiter.
structure Globals where
  validator : Option Validator
  authManager : Option AuthManager

-- What the server keeps between RPCs: `storage_` and `g_rate_limiter`.
structure ServerState where
  storage : ShardedHashTable
  rateLimiter : Option RateLimiter

-- The statuses a prologue ends an RPC with.
inductive Refusal
  | resourceExhausted (message : String)
  | auth (status : AuthStatus)
deriving DecidableEq, Repr

-- `CHECK_RATE_LIMIT(context, g_rate_limiter.get())`.
def checkRateLimit (it : IterationOrder) (rateLimiter : Option RateLimiter)
    (context : ServerContext) (steadyNs : Int) : Except Refusal Unit × Option RateLimiter :=
  match rateLimiter with
  | none => (.ok (), none)
  | some l =>
    let allowed := l.allowRequest it (extractClientId context.peer) 1 steadyNs
    (if allowed.1 then .ok ()
      else .error (.resourceExhausted "Rate limit exceeded. Please try again later."),
      some allowed.2)

-- `if (g_require_auth) REQUIRE_AUTH(context, *g_auth_manager, operation)`.
def checkAuth (authManager : Option AuthManager) (context : ServerContext) (nowMs : Int)
    (operation : Operation) : Except Refusal Unit :=
  match authManager with
  | none => .ok ()
  | some m =>
    match m.requireAuth context.metadata nowMs operation with
    | .ok () => .ok ()
    | .error status => .error (.auth status)

def prologue (g : Globals) (it : IterationOrder) (rateLimiter : Option RateLimiter)
    (context : ServerContext) (steadyNs nowMs : Int) (operation : Operation) :
    Except Refusal Unit × Option RateLimiter :=
  let limited := checkRateLimit it rateLimiter context steadyNs
  match limited.1 with
  | .error e => (.error e, limited.2)
  | .ok () => (checkAuth g.authManager context nowMs operation, limited.2)

-- A handler with a prologue: the handler's body runs when the prologue lets the RPC through.
def guarded {β : Type} (g : Globals) (it : IterationOrder) (s : ServerState)
    (context : ServerContext) (steadyNs nowMs : Int) (operation : Operation)
    (body : ShardedHashTable → β × ShardedHashTable) : Except Refusal β × ServerState :=
  let p := prologue g it s.rateLimiter context steadyNs nowMs operation
  match p.1 with
  | .error e => (.error e, ⟨s.storage, p.2⟩)
  | .ok () =>
    let x := body s.storage
    (.ok x.1, ⟨x.2, p.2⟩)

-- One RPC. What `GetMetrics` and `HealthCheck` answer is left out (`none`).
def handleRpc (g : Globals) (it : IterationOrder) (s : ServerState) (rpc : Rpc) :
    Except Refusal (Option (Status × Response)) × ServerState :=
  match rpc.call with
  | .cache r =>
    guarded g it s rpc.context rpc.steadyNs rpc.nowMs r.operation fun storage =>
      let x := CacheServiceImpl.handle g.validator storage rpc.nowMs r
      (some (x.1, x.2.1), x.2.2)
  | .getMetrics => guarded g it s rpc.context rpc.steadyNs rpc.nowMs .metrics fun storage =>
      (none, storage)
  | .healthCheck => (.ok none, s)

def run (g : Globals) (it : IterationOrder) (s : ServerState) (rpcs : List Rpc) : ServerState :=
  rpcs.foldl (fun s rpc => (handleRpc g it s rpc).2) s

theorem run_cons (g : Globals) (it : IterationOrder) (s : ServerState) (rpc : Rpc)
    (rpcs : List Rpc) :
    run g it s (rpc :: rpcs) = run g it (handleRpc g it s rpc).2 rpcs := rfl

-- A cache RPC as the server of `Server` takes it.
def Rpc.cacheRequest (rpc : Rpc) : Option (Int × Request) :=
  match rpc.call with
  | .cache r => some (rpc.nowMs, r)
  | _ => none

-- The call an RPC's `CHECK_RATE_LIMIT` makes on the limiter.
def Rpc.limiterCall (rpc : Rpc) : Option RateLimiter.Call :=
  rpc.call.operation.map fun _ => .allowRequest (extractClientId rpc.context.peer) 1 rpc.steadyNs

-- Whether the prologue lets an RPC through, given the limiter it reads; `HealthCheck` has none.
def admits (g : Globals) (it : IterationOrder) (rateLimiter : Option RateLimiter) (rpc : Rpc) :
    Bool :=
  match rpc.call.operation with
  | none => true
  | some operation =>
    match (prologue g it rateLimiter rpc.context rpc.steadyNs rpc.nowMs operation).1 with
    | .ok () => true
    | .error _ => false

-- The RPCs of a run that the prologue lets through, each at its turn.
def admitted (g : Globals) (it : IterationOrder) : Option RateLimiter → List Rpc → List Rpc
  | _, [] => []
  | rateLimiter, rpc :: rpcs =>
    let rest := admitted g it (rateLimiter.map (·.run it rpc.limiterCall.toList)) rpcs
    if admits g it rateLimiter rpc then rpc :: rest else rest

theorem serve_append (validator : Option Validator) :
    ∀ (storage : ShardedHashTable) (xs ys : List (Int × Request)),
      CacheServiceImpl.serve validator storage (xs ++ ys) =
        CacheServiceImpl.serve validator (CacheServiceImpl.serve validator storage xs) ys
  | _, [], _ => rfl
  | _, _ :: xs, ys => serve_append validator _ xs ys

section OneRpc

variable {g : Globals} {it : IterationOrder} {context : ServerContext} {steadyNs nowMs : Int}
  {operation : Operation}

-- The limiter after a prologue: one `allow_request`, whatever the prologue answers.
theorem prologue_snd (rateLimiter : Option RateLimiter) :
    (prologue g it rateLimiter context steadyNs nowMs operation).2 =
      rateLimiter.map fun l => (l.allowRequest it (extractClientId context.peer) 1 steadyNs).2 := by
  cases rateLimiter with
  | none => rfl
  | some l =>
    dsimp only [prologue, checkRateLimit]
    split <;> rfl

theorem checkAuth_some_eq_ok {m : AuthManager}
    (h : checkAuth (some m) context nowMs operation = .ok ()) :
    ∃ token, m.authenticate context.metadata nowMs = some token ∧
      AuthManager.authorize token operation = true := by
  refine AuthManager.requireAuth_eq_ok.mp ?_
  simp only [checkAuth] at h
  split at h
  · assumption
  · cases h

-- A prologue that lets an RPC through has passed `REQUIRE_AUTH` when it is on.
theorem checkAuth_of_prologue {rateLimiter : Option RateLimiter}
    (h : (prologue g it rateLimiter context steadyNs nowMs operation).1 = .ok ()) :
    checkAuth g.authManager context nowMs operation = .ok () := by
  dsimp only [prologue] at h
  split at h
  · cases h
  · exact h

theorem guarded_rateLimiter {β : Type} (s : ServerState)
    (body : ShardedHashTable → β × ShardedHashTable) :
    (guarded g it s context steadyNs nowMs operation body).2.rateLimiter =
      (prologue g it s.rateLimiter context steadyNs nowMs operation).2 := by
  dsimp only [guarded]
  split <;> rfl

-- A prologue that lets an RPC through has passed `REQUIRE_AUTH` for its operation.
theorem checkAuth_of_admits {rateLimiter : Option RateLimiter} {rpc : Rpc}
    (h : admits g it rateLimiter rpc = true) (ho : operation ∈ rpc.call.operation) :
    checkAuth g.authManager rpc.context rpc.nowMs operation = .ok () := by
  rw [Option.mem_def] at ho
  simp only [admits, ho] at h
  split at h
  · exact checkAuth_of_prologue ‹_›
  · cases h

-- The limiter after one RPC: one `allow_request`, unless the RPC is a `HealthCheck`.
theorem handleRpc_rateLimiter (s : ServerState) (rpc : Rpc) :
    (handleRpc g it s rpc).2.rateLimiter = s.rateLimiter.map (·.run it rpc.limiterCall.toList) := by
  cases hc : rpc.call with
  | healthCheck => simp [handleRpc, Rpc.limiterCall, hc, ServiceCall.operation, RateLimiter.run]
  | cache r | getMetrics =>
    rw [handleRpc, hc, guarded_rateLimiter, prologue_snd, Rpc.limiterCall, hc]
    rfl

theorem handleRpc_storage (s : ServerState) (rpc : Rpc) :
    (handleRpc g it s rpc).2.storage =
      if admits g it s.rateLimiter rpc then
        CacheServiceImpl.serve g.validator s.storage rpc.cacheRequest.toList
      else s.storage := by
  cases hc : rpc.call with
  | cache r =>
    cases hp : (prologue g it s.rateLimiter rpc.context rpc.steadyNs rpc.nowMs r.operation).1 <;>
      simp [handleRpc, hc, guarded, admits, ServiceCall.operation, hp, Rpc.cacheRequest,
        CacheServiceImpl.serve]
  | getMetrics =>
    cases hp : (prologue g it s.rateLimiter rpc.context rpc.steadyNs rpc.nowMs .metrics).1 <;>
      simp [handleRpc, hc, guarded, admits, ServiceCall.operation, hp, Rpc.cacheRequest,
        CacheServiceImpl.serve]
  | healthCheck =>
    simp [handleRpc, hc, admits, ServiceCall.operation, Rpc.cacheRequest, CacheServiceImpl.serve]

end OneRpc

-- Over every run of the server, the storage is the plain server's after the RPCs let through.
theorem run_admits (g : Globals) (it : IterationOrder) (s : ServerState) (rpcs : List Rpc) :
    (run g it s rpcs).storage =
        CacheServiceImpl.serve g.validator s.storage
          ((admitted g it s.rateLimiter rpcs).filterMap Rpc.cacheRequest) ∧
      (∀ m, g.authManager = some m → ∀ rpc ∈ admitted g it s.rateLimiter rpcs,
        ∀ operation ∈ rpc.call.operation,
          ∃ token, m.authenticate rpc.context.metadata rpc.nowMs = some token ∧
            AuthManager.authorize token operation = true) ∧
      (run g it s rpcs).rateLimiter =
        s.rateLimiter.map (·.run it (rpcs.filterMap Rpc.limiterCall)) := by
  induction rpcs generalizing s with
  | nil => exact ⟨rfl, by simp [admitted], by simp [run, RateLimiter.run]⟩
  | cons rpc rpcs ih =>
    obtain ⟨hstorage, hauth, hlimiter⟩ := ih (handleRpc g it s rpc).2
    have hrl := @handleRpc_rateLimiter g it s rpc
    rw [hrl] at hstorage hauth
    rw [run_cons]
    refine ⟨?_, fun m hm rpc' h' operation ho => ?_, ?_⟩
    · rw [hstorage, handleRpc_storage, admitted]
      split_ifs
      · rw [List.filterMap_cons, ← serve_append]
        cases rpc.cacheRequest <;> rfl
      · rfl
    · simp only [admitted] at h'
      split_ifs at h' with ha
      · rcases List.mem_cons.mp h' with rfl | h'
        · exact checkAuth_some_eq_ok (hm ▸ checkAuth_of_admits ha ho)
        · exact hauth m hm rpc' h' operation ho
      · exact hauth m hm rpc' h' operation ho
    · rw [hlimiter, hrl, Option.map_map]
      cases hc : rpc.limiterCall <;> simp [hc, RateLimiter.run, Function.comp_def]

end DistCache.Service
