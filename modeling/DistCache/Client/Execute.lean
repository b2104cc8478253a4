import DistCache.Client.ShardingClient
import DistCache.Service.Admission

namespace DistCache.Client

open Cache Cluster Service Security

-- What became of each attempt in the network is a parameter; the backoff sleeps are left out.

-- What became of one attempt: a transport failure, an answer in time, or a passed deadline.
inductive Attempt
  | failed (message : String)
  | reached (steadyNs nowMs : Int)
  | late (steadyNs nowMs : Int) (message : String)

-- The peer the servers see, the order their limiters iterate in, and the fate of each attempt.
structure Network where
  peer : String
  order : IterationOrder
  fate : String → Nat → Attempt

-- The cache servers, by address: the flags each was started with, and its state.
structure Servers where
  globals : String → Globals
  state : String → ServerState

def Servers.setState (c : Servers) (address : String) (s : ServerState) : Servers :=
  { c with state := Function.update c.state address s }

-- `OperationResult<T>` without the timestamp and the version vector, which no handler sets.
structure OperationResult (α : Type) where
  success : Bool
  value : Option α
  error : String
  nodeId : String
  version : Int := 0
  versionMismatch : Bool := false
deriving DecidableEq, Repr

def OperationResult.mkSuccess {α : Type} (val : α) (node : String) : OperationResult α :=
  ⟨true, some val, "", node, 0, false⟩

def OperationResult.mkError {α : Type} (err : String) : OperationResult α :=
  ⟨false, none, err, "", 0, false⟩

-- How an attempt ends: with the operation's result, or with the error kept as `last_error`.
inductive AttemptResult (α : Type)
  | done (result : OperationResult α)
  | retry (lastError : String)

section Loop

variable {α : Type} (attempt : Node → Nat → Servers → AttemptResult α × Servers)

-- The attempts on one node, the next one numbered `a`, `n` of them left.
def attemptsOn (node : Node) : Nat → Nat → String → Servers → AttemptResult α × Servers
  | 0, _, lastError, c => (.retry lastError, c)
  | n + 1, a, _, c =>
    match attempt node a c with
    | (.done result, c') => (.done result, c')
    | (.retry e, c') => attemptsOn node n (a + 1) e c'

-- The loop over the replicas: a node without a connection is skipped.
def executeLoop (connected : String → Bool) (retryAttempts : Nat) :
    List Node → String → Servers → OperationResult α × Servers
  | [], lastError, c => (.mkError ("All replicas failed. Last error: " ++ lastError), c)
  | node :: rest, lastError, c =>
    if connected node.id then
      match attemptsOn attempt node retryAttempts 0 lastError c with
      | (.done result, c') => (result, c')
      | (.retry e, c') => executeLoop connected retryAttempts rest e c'
    else executeLoop connected retryAttempts rest ("No connection for node: " ++ node.id) c

end Loop

-- What the stub hands back: the response when the status is OK, and gRPC's message otherwise.
def statusOf {β : Type} : Except Refusal (Status × β) → Except String β
  | .error (.resourceExhausted message) => .error message
  | .error (.auth status) => .error status.message
  | .ok (status, response) => if status.code = .ok then .ok response else .error status.message

-- One attempt's RPC to `node`, of the operation given, whose handler's body is `body`.
def rpcTo {β : Type} (network : Network) (node : Node) (a : Nat) (operation : Operation)
    (body : Globals → Int → ShardedHashTable → (Status × β) × ShardedHashTable) (c : Servers) :
    Except String β × Servers :=
  let serve (steadyNs nowMs : Int) :=
    guarded (c.globals node.address) network.order (c.state node.address) ⟨network.peer, []⟩
      steadyNs nowMs operation (body (c.globals node.address) nowMs)
  match network.fate node.id a with
  | .failed message => (.error message, c)
  | .reached steadyNs nowMs =>
    let r := serve steadyNs nowMs
    (statusOf r.1, c.setState node.address r.2)
  | .late steadyNs nowMs message =>
    (.error message, c.setState node.address (serve steadyNs nowMs).2)

-- The handlers' bodies, as `rpcTo` takes them.
def getBody (key : Bytes) (g : Globals) (now : Int) (storage : ShardedHashTable) :
    (Status × GetResponse) × ShardedHashTable :=
  let x := CacheServiceImpl.get g.validator storage now ⟨key⟩
  ((x.1, x.2.1), x.2.2)

def setBody (key value : Bytes) (ttlSeconds : Option Int) (g : Globals) (now : Int)
    (storage : ShardedHashTable) : (Status × SetResponse) × ShardedHashTable :=
  let x := CacheServiceImpl.set g.validator storage now ⟨key, value, ttlSeconds⟩
  ((x.1, x.2.1), x.2.2)

def deleteBody (key : Bytes) (g : Globals) (_now : Int) (storage : ShardedHashTable) :
    (Status × DeleteResponse) × ShardedHashTable :=
  let x := CacheServiceImpl.delete g.validator storage ⟨key⟩
  ((x.1, x.2.1), x.2.2)

def compareAndSwapBody (key : Bytes) (expectedVersion : Int) (newValue : Bytes)
    (ttlSeconds : Option Int) (g : Globals) (now : Int) (storage : ShardedHashTable) :
    (Status × CompareAndSwapResponse) × ShardedHashTable :=
  let x := CacheServiceImpl.compareAndSwap g.validator storage now
    ⟨key, expectedVersion, newValue, ttlSeconds⟩
  ((x.1, x.2.1), x.2.2)

-- One attempt: its RPC, then what the answer means for the loop.
def attemptWith {α β : Type} (network : Network) (operation : Operation)
    (body : Globals → Int → ShardedHashTable → (Status × β) × ShardedHashTable)
    (outcome : Node → Except String β → AttemptResult α) (node : Node) (a : Nat) (c : Servers) :
    AttemptResult α × Servers :=
  let r := rpcTo network node a operation body c
  (outcome node r.1, r.2)

-- What an answer means to each `Execute*`.
def getOutcome (node : Node) : Except String GetResponse → AttemptResult Bytes
  | .ok response =>
    if response.found then
      .done { OperationResult.mkSuccess response.value node.id with version := response.version }
    else .done (.mkError "Key not found")
  | .error message => .retry ("RPC failed: " ++ message)

def setOutcome (node : Node) : Except String SetResponse → AttemptResult Bool
  | .ok response =>
    if response.success then
      .done { OperationResult.mkSuccess true node.id with version := response.version }
    else .retry "Set failed: "
  | .error message => .retry ("RPC failed: " ++ message)

def deleteOutcome (node : Node) : Except String DeleteResponse → AttemptResult Bool
  | .ok response =>
    if response.success then .done (.mkSuccess true node.id) else .retry "Delete failed: "
  | .error message => .retry ("RPC failed: " ++ message)

-- A swap that is answered is final, whatever its answer.
def compareAndSwapOutcome (node : Node) : Except String CompareAndSwapResponse → AttemptResult Bool
  | .ok response =>
    if response.success then
      .done { OperationResult.mkSuccess true node.id with version := response.newVersion }
    else .done { OperationResult.mkError ("CAS failed: " ++ response.error) with
      versionMismatch := true, version := response.actualVersion }
  | .error message => .retry ("RPC failed: " ++ message)

-- One attempt of each `Execute*`.
def getAttempt (network : Network) (key : Bytes) :
    Node → Nat → Servers → AttemptResult Bytes × Servers :=
  attemptWith network .read (getBody key) getOutcome

def setAttempt (network : Network) (key value : Bytes) (ttlSeconds : Option Int) :
    Node → Nat → Servers → AttemptResult Bool × Servers :=
  attemptWith network .write (setBody key value ttlSeconds) setOutcome

def deleteAttempt (network : Network) (key : Bytes) :
    Node → Nat → Servers → AttemptResult Bool × Servers :=
  attemptWith network .write (deleteBody key) deleteOutcome

def compareAndSwapAttempt (network : Network) (key : Bytes) (expectedVersion : Int)
    (newValue : Bytes) (ttlSeconds : Option Int) :
    Node → Nat → Servers → AttemptResult Bool × Servers :=
  attemptWith network .write (compareAndSwapBody key expectedVersion newValue ttlSeconds)
    compareAndSwapOutcome

namespace ShardingClient

-- `connections_.find(node.id) != connections_.end()`.
def connected (client : ShardingClient) (nodeId : String) : Bool :=
  (List.range client.config.nodeAddresses.length).any fun i => generateNodeId "node" i == nodeId

variable (client : ShardingClient) (retryAttempts : Nat) (network : Network)

-- The operation on the key's replicas, or `No nodes available` when the ring gives none.
def onReplicas {α : Type} (key : Bytes) (attempt : Node → Nat → Servers → AttemptResult α × Servers)
    (c : Servers) : OperationResult α × Servers :=
  let replicas := client.replicasForKey key
  if replicas.isEmpty then (.mkError "No nodes available", c)
  else executeLoop attempt client.connected retryAttempts replicas "" c

def get (key : Bytes) (c : Servers) : OperationResult Bytes × Servers :=
  onReplicas client retryAttempts key (getAttempt network key) c

def set (key value : Bytes) (ttlSeconds : Option Int) (c : Servers) :
    OperationResult Bool × Servers :=
  onReplicas client retryAttempts key (setAttempt network key value ttlSeconds) c

def delete (key : Bytes) (c : Servers) : OperationResult Bool × Servers :=
  onReplicas client retryAttempts key (deleteAttempt network key) c

def compareAndSwap (key : Bytes) (expectedVersion : Int) (newValue : Bytes)
    (ttlSeconds : Option Int) (c : Servers) : OperationResult Bool × Servers :=
  onReplicas client retryAttempts key
    (compareAndSwapAttempt network key expectedVersion newValue ttlSeconds) c

end ShardingClient

-- The storages of `c'` are those of `c`, and so are the servers' flags.
def Servers.SameStorage (c c' : Servers) : Prop :=
  c'.globals = c.globals ∧ ∀ address, (c'.state address).storage = (c.state address).storage

theorem Servers.SameStorage.refl (c : Servers) : c.SameStorage c := ⟨rfl, fun _ => rfl⟩

theorem Servers.SameStorage.trans {c c' c'' : Servers} (h : c.SameStorage c')
    (h' : c'.SameStorage c'') : c.SameStorage c'' :=
  ⟨h'.1.trans h.1, fun address => (h'.2 address).trans (h.2 address)⟩

-- Storing back a server's state with its storage unchanged.
theorem Servers.SameStorage.setState {c : Servers} {address : String} {s : ServerState}
    (h : s.storage = (c.state address).storage) : c.SameStorage (c.setState address s) := by
  refine ⟨rfl, fun address' => ?_⟩
  by_cases ha : address' = address
  · subst ha
    simp [Servers.setState, h]
  · simp [Servers.setState, Function.update_noteq ha]

section Loop

variable {α : Type} {attempt : Node → Nat → Servers → AttemptResult α × Servers}
  {Q : Servers → Prop}

end Loop

section Auth

variable {c₀ : Servers} (hauth : ∀ address, (c₀.globals address).authManager.isSome)
include hauth

end Auth

end DistCache.Client
