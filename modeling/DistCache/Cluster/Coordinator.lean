import DistCache.Cluster.Disruption

namespace DistCache.Cluster

-- A restart is a new `CoordinatorServer` on the same `storage_path`; `LoadState` reads nothing.

namespace Coordinator

structure Config where
  storagePath : String := "coordinator_data.json"
  heartbeatTimeoutMs : Nat := 5000
  replicationFactor : Nat := 3
  virtualNodesPerNode : Nat := 150

-- `CoordinatorServer::NodeState`; `last_heartbeat` in milliseconds of the steady clock.
structure NodeState where
  id : String
  address : String
  status : String
  lastHeartbeat : Int
  metadata : List (String × String)
deriving DecidableEq, Repr

-- The files of the coordinator's host, by path.
abbrev Files := List (String × String)

structure RegisterNodeRequest where
  nodeId : String
  address : String
  metadata : List (String × String) := []

structure RegisterNodeResponse where
  success : Bool
  ringVersion : Int
deriving DecidableEq, Repr

structure HeartbeatRequest where
  nodeId : String

structure HeartbeatResponse where
  success : Bool
  ringVersion : Int
  ringChanged : Bool
deriving DecidableEq, Repr

structure GetRingRequest where
  currentVersion : Int

structure NodeInfo where
  id : String
  address : String
  status : String
  lastHeartbeat : Int
deriving DecidableEq, Repr

structure GetRingResponse where
  version : Int
  replicationFactor : Nat
  virtualNodesPerNode : Nat
  changed : Bool
  nodes : List NodeInfo
deriving DecidableEq, Repr

structure AddNodeRequest where
  nodeId : String
  address : String
  metadata : List (String × String) := []

structure AddNodeResponse where
  success : Bool := false
  newRingVersion : Int := 0
  error : String := ""
deriving DecidableEq, Repr

structure RemoveNodeRequest where
  nodeId : String

structure RemoveNodeResponse where
  success : Bool := false
  newRingVersion : Int := 0
  error : String := ""
deriving DecidableEq, Repr

-- `nodes_[id] = state`: an entry of the id is overwritten in place, a new one goes in front.
def assign (nodes : List (String × NodeState)) (id : String) (state : NodeState) :
    List (String × NodeState) :=
  if (StdMap.find nodes id).isSome then nodes.map fun p => if p.1 = id then (id, state) else p
  else (id, state) :: nodes

-- `CoordinatorServer` without its mutex and gRPC server.
structure CoordinatorServer where
  config : Config
  nodes : List (String × NodeState)
  ringVersion : Int
  ring : HashRing

namespace CoordinatorServer

-- The constructor: version 1, an empty ring, then `LoadState`, which reads nothing.
def create (config : Config) (_files : Files) : CoordinatorServer :=
  ⟨config, [], 1, HashRing.create config.replicationFactor config.virtualNodesPerNode⟩

-- The JSON `SaveState` writes; the braces are written with their escapes.
def stateJson (s : CoordinatorServer) : String :=
  "\x7b\n" ++ "  \"ring_version\": " ++ toString s.ringVersion ++ ",\n" ++ "  \"nodes\": [\n" ++
    ",\n".intercalate (s.nodes.map fun p =>
      "    \x7b\n" ++ "      \"id\": \"" ++ p.2.id ++ "\",\n" ++
        "      \"address\": \"" ++ p.2.address ++ "\",\n" ++
        "      \"status\": \"" ++ p.2.status ++ "\"\n" ++ "    \x7d") ++
    "\n  ]\n" ++ "\x7d\n"

def saveState (s : CoordinatorServer) (files : Files) : Files :=
  StdMap.insert stringLt files s.config.storagePath s.stateJson

def newNodeState (nodeId address : String) (metadata : List (String × String)) (now : Int) :
    NodeState :=
  ⟨nodeId, address, "HEALTHY", now, metadata⟩

-- `RegisterNode`: a known id has its state replaced, the ring and the version left alone.
def registerNode (s : CoordinatorServer) (files : Files) (request : RegisterNodeRequest)
    (now : Int) : RegisterNodeResponse × CoordinatorServer × Files :=
  let isNew := (StdMap.find s.nodes request.nodeId).isNone
  let state := newNodeState request.nodeId request.address request.metadata now
  let s := { s with nodes := assign s.nodes request.nodeId state }
  if isNew then
    let s := { s with ring := (s.ring.addNode ⟨request.nodeId, request.address⟩).2,
                      ringVersion := s.ringVersion + 1 }
    (⟨true, s.ringVersion⟩, s, s.saveState files)
  else (⟨true, s.ringVersion⟩, s, files)

def heartbeat (s : CoordinatorServer) (request : HeartbeatRequest) (now : Int) :
    Except String HeartbeatResponse × CoordinatorServer :=
  match StdMap.find s.nodes request.nodeId with
  | none => (.error "Node not registered", s)
  | some state =>
    let state := { state with lastHeartbeat := now, status := "HEALTHY" }
    (.ok ⟨true, s.ringVersion, false⟩, { s with nodes := assign s.nodes request.nodeId state })

-- `GetRing`: the nodes whose status is `HEALTHY`, in the map's order.
def getRing (s : CoordinatorServer) (request : GetRingRequest) : GetRingResponse :=
  ⟨s.ringVersion, s.config.replicationFactor, s.config.virtualNodesPerNode,
    request.currentVersion != s.ringVersion,
    (s.nodes.filter fun p => p.2.status == "HEALTHY").map fun p =>
      ⟨p.2.id, p.2.address, p.2.status, p.2.lastHeartbeat⟩⟩

def addNode (s : CoordinatorServer) (files : Files) (request : AddNodeRequest) (now : Int) :
    AddNodeResponse × CoordinatorServer × Files :=
  if (StdMap.find s.nodes request.nodeId).isSome then ({ error := "Node already exists" }, s, files)
  else
    let s := { s with
      nodes := assign s.nodes request.nodeId
        (newNodeState request.nodeId request.address request.metadata now),
      ring := (s.ring.addNode ⟨request.nodeId, request.address⟩).2,
      ringVersion := s.ringVersion + 1 }
    ({ success := true, newRingVersion := s.ringVersion }, s, s.saveState files)

def removeNode (s : CoordinatorServer) (files : Files) (request : RemoveNodeRequest) :
    RemoveNodeResponse × CoordinatorServer × Files :=
  if (StdMap.find s.nodes request.nodeId).isNone then ({ error := "Node not found" }, s, files)
  else
    let s := { s with
      nodes := StdMap.erase s.nodes request.nodeId,
      ring := (s.ring.removeNode request.nodeId).2,
      ringVersion := s.ringVersion + 1 }
    ({ success := true, newRingVersion := s.ringVersion }, s, s.saveState files)

end CoordinatorServer

-- The RPCs of a coordinator, and a restart on the same files.
inductive Call
  | registerNode (request : RegisterNodeRequest) (now : Int)
  | heartbeat (request : HeartbeatRequest) (now : Int)
  | getRing (request : GetRingRequest)
  | addNode (request : AddNodeRequest) (now : Int)
  | removeNode (request : RemoveNodeRequest)
  | restart

-- One call: the server and files after it, and the `GetRing` answer if it is one.
def step (s : CoordinatorServer) (files : Files) :
    Call → CoordinatorServer × Files × Option GetRingResponse
  | .registerNode request now => let r := s.registerNode files request now; (r.2.1, r.2.2, none)
  | .heartbeat request now => ((s.heartbeat request now).2, files, none)
  | .getRing request => (s, files, some (s.getRing request))
  | .addNode request now => let r := s.addNode files request now; (r.2.1, r.2.2, none)
  | .removeNode request => let r := s.removeNode files request; (r.2.1, r.2.2, none)
  | .restart => (CoordinatorServer.create s.config files, files, none)

-- A run: the ring version after each call, and the `GetRing` answers, in order.
def run (s : CoordinatorServer) (files : Files) : List Call → List Int × List GetRingResponse
  | [] => ([], [])
  | c :: cs =>
    let r := step s files c
    let rest := run r.1 r.2.1 cs
    (r.1.ringVersion :: rest.1, r.2.2.toList ++ rest.2)

-- A second registration keeps the version, and a restart takes it back to 1.
theorem ring_version_repeats_and_resets :
    let s : CoordinatorServer := CoordinatorServer.create {} []
    let calls := [Call.registerNode ⟨"node-1", "10.0.0.1:50051", []⟩ 0, .getRing ⟨0⟩,
      .registerNode ⟨"node-1", "10.0.0.2:50051", []⟩ 1, .getRing ⟨0⟩, .restart, .getRing ⟨0⟩]
    run s [] calls = ([2, 2, 2, 2, 1, 1],
      [⟨2, 3, 150, true, [⟨"node-1", "10.0.0.1:50051", "HEALTHY", 0⟩]⟩,
       ⟨2, 3, 150, true, [⟨"node-1", "10.0.0.2:50051", "HEALTHY", 1⟩]⟩,
       ⟨1, 3, 150, true, []⟩]) := by
  decide

end Coordinator

end DistCache.Cluster
