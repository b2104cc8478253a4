import DistCache.Persistence.SnapshotCodec

namespace DistCache.Persistence

open Cache Cluster

-- `WriteSnapshotToFile` never reads its stream's state, so a torn write is renamed into place.

-- The files of `snapshot_dir`, by name, with their bytes.
abbrev FileDir := List (String × Bytes)

-- What goes wrong while a snapshot is written.
structure WriteFaults where
  openFails : Bool := false
  writtenBytes : Option Nat := none
  renameFails : Bool := false
deriving DecidableEq, Repr

namespace SnapshotManager

-- `WriteSnapshotToFile` on the directory `dir`.
def writeSnapshotToFileIo (f : WriteFaults) (dir : FileDir) (snapshotId : String)
    (entries : List (Bytes × CacheEntry)) : Bool × FileDir :=
  let tempPath := snapshotId ++ ".tmp"
  let filePath := snapshotId ++ ".snapshot"
  if f.openFails then (false, dir)
  else
    let bytes := writeSnapshotToFile snapshotId entries
    let written := match f.writtenBytes with
      | none => bytes
      | some n => bytes.take n
    let dir := StdMap.erase dir tempPath ++ [(tempPath, written)]
    if f.renameFails then (false, StdMap.erase dir tempPath)
    else (true, StdMap.erase (StdMap.erase dir tempPath) filePath ++ [(filePath, written)])

-- `CreateSnapshot`: the metadata is listed only when the file is reported written.
def createSnapshotIo (f : WriteFaults) (sm : SnapshotManager) (dir : FileDir)
    (storage : ShardedHashTable) (now : Int) : String × SnapshotManager × FileDir :=
  let id := "snapshot-" ++ sm.nodeId ++ "-" ++ toString now
  let entries := storage.forEach now
  let r := writeSnapshotToFileIo f dir id entries
  if r.1 then (id, { sm with snapshots := sm.snapshots ++ [⟨id, now, entries.length⟩] }, r.2)
  else ("", sm, r.2)

theorem find_erase_append_self (dir : FileDir) (name : String) (bytes : Bytes) :
    StdMap.find (StdMap.erase dir name ++ [(name, bytes)]) name = some bytes := by
  simp [StdMap.find, StdMap.erase, List.find?_append, List.find?_filter]

-- Whatever the device refused, a stream that opened and a rename that did not throw give true.
theorem createSnapshotIo_of_opened {f : WriteFaults} (ho : f.openFails = false)
    (hr : f.renameFails = false) (sm : SnapshotManager) (dir : FileDir) (storage : ShardedHashTable)
    (now : Int) :
    let id := "snapshot-" ++ sm.nodeId ++ "-" ++ toString now
    let bytes := writeSnapshotToFile id (storage.forEach now)
    let r := createSnapshotIo f sm dir storage now
    r.1 = id ∧ r.2.1.snapshots = sm.snapshots ++ [⟨id, now, (storage.forEach now).length⟩] ∧
      StdMap.find r.2.2 (id ++ ".snapshot") =
        some (match f.writtenBytes with
          | none => bytes
          | some n => bytes.take n) := by
  simp only [createSnapshotIo, writeSnapshotToFileIo, ho, hr, Bool.false_eq_true, if_false,
    if_true, find_erase_append_self, and_self]

-- With nothing failing, `CreateSnapshot` names and lists the snapshot as the record-level model.
theorem createSnapshotIo_no_faults (sm : SnapshotManager) (dir : FileDir) (sd : SnapshotDir)
    (storage : ShardedHashTable) (now : Int) :
    (createSnapshotIo {} sm dir storage now).1 = (sm.createSnapshot sd storage now).1 ∧
      (createSnapshotIo {} sm dir storage now).2.1.snapshots =
        (sm.createSnapshot sd storage now).2.1.snapshots := by
  obtain ⟨h₁, h₂, -⟩ := createSnapshotIo_of_opened (f := {}) rfl rfl sm dir storage now
  exact ⟨h₁, h₂⟩

-- For every point at which the device stops, the torn snapshot is renamed into place and listed.
theorem torn_snapshot_becomes_visible (sm : SnapshotManager) (dir : FileDir)
    (storage : ShardedHashTable) (now : Int) (n : Nat)
    (hn : n < (writeSnapshotToFile ("snapshot-" ++ sm.nodeId ++ "-" ++ toString now)
      (storage.forEach now)).length) :
    let id := "snapshot-" ++ sm.nodeId ++ "-" ++ toString now
    let bytes := writeSnapshotToFile id (storage.forEach now)
    let r := createSnapshotIo { writtenBytes := some n } sm dir storage now
    r.1 = id ∧ r.2.1.snapshots = sm.snapshots ++ [⟨id, now, (storage.forEach now).length⟩] ∧
      StdMap.find r.2.2 (id ++ ".snapshot") = some (bytes.take n) ∧ bytes.take n ≠ bytes := by
  intro id bytes r
  obtain ⟨h₁, h₂, h₃⟩ := createSnapshotIo_of_opened (f := { writtenBytes := some n }) rfl rfl sm dir
    storage now
  have hlen : n < bytes.length := hn
  refine ⟨h₁, h₂, h₃, fun h => ?_⟩
  have := congrArg List.length h
  rw [List.length_take] at this
  omega

theorem torn_snapshot_becomes_visible_empty :
    let storage := ShardedHashTable.create 1 1024 0 List.length (by decide)
    0 < (writeSnapshotToFile ("snapshot-" ++ (create "node1").nodeId ++ "-" ++ toString (1000 : Int))
      (storage.forEach 1000)).length ∧
    let id := "snapshot-" ++ (create "node1").nodeId ++ "-" ++ toString (1000 : Int)
    let bytes := writeSnapshotToFile id (storage.forEach 1000)
    let r := createSnapshotIo { writtenBytes := some 0 } (create "node1") [] storage 1000
    r.1 = id ∧ r.2.1.snapshots = (create "node1").snapshots ++ [⟨id, 1000, (storage.forEach 1000).length⟩] ∧
      StdMap.find r.2.2 (id ++ ".snapshot") = some (bytes.take 0) ∧ bytes.take 0 ≠ bytes :=
  ⟨by decide, torn_snapshot_becomes_visible _ _ _ _ 0 (by decide)⟩

end SnapshotManager

end DistCache.Persistence
