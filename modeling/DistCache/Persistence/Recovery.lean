import DistCache.Persistence.Wal
import DistCache.Cache.Spec
import Mathlib.Data.List.Perm.Basic

namespace DistCache.Persistence

open Cache Cluster

-- One entry of a snapshot file; an absent TTL or expiry time is written as 0.
structure SnapshotRecord where
  key : Bytes
  value : Bytes
  ttl : Int
  version : Int
  createdAtMs : Int
  expiresAt : Int
deriving DecidableEq, Repr

-- `SnapshotMetadata` with the fields recovery reads; the timestamp in milliseconds.
structure SnapshotMetadata where
  snapshotId : String
  timestamp : Int
  numKeys : Nat
deriving DecidableEq, Repr

-- The `.snapshot` files of `snapshot_dir`, by snapshot id.
abbrev SnapshotDir := List (String × List SnapshotRecord)

-- `SnapshotManager` without its worker and counters; `snapshots_` is kept in memory only.
structure SnapshotManager where
  nodeId : String
  snapshots : List SnapshotMetadata

namespace SnapshotManager

def create (nodeId : String) : SnapshotManager := ⟨nodeId, []⟩

def toRecord (key : Bytes) (e : CacheEntry) : SnapshotRecord :=
  ⟨key, e.value, e.ttlSeconds.getD 0, e.version, e.createdAtMs, e.expiresAtMs.getD 0⟩

-- The entry `ReadSnapshotFromFile` rebuilds.
def fromRecord (r : SnapshotRecord) : CacheEntry :=
  { CacheEntry.empty with key := r.key, value := r.value,
                          ttlSeconds := if 0 < r.ttl then some r.ttl else none,
                          version := r.version, createdAtMs := r.createdAtMs,
                          expiresAtMs := if 0 < r.expiresAt then some r.expiresAt else none }

-- `CreateSnapshot`: the live entries, written under `snapshot-<node>-<ms>`.
def createSnapshot (sm : SnapshotManager) (sd : SnapshotDir) (storage : ShardedHashTable)
    (now : Int) : String × SnapshotManager × SnapshotDir :=
  let id := "snapshot-" ++ sm.nodeId ++ "-" ++ toString now
  let entries := storage.forEach now
  (id, { sm with snapshots := sm.snapshots ++ [⟨id, now, entries.length⟩] },
    StdMap.erase sd id ++ [(id, entries.map fun e => toRecord e.1 e.2)])

-- `RestoreFromSnapshot`: every entry of the file is `set`, in file order.
def restoreFromSnapshot (sm : SnapshotManager) (sd : SnapshotDir) (storage : ShardedHashTable)
    (snapshotId : String) : Bool × ShardedHashTable :=
  match sm.snapshots.find? fun m => decide (m.snapshotId = snapshotId) with
  | none => (false, storage)
  | some m =>
    match StdMap.find sd m.snapshotId with
    | none => (false, storage)
    | some records => (true, records.foldl (fun t r => (t.set r.key (fromRecord r)).2) storage)

end SnapshotManager

-- `RecoveryResult` without the duration.
structure RecoveryResult where
  success : Bool := false
  errorMessage : String := ""
  snapshotRestored : Bool := false
  snapshotId : String := ""
  snapshotKeysCount : Nat := 0
  walReplayed : Bool := false
  walFilesCount : Nat := 0
  walEntriesReplayed : Nat := 0
  lastSequenceNumber : Int := 0
deriving DecidableEq, Repr

namespace RecoveryManager

-- `RestoreSnapshot`: the listed snapshot with the latest timestamp.
def restoreSnapshot (sm : SnapshotManager) (sd : SnapshotDir) (storage : ShardedHashTable)
    (result : RecoveryResult) : Bool × RecoveryResult × ShardedHashTable :=
  match (sm.snapshots.insertionSort fun a b => b.timestamp ≤ a.timestamp).head? with
  | none => (false, result, storage)
  | some latest =>
    let r := sm.restoreFromSnapshot sd storage latest.snapshotId
    if r.1 then
      (true, { result with snapshotRestored := true, snapshotId := latest.snapshotId,
                           snapshotKeysCount := latest.numKeys }, r.2)
    else (false, result, r.2)

-- The entry `ApplyWALEntry` stores for a SET or CAS record; the TTL is multiplied in `int32_t`.
def walCacheEntry (e : WALEntry) : CacheEntry :=
  { CacheEntry.empty with key := e.key, value := e.value, version := e.version,
                          ttlSeconds := e.ttlSeconds, createdAtMs := e.timestampMs,
                          expiresAtMs := e.ttlSeconds.map fun t => e.timestampMs + toInt32 (t * 1000) }

def applyWALEntry (storage : ShardedHashTable) (e : WALEntry) : Bool × ShardedHashTable :=
  match e.type with
  | .set => (true, (storage.set e.key (walCacheEntry e)).2)
  | .delete => (true, (storage.del e.key).2)
  | .cas => (true, (storage.set e.key (walCacheEntry e)).2)

-- The records `ReplayWAL` collects, above `snapshot_sequence`; an unreadable file is skipped.
def collectEntries (d : Dir) (snapshotSequence : Int) : List WALEntry :=
  ((listWALFiles d).insertionSort fun a b => stringLt b a = false).flatMap fun id =>
    match (StdMap.find d id).bind readWALFile with
    | some es => es.filter fun e => decide (snapshotSequence < e.sequenceNumber)
    | none => []

-- `std::sort` by sequence number, modelled by a stable sort.
def sortBySequence (es : List WALEntry) : List WALEntry :=
  es.insertionSort fun a b => a.sequenceNumber ≤ b.sequenceNumber

-- One turn of the replay loop: the table, the records applied and the last applied number.
def replayStep (acc : ShardedHashTable × Nat × Int) (e : WALEntry) : ShardedHashTable × Nat × Int :=
  let r := applyWALEntry acc.1 e
  if r.1 then (r.2, acc.2.1 + 1, e.sequenceNumber) else (r.2, acc.2.1, acc.2.2)

def replayWAL (d : Dir) (storage : ShardedHashTable) (result : RecoveryResult)
    (snapshotSequence : Int) : Bool × RecoveryResult × ShardedHashTable :=
  let files := listWALFiles d
  if files.isEmpty then (true, { result with walReplayed := false }, storage)
  else
    let all := collectEntries d snapshotSequence
    if all.isEmpty then (true, { result with walReplayed := false }, storage)
    else
      let r := (sortBySequence all).foldl replayStep (storage, 0, 0)
      (true, { result with walReplayed := true, walFilesCount := files.length,
                           walEntriesReplayed := r.2.1, lastSequenceNumber := r.2.2 }, r.1)

-- `Recover`: the snapshot sequence is always 0.
def recover (d : Dir) (sm : SnapshotManager) (sd : SnapshotDir) (storage : ShardedHashTable) :
    RecoveryResult × ShardedHashTable :=
  let s := restoreSnapshot sm sd storage {}
  let result := if s.1 then s.2.1 else { s.2.1 with snapshotRestored := false }
  let r := replayWAL d s.2.2 result 0
  if r.1 then ({ r.2.1 with success := true }, r.2.2)
  else ({ r.2.1 with errorMessage := "Failed to replay WAL" }, r.2.2)

theorem replayStep_fst (acc : ShardedHashTable × Nat × Int) (e : WALEntry) :
    (replayStep acc e).1 = (applyWALEntry acc.1 e).2 := by
  dsimp only [replayStep]
  split <;> rfl

-- After a replay, the key of the last record holds what that record says, whatever came before.
theorem find_replay_last (es : List WALEntry) (e : WALEntry) (acc : ShardedHashTable × Nat × Int) :
    ((es ++ [e]).foldl replayStep acc).1.find e.key =
      if e.type = .delete then none else some (walCacheEntry e) := by
  rw [List.foldl_append, List.foldl_cons, List.foldl_nil, replayStep_fst]
  unfold applyWALEntry
  split <;> simp_all [ShardedHashTable.find_set, ShardedHashTable.find_del]

-- `ReplayWAL` leaves the table the sorted records build, also when there is nothing to replay.
theorem replayWAL_table (d : Dir) (storage : ShardedHashTable) (result : RecoveryResult)
    (snapshotSequence : Int) : (replayWAL d storage result snapshotSequence).2.2 =
      ((sortBySequence (collectEntries d snapshotSequence)).foldl replayStep (storage, 0, 0)).1 := by
  dsimp only [replayWAL]
  split_ifs with hf he
  · rw [collectEntries, List.isEmpty_iff.mp hf]
    rfl
  · rw [List.isEmpty_iff.mp he]
    rfl
  · rfl

-- Without a listed snapshot, recovery replays the sorted records over the table it is given.
theorem recover_of_no_snapshot (d : Dir) (nodeId : String) (sd : SnapshotDir)
    (storage : ShardedHashTable) : (recover d (SnapshotManager.create nodeId) sd storage).2 =
      ((sortBySequence (collectEntries d 0)).foldl replayStep (storage, 0, 0)).1 := by
  have hr : restoreSnapshot (SnapshotManager.create nodeId) sd storage {} = (false, {}, storage) := rfl
  dsimp only [recover]
  rw [hr]
  split <;> split <;> exact replayWAL_table _ _ _ _

-- In a list sorted by sequence number, a record numbered above every other record comes last.
theorem getLast?_of_sorted {es : List WALEntry} {e : WALEntry}
    (hs : es.Sorted fun x y => x.sequenceNumber ≤ y.sequenceNumber) (he : e ∈ es)
    (hmax : ∀ x ∈ es, x ≠ e → x.sequenceNumber < e.sequenceNumber) : es.getLast? = some e := by
  obtain ⟨l, hl⟩ := Option.isSome_iff_exists.mp (List.getLast?_isSome.mpr (List.ne_nil_of_mem he))
  obtain ⟨ys, rfl⟩ := List.getLast?_eq_some_iff.mp hl
  rw [hl, Option.some_inj]
  by_contra hne
  have hlt := hmax l (List.mem_append_right _ (List.mem_singleton_self l)) hne
  rcases List.mem_append.mp he with he | he
  · have := (List.pairwise_append.mp hs).2.2 e he l (List.mem_singleton_self l)
    omega
  · exact hne (List.mem_singleton.mp he).symm

theorem value_replay_last (es : List WALEntry) (e : WALEntry) (ht : e.type ≠ .delete)
    (acc : ShardedHashTable × Nat × Int) :
    (((es ++ [e]).foldl replayStep acc).1.find e.key).map CacheEntry.value = some e.value := by
  rw [find_replay_last, if_neg ht]
  rfl

end RecoveryManager

open RecoveryManager in
-- After a restart numbers "c" 1 again, recovery restores "b".
theorem recover_restores_overwritten_value (encodedSize : Record → Nat)
    (hsize : ∀ r, encodedSize r < 1024 * 1024) (t₂ t₀ : ShardedHashTable) (sd : SnapshotDir) :
    let k := bytesOf "k"
    let d : Dir :=
      [("wal-node1-1000", [.header ⟨"wal-node1-1000", 1000, "node1", 1⟩,
          .entry ⟨.set, 1, 1000, k, bytesOf "a", 1, none, none⟩,
          .entry ⟨.set, 2, 1001, k, bytesOf "b", 1, none, none⟩]),
        ("wal-node1-2000", [.header ⟨"wal-node1-2000", 2000, "node1", 1⟩,
          .entry ⟨.set, 1, 2000, k, bytesOf "c", 1, none, none⟩])]
    history encodedSize { syncOnWrite := false } []
        [[.openWal 1000, .appendSet 1000 k (.init k (bytesOf "a") none 1000),
            .appendSet 1001 k (.init k (bytesOf "b") none 1001)],
          [.openWal 2000, .appendSet 2000 k (.init k (bytesOf "c") none 2000)]] = some d ∧
      ((t₂.set k (.init k (bytesOf "c") none 2000)).2.find k).map CacheEntry.value =
        some (bytesOf "c") ∧
      ((recover d (SnapshotManager.create "node1") sd t₀).2.find k).map CacheEntry.value =
        some (bytesOf "b") ∧
      ∀ es : List WALEntry, es.Perm (collectEntries d 0) → es.Sorted (fun x y => x.sequenceNumber ≤ y.sequenceNumber) →
        ((es.foldl replayStep (t₀, 0, 0)).1.find k).map CacheEntry.value = some (bytesOf "b") := by
  intro k d
  have hfit₂ : ∀ r r', WAL.recordSize encodedSize r + WAL.recordSize encodedSize r' <
      100 * 1024 * 1024 := fun r r' => by
    have := hsize r
    have := hsize r'
    unfold WAL.recordSize
    omega
  have hfit : ∀ r, WAL.recordSize encodedSize r < 100 * 1024 * 1024 := fun r =>
    Nat.lt_of_le_of_lt (Nat.le_add_right _ _) (hfit₂ r r)
  have hmax : ∀ x ∈ collectEntries d 0, x ≠ ⟨.set, 2, 1001, k, bytesOf "b", 1, none, none⟩ →
      x.sequenceNumber < 2 := by
    decide
  refine ⟨?_, by rw [ShardedHashTable.find_set]; rfl, ?_, fun es hp hs => ?_⟩
  · simp (disch := first | rfl | decide | exact hfit _ | exact hfit₂ _ _) only [history, WAL.run,
      WAL.call, WAL.appendSet, List.cons_append, List.nil_append, Option.some_bind, WAL.create,
      WAL.openWal_of_new, WAL.appendEntry_of_fits, Option.map_some', WAL.close]
    decide
  · have hs : sortBySequence (collectEntries d 0) =
        [⟨.set, 1, 1000, k, bytesOf "a", 1, none, none⟩, ⟨.set, 1, 2000, k, bytesOf "c", 1, none, none⟩] ++
          [⟨.set, 2, 1001, k, bytesOf "b", 1, none, none⟩] := by
      decide
    rw [recover_of_no_snapshot, hs]
    exact value_replay_last _ _ (by decide) _
  · rw [← List.dropLast_append_getLast? _ (getLast?_of_sorted hs (hp.mem_iff.mpr (by decide))
      fun x hx => hmax x (hp.mem_iff.mp hx))]
    exact value_replay_last _ _ (by decide) _

theorem recover_restores_overwritten_value_small :
    (∀ r : Record, (fun _ => 0 : Record → Nat) r < 1024 * 1024) ∧
      let t := ShardedHashTable.create 1 1024 0 List.length (by decide)
      let k := bytesOf "k"
      let d : Dir :=
        [("wal-node1-1000", [.header ⟨"wal-node1-1000", 1000, "node1", 1⟩,
            .entry ⟨.set, 1, 1000, k, bytesOf "a", 1, none, none⟩,
            .entry ⟨.set, 2, 1001, k, bytesOf "b", 1, none, none⟩]),
          ("wal-node1-2000", [.header ⟨"wal-node1-2000", 2000, "node1", 1⟩,
            .entry ⟨.set, 1, 2000, k, bytesOf "c", 1, none, none⟩])]
      history (fun _ => 0) { syncOnWrite := false } []
          [[.openWal 1000, .appendSet 1000 k (.init k (bytesOf "a") none 1000),
              .appendSet 1001 k (.init k (bytesOf "b") none 1001)],
            [.openWal 2000, .appendSet 2000 k (.init k (bytesOf "c") none 2000)]] = some d ∧
        ((t.set k (.init k (bytesOf "c") none 2000)).2.find k).map CacheEntry.value =
          some (bytesOf "c") ∧
        ((RecoveryManager.recover d (SnapshotManager.create "node1") [] t).2.find k).map
          CacheEntry.value = some (bytesOf "b") ∧
        ∀ es : List WALEntry, es.Perm (RecoveryManager.collectEntries d 0) →
          es.Sorted (fun x y => x.sequenceNumber ≤ y.sequenceNumber) →
          ((es.foldl RecoveryManager.replayStep (t, 0, 0)).1.find k).map CacheEntry.value =
            some (bytesOf "b") :=
  ⟨fun _ => by simp, recover_restores_overwritten_value (fun _ => 0) (fun _ => by simp) _ _ []⟩

end DistCache.Persistence
