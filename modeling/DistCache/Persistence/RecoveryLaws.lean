import DistCache.Persistence.Recovery
import DistCache.Cache.Refinement

namespace DistCache.Persistence

open Cache Cluster

-- Everything `Recover` does to the engine is a `set` or a `del` of entries read from disk.

namespace RecoveryManager

-- The entries `RestoreSnapshot` sets, in file order.
def snapshotWrites (sm : SnapshotManager) (sd : SnapshotDir) : List (Bytes × Option CacheEntry) :=
  match (sm.snapshots.insertionSort fun a b => b.timestamp ≤ a.timestamp).head? with
  | none => []
  | some latest =>
    match sm.snapshots.find? fun m => decide (m.snapshotId = latest.snapshotId) with
    | none => []
    | some m => ((StdMap.find sd m.snapshotId).getD []).map fun r =>
        (r.key, some (SnapshotManager.fromRecord r))

-- The write `ApplyWALEntry` makes for a record.
def walWrite (e : WALEntry) : Bytes × Option CacheEntry :=
  (e.key, if e.type = .delete then none else some (walCacheEntry e))

def walWrites (d : Dir) : List (Bytes × Option CacheEntry) :=
  (sortBySequence (collectEntries d 0)).map walWrite

-- The engine calls of `Recover`, in order.
def recoveryOps (d : Dir) (sm : SnapshotManager) (sd : SnapshotDir) : List Op :=
  (snapshotWrites sm sd ++ walWrites d).map writeOp

theorem applyWALEntry_snd (t : ShardedHashTable) (e : WALEntry) :
    (applyWALEntry t e).2 = t.step (writeOp (walWrite e)) := by
  unfold applyWALEntry walWrite
  split <;> simp_all [writeOp, ShardedHashTable.step]

theorem foldl_replayStep (es : List WALEntry) :
    ∀ acc : ShardedHashTable × Nat × Int,
      (es.foldl replayStep acc).1 = acc.1.exec ((es.map walWrite).map writeOp) := by
  induction es with
  | nil => exact fun _ => rfl
  | cons e es ih =>
    intro acc
    rw [List.foldl_cons, ih, replayStep_fst, applyWALEntry_snd]
    rfl

theorem restoreSnapshot_table (sm : SnapshotManager) (sd : SnapshotDir) (storage : ShardedHashTable)
    (result : RecoveryResult) :
    (restoreSnapshot sm sd storage result).2.2 = storage.exec ((snapshotWrites sm sd).map writeOp) := by
  have hrecords : ∀ records : List SnapshotRecord,
      records.foldl (fun t r => (t.set r.key (SnapshotManager.fromRecord r)).2) storage =
        storage.exec ((records.map fun r => (r.key, some (SnapshotManager.fromRecord r))).map writeOp) := by
    intro records
    induction records generalizing storage with
    | nil => rfl
    | cons r rs ih => exact ih _
  unfold restoreSnapshot snapshotWrites SnapshotManager.restoreFromSnapshot
  cases (sm.snapshots.insertionSort fun a b => b.timestamp ≤ a.timestamp).head? with
  | none => rfl
  | some latest =>
    dsimp only
    cases sm.snapshots.find? fun m => decide (m.snapshotId = latest.snapshotId) with
    | none => rfl
    | some m =>
      dsimp only
      cases StdMap.find sd m.snapshotId with
      | none => rfl
      | some records => exact hrecords records

-- `Recover` leaves the engine it is given run through `recoveryOps`.
theorem recover_table (d : Dir) (sm : SnapshotManager) (sd : SnapshotDir) (t : ShardedHashTable) :
    (recover d sm sd t).2 = t.exec (recoveryOps d sm sd) := by
  have hr : (recover d sm sd t).2 = ((sortBySequence (collectEntries d 0)).foldl replayStep
      ((restoreSnapshot sm sd t {}).2.2, 0, 0)).1 := by
    simp only [recover, apply_ite Prod.snd, ite_self, replayWAL_table]
  rw [hr, foldl_replayStep, restoreSnapshot_table, recoveryOps, List.map_append,
    ShardedHashTable.exec, ShardedHashTable.exec, ShardedHashTable.exec, List.foldl_append]
  rfl

end RecoveryManager

namespace RecoveryManager

-- `Recover` run again on the engine a first `Recover` left: every key holds the same entry.
theorem recover_idempotent (d : Dir) (sm : SnapshotManager) (sd : SnapshotDir) (t : ShardedHashTable)
    (h₁ : t.evictsDuring (recoveryOps d sm sd) = false)
    (h₂ : (recover d sm sd t).2.evictsDuring (recoveryOps d sm sd) = false) (key : Bytes) (now : Int) :
    let t₁ := (recover d sm sd t).2
    (recover d sm sd t₁).2.find key = t₁.find key ∧
      ((recover d sm sd t₁).2.get key now).1 = (t₁.get key now).1 := by
  intro t₁
  have ha : t.Agrees t.find := fun _ => rfl
  have ha₁ : t₁.Agrees (AbsCache.exec t.find (recoveryOps d sm sd)) := by
    simp only [t₁, recover_table]
    exact ha.exec _ h₁
  have ha₂ := ha₁.exec _ h₂
  rw [recoveryOps, AbsCache.exec_writes_twice, ← recoveryOps, ← recover_table] at ha₂
  have hfind : (recover d sm sd t₁).2.find key = t₁.find key := by rw [ha₂ key, ha₁ key]
  exact ⟨hfind, by rw [ShardedHashTable.get_fst, ShardedHashTable.get_fst, hfind]⟩

theorem recover_idempotent_one_record :
    let d : Dir := [("wal-node1-1000", [.header ⟨"wal-node1-1000", 1000, "node1", 1⟩,
      .entry ⟨.set, 1, 1000, [1], [2], 1, none, none⟩])]
    let t := ShardedHashTable.create 1 1024 0 List.length (by decide)
    t.evictsDuring (recoveryOps d (SnapshotManager.create "node1") []) = false ∧
      (recover d (SnapshotManager.create "node1") [] t).2.evictsDuring
        (recoveryOps d (SnapshotManager.create "node1") []) = false ∧
      let t₁ := (recover d (SnapshotManager.create "node1") [] t).2
      (recover d (SnapshotManager.create "node1") [] t₁).2.find [1] = t₁.find [1] ∧
        ((recover d (SnapshotManager.create "node1") [] t₁).2.get [1] 5).1 = (t₁.get [1] 5).1 :=
  ⟨by decide, by decide, recover_idempotent _ _ _ _ (by decide) (by decide) [1] 5⟩

end RecoveryManager

open RecoveryManager in
-- A restarted node's `Recover`, whose new manager lists no snapshot, restores nothing from disk.
theorem recover_skips_snapshot_on_disk :
    let t₀ : ShardedHashTable := ShardedHashTable.create 1 1024 0 List.length (by decide)
    let written := (SnapshotManager.create "node1").createSnapshot []
      (t₀.set [1] (.init [1] [2] none 0)).2 1000
    StdMap.find written.2.2 "snapshot-node1-1000" = some [⟨[1], [2], 0, 1, 0, 0⟩] ∧
      ((recover [] written.2.1 written.2.2 t₀).2.find [1]).map CacheEntry.value = some [2] ∧
      (recover [] (SnapshotManager.create "node1") written.2.2 t₀).2.find [1] = none ∧
      (recover [] { written.2.1 with
          snapshots := written.2.1.snapshots ++ [⟨"snapshot-node1-2000", 2000, 1⟩] }
        written.2.2 t₀).2.find [1] = none := by
  decide

end DistCache.Persistence
