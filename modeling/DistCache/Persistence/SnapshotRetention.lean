import DistCache.Persistence.SnapshotCodec
import Mathlib.Data.List.Sort

namespace DistCache.Persistence

open Cache Cluster

-- Both `std::sort` calls are a stable insertion sort, which agrees on distinct timestamps.

namespace SnapshotManager

-- `GenerateSnapshotId`, from `config_.node_id` and the clock in milliseconds.
def generateSnapshotId (nodeId : String) (now : Int) : String :=
  "snapshot-" ++ nodeId ++ "-" ++ toString now

-- `PruneOldSnapshots`: past `max_snapshots_retained`, the oldest listed snapshots go.
def pruneOldSnapshots (maxSnapshotsRetained : Nat) (sm : SnapshotManager) (sd : SnapshotDir) :
    SnapshotManager × SnapshotDir :=
  if sm.snapshots.length ≤ maxSnapshotsRetained then (sm, sd)
  else
    let sorted := sm.snapshots.insertionSort fun a b => a.timestamp ≤ b.timestamp
    let toDelete := sorted.length - maxSnapshotsRetained
    ({ sm with snapshots := sorted.drop toDelete },
      (sorted.take toDelete).foldl (fun sd m => StdMap.erase sd m.snapshotId) sd)

-- One turn of `SnapshotWorker`'s loop, at the clock reading `pass.1` over the engine `pass.2`.
def workerPass (maxSnapshotsRetained : Nat) (s : SnapshotManager × SnapshotDir)
    (pass : Int × ShardedHashTable) : SnapshotManager × SnapshotDir :=
  let r := s.1.createSnapshot s.2 pass.2 pass.1
  pruneOldSnapshots maxSnapshotsRetained r.2.1 r.2.2

def runWorker (maxSnapshotsRetained : Nat) (s : SnapshotManager × SnapshotDir)
    (passes : List (Int × ShardedHashTable)) : SnapshotManager × SnapshotDir :=
  passes.foldl (workerPass maxSnapshotsRetained) s

-- `RestoreFromLatest` relocks `snapshots_mutex_` in `GetSnapshotMetadata`: none.
def restoreFromLatest (sm : SnapshotManager) (storage : ShardedHashTable) :
    Option (Bool × ShardedHashTable) :=
  if sm.snapshots.isEmpty then some (false, storage) else none

-- What the pass at `pass.1` over `pass.2` lists, and the records it writes.
def passMetadata (nodeId : String) (pass : Int × ShardedHashTable) : SnapshotMetadata :=
  ⟨generateSnapshotId nodeId pass.1, pass.1, (pass.2.forEach pass.1).length⟩

def passRecords (pass : Int × ShardedHashTable) : List SnapshotRecord :=
  (pass.2.forEach pass.1).map fun e => toRecord e.1 e.2

theorem createSnapshot_eq (sm : SnapshotManager) (sd : SnapshotDir) (pass : Int × ShardedHashTable) :
    sm.createSnapshot sd pass.2 pass.1 =
      (generateSnapshotId sm.nodeId pass.1,
        { sm with snapshots := sm.snapshots ++ [passMetadata sm.nodeId pass] },
        StdMap.erase sd (generateSnapshotId sm.nodeId pass.1) ++
          [(generateSnapshotId sm.nodeId pass.1, passRecords pass)]) := rfl

theorem toString_nat_injective : Function.Injective (toString : Nat → String) := fun a b h => by
  obtain ⟨l, hl, -, -, ha⟩ := IStream.bytesOf_toString a
  obtain ⟨l', hl', -, -, hb⟩ := IStream.bytesOf_toString b
  rw [← ha, ← hb, ← hl, ← hl', h]

-- `out << n` for a natural number starts with a digit, never with the sign.
theorem toString_nat_ne_sign (m : Nat) (s : String) : toString m ≠ "-" ++ s := by
  intro h
  obtain ⟨l, hl, hne, hd, -⟩ := IStream.bytesOf_toString m
  obtain ⟨b, bs, rfl⟩ := List.exists_cons_of_ne_nil hne
  have hb : bytesOf ("-" ++ s) = 45 :: bytesOf s := by
    simp [bytesOf, String.toList, String.data_append]
    rfl
  rw [h, hb] at hl
  have := hd b (List.mem_cons_self _ _)
  rw [← (List.cons.inj hl).1] at this
  exact absurd this (by decide)

theorem toString_int_injective : Function.Injective (toString : Int → String)
  | .ofNat m, .ofNat n, h => congrArg _ (toString_nat_injective h)
  | .ofNat m, .negSucc n, h => absurd h (toString_nat_ne_sign m _)
  | .negSucc m, .ofNat n, h => absurd h.symm (toString_nat_ne_sign n _)
  | .negSucc m, .negSucc n, h => by
    have hd := congrArg String.data (show "-" ++ toString (m + 1) = "-" ++ toString (n + 1) from h)
    simp only [String.data_append, List.append_cancel_left_eq] at hd
    have := toString_nat_injective (String.ext hd)
    rw [Nat.succ.inj this]

theorem generateSnapshotId_injective (nodeId : String) :
    Function.Injective (generateSnapshotId nodeId) := fun a b h => by
  have hd := congrArg String.data h
  simp only [generateSnapshotId, String.data_append, List.append_assoc,
    List.append_cancel_left_eq] at hd
  exact toString_int_injective (String.ext hd)

theorem pruneOldSnapshots_of_sorted {maxSnapshotsRetained : Nat} (sm : SnapshotManager)
    (h : sm.snapshots.Sorted fun a b => a.timestamp ≤ b.timestamp) (sd : SnapshotDir) :
    pruneOldSnapshots maxSnapshotsRetained sm sd =
      ({ sm with snapshots := sm.snapshots.drop (sm.snapshots.length - maxSnapshotsRetained) },
        (sm.snapshots.take (sm.snapshots.length - maxSnapshotsRetained)).foldl
          (fun sd m => StdMap.erase sd m.snapshotId) sd) := by
  unfold pruneOldSnapshots
  split_ifs with hl
  · simp [Nat.sub_eq_zero_of_le hl]
  · simp [h.insertionSort_eq]

theorem find_erase_eq {κ ν : Type} [DecidableEq κ] (m : List (κ × ν)) (k k' : κ) :
    StdMap.find (StdMap.erase m k) k' = if k' = k then none else StdMap.find m k' := by
  split_ifs with h
  · exact h ▸ StdMap.find_erase_self m k
  · exact StdMap.find_erase_ne h m

theorem find_erase_append {κ ν : Type} [DecidableEq κ] (m : List (κ × ν)) (k : κ) (v : ν) (k' : κ) :
    StdMap.find (StdMap.erase m k ++ [(k, v)]) k' = if k' = k then some v else StdMap.find m k' := by
  have hf : ∀ l : List (κ × ν), StdMap.find (l ++ [(k, v)]) k' =
      (StdMap.find l k').or (if k = k' then some v else none) := by
    intro l
    induction l with
    | nil => by_cases h : k = k' <;> simp [h]
    | cons p l ih => by_cases hp : p.1 = k' <;> simp [hp, ih]
  rw [hf, find_erase_eq]
  by_cases h : k' = k
  · simp [h]
  · simp [h, Ne.symm h]

-- What the worker leaves after the passes `old ++ kept`, oldest first.
structure Layout (nodeId : String) (sd₀ : SnapshotDir) (old kept : List (Int × ShardedHashTable))
    (s : SnapshotManager × SnapshotDir) : Prop where
  node : s.1.nodeId = nodeId
  listed : s.1.snapshots = kept.map (passMetadata nodeId)
  files : ∀ p ∈ kept, StdMap.find s.2 (generateSnapshotId nodeId p.1) = some (passRecords p)
  gone : ∀ p ∈ old, StdMap.find s.2 (generateSnapshotId nodeId p.1) = none
  frame : ∀ name, (∀ p ∈ old ++ kept, name ≠ generateSnapshotId nodeId p.1) →
    StdMap.find s.2 name = StdMap.find sd₀ name

-- The invariant of the worker's runs: the listed passes are the last retained ones.
structure Retained (maxSnapshotsRetained : Nat) (nodeId : String) (sd₀ : SnapshotDir)
    (old kept : List (Int × ShardedHashTable)) (s : SnapshotManager × SnapshotDir)
    extends Layout nodeId sd₀ old kept s : Prop where
  length : kept.length = min (old.length + kept.length) maxSnapshotsRetained

section Retention

variable {maxSnapshotsRetained : Nat} {nodeId : String} {sd₀ : SnapshotDir}
  {old kept : List (Int × ShardedHashTable)} {s : SnapshotManager × SnapshotDir}

-- A snapshot taken at a new clock reading is listed last, and its file is the only one written.
theorem Layout.createSnapshot (h : Layout nodeId sd₀ old kept s) (q : Int × ShardedHashTable)
    (hq : ∀ p ∈ old ++ kept, p.1 ≠ q.1) :
    Layout nodeId sd₀ old (kept ++ [q]) (s.1.createSnapshot s.2 q.2 q.1).2 := by
  have hne : ∀ p ∈ old ++ kept, generateSnapshotId nodeId p.1 ≠ generateSnapshotId nodeId q.1 :=
    fun p hp he => hq p hp (generateSnapshotId_injective nodeId he)
  rw [createSnapshot_eq, h.node]
  refine ⟨rfl, by simp [h.listed], fun p hp => ?_, fun p hp => ?_, fun name hn => ?_⟩ <;>
    simp only [find_erase_append]
  · rcases List.mem_append.mp hp with hp | hp
    · rw [if_neg (hne p (List.mem_append_right _ hp)), h.files p hp]
    · rw [List.mem_singleton.mp hp, if_pos rfl]
  · rw [if_neg (hne p (List.mem_append_left _ hp)), h.gone p hp]
  · rw [if_neg (hn q (by simp)),
      h.frame name fun p hp => hn p (List.append_assoc old kept [q] ▸ List.mem_append_left _ hp)]

-- Pruning the oldest listed snapshot moves its pass from the listed ones to the gone ones.
theorem Layout.pruneOne {a : Int × ShardedHashTable} {rest : List (Int × ShardedHashTable)}
    (h : Layout nodeId sd₀ old (a :: rest) s) (ha : ∀ p ∈ rest, p.1 ≠ a.1) :
    Layout nodeId sd₀ (old ++ [a]) rest
      ({ s.1 with snapshots := s.1.snapshots.drop 1 },
        (s.1.snapshots.take 1).foldl (fun sd m => StdMap.erase sd m.snapshotId) s.2) := by
  have hne : ∀ p ∈ rest, generateSnapshotId nodeId p.1 ≠ generateSnapshotId nodeId a.1 :=
    fun p hp he => ha p hp (generateSnapshotId_injective nodeId he)
  rw [h.listed]
  refine ⟨h.node, rfl, fun p hp => ?_, fun p hp => ?_, fun name hn => ?_⟩ <;>
    simp only [List.map_cons, List.take_succ_cons, List.take_zero, List.foldl_cons,
      List.foldl_nil, passMetadata, find_erase_eq]
  · rw [if_neg (hne p hp), h.files p (List.mem_cons_of_mem _ hp)]
  · split_ifs
    · rfl
    · rcases List.mem_append.mp hp with hp | hp
      · exact h.gone p hp
      · simp_all
  · rw [if_neg (hn a (by simp)), h.frame name fun p hp => hn p (by simp_all)]

-- One pass keeps the invariant, when its clock reading is later than every earlier one.
theorem Retained.workerPass (h : Retained maxSnapshotsRetained nodeId sd₀ old kept s)
    (q : Int × ShardedHashTable) (hc : (old ++ kept ++ [q]).Pairwise fun a b => a.1 < b.1) :
    ∃ old' kept', old' ++ kept' = old ++ kept ++ [q] ∧
      Retained maxSnapshotsRetained nodeId sd₀ old' kept' (workerPass maxSnapshotsRetained s q) := by
  have hq : ∀ p ∈ old ++ kept, p.1 ≠ q.1 := fun p hp =>
    (List.pairwise_append.mp hc).2.2 p hp q (List.mem_singleton_self q) |>.ne
  have hs : (kept ++ [q]).Pairwise fun a b => a.1 < b.1 :=
    hc.sublist (by simp)
  have hw := h.toLayout.createSnapshot q hq
  simp only [SnapshotManager.workerPass]
  generalize (s.1.createSnapshot s.2 q.2 q.1).2 = r at hw ⊢
  rw [pruneOldSnapshots_of_sorted r.1 (hw.listed ▸ List.pairwise_map.mpr (hs.imp le_of_lt)),
    hw.listed, List.length_map, List.length_append, List.length_singleton]
  have hl := h.length
  by_cases hk : kept.length < maxSnapshotsRetained
  · -- below the bound nothing is pruned
    refine ⟨old, kept ++ [q], by simp, ⟨?_, by simp; omega⟩⟩
    rw [Nat.sub_eq_zero_of_le hk, List.drop_zero, List.take_zero, List.foldl_nil, ← hw.listed]
    exact hw
  · -- at the bound the oldest listed pass is pruned
    obtain ⟨a, rest, hka⟩ := List.exists_cons_of_ne_nil (List.append_ne_nil_of_right_ne_nil kept
      (List.cons_ne_nil q []))
    have ha : ∀ p ∈ rest, p.1 ≠ a.1 := fun p hp =>
      (List.rel_of_pairwise_cons (hka ▸ hs) hp).ne'
    have hr := congrArg List.length hka
    simp only [List.length_append, List.length_singleton, List.length_cons, List.length_nil] at hr
    refine ⟨old ++ [a], rest, by simp [hka], ⟨?_, by simp; omega⟩⟩
    rw [show kept.length + 1 - maxSnapshotsRetained = 1 by omega, ← hw.listed]
    exact (hka ▸ hw).pruneOne ha

theorem Retained.runWorker (h : Retained maxSnapshotsRetained nodeId sd₀ old kept s)
    (passes : List (Int × ShardedHashTable))
    (hc : (old ++ kept ++ passes).Pairwise fun a b => a.1 < b.1) :
    ∃ old' kept', old' ++ kept' = old ++ kept ++ passes ∧
      Retained maxSnapshotsRetained nodeId sd₀ old' kept'
        (runWorker maxSnapshotsRetained s passes) := by
  induction passes generalizing old kept s with
  | nil => exact ⟨old, kept, by simp, h⟩
  | cons q passes ih =>
    obtain ⟨old', kept', he, h'⟩ := h.workerPass q
      (hc.sublist (by simp))
    obtain ⟨old'', kept'', he', h''⟩ := ih h' (by rw [he]; simpa using hc)
    exact ⟨old'', kept'', by simp [he', he], h''⟩

theorem retained_create (maxSnapshotsRetained : Nat) (nodeId : String) (sd : SnapshotDir) :
    Retained maxSnapshotsRetained nodeId sd [] [] (create nodeId, sd) :=
  ⟨⟨rfl, rfl, by simp, by simp, fun _ _ => rfl⟩, by simp⟩

end Retention

-- Over every run of the worker whose clock readings increase, the last passes are retained.
theorem worker_retains_last_snapshots (maxSnapshotsRetained : Nat) (nodeId : String)
    (sd : SnapshotDir) (passes : List (Int × ShardedHashTable))
    (hc : passes.Pairwise fun a b => a.1 < b.1) :
    let s := runWorker maxSnapshotsRetained (create nodeId, sd) passes
    let k := passes.length - maxSnapshotsRetained
    s.1.snapshots = (passes.drop k).map (passMetadata nodeId) ∧
      (∀ p ∈ passes.drop k, StdMap.find s.2 (generateSnapshotId nodeId p.1) = some (passRecords p)) ∧
      (∀ p ∈ passes.take k, StdMap.find s.2 (generateSnapshotId nodeId p.1) = none) ∧
      ∀ name, (∀ p ∈ passes, name ≠ generateSnapshotId nodeId p.1) →
        StdMap.find s.2 name = StdMap.find sd name := by
  obtain ⟨old, kept, he, h⟩ :=
    (retained_create maxSnapshotsRetained nodeId sd).runWorker passes (by simpa using hc)
  rw [List.nil_append, List.nil_append] at he
  subst he
  intro s k
  have hk : old.length = k := by
    have := h.length
    simp only [k, List.length_append]
    omega
  rw [List.drop_left' hk, List.take_left' hk]
  exact ⟨h.listed, h.files, h.gone, h.frame⟩

theorem worker_retains_last_snapshots_two_of_three :
    ([(1000, ShardedHashTable.create 1 64 0 List.length (by decide)),
        (2000, (ShardedHashTable.create 1 64 0 List.length (by decide)).set [1] (.init [1] [7] none 0) |>.2),
        (3000, ShardedHashTable.create 1 64 0 List.length (by decide))] :
          List (Int × ShardedHashTable)).Pairwise (fun a b => a.1 < b.1) ∧
      let passes : List (Int × ShardedHashTable) :=
        [(1000, ShardedHashTable.create 1 64 0 List.length (by decide)),
          (2000, (ShardedHashTable.create 1 64 0 List.length (by decide)).set [1] (.init [1] [7] none 0) |>.2),
          (3000, ShardedHashTable.create 1 64 0 List.length (by decide))]
      let s := runWorker 2 (create "node-1", []) passes
      let k := passes.length - 2
      s.1.snapshots = (passes.drop k).map (passMetadata "node-1") ∧
        (∀ p ∈ passes.drop k, StdMap.find s.2 (generateSnapshotId "node-1" p.1) = some (passRecords p)) ∧
        (∀ p ∈ passes.take k, StdMap.find s.2 (generateSnapshotId "node-1" p.1) = none) ∧
        ∀ name, (∀ p ∈ passes, name ≠ generateSnapshotId "node-1" p.1) →
          StdMap.find s.2 name = StdMap.find ([] : SnapshotDir) name :=
  ⟨by decide, worker_retains_last_snapshots 2 "node-1" [] _ (by decide)⟩

end SnapshotManager

namespace RecoveryManager

open SnapshotManager

-- An element related to none of a list goes to its end.
theorem orderedInsert_of_forall_not {α : Type} {r : α → α → Prop} [DecidableRel r] {a : α} :
    ∀ {l : List α}, (∀ b ∈ l, ¬r a b) → l.orderedInsert r a = l ++ [a]
  | [], _ => rfl
  | b :: l, h => by
    rw [List.orderedInsert, if_neg (h b (List.mem_cons_self _ _)),
      orderedInsert_of_forall_not fun c hc => h c (List.mem_cons_of_mem _ hc)]
    rfl

-- Sorting latest first, as `RestoreSnapshot` does, reverses a list whose timestamps ascend.
theorem insertionSort_latest_first : ∀ {l : List SnapshotMetadata},
    l.Pairwise (fun a b => a.timestamp < b.timestamp) →
      l.insertionSort (fun a b => b.timestamp ≤ a.timestamp) = l.reverse
  | [], _ => rfl
  | a :: l, h => by
    rw [List.pairwise_cons] at h
    rw [List.insertionSort, insertionSort_latest_first h.2, orderedInsert_of_forall_not,
      List.reverse_cons]
    exact fun b hb => not_le.mpr (h.1 b (List.mem_reverse.mp hb))

-- With the listed timestamps ascending, recovery restores the snapshot listed last, from its file.
theorem restoreSnapshot_of_ascending {sm : SnapshotManager} {older : List SnapshotMetadata}
    {latest : SnapshotMetadata} (hl : sm.snapshots = older ++ [latest])
    (ha : sm.snapshots.Pairwise fun a b => a.timestamp < b.timestamp) {sd : SnapshotDir}
    {records : List SnapshotRecord} (hf : StdMap.find sd latest.snapshotId = some records)
    (storage : ShardedHashTable) (result : RecoveryResult) :
    restoreSnapshot sm sd storage result =
      (true, { result with snapshotRestored := true, snapshotId := latest.snapshotId,
                           snapshotKeysCount := latest.numKeys },
        records.foldl (fun t r => (t.set r.key (fromRecord r)).2) storage) := by
  obtain ⟨m, hm⟩ : ∃ m, (sm.snapshots.find? fun m => decide (m.snapshotId = latest.snapshotId)) =
      some m :=
    Option.isSome_iff_exists.mp (List.find?_isSome.mpr ⟨latest, by simp [hl], by simp⟩)
  have hid : m.snapshotId = latest.snapshotId := by simpa using List.find?_some hm
  rw [restoreSnapshot, insertionSort_latest_first ha, hl]
  simp [restoreFromSnapshot, hm, hid, hf]

-- A snapshot id built from a node id without a newline has none.
theorem newline_not_mem_generateSnapshotId {nodeId : String} (hid : '\n' ∉ nodeId.toList)
    (now : Int) : '\n' ∉ (generateSnapshotId nodeId now).toList := by
  simp only [generateSnapshotId, String.toList, String.data_append, List.mem_append, not_or]
  exact ⟨⟨⟨by decide, hid⟩, by decide⟩, newline_not_mem_toString_int now⟩

-- Recovery restores the snapshot of the last pass, while `RestoreFromLatest` never returns.
theorem recovery_restores_last_pass (maxSnapshotsRetained : Nat) (hm : 0 < maxSnapshotsRetained)
    (nodeId : String) (hid : '\n' ∉ nodeId.toList) (sd : SnapshotDir)
    (passes : List (Int × ShardedHashTable)) (q : Int × ShardedHashTable)
    (hc : (passes ++ [q]).Pairwise fun a b => a.1 < b.1)
    (hlen : (q.2.forEach q.1).length < byteModulus 8)
    (hfit : ∀ e ∈ q.2.forEach q.1, (toRecord e.1 e.2).Fits)
    (storage : ShardedHashTable) (result : RecoveryResult) :
    let s := runWorker maxSnapshotsRetained (create nodeId, sd) (passes ++ [q])
    let t := (passRecords q).foldl (fun t r => (t.set r.key (fromRecord r)).2) storage
    restoreSnapshot s.1 s.2 storage result =
      (true, { result with snapshotRestored := true, snapshotId := generateSnapshotId nodeId q.1,
                           snapshotKeysCount := (q.2.forEach q.1).length }, t) ∧
      restoreFromFile (writeSnapshotToFile (generateSnapshotId nodeId q.1) (q.2.forEach q.1))
        storage = some (true, t) ∧
      s.1.restoreFromLatest storage = none := by
  obtain ⟨old, kept, he, h⟩ :=
    (retained_create maxSnapshotsRetained nodeId sd).runWorker (passes ++ [q]) (by simpa using hc)
  rw [List.nil_append, List.nil_append] at he
  -- the last pass is listed, and listed last
  obtain ⟨kept, rfl⟩ : ∃ kept', kept = kept' ++ [q] := by
    rcases List.eq_nil_or_concat kept with rfl | ⟨kept', q', rfl⟩
    · have := h.length
      have := congrArg List.length he
      simp at *
      omega
    · rw [List.concat_eq_append, ← List.append_assoc] at he
      exact ⟨kept', by rw [List.concat_eq_append, (List.append_inj' he rfl).2]⟩
  have hs : ((kept ++ [q]).map (passMetadata nodeId)).Pairwise
      fun a b => a.timestamp < b.timestamp :=
    List.pairwise_map.mpr (hc.sublist (he ▸ List.sublist_append_right old _))
  refine ⟨restoreSnapshot_of_ascending (by rw [h.listed, List.map_append]; rfl) (h.listed ▸ hs)
    (h.files q (by simp)) storage result, ?_, by simp [restoreFromLatest, h.listed]⟩
  rw [restoreFromFile, readSnapshotFromFile_write _ _ (newline_not_mem_generateSnapshotId hid _)
    hlen hfit]
  simp [passRecords, List.foldl_map, toRecord]

theorem recovery_restores_last_pass_two_passes :
    let q : Int × ShardedHashTable := (2000, (ShardedHashTable.create 1 64 0 List.length
      (by decide)).set [1] (.init [1] [7] none 0) |>.2)
    let storage := ShardedHashTable.create 1 64 0 List.length (by decide)
    let result : RecoveryResult := {}
    0 < 1 ∧ '\n' ∉ "node-1".toList ∧
      ([(1000, ShardedHashTable.create 1 64 0 List.length (by decide))] ++ [q] :
        List (Int × ShardedHashTable)).Pairwise (fun a b => a.1 < b.1) ∧
      (q.2.forEach q.1).length < byteModulus 8 ∧ (∀ e ∈ q.2.forEach q.1, (toRecord e.1 e.2).Fits) ∧
      let s := runWorker 1 (create "node-1", [])
        ([(1000, ShardedHashTable.create 1 64 0 List.length (by decide))] ++ [q])
      let t := (passRecords q).foldl (fun t r => (t.set r.key (fromRecord r)).2) storage
      restoreSnapshot s.1 s.2 storage result =
        (true, { result with snapshotRestored := true, snapshotId := generateSnapshotId "node-1" q.1,
                             snapshotKeysCount := (q.2.forEach q.1).length }, t) ∧
        restoreFromFile (writeSnapshotToFile (generateSnapshotId "node-1" q.1) (q.2.forEach q.1))
          storage = some (true, t) ∧
        s.1.restoreFromLatest storage = none :=
  have hlen : ((((ShardedHashTable.create 1 64 0 List.length (by decide)).set [1]
      (.init [1] [7] none 0)).2).forEach 2000).length < byteModulus 8 := by decide
  have hfit : ∀ e ∈ (((ShardedHashTable.create 1 64 0 List.length (by decide)).set [1]
      (.init [1] [7] none 0)).2).forEach 2000, (toRecord e.1 e.2).Fits := by decide
  ⟨by decide, by decide, by decide, hlen, hfit,
    recovery_restores_last_pass 1 (by decide) "node-1" (by decide) [] _ _ (by decide) hlen hfit _ {}⟩

end RecoveryManager

end DistCache.Persistence
