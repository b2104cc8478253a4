import DistCache.Persistence.Wal
import Mathlib.Data.List.Perm.Subperm

namespace DistCache.Persistence

open Cache Cluster List

-- Every entry record of the directory, file by file, readable or not.
def allEntries (d : Dir) : List WALEntry := d.flatMap fun f => f.2.filterMap Record.entry?

def allSeqs (d : Dir) : List Int := (allEntries d).map WALEntry.sequenceNumber

private theorem subperm_map {α β : Type} {l₁ l₂ : List α} (f : α → β) (h : l₁ <+~ l₂) :
    l₁.map f <+~ l₂.map f := by
  obtain ⟨l, hp, hs⟩ := h
  exact ⟨l.map f, hp.map f, hs.map f⟩

private theorem subperm_nodup {α : Type} {l₁ l₂ : List α} (h : l₁ <+~ l₂) (hn : l₂.Nodup) :
    l₁.Nodup := by
  obtain ⟨l, hp, hs⟩ := h
  exact hp.nodup_iff.mp (hs.nodup hn)

section Disk

@[simp] theorem allEntries_nil : allEntries [] = [] := rfl

@[simp] theorem allEntries_cons (f : String × List Record) (d : Dir) :
    allEntries (f :: d) = f.2.filterMap Record.entry? ++ allEntries d := rfl

@[simp] theorem allEntries_append (d d' : Dir) :
    allEntries (d ++ d') = allEntries d ++ allEntries d' := by
  simp [allEntries]

theorem allEntries_touchFile (d : Dir) (id : String) : allEntries (touchFile d id) = allEntries d := by
  unfold touchFile
  split <;> simp

theorem allEntries_writeRecord_header (d : Dir) (id : String) (h : WALHeader) :
    allEntries (writeRecord d id (.header h)) = allEntries d := by
  induction d with
  | nil => rfl
  | cons f d ih =>
    simp only [writeRecord]
    split_ifs <;> simp [ih, Record.entry?]

-- A written entry lands in its file, or nowhere if the file is gone.
theorem allEntries_writeRecord_entry (d : Dir) (id : String) (e : WALEntry) :
    allEntries (writeRecord d id (.entry e)) <+~ allEntries d ++ [e] := by
  induction d with
  | nil => exact List.nil_subperm
  | cons f d ih =>
    simp only [writeRecord]
    split_ifs
    · simp only [allEntries_cons, List.filterMap_append, Record.entry?, List.filterMap_cons,
        List.filterMap_nil, List.append_assoc, List.singleton_append]
      exact (List.subperm_append_left _).mpr (List.perm_append_singleton _ _).symm.subperm
    · simp only [allEntries_cons, List.append_assoc]
      exact (List.subperm_append_left _).mpr ih

-- Removing files, by name or by a test on the file, drops their records.
theorem allEntries_filter (d : Dir) (p : String × List Record → Bool) :
    allEntries (d.filter p) <+ allEntries d := by
  induction d with
  | nil => exact .slnil
  | cons f d ih =>
    by_cases h : p f = true
    · simpa [List.filter_cons, h] using ih.append_left (f.2.filterMap Record.entry?)
    · simpa [List.filter_cons, h] using ih.trans (List.sublist_append_right _ _)

theorem allEntries_foldl_erase (ids : List String) (d : Dir) :
    allEntries (ids.foldl (fun d id => StdMap.erase d id) d) <+ allEntries d := by
  induction ids generalizing d with
  | nil => exact .refl _
  | cons id ids ih => exact (ih _).trans (allEntries_filter d _)

-- `ReadWALFile` reads nothing that is not on disk.
theorem readAll_sublist (d : Dir) : readAll d <+ allEntries d := by
  induction d with
  | nil => exact .slnil
  | cons f d ih =>
    obtain ⟨id, rs⟩ := f
    simp only [readAll, List.flatMap_cons] at ih ⊢
    refine List.Sublist.append ?_ ih
    match rs with
    | [] => exact List.nil_sublist _
    | .header _ :: rest => simp [readWALFile, Record.entry?]
    | .entry _ :: _ => exact List.nil_sublist _

end Disk

namespace WAL

variable {sz : Record → Nat} {w w' : WAL} {d d' : Dir}

-- What one call can do to the sequence numbers on disk.
def SeqStep (w w' : WAL) (d d' : Dir) : Prop :=
  (w'.lastSequence = w.lastSequence ∧ allSeqs d' <+~ allSeqs d) ∨
    (w'.lastSequence = w.lastSequence + 1 ∧ allSeqs d' <+~ allSeqs d ++ [w'.lastSequence])

theorem SeqStep.of_sublist (hl : w'.lastSequence = w.lastSequence)
    (hs : allEntries d' <+ allEntries d) : SeqStep w w' d d' :=
  .inl ⟨hl, (hs.map _).subperm⟩

theorem openWal_allEntries (w : WAL) (d : Dir) (now : Int) :
    allEntries (openWal sz w d now).2 = allEntries d := by
  dsimp only [openWal]
  split_ifs <;> simp [allEntries_writeRecord_header, header, allEntries_touchFile]

@[simp] theorem openWal_lastSequence (w : WAL) (d : Dir) (now : Int) :
    (openWal sz w d now).1.lastSequence = w.lastSequence := by
  dsimp only [openWal]
  split_ifs <;> rfl

theorem rotateLog_allEntries (w : WAL) (d : Dir) (now : Int) :
    allEntries (rotateLog sz w d now).2 <+ allEntries d := by
  have hw : allEntries (writeRecord (touchFile d (generateLogId w.config now))
      (generateLogId w.config now) (header w.config (generateLogId w.config now) now)) =
        allEntries d := by
    rw [header, allEntries_writeRecord_header, allEntries_touchFile]
  dsimp only [rotateLog]
  split
  · exact hw ▸ allEntries_foldl_erase _ _
  · exact hw ▸ .refl _

-- The rotation check keeps the counter and drops at most some files.
@[simp] theorem rotateIfNeeded_lastSequence (w : WAL) (d : Dir) (now : Int) :
    (rotateIfNeeded sz w d now).1.lastSequence = w.lastSequence := by
  unfold rotateIfNeeded
  split <;> simp only [rotateLog_fst]

theorem rotateIfNeeded_allEntries (w : WAL) (d : Dir) (now : Int) :
    allEntries (rotateIfNeeded sz w d now).2 <+ allEntries d := by
  unfold rotateIfNeeded
  split
  · exact rotateLog_allEntries w d now
  · exact .refl _

-- Everything an append can do: fail on a closed log, or take the next number and write it.
theorem appendEntry_cases {now : Int} {entry : WALEntry} {b : Bool} {r : WAL × Dir}
    (h : appendEntry sz w d now entry = some (b, r)) :
    (b = false ∧ r = (w, d)) ∨
      (b = true ∧ r.1.lastSequence = w.lastSequence + 1 ∧
        allSeqs r.2 <+~ allSeqs d ++ [r.1.lastSequence]) := by
  unfold appendEntry at h
  split at h
  · cases h
    exact .inl ⟨rfl, rfl⟩
  · have hl := @rotateIfNeeded_lastSequence sz { w with lastSequence := w.lastSequence + 1 } d now
    have hs := @rotateIfNeeded_allEntries sz { w with lastSequence := w.lastSequence + 1 } d now
    dsimp only at h
    generalize rotateIfNeeded sz _ d now = r₀ at h hl hs
    split at h
    · cases h
    · cases h
      refine .inr ⟨rfl, hl, ?_⟩
      have hw := subperm_map WALEntry.sequenceNumber (allEntries_writeRecord_entry r₀.2
        r₀.1.currentLogId { entry with sequenceNumber := w.lastSequence + 1 })
      simp only [List.map_append, List.map_singleton] at hw
      rw [writeEntryToFile, allSeqs, allSeqs, hl]
      exact hw.trans ((List.subperm_append_right _).mpr ((hs.map _).subperm))

theorem appendEntry_seqStep {now : Int} {entry : WALEntry} {b : Bool} {r : WAL × Dir}
    (h : appendEntry sz w d now entry = some (b, r)) : SeqStep w r.1 d r.2 := by
  rcases appendEntry_cases h with ⟨-, rfl⟩ | ⟨-, hl, hs⟩
  · exact .of_sublist rfl (.refl _)
  · exact .inr ⟨hl, hs⟩

theorem call_seqStep {c : Call} {r : WAL × Dir} (h : call sz w d c = some r) :
    SeqStep w r.1 d r.2 := by
  cases c with
  | openWal now =>
    cases h
    exact .of_sublist (openWal_lastSequence w d now) (openWal_allEntries w d now ▸ .refl _)
  | close | sync =>
    cases h
    exact .of_sublist (by simp) (.refl _)
  | appendSet | appendDelete | appendCAS =>
    obtain ⟨⟨b, r⟩, hr, rfl⟩ := Option.map_eq_some'.mp h
    exact appendEntry_seqStep hr
  | rotateLog now =>
    cases h
    exact .of_sublist (by rw [rotateLog_fst]) (rotateLog_allEntries w d now)
  | truncateBeforeSequence s =>
    cases h
    exact .of_sublist rfl (allEntries_filter d _)

end WAL

-- The sequence numbers on disk are distinct and none is above the counter.
structure SeqInvariant (w : WAL) (d : Dir) : Prop where
  nodup : (allSeqs d).Nodup
  le_last : ∀ s ∈ allSeqs d, s ≤ w.lastSequence

namespace SeqInvariant

variable {sz : Record → Nat} {w w' : WAL} {d d' : Dir}

theorem step (h : SeqInvariant w d) (hs : WAL.SeqStep w w' d d') : SeqInvariant w' d' := by
  rcases hs with ⟨hl, hsub⟩ | ⟨hl, hsub⟩
  · exact ⟨subperm_nodup hsub h.nodup, fun s hs => hl ▸ h.le_last s (hsub.subset hs)⟩
  · have hfresh : w'.lastSequence ∉ allSeqs d := fun hm => by have := h.le_last _ hm; omega
    refine ⟨subperm_nodup hsub (List.concat_eq_append _ _ ▸ h.nodup.concat hfresh), fun s hs => ?_⟩
    rcases List.mem_append.mp (hsub.subset hs) with hs | hs
    · have := h.le_last s hs
      omega
    · rw [List.mem_singleton.mp hs]

theorem run (h : SeqInvariant w d) {calls : List WAL.Call}
    (hr : w.run sz d calls = some (w', d')) : SeqInvariant w' d' := by
  induction calls generalizing w d with
  | nil =>
    cases hr
    exact h
  | cons c cs ih =>
    obtain ⟨r, h₁, hr⟩ := Option.bind_eq_some.mp hr
    exact ih (h.step (WAL.call_seqStep h₁)) hr

-- An append numbers its record above every record already on disk.
theorem appendEntry_lt (h : SeqInvariant w d) {now : Int} {entry : WALEntry}
    {r : WAL × Dir} (ha : WAL.appendEntry sz w d now entry = some (true, r)) :
    r.1.lastSequence = w.lastSequence + 1 ∧ ∀ s ∈ allSeqs d, s < r.1.lastSequence := by
  rcases WAL.appendEntry_cases ha with ⟨h, -⟩ | ⟨-, hl, -⟩
  · cases h
  · exact ⟨hl, fun s hs => by have := h.le_last s hs; omega⟩

end SeqInvariant

-- One `WAL` object on an empty directory: the records read back carry distinct sequence numbers.
theorem run_sequences_distinct (sz : Record → Nat) (config : Config) (calls : List WAL.Call)
    {w : WAL} {d : Dir} (h : (WAL.create config).run sz [] calls = some (w, d)) :
    ((readAll d).map WALEntry.sequenceNumber).Nodup ∧
      ∀ e ∈ readAll d, e.sequenceNumber ≤ w.lastSequence := by
  have hi := (SeqInvariant.mk List.nodup_nil (by simp [allSeqs]) :
    SeqInvariant (WAL.create config) []).run h
  have hs := (readAll_sublist d).map WALEntry.sequenceNumber
  exact ⟨hs.nodup hi.nodup, fun e he => hi.le_last _ (hs.subset (List.mem_map_of_mem _ he))⟩

theorem run_sequences_distinct_delete :
    (WAL.create { syncOnWrite := false }).run (fun _ => 0) [] [.openWal 1000, .appendDelete 1000 []] =
      some (⟨{ syncOnWrite := false }, "wal-node1-1000", 8, 1, true, 2⟩,
        [("wal-node1-1000", [.header ⟨"wal-node1-1000", 1000, "node1", 1⟩,
          .entry ⟨.delete, 1, 1000, [], [], 0, none, none⟩])]) ∧
    ((readAll [("wal-node1-1000", [.header ⟨"wal-node1-1000", 1000, "node1", 1⟩,
        .entry ⟨.delete, 1, 1000, [], [], 0, none, none⟩])]).map WALEntry.sequenceNumber).Nodup ∧
      ∀ e ∈ readAll [("wal-node1-1000", [.header ⟨"wal-node1-1000", 1000, "node1", 1⟩,
        .entry ⟨.delete, 1, 1000, [], [], 0, none, none⟩])], e.sequenceNumber ≤ 1 :=
  ⟨rfl, run_sequences_distinct (fun _ => 0) { syncOnWrite := false }
    [.openWal 1000, .appendDelete 1000 []] (by rfl)⟩

-- Two lifetimes of a node on one directory: both records are read back with sequence number 1.
theorem restart_reuses_sequence_numbers (encodedSize : Record → Nat)
    (hsize : ∀ r, encodedSize r < 1024 * 1024) :
    let e := CacheEntry.init (bytesOf "k") (bytesOf "v") none 1000
    (history encodedSize { syncOnWrite := false } []
        [[.openWal 1000, .appendSet 1000 (bytesOf "k") e],
          [.openWal 2000, .appendSet 2000 (bytesOf "k") e]]).map
      (fun d => (readAll d).map WALEntry.sequenceNumber) = some [1, 1] := by
  have hfit : ∀ r, WAL.recordSize encodedSize r < 100 * 1024 * 1024 := fun r => by
    have := hsize r
    unfold WAL.recordSize
    omega
  simp (disch := first | rfl | decide | exact hfit _) only [history, WAL.run, WAL.call,
    WAL.appendSet, List.cons_append, List.nil_append, Option.some_bind, WAL.create,
    WAL.openWal_of_new, WAL.appendEntry_of_fits, Option.map_some', WAL.close]
  decide

theorem restart_reuses_sequence_numbers_small :
    (∀ r : Record, (fun _ => 0 : Record → Nat) r < 1024 * 1024) ∧
      (history (fun _ => 0) { syncOnWrite := false } []
          [[.openWal 1000, .appendSet 1000 (bytesOf "k") (CacheEntry.init (bytesOf "k") (bytesOf "v") none 1000)],
            [.openWal 2000, .appendSet 2000 (bytesOf "k")
              (CacheEntry.init (bytesOf "k") (bytesOf "v") none 1000)]]).map
        (fun d => (readAll d).map WALEntry.sequenceNumber) = some [1, 1] :=
  ⟨fun _ => by simp, restart_reuses_sequence_numbers _ fun _ => by simp⟩

end DistCache.Persistence
