import DistCache.Persistence.WalSequence

namespace DistCache.Persistence

open Cache Cluster

-- `AppendEntry` takes the sequence number before its three failure points.

-- The failures one call meets.
structure IoFaults where
  openFails : Bool := false
  headerSerializeFails : Bool := false
  entrySerializeFails : Bool := false
deriving DecidableEq, Repr

namespace WAL

section Io

variable (encodedSize : Record → Nat)

-- `RotateLog` with a new file that may not open and a header that may not serialize.
def rotateLogIo (f : IoFaults) (w : WAL) (d : Dir) (now : Int) : Bool × WAL × Dir :=
  let id := generateLogId w.config now
  if f.openFails then (false, { w with currentLogId := id, isOpen := false, unflushed := 0 }, d)
  else if f.headerSerializeFails then (false, { w with currentLogId := id, unflushed := 0 }, touchFile d id)
  else (true, rotateLog encodedSize w d now)

-- The rotation check of `AppendEntry`.
def rotateIfNeededIo (f : IoFaults) (w : WAL) (d : Dir) (now : Int) : Bool × WAL × Dir :=
  if w.shouldRotate then rotateLogIo encodedSize f w d now else (true, w, d)

-- `AppendEntry`; `none` is a call that does not return (`sync_on_write`, see `appendEntry`).
def appendEntryIo (f : IoFaults) (w : WAL) (d : Dir) (now : Int) (entry : WALEntry) :
    Option (Bool × WAL × Dir) :=
  if !w.isOpen then some (false, w, d)
  else
    let numbered := { entry with sequenceNumber := w.lastSequence + 1 }
    let w := { w with lastSequence := w.lastSequence + 1 }
    let r := rotateIfNeededIo encodedSize f w d now
    if !r.1 then some (false, r.2)
    else if f.entrySerializeFails then some (false, r.2)
    else
      let r := writeEntryToFile encodedSize r.2.1 r.2.2 numbered
      if r.1.config.syncOnWrite then none else some (true, r)

end Io

variable {sz : Record → Nat} {f : IoFaults} {w w' : WAL} {d d' : Dir} {now : Int} {entry : WALEntry}

-- With nothing failing, the append is the one of the file-system model without failures.
theorem appendEntryIo_no_faults (w : WAL) (d : Dir) (now : Int) (entry : WALEntry) :
    appendEntryIo sz {} w d now entry = appendEntry sz w d now entry := by
  unfold appendEntryIo appendEntry rotateIfNeededIo rotateIfNeeded
  split
  · rfl
  · dsimp only
    split <;> rfl

@[simp] theorem rotateIfNeededIo_lastSequence (w : WAL) (d : Dir) (now : Int) :
    (rotateIfNeededIo sz f w d now).2.1.lastSequence = w.lastSequence := by
  unfold rotateIfNeededIo rotateLogIo
  split_ifs <;> simp only [rotateLog_fst]

-- What an append that returns has done.
theorem appendEntryIo_cases {b : Bool} (h : appendEntryIo sz f w d now entry = some (b, w', d')) :
    (w.isOpen = false ∧ b = false ∧ w' = w ∧ d' = d) ∨
      (w.isOpen = true ∧ w'.lastSequence = w.lastSequence + 1 ∧ (b = true →
        ∃ d₀ id, d' = writeRecord d₀ id (.entry { entry with sequenceNumber := w.lastSequence + 1 }))) := by
  unfold appendEntryIo at h
  split at h
  · rename_i hw
    cases h
    exact .inl ⟨by simpa using hw, rfl, rfl, rfl⟩
  · rename_i hw
    have hl := @rotateIfNeededIo_lastSequence sz f { w with lastSequence := w.lastSequence + 1 } d now
    dsimp only at h
    generalize rotateIfNeededIo sz f _ d now = r at h hl
    obtain ⟨b₀, w₀, d₀⟩ := r
    refine .inr ⟨by simpa using hw, ?_⟩
    split at h
    · cases h
      exact ⟨hl, nofun⟩
    · split at h
      · cases h
        exact ⟨hl, nofun⟩
      · split at h <;> cases h
        exact ⟨hl, fun _ => ⟨d₀, w₀.currentLogId, rfl⟩⟩

-- An append that gets past the open check and fails has taken a sequence number all the same.
theorem failed_append_consumes_sequence {f' : IoFaults} {w₁ w₂ : WAL} {d₁ d₂ : Dir}
    {now' : Int} {entry' : WALEntry} (hopen : w.isOpen = true)
    (h₁ : appendEntryIo sz f w d now entry = some (false, w₁, d₁))
    (h₂ : appendEntryIo sz f' (openWal sz w₁ d₁ now').1 (openWal sz w₁ d₁ now').2 now' entry' =
      some (true, w₂, d₂)) :
    w₁.lastSequence = w.lastSequence + 1 ∧ w₂.lastSequence = w.lastSequence + 2 ∧
      ∃ d₀ id, d₂ = writeRecord d₀ id (.entry { entry' with sequenceNumber := w.lastSequence + 2 }) := by
  have hl₁ : w₁.lastSequence = w.lastSequence + 1 := by
    rcases appendEntryIo_cases h₁ with ⟨h, -⟩ | ⟨-, h, -⟩
    · rw [hopen] at h
      cases h
    · exact h
  obtain ⟨-, hb, -⟩ | ⟨-, hl₂, hd⟩ := appendEntryIo_cases h₂
  · cases hb
  obtain ⟨d₀, id, hd⟩ := hd rfl
  rw [openWal_lastSequence, hl₁, Int.add_assoc] at hl₂ hd
  exact ⟨hl₁, hl₂, d₀, id, hd⟩

-- A rotation that cannot open the new file: after `Open` the next record is numbered 2.
theorem failed_append_consumes_sequence_rotation :
    let w : WAL := ⟨{ maxFileSizeBytes := 16, syncOnWrite := false }, "wal-node1-0", 16, 0, true, 0⟩
    let d : Dir := [("wal-node1-0", [.header ⟨"wal-node1-0", 0, "node1", 1⟩])]
    let e : WALEntry := ⟨.delete, 0, 1, [1], [], 0, none, none⟩
    let w₁ : WAL := ⟨w.config, "wal-node1-1", 16, 1, false, 0⟩
    let w₂ : WAL := ⟨w.config, "wal-node1-2", 8, 2, true, 2⟩
    let d₂ : Dir := d ++ [("wal-node1-2", [.header ⟨"wal-node1-2", 2, "node1", 1⟩,
      .entry ⟨.delete, 2, 1, [1], [], 0, none, none⟩])]
    w.isOpen = true ∧ appendEntryIo (fun _ => 0) { openFails := true } w d 1 e = some (false, w₁, d) ∧
      appendEntryIo (fun _ => 0) {} (openWal (fun _ => 0) w₁ d 2).1 (openWal (fun _ => 0) w₁ d 2).2 2 e =
        some (true, w₂, d₂) ∧
      w₁.lastSequence = w.lastSequence + 1 ∧ w₂.lastSequence = w.lastSequence + 2 ∧
        ∃ d₀ id, d₂ = writeRecord d₀ id (.entry { e with sequenceNumber := w.lastSequence + 2 }) :=
  by
  intro w d e w₁ w₂ d₂
  exact ⟨rfl, by decide, by decide, @failed_append_consumes_sequence (fun _ => 0) { openFails := true }
    w d 1 e {} w₁ w₂ d d₂ 2 e rfl (by decide) (by decide)⟩

end WAL

end DistCache.Persistence
