import DistCache.Persistence.WalSequence

namespace DistCache.Persistence

open Cache

namespace WAL

-- The largest sequence number of a file is at least the start and each of its entries'.
theorem le_foldl_max_start (es : List WALEntry) :
    ∀ m, m ≤ es.foldl (fun m e => max m e.sequenceNumber) m := by
  induction es with
  | nil => exact fun m => le_rfl
  | cons e es ih => exact fun m => (le_max_left m _).trans (ih _)

theorem le_foldl_max (es : List WALEntry) :
    ∀ m, ∀ e ∈ es, e.sequenceNumber ≤ es.foldl (fun m e => max m e.sequenceNumber) m := by
  induction es with
  | nil => simp
  | cons e es ih =>
    intro m x hx
    rcases List.mem_cons.mp hx with rfl | hx
    · exact (le_max_right m _).trans (le_foldl_max_start es _)
    · exact ih _ x hx

-- An entry at or above the bound that `ReadWALFile` reads survives the truncation.
theorem readAll_truncateBeforeSequence {d : Dir} {sequence : Int} {e : WALEntry}
    (he : e ∈ readAll d) (hs : sequence ≤ e.sequenceNumber) :
    e ∈ readAll (truncateBeforeSequence d sequence) := by
  simp only [readAll, List.mem_flatMap] at he ⊢
  obtain ⟨f, hf, he⟩ := he
  refine ⟨f, List.mem_filter.mpr ⟨hf, ?_⟩, he⟩
  unfold keepsFile
  cases hr : readWALFile f.2 with
  | none => rfl
  | some es =>
    rw [hr, Option.getD_some] at he
    have := le_foldl_max es 0 e he
    simp only [Bool.not_eq_true', decide_eq_false_iff_not, not_lt]
    omega

theorem readAll_truncateBeforeSequence_one :
    let e : WALEntry := ⟨.set, 1, 0, [1], [1], 1, none, none⟩
    let d : Dir := [("wal-node1-1", [.header ⟨"wal-node1-1", 1, "node1", 1⟩, .entry e])]
    e ∈ readAll d ∧ 1 ≤ e.sequenceNumber ∧ e ∈ readAll (truncateBeforeSequence d 1) :=
  ⟨by decide, by decide, readAll_truncateBeforeSequence (by decide) (by decide)⟩

end WAL

end DistCache.Persistence
