import DistCache.Cache.Entry

namespace DistCache

open Cache

-- `ConflictResolver::ResolveConflict<CacheEntry>`: 0 when the first argument wins, 1 otherwise.

inductive ConflictResolutionStrategy
  | lastWriteWins
  | vectorDominance
  | custom
deriving DecidableEq, Repr

namespace ConflictResolver

-- `ResolveConflict`. The switch has a case for every strategy, so its `default` is never taken.
def resolveConflict (entry1 entry2 : CacheEntry)
    (strategy : ConflictResolutionStrategy := .lastWriteWins) : Int :=
  match strategy with
  | .lastWriteWins =>
    if entry2.modifiedAtMs < entry1.modifiedAtMs then 0
    else if entry1.modifiedAtMs < entry2.modifiedAtMs then 1
    else if entry2.version ≤ entry1.version then 0 else 1
  | .vectorDominance =>
    match VersionVector.compare entry1.versionVector entry2.versionVector with
    | .greater => 0
    | .less => 1
    | _ => if entry2.modifiedAtMs ≤ entry1.modifiedAtMs then 0 else 1
  | .custom => 0

theorem resolveConflict_zero_or_one (entry1 entry2 : CacheEntry)
    (strategy : ConflictResolutionStrategy) :
    resolveConflict entry1 entry2 strategy = 0 ∨ resolveConflict entry1 entry2 strategy = 1 := by
  unfold resolveConflict
  split
  · split_ifs <;> simp
  · split <;> (try split_ifs) <;> simp
  · simp

-- Last write wins: the first argument wins when its (timestamp, version) is not below.
theorem resolveConflict_lastWriteWins_eq_zero (entry1 entry2 : CacheEntry) :
    resolveConflict entry1 entry2 .lastWriteWins = 0 ↔
      entry2.modifiedAtMs < entry1.modifiedAtMs ∨
        entry2.modifiedAtMs = entry1.modifiedAtMs ∧ entry2.version ≤ entry1.version := by
  simp only [resolveConflict]
  split_ifs <;> omega

-- Vector dominance, with the timestamp for concurrent vectors.
theorem resolveConflict_vectorDominance_eq_zero (entry1 entry2 : CacheEntry) :
    resolveConflict entry1 entry2 .vectorDominance = 0 ↔
      (VersionVector.Exceeds entry1.versionVector entry2.versionVector ∧
          ¬ VersionVector.Exceeds entry2.versionVector entry1.versionVector) ∨
        ¬ (VersionVector.Exceeds entry2.versionVector entry1.versionVector ∧
            ¬ VersionVector.Exceeds entry1.versionVector entry2.versionVector) ∧
          entry2.modifiedAtMs ≤ entry1.modifiedAtMs := by
  obtain ⟨d1, d2, hc, h1, h2⟩ :=
    VersionVector.compare_eq_ofFlags entry1.versionVector entry2.versionVector
  rw [← h1, ← h2]
  unfold resolveConflict
  rw [hc]
  cases d1 <;> cases d2 <;> simp [VersionVector.ComparisonResult.ofFlags]

-- The two argument orders agree exactly when the entries differ in what the strategy reads.
theorem resolveConflict_orders_agree_iff (e1 e2 : CacheEntry) :
    let v1 := e1.versionVector
    let v2 := e2.versionVector
    ((resolveConflict e1 e2 .lastWriteWins = 0 ↔ resolveConflict e2 e1 .lastWriteWins = 1) ↔
        e1.modifiedAtMs ≠ e2.modifiedAtMs ∨ e1.version ≠ e2.version) ∧
      ((resolveConflict e1 e2 .vectorDominance = 0 ↔ resolveConflict e2 e1 .vectorDominance = 1) ↔
        (VersionVector.Exceeds v1 v2 ∧ ¬ VersionVector.Exceeds v2 v1) ∨
          (VersionVector.Exceeds v2 v1 ∧ ¬ VersionVector.Exceeds v1 v2) ∨
          e1.modifiedAtMs ≠ e2.modifiedAtMs) ∧
      (e1.modifiedAtMs = e2.modifiedAtMs → e1.version = e2.version →
        resolveConflict e1 e2 .lastWriteWins = 0 ∧ resolveConflict e2 e1 .lastWriteWins = 0) ∧
      (¬ (VersionVector.Exceeds v1 v2 ∧ ¬ VersionVector.Exceeds v2 v1) →
        ¬ (VersionVector.Exceeds v2 v1 ∧ ¬ VersionVector.Exceeds v1 v2) →
        e1.modifiedAtMs = e2.modifiedAtMs →
        resolveConflict e1 e2 .vectorDominance = 0 ∧ resolveConflict e2 e1 .vectorDominance = 0) := by
  intro v1 v2
  -- a call that does not return 0 returns 1
  have hone : ∀ s, (resolveConflict e2 e1 s = 1 ↔ ¬ resolveConflict e2 e1 s = 0) := fun s => by
    rcases resolveConflict_zero_or_one e2 e1 s with h | h <;> simp [h]
  simp only [hone, resolveConflict_lastWriteWins_eq_zero, resolveConflict_vectorDominance_eq_zero]
  generalize VersionVector.Exceeds v1 v2 = a, VersionVector.Exceeds v2 v1 = b
  refine ⟨by omega, ?_, by omega, fun hg hl ht => ?_⟩
  · by_cases ha : a <;> by_cases hb : b <;> simp [ha, hb] <;> omega
  · simp only [hg, hl, not_false_eq_true, true_and, false_or]
    omega

-- Two writes of one key in the same millisecond: each replica keeps the entry it holds.
theorem resolveConflict_tie_keeps_first :
    let e1 := CacheEntry.init [1] [1] none 1000
    let e2 := CacheEntry.init [1] [2] none 1000
    e1 ≠ e2 ∧
      resolveConflict e1 e2 .lastWriteWins = 0 ∧ resolveConflict e2 e1 .lastWriteWins = 0 ∧
      resolveConflict e1 e2 .vectorDominance = 0 ∧ resolveConflict e2 e1 .vectorDominance = 0 := by
  decide

end ConflictResolver

end DistCache
