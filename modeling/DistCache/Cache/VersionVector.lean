import Mathlib.Data.List.AList

namespace DistCache

-- `version_vector::VersionVector`: an association list with distinct ids, in iteration order.

abbrev VersionVector := AList fun _ : String => Int

namespace VersionVector

-- Equality decided on the entries, so that `decide` runs it.
instance (priority := high) decEq : DecidableEq VersionVector := fun a b =>
  decidable_of_iff (a.entries = b.entries) AList.ext_iff.symm

instance : Repr VersionVector := ⟨fun v n => reprPrec v.entries n⟩

inductive ComparisonResult
  | equal
  | less
  | greater
  | concurrent
deriving DecidableEq, Repr

-- `GetVersion`: 0 for a missing id.
def getVersion (vv : VersionVector) (nodeId : String) : Int := (vv.lookup nodeId).getD 0

-- The ids `Compare` visits: those of `v1`, then those of `v2` missing from `v1`.
def allNodes (v1 v2 : VersionVector) : List String := v1.keys ++ v2.keys.filter fun n => n ∉ v1

-- The loop of `Compare`: the two flags, set id by id, with an early CONCURRENT once both are.
def compareLoop (v1 v2 : VersionVector) : List String → Bool → Bool → ComparisonResult
  | [], v1Dominates, v2Dominates =>
    if v1Dominates && !v2Dominates then .greater
    else if v2Dominates && !v1Dominates then .less
    else .equal
  | nodeId :: rest, v1Dominates, v2Dominates =>
    let ver1 := getVersion v1 nodeId
    let ver2 := getVersion v2 nodeId
    let flags :=
      if ver2 < ver1 then (true, v2Dominates)
      else if ver1 < ver2 then (v1Dominates, true)
      else (v1Dominates, v2Dominates)
    if flags.1 && flags.2 then .concurrent else compareLoop v1 v2 rest flags.1 flags.2

def compare (v1 v2 : VersionVector) : ComparisonResult := compareLoop v1 v2 (allNodes v1 v2) false false

-- One turn of the loop of `Merge`: an entry of `v2` inserted, or maxed with the version there.
def mergeEntry (result : VersionVector) (p : Sigma fun _ : String => Int) : VersionVector :=
  match result.lookup p.1 with
  | none => result.insert p.1 p.2
  | some version => result.insert p.1 (max version p.2)

-- `Merge`: a copy of `v1`, then every entry of `v2`.
def merge (v1 v2 : VersionVector) : VersionVector := v2.entries.foldl mergeEntry v1

-- `a` holds a higher version than `b` at some id, a missing id counting as 0.
def Exceeds (a b : VersionVector) : Prop := ∃ n, getVersion b n < getVersion a n

-- The verdict from the two flags once every id is visited.
def ComparisonResult.ofFlags (v1Dominates v2Dominates : Bool) : ComparisonResult :=
  if v1Dominates && v2Dominates then .concurrent
  else if v1Dominates then .greater
  else if v2Dominates then .less
  else .equal

theorem getVersion_of_not_mem {vv : VersionVector} {n : String} (h : n ∉ vv) : getVersion vv n = 0 := by
  rw [getVersion, AList.lookup_eq_none.mpr h]
  rfl

theorem mem_allNodes {v1 v2 : VersionVector} {n : String} : n ∈ allNodes v1 v2 ↔ n ∈ v1 ∨ n ∈ v2 := by
  simp only [allNodes, List.mem_append, List.mem_filter, ← AList.mem_keys, decide_eq_true_eq]
  by_cases h : n ∈ v1 <;> simp [h]

-- The early return gives the verdict the flags would have reached at the end.
theorem compareLoop_eq (v1 v2 : VersionVector) :
    ∀ (ns : List String) (d1 d2 : Bool), (d1 && d2) = false →
      compareLoop v1 v2 ns d1 d2 =
        .ofFlags (d1 || ns.any fun n => decide (getVersion v2 n < getVersion v1 n))
          (d2 || ns.any fun n => decide (getVersion v1 n < getVersion v2 n))
  | [], d1, d2, h => by
    cases d1 <;> cases d2 <;> simp_all [compareLoop, ComparisonResult.ofFlags]
  | n :: ns, d1, d2, h => by
    simp only [compareLoop, List.any_cons]
    by_cases h₁ : getVersion v2 n < getVersion v1 n
    · have h₂ : ¬ getVersion v1 n < getVersion v2 n := by omega
      cases d2 <;> simp [h₁, h₂, compareLoop_eq v1 v2 ns, ComparisonResult.ofFlags]
    · by_cases h₂ : getVersion v1 n < getVersion v2 n
      · cases d1 <;> simp [h₁, h₂, compareLoop_eq v1 v2 ns, ComparisonResult.ofFlags]
      · simp [h₁, h₂, h, compareLoop_eq v1 v2 ns d1 d2 h]

-- Outside both vectors every id reads 0, so visiting `allNodes` finds every id where they differ.
theorem any_allNodes (v1 v2 a b : VersionVector) (ha : a = v1 ∨ a = v2) (hb : b = v1 ∨ b = v2) :
    ((allNodes v1 v2).any fun n => decide (getVersion b n < getVersion a n)) = true ↔ Exceeds a b := by
  rw [List.any_eq_true]
  refine ⟨fun ⟨n, _, h⟩ => ⟨n, of_decide_eq_true h⟩, fun ⟨n, h⟩ => ⟨n, ?_, decide_eq_true h⟩⟩
  by_contra hn
  rw [mem_allNodes, not_or] at hn
  have h0 : ∀ w, w = v1 ∨ w = v2 → getVersion w n = 0 := by
    rintro w (rfl | rfl)
    exacts [getVersion_of_not_mem hn.1, getVersion_of_not_mem hn.2]
  rw [h0 a ha, h0 b hb] at h
  exact lt_irrefl _ h

theorem compare_eq_ofFlags (v1 v2 : VersionVector) :
    ∃ d1 d2 : Bool, compare v1 v2 = .ofFlags d1 d2 ∧ (d1 = true ↔ Exceeds v1 v2) ∧
      (d2 = true ↔ Exceeds v2 v1) :=
  ⟨_, _, compareLoop_eq v1 v2 _ false false rfl,
    any_allNodes v1 v2 v1 v2 (.inl rfl) (.inr rfl), any_allNodes v1 v2 v2 v1 (.inr rfl) (.inl rfl)⟩

theorem compare_eq_equal_iff (v1 v2 : VersionVector) :
    compare v1 v2 = .equal ↔ ¬ Exceeds v1 v2 ∧ ¬ Exceeds v2 v1 := by
  obtain ⟨d1, d2, h, h1, h2⟩ := compare_eq_ofFlags v1 v2
  rw [h, ← h1, ← h2]
  cases d1 <;> cases d2 <;> simp [ComparisonResult.ofFlags]

theorem compare_eq_less_iff (v1 v2 : VersionVector) :
    compare v1 v2 = .less ↔ ¬ Exceeds v1 v2 ∧ Exceeds v2 v1 := by
  obtain ⟨d1, d2, h, h1, h2⟩ := compare_eq_ofFlags v1 v2
  rw [h, ← h1, ← h2]
  cases d1 <;> cases d2 <;> simp [ComparisonResult.ofFlags]

theorem compare_eq_greater_iff (v1 v2 : VersionVector) :
    compare v1 v2 = .greater ↔ Exceeds v1 v2 ∧ ¬ Exceeds v2 v1 := by
  obtain ⟨d1, d2, h, h1, h2⟩ := compare_eq_ofFlags v1 v2
  rw [h, ← h1, ← h2]
  cases d1 <;> cases d2 <;> simp [ComparisonResult.ofFlags]

theorem compare_eq_concurrent_iff (v1 v2 : VersionVector) :
    compare v1 v2 = .concurrent ↔ Exceeds v1 v2 ∧ Exceeds v2 v1 := by
  obtain ⟨d1, d2, h, h1, h2⟩ := compare_eq_ofFlags v1 v2
  rw [h, ← h1, ← h2]
  cases d1 <;> cases d2 <;> simp [ComparisonResult.ofFlags]

theorem not_exceeds_iff {a b : VersionVector} : ¬ Exceeds a b ↔ ∀ n, getVersion a n ≤ getVersion b n := by
  simp [Exceeds]

theorem lookup_mergeEntry (result : VersionVector) (p : Sigma fun _ : String => Int) (n : String) :
    (mergeEntry result p).lookup n =
      if n = p.1 then Option.merge max (result.lookup n) (some p.2) else result.lookup n := by
  unfold mergeEntry
  split_ifs with hn
  · subst hn
    split <;> simp_all [AList.lookup_insert, Option.merge]
  · split <;> simp [AList.lookup_insert_ne hn]

theorem lookup_foldl_mergeEntry (n : String) :
    ∀ (l : List (Sigma fun _ : String => Int)), l.NodupKeys → ∀ result : VersionVector,
      (l.foldl mergeEntry result).lookup n = Option.merge max (result.lookup n) (l.dlookup n)
  | [], _, result => by
    rw [List.foldl_nil, List.dlookup_nil]
    cases result.lookup n <;> rfl
  | p :: l, hl, result => by
    rw [List.nodupKeys_cons] at hl
    rw [List.foldl_cons, lookup_foldl_mergeEntry n l hl.2, lookup_mergeEntry]
    by_cases hn : n = p.1
    · subst hn
      rw [if_pos rfl, List.dlookup_eq_none.mpr hl.1, List.dlookup_cons_eq]
      cases result.lookup p.1 <;> rfl
    · rw [if_neg hn, List.dlookup_cons_ne _ _ hn]

-- `Merge` holds at each id the larger version of the two, or the one version present.
theorem lookup_merge (v1 v2 : VersionVector) (n : String) :
    (merge v1 v2).lookup n = Option.merge max (v1.lookup n) (v2.lookup n) :=
  lookup_foldl_mergeEntry n _ v2.nodupKeys v1

theorem merge_max_comm (x y : Option Int) : Option.merge max x y = Option.merge max y x := by
  cases x <;> cases y <;> simp [Option.merge, max_comm]

theorem merge_max_assoc (x y z : Option Int) :
    Option.merge max (Option.merge max x y) z = Option.merge max x (Option.merge max y z) := by
  cases x <;> cases y <;> cases z <;> simp [Option.merge, max_assoc]

theorem merge_max_self (x : Option Int) : Option.merge max x x = x := by
  cases x <;> simp [Option.merge]

-- No entry is negative.
def NonNeg (vv : VersionVector) : Prop := ∀ p ∈ vv.entries, 0 ≤ p.2

instance : DecidablePred NonNeg := fun vv => inferInstanceAs (Decidable (∀ p ∈ vv.entries, 0 ≤ p.2))

theorem NonNeg.getVersion_nonneg {vv : VersionVector} (h : NonNeg vv) (n : String) : 0 ≤ getVersion vv n := by
  unfold getVersion
  cases hl : vv.lookup n with
  | none => exact le_refl 0
  | some x => exact h ⟨n, x⟩ (AList.mem_lookup_iff.mp hl)

-- Without negative entries, a missing id and version 0 mean the same to `Merge`.
theorem getVersion_merge {a b : VersionVector} (ha : NonNeg a) (hb : NonNeg b) (n : String) :
    getVersion (merge a b) n = max (getVersion a n) (getVersion b n) := by
  have h0a := ha.getVersion_nonneg n
  have h0b := hb.getVersion_nonneg n
  unfold getVersion at h0a h0b ⊢
  rw [lookup_merge]
  cases ha' : a.lookup n <;> cases hb' : b.lookup n <;> simp_all [Option.merge]

-- A vector that exceeds another nowhere compares EQUAL or LESS to it.
theorem compare_of_not_exceeds {a m : VersionVector} (h : ¬ Exceeds a m) :
    compare a m = .equal ∨ compare a m = .less := by
  by_cases h' : Exceeds m a
  · exact .inr ((compare_eq_less_iff _ _).mpr ⟨h, h'⟩)
  · exact .inl ((compare_eq_equal_iff _ _).mpr ⟨h, h'⟩)

-- `Compare` and `Merge` obey the laws of a version vector when no entry is negative.
theorem version_vector_laws (a b c : VersionVector) :
    (compare a b = .equal ↔ ∀ n, getVersion a n = getVersion b n) ∧
      (compare a b = .less ↔ compare b a = .greater) ∧
      (compare a b = .less ↔
        (∀ n, getVersion a n ≤ getVersion b n) ∧ ∃ n, getVersion a n ≠ getVersion b n) ∧
      (compare a b = .concurrent ↔
        (∃ n, getVersion a n < getVersion b n) ∧ ∃ n, getVersion b n < getVersion a n) ∧
      (∀ n, (merge a b).lookup n = Option.merge max (a.lookup n) (b.lookup n)) ∧
      (∀ n, (merge a b).lookup n = (merge b a).lookup n) ∧
      (∀ n, (merge (merge a b) c).lookup n = (merge a (merge b c)).lookup n) ∧
      (∀ n, (merge a a).lookup n = a.lookup n) ∧
      (NonNeg a → NonNeg b →
        (∀ n, getVersion (merge a b) n = max (getVersion a n) (getVersion b n)) ∧
          (compare a (merge a b) = .equal ∨ compare a (merge a b) = .less) ∧
          (compare b (merge a b) = .equal ∨ compare b (merge a b) = .less)) := by
  refine ⟨?_, ?_, ?_, ?_, lookup_merge a b, fun n => ?_, fun n => ?_, fun n => ?_, fun ha hb => ?_⟩
  · rw [compare_eq_equal_iff, not_exceeds_iff, not_exceeds_iff]
    exact ⟨fun h n => le_antisymm (h.1 n) (h.2 n), fun h => ⟨fun n => (h n).le, fun n => (h n).ge⟩⟩
  · rw [compare_eq_less_iff, compare_eq_greater_iff]
    exact and_comm
  · rw [compare_eq_less_iff, not_exceeds_iff]
    refine and_congr_right fun hle => ⟨fun ⟨n, h⟩ => ⟨n, h.ne⟩, fun ⟨n, h⟩ => ⟨n, lt_of_le_of_ne (hle n) h⟩⟩
  · rw [compare_eq_concurrent_iff]
    exact and_comm
  · rw [lookup_merge, lookup_merge, merge_max_comm]
  · rw [lookup_merge, lookup_merge, lookup_merge, lookup_merge, merge_max_assoc]
  · rw [lookup_merge, merge_max_self]
  · refine ⟨getVersion_merge ha hb, compare_of_not_exceeds (not_exceeds_iff.mpr fun n => ?_),
      compare_of_not_exceeds (not_exceeds_iff.mpr fun n => ?_)⟩ <;> rw [getVersion_merge ha hb]
    exacts [le_max_left _ _, le_max_right _ _]

-- A negative version on one side only: the merge compares below its input.
theorem merge_keeps_negative_entry :
    let b : VersionVector := AList.singleton "x" (-1)
    getVersion (merge ∅ b) "x" = -1 ∧ max (getVersion ∅ "x") (getVersion b "x") = 0 ∧
      compare ∅ (merge ∅ b) = .greater := by
  decide

end VersionVector

end DistCache
