import DistCache.Persistence.Recovery
import Mathlib.Data.List.Basic
import Mathlib.Data.Nat.Digits

namespace DistCache.Persistence

open Cache

-- 256^w: the values a `w`-byte field holds.
def byteModulus : Nat → Nat
  | 0 => 1
  | w + 1 => 256 * byteModulus w

-- `out.write(&n, w)` of an unsigned field: `n` modulo 256^w, least significant byte first.
def leBytes : Nat → Nat → Bytes
  | 0, _ => []
  | w + 1, n => (n % 256).toUInt8 :: leBytes w (n / 256)

def ofLeBytes : Bytes → Nat
  | [] => 0
  | b :: bs => b.toNat + 256 * ofLeBytes bs

-- A signed field, in two's complement.
def intBytes (w : Nat) (x : Int) : Bytes := leBytes w (x % (byteModulus w : Int)).toNat

def ofIntBytes (w : Nat) (bs : Bytes) : Int :=
  if 2 * ofLeBytes bs < byteModulus w then ofLeBytes bs else (ofLeBytes bs : Int) - byteModulus w

-- `x` fits a signed field of `w` bytes.
def FitsSigned (w : Nat) (x : Int) : Prop := -(byteModulus w : Int) ≤ 2 * x ∧ 2 * x < byteModulus w

-- The record's fields fit the C++ types they come from.
def SnapshotRecord.Fits (r : SnapshotRecord) : Prop :=
  r.key.length < byteModulus 8 ∧ r.value.length < byteModulus 8 ∧ FitsSigned 4 r.ttl ∧
    FitsSigned 8 r.version ∧ FitsSigned 8 r.createdAtMs ∧ FitsSigned 8 r.expiresAt

instance (w : Nat) (x : Int) : Decidable (FitsSigned w x) :=
  inferInstanceAs (Decidable (_ ∧ _))

instance (r : SnapshotRecord) : Decidable r.Fits := inferInstanceAs (Decidable (_ ∧ _ ∧ _ ∧ _ ∧ _ ∧ _))

def snapshotMagic : Bytes := bytesOf "DISTCACHE_SNAPSHOT_V1"

def encodeRecord (r : SnapshotRecord) : Bytes :=
  leBytes 8 r.key.length ++ r.key ++ leBytes 8 r.value.length ++ r.value ++ intBytes 4 r.ttl ++
    intBytes 8 r.version ++ intBytes 8 r.createdAtMs ++ intBytes 8 r.expiresAt

-- `WriteSnapshotToFile`: the bytes of the file it renames into place.
def writeSnapshotToFile (snapshotId : String) (entries : List (Bytes × CacheEntry)) : Bytes :=
  snapshotMagic ++ 10 :: (bytesOf snapshotId ++ 10 :: (bytesOf (toString entries.length) ++
    10 :: entries.flatMap fun e => encodeRecord (SnapshotManager.toRecord e.1 e.2)))

-- What is left of the file, and the stream's `eofbit` and `failbit`.
structure IStream where
  rest : Bytes
  eof : Bool
  fail : Bool
deriving DecidableEq, Repr

namespace IStream

def good (s : IStream) : Bool := !s.eof && !s.fail

-- `std::getline(in, line)`: the bytes before the next newline, which is dropped.
def getline (s : IStream) : Bytes × IStream :=
  if s.good then
    match s.rest.span (· != 10) with
    | (line, _ :: after) => (line, { s with rest := after })
    | (line, []) => (line, ⟨[], true, line.isEmpty⟩)
  else ([], { s with fail := true })

-- The "C" locale's white space, which `>>` skips first, and its digits.
def isSpace (b : UInt8) : Bool := b.toNat == 32 || (9 ≤ b.toNat && b.toNat ≤ 13)

def isDigit (b : UInt8) : Bool := 48 ≤ b.toNat && b.toNat ≤ 57

def decimalValue (ds : Bytes) : Nat := ds.foldl (fun n d => 10 * n + (d.toNat - 48)) 0

-- `in >> n` for a `size_t`; `none` when nothing is stored.
def extractSize (s : IStream) : Option Nat × IStream :=
  let r := s.rest.dropWhile isSpace
  if !s.good then (none, { s with fail := true })
  else if r = [] then (none, ⟨[], true, true⟩)
  else
    let neg := r.head? = some 45
    let r := if r.head? = some 45 ∨ r.head? = some 43 then r.tail else r
    let ds := r.takeWhile isDigit
    let r := r.dropWhile isDigit
    if ds = [] then (some 0, ⟨r, r.isEmpty, true⟩)
    else if byteModulus 8 ≤ decimalValue ds then (some (byteModulus 8 - 1), ⟨r, r.isEmpty, true⟩)
    else
      (some (if neg then (byteModulus 8 - decimalValue ds) % byteModulus 8 else decimalValue ds),
        ⟨r, r.isEmpty, false⟩)

-- `in.ignore()`: one byte is taken; at the end, `eofbit`.
def ignore (s : IStream) : IStream :=
  if s.good then
    match s.rest with
    | [] => { s with eof := true }
    | _ :: r => { s with rest := r }
  else { s with fail := true }

-- `in.read(p, n)` that takes all `n` bytes; `none` leaves the variable unfilled.
def read (s : IStream) (n : Nat) : Option (Bytes × IStream) :=
  if s.good && n ≤ s.rest.length then some (s.rest.take n, { s with rest := s.rest.drop n })
  else none

end IStream

-- One pass of the loop of `ReadSnapshotFromFile`, as the record it reads.
def readRecord (s : IStream) : Option (SnapshotRecord × IStream) := do
  let (keyLen, s) ← s.read 8
  let (key, s) ← s.read (ofLeBytes keyLen)
  let (valueLen, s) ← s.read 8
  let (value, s) ← s.read (ofLeBytes valueLen)
  let (ttl, s) ← s.read 4
  let (version, s) ← s.read 8
  let (createdAt, s) ← s.read 8
  let (expiresAt, s) ← s.read 8
  pure (⟨key, value, ofIntBytes 4 ttl, ofIntBytes 8 version, ofIntBytes 8 createdAt,
    ofIntBytes 8 expiresAt⟩, s)

def readRecords : Nat → IStream → Option (List SnapshotRecord)
  | 0, _ => some []
  | n + 1, s => do
    let (r, s) ← readRecord s
    let rs ← readRecords n s
    pure (r :: rs)

-- `ReadSnapshotFromFile` on the file's bytes; `none` when a read filled no variable.
def readSnapshotFromFile (file : Bytes) : Option (Bool × List (Bytes × CacheEntry)) :=
  let (header, s) := IStream.getline ⟨file, false, false⟩
  if header ≠ snapshotMagic then some (false, [])
  else
    match s.getline.2.extractSize with
    | (none, _) => none
    | (some n, s) => (readRecords n s.ignore).map fun rs =>
        (true, rs.map fun r => (r.key, SnapshotManager.fromRecord r))

-- `RestoreFromSnapshot` once the file is found: each entry read is `set`, in file order.
def restoreFromFile (file : Bytes) (storage : ShardedHashTable) :
    Option (Bool × ShardedHashTable) :=
  (readSnapshotFromFile file).map fun r =>
    if r.1 then (true, r.2.foldl (fun t e => (t.set e.1 e.2).2) storage) else (false, storage)

@[simp] theorem length_leBytes (w n : Nat) : (leBytes w n).length = w := by
  induction w generalizing n <;> simp [leBytes, *]

theorem byteModulus_pos (w : Nat) : 0 < byteModulus w := by
  induction w <;> simp [byteModulus, *]

theorem ofLeBytes_leBytes (w n : Nat) : ofLeBytes (leBytes w n) = n % byteModulus w := by
  induction w generalizing n with
  | zero => simp [leBytes, ofLeBytes, byteModulus, Nat.mod_one]
  | succ w ih =>
    rw [leBytes, ofLeBytes, ih, byteModulus, Nat.mod_mul, Nat.toUInt8,
      UInt8.toNat_ofNat_of_lt (Nat.mod_lt _ (by decide))]

@[simp] theorem length_intBytes (w : Nat) (x : Int) : (intBytes w x).length = w :=
  length_leBytes _ _

theorem ofIntBytes_intBytes {w : Nat} {x : Int} (h : FitsSigned w x) :
    ofIntBytes w (intBytes w x) = x := by
  obtain ⟨h₁, h₂⟩ := h
  have hM := byteModulus_pos w
  have h0 : 0 ≤ x % (byteModulus w : Int) := Int.emod_nonneg _ (by omega)
  have hlt : x % (byteModulus w : Int) < byteModulus w := Int.emod_lt_of_pos _ (by omega)
  have hv : ((x % (byteModulus w : Int)).toNat : Int) = x % byteModulus w := Int.toNat_of_nonneg h0
  have hx : x % (byteModulus w : Int) = if 0 ≤ x then x else x + byteModulus w := by
    split_ifs with hx
    · exact Int.emod_eq_of_lt hx (by omega)
    · rw [← Int.add_emod_self]
      exact Int.emod_eq_of_lt (by omega) (by omega)
  unfold ofIntBytes intBytes
  rw [ofLeBytes_leBytes, Nat.mod_eq_of_lt (by omega)]
  split_ifs at hx ⊢ <;> omega

namespace IStream

@[simp] theorem read_append {bs : Bytes} {n : Nat} (h : bs.length = n) (rest : Bytes) :
    read ⟨bs ++ rest, false, false⟩ n = some (bs, ⟨rest, false, false⟩) := by
  subst h
  simp [read, good]

theorem getline_append {line : Bytes} (h : 10 ∉ line) (rest : Bytes) :
    getline ⟨line ++ 10 :: rest, false, false⟩ = (line, ⟨rest, false, false⟩) := by
  have hp : ∀ b ∈ line, (b != 10) = true := fun b hb => by
    simpa using fun e : b = 10 => h (e ▸ hb)
  simp [getline, good, List.span_eq_take_drop, List.takeWhile_append_of_pos hp,
    List.dropWhile_append_of_pos hp]

end IStream

theorem readRecord_encodeRecord {r : SnapshotRecord} (h : r.Fits) (rest : Bytes) :
    readRecord ⟨encodeRecord r ++ rest, false, false⟩ = some (r, ⟨rest, false, false⟩) := by
  obtain ⟨hk, hv, ht, hver, hc, he⟩ := h
  simp [readRecord, encodeRecord, ofLeBytes_leBytes, Nat.mod_eq_of_lt hk, Nat.mod_eq_of_lt hv,
    ofIntBytes_intBytes ht, ofIntBytes_intBytes hver, ofIntBytes_intBytes hc,
    ofIntBytes_intBytes he]

theorem readRecords_flatMap (rs : List SnapshotRecord) (h : ∀ r ∈ rs, r.Fits) (rest : Bytes) :
    readRecords rs.length ⟨rs.flatMap encodeRecord ++ rest, false, false⟩ = some rs := by
  induction rs with
  | nil => rfl
  | cons r rs ih =>
    rw [List.forall_mem_cons] at h
    simp [readRecords, List.append_assoc, readRecord_encodeRecord h.1, ih h.2]

namespace IStream

theorem utf8EncodeChar_digitChar : ∀ d, d < 10 →
    String.utf8EncodeChar (Nat.digitChar d) = [(48 + d).toUInt8]
  | 0, _ | 1, _ | 2, _ | 3, _ | 4, _ | 5, _ | 6, _ | 7, _ | 8, _ | 9, _ => by decide
  | _ + 10, h => absurd h (by omega)

theorem toNat_digit {d : Nat} (h : d < 10) : (48 + d).toUInt8.toNat = 48 + d :=
  UInt8.toNat_ofNat_of_lt (show 48 + d < 256 by omega)

theorem decimalValue_append_digit (ds : Bytes) {d : Nat} (h : d < 10) :
    decimalValue (ds ++ [(48 + d).toUInt8]) = 10 * decimalValue ds + d := by
  simp [decimalValue, toNat_digit h]

-- With enough fuel, `toDigitsCore` puts the decimal digits of `n` in front of `ds`.
theorem toDigitsCore_bytes : ∀ (fuel n : Nat) (ds : List Char), n < fuel →
    ∃ l : Bytes, (Nat.toDigitsCore 10 fuel n ds).flatMap String.utf8EncodeChar =
      l ++ ds.flatMap String.utf8EncodeChar ∧ l ≠ [] ∧ (∀ b ∈ l, isDigit b) ∧ decimalValue l = n
  | 0, _, _, h => absurd h (Nat.not_lt_zero _)
  | fuel + 1, n, ds, h => by
    have hd : n % 10 < 10 := Nat.mod_lt _ (by decide)
    have hb : isDigit (48 + n % 10).toUInt8 := by
      simp only [isDigit, toNat_digit hd, Bool.and_eq_true, decide_eq_true_eq]
      omega
    rw [Nat.toDigitsCore]
    split_ifs with hn
    · refine ⟨[(48 + n % 10).toUInt8], by simp [utf8EncodeChar_digitChar _ hd],
        List.cons_ne_nil _ _, by simpa using hb, ?_⟩
      have := decimalValue_append_digit [] hd
      simp only [List.nil_append] at this
      rw [this]
      simp only [decimalValue, List.foldl_nil]
      omega
    · obtain ⟨l, hl, -, hdig, hval⟩ := toDigitsCore_bytes fuel (n / 10) _ (by omega)
      refine ⟨l ++ [(48 + n % 10).toUInt8], ?_, by simp, ?_, ?_⟩
      · rw [hl, List.flatMap_cons, utf8EncodeChar_digitChar _ hd]
        simp
      · intro b hb'
        rcases List.mem_append.mp hb' with hb' | hb'
        · exact hdig b hb'
        · rw [List.mem_singleton.mp hb']
          exact hb
      · rw [decimalValue_append_digit _ hd, hval]
        omega

-- `out << n`: decimal digits, whose value is `n`.
theorem bytesOf_toString (n : Nat) :
    ∃ l : Bytes, bytesOf (toString n) = l ∧ l ≠ [] ∧ (∀ b ∈ l, isDigit b) ∧ decimalValue l = n := by
  obtain ⟨l, hl, h⟩ := toDigitsCore_bytes (n + 1) n [] (Nat.lt_succ_self n)
  refine ⟨l, ?_, h⟩
  rw [← List.append_nil l]
  exact hl

-- `ss << x` for a `long long`.
theorem bytesOf_toString_int (x : Int) :
    ∃ l : Bytes, bytesOf (toString x) = (if x < 0 then [45] else []) ++ l ∧ l ≠ [] ∧
      (∀ b ∈ l, isDigit b) ∧ (decimalValue l : Int) = x.natAbs := by
  cases x with
  | ofNat n =>
    obtain ⟨l, hl, hne, hd, hv⟩ := bytesOf_toString n
    exact ⟨l, by simpa using hl, hne, hd, by simp [hv]⟩
  | negSucc n =>
    obtain ⟨l, hl, hne, hd, hv⟩ := bytesOf_toString (n + 1)
    refine ⟨l, ?_, hne, hd, by simp [hv]⟩
    show bytesOf ("-" ++ toString (n + 1)) = _
    simp [bytesOf, String.toList, String.data_append, Int.negSucc_lt_zero, ← hl]
    rfl

theorem extractSize_digits {ds : Bytes} (hne : ds ≠ []) (hd : ∀ b ∈ ds, isDigit b)
    (hv : decimalValue ds < byteModulus 8) (rest : Bytes) :
    extractSize ⟨ds ++ 10 :: rest, false, false⟩ =
      (some (decimalValue ds), ⟨10 :: rest, false, false⟩) := by
  obtain ⟨b, bs, rfl⟩ := List.exists_cons_of_ne_nil hne
  have hdb := hd b (List.mem_cons_self _ _)
  have hb := hdb
  simp only [isDigit, Bool.and_eq_true, decide_eq_true_eq] at hb
  have hsp : isSpace b = false := by
    simp only [isSpace, Bool.or_eq_false_iff, beq_eq_false_iff_ne, Bool.and_eq_false_iff,
      decide_eq_false_iff_not]
    omega
  have h45 : b ≠ 45 := fun e => absurd (e ▸ hb.1) (by decide)
  have h43 : b ≠ 43 := fun e => absurd (e ▸ hb.1) (by decide)
  have h10 : isDigit 10 = false := by decide
  have htake : List.takeWhile isDigit (b :: (bs ++ 10 :: rest)) = b :: bs := by
    rw [← List.cons_append, List.takeWhile_append_of_pos hd]
    simp [h10]
  have hdrop : List.dropWhile isDigit (b :: (bs ++ 10 :: rest)) = 10 :: rest := by
    rw [← List.cons_append, List.dropWhile_append_of_pos hd]
    simp [h10]
  simp [extractSize, good, hsp, h45, h43, hdb, htake, hdrop, Nat.not_le.mpr hv]

end IStream

-- A byte with its top bit set is not a newline.
theorem newline_ne_or (a c : UInt8) (hc : c.toNat.testBit 7 = true) : ¬(10 : UInt8) = a ||| c := by
  intro h
  have h7 := congrArg (fun x : UInt8 => x.toNat.testBit 7) h
  change (10 : UInt8).toNat.testBit 7 = (a.toBitVec ||| c.toBitVec).toNat.testBit 7 at h7
  rw [BitVec.toNat_or, Nat.testBit_or, show c.toBitVec.toNat.testBit 7 = true from hc,
    Bool.or_true] at h7
  exact absurd h7 (by decide)

-- Only a newline's UTF-8 encoding holds the byte 10.
theorem newline_of_mem_utf8EncodeChar {c : Char} (h : 10 ∈ String.utf8EncodeChar c) :
    c = '\n' := by
  dsimp only [String.utf8EncodeChar] at h
  split_ifs at h with h₁
  · have hc : c.val.toNat ≤ 127 := UInt32.toNat_le_of_le (by decide) h₁
    have h' := congrArg UInt8.toNat (List.mem_singleton.mp h)
    change 10 = (c.val.toNat.toUInt8).toNat at h'
    rw [Nat.toUInt8, UInt8.toNat_ofNat_of_lt (show c.val.toNat < 256 by omega)] at h'
    exact Char.ext (UInt32.toNat.inj (by rw [← h']; rfl))
  all_goals simp (disch := decide) only [List.mem_cons, List.mem_nil_iff, or_false,
    newline_ne_or, or_self] at h

theorem newline_not_mem_bytesOf {s : String} (h : '\n' ∉ s.toList) : 10 ∉ bytesOf s := by
  simp only [bytesOf, List.mem_flatMap, not_exists, not_and]
  intro c hc h10
  exact h (newline_of_mem_utf8EncodeChar h10 ▸ hc)

theorem readSnapshotFromFile_write (snapshotId : String)
    (entries : List (Bytes × CacheEntry)) (hid : '\n' ∉ snapshotId.toList)
    (hlen : entries.length < byteModulus 8)
    (hfit : ∀ e ∈ entries, (SnapshotManager.toRecord e.1 e.2).Fits) :
    readSnapshotFromFile (writeSnapshotToFile snapshotId entries) =
      some (true, entries.map fun e =>
        (e.1, SnapshotManager.fromRecord (SnapshotManager.toRecord e.1 e.2))) := by
  obtain ⟨l, hl, hne, hdig, hval⟩ := IStream.bytesOf_toString entries.length
  have hfit' : ∀ r ∈ entries.map fun e => SnapshotManager.toRecord e.1 e.2, r.Fits := by
    intro r hr
    obtain ⟨e, he, rfl⟩ := List.mem_map.mp hr
    exact hfit e he
  have hrecords := readRecords_flatMap _ hfit' []
  rw [List.length_map, List.append_nil, List.flatMap_map] at hrecords
  unfold readSnapshotFromFile writeSnapshotToFile
  rw [IStream.getline_append (by decide)]
  dsimp only
  rw [if_neg (not_not.mpr rfl), IStream.getline_append (newline_not_mem_bytesOf hid), hl,
    IStream.extractSize_digits hne hdig (hval ▸ hlen), hval]
  simp only [IStream.ignore, IStream.good, Bool.not_false, Bool.and_self, if_true, hrecords,
    Option.map_some', List.map_map]
  rfl

-- The decimal text of an `int64_t` holds no newline.
theorem newline_not_mem_toString_int (x : Int) : '\n' ∉ (toString x).toList := fun h => by
  obtain ⟨l, hl, -, hd, -⟩ := IStream.bytesOf_toString_int x
  have h10 : (10 : UInt8) ∈ bytesOf (toString x) := List.mem_flatMap.mpr ⟨'\n', h, by decide⟩
  rw [hl] at h10
  rcases List.mem_append.mp h10 with h | h
  · split_ifs at h <;> simp at h
  · exact absurd (hd 10 h) (by decide)

-- A snapshot id with no newline, and fields that fit: the file reads back as written.
theorem readSnapshotFromFile_writeSnapshotToFile (snapshotId : String)
    (entries : List (Bytes × CacheEntry)) (hid : '\n' ∉ snapshotId.toList)
    (hlen : entries.length < byteModulus 8)
    (hfit : ∀ e ∈ entries, (SnapshotManager.toRecord e.1 e.2).Fits) :
    readSnapshotFromFile (writeSnapshotToFile snapshotId entries) =
      some (true, entries.map fun e =>
        (e.1, SnapshotManager.fromRecord (SnapshotManager.toRecord e.1 e.2))) :=
  readSnapshotFromFile_write snapshotId entries hid hlen hfit

theorem readSnapshotFromFile_writeSnapshotToFile_one :
    let entries := [(([1] : Bytes), CacheEntry.init [1] [1] none 0)]
    '\n' ∉ "snapshot-node1-0".toList ∧ entries.length < byteModulus 8 ∧
      (∀ e ∈ entries, (SnapshotManager.toRecord e.1 e.2).Fits) ∧
      readSnapshotFromFile (writeSnapshotToFile "snapshot-node1-0" entries) =
        some (true, entries.map fun e =>
          (e.1, SnapshotManager.fromRecord (SnapshotManager.toRecord e.1 e.2))) :=
  have hfit : ∀ e ∈ [(([1] : Bytes), CacheEntry.init [1] [1] none 0)],
      (SnapshotManager.toRecord e.1 e.2).Fits := by
    simp [SnapshotManager.toRecord, SnapshotRecord.Fits, FitsSigned, CacheEntry.init, byteModulus]
  ⟨by decide, by decide, hfit,
    readSnapshotFromFile_writeSnapshotToFile _ _ (by decide) (by decide) hfit⟩

-- A node id holding a newline: the snapshot of an engine holding one key reads back empty.
theorem snapshot_id_newline_loses_entries :
    let sm : SnapshotManager := SnapshotManager.create "a\nb"
    let t := (ShardedHashTable.create 1 1024 0 List.length (by decide)).exec
      [.set [1] (.init [1] [1] none 0)]
    let file := writeSnapshotToFile (sm.createSnapshot [] t 0).1 (t.forEach 0)
    (t.get [1] 0).1.isSome ∧ (t.forEach 0).length = 1 ∧
      readSnapshotFromFile file = some (true, []) ∧
      ((restoreFromFile file (ShardedHashTable.create 1 1024 0 List.length (by decide))).map
        fun r => (r.1, (r.2.get [1] 0).1)) = some (true, none) := by
  decide

end DistCache.Persistence
