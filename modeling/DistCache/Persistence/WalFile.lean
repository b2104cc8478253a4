import DistCache.Persistence.SnapshotCodec

namespace DistCache.Persistence

open Cache

-- wal.proto is not among the sources, so the protobuf encodings are the parameter `Codec`.

namespace IStream

-- `in.read(&buf[0], n)` into a buffer of `n` zeros: what the stream still has, up to `n`.
def readPadded (s : IStream) (n : Nat) : Bytes × IStream :=
  if !s.good then (List.replicate n 0, { s with fail := true })
  else if n ≤ s.rest.length then (s.rest.take n, { s with rest := s.rest.drop n })
  else (s.rest ++ List.replicate (n - s.rest.length) 0, ⟨[], true, true⟩)

-- `in.peek() != EOF`.
def peekAny (s : IStream) : Bool := s.good && !s.rest.isEmpty

end IStream

namespace WalFile

-- `v1::WALEntry` as the parser returns it; `type` is `none` outside the three kinds.
structure PbEntry where
  type : Option EntryType
  sequenceNumber : Int
  timestampMs : Int
  key : Bytes
  value : Bytes
  version : Int
  ttlSeconds : Option Int
  expectedVersion : Option Int
deriving DecidableEq, Repr

-- `SerializeToString` and `ParseFromString` of `v1::WALHeader` and `v1::WALEntry`.
structure Codec where
  serializeHeader : WALHeader → Bytes
  parseHeader : Bytes → Option WALHeader
  serializeEntry : PbEntry → Bytes
  parseEntry : Bytes → Option PbEntry

-- The message `WriteEntryToFile` fills; an empty value is the unset field.
def toPb (e : WALEntry) : PbEntry :=
  ⟨some e.type, e.sequenceNumber, e.timestampMs, e.key, e.value, e.version, e.ttlSeconds,
    e.expectedVersion⟩

-- The entry `ReadWALFile` builds from a parsed message; `none` for a type it skips.
def fromPb (m : PbEntry) : Option WALEntry :=
  m.type.map fun t =>
    ⟨t, m.sequenceNumber, m.timestampMs, m.key, m.value, m.version, m.ttlSeconds, m.expectedVersion⟩

-- `uint32_t size = str.size()`: its 4 bytes, then the string.
def frame (bs : Bytes) : Bytes := leBytes 4 bs.length ++ bs

-- The bytes `Open` writes to a new file.
def openBytes (c : Codec) (h : WALHeader) : Bytes := frame (c.serializeHeader h)

-- The bytes `WriteEntryToFile` appends.
def writeEntryBytes (c : Codec) (e : WALEntry) : Bytes := frame (c.serializeEntry (toPb e))

-- A file the log wrote: `Open`'s header, then the entries in the order they were appended.
def fileBytes (c : Codec) (h : WALHeader) (es : List WALEntry) : Bytes :=
  openBytes c h ++ es.flatMap (writeEntryBytes c)

-- The loop of `ReadWALFile`; each round takes 4 bytes at least, so the length is fuel enough.
def readEntries (c : Codec) : Nat → IStream → List WALEntry
  | 0, _ => []
  | fuel + 1, s =>
    if !s.peekAny then []
    else
      let (sizeBytes, s) := s.readPadded 4
      if s.eof then []
      else
        let (entryStr, s) := s.readPadded (ofLeBytes sizeBytes)
        ((c.parseEntry entryStr).bind fromPb).toList ++ readEntries c fuel s

-- `ReadWALFile` on a file's bytes; `none` when `header_size` is not filled.
def readWALFile (c : Codec) (file : Bytes) : Option (Bool × List WALEntry) :=
  let (sizeBytes, s) := IStream.readPadded ⟨file, false, false⟩ 4
  if s.fail then none
  else
    let (headerStr, s) := s.readPadded (ofLeBytes sizeBytes)
    match c.parseHeader headerStr with
    | none => some (false, [])
    | some _ => some (true, readEntries c file.length s)

-- The codec parses back the message it wrote for `e`, whose length fits the `uint32_t`.
structure Codec.EntryReadsBack (c : Codec) (e : WALEntry) : Prop where
  parse : c.parseEntry (c.serializeEntry (toPb e)) = some (toPb e)
  length_lt : (c.serializeEntry (toPb e)).length < byteModulus 4

-- The same for a file's header and every entry.
structure Codec.ReadsBack (c : Codec) (h : WALHeader) (es : List WALEntry) : Prop where
  header : c.parseHeader (c.serializeHeader h) = some h
  header_length_lt : (c.serializeHeader h).length < byteModulus 4
  entries : ∀ e ∈ es, c.EntryReadsBack e

end WalFile

namespace IStream

@[simp] theorem readPadded_append {bs : Bytes} {n : Nat} (h : bs.length = n) (rest : Bytes) :
    readPadded ⟨bs ++ rest, false, false⟩ n = (bs, ⟨rest, false, false⟩) := by
  subst h
  simp [readPadded, good]

theorem readPadded_short {bs : Bytes} {n : Nat} (h : bs.length < n) :
    readPadded ⟨bs, false, false⟩ n = (bs ++ List.replicate (n - bs.length) 0, ⟨[], true, true⟩) := by
  simp [readPadded, good, Nat.not_le.mpr h]

theorem peekAny_leBytes_append (n : Nat) (rest : Bytes) :
    peekAny ⟨leBytes 4 n ++ rest, false, false⟩ = true := by
  simp [peekAny, good, leBytes]

end IStream

namespace WalFile

variable {c : Codec}

@[simp] theorem fromPb_toPb (e : WALEntry) : fromPb (toPb e) = some e := rfl

@[simp] theorem length_writeEntryBytes (e : WALEntry) :
    (writeEntryBytes c e).length = 4 + (c.serializeEntry (toPb e)).length := by
  simp [writeEntryBytes, frame]

-- The first `j` bytes of a frame past its length: the length, then the first `j - 4` bytes.
theorem take_frame {bs : Bytes} {j : Nat} (h : 4 ≤ j) :
    (frame bs).take j = leBytes 4 bs.length ++ bs.take (j - 4) := by
  rw [frame, List.take_append_eq_append_take, List.take_of_length_le (by simpa using h),
    length_leBytes]

-- A round on a failed stream, or on fewer than 4 bytes, ends the loop.
@[simp] theorem readEntries_failed (fuel : Nat) (rest : Bytes) :
    readEntries c fuel ⟨rest, true, true⟩ = [] := by
  cases fuel <;> rfl

theorem readEntries_short {rest : Bytes} (h : rest.length < 4) (fuel : Nat) :
    readEntries c fuel ⟨rest, false, false⟩ = [] := by
  cases fuel with
  | zero => rfl
  | succ fuel =>
    rw [readEntries]
    split
    · rfl
    · rw [IStream.readPadded_short h]
      rfl

-- A round on a whole record gives its entry and leaves the stream after it.
theorem readEntries_writeEntryBytes {e : WALEntry} (he : c.EntryReadsBack e) (fuel : Nat)
    (rest : Bytes) :
    readEntries c (fuel + 1) ⟨writeEntryBytes c e ++ rest, false, false⟩ =
      e :: readEntries c fuel ⟨rest, false, false⟩ := by
  rw [readEntries, writeEntryBytes, frame, List.append_assoc, IStream.peekAny_leBytes_append]
  simp [ofLeBytes_leBytes, Nat.mod_eq_of_lt he.length_lt, he.parse]

theorem readEntries_flatMap {pre : List WALEntry} (hc : ∀ e ∈ pre, c.EntryReadsBack e) {fuel : Nat}
    (hf : pre.length ≤ fuel) (rest : Bytes) :
    readEntries c fuel ⟨pre.flatMap (writeEntryBytes c) ++ rest, false, false⟩ =
      pre ++ readEntries c (fuel - pre.length) ⟨rest, false, false⟩ := by
  induction pre generalizing fuel with
  | nil => rfl
  | cons e pre ih =>
    obtain ⟨fuel, rfl⟩ : ∃ f, fuel = f + 1 := ⟨fuel - 1, by simp at hf; omega⟩
    rw [List.forall_mem_cons] at hc
    rw [List.flatMap_cons, List.append_assoc, readEntries_writeEntryBytes hc.1,
      ih hc.2 (by simpa using hf)]
    simp

-- One round on a record cut after `j` bytes.
theorem readEntries_cut {e : WALEntry} (he : c.EntryReadsBack e) {j : Nat}
    (hj : j < (writeEntryBytes c e).length) (fuel : Nat) :
    readEntries c (fuel + 1) ⟨(writeEntryBytes c e).take j, false, false⟩ =
      if j < 4 then [] else
        let s := c.serializeEntry (toPb e)
        ((c.parseEntry (s.take (j - 4) ++ List.replicate (s.length - (j - 4)) 0)).bind fromPb).toList := by
  split_ifs with h4
  · exact readEntries_short (Nat.lt_of_le_of_lt (List.length_take_le _ _) h4) _
  · have hm : ((c.serializeEntry (toPb e)).take (j - 4)).length = j - 4 := by
      simp only [length_writeEntryBytes] at hj
      simp only [List.length_take]
      omega
    have hlt : ((c.serializeEntry (toPb e)).take (j - 4)).length < (c.serializeEntry (toPb e)).length := by
      simp only [length_writeEntryBytes] at hj
      omega
    rw [readEntries, writeEntryBytes, take_frame (by omega), IStream.peekAny_leBytes_append]
    simp [-List.length_take, hm, ofLeBytes_leBytes, Nat.mod_eq_of_lt he.length_lt,
      IStream.readPadded_short hlt]

theorem four_mul_le_length_flatMap (es : List WALEntry) :
    4 * es.length ≤ (es.flatMap (writeEntryBytes c)).length := by
  induction es with
  | nil => simp
  | cons e es ih =>
    simp only [List.flatMap_cons, List.length_append, length_writeEntryBytes, List.length_cons]
    omega

-- Every cut point of the entries' bytes falls in one record.
theorem exists_cut_of_lt_length_flatMap {es : List WALEntry} {q : Nat}
    (hq : q < (es.flatMap (writeEntryBytes c)).length) :
    ∃ pre e post j, es = pre ++ e :: post ∧ j < (writeEntryBytes c e).length ∧
      q = (pre.flatMap (writeEntryBytes c)).length + j := by
  induction es generalizing q with
  | nil => simp at hq
  | cons x xs ih =>
    rw [List.flatMap_cons, List.length_append] at hq
    by_cases hx : q < (writeEntryBytes c x).length
    · exact ⟨[], x, xs, q, rfl, hx, by simp⟩
    · obtain ⟨pre, e, post, j, rfl, hj, hq'⟩ := ih (q := q - (writeEntryBytes c x).length) (by omega)
      exact ⟨x :: pre, e, post, j, rfl, hj, by simp only [List.flatMap_cons, List.length_append]; omega⟩

-- A record whose encoding ends in a zero byte, cut just before that byte, is read whole.
theorem readEntries_cut_zero {e : WALEntry} (he : c.EntryReadsBack e) {s : Bytes}
    (hs : c.serializeEntry (toPb e) = s ++ [0]) (fuel : Nat) :
    readEntries c (fuel + 1) ⟨(writeEntryBytes c e).take (4 + s.length), false, false⟩ = [e] := by
  have hp := he.parse
  rw [hs] at hp
  rw [readEntries_cut he (by simp [hs]), if_neg (by omega)]
  simp [hs, hp]

-- Fewer than 4 bytes: `header_size` is not filled.
theorem readWALFile_short {file : Bytes} (h : file.length < 4) : readWALFile c file = none := by
  simp [readWALFile, IStream.readPadded_short h]

-- Past a whole header that parses, the loop runs on the rest with the file's length as fuel.
theorem readWALFile_openBytes {h : WALHeader} (hh : c.parseHeader (c.serializeHeader h) = some h)
    (hl : (c.serializeHeader h).length < byteModulus 4) (rest : Bytes) :
    readWALFile c (openBytes c h ++ rest) =
      some (true, readEntries c (openBytes c h ++ rest).length ⟨rest, false, false⟩) := by
  simp [readWALFile, openBytes, frame, ofLeBytes_leBytes, Nat.mod_eq_of_lt hl, hh]

-- A header cut after `p` bytes, past its length, is parsed zero-padded, and nothing follows it.
theorem readWALFile_take_openBytes {h : WALHeader} (hl : (c.serializeHeader h).length < byteModulus 4)
    {p : Nat} (h4 : 4 ≤ p) (hp : p < (openBytes c h).length) (rest : Bytes) :
    readWALFile c ((openBytes c h ++ rest).take p) =
      some ((c.parseHeader ((c.serializeHeader h).take (p - 4) ++
        List.replicate ((c.serializeHeader h).length - (p - 4)) 0)).isSome, []) := by
  simp only [openBytes, frame, List.length_append, length_leBytes] at hp
  have hm : ((c.serializeHeader h).take (p - 4)).length = p - 4 := by
    simp only [List.length_take]
    omega
  have hlt : ((c.serializeHeader h).take (p - 4)).length < (c.serializeHeader h).length := by omega
  rw [List.take_append_of_le_length (by simp [openBytes, frame]; omega), openBytes, take_frame h4]
  simp only [readWALFile, IStream.readPadded_append (length_leBytes 4 _), ofLeBytes_leBytes,
    Nat.mod_eq_of_lt hl, IStream.readPadded_short hlt, hm, Bool.false_eq_true, if_false]
  cases c.parseHeader _ <;> simp

-- Past the header and whole records, a round of the loop at least is left for what follows.
theorem readWALFile_flatMap_append {h : WALHeader} {pre : List WALEntry}
    (hh : c.parseHeader (c.serializeHeader h) = some h)
    (hl : (c.serializeHeader h).length < byteModulus 4) (hpre : ∀ e ∈ pre, c.EntryReadsBack e)
    (rest : Bytes) :
    ∃ fuel, readWALFile c (openBytes c h ++ pre.flatMap (writeEntryBytes c) ++ rest) =
      some (true, pre ++ readEntries c (fuel + 1) ⟨rest, false, false⟩) := by
  have h4 := four_mul_le_length_flatMap (c := c) pre
  have hlen : pre.length + 1 ≤ (openBytes c h ++ (pre.flatMap (writeEntryBytes c) ++ rest)).length := by
    simp only [openBytes, frame, List.length_append, length_leBytes]
    omega
  refine ⟨(openBytes c h ++ (pre.flatMap (writeEntryBytes c) ++ rest)).length - pre.length - 1, ?_⟩
  rw [List.append_assoc, readWALFile_openBytes hh hl, readEntries_flatMap hpre (by omega),
    Nat.sub_add_cancel (by omega)]

section Prefixes

variable {h : WALHeader} {es : List WALEntry}

theorem readWALFile_fileBytes_eq (hc : c.ReadsBack h es) :
    readWALFile c (fileBytes c h es) = some (true, es) := by
  obtain ⟨fuel, hr⟩ := readWALFile_flatMap_append hc.header hc.header_length_lt hc.entries []
  rw [List.append_nil, readEntries_short (by simp), List.append_nil] at hr
  rw [fileBytes, hr]

-- The prefix of a file that cuts the record of `e` after `j` bytes.
theorem take_fileBytes {pre post : List WALEntry} {e : WALEntry} (hes : es = pre ++ e :: post)
    {j : Nat} (hj : j ≤ (writeEntryBytes c e).length) :
    (fileBytes c h es).take ((openBytes c h).length + (pre.flatMap (writeEntryBytes c)).length + j) =
      openBytes c h ++ pre.flatMap (writeEntryBytes c) ++ (writeEntryBytes c e).take j := by
  have hf : fileBytes c h es = (openBytes c h ++ pre.flatMap (writeEntryBytes c)) ++
      (writeEntryBytes c e ++ post.flatMap (writeEntryBytes c)) := by
    simp [fileBytes, hes]
  rw [hf, ← List.length_append, List.take_append, List.take_append_of_le_length hj]

-- For every file the log wrote, what `ReadWALFile` makes of each of its byte prefixes.
theorem readWALFile_take (hc : c.ReadsBack h es) :
    let file := fileBytes c h es
    (∀ p < 4, readWALFile c (file.take p) = none) ∧
    (∀ p, 4 ≤ p → p < (openBytes c h).length →
      readWALFile c (file.take p) =
        some ((c.parseHeader ((c.serializeHeader h).take (p - 4) ++
          List.replicate ((c.serializeHeader h).length - (p - 4)) 0)).isSome, [])) ∧
    (∀ p, (openBytes c h).length ≤ p → p < file.length →
      ∃ pre e post j, es = pre ++ e :: post ∧ j < (writeEntryBytes c e).length ∧
        p = (openBytes c h).length + (pre.flatMap (writeEntryBytes c)).length + j ∧
        readWALFile c (file.take p) = some (true, pre ++
          if j < 4 then [] else
            let s := c.serializeEntry (toPb e)
            ((c.parseEntry (s.take (j - 4) ++ List.replicate (s.length - (j - 4)) 0)).bind
              fromPb).toList)) ∧
    (∀ pre e post s, es = pre ++ e :: post → c.serializeEntry (toPb e) = s ++ [0] →
      readWALFile c (file.take ((openBytes c h).length + (pre.flatMap (writeEntryBytes c)).length +
        (4 + s.length))) = some (true, pre ++ [e])) ∧
    (∀ p, file.length ≤ p → readWALFile c (file.take p) = some (true, es)) := by
  intro file
  have hpre : ∀ {pre e post}, es = pre ++ e :: post →
      (∀ x ∈ pre, c.EntryReadsBack x) ∧ c.EntryReadsBack e := fun hes =>
    ⟨fun x hx => hc.entries x (hes ▸ List.mem_append_left _ hx), hc.entries _ (by simp [hes])⟩
  refine ⟨fun p hp => readWALFile_short (by simp; omega),
    fun p h4 hp => readWALFile_take_openBytes hc.header_length_lt h4 hp _, fun p hp hp' => ?_,
    fun pre e post s hes hs => ?_, fun p hp => ?_⟩
  · obtain ⟨pre, e, post, j, hes, hj, hq⟩ := exists_cut_of_lt_length_flatMap
      (show p - (openBytes c h).length < (es.flatMap (writeEntryBytes c)).length by
        simp only [file, fileBytes, List.length_append] at hp'
        omega)
    have hp_eq : p = (openBytes c h).length + (pre.flatMap (writeEntryBytes c)).length + j := by omega
    obtain ⟨fuel, hr⟩ := readWALFile_flatMap_append hc.header hc.header_length_lt (hpre hes).1
      ((writeEntryBytes c e).take j)
    refine ⟨pre, e, post, j, hes, hj, hp_eq, ?_⟩
    rw [hp_eq, take_fileBytes hes hj.le, hr, readEntries_cut (hpre hes).2 hj]
  · obtain ⟨fuel, hr⟩ := readWALFile_flatMap_append hc.header hc.header_length_lt (hpre hes).1
      ((writeEntryBytes c e).take (4 + s.length))
    rw [take_fileBytes hes (by simp [hs]), hr, readEntries_cut_zero (hpre hes).2 hs]
  · rw [List.take_of_length_le hp, readWALFile_fileBytes_eq hc]

-- A record whose encoding ends in a zero byte comes back whole from a prefix one byte short.
theorem readWALFile_take_zero_tail :
    let h : WALHeader := ⟨"wal-node1-0", 0, "node1", 1⟩
    let e : WALEntry := ⟨.cas, 1, 0, [1], [], 0, none, some 0⟩
    let c : Codec := ⟨fun _ => [10], fun b => if b = [10] then some h else none,
      fun _ => [64, 0], fun b => if b = [64, 0] then some (toPb e) else none⟩
    let file := fileBytes c h [e]
    c.ReadsBack h [e] ∧
    (∀ p < 4, readWALFile c (file.take p) = none) ∧
    (∀ p, 4 ≤ p → p < (openBytes c h).length →
      readWALFile c (file.take p) =
        some ((c.parseHeader ((c.serializeHeader h).take (p - 4) ++
          List.replicate ((c.serializeHeader h).length - (p - 4)) 0)).isSome, [])) ∧
    (∀ p, (openBytes c h).length ≤ p → p < file.length →
      ∃ pre e' post j, [e] = pre ++ e' :: post ∧ j < (writeEntryBytes c e').length ∧
        p = (openBytes c h).length + (pre.flatMap (writeEntryBytes c)).length + j ∧
        readWALFile c (file.take p) = some (true, pre ++
          if j < 4 then [] else
            let s := c.serializeEntry (toPb e')
            ((c.parseEntry (s.take (j - 4) ++ List.replicate (s.length - (j - 4)) 0)).bind
              fromPb).toList)) ∧
    (∀ pre e' post s, [e] = pre ++ e' :: post → c.serializeEntry (toPb e') = s ++ [0] →
      readWALFile c (file.take ((openBytes c h).length + (pre.flatMap (writeEntryBytes c)).length +
        (4 + s.length))) = some (true, pre ++ [e'])) ∧
    (∀ p, file.length ≤ p → readWALFile c (file.take p) = some (true, [e])) := by
  intro h e c file
  have hc : c.ReadsBack h [e] := ⟨by decide, by decide, fun x hx => by
    rw [List.mem_singleton.mp hx]
    exact ⟨by decide, by decide⟩⟩
  exact ⟨hc, readWALFile_take hc⟩

end Prefixes

end WalFile

end DistCache.Persistence
