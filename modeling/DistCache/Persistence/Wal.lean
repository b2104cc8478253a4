import DistCache.Cluster.Placement
import Mathlib.Data.List.Sort

namespace DistCache.Persistence

open Cache Cluster

-- A file is its records in the order they were written; `encodedSize` is a record's length.

inductive EntryType
  | set
  | delete
  | cas
deriving DecidableEq, Repr

structure WALEntry where
  type : EntryType
  sequenceNumber : Int
  timestampMs : Int
  key : Bytes
  value : Bytes
  version : Int
  ttlSeconds : Option Int
  expectedVersion : Option Int
deriving DecidableEq, Repr

structure WALHeader where
  walId : String
  createdAtMs : Int
  nodeId : String
  walVersion : Int
deriving DecidableEq, Repr

inductive Record
  | header (h : WALHeader)
  | entry (e : WALEntry)
deriving DecidableEq, Repr

def Record.entry? : Record → Option WALEntry
  | .header _ => none
  | .entry e => some e

-- `WAL::Config` without `wal_dir`: the directory is the argument `d` of every call.
structure Config where
  nodeId : String := "node1"
  maxFileSizeBytes : Nat := 100 * 1024 * 1024
  maxLogFiles : Nat := 10
  syncOnWrite : Bool := true
deriving DecidableEq, Repr

-- The `.wal` files of `wal_dir`, each by its stem (the log id) with its records.
abbrev Dir := List (String × List Record)

-- Opening with `std::ios::app` creates a missing file.
def touchFile (d : Dir) (id : String) : Dir :=
  if (StdMap.find d id).isSome then d else d ++ [(id, [])]

-- A write through an open stream; a file removed while open takes its writes with it.
def writeRecord : Dir → String → Record → Dir
  | [], _, _ => []
  | f :: d, id, r => if f.1 = id then (f.1, f.2 ++ [r]) :: d else f :: writeRecord d id r

def listWALFiles (d : Dir) : List String := d.map Prod.fst

-- `ReadWALFile`: the header, then every entry; a header in the middle of a file is skipped.
def readWALFile : List Record → Option (List WALEntry)
  | .header _ :: rest => some (rest.filterMap Record.entry?)
  | _ => none

-- Every record `ReadWALFile` reads from the directory, file by file.
def readAll (d : Dir) : List WALEntry := d.flatMap fun f => (readWALFile f.2).getD []

-- `WAL` without its mutex and counters; `last_sequence_` starts at 0.
structure WAL where
  config : Config
  currentLogId : String
  currentFileSize : Nat
  lastSequence : Int
  isOpen : Bool
  -- The records at the end of the current log still in the `ofstream`'s buffer.
  unflushed : Nat
deriving DecidableEq, Repr

namespace WAL

def create (config : Config) : WAL := ⟨config, "", 0, 0, false, 0⟩

-- `"wal-" + node_id + "-" + <milliseconds>`.
def generateLogId (config : Config) (now : Int) : String :=
  "wal-" ++ config.nodeId ++ "-" ++ toString now

def header (config : Config) (id : String) (now : Int) : Record := .header ⟨id, now, config.nodeId, 1⟩

def shouldRotate (w : WAL) : Bool := decide (w.config.maxFileSizeBytes ≤ w.currentFileSize)

-- `Close` and `Sync` flush the buffer; `Close` on a closed log does nothing.
def close (w : WAL) : WAL := if w.isOpen then { w with isOpen := false, unflushed := 0 } else w

def sync (w : WAL) : WAL := if w.isOpen then { w with unflushed := 0 } else w

section Io

variable (encodedSize : Record → Nat)

-- A record's bytes: its 4-byte length, then its encoding.
def recordSize (r : Record) : Nat := 4 + encodedSize r

def fileSize (rs : List Record) : Nat := rs.foldr (fun r n => recordSize encodedSize r + n) 0

-- `Open`: a header only if the file is empty.
def openWal (w : WAL) (d : Dir) (now : Int) : WAL × Dir :=
  if w.isOpen then (w, d)
  else
    let id := generateLogId w.config now
    let d := touchFile d id
    let size := fileSize encodedSize ((StdMap.find d id).getD [])
    if size = 0 then
      ({ w with currentLogId := id, currentFileSize := recordSize encodedSize (header w.config id now),
                isOpen := true, unflushed := 1 }, writeRecord d id (header w.config id now))
    else ({ w with currentLogId := id, currentFileSize := size, isOpen := true, unflushed := 0 }, d)

-- `RotateLog`: a header in the new file, then the oldest files beyond `max_log_files` go.
def rotateLog (w : WAL) (d : Dir) (now : Int) : WAL × Dir :=
  let id := generateLogId w.config now
  let d := writeRecord (touchFile d id) id (header w.config id now)
  let w := { w with currentLogId := id, currentFileSize := recordSize encodedSize (header w.config id now),
                    unflushed := 1 }
  let files := listWALFiles d
  if w.config.maxLogFiles < files.length then
    (w, ((files.insertionSort fun a b => stringLt b a = false).take (files.length - w.config.maxLogFiles)).foldl
      (fun d id => StdMap.erase d id) d)
  else (w, d)

def writeEntryToFile (w : WAL) (d : Dir) (entry : WALEntry) : WAL × Dir :=
  ({ w with currentFileSize := w.currentFileSize + recordSize encodedSize (.entry entry),
             unflushed := w.unflushed + 1 },
    writeRecord d w.currentLogId (.entry entry))

-- The rotation check of `AppendEntry`.
def rotateIfNeeded (w : WAL) (d : Dir) (now : Int) : WAL × Dir :=
  if w.shouldRotate then rotateLog encodedSize w d now else (w, d)

-- `AppendEntry`; `none` is a call that does not return (`Sync` relocks `mutex_`).
def appendEntry (w : WAL) (d : Dir) (now : Int) (entry : WALEntry) : Option (Bool × WAL × Dir) :=
  if !w.isOpen then some (false, w, d)
  else
    let numbered := { entry with sequenceNumber := w.lastSequence + 1 }
    let w := { w with lastSequence := w.lastSequence + 1 }
    let r := rotateIfNeeded encodedSize w d now
    let r := writeEntryToFile encodedSize r.1 r.2 numbered
    if r.1.config.syncOnWrite then none else some (true, r)

-- `AppendSet` and `AppendCAS` log the entry's creation time.
def appendSet (w : WAL) (d : Dir) (now : Int) (key : Bytes) (entry : CacheEntry) :
    Option (Bool × WAL × Dir) :=
  appendEntry encodedSize w d now
    ⟨.set, 0, entry.createdAtMs, key, entry.value, entry.version, entry.ttlSeconds, none⟩

-- The version of a DELETE record is left uninitialized by the source; nothing reads it.
def appendDelete (w : WAL) (d : Dir) (now : Int) (key : Bytes) : Option (Bool × WAL × Dir) :=
  appendEntry encodedSize w d now ⟨.delete, 0, now, key, [], 0, none, none⟩

def appendCAS (w : WAL) (d : Dir) (now : Int) (key : Bytes) (entry : CacheEntry)
    (expectedVersion : Int) : Option (Bool × WAL × Dir) :=
  appendEntry encodedSize w d now
    ⟨.cas, 0, entry.createdAtMs, key, entry.value, entry.version, entry.ttlSeconds,
      some expectedVersion⟩

end Io

-- Whether `TruncateBeforeSequence` keeps a file holding these records.
def keepsFile (rs : List Record) (sequence : Int) : Bool :=
  match readWALFile rs with
  | none => true
  | some es => !decide (es.foldl (fun m e => max m e.sequenceNumber) 0 < sequence)

def truncateBeforeSequence (d : Dir) (sequence : Int) : Dir := d.filter fun f => keepsFile f.2 sequence

-- What is on disk of a file: the current log without the records still in the buffer.
def flushedRecords (w : WAL) (f : String × List Record) : List Record :=
  if f.1 = w.currentLogId then f.2.take (f.2.length - w.unflushed) else f.2

def onDisk (w : WAL) (d : Dir) : Dir := d.map fun f => (f.1, flushedRecords w f)

-- `TruncateBeforeSequence`: each file is judged by what is on disk.
def truncate (w : WAL) (d : Dir) (sequence : Int) : Dir :=
  d.filter fun f => keepsFile (flushedRecords w f) sequence

-- The calls a node makes on its `WAL`.
inductive Call
  | openWal (now : Int)
  | close
  | appendSet (now : Int) (key : Bytes) (entry : CacheEntry)
  | appendDelete (now : Int) (key : Bytes)
  | appendCAS (now : Int) (key : Bytes) (entry : CacheEntry) (expectedVersion : Int)
  | rotateLog (now : Int)
  | sync
  | truncateBeforeSequence (sequence : Int)

section Run

variable (encodedSize : Record → Nat)

-- One call; `none` if it does not return.
def call (w : WAL) (d : Dir) : Call → Option (WAL × Dir)
  | .openWal now => some (openWal encodedSize w d now)
  | .close => some (close w, d)
  | .sync => some (sync w, d)
  | .appendSet now key entry => (appendSet encodedSize w d now key entry).map Prod.snd
  | .appendDelete now key => (appendDelete encodedSize w d now key).map Prod.snd
  | .appendCAS now key entry ev => (appendCAS encodedSize w d now key entry ev).map Prod.snd
  | .rotateLog now => some (rotateLog encodedSize w d now)
  | .truncateBeforeSequence s => some (w, truncate w d s)

def run (w : WAL) (d : Dir) : List Call → Option (WAL × Dir)
  | [] => some (w, d)
  | c :: cs => (call encodedSize w d c).bind fun r => run r.1 r.2 cs

end Run

section Spec

variable {sz : Record → Nat} {w : WAL} {d : Dir} {now : Int} {id : String}

theorem writeRecord_append_of_find_none (rs : List Record) (r : Record) :
    StdMap.find d id = none → writeRecord (d ++ [(id, rs)]) id r = d ++ [(id, rs ++ [r])] := by
  induction d with
  | nil => simp [writeRecord]
  | cons f d ih =>
    intro h
    rw [StdMap.find_cons] at h
    split_ifs at h with hf
    simp [writeRecord, hf, ih h]

-- `Open` on a closed log whose file does not exist yet: a file holding the header.
theorem openWal_of_new (hw : w.isOpen = false) (hd : StdMap.find d (generateLogId w.config now) = none) :
    openWal sz w d now =
      ({ w with currentLogId := generateLogId w.config now, isOpen := true, unflushed := 1,
                currentFileSize := recordSize sz (header w.config (generateLogId w.config now) now) },
        d ++ [(generateLogId w.config now, [header w.config (generateLogId w.config now) now])]) := by
  have hf : StdMap.find (d ++ [(generateLogId w.config now, [])]) (generateLogId w.config now) =
      some [] := by
    simp only [StdMap.find, Option.map_eq_none', List.find?_append] at hd ⊢
    simp [hd]
  simp [openWal, hw, touchFile, hd, hf, fileSize, writeRecord_append_of_find_none _ _ hd]

theorem rotateLog_fst (w : WAL) (d : Dir) (now : Int) :
    (rotateLog sz w d now).1 =
      { w with currentLogId := generateLogId w.config now, unflushed := 1,
               currentFileSize := recordSize sz (header w.config (generateLogId w.config now) now) } := by
  dsimp only [rotateLog]
  split <;> rfl

@[simp] theorem rotateIfNeeded_config (w : WAL) (d : Dir) (now : Int) :
    (rotateIfNeeded sz w d now).1.config = w.config := by
  unfold rotateIfNeeded
  split <;> simp only [rotateLog_fst]

-- An append to an open log below its size limit, without `sync_on_write`.
theorem appendEntry_of_fits (hw : w.isOpen = true) (hs : w.config.syncOnWrite = false)
    (hr : w.currentFileSize < w.config.maxFileSizeBytes) (entry : WALEntry) :
    appendEntry sz w d now entry =
      some (true, { w with lastSequence := w.lastSequence + 1, unflushed := w.unflushed + 1,
                           currentFileSize := w.currentFileSize +
                             recordSize sz (.entry { entry with sequenceNumber := w.lastSequence + 1 }) },
        writeRecord d w.currentLogId (.entry { entry with sequenceNumber := w.lastSequence + 1 })) := by
  have hn : ¬ w.config.maxFileSizeBytes ≤ w.currentFileSize := by omega
  simp [appendEntry, hw, hs, rotateIfNeeded, shouldRotate, hn, writeEntryToFile]

@[simp] theorem close_lastSequence (w : WAL) : w.close.lastSequence = w.lastSequence := by
  unfold close
  split <;> rfl

@[simp] theorem sync_lastSequence (w : WAL) : w.sync.lastSequence = w.lastSequence := by
  unfold sync
  split <;> rfl

-- The disk after `TruncateBeforeSequence` is what it judges applied to the disk before.
theorem onDisk_truncate (w : WAL) (d : Dir) (sequence : Int) :
    w.onDisk (w.truncate d sequence) = truncateBeforeSequence (w.onDisk d) sequence := by
  simp only [onDisk, truncate, truncateBeforeSequence, List.filter_map]
  rfl

end Spec

end WAL

-- `WAL` objects constructed one after another on one directory; the destructor calls `Close`.
def history (encodedSize : Record → Nat) (config : Config) : Dir → List (List WAL.Call) → Option Dir
  | d, [] => some d
  | d, calls :: rest =>
    ((WAL.create config).run encodedSize d (calls ++ [.close])).bind fun r => history encodedSize config r.2 rest

end DistCache.Persistence
