import DistCache.Security.AuthToken
import Mathlib.Data.List.DropRight

namespace DistCache.Security

open TokenValidator (getline getline_cases getline_append)

-- The three paths of a TLS setup: the server's certificate, its private key and the CA certificate.
structure TLSConfig where
  certFile : Bytes
  keyFile : Bytes
  caFile : Bytes
  deriving DecidableEq, Repr

namespace TLSConfig

-- The characters of `" \t"`.
def isBlank (c : UInt8) : Bool := c == 32 || c == 9

-- The two `erase` calls of "Trim whitespace"; a string of blanks only loses everything.
def trim (s : Bytes) : Bytes := (s.dropWhile isBlank).rdropWhile isBlank

-- "Remove quotes if present": `value.substr(1, value.size() - 2)` when both ends are '"'.
def unquote (value : Bytes) : Bytes :=
  if 2 ≤ value.length ∧ value.head? = some 34 ∧ value.getLast? = some 34 then
    (value.drop 1).take (value.length - 2)
  else value

-- One line: none when the loop skips it (empty, a comment, or no '='), else its key and value.
def parseLine (line : Bytes) : Option (Bytes × Bytes) :=
  if line = [] ∨ line.head? = some 35 then none
  else
    let pos := line.indexOf 61
    if pos = line.length then none
    else some (trim (line.take pos), unquote (trim (line.drop (pos + 1))))

-- The body of the loop: the value goes to the string its key names; any other line changes nothing.
def assign (fields : TLSConfig) (line : Bytes) : TLSConfig :=
  match parseLine line with
  | none => fields
  | some (key, value) =>
    if key = bytesOf "cert_file" then { fields with certFile := value }
    else if key = bytesOf "key_file" then { fields with keyFile := value }
    else if key = bytesOf "ca_file" then { fields with caFile := value }
    else fields

-- The rest of the stream after one `getline` is shorter than the stream.
theorem getline_length_lt {delim : UInt8} {s field rest : Bytes}
    (h : getline delim s = some (field, rest)) : rest.length < s.length := by
  obtain ⟨-, rfl | ⟨rfl, rfl⟩⟩ := getline_cases h
  · simp only [List.length_append, List.length_cons]
    omega
  · cases s with
    | nil => simp [getline] at h
    | cons _ _ => simp

-- `while (std::getline(file, line))`: the lines of the file, the last one also without a '\n'.
def readLines (s : Bytes) : List Bytes :=
  match _h : getline 10 s with
  | none => []
  | some (line, rest) => line :: readLines rest
termination_by s.length
decreasing_by exact getline_length_lt _h

def missingFields : String := "TLS config file missing required fields (cert_file, key_file, ca_file)"

-- `load_from_file`; the file is none when it cannot be opened.
def loadFromFile (configPath : String) (file : Option Bytes) : Except String TLSConfig :=
  match file with
  | none => .error ("Cannot open TLS config file: " ++ configPath)
  | some content =>
    let fields := (readLines content).foldl assign ⟨[], [], []⟩
    if fields.certFile = [] ∨ fields.keyFile = [] ∨ fields.caFile = [] then .error missingFields
    else .ok fields

-- `validate`, with the file system's answer to `file_exists`: all three files must be there.
def validate (fileExists : Bytes → Bool) (c : TLSConfig) : Bool :=
  fileExists c.certFile && fileExists c.keyFile && fileExists c.caFile

-- The `--use-tls` block of `main`: load the file, then refuse a setup whose files are not all there.
def startTls (fileExists : Bytes → Bool) (tlsConfigFile : String) (file : Option Bytes) :
    Except String TLSConfig :=
  match loadFromFile tlsConfigFile file with
  | .error e => .error ("Failed to load TLS configuration: " ++ e)
  | .ok c => if validate fileExists c then .ok c else .error "TLS configuration validation failed"

inductive Field where
  | cert | key | ca
  deriving DecidableEq, Repr

-- The key that sets a field, as the file spells it.
def Field.name : Field → Bytes
  | .cert => bytesOf "cert_file"
  | .key => bytesOf "key_file"
  | .ca => bytesOf "ca_file"

def field (c : TLSConfig) : Field → Bytes
  | .cert => c.certFile
  | .key => c.keyFile
  | .ca => c.caFile

theorem ext_field {a b : TLSConfig} (h : ∀ k, a.field k = b.field k) : a = b := by
  cases a; cases b
  simp only [mk.injEq]
  exact ⟨h .cert, h .key, h .ca⟩

-- What one line does to one field: a line that sets it replaces its value, any other keeps it.
theorem field_assign (fields : TLSConfig) (line : Bytes) (k : Field) :
    (assign fields line).field k =
      match parseLine line with
      | some (key, value) => if key = k.name then value else fields.field k
      | none => fields.field k := by
  have hck : bytesOf "cert_file" ≠ bytesOf "key_file" := by decide
  have hca : bytesOf "cert_file" ≠ bytesOf "ca_file" := by decide
  have hka : bytesOf "key_file" ≠ bytesOf "ca_file" := by decide
  unfold assign
  rcases parseLine line with _ | ⟨key, value⟩
  · rfl
  · cases k <;> dsimp only [Field.name] <;> split_ifs <;> simp_all [field]

-- The value of the last entry for a key.
def lastValue (entries : List (Bytes × Bytes)) (key : Bytes) : Option Bytes :=
  (entries.reverse.find? fun entry => entry.1 == key).map Prod.snd

theorem field_foldl_assign (fields : TLSConfig) (lines : List Bytes) (k : Field) :
    (lines.foldl assign fields).field k =
      (lastValue (lines.filterMap parseLine) k.name).getD (fields.field k) := by
  induction lines using List.reverseRecOn with
  | nil => rfl
  | append_singleton lines line ih =>
    rw [List.foldl_append, List.foldl_cons, List.foldl_nil, field_assign, ih,
      List.filterMap_append]
    cases h : parseLine line with
    | none => simp [h]
    | some entry =>
      obtain ⟨key, value⟩ := entry
      by_cases hk : key = k.name <;> simp [h, lastValue, hk]

-- What the reader is for: each path is the value of the last line that sets it.
def lastAssignments (lines : List Bytes) : TLSConfig :=
  let entries := lines.filterMap parseLine
  ⟨(lastValue entries Field.cert.name).getD [], (lastValue entries Field.key.name).getD [],
    (lastValue entries Field.ca.name).getD []⟩

theorem field_lastAssignments (lines : List Bytes) (k : Field) :
    (lastAssignments lines).field k = (lastValue (lines.filterMap parseLine) k.name).getD [] := by
  cases k <;> rfl

-- The loop computes the last assignments.
theorem loadFromFile_some (configPath : String) (content : Bytes) :
    loadFromFile configPath (some content) =
      let c := lastAssignments (readLines content)
      if c.certFile = [] ∨ c.keyFile = [] ∨ c.caFile = [] then .error missingFields else .ok c := by
  have h : (readLines content).foldl assign ⟨[], [], []⟩ = lastAssignments (readLines content) :=
    ext_field fun k => by
      rw [field_foldl_assign, field_lastAssignments]
      cases k <;> rfl
  simp only [loadFromFile, h]

theorem readLines_nil : readLines [] = [] := by
  simp [readLines, getline]

theorem readLines_of_getline {s line rest : Bytes} (h : getline 10 s = some (line, rest)) :
    readLines s = line :: readLines rest := by
  rw [readLines]
  split <;> simp_all

-- No line holds a '\n'.
theorem not_mem_of_mem_readLines : ∀ (s line : Bytes), line ∈ readLines s → 10 ∉ line
  | s, line, hl => by
    cases h : getline 10 s with
    | none =>
      rw [readLines] at hl
      split at hl <;> simp_all
    | some r =>
      obtain ⟨first, rest⟩ := r
      rw [readLines_of_getline h, List.mem_cons] at hl
      rcases hl with rfl | hl
      · exact (getline_cases h).1
      · exact not_mem_of_mem_readLines rest line hl
termination_by s => s.length
decreasing_by exact getline_length_lt h

theorem trim_sublist (s : Bytes) : (trim s).Sublist s :=
  (List.rdropWhile_prefix _ _).sublist.trans (List.dropWhile_suffix _).sublist

theorem unquote_sublist (value : Bytes) : (unquote value).Sublist value := by
  unfold unquote
  split_ifs
  · exact (List.take_sublist _ _).trans (List.drop_sublist _ _)
  · exact .refl _

-- The key and the value come out of the line.
theorem parseLine_sublist {line key value : Bytes} (h : parseLine line = some (key, value)) :
    key.Sublist line ∧ value.Sublist line := by
  unfold parseLine at h
  dsimp only at h
  split_ifs at h
  obtain ⟨rfl, rfl⟩ := Prod.mk.inj (Option.some.inj h)
  exact ⟨(trim_sublist _).trans (List.take_sublist _ _),
    ((unquote_sublist _).trans (trim_sublist _)).trans (List.drop_sublist _ _)⟩

theorem lastValue_eq_some {entries : List (Bytes × Bytes)} {key value : Bytes}
    (h : lastValue entries key = some value) : (key, value) ∈ entries := by
  obtain ⟨⟨key', value'⟩, hf, rfl⟩ := Option.map_eq_some'.mp h
  have hk := List.find?_some hf
  simp only [beq_iff_eq] at hk
  subst hk
  exact List.mem_reverse.mp (List.mem_of_find?_eq_some hf)

-- A loaded path is non-empty, holds no newline, and is the value of a line that sets its key.
theorem loadFromFile_ok {configPath : String} {content : Bytes} {c : TLSConfig}
    (h : loadFromFile configPath (some content) = .ok c) (k : Field) :
    c.field k ≠ [] ∧ 10 ∉ c.field k ∧
      ∃ line ∈ readLines content, parseLine line = some (k.name, c.field k) := by
  rw [loadFromFile_some] at h
  dsimp only at h
  split_ifs at h with hc
  cases h
  have hne : (lastAssignments (readLines content)).field k ≠ [] := by
    cases k <;> simp_all [field]
  rw [field_lastAssignments] at hne ⊢
  cases hv : lastValue ((readLines content).filterMap parseLine) k.name with
  | none => simp [hv] at hne
  | some value =>
    obtain ⟨line, hl, hp⟩ := List.mem_filterMap.mp (lastValue_eq_some hv)
    simp only [hv, Option.getD_some] at hne ⊢
    exact ⟨hne, fun hm => not_mem_of_mem_readLines content line hl
      ((parseLine_sublist hp).2.subset hm), line, hl, hp⟩

-- Lines written one after another, each ended by a '\n', are read back as they were.
theorem readLines_flatMap : ∀ lines : List Bytes, (∀ line ∈ lines, 10 ∉ line) →
    readLines (lines.flatMap (· ++ [10])) = lines
  | [], _ => readLines_nil
  | line :: lines, h => by
    have hg : getline 10 (line ++ [10] ++ lines.flatMap (· ++ [10])) =
        some (line, lines.flatMap (· ++ [10])) := by
      rw [List.append_assoc, List.singleton_append]
      exact getline_append (h line (List.mem_cons_self _ _)) _
    rw [List.flatMap_cons, readLines_of_getline hg,
      readLines_flatMap lines fun l hl => h l (List.mem_cons_of_mem _ hl)]

-- What the three keys share: no '=' or newline, not a comment, and nothing for trim to take off.
theorem Field.name_facts (k : Field) :
    61 ∉ k.name ∧ 10 ∉ k.name ∧ k.name.head? ≠ some 35 ∧ k.name ≠ [] ∧
      trim (k.name ++ [32]) = k.name := by
  cases k <;> decide

-- The line `<key> = <value>`.
def assignment (k : Field) (value : Bytes) : Bytes := k.name ++ bytesOf " = " ++ value

theorem assignment_eq (k : Field) (value : Bytes) :
    assignment k value = k.name ++ 32 :: 61 :: 32 :: value := by
  rw [assignment, List.append_assoc]
  rfl

theorem parseLine_assignment (k : Field) (value : Bytes) :
    parseLine (assignment k value) = some (k.name, unquote (trim value)) := by
  obtain ⟨h61, -, h35, hne, htrim⟩ := k.name_facts
  have hpos : (k.name ++ 32 :: 61 :: 32 :: value).indexOf 61 = k.name.length + 1 := by
    rw [List.indexOf_append_of_not_mem h61, List.indexOf_cons_ne _ (by decide),
      List.indexOf_cons_self]
  have hhead : (k.name ++ 32 :: 61 :: 32 :: value).head? = k.name.head? :=
    List.head?_append_of_ne_nil _ hne
  have hkey : (k.name ++ 32 :: 61 :: 32 :: value).take (k.name.length + 1) = k.name ++ [32] := by
    rw [List.take_append]
    rfl
  have hvalue : (k.name ++ 32 :: 61 :: 32 :: value).drop (k.name.length + 1 + 1) = 32 :: value := by
    rw [Nat.add_assoc, List.drop_append]
    rfl
  rw [assignment_eq, parseLine, if_neg (by simp [hne, hhead, h35])]
  simp only [hpos, hkey, hvalue, htrim, List.length_append, List.length_cons]
  simp [trim, isBlank]

-- The file that sets the three fields, one line each, with the given text after " = ".
def assignments (values : Field → Bytes) : Bytes :=
  ([Field.cert, .key, .ca].map fun k => assignment k (values k)).flatMap (· ++ [10])

theorem lastValue_names (a b c : Bytes) (k : Field) :
    lastValue [(Field.cert.name, a), (Field.key.name, b), (Field.ca.name, c)] k.name =
      some ((TLSConfig.mk a b c).field k) := by
  cases k <;> rfl

theorem loadFromFile_assignments (configPath : String) (values : Field → Bytes)
    (h : ∀ k, 10 ∉ values k) :
    loadFromFile configPath (some (assignments values)) =
      let c : TLSConfig := ⟨unquote (trim (values .cert)), unquote (trim (values .key)),
        unquote (trim (values .ca))⟩
      if c.certFile = [] ∨ c.keyFile = [] ∨ c.caFile = [] then .error missingFields else .ok c := by
  have hlines : ∀ line ∈ [Field.cert, .key, .ca].map fun k => assignment k (values k),
      10 ∉ line := by
    simp only [List.mem_map]
    rintro _ ⟨k, -, rfl⟩
    simp [assignment_eq, k.name_facts.2.1, h k]
  have hc : lastAssignments ([Field.cert, .key, .ca].map fun k => assignment k (values k)) =
      ⟨unquote (trim (values .cert)), unquote (trim (values .key)), unquote (trim (values .ca))⟩ :=
    ext_field fun k => by
      rw [field_lastAssignments]
      simp only [List.map_cons, List.map_nil, List.filterMap_cons, parseLine_assignment,
        List.filterMap_nil, lastValue_names, Option.getD_some]
  rw [loadFromFile_some, assignments, readLines_flatMap _ hlines, hc]

-- The value of a quoted path.
def quoted (path : Bytes) : Bytes := 34 :: path ++ [34]

theorem unquote_trim_quoted (path : Bytes) : unquote (trim (quoted path)) = path := by
  have ht : trim (quoted path) = quoted path := by
    simp [trim, quoted, isBlank, List.rdropWhile_concat_neg]
  rw [ht]
  simp [unquote, quoted, List.getLast?_cons, List.getLast?_append]

-- The file an operator writes: `cert_file = "<path>"`, and the same for the key and the CA.
def render (c : TLSConfig) : Bytes := assignments fun k => quoted (c.field k)

-- Reading back what `render` writes gives the same paths, when none is empty or holds a newline.
theorem loadFromFile_render (configPath : String) (c : TLSConfig)
    (h : ∀ k, c.field k ≠ [] ∧ 10 ∉ c.field k) :
    loadFromFile configPath (some (render c)) = .ok c := by
  have hq : ∀ k, 10 ∉ quoted (c.field k) := fun k => by simp [quoted, (h k).2]
  rw [render, loadFromFile_assignments _ _ hq]
  obtain ⟨certFile, keyFile, caFile⟩ := c
  have hne : certFile ≠ [] ∧ keyFile ≠ [] ∧ caFile ≠ [] := ⟨(h .cert).1, (h .key).1, (h .ca).1⟩
  simp [unquote_trim_quoted, field, hne]

-- The same file saved with CRLF line endings: every line's value ends in '\r'.
def renderCrlf (c : TLSConfig) : Bytes := assignments fun k => quoted (c.field k) ++ [13]

theorem unquote_trim_crlf (path : Bytes) :
    unquote (trim (quoted path ++ [13])) = quoted path ++ [13] := by
  have ht : trim (quoted path ++ [13]) = quoted path ++ [13] := by
    simp [trim, quoted, isBlank, List.rdropWhile_concat_neg]
  rw [ht]
  simp [unquote, quoted, List.getLast?_cons, List.getLast?_append]

-- '\r' is not a blank to trim, so every path of the CRLF file comes back quoted, then '\r'.
theorem loadFromFile_renderCrlf (configPath : String) (c : TLSConfig) (h : ∀ k, 10 ∉ c.field k) :
    loadFromFile configPath (some (renderCrlf c)) =
      .ok ⟨quoted c.certFile ++ [13], quoted c.keyFile ++ [13], quoted c.caFile ++ [13]⟩ := by
  have hq : ∀ k, 10 ∉ quoted (c.field k) ++ [13] := fun k => by simp [quoted, h k]
  rw [renderCrlf, loadFromFile_assignments _ _ hq]
  simp only [unquote_trim_crlf]
  simp [field]

theorem startTls_renderCrlf (fileExists : Bytes → Bool) (tlsConfigFile : String) (c : TLSConfig)
    (h : ∀ k, 10 ∉ c.field k) : startTls fileExists tlsConfigFile (some (renderCrlf c)) ≠ .ok c := by
  rw [startTls, loadFromFile_renderCrlf _ _ h]
  dsimp only
  split
  · intro hc
    have hlen := congrArg (fun c : TLSConfig => c.certFile.length) (Except.ok.inj hc)
    simp [quoted] at hlen
    omega
  · exact fun hc => nomatch hc

-- What the reader accepts, and what it makes of the file written from a configuration.
theorem load_from_file_reads_back (configPath : String) (c : TLSConfig)
    (h : ∀ k, c.field k ≠ [] ∧ 10 ∉ c.field k) :
    (∀ content c', loadFromFile configPath (some content) = .ok c' → ∀ k,
      c'.field k ≠ [] ∧ 10 ∉ c'.field k ∧
        ∃ line ∈ readLines content, parseLine line = some (k.name, c'.field k)) ∧
      loadFromFile configPath (some (render c)) = .ok c ∧
      loadFromFile configPath (some (renderCrlf c)) =
        .ok ⟨quoted c.certFile ++ [13], quoted c.keyFile ++ [13], quoted c.caFile ++ [13]⟩ ∧
      ∀ fileExists, startTls fileExists configPath (some (renderCrlf c)) ≠ .ok c :=
  ⟨fun _ _ hok => loadFromFile_ok hok, loadFromFile_render configPath c h,
    loadFromFile_renderCrlf configPath c fun k => (h k).2,
    fun fileExists => startTls_renderCrlf fileExists configPath c fun k => (h k).2⟩

theorem load_from_file_reads_back_pem :
    let c : TLSConfig := ⟨bytesOf "cert.pem", bytesOf "key.pem", bytesOf "ca.pem"⟩
    (∀ k, c.field k ≠ [] ∧ 10 ∉ c.field k) ∧
      (∀ content c', loadFromFile "tls.conf" (some content) = .ok c' → ∀ k,
        c'.field k ≠ [] ∧ 10 ∉ c'.field k ∧
          ∃ line ∈ readLines content, parseLine line = some (k.name, c'.field k)) ∧
      loadFromFile "tls.conf" (some (render c)) = .ok c ∧
      loadFromFile "tls.conf" (some (renderCrlf c)) =
        .ok ⟨quoted c.certFile ++ [13], quoted c.keyFile ++ [13], quoted c.caFile ++ [13]⟩ ∧
      ∀ fileExists, startTls fileExists "tls.conf" (some (renderCrlf c)) ≠ .ok c :=
  have hc : ∀ k, (TLSConfig.mk (bytesOf "cert.pem") (bytesOf "key.pem") (bytesOf "ca.pem")).field k ≠ [] ∧
      10 ∉ (TLSConfig.mk (bytesOf "cert.pem") (bytesOf "key.pem") (bytesOf "ca.pem")).field k :=
    fun k => by cases k <;> decide
  ⟨hc, load_from_file_reads_back "tls.conf" _ hc⟩

end TLSConfig

end DistCache.Security
