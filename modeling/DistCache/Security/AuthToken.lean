import DistCache.Persistence.SnapshotCodec

namespace DistCache.Security

open Persistence

-- The base64 loops' `int` accumulator: `<<` wraps to 32 bits, `>>` is floor division.

namespace TokenValidator

-- `base64_chars`.
def base64Chars : Bytes := bytesOf "ABCDEFGHIJKLMNOPQRSTUVWXYZabcdefghijklmnopqrstuvwxyz0123456789+/"

-- `base64_chars[i]`; the encoder only computes indices below 64.
def base64Char (i : Int) : UInt8 := base64Chars.getD i.toNat 0

-- `while (valb >= 0) { output.push_back(base64_chars[(val >> valb) & 0x3F]); valb -= 6; }`
def emitSextets (val : Int) : Nat → Int → Bytes × Int
  | 0, valb => ([], valb)
  | fuel + 1, valb =>
    if 0 ≤ valb then
      let r := emitSextets val fuel (valb - 6)
      (base64Char (val / 2 ^ valb.toNat % 64) :: r.1, r.2)
    else ([], valb)

-- One turn of the loop over the input: `val = (val << 8) + c; valb += 8;`, then the inner loop.
def encodeStep (acc : Bytes × Int × Int) (c : UInt8) : Bytes × Int × Int :=
  let val := toInt32 (acc.2.1 * 256) + c.toNat
  let valb := acc.2.2 + 8
  let e := emitSextets val (valb.toNat / 6 + 1) valb
  (acc.1 ++ e.1, val, e.2)

-- After the loop: the last bits, then `=` up to a multiple of four characters.
def encodeFinish (r : Bytes × Int × Int) : Bytes :=
  let output :=
    if -6 < r.2.2 then r.1 ++ [base64Char (toInt32 (r.2.1 * 256) / 2 ^ (r.2.2 + 8).toNat % 64)]
    else r.1
  output ++ List.replicate ((4 - output.length % 4) % 4) 61

def base64Encode (input : Bytes) : Bytes := encodeFinish (input.foldl encodeStep ([], 0, -6))

-- `decode_table`.
def decodeTable : List Int := [
    -1, -1, -1, -1, -1, -1, -1, -1, -1, -1, -1, -1, -1, -1, -1, -1,
    -1, -1, -1, -1, -1, -1, -1, -1, -1, -1, -1, -1, -1, -1, -1, -1,
    -1, -1, -1, -1, -1, -1, -1, -1, -1, -1, -1, 62, -1, -1, -1, 63,
    52, 53, 54, 55, 56, 57, 58, 59, 60, 61, -1, -1, -1, -1, -1, -1,
    -1, 0, 1, 2, 3, 4, 5, 6, 7, 8, 9, 10, 11, 12, 13, 14,
    15, 16, 17, 18, 19, 20, 21, 22, 23, 24, 25, -1, -1, -1, -1, -1,
    -1, 26, 27, 28, 29, 30, 31, 32, 33, 34, 35, 36, 37, 38, 39, 40,
    41, 42, 43, 44, 45, 46, 47, 48, 49, 50, 51, -1, -1, -1, -1, -1,
    -1, -1, -1, -1, -1, -1, -1, -1, -1, -1, -1, -1, -1, -1, -1, -1,
    -1, -1, -1, -1, -1, -1, -1, -1, -1, -1, -1, -1, -1, -1, -1, -1,
    -1, -1, -1, -1, -1, -1, -1, -1, -1, -1, -1, -1, -1, -1, -1, -1,
    -1, -1, -1, -1, -1, -1, -1, -1, -1, -1, -1, -1, -1, -1, -1, -1,
    -1, -1, -1, -1, -1, -1, -1, -1, -1, -1, -1, -1, -1, -1, -1, -1,
    -1, -1, -1, -1, -1, -1, -1, -1, -1, -1, -1, -1, -1, -1, -1, -1,
    -1, -1, -1, -1, -1, -1, -1, -1, -1, -1, -1, -1, -1, -1, -1, -1,
    -1, -1, -1, -1, -1, -1, -1, -1, -1, -1, -1, -1, -1, -1, -1, -1]

-- The loop of `base64_decode`: it stops at the first byte outside the alphabet, `=` included.
def decodeLoop : Bytes → Int → Int → Bytes
  | [], _, _ => []
  | c :: cs, val, valb =>
    let d := decodeTable.getD c.toNat (-1)
    if d = -1 then []
    else
      let val := toInt32 (val * 64) + d
      if 0 ≤ valb + 6 then
        (val / 2 ^ (valb + 6).toNat % 256).toNat.toUInt8 :: decodeLoop cs val (valb + 6 - 8)
      else decodeLoop cs val (valb + 6)

def base64Decode (input : Bytes) : Bytes := decodeLoop input 0 (-8)

-- The encoder read group by group: three bytes give four characters.

def encodeGroup (a b c : UInt8) : Bytes :=
  [base64Char ((a.toNat : Int) / 4), base64Char ((a.toNat : Int) % 4 * 16 + (b.toNat : Int) / 16),
    base64Char ((b.toNat : Int) % 16 * 4 + (c.toNat : Int) / 64), base64Char ((c.toNat : Int) % 64)]

def encodeTail : Bytes → Bytes
  | [a] => [base64Char ((a.toNat : Int) / 4), base64Char ((a.toNat : Int) % 4 * 16), 61, 61]
  | [a, b] =>
    [base64Char ((a.toNat : Int) / 4), base64Char ((a.toNat : Int) % 4 * 16 + (b.toNat : Int) / 16),
      base64Char ((b.toNat : Int) % 16 * 4), 61]
  | _ => []

def encodeGroups : Bytes → Bytes
  | a :: b :: c :: rest => encodeGroup a b c ++ encodeGroups rest
  | rest => encodeTail rest

theorem foldl_encodeStep_group (out : Bytes) (val : Int) (a b c : UInt8) (rest : Bytes) :
    (a :: b :: c :: rest).foldl encodeStep (out, val, -6) =
      rest.foldl encodeStep (out ++ encodeGroup a b c,
        toInt32 ((toInt32 ((toInt32 (val * 256) + a.toNat) * 256) + b.toNat) * 256) + c.toNat, -6) := by
  have ha : a.toNat < 256 := a.toNat_lt_size
  have hb : b.toNat < 256 := b.toNat_lt_size
  have hc : c.toNat < 256 := c.toNat_lt_size
  set v₁ := toInt32 (val * 256) + a.toNat
  set v₂ := toInt32 (v₁ * 256) + b.toNat
  set v₃ := toInt32 (v₂ * 256) + c.toNat
  have e₁ : v₁ / 4 % 64 = (a.toNat : Int) / 4 := by simp only [v₁, toInt32]; omega
  have e₂ : v₂ / 16 % 64 = (a.toNat : Int) % 4 * 16 + (b.toNat : Int) / 16 := by
    simp only [v₂, v₁, toInt32]; omega
  have e₃ : v₃ / 64 % 64 = (b.toNat : Int) % 16 * 4 + (c.toNat : Int) / 64 := by
    simp only [v₃, v₂, v₁, toInt32]; omega
  have e₄ : v₃ % 64 = (c.toNat : Int) % 64 := by simp only [v₃, toInt32]; omega
  simp [encodeStep, emitSextets, encodeGroup, ← e₁, ← e₂, ← e₃, ← e₄]

-- What is left at the end: one or two bytes after the last full group.
theorem encodeFinish_tail (out : Bytes) (hout : out.length % 4 = 0) (val : Int) :
    ∀ rest : Bytes, rest.length < 3 →
      encodeFinish (rest.foldl encodeStep (out, val, -6)) = out ++ encodeTail rest
  | [], _ => by simp [encodeFinish, hout, encodeTail]
  | [a], _ => by
    have ha : a.toNat < 256 := a.toNat_lt_size
    set v₁ := toInt32 (val * 256) + a.toNat
    have e₁ : v₁ / 4 % 64 = (a.toNat : Int) / 4 := by simp only [v₁, toInt32]; omega
    have e₂ : toInt32 (v₁ * 256) / 16 % 64 = (a.toNat : Int) % 4 * 16 := by
      simp only [v₁, toInt32]; omega
    have hp : (4 - (out.length + 2) % 4) % 4 = 2 := by omega
    simp [encodeStep, emitSextets, encodeFinish, encodeTail, ← e₁, ← e₂, hp]
  | [a, b], _ => by
    have ha : a.toNat < 256 := a.toNat_lt_size
    have hb : b.toNat < 256 := b.toNat_lt_size
    set v₁ := toInt32 (val * 256) + a.toNat
    set v₂ := toInt32 (v₁ * 256) + b.toNat
    have e₁ : v₁ / 4 % 64 = (a.toNat : Int) / 4 := by simp only [v₁, toInt32]; omega
    have e₂ : v₂ / 16 % 64 = (a.toNat : Int) % 4 * 16 + (b.toNat : Int) / 16 := by
      simp only [v₂, v₁, toInt32]; omega
    have e₃ : toInt32 (v₂ * 256) / 64 % 64 = (b.toNat : Int) % 16 * 4 := by
      simp only [v₂, toInt32]; omega
    have hp : (4 - (out.length + 3) % 4) % 4 = 1 := by omega
    simp [encodeStep, emitSextets, encodeFinish, encodeTail, ← e₁, ← e₂, ← e₃, hp]
  | _ :: _ :: _ :: _, h => absurd h (by simp)

theorem encodeFinish_foldl (out : Bytes) (hout : out.length % 4 = 0) (val : Int) :
    ∀ input : Bytes, encodeFinish (input.foldl encodeStep (out, val, -6)) = out ++ encodeGroups input
  | a :: b :: c :: rest => by
    rw [foldl_encodeStep_group, encodeFinish_foldl _ (by simp [encodeGroup]; omega) _ rest,
      encodeGroups, List.append_assoc]
  | [] => encodeFinish_tail out hout val [] (by decide)
  | [a] => encodeFinish_tail out hout val [a] (by simp)
  | [a, b] => encodeFinish_tail out hout val [a, b] (by simp)

theorem base64Encode_eq (input : Bytes) : base64Encode input = encodeGroups input :=
  encodeFinish_foldl [] rfl 0 input

theorem decodeTable_getD_base64Chars :
    ∀ i : Fin 64, decodeTable.getD (base64Chars.getD i 0).toNat (-1) = i := by
  decide

-- `decode_table` undoes `base64_chars`.
theorem decodeTable_base64Char {x : Int} (h₀ : 0 ≤ x) (h₁ : x < 64) :
    decodeTable.getD (base64Char x).toNat (-1) = x := by
  have h := decodeTable_getD_base64Chars ⟨x.toNat, by omega⟩
  simp only [Fin.val_mk] at h
  rw [base64Char, h, Int.toNat_of_nonneg h₀]

theorem toUInt8_toNat_of_eq {x : Int} {a : UInt8} (h : x = a.toNat) : x.toNat.toUInt8 = a := by
  subst h
  exact UInt8.toNat.inj (UInt8.toNat_ofNat_of_lt a.toNat_lt_size)

-- One turn of the decoder on a character of the alphabet.
theorem decodeLoop_base64Char {x : Int} (h₀ : 0 ≤ x) (h₁ : x < 64) (cs : Bytes) (val valb : Int) :
    decodeLoop (base64Char x :: cs) val valb =
      if 0 ≤ valb + 6 then
        ((toInt32 (val * 64) + x) / 2 ^ (valb + 6).toNat % 256).toNat.toUInt8 ::
          decodeLoop cs (toInt32 (val * 64) + x) (valb + 6 - 8)
      else decodeLoop cs (toInt32 (val * 64) + x) (valb + 6) := by
  rw [decodeLoop, decodeTable_base64Char h₀ h₁, if_neg (by omega)]

theorem decodeLoop_group (a b c : UInt8) (rest : Bytes) (val : Int) :
    ∃ val', decodeLoop (encodeGroup a b c ++ rest) val (-8) =
      a :: b :: c :: decodeLoop rest val' (-8) := by
  have ha : a.toNat < 256 := a.toNat_lt_size
  have hb : b.toNat < 256 := b.toNat_lt_size
  have hc : c.toNat < 256 := c.toNat_lt_size
  simp only [encodeGroup, List.cons_append, List.nil_append]
  rw [decodeLoop_base64Char (by omega) (by omega), if_neg (by decide),
    decodeLoop_base64Char (by omega) (by omega), if_pos (by decide),
    decodeLoop_base64Char (by omega) (by omega), if_pos (by decide),
    decodeLoop_base64Char (by omega) (by omega), if_pos (by decide)]
  simp only [Int.reduceAdd, Int.reduceSub, Int.reduceToNat, List.cons.injEq, exists_and_left]
  refine ⟨toUInt8_toNat_of_eq ?_, toUInt8_toNat_of_eq ?_, toUInt8_toNat_of_eq ?_, _, rfl⟩ <;>
    simp only [toInt32] <;> omega

theorem decodeLoop_pad (cs : Bytes) (val valb : Int) : decodeLoop (61 :: cs) val valb = [] := by
  rw [decodeLoop, if_pos (by decide)]

theorem decodeLoop_tail (val : Int) :
    ∀ rest : Bytes, rest.length < 3 → decodeLoop (encodeTail rest) val (-8) = rest
  | [], _ => rfl
  | [a], _ => by
    have ha : a.toNat < 256 := a.toNat_lt_size
    simp only [encodeTail]
    rw [decodeLoop_base64Char (by omega) (by omega), if_neg (by decide),
      decodeLoop_base64Char (by omega) (by omega), if_pos (by decide), decodeLoop_pad]
    simp only [Int.reduceAdd, Int.reduceToNat, List.cons.injEq, and_true]
    exact toUInt8_toNat_of_eq (by simp only [toInt32]; omega)
  | [a, b], _ => by
    have ha : a.toNat < 256 := a.toNat_lt_size
    have hb : b.toNat < 256 := b.toNat_lt_size
    simp only [encodeTail]
    rw [decodeLoop_base64Char (by omega) (by omega), if_neg (by decide),
      decodeLoop_base64Char (by omega) (by omega), if_pos (by decide),
      decodeLoop_base64Char (by omega) (by omega), if_pos (by decide), decodeLoop_pad]
    simp only [Int.reduceAdd, Int.reduceSub, Int.reduceToNat, List.cons.injEq, and_true]
    exact ⟨toUInt8_toNat_of_eq (by simp only [toInt32]; omega),
      toUInt8_toNat_of_eq (by simp only [toInt32]; omega)⟩
  | _ :: _ :: _ :: _, h => absurd h (by simp)

theorem decodeLoop_encodeGroups : ∀ (input : Bytes) (val : Int),
    decodeLoop (encodeGroups input) val (-8) = input
  | a :: b :: c :: rest, val => by
    obtain ⟨val', h⟩ := decodeLoop_group a b c (encodeGroups rest) val
    rw [encodeGroups, h, decodeLoop_encodeGroups rest val']
  | [], val => decodeLoop_tail val [] (by simp)
  | [a], val => decodeLoop_tail val [a] (by simp)
  | [a, b], val => decodeLoop_tail val [a, b] (by simp)

-- `base64_decode` gives back every byte string `base64_encode` was given, whatever bytes it holds.
theorem base64_round_trip (input : Bytes) : base64Decode (base64Encode input) = input := by
  rw [base64Decode, base64Encode_eq, decodeLoop_encodeGroups]

end TokenValidator

-- A token is `base64(user_id:role:issued_ts:expires_ts:signature)`; the hash is a parameter.

-- HMAC-SHA256 as `compute_signature` calls it: a 32-byte digest of the data under the key.
structure Hmac where
  digest : Bytes → Bytes → Bytes
  length_digest : ∀ key data, (digest key data).length = 32

-- `AuthToken`, the times in seconds.
structure AuthToken where
  userId : Bytes
  role : Bytes
  issuedAt : Int
  expiresAt : Int
deriving DecidableEq, Repr

-- `TokenValidator`: its secret, and the hash it signs with.
structure TokenValidator where
  secret : Bytes
  hmac : Hmac

namespace TokenValidator

-- The lowercase hex digit of `n < 16`.
def hexDigit (n : Nat) : UInt8 := if n < 10 then (48 + n).toUInt8 else (87 + n).toUInt8

-- `compute_signature`: the digest, two hex digits a byte (`std::hex`, `setw(2)`, `setfill('0')`).
def computeSignature (v : TokenValidator) (data : Bytes) : Bytes :=
  (v.hmac.digest v.secret data).flatMap fun b => [hexDigit (b.toNat / 16), hexDigit (b.toNat % 16)]

-- `user_id:role:issued_ts:expires_ts`.
def payload (userId role issuedTs expiresTs : Bytes) : Bytes :=
  userId ++ bytesOf ":" ++ role ++ bytesOf ":" ++ issuedTs ++ bytesOf ":" ++ expiresTs

def generate (v : TokenValidator) (userId role : Bytes) (validitySeconds nowMs : Int) : Bytes :=
  let issuedTs := nowMs.tdiv 1000
  let expiresTs := issuedTs + validitySeconds
  let payloadStr := payload userId role (bytesOf (toString issuedTs)) (bytesOf (toString expiresTs))
  base64Encode (payloadStr ++ bytesOf ":" ++ v.computeSignature payloadStr)

-- `std::getline(ss, field, delim)`: none when the stream is already at its end.
def getline (delim : UInt8) (s : Bytes) : Option (Bytes × Bytes) :=
  if s.isEmpty then none else some (s.takeWhile (· != delim), (s.dropWhile (· != delim)).drop 1)

-- `std::stoll`: none (an exception) when there is no digit or the value does not fit.
def stoll (s : Bytes) : Option Int :=
  let s := s.dropWhile IStream.isSpace
  let signed : Bool × Bytes := match s with
    | 45 :: r => (true, r)
    | 43 :: r => (false, r)
    | r => (false, r)
  let ds := signed.2.takeWhile IStream.isDigit
  let n : Int := IStream.decimalValue ds
  let value := if signed.1 then -n else n
  if ds.isEmpty then none
  else if -2 ^ 63 ≤ value ∧ value < 2 ^ 63 then some value
  else none

def validate (v : TokenValidator) (tokenString : Bytes) (nowMs : Int) : Option AuthToken := do
  let decoded := base64Decode tokenString
  let (userId, s) ← getline 58 decoded
  let (role, s) ← getline 58 s
  let (issuedTsStr, s) ← getline 58 s
  let (expiresTsStr, s) ← getline 58 s
  let (signature, _) ← getline 10 s
  if signature ≠ v.computeSignature (payload userId role issuedTsStr expiresTsStr) then none
  else
    let issuedTs ← stoll issuedTsStr
    let expiresTs ← stoll expiresTsStr
    if expiresTs * 1000 < nowMs then none
    else some ⟨userId, role, issuedTs, expiresTs⟩

-- `getline` gives the bytes up to the first delimiter, or the whole rest of the stream.
theorem getline_cases {delim : UInt8} {s field rest : Bytes}
    (h : getline delim s = some (field, rest)) :
    delim ∉ field ∧ (s = field ++ delim :: rest ∨ (s = field ∧ rest = [])) := by
  unfold getline at h
  split_ifs at h
  obtain ⟨rfl, rfl⟩ := Prod.mk.inj (Option.some.inj h)
  refine ⟨fun hm => by simpa using List.mem_takeWhile_imp hm, ?_⟩
  have hs := List.takeWhile_append_dropWhile (· != delim) s
  cases hd : s.dropWhile (· != delim) with
  | nil =>
    rw [hd, List.append_nil] at hs
    exact .inr ⟨hs.symm, rfl⟩
  | cons x xs =>
    have hx := List.head_dropWhile_not (· != delim) s (by simp [hd])
    simp only [hd, List.head_cons, bne_eq_false_iff_eq] at hx
    rw [hd, hx] at hs
    exact .inl hs.symm

theorem getline_append {delim : UInt8} {field : Bytes} (h : delim ∉ field) (rest : Bytes) :
    getline delim (field ++ delim :: rest) = some (field, rest) := by
  have hp : ∀ b ∈ field, (b != delim) = true := fun b hb => by
    simpa using fun e : b = delim => h (e ▸ hb)
  simp [getline, List.takeWhile_append_of_pos hp, List.dropWhile_append_of_pos hp]

theorem getline_of_not_mem {delim : UInt8} {s : Bytes} (hne : s ≠ []) (h : delim ∉ s) :
    getline delim s = some (s, []) := by
  have hp : ∀ b ∈ s, (b != delim) = true := fun b hb => by
    simpa using fun e : b = delim => h (e ▸ hb)
  simp [getline, hne, List.takeWhile_eq_self_iff.mpr hp, List.dropWhile_eq_nil_iff.mpr hp]

-- The rest of the stream is a part of it, with at most one delimiter fewer.
theorem getline_rest {delim : UInt8} {s field rest : Bytes}
    (h : getline delim s = some (field, rest)) :
    rest.Sublist s ∧ s.count delim ≤ rest.count delim + 1 := by
  obtain ⟨hf, rfl | ⟨rfl, rfl⟩⟩ := getline_cases h
  · refine ⟨(List.sublist_cons_self _ _).trans (List.sublist_append_right _ _), ?_⟩
    simp [List.count_eq_zero.mpr hf]
  · simp [List.count_eq_zero.mpr hf]

-- What a token `validate` accepts is made of.
theorem validate_eq_some {v : TokenValidator} {tokenString : Bytes} {nowMs : Int} {t : AuthToken}
    (h : v.validate tokenString nowMs = some t) :
    ∃ s₁ s₂ s₃ s₄ s₅ issuedTsStr expiresTsStr,
      getline 58 (base64Decode tokenString) = some (t.userId, s₁) ∧
      getline 58 s₁ = some (t.role, s₂) ∧
      getline 58 s₂ = some (issuedTsStr, s₃) ∧
      getline 58 s₃ = some (expiresTsStr, s₄) ∧
      getline 10 s₄ =
        some (v.computeSignature (payload t.userId t.role issuedTsStr expiresTsStr), s₅) ∧
      stoll issuedTsStr = some t.issuedAt ∧ stoll expiresTsStr = some t.expiresAt ∧
      nowMs ≤ t.expiresAt * 1000 := by
  simp only [validate, ne_eq, Option.bind_eq_bind, ite_not, Option.bind_eq_some,
    Option.ite_none_right_eq_some, Option.ite_none_left_eq_some, not_lt, Option.some.injEq,
    Prod.exists, exists_and_right] at h
  obtain ⟨u, s₁, h₁, r, s₂, h₂, i, s₃, h₃, e, s₄, h₄, _, ⟨s₅, h₅⟩, rfl, a, ha, b, hb, hn, rfl⟩ := h
  exact ⟨s₁, s₂, s₃, s₄, s₅, i, e, h₁, h₂, h₃, h₄, h₅, ha, hb, hn⟩

-- `std::stoll` reads back the decimal text of every `long long`.
theorem stoll_toString {x : Int} (h₀ : -2 ^ 63 ≤ x) (h₁ : x < 2 ^ 63) :
    stoll (bytesOf (toString x)) = some x := by
  obtain ⟨l, hl, hne, hd, hv⟩ := IStream.bytesOf_toString_int x
  obtain ⟨b, bs, rfl⟩ := List.exists_cons_of_ne_nil hne
  have hb := hd b (List.mem_cons_self _ _)
  simp only [IStream.isDigit, Bool.and_eq_true, decide_eq_true_eq] at hb
  have hsp : IStream.isSpace b = false := by
    simp only [IStream.isSpace, Bool.or_eq_false_iff, beq_eq_false_iff_ne, Bool.and_eq_false_iff,
      decide_eq_false_iff_not]
    omega
  have h45 : b ≠ 45 := fun e => absurd (e ▸ hb.1) (by decide)
  have h43 : b ≠ 43 := fun e => absurd (e ▸ hb.1) (by decide)
  have htake : List.takeWhile IStream.isDigit (b :: bs) = b :: bs :=
    List.takeWhile_eq_self_iff.mpr hd
  rw [hl]
  split_ifs with hx
  · have hdrop : List.dropWhile IStream.isSpace (45 :: b :: bs) = 45 :: b :: bs :=
      List.dropWhile_cons_of_neg (by decide)
    have hv' : (IStream.decimalValue (b :: bs) : Int) = -x := by omega
    simp [stoll, hdrop, htake, hv']
    omega
  · have hdrop : List.dropWhile IStream.isSpace (b :: bs) = b :: bs :=
      List.dropWhile_cons_of_neg (by simp [hsp])
    have hv' : (IStream.decimalValue (b :: bs) : Int) = x := by omega
    simp [stoll, hdrop, htake, hv', h45, h43]
    omega

-- Neither delimiter of the token is in the decimal text of a time.
theorem not_mem_toString {c : UInt8} (hc : c = 58 ∨ c = 10) (x : Int) :
    c ∉ bytesOf (toString x) := by
  obtain ⟨l, hl, -, hd, -⟩ := IStream.bytesOf_toString_int x
  rw [hl]
  intro hm
  rcases List.mem_append.mp hm with h | h
  · split_ifs at h <;> rcases hc with rfl | rfl <;> simp at h
  · have := hd c h
    rcases hc with rfl | rfl <;> exact absurd this (by decide)

theorem hexDigit_ne {c : UInt8} (hc : c = 58 ∨ c = 10) {n : Nat} (h : n < 16) :
    c ≠ hexDigit n := by
  have key : ∀ i : Fin 16, hexDigit i ≠ 58 ∧ hexDigit i ≠ 10 := by decide
  rcases hc with rfl | rfl
  exacts [(key ⟨n, h⟩).1.symm, (key ⟨n, h⟩).2.symm]

-- Nor is either in the hex signature.
theorem not_mem_computeSignature {c : UInt8} (hc : c = 58 ∨ c = 10) (v : TokenValidator)
    (data : Bytes) : c ∉ v.computeSignature data := by
  simp only [computeSignature, List.mem_flatMap, List.mem_cons, List.mem_singleton,
    List.not_mem_nil, or_false, not_exists, not_and, not_or]
  intro b _
  have hb : b.toNat < 256 := b.toNat_lt_size
  exact ⟨hexDigit_ne hc (by omega), hexDigit_ne hc (by omega)⟩

theorem computeSignature_ne_nil (v : TokenValidator) (data : Bytes) :
    v.computeSignature data ≠ [] := by
  have h := v.hmac.length_digest v.secret data
  cases hd : v.hmac.digest v.secret data with
  | nil => simp [hd] at h
  | cons b bs => simp [computeSignature, hd]

-- What `validate` decodes from a token `generate` issued: the five fields and the ':' between them.
theorem base64Decode_generate (v : TokenValidator) (userId role : Bytes)
    (validitySeconds nowMs : Int) :
    base64Decode (v.generate userId role validitySeconds nowMs) =
      userId ++ 58 :: (role ++ 58 :: (bytesOf (toString (nowMs.tdiv 1000)) ++
        58 :: (bytesOf (toString (nowMs.tdiv 1000 + validitySeconds)) ++ 58 ::
          v.computeSignature (payload userId role (bytesOf (toString (nowMs.tdiv 1000)))
            (bytesOf (toString (nowMs.tdiv 1000 + validitySeconds))))))) := by
  rw [generate, base64Decode, base64Encode_eq, decodeLoop_encodeGroups]
  simp only [payload, List.append_assoc, List.cons_append, List.nil_append,
    show bytesOf ":" = [58] from rfl]

theorem validate_of_decoded {v : TokenValidator} {tokenString userId role : Bytes}
    (hu : 58 ∉ userId) (hr : 58 ∉ role) {issuedTs expiresTs : Int}
    (hi : -2 ^ 63 ≤ issuedTs ∧ issuedTs < 2 ^ 63) (he : -2 ^ 63 ≤ expiresTs ∧ expiresTs < 2 ^ 63)
    (hd : base64Decode tokenString =
      userId ++ 58 :: (role ++ 58 :: (bytesOf (toString issuedTs) ++ 58 ::
        (bytesOf (toString expiresTs) ++ 58 :: v.computeSignature
          (payload userId role (bytesOf (toString issuedTs)) (bytesOf (toString expiresTs)))))))
    (nowMs : Int) :
    v.validate tokenString nowMs =
      if expiresTs * 1000 < nowMs then none else some ⟨userId, role, issuedTs, expiresTs⟩ := by
  simp only [validate, hd, Option.bind_eq_bind, Option.some_bind,
    getline_append hu, getline_append hr, getline_append (not_mem_toString (.inl rfl) _),
    getline_of_not_mem (computeSignature_ne_nil _ _) (not_mem_computeSignature (.inr rfl) _ _),
    ne_eq, not_true_eq_false, if_false, stoll_toString hi.1 hi.2, stoll_toString he.1 he.2]

-- A token `generate` issued reads back through `validate` as its claims, until it expires.
theorem validate_generate (v : TokenValidator) {userId role : Bytes} (hu : 58 ∉ userId)
    (hr : 58 ∉ role) (validitySeconds nowMs : Int)
    (hi : -2 ^ 63 ≤ nowMs.tdiv 1000 ∧ nowMs.tdiv 1000 < 2 ^ 63)
    (he : -2 ^ 63 ≤ nowMs.tdiv 1000 + validitySeconds ∧ nowMs.tdiv 1000 + validitySeconds < 2 ^ 63)
    (nowMs' : Int) :
    v.validate (v.generate userId role validitySeconds nowMs) nowMs' =
      if (nowMs.tdiv 1000 + validitySeconds) * 1000 < nowMs' then none
      else some ⟨userId, role, nowMs.tdiv 1000, nowMs.tdiv 1000 + validitySeconds⟩ :=
  validate_of_decoded hu hr hi he (base64Decode_generate v userId role validitySeconds nowMs) nowMs'

theorem validate_generate_alice :
    let v : TokenValidator := ⟨bytesOf "secret",
      ⟨fun _ data => List.replicate 32 data.length.toUInt8, fun _ _ => List.length_replicate _ _⟩⟩
    58 ∉ bytesOf "alice" ∧ 58 ∉ bytesOf "admin" ∧
      (-2 ^ 63 ≤ (1700000000123 : Int).tdiv 1000 ∧ (1700000000123 : Int).tdiv 1000 < 2 ^ 63) ∧
      (-2 ^ 63 ≤ (1700000000123 : Int).tdiv 1000 + 3600 ∧
        (1700000000123 : Int).tdiv 1000 + 3600 < 2 ^ 63) ∧
      v.validate (v.generate (bytesOf "alice") (bytesOf "admin") 3600 1700000000123) 1700000001000 =
        if ((1700000000123 : Int).tdiv 1000 + 3600) * 1000 < 1700000001000 then none
        else some ⟨bytesOf "alice", bytesOf "admin", (1700000000123 : Int).tdiv 1000,
          (1700000000123 : Int).tdiv 1000 + 3600⟩ :=
  ⟨by decide, by decide, by decide, by decide,
    validate_generate _ (by decide) (by decide) _ _ (by decide) (by decide) _⟩

-- A user id or role holding ':' never reads back as itself.
theorem validate_generate_colon (v : TokenValidator) {userId role : Bytes}
    (h : 58 ∈ userId ∨ 58 ∈ role) (validitySeconds nowMs nowMs' : Int) :
    ∀ t ∈ v.validate (v.generate userId role validitySeconds nowMs) nowMs',
      (t.userId, t.role) ≠ (userId, role) ∧ (10 ∈ userId ∨ 10 ∈ role) := by
  intro t ht
  obtain ⟨s₁, s₂, s₃, s₄, s₅, i, e, h₁, h₂, h₃, h₄, h₅, -⟩ := validate_eq_some ht
  refine ⟨fun hc => ?_, ?_⟩
  · obtain ⟨hu, hr⟩ := Prod.mk.inj hc
    rcases h with h | h
    · exact (getline_cases h₁).1 (hu ▸ h)
    · exact (getline_cases h₂).1 (hr ▸ h)
  · by_contra hn
    rw [not_or] at hn
    obtain ⟨r₁, c₁⟩ := getline_rest h₁
    obtain ⟨r₂, c₂⟩ := getline_rest h₂
    obtain ⟨r₃, c₃⟩ := getline_rest h₃
    obtain ⟨r₄, c₄⟩ := getline_rest h₄
    rw [base64Decode_generate] at r₁ c₁
    -- the decoded token holds no newline, and at least five ':'
    have hs₄ : 10 ∉ s₄ := fun hm => by
      simpa [hn, not_mem_toString, not_mem_computeSignature] using
        (r₄.trans (r₃.trans (r₂.trans r₁))).subset hm
    have hc : 1 ≤ userId.count 58 + role.count 58 := by
      rcases h with h | h <;> have := List.count_pos_iff.mpr h <;> omega
    simp only [List.count_append, List.count_cons_self] at c₁
    obtain ⟨-, hsig | ⟨hsig, -⟩⟩ := getline_cases h₅
    · exact hs₄ (hsig ▸ by simp)
    · have hs58 : 58 ∈ s₄ := List.count_pos_iff.mp (by omega)
      exact not_mem_computeSignature (.inl rfl) v _ (hsig ▸ hs58)

theorem validate_generate_colon_user :
    let v : TokenValidator := ⟨bytesOf "secret",
      ⟨fun _ data => List.replicate 32 data.length.toUInt8, fun _ _ => List.length_replicate _ _⟩⟩
    (58 ∈ bytesOf "al:ice" ∨ 58 ∈ bytesOf "admin") ∧
      ∀ t ∈ v.validate (v.generate (bytesOf "al:ice") (bytesOf "admin") 3600 1700000000123)
          1700000001000,
        (t.userId, t.role) ≠ (bytesOf "al:ice", bytesOf "admin") ∧
          (10 ∈ bytesOf "al:ice" ∨ 10 ∈ bytesOf "admin") :=
  ⟨by decide, validate_generate_colon _ (by decide) _ _ _⟩

end TokenValidator

end DistCache.Security
