import Mathlib.Data.List.GetD
import DistCache.Security.AuthToken

namespace DistCache.Security

open TokenValidator

-- The metadata is the list of the request's headers in order.

-- `Operation`.
inductive Operation
  | read
  | write
  | admin
  | metrics
deriving DecidableEq, Repr

-- The codes `REQUIRE_AUTH` ends a call with.
inductive AuthCode
  | unauthenticated
  | permissionDenied
deriving DecidableEq, Repr

structure AuthStatus where
  code : AuthCode
  message : String
deriving DecidableEq, Repr

-- `AuthManager`: the validator it checks tokens with.
structure AuthManager where
  validator : TokenValidator

namespace AuthManager

-- `extract_token`: the `authorization` header, without its `Bearer ` prefix.
def extractToken (metadata : List (Bytes × Bytes)) : Option Bytes :=
  (metadata.lookup (bytesOf "authorization")).map fun authValue =>
    let bearerPrefix := bytesOf "Bearer "
    if bearerPrefix.length < authValue.length ∧ authValue.take bearerPrefix.length = bearerPrefix
    then authValue.drop bearerPrefix.length
    else authValue

def authenticate (m : AuthManager) (metadata : List (Bytes × Bytes)) (nowMs : Int) :
    Option AuthToken :=
  (extractToken metadata).bind fun tokenStr => m.validator.validate tokenStr nowMs

-- `authorize`: reading for every role, writing for `admin` and `user`, administration for `admin`.
def authorize (token : AuthToken) : Operation → Bool
  | .read => true
  | .write => token.role == bytesOf "admin" || token.role == bytesOf "user"
  | .admin => token.role == bytesOf "admin"
  | .metrics => true

-- `REQUIRE_AUTH(context, auth_manager, operation)`: `ok` lets the handler go on.
def requireAuth (m : AuthManager) (metadata : List (Bytes × Bytes)) (nowMs : Int)
    (operation : Operation) : Except AuthStatus Unit :=
  match m.authenticate metadata nowMs with
  | none => .error ⟨.unauthenticated, "Authentication required"⟩
  | some token =>
    if authorize token operation then .ok ()
    else .error ⟨.permissionDenied, "Insufficient permissions"⟩

theorem requireAuth_eq_ok {m : AuthManager} {metadata : List (Bytes × Bytes)} {nowMs : Int}
    {operation : Operation} :
    m.requireAuth metadata nowMs operation = .ok () ↔
      ∃ token, m.authenticate metadata nowMs = some token ∧ authorize token operation = true := by
  unfold requireAuth
  split
  · simp_all
  · split_ifs <;> simp_all

-- A token is base64 text, so it never starts with `Bearer `.

theorem space_ne_base64Char (x : Int) : (32 : UInt8) ≠ base64Char x := by
  have key : ∀ i : Fin 64, (32 : UInt8) ≠ base64Chars.getD i 0 := by decide
  by_cases h : x.toNat < 64
  · exact key ⟨_, h⟩
  · rw [base64Char, List.getD_eq_default _ _ (by rw [show base64Chars.length = 64 from rfl]; omega)]
    decide

theorem space_not_mem_encodeGroups : ∀ input : Bytes, 32 ∉ encodeGroups input
  | a :: b :: c :: rest => by
    simp [encodeGroups, encodeGroup, space_ne_base64Char, space_not_mem_encodeGroups rest]
  | [] => by simp [encodeGroups, encodeTail]
  | [a] => by simp [encodeGroups, encodeTail, space_ne_base64Char]
  | [a, b] => by simp [encodeGroups, encodeTail, space_ne_base64Char]

theorem space_not_mem_generate (v : TokenValidator) (userId role : Bytes)
    (validitySeconds nowMs : Int) : 32 ∉ v.generate userId role validitySeconds nowMs := by
  rw [generate, base64Encode_eq]
  exact space_not_mem_encodeGroups _

theorem generate_ne_nil (v : TokenValidator) (userId role : Bytes) (validitySeconds nowMs : Int) :
    v.generate userId role validitySeconds nowMs ≠ [] := fun h => by
  have hd := base64Decode_generate v userId role validitySeconds nowMs
  rw [h] at hd
  simp [base64Decode, decodeLoop] at hd

theorem extractToken_bearer {metadata : List (Bytes × Bytes)} {token : Bytes} (h : token ≠ [])
    (hm : metadata.lookup (bytesOf "authorization") = some (bytesOf "Bearer " ++ token)) :
    extractToken metadata = some token := by
  have hl : 0 < token.length := List.length_pos.mpr h
  simp [extractToken, hm, hl]

-- A header that holds no space is never mistaken for one with the prefix.
theorem extractToken_bare {metadata : List (Bytes × Bytes)} {token : Bytes} (h : 32 ∉ token)
    (hm : metadata.lookup (bytesOf "authorization") = some token) :
    extractToken metadata = some token := by
  have hp : token.take (bytesOf "Bearer ").length ≠ bytesOf "Bearer " := fun e =>
    h (List.mem_of_mem_take (e ▸ (by decide : (32 : UInt8) ∈ bytesOf "Bearer ")))
  simp [extractToken, hm, hp]

-- A token `generate` issued passes `REQUIRE_AUTH` for the operations its role grants.
theorem requireAuth_generate (m : AuthManager) {userId role : Bytes} (hu : 58 ∉ userId)
    (hr : 58 ∉ role) (validitySeconds nowMs : Int)
    (hi : -2 ^ 63 ≤ nowMs.tdiv 1000 ∧ nowMs.tdiv 1000 < 2 ^ 63)
    (he : -2 ^ 63 ≤ nowMs.tdiv 1000 + validitySeconds ∧ nowMs.tdiv 1000 + validitySeconds < 2 ^ 63)
    (withBearer : Bool) {metadata : List (Bytes × Bytes)}
    (hm : metadata.lookup (bytesOf "authorization") =
      some ((if withBearer then bytesOf "Bearer " else []) ++
        m.validator.generate userId role validitySeconds nowMs))
    (nowMs' : Int) (operation : Operation) :
    m.requireAuth metadata nowMs' operation =
      if (nowMs.tdiv 1000 + validitySeconds) * 1000 < nowMs' then
        .error ⟨.unauthenticated, "Authentication required"⟩
      else if authorize ⟨userId, role, nowMs.tdiv 1000, nowMs.tdiv 1000 + validitySeconds⟩ operation
      then .ok ()
      else .error ⟨.permissionDenied, "Insufficient permissions"⟩ := by
  have hx : extractToken metadata =
      some (m.validator.generate userId role validitySeconds nowMs) := by
    cases withBearer with
    | false => exact extractToken_bare (space_not_mem_generate _ _ _ _ _) (by simpa using hm)
    | true => exact extractToken_bearer (generate_ne_nil _ _ _ _ _) (by simpa using hm)
  rw [requireAuth, authenticate, hx, Option.some_bind,
    validate_of_decoded hu hr hi he (base64Decode_generate _ _ _ _ _)]
  split_ifs with hexp hauth
  · rfl
  · simp only [hauth, if_true]
  · simp [hauth]

theorem requireAuth_generate_readonly :
    let m : AuthManager := ⟨⟨bytesOf "secret",
      ⟨fun _ data => List.replicate 32 data.length.toUInt8, fun _ _ => List.length_replicate _ _⟩⟩⟩
    58 ∉ bytesOf "bob" ∧ 58 ∉ bytesOf "readonly" ∧
      (-2 ^ 63 ≤ (1700000000123 : Int).tdiv 1000 ∧ (1700000000123 : Int).tdiv 1000 < 2 ^ 63) ∧
      (-2 ^ 63 ≤ (1700000000123 : Int).tdiv 1000 + 60 ∧
        (1700000000123 : Int).tdiv 1000 + 60 < 2 ^ 63) ∧
      [(bytesOf "authorization", bytesOf "Bearer " ++
          m.validator.generate (bytesOf "bob") (bytesOf "readonly") 60 1700000000123)].lookup
          (bytesOf "authorization") =
        some ((if true then bytesOf "Bearer " else []) ++
          m.validator.generate (bytesOf "bob") (bytesOf "readonly") 60 1700000000123) ∧
      m.requireAuth [(bytesOf "authorization", bytesOf "Bearer " ++
          m.validator.generate (bytesOf "bob") (bytesOf "readonly") 60 1700000000123)]
          1700000030000 .write =
        if ((1700000000123 : Int).tdiv 1000 + 60) * 1000 < 1700000030000 then
          .error ⟨.unauthenticated, "Authentication required"⟩
        else if authorize ⟨bytesOf "bob", bytesOf "readonly", (1700000000123 : Int).tdiv 1000,
            (1700000000123 : Int).tdiv 1000 + 60⟩ .write
        then .ok ()
        else .error ⟨.permissionDenied, "Insufficient permissions"⟩ :=
  ⟨by decide, by decide, by decide, by decide, by simp,
    requireAuth_generate _ (by decide) (by decide) _ _ (by decide) (by decide) true (by simp) _ _⟩

end AuthManager

end DistCache.Security
