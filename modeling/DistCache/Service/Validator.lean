import DistCache.Cache.Entry

namespace DistCache.Service

structure ValidationResult where
  valid : Bool
  errorMessage : String
deriving DecidableEq, Repr

def ValidationResult.ok : ValidationResult := ⟨true, ""⟩

def ValidationResult.error (msg : String) : ValidationResult := ⟨false, msg⟩

-- `Validator::Config` with its defaults.
structure Validator.Config where
  maxKeyLength : Nat := 256
  maxValueSize : Nat := 1024 * 1024
  maxTtlSeconds : Int := 30 * 24 * 3600
  minTtlSeconds : Int := 0
  allowEmptyKeys : Bool := false
  allowEmptyValues : Bool := true
deriving DecidableEq, Repr

structure Validator where
  config : Validator.Config
deriving DecidableEq, Repr

namespace Validator

-- `validate_key` and `validate_value` make one check on a byte string.
def validateLength (allowEmpty : Bool) (emptyMsg tooLongMsg : String) (max : Nat) (s : Bytes) :
    ValidationResult :=
  if s.isEmpty && !allowEmpty then .error emptyMsg
  else if max < s.length then
    .error (tooLongMsg ++ ": " ++ toString s.length ++ " bytes (max: " ++ toString max ++ " bytes)")
  else .ok

def validateKey (v : Validator) (key : Bytes) : ValidationResult :=
  validateLength v.config.allowEmptyKeys "Key cannot be empty" "Key too long"
    v.config.maxKeyLength key

def validateValue (v : Validator) (value : Bytes) : ValidationResult :=
  validateLength v.config.allowEmptyValues "Value cannot be empty" "Value too large"
    v.config.maxValueSize value

def validateTtl (v : Validator) (ttlSeconds : Int) : ValidationResult :=
  if ttlSeconds < v.config.minTtlSeconds then
    .error ("TTL too small: " ++ toString ttlSeconds ++ " seconds (min: " ++
      toString v.config.minTtlSeconds ++ " seconds)")
  else if v.config.maxTtlSeconds < ttlSeconds then
    .error ("TTL too large: " ++ toString ttlSeconds ++ " seconds (max: " ++
      toString v.config.maxTtlSeconds ++ " seconds = 30 days)")
  else .ok

def validateSetOperation (v : Validator) (key value : Bytes) (ttlSeconds : Option Int) :
    ValidationResult :=
  let keyResult := v.validateKey key
  if !keyResult.valid then keyResult
  else
    let valueResult := v.validateValue value
    if !valueResult.valid then valueResult
    else
      match ttlSeconds with
      | some ttl =>
        let ttlResult := v.validateTtl ttl
        if !ttlResult.valid then ttlResult else .ok
      | none => .ok

theorem validateLength_valid {allowEmpty : Bool} {emptyMsg tooLongMsg : String} {max : Nat}
    {s : Bytes} :
    (validateLength allowEmpty emptyMsg tooLongMsg max s).valid = true ↔
      (s ≠ [] ∨ allowEmpty = true) ∧ s.length ≤ max := by
  unfold validateLength
  cases s <;> cases allowEmpty <;> simp [ValidationResult.ok, ValidationResult.error] <;> split <;>
    simp_all [Nat.not_lt]

-- A rejection names the check that failed.
theorem validateLength_error {allowEmpty : Bool} {emptyMsg tooLongMsg : String} {max : Nat}
    {s : Bytes} (h : (validateLength allowEmpty emptyMsg tooLongMsg max s).valid = false) :
    (validateLength allowEmpty emptyMsg tooLongMsg max s).errorMessage = emptyMsg ∨
      ∃ rest, (validateLength allowEmpty emptyMsg tooLongMsg max s).errorMessage =
        tooLongMsg ++ rest := by
  unfold validateLength at h ⊢
  split
  · exact .inl rfl
  · split
    · exact .inr ⟨": " ++ toString s.length ++ " bytes (max: " ++ toString max ++ " bytes)",
        by simp only [ValidationResult.error, String.append_assoc]⟩
    · simp_all [ValidationResult.ok]

theorem validateTtl_valid {v : Validator} {ttl : Int} :
    (v.validateTtl ttl).valid = true ↔
      v.config.minTtlSeconds ≤ ttl ∧ ttl ≤ v.config.maxTtlSeconds := by
  unfold validateTtl
  split
  · simp only [ValidationResult.error, Bool.false_eq_true, false_iff]
    omega
  · split
    · simp only [ValidationResult.error, Bool.false_eq_true, false_iff]
      omega
    · simp only [ValidationResult.ok, true_iff]
      omega

-- `validate_set_operation` accepts exactly what each of its three checks accepts.
theorem validateSetOperation_valid {v : Validator} {key value : Bytes} {ttl : Option Int} :
    (v.validateSetOperation key value ttl).valid = true ↔
      (v.validateKey key).valid = true ∧ (v.validateValue value).valid = true ∧
        ∀ t ∈ ttl, (v.validateTtl t).valid = true := by
  unfold validateSetOperation
  cases hk : (v.validateKey key).valid <;> cases hv : (v.validateValue value).valid <;>
    cases ttl <;> simp_all [ValidationResult.ok]
  split <;> simp_all

end Validator

end DistCache.Service
