import DistCache.Service.Validator
import DistCache.Cache.Spec

namespace DistCache.Service

open Cache

inductive StatusCode
  | ok
  | invalidArgument
deriving DecidableEq, Repr

structure Status where
  code : StatusCode
  message : String
deriving DecidableEq, Repr

def Status.ok : Status := ⟨.ok, ""⟩

-- The protobuf messages, with the fields the handlers read or write.
structure GetRequest where
  key : Bytes

structure GetResponse where
  found : Bool := false
  value : Bytes := []
  version : Int := 0
deriving DecidableEq, Repr

structure SetRequest where
  key : Bytes
  value : Bytes
  ttlSeconds : Option Int

structure SetResponse where
  success : Bool := false
  version : Int := 0
deriving DecidableEq, Repr

structure DeleteRequest where
  key : Bytes

structure DeleteResponse where
  success : Bool := false
deriving DecidableEq, Repr

structure CompareAndSwapRequest where
  key : Bytes
  expectedVersion : Int
  newValue : Bytes
  ttlSeconds : Option Int

structure CompareAndSwapResponse where
  success : Bool := false
  newVersion : Int := 0
  actualVersion : Int := 0
  error : String := ""
deriving DecidableEq, Repr

-- `if (g_validator) VALIDATE_OR_RETURN(*g_validator, check, ...)`.
def validateOrReturn (validator : Option Validator) (check : Validator → ValidationResult) :
    Option Status :=
  match validator with
  | none => none
  | some v =>
    let result := check v
    if result.valid then none else some ⟨.invalidArgument, result.errorMessage⟩

theorem validateOrReturn_eq_none {validator : Option Validator}
    {check : Validator → ValidationResult} :
    validateOrReturn validator check = none ↔ ∀ v ∈ validator, (check v).valid = true := by
  cases validator with
  | none => simp [validateOrReturn]
  | some v => by_cases h : (check v).valid = true <;> simp [validateOrReturn, h]

-- An early return is always `INVALID_ARGUMENT`, with the failed check's message.
theorem validateOrReturn_eq_some {validator : Option Validator}
    {check : Validator → ValidationResult} {status : Status} (h : validateOrReturn validator check = some status) :
    ∃ msg, status = ⟨.invalidArgument, msg⟩ := by
  cases validator with
  | none => cases h
  | some v =>
    simp only [validateOrReturn] at h
    split at h
    · cases h
    · cases h
      exact ⟨_, rfl⟩

-- The validator `main` installs with `--enable-validation`.
def serverValidator : Validator :=
  ⟨{ maxKeyLength := 256, maxValueSize := 1024 * 1024, maxTtlSeconds := 30 * 24 * 3600 }⟩

-- The handlers of `CacheServiceImpl`, with authentication and rate limiting off.
namespace CacheServiceImpl

-- `CacheServiceImpl()`: `storage_` has 256 shards and a cap of 1 GiB.
def create (overhead : Nat) (hash : Bytes → Nat) : ShardedHashTable :=
  ShardedHashTable.create 256 (1024 * 1024 * 1024) overhead hash (by decide)

def get (validator : Option Validator) (storage : ShardedHashTable) (now : Int) (request : GetRequest) :
    Status × GetResponse × ShardedHashTable :=
  match validateOrReturn validator fun v => v.validateKey request.key with
  | some status => (status, {}, storage)
  | none =>
    let result := storage.get request.key now
    match result.1 with
    | some entry =>
      (.ok, { found := true, value := entry.value, version := entry.version },
        result.2)
    | none => (.ok, { found := false }, result.2)

def set (validator : Option Validator) (storage : ShardedHashTable) (now : Int) (request : SetRequest) :
    Status × SetResponse × ShardedHashTable :=
  match validateOrReturn validator
      fun v => v.validateSetOperation request.key request.value request.ttlSeconds with
  | some status => (status, {}, storage)
  | none =>
    let entry := CacheEntry.init request.key request.value request.ttlSeconds now
    let result := storage.set request.key entry
    -- the response's version is the constant 1 (the source marks it "TODO: Proper versioning")
    (.ok, { success := result.1, version := 1 }, result.2)

def delete (validator : Option Validator) (storage : ShardedHashTable) (request : DeleteRequest) :
    Status × DeleteResponse × ShardedHashTable :=
  match validateOrReturn validator fun v => v.validateKey request.key with
  | some status => (status, {}, storage)
  | none =>
    let result := storage.del request.key
    (.ok, { success := result.1 }, result.2)

def compareAndSwap (validator : Option Validator) (storage : ShardedHashTable) (now : Int)
    (request : CompareAndSwapRequest) : Status × CompareAndSwapResponse × ShardedHashTable :=
  match validateOrReturn validator
      fun v => v.validateSetOperation request.key request.newValue request.ttlSeconds with
  | some status => (status, {}, storage)
  | none =>
    let newEntry := CacheEntry.init request.key request.newValue request.ttlSeconds now
    let result := storage.compareAndSwap request.key request.expectedVersion newEntry now
    let response : CompareAndSwapResponse :=
      if result.1.success then { success := true, newVersion := result.1.newVersion }
      else { success := false, actualVersion := result.1.actualVersion, error := result.1.error }
    (.ok, response, result.2)

variable {validator : Option Validator} {storage : ShardedHashTable} {now : Int}

-- An accepted `Set` always answers success with version 1.
theorem set_of_valid (storage : ShardedHashTable) (now : Int) (request : SetRequest)
    (hv : ∀ v ∈ validator,
      (v.validateSetOperation request.key request.value request.ttlSeconds).valid = true) :
    (set validator storage now request).1 = .ok ∧
      (set validator storage now request).2.1 = { success := true, version := 1 } ∧
      (set validator storage now request).2.2.find request.key =
        some (CacheEntry.init request.key request.value request.ttlSeconds now) := by
  unfold set
  rw [validateOrReturn_eq_none.mpr hv]
  simp only [ShardedHashTable.set_fst, ShardedHashTable.find_set, and_self]

-- A rejected request changes nothing.
theorem set_rejected {request : SetRequest} {status : Status}
    (h : validateOrReturn validator
      (fun v => v.validateSetOperation request.key request.value request.ttlSeconds) = some status) :
    ∃ msg, set validator storage now request = (⟨.invalidArgument, msg⟩, {}, storage) := by
  obtain ⟨msg, rfl⟩ := validateOrReturn_eq_some h
  exact ⟨msg, by simp only [set, h]⟩

-- A live stored entry is answered with its value and version.
theorem get_of_live (request : GetRequest) {e : CacheEntry}
    (hv : ∀ v ∈ validator, (v.validateKey request.key).valid = true)
    (h : storage.find request.key = some e) (hx : e.isExpired now = false) :
    (get validator storage now request).2.1 =
        { found := true, value := e.value, version := e.version } ∧
      (get validator storage now request).2.2.find request.key = some (e.touch now) := by
  have hg := ShardedHashTable.get_of_live h hx
  unfold get
  rw [validateOrReturn_eq_none.mpr hv]
  simp only [hg.1, hg.2, CacheEntry.touch_value, CacheEntry.touch_version, and_self]

-- A stored entry past its expiry is not found, and the table is left as it was.
theorem get_of_expired (request : GetRequest) {e : CacheEntry}
    (hv : ∀ v ∈ validator, (v.validateKey request.key).valid = true)
    (h : storage.find request.key = some e) (hx : e.isExpired now = true) :
    get validator storage now request = (.ok, { found := false }, storage) := by
  unfold get
  rw [validateOrReturn_eq_none.mpr hv]
  simp only [ShardedHashTable.get_of_expired h hx]

-- A `CompareAndSwap` naming the stored version of a live entry succeeds, one version up.
theorem compareAndSwap_of_match (request : CompareAndSwapRequest) {e : CacheEntry}
    (hv : ∀ v ∈ validator,
      (v.validateSetOperation request.key request.newValue request.ttlSeconds).valid = true)
    (h : storage.find request.key = some e) (hx : e.isExpired now = false)
    (he : e.version = request.expectedVersion) :
    (compareAndSwap validator storage now request).1 = .ok ∧
      (compareAndSwap validator storage now request).2.1 =
        { success := true, newVersion := e.version + 1 } ∧
      ((compareAndSwap validator storage now request).2.2.find request.key).map
        CacheEntry.version = some (e.version + 1) := by
  have hc := ShardedHashTable.compareAndSwap_of_match h hx
    (CacheEntry.init request.key request.newValue request.ttlSeconds now)
  rw [he] at hc
  unfold compareAndSwap
  rw [validateOrReturn_eq_none.mpr hv]
  simp only [hc.1, hc.2, if_true, he, Option.map_some', true_and]

-- The second `Set` leaves the stored version at 1, so the stale swap succeeds.
theorem stale_compareAndSwap_succeeds (validate : Bool) (overhead : Nat) (hash : Bytes → Nat)
    (n₁ n₂ n₃ : Int) :
    let validator := if validate then some serverValidator else none
    let key := bytesOf "key"
    let r₁ := set validator (create overhead hash) n₁ ⟨key, bytesOf "version1", none⟩
    let r₂ := set validator r₁.2.2 n₂ ⟨key, bytesOf "version1.5", none⟩
    let r₃ := compareAndSwap validator r₂.2.2 n₃ ⟨key, r₁.2.1.version, bytesOf "version2", none⟩
    r₁.2.1 = { success := true, version := 1 } ∧
      (r₂.2.2.find key).map CacheEntry.value = some (bytesOf "version1.5") ∧
      (r₂.2.2.find key).map CacheEntry.version = some 1 ∧
      r₃.1 = .ok ∧ r₃.2.1 = { success := true, newVersion := 2 } := by
  intro validator key r₁ r₂ r₃
  have hv : ∀ value ∈ [bytesOf "version1", bytesOf "version1.5", bytesOf "version2"],
      ∀ v ∈ validator, (v.validateSetOperation key value none).valid = true := by
    intro value hvalue v hv
    cases validate <;> simp only [validator, Bool.false_eq_true, if_false, if_true,
      Option.mem_def, Option.some.injEq, reduceCtorEq] at hv
    subst hv
    simp only [List.mem_cons, List.mem_singleton, List.not_mem_nil, or_false] at hvalue
    rcases hvalue with rfl | rfl | rfl <;> decide
  have h₁ := set_of_valid (create overhead hash) n₁ ⟨key, bytesOf "version1", none⟩
    (hv (bytesOf "version1") (by simp))
  have h₂ := set_of_valid r₁.2.2 n₂ ⟨key, bytesOf "version1.5", none⟩
    (hv (bytesOf "version1.5") (by simp))
  have hx : (CacheEntry.init key (bytesOf "version1.5") none n₂).isExpired n₃ = false := rfl
  have h₃ := compareAndSwap_of_match ⟨key, r₁.2.1.version, bytesOf "version2", none⟩
    (hv (bytesOf "version2") (by simp)) h₂.2.2 hx (by rw [h₁.2.1]; rfl)
  exact ⟨h₁.2.1, by rw [h₂.2.2]; rfl, by rw [h₂.2.2]; rfl, h₃.1, h₃.2.1⟩

end CacheServiceImpl

end DistCache.Service
