import DistCache.Service.CacheService
import DistCache.Cache.Refinement

namespace DistCache.Service

open Cache

-- A run of the server is a sequence of RPCs, each with the clock reading it was served at.

inductive Request
  | get (request : GetRequest)
  | set (request : SetRequest)
  | delete (request : DeleteRequest)
  | compareAndSwap (request : CompareAndSwapRequest)

inductive Response
  | get (response : GetResponse)
  | set (response : SetResponse)
  | delete (response : DeleteResponse)
  | compareAndSwap (response : CompareAndSwapResponse)
deriving DecidableEq, Repr

namespace Request

-- The check `VALIDATE_OR_RETURN` makes before the handler touches `storage_`.
def check : Request → Validator → ValidationResult
  | .get r => fun v => v.validateKey r.key
  | .set r => fun v => v.validateSetOperation r.key r.value r.ttlSeconds
  | .delete r => fun v => v.validateKey r.key
  | .compareAndSwap r => fun v => v.validateSetOperation r.key r.newValue r.ttlSeconds

-- The engine call the handler makes once the check passes.
def op (now : Int) : Request → Op
  | .get r => .get r.key now
  | .set r => .set r.key (CacheEntry.init r.key r.value r.ttlSeconds now)
  | .delete r => .del r.key
  | .compareAndSwap r =>
    .compareAndSwap r.key r.expectedVersion (CacheEntry.init r.key r.newValue r.ttlSeconds now) now

end Request

namespace CacheServiceImpl

def handle (validator : Option Validator) (storage : ShardedHashTable) (now : Int) :
    Request → Status × Response × ShardedHashTable
  | .get r =>
    let x := get validator storage now r
    (x.1, .get x.2.1, x.2.2)
  | .set r =>
    let x := set validator storage now r
    (x.1, .set x.2.1, x.2.2)
  | .delete r =>
    let x := delete validator storage r
    (x.1, .delete x.2.1, x.2.2)
  | .compareAndSwap r =>
    let x := compareAndSwap validator storage now r
    (x.1, .compareAndSwap x.2.1, x.2.2)

-- RPCs served one after another; the storage at the end.
def serve (validator : Option Validator) (storage : ShardedHashTable) :
    List (Int × Request) → ShardedHashTable
  | [] => storage
  | (now, r) :: rs => serve validator (handle validator storage now r).2.2 rs

-- The engine calls of the RPCs that pass validation, in order.
def acceptedOps (validator : Option Validator) : List (Int × Request) → List Op
  | [] => []
  | (now, r) :: rs =>
    (if (validateOrReturn validator r.check).isNone then [r.op now] else []) ++
      acceptedOps validator rs

variable {validator : Option Validator} {storage : ShardedHashTable} {now : Int} {r : Request}

-- A rejected RPC answers `INVALID_ARGUMENT` and leaves the storage as it was.
theorem handle_of_rejected {status : Status} (h : validateOrReturn validator r.check = some status) :
    (handle validator storage now r).1 = status ∧ status.code = .invalidArgument ∧
      (handle validator storage now r).2.2 = storage := by
  obtain ⟨msg, rfl⟩ := validateOrReturn_eq_some h
  cases r <;> simp only [Request.check] at h <;>
    simp [handle, get, set, delete, compareAndSwap, h]

-- An accepted RPC answers `OK` and makes its one engine call.
theorem handle_of_accepted (h : validateOrReturn validator r.check = none) :
    (handle validator storage now r).1 = .ok ∧
      (handle validator storage now r).2.2 = storage.step (r.op now) := by
  cases r <;> simp only [Request.check] at h <;>
    simp only [handle, get, set, delete, compareAndSwap, h, Request.op, ShardedHashTable.step] <;>
    (try split) <;> simp

theorem serve_eq_exec (validator : Option Validator) :
    ∀ (storage : ShardedHashTable) (rs : List (Int × Request)),
      serve validator storage rs = storage.exec (acceptedOps validator rs)
  | _, [] => rfl
  | storage, (now, r) :: rs => by
    cases h : validateOrReturn validator r.check with
    | none =>
      simp only [serve, acceptedOps, h, Option.isNone_none, if_true, List.singleton_append,
        (handle_of_accepted h).2]
      exact serve_eq_exec validator _ rs
    | some status =>
      simp only [serve, acceptedOps, h, Option.isNone_some, Bool.false_eq_true, if_false,
        List.nil_append, (handle_of_rejected h).2.2]
      exact serve_eq_exec validator storage rs

-- What an accepted `Get` answers, from the engine's entry under its key.
theorem get_response (r : GetRequest) (h : ∀ v ∈ validator, (v.validateKey r.key).valid = true) :
    (get validator storage now r).2.1 =
      match AbsCache.getResult (storage.find r.key) now with
      | some e => { found := true, value := e.value, version := e.version }
      | none => { found := false } := by
  simp only [get, validateOrReturn_eq_none.mpr h, ShardedHashTable.get_fst]
  cases AbsCache.getResult (storage.find r.key) now <;> rfl

-- A server started as `main` starts it refines the abstract store over every run.
theorem serve_refines_absCache (validator : Option Validator) (overhead : Nat)
    (hash : Bytes → Nat) (rs : List (Int × Request)) (now : Int) (r : GetRequest) :
    let storage := serve validator (create overhead hash) rs
    let m := AbsCache.empty.exec (acceptedOps validator rs)
    storage = (create overhead hash).exec (acceptedOps validator rs) ∧ storage.Invariant ∧
      ((get validator storage now r).2.1.found = true →
        ∃ e, AbsCache.getResult (m r.key) now = some e ∧
          (get validator storage now r).2.1 = { found := true, value := e.value, version := e.version }) := by
  intro storage m
  have he : storage = (create overhead hash).exec (acceptedOps validator rs) := serve_eq_exec _ _ _
  have hw : storage.Within m :=
    he ▸ (ShardedHashTable.create_agrees _ _ _ _ _).within.exec (acceptedOps validator rs)
  refine ⟨he, he ▸ ShardedHashTable.exec_invariant _ _
    (ShardedHashTable.create_invariant _ _ _ _ _), fun hf => ?_⟩
  cases hv : validateOrReturn validator fun v => v.validateKey r.key with
  | some status => simp [get, hv] at hf
  | none =>
    rw [get_response r (validateOrReturn_eq_none.mp hv)] at hf ⊢
    cases hg : AbsCache.getResult (storage.find r.key) now with
    | none => simp [hg] at hf
    | some e => exact ⟨e, hw.getResult hg, rfl⟩

end CacheServiceImpl

end DistCache.Service
