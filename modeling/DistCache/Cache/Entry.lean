import Mathlib.Data.Int.Defs
import DistCache.Cache.VersionVector

namespace DistCache

-- Keys (`std::string`) and values (`std::vector<uint8_t>`) are byte strings.
abbrev Bytes := List UInt8

-- The bytes of a `std::string` built from a string: its UTF-8 encoding.
def bytesOf (s : String) : Bytes := s.toList.flatMap String.utf8EncodeChar

-- `std::less<std::string>`, decided by core's `String.decLt`.
def stringLt (a b : String) : Bool := @decide _ (String.decLt a b)

-- `x` computed in `int32_t`: the low 32 bits, read as two's complement.
def toInt32 (x : Int) : Int := (x + 2147483648) % 4294967296 - 2147483648

theorem toInt32_of_range {x : Int} (lo : -2147483648 ≤ x) (hi : x < 2147483648) : toInt32 x = x := by
  unfold toInt32
  rw [Int.emod_eq_of_lt (by omega) (by omega)]
  omega

namespace Cache

-- `CacheEntry`; the clock is an explicit argument wherever the source reads it.
structure CacheEntry where
  key : Bytes
  value : Bytes
  ttlSeconds : Option Int
  expiresAtMs : Option Int
  version : Int
  createdAtMs : Int
  modifiedAtMs : Int
  lastAccessedMs : Int
  versionVector : VersionVector
deriving DecidableEq, Repr

namespace CacheEntry

-- `CacheEntry(k, v, ttl)`; the TTL is multiplied by 1000 in `int32_t`.
def init (k v : Bytes) (ttl : Option Int) (now : Int) : CacheEntry where
  key := k
  value := v
  ttlSeconds := ttl
  expiresAtMs := ttl.map fun t => now + toInt32 (t * 1000)
  version := 1
  createdAtMs := now
  modifiedAtMs := now
  lastAccessedMs := now
  versionVector := ∅

-- `CacheEntry()`; every modelled caller assigns the fields it later reads.
def empty : CacheEntry := ⟨[], [], none, none, 0, 0, 0, 0, ∅⟩

def isExpired (e : CacheEntry) (now : Int) : Bool :=
  match e.expiresAtMs with
  | none => false
  | some t => decide (t < now)

def touch (e : CacheEntry) (now : Int) : CacheEntry := { e with lastAccessedMs := now }

-- `total_size()`: `sizeof(CacheEntry)` is the platform constant `overhead`.
def totalSize (overhead : Nat) (e : CacheEntry) : Nat := overhead + e.key.length + e.value.length

@[simp] theorem init_version (k v : Bytes) (ttl : Option Int) (now : Int) :
    (init k v ttl now).version = 1 := rfl

@[simp] theorem init_value (k v : Bytes) (ttl : Option Int) (now : Int) :
    (init k v ttl now).value = v := rfl

@[simp] theorem touch_version (e : CacheEntry) (now : Int) : (e.touch now).version = e.version := rfl

@[simp] theorem touch_value (e : CacheEntry) (now : Int) : (e.touch now).value = e.value := rfl

@[simp] theorem touch_isExpired (e : CacheEntry) (now t : Int) :
    (e.touch now).isExpired t = e.isExpired t := rfl

@[simp] theorem totalSize_touch (overhead : Nat) (e : CacheEntry) (now : Int) :
    (e.touch now).totalSize overhead = e.totalSize overhead := rfl

theorem isExpired_iff (e : CacheEntry) (now : Int) :
    e.isExpired now = true ↔ ∃ t, e.expiresAtMs = some t ∧ t < now := by
  unfold isExpired
  cases e.expiresAtMs <;> simp

end CacheEntry

end Cache

end DistCache
