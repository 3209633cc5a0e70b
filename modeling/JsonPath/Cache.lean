import JsonPath.Text

/-!
Caches of bounded size. Storing and finding a key both count as its use, and when there is no room
for a new key the one whose last use is longest ago gives way.
-/

namespace JsonPath

/-- Keys with their values, in the order of their last use, the longest ago first. -/
structure Cache (κ α : Type) where
  capacity : Nat
  entries : List (κ × α)

structure NegativeCapacity where
  capacity : Int
deriving DecidableEq, Repr

def NegativeCapacity.message (refused : NegativeCapacity) : Text :=
  "Cache capacity must be >= 0, not " ++ Text.ofInt refused.capacity

namespace Cache

variable {κ α : Type} [DecidableEq κ]

def empty (capacity : Nat) : Cache κ α := ⟨capacity, []⟩

def ofCapacity (capacity : Int) : Except NegativeCapacity (Cache κ α) :=
  if capacity < 0 then .error ⟨capacity⟩ else .ok (empty capacity.toNat)

def keys (cache : Cache κ α) : List κ := cache.entries.map (·.1)

def size (cache : Cache κ α) : Nat := cache.entries.length

/-- Whether the key is stored; to ask is no use. -/
def contains (key : κ) (cache : Cache κ α) : Bool := cache.entries.any (·.1 = key)

def get? (key : κ) (cache : Cache κ α) : Option α :=
  (cache.entries.find? (·.1 = key)).map (·.2)

def without (key : κ) (cache : Cache κ α) : List (κ × α) := cache.entries.filter (·.1 ≠ key)

def touch (key : κ) (cache : Cache κ α) : Cache κ α :=
  match cache.get? key with
  | some value => { cache with entries := cache.without key ++ [(key, value)] }
  | none => cache

def evicted? (key : κ) (cache : Cache κ α) : Option κ :=
  if cache.capacity = 0 ∨ cache.contains key ∨ cache.size < cache.capacity then none
  else cache.keys.head?

/-- The cache with the value stored under the key; a cache of capacity zero stores nothing. -/
def put (key : κ) (value : α) (cache : Cache κ α) : Cache κ α :=
  if cache.capacity = 0 then cache
  else if cache.contains key then
    { cache with entries := cache.without key ++ [(key, value)] }
  else if cache.size < cache.capacity then
    { cache with entries := cache.entries ++ [(key, value)] }
  else { cache with entries := cache.entries.tail ++ [(key, value)] }

def clear (cache : Cache κ α) : Cache κ α := { cache with entries := [] }

def diagnostic (cache : Cache κ α) : Text := "LRUCache(" ++ Text.ofNat cache.capacity ++ ")"

end Cache

end JsonPath
