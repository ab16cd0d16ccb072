/-! # The signature cache

A bounded cache from symbols to descriptors. When it is full, the symbol that has been in it
longest makes room for a new one.
-/

namespace NativeBridge

structure Cache where
  capacity : Nat
  /-- Symbols and descriptors, the oldest first. -/
  entries : List (String × String)
  deriving DecidableEq, Repr

namespace Cache

def defaultCapacity : Nat := 32

/-- A cache holds at least one symbol. -/
def empty (capacity : Nat) : Cache :=
  ⟨max capacity 1, []⟩

/-- The most entries that memory can have addresses for: an entry takes 48 bytes, and nothing is
larger than the signed 64-bit integers reach. -/
def reservable : Nat := (UInt64.size / 2 - 1) / 48

/-- An empty cache with room for all its entries. That there is memory for them is taken for
granted as far as there are addresses. -/
def reserve? (capacity : Nat) : Option Cache :=
  if reservable < max capacity 1 then none else some (empty capacity)

theorem eq_empty_of_reserve? {capacity : Nat} {cache : Cache}
    (h : reserve? capacity = some cache) : cache = empty capacity := by
  unfold reserve? at h
  split at h
  · cases h
  · exact (Option.some.inj h).symm

def size (c : Cache) : Nat := c.entries.length

def get? (c : Cache) (symbol : String) : Option String :=
  (c.entries.find? (·.1 == symbol)).map (·.2)

/-- A symbol that is present keeps its age and takes the new descriptor. -/
def insert (c : Cache) (symbol descriptor : String) : Cache :=
  if c.entries.any (·.1 == symbol) then
    { c with entries := c.entries.map fun e => if e.1 == symbol then (symbol, descriptor) else e }
  else
    let room := if c.size = c.capacity then c.entries.drop 1 else c.entries
    { c with entries := room ++ [(symbol, descriptor)] }

end Cache

end NativeBridge
