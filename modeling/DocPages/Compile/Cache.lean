/-!
A memory of the values used last. When it is full, the value that has not been used for longest
makes room for a new one.
-/

namespace DocPages

/-- A memory with room for some values, each under a key: the value used last stands first. -/
structure Cache (α : Type) where
  capacity : Nat
  entries : List (String × α)
  deriving Inhabited

namespace Cache

variable {α : Type}

/-- The room of a memory where nothing is said. -/
def usualCapacity : Nat := 1024

/-- A memory that holds nothing. It has room for one value at least. -/
def empty (capacity : Nat) : Cache α := ⟨max 1 capacity, []⟩

/-- The value under a key. -/
def find? (c : Cache α) (key : String) : Option α := c.entries.lookup key

/-- Whether there is a value under a key. -/
def contains (c : Cache α) (key : String) : Bool := (c.find? key).isSome

/-- The number of values. -/
def size (c : Cache α) : Nat := c.entries.length

/-- Whether there is no value. -/
def isEmpty (c : Cache α) : Bool := c.entries.isEmpty

/-- The entries under other keys. -/
def others (c : Cache α) (key : String) : List (String × α) := c.entries.filter (·.1 != key)

/-- The memory with a value under a key, which has been used last. -/
def set (c : Cache α) (key : String) (value : α) : Cache α :=
  { c with entries := ((key, value) :: c.others key).take c.capacity }

/-- The value under a key, and the memory in which it has been used last. -/
def get (c : Cache α) (key : String) : Option α × Cache α :=
  match c.find? key with
  | none => (none, c)
  | some value => (some value, { c with entries := (key, value) :: c.others key })

/-- The memory without its values. -/
def clear (c : Cache α) : Cache α := { c with entries := [] }

/-- A memory in short. -/
def describe (c : Cache α) : String :=
  "CompileCache \x7b len: " ++ toString c.size ++ ", capacity: " ++ toString c.capacity ++ " \x7d"

end Cache

end DocPages
