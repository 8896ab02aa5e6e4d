import DocPages.Number.Binary64

/-!
JSON values. Front matter is carried in this form from the top of a page to its data. An object
keeps its fields sorted by key, so that one value has one text.
-/

namespace DocPages

/-- A number: a whole number of at most 64 bits, or a floating point number. -/
inductive Json.Number where
  | int (n : Int)
  | float (x : Binary64)
  deriving DecidableEq, Inhabited

/-- A JSON value. -/
inductive Json where
  | null
  | bool (b : Bool)
  | number (n : Json.Number)
  | string (s : String)
  | array (items : List Json)
  | object (fields : List (String × Json))
  deriving Inhabited

namespace Json

/-- The least whole number that is kept as such. -/
def minInt : Int := -9223372036854775808

/-- The greatest whole number that is kept as such. -/
def maxInt : Int := 18446744073709551615

/-- The number of a whole number: beyond 64 bits it becomes a floating point number. -/
def Number.ofInt? (n : Int) : Option Number :=
  if minInt ≤ n ∧ n ≤ maxInt then some (.int n)
  else (Binary64.ofDecimal (n < 0) n.natAbs 0).map .float

/-- Whether the number is zero. -/
def Number.isZero : Number → Bool
  | .int n => n == 0
  | .float x => x.isZero

end Json

/-- The fields of an object, in the order of their keys. -/
abbrev Fields := List (String × Json)

namespace Fields

/-- Whether one key stands before another: by code points. -/
def keyBefore (a b : String) : Bool := decide (a < b)

/-- The fields with the value under `key` set; the order of the keys is kept. -/
def insert (key : String) (value : Json) : Fields → Fields
  | [] => [(key, value)]
  | (k, v) :: rest =>
    if k == key then (key, value) :: rest
    else if keyBefore key k then (key, value) :: (k, v) :: rest
    else (k, v) :: insert key value rest

/-- The value under a key. -/
def get? (key : String) (fields : Fields) : Option Json :=
  (fields.find? fun f => f.1 == key).map (·.2)

/-- The fields of a list of pairs; of two pairs with one key the later one counts. -/
def ofList (pairs : List (String × Json)) : Fields :=
  pairs.foldl (fun fields p => insert p.1 p.2 fields) []

end Fields

namespace Json

/-- The string of a value that is one. -/
def string? : Json → Option String
  | .string s => some s
  | _ => none

/-- The items of a value that is an array. -/
def array? : Json → Option (List Json)
  | .array items => some items
  | _ => none

/-- The fields of a value that is an object. -/
def object? : Json → Option Fields
  | .object fields => some fields
  | _ => none

/-- Whether a flag with this value is taken to be set: `null`, `false`, zero and the empty string
are not. -/
def isTruthy : Json → Bool
  | .null => false
  | .bool b => b
  | .number n => !n.isZero
  | .string s => !s.isEmpty
  | .array _ => true
  | .object _ => true

end Json

end DocPages
