import DocPages.Json.Basic

/-!
Reading records from JSON. A record is an object, whose unknown fields count for nothing, or an
array with the fields in their order. A field that is left out is told apart from one that is
`null`.
-/

namespace DocPages.Options

/-- The values of an object under one key. -/
def valuesOf (key : String) (fields : List (String × Json)) : List Json :=
  (fields.filter fun f => f.1 == key).map (·.2)

/-- The fields of a record by its names, each one or none; none if a name comes twice, if an array
is too long, or if the value is no record. -/
def columns? (names : List String) : Json → Option (List (Option Json))
  | .object fields =>
    let columns := names.map (valuesOf · fields)
    if columns.all (·.length ≤ 1) then some (columns.map List.head?) else none
  | .array items =>
    if items.length ≤ names.length then
      some (items.map some ++ List.replicate (names.length - items.length) none)
    else none
  | _ => none

/-- A field with a value for when it is left out. -/
def orElse {α : Type} (default : α) (read : Json → Option α) : Option Json → Option α
  | none => some default
  | some value => read value

/-- A field that may be `null`. -/
def nullable {α : Type} (read : Json → Option α) : Json → Option (Option α)
  | .null => some none
  | value => (read value).map some

/-- A truth value. -/
def flag? : Json → Option Bool
  | .bool b => some b
  | _ => none

/-- A whole number from zero to `top`. -/
def natUpTo? (top : Nat) : Json → Option Nat
  | .number (.int n) => if 0 ≤ n ∧ n ≤ top then some n.toNat else none
  | _ => none

/-- A number of 64 bits without a sign. -/
def count? : Json → Option Nat := natUpTo? 18446744073709551615

/-- Two strings. -/
def pair? : Json → Option (String × String)
  | .array [.string a, .string b] => some (a, b)
  | _ => none

/-- A list, all of whose items can be read. -/
def list? {α : Type} (read : Json → Option α) : Json → Option (List α)
  | .array items => items.mapM read
  | _ => none

end DocPages.Options
