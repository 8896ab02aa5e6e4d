-- JSON values that are the same but for strings: where the first holds one text, the second may
-- hold another. Keys have no part in it, so fields that are set alike in both stay alike.
import DocPages.Json.Basic
import Mathlib.Data.List.Forall2

namespace DocPages

/-- Two pairs with one key, whose values are related. -/
inductive Keyed {α β : Type} (R : β → β → Prop) : α × β → α × β → Prop
  | mk (key : α) {a b : β} (h : R a b) : Keyed R (key, a) (key, b)

namespace Json

/-- Two values that are the same but for strings: some that are `x` in the first are `y` in the
second. -/
inductive Alike (x y : String) : Json → Json → Prop
  | same (v : Json) : Alike x y v v
  | string : Alike x y (.string x) (.string y)
  | array {vs ws : List Json} (h : List.Forall₂ (Alike x y) vs ws) :
    Alike x y (.array vs) (.array ws)
  | object {fields fields' : Fields} (h : List.Forall₂ (Keyed (Alike x y)) fields fields') :
    Alike x y (.object fields) (.object fields')

end Json

namespace Fields

variable {x y : String} {v w : Json} {fields fields' upper upper' : Fields}

/-- Fields with the same keys and with values that are alike. -/
def Alike (x y : String) : Fields → Fields → Prop := List.Forall₂ (Keyed (Json.Alike x y))

theorem alike_refl (x y : String) (fields : Fields) : Alike x y fields fields :=
  List.forall₂_same.mpr fun f _ => .mk f.1 (.same f.2)

theorem Alike.insert (h : Alike x y fields fields') (key : String) (hvalue : Json.Alike x y v w) :
    Alike x y (fields.insert key v) (fields'.insert key w) := by
  induction h with
  | nil => exact .cons (.mk key hvalue) .nil
  | cons hfirst hrest ih =>
    cases hfirst with
    | mk k hk =>
      rw [Fields.insert, Fields.insert]
      split
      · exact .cons (.mk key hvalue) hrest
      split
      · exact .cons (.mk key hvalue) (.cons (.mk k hk) hrest)
      · exact .cons (.mk k hk) ih

theorem Alike.foldl_insert (h : Alike x y upper upper') (hfields : Alike x y fields fields') :
    Alike x y (upper.foldl (fun fields f => fields.insert f.1 f.2) fields)
      (upper'.foldl (fun fields f => fields.insert f.1 f.2) fields') := by
  induction h generalizing fields fields' with
  | nil => exact hfields
  | cons hfirst hrest ih =>
    cases hfirst with
    | mk key hvalue => exact ih (hfields.insert key hvalue)

theorem Alike.ofList (h : Alike x y upper upper') : Alike x y (ofList upper) (ofList upper') :=
  h.foldl_insert .nil

end Fields

end DocPages
