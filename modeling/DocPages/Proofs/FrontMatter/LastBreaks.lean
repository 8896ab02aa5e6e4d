-- The line breaks in front of the fence that closes front matter. They are cut off before the text
-- between the fences is left to a reader of YAML. Most texts read the same with them and without
-- them: the end of a text ends its last line as a break does. Only a block scalar counts the breaks
-- behind its last line, so a text that ends in one can lose line feeds, unless its sign drops them
-- anyway.
import DocPages.Proofs.FrontMatter.Fences
import DocPages.Proofs.Text.Trim
import DocPages.Proofs.Yaml.Parser

namespace DocPages.FrontMatter

open Yaml (Parser lastSign?)

/-! ## Fields -/

/-- Two readings of fields that fail alike, or whose fields are the same but for strings: some that
are `x` in the first are `y` in the second. -/
inductive ReadAlike (x y : String) : Except Error Fields → Except Error Fields → Prop
  | error (e : Error) : ReadAlike x y (.error e) (.error e)
  | ok {fields fields' : Fields} (h : fields.Alike x y fields') :
    ReadAlike x y (.ok fields) (.ok fields')

theorem readAlike_refl (x y : String) (read : Except Error Fields) : ReadAlike x y read read := by
  cases read with
  | error e => exact .error e
  | ok fields => exact .ok (Fields.alike_refl x y fields)

theorem fieldsOf_alike {x y : String} {v w : Option Json} (h : Option.Rel (Json.Alike x y) v w) :
    ReadAlike x y (fieldsOf v) (fieldsOf w) := by
  cases h with
  | none => exact .error _
  | some h =>
    cases h with
    | same => exact readAlike_refl x y _
    | string => exact .error _
    | array h => exact .error _
    | object h => exact .ok h

theorem allBlank_append_breaks {cut : List Char} (hcut : Yaml.Breaks cut) (text : List Char) :
    Text.allBlank (text ++ cut) = Text.allBlank text := by
  have hblank : Text.allBlank cut = true := by
    refine List.all_eq_true.mpr fun c hc => ?_
    rcases Yaml.isLineBreak_iff.mp (hcut c hc) with rfl | rfl <;> decide
  unfold Text.allBlank at hblank ⊢
  rw [List.all_append, hblank, Bool.and_true]

/-- The fields of a text hang on its tree alone, besides whether it is blank. -/
theorem fieldsBy_append_breaks {P : Parser} {cut : List Char} (hcut : Yaml.Breaks cut)
    (text : List Char) (h : P.node? (text ++ cut) = P.node? text) :
    fieldsBy P.read? (text ++ cut) = fieldsBy P.read? text := by
  have hread : P.read? (text ++ cut) = P.read? text := by
    unfold Parser.read?
    rw [h]
  unfold fieldsBy
  rw [allBlank_append_breaks hcut, hread]

/-- What is read is alike if the values are, for a text without breaks at its end and with them. -/
theorem fieldsBy_alike {read? : List Char → Option Json} {x y : String} {cut : List Char}
    (hcut : Yaml.Breaks cut) {text : List Char}
    (h : Option.Rel (Json.Alike x y) (read? text) (read? (text ++ cut))) :
    ReadAlike x y (fieldsBy read? text) (fieldsBy read? (text ++ cut)) := by
  unfold fieldsBy
  rw [allBlank_append_breaks hcut]
  split
  · exact readAlike_refl x y _
  · exact fieldsOf_alike h

/-- What is left of a text without the breaks at its end. -/
def kept (text : List Char) : List Char := Text.trimEndBy Text.isLineBreak text

/-! ## A lone entry -/

/-- The tree of one entry, whose value is a scalar that is not plain. -/
def entryTree (key text : List Char) : Yaml.Node :=
  .mapping .none [(.scalar .none true key, .scalar .none false text)]

theorem singleton_eq_middle {α : Type} {a b : α} {front back : List α}
    (h : [a] = front ++ b :: back) : front = [] ∧ b = a ∧ back = [] := by
  cases front with
  | nil =>
    cases h
    exact ⟨rfl, rfl, rfl⟩
  | cons c front => simp at h

/-- The scalar that is the value of a lone entry is the only one that can be exchanged. -/
theorem valueExchanged_entryTree {x y key text : List Char} {b : Yaml.Node}
    (h : Yaml.Exchanged x y (entryTree key text) b) :
    x = text ∧ Yaml.ValueExchanged x y (entryTree key text) b := by
  generalize htree : entryTree key text = tree at h
  unfold entryTree at htree
  cases h with
  | scalar marks => cases htree
  | item marks front back h => cases htree
  | key marks front value back h =>
    obtain ⟨-, hentries⟩ := Yaml.Node.mapping.inj htree
    obtain ⟨-, hentry, -⟩ := singleton_eq_middle hentries
    cases hentry
    cases h
  | value marks front key' back h =>
    obtain ⟨rfl, hentries⟩ := Yaml.Node.mapping.inj htree
    obtain ⟨rfl, hentry, rfl⟩ := singleton_eq_middle hentries
    cases hentry
    cases h with
    | scalar marks => exact ⟨rfl, .value .none [] _ [] (.scalar nofun)⟩

/-- Whether a tree is that of one entry with these texts. -/
def isEntryTree (key text : List Char) : Yaml.Node → Bool
  | .mapping marks [(.scalar keyMarks true k, .scalar valueMarks false t)] =>
    marks == .none && keyMarks == .none && valueMarks == .none && k == key && t == text
  | _ => false

theorem eq_entryTree {key text : List Char} {tree : Yaml.Node}
    (h : isEntryTree key text tree = true) : tree = entryTree key text := by
  unfold isEntryTree at h
  split at h
  · simp only [Bool.and_eq_true, beq_iff_eq] at h
    obtain ⟨⟨⟨⟨rfl, rfl⟩, rfl⟩, rfl⟩, rfl⟩ := h
    rfl
  · cases h

theorem node?_literal :
    Parser.standard.node? (kept "a: |\n  x\n".toList) = some (entryTree ['a'] ['x']) := by
  have hshape : (Parser.standard.node? (kept "a: |\n  x\n".toList)).any
      (isEntryTree ['a'] ['x']) = true := by decide +kernel
  cases hread : Parser.standard.node? (kept "a: |\n  x\n".toList) with
  | none =>
    rw [hread] at hshape
    cases hshape
  | some tree =>
    rw [hread] at hshape
    rw [eq_entryTree hshape]

/-! ## The law -/

/-- A scalar that makes a key, or a number, can decide with its last line feed whether a text spells
metadata at all. -/
example : (fields (kept "\"x\": 1\n? |\n  x\n".toList)).toOption.isSome = false ∧
    (fields "\"x\": 1\n? |\n  x\n".toList).toOption.isSome = true ∧
    (fields (kept "a: !!int |\n  5\n".toList)).toOption.isSome = true ∧
    (fields "a: !!int |\n  5\n".toList).toOption.isSome = false := by decide +kernel

end DocPages.FrontMatter
