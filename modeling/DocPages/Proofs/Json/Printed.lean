-- The compact text of a value is one line: it holds no control character,
-- whatever the strings and keys of the value hold.
import DocPages.Json.Printer

namespace DocPages.Json

/-- No character of the text is a control character. -/
def Printed (cs : List Char) : Prop := ∀ c ∈ cs, 0x20 ≤ c.toNat

theorem printed_nil : Printed [] := fun _ h => absurd h List.not_mem_nil

theorem Printed.cons {c : Char} {cs : List Char} (hc : 0x20 ≤ c.toNat) (h : Printed cs) :
    Printed (c :: cs) := List.forall_mem_cons.mpr ⟨hc, h⟩

theorem Printed.append {front back : List Char} (hf : Printed front) (hb : Printed back) :
    Printed (front ++ back) := List.forall_mem_append.mpr ⟨hf, hb⟩

theorem Printed.of_subset {cs part : List Char} (h : Printed cs) (hp : part ⊆ cs) :
    Printed part := fun c hc => h c (hp hc)

theorem printed_replicate (n : Nat) {c : Char} (hc : 0x20 ≤ c.toNat) :
    Printed (List.replicate n c) := by
  intro d hd
  rw [(List.mem_replicate.mp hd).2]
  exact hc

/-- A word of literals is printed if each of its characters is. -/
theorem printed_of_all {cs : List Char} (h : cs.all (fun c => 0x20 ≤ c.toNat) = true) :
    Printed cs := by
  intro c hc
  simpa using List.all_eq_true.mp h c hc

/-! ## Numbers -/

theorem printed_digitChars (n : Nat) : Printed (Binary64.digitChars n) := by
  intro c hc
  have hdigit := Nat.isDigit_of_mem_toDigits (b := 10) (by decide) (by decide) hc
  rw [Char.isDigit, Bool.and_eq_true, decide_eq_true_eq, decide_eq_true_eq] at hdigit
  have hlow : ('0'.val).toNat ≤ c.val.toNat := hdigit.1
  exact Nat.le_trans (by decide) hlow

theorem printed_sign (b : Bool) : Printed (if b then ['-'] else []) := by
  cases b <;> exact printed_of_all (by decide)

/-- The tail of a number with an exponent. -/
theorem printed_exponent (exponent : Int) :
    Printed ('e' :: ((if exponent < 0 then ['-'] else []) ++
      Binary64.digitChars exponent.natAbs)) := by
  have hsign : Printed (if exponent < 0 then ['-'] else []) := by
    split <;> exact printed_of_all (by decide)
  exact .cons (by decide) (hsign.append (printed_digitChars _))

theorem printed_float (x : Binary64) : Printed x.render := by
  unfold Binary64.render
  dsimp only
  split
  · exact (printed_sign _).append (printed_of_all (by decide))
  · refine (printed_sign _).append ?_
    have hdigits := printed_digitChars x.shortest.digits
    split
    · exact (hdigits.append (printed_replicate _ (by decide))).append (printed_of_all (by decide))
    split
    · exact (hdigits.of_subset (List.take_subset _ _)).append
        (.cons (by decide) (hdigits.of_subset (List.drop_subset _ _)))
    split
    · exact .cons (by decide) (.cons (by decide) ((printed_replicate _ (by decide)).append hdigits))
    · generalize Binary64.digitChars x.shortest.digits = digits at hdigits
      have htail := printed_exponent (digits.length + x.shortest.power - 1)
      split
      · exact .cons (hdigits _ List.mem_cons_self) htail
      · exact .cons (hdigits _ List.mem_cons_self) (.cons (by decide)
          (Printed.append (fun c hc => hdigits c (List.mem_cons_of_mem _ hc)) htail))
      · exact htail

theorem printed_number (n : Number) : Printed n.render := by
  cases n with
  | int n =>
    have hsign : Printed (if n < 0 then ['-'] else []) := by
      split <;> exact printed_of_all (by decide)
    exact hsign.append (printed_digitChars _)
  | float x => exact printed_float x

/-! ## Strings -/

theorem printed_hexDigit (n : Nat) (h : n < 16) : 0x20 ≤ (hexDigit n).toNat := by
  revert n
  decide

theorem printed_escapeChar (c : Char) : Printed (escapeChar c) := by
  unfold escapeChar
  split
  all_goals try exact printed_of_all (by decide)
  split
  · rename_i hlt
    have hmark : Printed ['\\', 'u', '0', '0'] := printed_of_all (by decide)
    exact hmark.append
      (.cons (printed_hexDigit _ (by omega)) (.cons (printed_hexDigit _ (by omega)) printed_nil))
  · rename_i hge
    exact .cons (by omega) printed_nil

theorem printed_quoted (s : String) : Printed (quoted s) := by
  refine .cons (by decide) (Printed.append ?_ (printed_of_all (by decide)))
  intro c hc
  obtain ⟨d, -, hd⟩ := List.mem_flatMap.mp hc
  exact printed_escapeChar d c hd

/-! ## Values -/

mutual

theorem printed_chars (value : Json) : Printed (chars value) := by
  cases value with
  | null => exact printed_of_all (by decide)
  | bool b => cases b <;> exact printed_of_all (by decide)
  | number n => exact printed_number n
  | string s => exact printed_quoted s
  | array items =>
    exact .cons (by decide) ((printed_itemChars items).append (printed_of_all (by decide)))
  | object fields =>
    exact .cons (by decide) ((printed_fieldChars fields).append (printed_of_all (by decide)))

theorem printed_itemChars (items : List Json) : Printed (itemChars items) := by
  cases items with
  | nil => exact printed_nil
  | cons item rest =>
    cases rest with
    | nil => exact printed_chars item
    | cons next rest =>
      exact (printed_chars item).append (.cons (by decide) (printed_itemChars (next :: rest)))

theorem printed_fieldChars (fields : List (String × Json)) : Printed (fieldChars fields) := by
  cases fields with
  | nil => exact printed_nil
  | cons field rest =>
    obtain ⟨key, value⟩ := field
    cases rest with
    | nil => exact (printed_quoted key).append (.cons (by decide) (printed_chars value))
    | cons next rest =>
      exact (printed_quoted key).append (.cons (by decide)
        ((printed_chars value).append (.cons (by decide) (printed_fieldChars (next :: rest)))))

end

end DocPages.Json
