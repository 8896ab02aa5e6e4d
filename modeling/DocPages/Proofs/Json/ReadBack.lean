-- The compact text of a value reads back as that value, whatever its strings and keys hold. The
-- induction is on the value; the fuel of the reader is the length of the text.
import DocPages.Proofs.Json.Numerals

namespace DocPages.Json

variable {done cs rest : List Char} {fuel : Nat}

/-! ## Strings -/

theorem hexQuad?_hexDigit : ∀ n < 0x20,
    hexQuad? '0' '0' (hexDigit (n / 16)) (hexDigit (n % 16)) = some n := by
  decide

theorem stringRest_control (done : List Char) {n : Nat} (hn : n < 0x20) (rest : List Char) :
    stringRest done none true
        ('\\' :: 'u' :: '0' :: '0' :: hexDigit (n / 16) :: hexDigit (n % 16) :: rest) =
      stringRest (Char.ofNat n :: done) none true rest := by
  have hhigh : isHighHalf n = false := by
    rw [isHighHalf, Bool.and_eq_false_iff, decide_eq_false_iff_not]
    omega
  have hlow : isLowHalf n = false := by
    rw [isLowHalf, Bool.and_eq_false_iff, decide_eq_false_iff_not]
    omega
  simp [stringRest, hexQuad?_hexDigit n hn, hhigh, hlow]

theorem stringRest_plain {c : Char} (hquote : c ≠ '\x22') (hslash : c ≠ '\\')
    (hcode : 0x20 ≤ c.toNat) :
    stringRest done none true (c :: rest) = stringRest (c :: done) none true rest := by
  rw [stringRest]
  · have hspecial : ¬(decide (c.toNat < 0x20) || c == '\\') = true := by simp [hslash, hcode]
    rw [if_neg (by simpa using hquote), if_neg hspecial]
    rfl
  · exact fun _ _ _ _ _ h _ => hslash h
  · exact fun _ _ h _ => hslash h

/-- What stands for a character is read as that character. -/
theorem stringRest_escapeChar (done : List Char) (c : Char) (rest : List Char) :
    stringRest done none true (escapeChar c ++ rest) =
      stringRest (c :: done) none true rest := by
  have hc := Char.ofNat_toNat c
  unfold escapeChar
  split
  case h_8 hquote hslash _ _ _ _ _ =>
    split
    · rename_i hlow
      have hread := stringRest_control done hlow rest
      rwa [hc] at hread
    · rename_i hlow
      refine stringRest_plain ?_ ?_ (not_lt.mp hlow)
      · rintro rfl
        exact hquote rfl
      · rintro rfl
        exact hslash rfl
  all_goals
    rename_i hcode
    rw [hcode] at hc
    subst hc
    rfl

theorem stringRest_flatMap (done cs rest : List Char) :
    stringRest done none true (cs.flatMap escapeChar ++ '\x22' :: rest) =
      some (some (done.reverse ++ cs), rest) := by
  induction cs generalizing done with
  | nil =>
    rw [List.append_nil]
    rfl
  | cons c cs ih =>
    rw [List.flatMap_cons, List.append_assoc, stringRest_escapeChar, ih, List.reverse_cons,
      List.append_assoc, List.singleton_append]

theorem quoted?_flatMap (s : String) (rest : List Char) :
    quoted? (s.toList.flatMap escapeChar ++ '\x22' :: rest) = some (some s, rest) := by
  rw [quoted?, stringRest_flatMap]
  simp

/-! ## The front of a value -/

/-- A value whose numbers can be held. -/
inductive Sound : Json → Prop
  | null : Sound .null
  | bool (b : Bool) : Sound (.bool b)
  | number {n : Number} (h : n.Sound) : Sound (.number n)
  | string (s : String) : Sound (.string s)
  | array {items : List Json} (h : ∀ v ∈ items, Sound v) : Sound (.array items)
  | object {fields : List (String × Json)} (h : ∀ f ∈ fields, Sound f.2) : Sound (.object fields)

/-- A text that begins with a character a value may begin with. -/
def Opened (cs : List Char) : Prop :=
  ∃ c tail, cs = c :: tail ∧ c ≠ ' ' ∧ c ≠ '\t' ∧ c ≠ '\n' ∧ c ≠ '\r' ∧ c ≠ ']'

theorem Opened.append (h : Opened cs) (rest : List Char) : Opened (cs ++ rest) := by
  obtain ⟨c, tail, rfl, hc⟩ := h
  exact ⟨c, tail ++ rest, rfl, hc⟩

theorem skipSpace_cons {c : Char}
    (hc : (c == ' ' || c == '\t' || c == '\n' || c == '\r') = false) :
    skipSpace (c :: rest) = c :: rest :=
  List.dropWhile_cons_of_neg (by rw [hc]; decide)

theorem Opened.skipSpace (h : Opened cs) : skipSpace cs = cs := by
  obtain ⟨c, tail, rfl, hspace, htab, hfeed, hreturn, -⟩ := h
  exact skipSpace_cons (by simp [hspace, htab, hfeed, hreturn])

/-- A number begins with a sign or with a digit. -/
theorem front_of_number? {r : Option Number × List Char} (h : number? cs = some r) :
    ∃ c tail, cs = c :: tail ∧ (c = '-' ∨ c.isDigit = true) := by
  cases cs with
  | nil => exact nomatch (show none = some r from h)
  | cons c tail =>
    refine ⟨c, tail, rfl, ?_⟩
    by_contra hfront
    rw [not_or, Bool.not_eq_true] at hfront
    have hsign : sign (c :: tail) = (false, c :: tail) := by
      rw [sign]
      exact fun r h => hfront.1 (List.cons.inj h).1
    have hspan : spanDigits ([] ++ c :: tail) = ([], c :: tail) := by
      refine spanDigits_append (List.forall_mem_nil _) fun d hd => ?_
      obtain rfl : c = d := Option.some_inj.mp hd
      exact hfront.2
    rw [List.nil_append] at hspan
    unfold number? at h
    simp only [hsign, hspan] at h
    exact absurd h (by simp)

theorem ends_nil : Ends [] := fun _ hc => nomatch hc

/-- The text of a value begins with no white space, and not as the end of an array. -/
theorem opened_chars {v : Json} (hv : v.Sound) : Opened (chars v) := by
  cases hv with
  | null => exact ⟨'n', _, rfl, by decide⟩
  | bool b => cases b <;> exact ⟨_, _, rfl, by decide⟩
  | string s => exact ⟨'\x22', _, rfl, by decide⟩
  | array h => exact ⟨'[', _, rfl, by decide⟩
  | object h => exact ⟨'\x7b', _, rfl, by decide⟩
  | number h =>
    obtain ⟨c, tail, hfront, hc⟩ := front_of_number? (number?_render h ends_nil)
    rw [List.append_nil] at hfront
    refine ⟨c, tail, hfront, ?_⟩
    rcases hc with rfl | hdigit
    · decide
    · refine ⟨?_, ?_, ?_, ?_, ?_⟩ <;> exact ne_of_isDigit hdigit (by decide)

/-! ## Values -/

theorem value?_number {n : Number} (hn : n.Sound) (hrest : Ends rest) :
    value? (fuel + 1) (n.render ++ rest) = some (.number n, rest) := by
  have hopened : Opened (n.render ++ rest) := (opened_chars (.number hn)).append rest
  have hread := number?_render hn hrest
  obtain ⟨c, tail, hfront, hc⟩ := front_of_number? hread
  have hother : ∀ d, d ≠ '-' → d.isDigit = false → ∀ r, n.render ++ rest ≠ d :: r := by
    intro d hminus hdigit r h
    obtain rfl : c = d := (List.cons.inj (hfront.symm.trans h)).1
    rcases hc with rfl | hc
    · exact hminus rfl
    · rw [hc] at hdigit
      exact absurd hdigit (by decide)
  unfold value?
  rw [hopened.skipSpace]
  split
  case h_7 => rw [hread]; rfl
  all_goals exact absurd (by assumption) (hother _ (by decide) (by decide) _)

theorem ends_cons {c : Char} (hc : c = ',' ∨ c = ']' ∨ c = '\x7d') : Ends (c :: rest) := by
  intro d hd
  obtain rfl : c = d := Option.some_inj.mp hd
  rcases hc with rfl | rfl | rfl <;> decide

theorem itemChars_cons_cons (item next : Json) (items : List Json) :
    itemChars (item :: next :: items) = chars item ++ ',' :: itemChars (next :: items) := rfl

theorem fieldChars_cons_cons (key : String) (value : Json) (next : String × Json)
    (fields : List (String × Json)) :
    fieldChars ((key, value) :: next :: fields) =
      quoted key ++ ':' :: (chars value ++ ',' :: fieldChars (next :: fields)) := rfl

theorem fieldChars_front {fields : List (String × Json)} (hne : fields ≠ []) :
    ∃ cs, fieldChars fields = '\x22' :: cs := by
  obtain ⟨⟨key, value⟩, fields, rfl⟩ := List.exists_cons_of_ne_nil hne
  cases fields <;> exact ⟨_, rfl⟩

theorem opened_itemChars {items : List Json} (hne : items ≠ []) (h : ∀ v ∈ items, v.Sound) :
    Opened (itemChars items) := by
  obtain ⟨item, items, rfl⟩ := List.exists_cons_of_ne_nil hne
  have hitem := opened_chars (h item List.mem_cons_self)
  cases items with
  | nil => exact hitem
  | cons next items => exact hitem.append _

/-- An array that is not empty, when its items are read. -/
theorem value?_array {items : List Json} (hopened : Opened cs)
    (h : items? fuel [] cs = some (items, rest)) :
    value? (fuel + 1) ('[' :: cs) = some (.array items, rest) := by
  unfold value?
  rw [skipSpace_cons (by decide)]
  simp only [hopened.skipSpace]
  split
  · obtain ⟨c, tail, hfront, -, -, -, -, hclose⟩ := hopened
    exact absurd (List.cons.inj hfront).1.symm hclose
  · rw [h]
    rfl

/-- An object that is not empty, when its fields are read. -/
theorem value?_object {fields : List (String × Json)}
    (h : fields? fuel (some []) ('\x22' :: cs) = some (some fields, rest)) :
    value? (fuel + 1) ('\x7b' :: '\x22' :: cs) = some (.object fields, rest) := by
  show (fields? fuel (some []) ('\x22' :: cs)).map _ = _
  rw [h]
  rfl

theorem items?_last {done : List Json} {v : Json}
    (h : value? fuel cs = some (v, ']' :: rest)) :
    items? (fuel + 1) done cs = some (done.reverse ++ [v], rest) := by
  rw [items?, h]
  show some ((v :: done).reverse, rest) = _
  rw [List.reverse_cons]

theorem items?_next {done : List Json} {v : Json}
    (h : value? fuel cs = some (v, ',' :: rest)) :
    items? (fuel + 1) done cs = items? fuel (v :: done) rest := by
  rw [items?, h]
  rfl

theorem fields?_field {done : List (String × Json)} {key : String} {v : Json} {r : Char}
    (h : value? fuel cs = some (v, r :: rest)) (hr : r = ',' ∨ r = '\x7d') :
    fields? (fuel + 1) (some done) (quoted key ++ ':' :: cs) =
      if r = ',' then fields? fuel (some ((key, v) :: done)) rest
      else some (some (done.reverse ++ [(key, v)]), rest) := by
  have htext : quoted key ++ ':' :: cs =
      '\x22' :: (key.toList.flatMap escapeChar ++ '\x22' :: ':' :: cs) := by
    rw [quoted, List.cons_append, List.append_assoc, List.singleton_append]
  rw [htext, fields?, skipSpace_cons (by decide)]
  simp only [quoted?_flatMap, Option.bind_eq_bind, Option.bind_some]
  rw [skipSpace_cons (by decide)]
  simp only [h, Option.bind_some]
  rcases hr with rfl | rfl
  · rw [skipSpace_cons (by decide)]
    rfl
  · rw [skipSpace_cons (by decide)]
    show some (some ((key, v) :: done).reverse, rest) = _
    rw [List.reverse_cons]
    rfl

mutual

theorem value?_chars (v : Json) (hv : v.Sound) {fuel : Nat} (hfuel : (chars v).length < fuel)
    {rest : List Char} (hrest : Ends rest) : value? fuel (chars v ++ rest) = some (v, rest) := by
  obtain ⟨fuel, rfl⟩ := Nat.exists_eq_succ_of_ne_zero (Nat.ne_zero_of_lt hfuel)
  cases v with
  | null => rfl
  | bool b => cases b <;> rfl
  | number n =>
    cases hv with
    | number hn => exact value?_number hn hrest
  | string s =>
    show (quoted? (s.toList.flatMap escapeChar ++ ['\x22'] ++ rest)).map _ = _
    rw [List.append_assoc, List.singleton_append, quoted?_flatMap]
    rfl
  | array items =>
    cases hv with
    | array hitems =>
      rw [chars, List.length_cons, List.length_append, List.length_singleton] at hfuel
      rw [chars, List.cons_append, List.append_assoc, List.singleton_append]
      rcases eq_or_ne items [] with rfl | hne
      · rfl
      · exact value?_array ((opened_itemChars hne hitems).append _)
          (items?_itemChars items hitems hne [] (by omega) rest)
  | object fields =>
    cases hv with
    | object hfields =>
      rw [chars, List.length_cons, List.length_append, List.length_singleton] at hfuel
      rw [chars, List.cons_append, List.append_assoc, List.singleton_append]
      rcases eq_or_ne fields [] with rfl | hne
      · rfl
      · obtain ⟨cs, hcs⟩ := fieldChars_front hne
        have hread : fields? fuel (some []) (fieldChars fields ++ '\x7d' :: rest) =
            some (some fields, rest) := fields?_fieldChars fields hfields hne [] (by omega) rest
        rw [hcs, List.cons_append] at hread ⊢
        exact value?_object hread

theorem items?_itemChars (items : List Json) (h : ∀ v ∈ items, v.Sound) (hne : items ≠ [])
    (done : List Json) {fuel : Nat} (hfuel : (itemChars items).length + 1 < fuel)
    (rest : List Char) :
    items? fuel done (itemChars items ++ ']' :: rest) = some (done.reverse ++ items, rest) := by
  obtain ⟨fuel, rfl⟩ := Nat.exists_eq_succ_of_ne_zero (Nat.ne_zero_of_lt hfuel)
  cases items with
  | nil => exact absurd rfl hne
  | cons item items =>
    have hitem := h item List.mem_cons_self
    cases items with
    | nil =>
      rw [itemChars] at hfuel ⊢
      exact items?_last (value?_chars item hitem (by omega) (ends_cons (.inr (.inl rfl))))
    | cons next items =>
      rw [itemChars_cons_cons, List.length_append, List.length_cons] at hfuel
      rw [itemChars_cons_cons, List.append_assoc, List.cons_append,
        items?_next (value?_chars item hitem (by omega) (ends_cons (.inl rfl))),
        items?_itemChars (next :: items) (fun v hv => h v (List.mem_cons_of_mem item hv))
          (List.cons_ne_nil _ _) (item :: done) (by omega) rest,
        List.reverse_cons, List.append_assoc,
        List.singleton_append]

theorem fields?_fieldChars (fields : List (String × Json)) (h : ∀ f ∈ fields, f.2.Sound)
    (hne : fields ≠ []) (done : List (String × Json)) {fuel : Nat}
    (hfuel : (fieldChars fields).length + 1 < fuel) (rest : List Char) :
    fields? fuel (some done) (fieldChars fields ++ '\x7d' :: rest) =
      some (some (done.reverse ++ fields), rest) := by
  obtain ⟨fuel, rfl⟩ := Nat.exists_eq_succ_of_ne_zero (Nat.ne_zero_of_lt hfuel)
  cases fields with
  | nil => exact absurd rfl hne
  | cons field fields =>
    obtain ⟨key, value⟩ := field
    have hvalue : value.Sound := h (key, value) List.mem_cons_self
    cases fields with
    | nil =>
      rw [fieldChars, List.length_append, List.length_cons] at hfuel
      rw [fieldChars, List.append_assoc, List.cons_append]
      exact fields?_field (value?_chars value hvalue (by omega) (ends_cons (.inr (.inr rfl))))
        (.inr rfl)
    | cons next fields =>
      rw [fieldChars_cons_cons, List.length_append, List.length_cons, List.length_append,
        List.length_cons] at hfuel
      rw [fieldChars_cons_cons, List.append_assoc, List.cons_append, List.append_assoc,
        List.cons_append,
        fields?_field (value?_chars value hvalue (by omega) (ends_cons (.inl rfl))) (.inl rfl),
        if_pos rfl, fields?_fieldChars (next :: fields)
          (fun f hf => h f (List.mem_cons_of_mem _ hf)) (List.cons_ne_nil _ _)
          ((key, value) :: done) (by omega) rest, List.reverse_cons, List.append_assoc,
        List.singleton_append]

end

/-- The compact text of a value spells that value, and nothing else. -/
theorem read?_compact {v : Json} (hv : v.Sound) : read? v.compact = some v := by
  have hread : value? ((chars v).length + 1) (chars v ++ []) = some (v, []) :=
    value?_chars v hv (Nat.lt_succ_self _) ends_nil
  rw [List.append_nil] at hread
  rw [read?, compact, String.toList_ofList]
  simp only [hread, Option.bind_eq_bind, Option.bind_some]
  rfl

end DocPages.Json
