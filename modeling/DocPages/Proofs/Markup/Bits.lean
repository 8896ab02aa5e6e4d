-- Editing markup that is well formed: text without an angle, start tags with
-- quoted values, and end tags. Each start tag is given to the change, in the
-- order of the markup, and nothing else changes.
import DocPages.Markup.Edit

namespace DocPages.Markup

/-! ## Reading a tag that has been written -/

/-- An attribute with a name in lower case and a value between double quotes. -/
structure Attribute.Quoted (a : Attribute) : Prop where
  named : a.name ≠ []
  lower : Text.asciiLower a.name = a.name
  plain : a.name.all (fun c => !endsAttributeName c) = true
  value : '\x22' ∉ a.value
  text : a.text = a.name ++ '=' :: '\x22' :: (a.value ++ ['\x22'])

instance (a : Attribute) : Decidable a.Quoted :=
  decidable_of_iff
    (a.name ≠ [] ∧ Text.asciiLower a.name = a.name ∧
      a.name.all (fun c => !endsAttributeName c) = true ∧ '\x22' ∉ a.value ∧
      a.text = a.name ++ '=' :: '\x22' :: (a.value ++ ['\x22']))
    ⟨fun ⟨hn, hl, hp, hv, ht⟩ => ⟨hn, hl, hp, hv, ht⟩,
      fun ⟨hn, hl, hp, hv, ht⟩ => ⟨hn, hl, hp, hv, ht⟩⟩

/-- A name that starts with a letter and that nothing in it ends. -/
structure IsTagName (name : List Char) : Prop where
  letter : name.head?.any Char.isAlpha = true
  plain : name.all (fun c => !endsTagName c) = true

instance (name : List Char) : Decidable (IsTagName name) :=
  decidable_of_iff
    (name.head?.any Char.isAlpha = true ∧ name.all (fun c => !endsTagName c) = true)
    ⟨fun ⟨h, h'⟩ => ⟨h, h'⟩, fun ⟨h, h'⟩ => ⟨h, h'⟩⟩

theorem IsTagName.eq_cons {name : List Char} (h : IsTagName name) :
    ∃ c rest, name = c :: rest ∧ c.isAlpha = true := by
  cases name with
  | nil => cases h.letter
  | cons c rest => exact ⟨c, rest, rfl, h.letter⟩

/-- A tag with such a name whose attributes are all quoted. -/
structure StartTag.Clean (tag : StartTag) : Prop where
  name : IsTagName tag.name
  attributes : ∀ a ∈ tag.attributes, a.Quoted

instance (tag : StartTag) : Decidable tag.Clean :=
  decidable_of_iff (IsTagName tag.name ∧ ∀ a ∈ tag.attributes, a.Quoted)
    ⟨fun ⟨h, h'⟩ => ⟨h, h'⟩, fun ⟨h, h'⟩ => ⟨h, h'⟩⟩

/-- The end of a tag behind its attributes. -/
def StartTag.ending (tag : StartTag) : List Char :=
  if tag.selfClosing then [' ', '/', '>'] else ['>']

/-- Attributes as they are written, each behind a space. -/
def spaced (attributes : List Attribute) : List Char := attributes.flatMap fun a => ' ' :: a.text

/-- The text of a tag behind its angle. -/
def StartTag.inner (tag : StartTag) : List Char :=
  tag.name ++ spaced tag.attributes ++ tag.ending

theorem chars_eq_cons (tag : StartTag) : tag.chars = '<' :: tag.inner := rfl

/-- What is skipped belongs to the attribute before. -/
theorem attributesFrom_skip (front back : List Char) (done : List Attribute) :
    attributesFrom front.length done (front ++ back) =
      (attributesFrom 0 done back).map fun r => (r.1, r.2.1, r.2.2 + front.length) := by
  induction front with
  | nil =>
    cases h : attributesFrom 0 done back with
    | none => simp [h]
    | some r => simp [h]
  | cons c rest ih =>
    rw [List.length_cons, List.cons_append, attributesFrom, ih, Option.map_map]
    rfl

theorem attributeLength?_quoted (name value back : List Char) (hvalue : '\x22' ∉ value) :
    attributeLength? (name ++ '=' :: '\x22' :: (value ++ '\x22' :: back)) name.length =
      some (name.length + value.length + 3) := by
  have htext : (value ++ '\x22' :: back).takeWhile (· != '\x22') = value := by
    rw [List.takeWhile_append_of_pos]
    · simp
    · intro c hc
      simpa using fun h : c = '\x22' => hvalue (h ▸ hc)
  unfold attributeLength?
  simp only [List.drop_left]
  have hgap : ∀ rest : List Char, ('=' :: rest).takeWhile isTagSpace = [] := fun _ => rfl
  have hspace : ∀ rest : List Char, ('\x22' :: rest).takeWhile isTagSpace = [] := fun _ => rfl
  simp only [hgap, hspace, List.length_nil, List.drop_zero]
  simp [htext]
  omega

/-- An attribute is read back. -/
theorem attribute?_quoted {a : Attribute} (h : a.Quoted) (back : List Char) :
    attribute? (a.text ++ back) = some (a, a.text.length) := by
  obtain ⟨hnamed, hlower, hplain, hvalue, htext⟩ := h
  obtain ⟨c, name, hname⟩ := List.exists_cons_of_ne_nil hnamed
  have hlength : 1 + (((a.text ++ back).drop 1).takeWhile fun c => !endsAttributeName c).length =
      a.name.length := by
    rw [htext, hname]
    simp only [List.cons_append, List.append_assoc, List.drop_one, List.tail_cons]
    rw [List.takeWhile_append_of_pos]
    · have hend : endsAttributeName '=' = true := by decide
      simp [hend, Nat.add_comm]
    · intro d hd
      exact List.all_eq_true.mp hplain d (by rw [hname]; exact List.mem_cons_of_mem c hd)
  have hwhole : attributeLength? (a.text ++ back) a.name.length =
      some (a.name.length + a.value.length + 3) := by
    have := attributeLength?_quoted a.name a.value back hvalue
    rw [htext]
    simpa using this
  have hall : a.text.length = a.name.length + a.value.length + 3 := by
    rw [htext]
    simp
    omega
  unfold attribute?
  dsimp only
  rw [hlength, hwhole]
  have htake : (a.text ++ back).take a.name.length = a.name := by
    rw [htext, List.append_assoc, List.take_left]
  have htook : (a.text ++ back).take (a.name.length + a.value.length + 3) = a.text := by
    rw [← hall, List.take_left]
  have hne : ¬ a.name.length + a.value.length + 3 = a.name.length := by omega
  simp [htake, htook, hlower, hne, hall]

theorem attributesFrom_space (done : List Attribute) (cs : List Char) :
    attributesFrom 0 done (' ' :: cs) =
      (attributesFrom 0 done cs).map fun r => (r.1, r.2.1, r.2.2 + 1) := by
  have hspace : isTagSpace ' ' = true := by decide
  simp [attributesFrom, hspace]

/-- An attribute is taken in at once. -/
theorem attributesFrom_quoted {a : Attribute} (ha : a.Quoted) (done : List Attribute)
    (back : List Char) :
    attributesFrom 0 done (a.text ++ back) =
      (attributesFrom 0 (a :: done) back).map fun r => (r.1, r.2.1, r.2.2 + a.text.length) := by
  obtain ⟨c, name, hname⟩ := List.exists_cons_of_ne_nil ha.named
  obtain ⟨tail, htail⟩ : ∃ tail, a.text = c :: tail := by
    rw [ha.text, hname]
    exact ⟨_, rfl⟩
  have hc := List.all_eq_true.mp ha.plain c (by rw [hname]; exact List.mem_cons_self)
  simp only [endsAttributeName, endsTagName, Bool.not_eq_true', Bool.or_eq_false_iff] at hc
  obtain ⟨⟨⟨hspace, hslash⟩, hangle⟩, -⟩ := hc
  have hread := attribute?_quoted ha back
  have hskip := attributesFrom_skip tail back (a :: done)
  rw [htail, List.cons_append] at hread ⊢
  rw [attributesFrom]
  simp only [hangle, hslash, hspace, Bool.false_and, Bool.or_false, hread, List.length_cons,
    Nat.add_sub_cancel, hskip, Option.map_map, if_false, Bool.false_eq_true]
  rfl

/-- The rest of a clean tag is read back, attribute by attribute. -/
theorem attributesFrom_spaced (attributes done : List Attribute) (tag : StartTag)
    (h : ∀ a ∈ attributes, a.Quoted) (back : List Char) :
    attributesFrom 0 done (spaced attributes ++ (tag.ending ++ back)) =
      some (done.reverse ++ attributes, tag.selfClosing,
        (spaced attributes).length + tag.ending.length) := by
  induction attributes generalizing done with
  | nil =>
    unfold StartTag.ending
    cases tag.selfClosing with
    | false => simp [spaced, attributesFrom]
    | true =>
      have hspace : isTagSpace ' ' = true := by decide
      simp [spaced, attributesFrom, hspace]
  | cons a rest ih =>
    have ha := h a List.mem_cons_self
    have hrest := ih (a :: done) fun x hx => h x (List.mem_cons_of_mem a hx)
    have hback : spaced (a :: rest) ++ (tag.ending ++ back) =
        ' ' :: (a.text ++ (spaced rest ++ (tag.ending ++ back))) := by
      simp [spaced]
    have hlength : (spaced (a :: rest)).length = (spaced rest).length + a.text.length + 1 := by
      simp [spaced]
      omega
    rw [hback, attributesFrom_space, attributesFrom_quoted ha, hrest, hlength]
    simp
    omega

/-- A name that is written is read up to what ends it. -/
theorem takeWhile_tagName {name : List Char} (h : IsTagName name) {c : Char}
    (hc : endsTagName c = true) (back : List Char) :
    (name ++ c :: back).takeWhile (fun c => !endsTagName c) = name := by
  rw [List.takeWhile_append_of_pos]
  · simp [hc]
  · exact fun d hd => List.all_eq_true.mp h.plain d hd

/-- A clean tag is read back as it is. -/
theorem read?_inner {tag : StartTag} (h : tag.Clean) (back : List Char) :
    StartTag.read? (tag.inner ++ back) = some (tag, tag.inner.length) := by
  obtain ⟨c, rest, hend, hrest⟩ : ∃ c rest, endsTagName c = true ∧
      spaced tag.attributes ++ (tag.ending ++ back) = c :: rest := by
    cases hattributes : tag.attributes with
    | nil =>
      unfold StartTag.ending
      cases tag.selfClosing with
      | false => exact ⟨'>', back, by decide, rfl⟩
      | true => exact ⟨' ', '/' :: '>' :: back, by decide, rfl⟩
    | cons a more => exact ⟨' ', _, by decide, rfl⟩
  have hsplit : tag.inner ++ back =
      tag.name ++ (spaced tag.attributes ++ (tag.ending ++ back)) := by
    simp [StartTag.inner]
  have hname : (tag.inner ++ back).takeWhile (fun c => !endsTagName c) = tag.name := by
    rw [hsplit, hrest]
    exact takeWhile_tagName h.name hend rest
  unfold StartTag.read?
  dsimp only
  rw [hname, hsplit, List.drop_left, attributesFrom_spaced _ _ _ h.attributes]
  simp [StartTag.inner]

/-! ## Bits -/

/-- A bit of finished markup. -/
inductive Bit where
  | text (cs : List Char)
  | start (tag : StartTag)
  | stop (name : List Char)

/-- A bit as it is written. -/
def Bit.chars : Bit → List Char
  | .text cs => cs
  | .start tag => tag.chars
  | .stop name => '<' :: '/' :: (name ++ ['>'])

/-- The elements that change what the markup behind their tags means. -/
def loudElements : List String := ["select", "frameset", "svg", "math"] ++ textElements

/-- A bit that is read back as it is, and changes nothing of what stands behind it. -/
def Bit.Calm : Bit → Prop
  | .text cs => '<' ∉ cs
  | .start tag => tag.Clean ∧ String.ofList (Text.asciiLower tag.name) ∉ loudElements
  | .stop name => IsTagName name

instance : (bit : Bit) → Decidable bit.Calm
  | .text cs => inferInstanceAs (Decidable ('<' ∉ cs))
  | .start tag =>
    inferInstanceAs
      (Decidable (tag.Clean ∧ String.ofList (Text.asciiLower tag.name) ∉ loudElements))
  | .stop name => inferInstanceAs (Decidable (IsTagName name))

/-- Bits whose start tags have been changed, one after another. -/
def editBits {σ : Type} (change : σ → StartTag → Option StartTag × σ) (state : σ) :
    List Bit → List Char
  | [] => []
  | .start tag :: rest =>
    ((change state tag).1.getD tag).chars ++ editBits change (change state tag).2 rest
  | bit :: rest => bit.chars ++ editBits change state rest

/-- A start tag that is not loud leaves the context as it is, and markup stands behind it. -/
theorem enter_start {tag : StartTag}
    (h : String.ofList (Text.asciiLower tag.name) ∉ loudElements) :
    Context.start.enter tag = .ok (.start, none) := by
  unfold Context.enter
  generalize String.ofList (Text.asciiLower tag.name) = name at h
  simp only [loudElements, List.mem_append, List.mem_cons, List.not_mem_nil, or_false,
    not_or] at h
  obtain ⟨⟨hselect, hframes, hsvg, hmath⟩, htext⟩ := h
  simp [Context.start, Guard.enter, realmsBehind, hselect, hframes, hsvg, hmath, htext, Except.map,
    Context.realm]

theorem leave_start (name : String) : Context.start.leave name = .start := rfl

/-- A letter behind an angle is the start of a start tag, if there is one. -/
theorem piece_letter (realm : Realm) {c : Char} (hc : c.isAlpha = true) {cs : List Char}
    {tag : StartTag} {length : Nat} (hread : StartTag.read? (c :: cs) = some (tag, length)) :
    piece realm ('<' :: c :: cs) = (.start tag, length + 1) := by
  have hslash : c ≠ '/' := by rintro rfl; cases hc
  have hmark : c ≠ '!' := by rintro rfl; cases hc
  have hquestion : c ≠ '?' := by rintro rfl; cases hc
  unfold piece
  split
  · rename_i heq
    cases heq
    exact absurd rfl hslash
  · rename_i heq
    cases heq
    exact absurd rfl hmark
  · rename_i heq
    cases heq
    exact absurd rfl hmark
  · rename_i heq
    cases heq
    exact absurd rfl hquestion
  · rename_i heq
    cases heq
    simp only [hc, if_true, hread]
  · rename_i hnone
    exact absurd rfl (hnone c cs)

/-- The piece at a clean start tag is that tag. -/
theorem piece_start (realm : Realm) {tag : StartTag} (h : tag.Clean) (back : List Char) :
    piece realm (tag.chars ++ back) = (.start tag, tag.chars.length) := by
  obtain ⟨c, rest, hname, hc⟩ := h.name.eq_cons
  have hread := read?_inner h back
  have hinner : tag.inner ++ back = c :: (rest ++ spaced tag.attributes ++ tag.ending ++ back) := by
    simp [StartTag.inner, hname]
  rw [chars_eq_cons, List.cons_append, hinner]
  rw [hinner] at hread
  exact piece_letter realm hc hread

/-- The piece at an end tag is that tag. -/
theorem piece_stop (realm : Realm) {name : List Char} (h : IsTagName name) (back : List Char) :
    piece realm ((Bit.stop name).chars ++ back) =
      (.stop (String.ofList (Text.asciiLower name)), (Bit.stop name).chars.length) := by
  obtain ⟨c, rest, hname, hc⟩ := h.eq_cons
  have hclean : (StartTag.mk name [] false).Clean := ⟨h, fun a ha => by cases ha⟩
  have hread := read?_inner hclean back
  have hinner : (StartTag.mk name [] false).inner = name ++ ['>'] := by
    simp [StartTag.inner, spaced, StartTag.ending]
  rw [hinner] at hread
  have hchars : (Bit.stop name).chars ++ back = '<' :: '/' :: c :: (rest ++ '>' :: back) := by
    simp [Bit.chars, hname]
  have hlength : (Bit.stop name).chars.length = (name ++ ['>']).length + 2 := by
    simp [Bit.chars]
  have hback : name ++ ['>'] ++ back = c :: (rest ++ '>' :: back) := by
    simp [hname]
  rw [hback] at hread
  rw [hchars, hlength]
  simp only [piece, hc, if_true, hread]

/-! ## Editing bits -/

variable {σ : Type} (change : σ → StartTag → Option StartTag × σ)

/-- Text without an angle is passed over. -/
theorem editFrom_text (state : σ) (ctx : Context) {cs : List Char} (h : '<' ∉ cs) (fuel : Nat)
    (back : List Char) :
    editFrom change (fuel + cs.length) state ctx (cs ++ back) =
      (editFrom change fuel state ctx back).map (cs ++ ·) := by
  induction cs with
  | nil =>
    cases hrest : editFrom change fuel state ctx back <;> simp [hrest, Except.map]
  | cons c rest ih =>
    rw [List.mem_cons, not_or] at h
    have hc : (c != '<') = true := by simpa using Ne.symm h.1
    rw [List.length_cons, ← Nat.add_assoc, List.cons_append, editFrom]
    simp only [hc, if_true, ih h.2]
    cases editFrom change fuel state ctx back <;> rfl

/-- A calm start tag is given to the change. -/
theorem editFrom_start (state : σ) {tag : StartTag} (h : (Bit.start tag).Calm) (fuel : Nat)
    (back : List Char) :
    editFrom change (fuel + 1) state .start (tag.chars ++ back) =
      (editFrom change fuel (change state tag).2 .start back).map
        (((change state tag).1.getD tag).chars ++ ·) := by
  have hpiece := piece_start .page h.1 back
  have hwritten : ((change state tag).1.map StartTag.chars).getD tag.chars =
      ((change state tag).1.getD tag).chars := by
    cases (change state tag).1 <;> rfl
  have htake : (tag.chars ++ back).take tag.chars.length = tag.chars := List.take_left
  have hdrop : (tag.chars ++ back).drop tag.chars.length = back := List.drop_left
  rw [chars_eq_cons, List.cons_append] at hpiece htake hdrop ⊢
  have hrealm : Context.start.realm = .page := rfl
  rw [editFrom, hrealm]
  simp only [bne_self_eq_false, Bool.false_eq_true, if_false, hpiece, htake, hdrop,
    enter_start h.2]
  rw [← chars_eq_cons, hwritten]

/-- An end tag is passed over. -/
theorem editFrom_stop (state : σ) {name : List Char} (h : IsTagName name) (fuel : Nat)
    (back : List Char) :
    editFrom change (fuel + 1) state .start ((Bit.stop name).chars ++ back) =
      (editFrom change fuel state .start back).map ((Bit.stop name).chars ++ ·) := by
  have hpiece := piece_stop .page h back
  have htake : ((Bit.stop name).chars ++ back).take (Bit.stop name).chars.length =
      (Bit.stop name).chars := List.take_left
  have hdrop : ((Bit.stop name).chars ++ back).drop (Bit.stop name).chars.length = back :=
    List.drop_left
  have hchars : (Bit.stop name).chars = '<' :: '/' :: (name ++ ['>']) := rfl
  rw [hchars, List.cons_append] at hpiece htake hdrop ⊢
  have hrealm : Context.start.realm = .page := rfl
  rw [editFrom, hrealm]
  simp only [bne_self_eq_false, Bool.false_eq_true, if_false, hpiece, htake, hdrop, leave_start]

theorem editFrom_bits (bits : List Bit) (h : ∀ b ∈ bits, b.Calm) (state : σ) (fuel : Nat)
    (hfuel : (bits.flatMap Bit.chars).length < fuel) :
    editFrom change fuel state .start (bits.flatMap Bit.chars) =
      .ok (editBits change state bits) := by
  induction bits generalizing state fuel with
  | nil =>
    obtain ⟨fuel, rfl⟩ := Nat.exists_eq_add_of_lt hfuel
    rfl
  | cons b rest ih =>
    have hrest : ∀ state fuel, (rest.flatMap Bit.chars).length < fuel →
        editFrom change fuel state .start (rest.flatMap Bit.chars) =
          .ok (editBits change state rest) :=
      ih fun x hx => h x (List.mem_cons_of_mem b hx)
    have hb := h b List.mem_cons_self
    rw [List.flatMap_cons] at hfuel ⊢
    rw [List.length_append] at hfuel
    cases b with
    | text cs =>
      have hsplit : fuel = fuel - cs.length + cs.length := by
        simp only [Bit.chars] at hfuel
        omega
      rw [hsplit, Bit.chars, editFrom_text change state .start hb, hrest]
      · rfl
      · simp only [Bit.chars] at hfuel
        omega
    | start tag =>
      obtain ⟨fuel, rfl⟩ : ∃ more, fuel = more + 1 := ⟨fuel - 1, by omega⟩
      rw [Bit.chars, editFrom_start change state hb, hrest]
      · rfl
      · simp only [Bit.chars, chars_eq_cons, List.length_cons] at hfuel
        omega
    | stop name =>
      obtain ⟨fuel, rfl⟩ : ∃ more, fuel = more + 1 := ⟨fuel - 1, by omega⟩
      rw [editFrom_stop change state hb, hrest]
      · rfl
      · simp only [Bit.chars, List.length_cons] at hfuel
        omega

/-- Editing well-formed markup gives its start tags to the change in order, and leaves the rest. -/
theorem edit_bits (bits : List Bit) (h : ∀ b ∈ bits, b.Calm) (state : σ) :
    edit change state (bits.flatMap Bit.chars) = .ok (editBits change state bits) :=
  editFrom_bits change bits h state _ (Nat.lt_succ_self _)

end DocPages.Markup
