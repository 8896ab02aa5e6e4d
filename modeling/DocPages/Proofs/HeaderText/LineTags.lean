-- The tag of a line. What stands in front of a `<` tells whether it may begin a
-- tag, and what stands behind a `>` whether it may end one. A line loses what
-- reaches from the first of the one kind to the last of the other, and what is
-- left of it holds no tag.
import DocPages.Proofs.HeaderText.Tags

namespace DocPages.HeaderText

/-! ## Where a tag begins -/

/-- Whether a `<` behind this text may begin a tag. If nothing stands in front of it, `start` tells. -/
def begins (start : Bool) (front : List Char) : Bool := front.getLast?.elim start isTagNeighbour

theorem begins_cons (start : Bool) (c : Char) (front : List Char) :
    begins start (c :: front) = begins (isTagNeighbour c) front := by
  unfold begins
  rw [List.getLast?_cons]
  cases front.getLast? <;> rfl

/-- A tag stands in the text, at its front only if `start`. -/
def HasTag (start : Bool) (cs : List Char) : Prop :=
  ∃ front rest, cs = front ++ '<' :: rest ∧ begins start front = true ∧ Closes rest

theorem hasTag_cons {start : Bool} {c : Char} {cs : List Char} :
    HasTag start (c :: cs) ↔
      (start = true ∧ c = '<' ∧ Closes cs) ∨ HasTag (isTagNeighbour c) cs := by
  constructor
  · rintro ⟨front, rest, hsplit, hbegins, hcloses⟩
    cases front with
    | nil =>
      obtain ⟨rfl, rfl⟩ := List.cons.inj hsplit
      exact Or.inl ⟨hbegins, rfl, hcloses⟩
    | cons d front =>
      obtain ⟨rfl, rfl⟩ := List.cons.inj hsplit
      rw [begins_cons] at hbegins
      exact Or.inr ⟨front, rest, rfl, hbegins, hcloses⟩
  · rintro (⟨rfl, rfl, hcloses⟩ | ⟨front, rest, rfl, hbegins, hcloses⟩)
    · exact ⟨[], cs, rfl, rfl, hcloses⟩
    · exact ⟨c :: front, rest, rfl, by rwa [begins_cons], hcloses⟩

instance (cs : List Char) : Decidable (Closes cs) :=
  decidable_of_iff (tagEnd? cs ≠ none) (by rw [Ne, tagEnd?_eq_none_iff, not_not])

instance : (start : Bool) → (cs : List Char) → Decidable (HasTag start cs)
  | _, [] => isFalse (by rintro ⟨front, rest, hsplit, -⟩; simp at hsplit)
  | _, c :: cs =>
    have := instDecidableHasTag (isTagNeighbour c) cs
    decidable_of_iff _ hasTag_cons.symm

/-- The tag of a line. It reaches from the first `<` that may begin one to the last `>` that may
end one. -/
structure LineTag (start : Bool) (line front inner back : List Char) : Prop where
  split : line = front ++ '<' :: (inner ++ '>' :: back)
  starts : begins start front = true
  ends : Ends back
  first : ∀ f g, front = f ++ '<' :: g → begins start f = false
  last : ¬ Closes back

theorem Closes.exists_last {cs : List Char} (h : Closes cs) :
    ∃ inner back, cs = inner ++ '>' :: back ∧ tagEnd? cs = some (inner.length + 1) ∧
      Ends back ∧ ¬ Closes back := by
  have hsome : tagEnd? cs ≠ none := tagEnd?_eq_none_iff.not.mpr (not_not.mpr h)
  obtain ⟨n, hn⟩ := Option.ne_none_iff_exists'.mp hsome
  obtain ⟨inner, back, hsplit, rfl, hends, hlast⟩ := exists_of_tagEnd? hn
  exact ⟨inner, back, hsplit, hn, hends, hlast⟩

section Line

variable {line : List Char}

theorem Closes.append {front back : List Char} (hline : '\n' ∉ front) (h : Closes back) :
    Closes (front ++ back) := by
  obtain ⟨inner, rest, rfl, hinner, hends⟩ := h
  refine ⟨front ++ inner, rest, by simp, ?_, hends⟩
  simp [hline, hinner]

theorem HasTag.closes {start : Bool} (hline : '\n' ∉ line) (h : HasTag start line) :
    Closes line := by
  obtain ⟨front, rest, rfl, -, hcloses⟩ := h
  rw [List.append_cons] at hline ⊢
  exact hcloses.append fun hmem => hline (List.mem_append_left rest hmem)

/-- A line that holds a tag has a widest one. -/
theorem HasTag.exists_lineTag {start : Bool} (hline : '\n' ∉ line) (h : HasTag start line) :
    ∃ front inner back, LineTag start line front inner back := by
  induction line generalizing start with
  | nil =>
    obtain ⟨front, rest, hsplit, -⟩ := h
    simp at hsplit
  | cons c cs ih =>
    rw [List.mem_cons, not_or] at hline
    by_cases hhere : start = true ∧ c = '<' ∧ Closes cs
    · obtain ⟨rfl, rfl, hcloses⟩ := hhere
      obtain ⟨inner, back, rfl, -, hends, hlast⟩ := hcloses.exists_last
      exact ⟨[], inner, back, rfl, rfl, hends, by simp, hlast⟩
    · have hlater : HasTag (isTagNeighbour c) cs := (hasTag_cons.mp h).resolve_left hhere
      obtain ⟨front, inner, back, htag⟩ := ih hline.2 hlater
      refine ⟨c :: front, inner, back, ?_, ?_, htag.ends, ?_, htag.last⟩
      · rw [htag.split, List.cons_append]
      · rw [begins_cons, htag.starts]
      · intro f g hfront
        cases f with
        | nil =>
          obtain ⟨rfl, -⟩ := List.cons.inj hfront
          -- The `<` in front of the tag would begin a wider one.
          have hcloses : Closes cs := hlater.closes hline.2
          exact Bool.eq_false_iff.mpr fun hstart => hhere ⟨hstart, rfl, hcloses⟩
        | cons d f =>
          obtain ⟨rfl, rfl⟩ := List.cons.inj hfront
          rw [begins_cons]
          exact htag.first f g rfl

end Line

/-! ## Dropping with a flag -/

/-- Drops the tags of a text, one at its front only if `start`. -/
def dropFrom (start : Bool) (cs : List Char) : List Char := Text.replaceFrom tagAt start 0 cs

theorem dropTags_eq (cs : List Char) : dropTags cs = dropFrom true cs := rfl

theorem dropFrom_tag {inner back : List Char}
    (h : tagEnd? (inner ++ '>' :: back) = some (inner.length + 1)) :
    dropFrom true ('<' :: (inner ++ '>' :: back)) = back.take 1 ++ dropFrom false (back.drop 1) := by
  have hafter : (inner ++ '>' :: back).drop (inner.length + 1) = back := by simp
  have hsplit : inner ++ '>' :: back = inner ++ '>' :: back.take 1 ++ back.drop 1 := by
    rw [List.append_assoc, List.cons_append, List.take_append_drop]
  have htag : tagAt true ('<' :: (inner ++ '>' :: back.take 1 ++ back.drop 1)) =
      some ⟨(inner ++ '>' :: back.take 1).length, back.take 1⟩ := by
    rw [← hsplit, tagAt, h, Option.map_some, hafter]
    simp only [List.length_cons, List.length_append]
    congr 2
    omega
  rw [hsplit]
  exact Text.replaceFrom_of_some htag

/-- A tag behind a tag neighbour is dropped as it is at the start of a text. -/
theorem dropFrom_neighbour {c : Char} (hc : isTagNeighbour c = true) {rest : List Char}
    (h : Closes rest) (start : Bool) :
    dropFrom start (c :: '<' :: rest) = c :: dropFrom true ('<' :: rest) := by
  obtain ⟨inner, back, rfl, hend, -, -⟩ := h.exists_last
  have hsplit : '<' :: (inner ++ '>' :: back) =
      '<' :: (inner ++ '>' :: back.take 1) ++ back.drop 1 := by
    rw [List.cons_append, List.append_assoc, List.cons_append, List.take_append_drop]
  have htag : tagAt start (c :: ('<' :: (inner ++ '>' :: back.take 1) ++ back.drop 1)) =
      some ⟨('<' :: (inner ++ '>' :: back.take 1)).length, c :: back.take 1⟩ := by
    rw [← hsplit, tagAt_of_tagEnd? hc hend]
    simp only [List.length_cons, List.length_append]
    congr 2
    omega
  rw [dropFrom_tag hend, hsplit]
  exact Text.replaceFrom_of_some htag

theorem dropFrom_of_none {start : Bool} {c : Char} {cs : List Char}
    (h : tagAt start (c :: cs) = none) : dropFrom start (c :: cs) = c :: dropFrom false cs := by
  unfold dropFrom
  rw [Text.replaceFrom, h]

/-- Where no tag stands at the front the flag makes no difference. -/
theorem dropFrom_flag {cs : List Char} (h : ∀ rest, cs = '<' :: rest → ¬ Closes rest) :
    dropFrom true cs = dropFrom false cs := by
  by_cases hhead : cs.head? = some '<'
  · obtain ⟨rest, rfl⟩ := List.head?_eq_some_iff.mp hhead
    have hnone : ∀ start, tagAt start ('<' :: rest) = none := fun start =>
      tagAt_eq_none_of_start (fun _ _ => h rest rfl) fun _ _ hc => absurd hc (by decide)
    rw [dropFrom_of_none (hnone true), dropFrom_of_none (hnone false)]
  · exact dropTags_of_head hhead

/-- A character at which no tag begins stays, and tells whether one may begin behind it. -/
theorem dropFrom_cons {start : Bool} {c : Char} {cs : List Char}
    (h : start = true → c = '<' → ¬ Closes cs) :
    dropFrom start (c :: cs) = c :: dropFrom (isTagNeighbour c) cs := by
  cases hc : isTagNeighbour c with
  | false => exact dropFrom_of_none (tagAt_eq_none_of_start h fun _ _ hc' => by simp [hc] at hc')
  | true =>
    by_cases hbehind : ∃ rest, cs = '<' :: rest ∧ Closes rest
    · obtain ⟨rest, rfl, hcloses⟩ := hbehind
      exact dropFrom_neighbour hc hcloses start
    · have hnone : ∀ rest, cs = '<' :: rest → ¬ Closes rest :=
        fun rest hrest hcloses => hbehind ⟨rest, hrest, hcloses⟩
      rw [dropFrom_flag hnone]
      exact dropFrom_of_none (tagAt_eq_none_of_start h fun rest hrest _ => hnone rest hrest)

/-- A stretch at no `<` of which a tag begins stays. -/
theorem dropFrom_keep {start : Bool} {q back : List Char}
    (h : ∀ f g, q = f ++ '<' :: g → begins start f = true → ¬ Closes (g ++ back)) :
    dropFrom start (q ++ back) = q ++ dropFrom (begins start q) back := by
  induction q generalizing start with
  | nil => rfl
  | cons c q ih =>
    have hhere : start = true → c = '<' → ¬ Closes (q ++ back) := by
      rintro hstart rfl
      exact h [] q rfl hstart
    rw [List.cons_append, dropFrom_cons hhere, begins_cons, ih, List.cons_append]
    intro f g hq hbegins
    exact h (c :: f) g (by rw [hq]; rfl) (by rwa [begins_cons])

/-! ## A line and what stands behind it -/

section Behind

variable {line tail : List Char} {start : Bool}

/-- What is left behind a line: its line feed stays, and the flag tells whether the next line may
begin with a tag. -/
def behindLine (start : Bool) : List Char → List Char
  | [] => []
  | c :: rest => c :: dropFrom start rest

theorem ends_append_iff (htail : ∀ c ∈ tail.head?, c = '\n') : Ends (line ++ tail) ↔ Ends line := by
  have hbreak : isTagNeighbour '\n' = true := by decide
  cases line with
  | nil =>
    constructor
    · exact fun _ => nofun
    · intro _ c hc
      rw [htail c hc, hbreak]
  | cons c line => rfl

/-- No tag that begins in a line ends behind it. -/
theorem closes_append_iff (htail : ∀ c ∈ tail.head?, c = '\n') :
    Closes (line ++ tail) ↔ Closes line := by
  induction line with
  | nil =>
    cases tail with
    | nil => rfl
    | cons c tail =>
      rw [List.nil_append, closes_cons, htail c rfl]
      simp [Closes]
  | cons c line ih => rw [List.cons_append, closes_cons, closes_cons, ends_append_iff htail, ih]

theorem dropFrom_behind (htail : ∀ c ∈ tail.head?, c = '\n') (start : Bool) :
    dropFrom start tail = behindLine true tail := by
  cases tail with
  | nil => rfl
  | cons c tail =>
    obtain rfl := htail c rfl
    exact dropFrom_cons fun _ hc => absurd hc (by decide)

/-- A line without a tag stays. -/
theorem dropFrom_untagged (htail : ∀ c ∈ tail.head?, c = '\n') (h : ¬ HasTag start line) :
    dropFrom start (line ++ tail) = line ++ behindLine true tail := by
  rw [dropFrom_keep, dropFrom_behind htail]
  intro f g hsplit hbegins hcloses
  exact h ⟨f, g, hsplit, hbegins, (closes_append_iff htail).mp hcloses⟩

theorem tagEnd?_append {inner back : List Char} (hline : '\n' ∉ inner) (hends : Ends back)
    (hlast : ¬ Closes back) : tagEnd? (inner ++ '>' :: back) = some (inner.length + 1) := by
  induction inner with
  | nil =>
    rw [List.nil_append, tagEnd?_cons, tagEnd?_eq_none_iff.mpr hlast]
    simp [hends]
  | cons c inner ih =>
    rw [List.mem_cons, not_or] at hline
    rw [List.cons_append, tagEnd?_cons, ih hline.2, if_neg (Ne.symm hline.1)]
    rfl

/-- A line loses its tag. If the tag ends the line, the line feed is taken for its neighbour, and
the next line cannot begin with a tag. -/
theorem dropFrom_tagged (hline : '\n' ∉ line) (htail : ∀ c ∈ tail.head?, c = '\n')
    {front inner back : List Char} (h : LineTag start line front inner back) :
    dropFrom start (line ++ tail) = front ++ back ++ behindLine (!back.isEmpty) tail := by
  obtain rfl := h.split
  have hinner : '\n' ∉ inner := fun hmem => hline (by simp [hmem])
  have hback : '\n' ∉ back := fun hmem => hline (by simp [hmem])
  have hend : tagEnd? (inner ++ '>' :: (back ++ tail)) = some (inner.length + 1) :=
    tagEnd?_append hinner ((ends_append_iff htail).mpr h.ends)
      ((closes_append_iff htail).not.mpr h.last)
  have hfirst : ∀ f g, front = f ++ '<' :: g → begins start f = true →
      ¬ Closes (g ++ '<' :: (inner ++ '>' :: (back ++ tail))) := by
    intro f g hfront hbegins
    simp [h.first f g hfront] at hbegins
  have hsplit : front ++ '<' :: (inner ++ '>' :: back) ++ tail =
      front ++ '<' :: (inner ++ '>' :: (back ++ tail)) := by simp
  rw [hsplit, dropFrom_keep hfirst, h.starts, dropFrom_tag hend, List.append_assoc]
  congr 1
  cases back with
  | nil =>
    cases tail <;> rfl
  | cons d back =>
    rw [List.mem_cons, not_or] at hback
    have hrest : ¬ HasTag false back := fun htag =>
      h.last (closes_cons.mpr ⟨Ne.symm hback.1, Or.inl (htag.closes hback.2)⟩)
    exact congrArg (d :: ·) (dropFrom_untagged htail hrest)

theorem dropFrom_of_not_hasTag (h : ¬ HasTag start line) : dropFrom start line = line := by
  have hkept : dropFrom start (line ++ []) = line ++ [] := dropFrom_untagged (by simp) h
  rwa [List.append_nil] at hkept

theorem dropFrom_of_lineTag (hline : '\n' ∉ line) {front inner back : List Char}
    (h : LineTag start line front inner back) : dropFrom start line = front ++ back := by
  have hlost : dropFrom start (line ++ []) = front ++ back ++ [] :=
    dropFrom_tagged hline (by simp) h
  rwa [List.append_nil, List.append_nil] at hlost

/-- A line that has lost its tag holds none. -/
theorem LineTag.not_hasTag (hline : '\n' ∉ line) {front inner back : List Char}
    (h : LineTag start line front inner back) : ¬ HasTag start (front ++ back) := by
  obtain rfl := h.split
  rintro ⟨f, g, hsplit, hbegins, hcloses⟩
  have hback : ∀ more, back ≠ more ++ '<' :: g := by
    rintro more rfl
    apply h.last
    rw [List.append_cons]
    exact hcloses.append fun hmem => hline (by simp_all)
  rcases List.append_eq_append_iff.mp hsplit with ⟨more, -, hmore⟩ | ⟨more, rfl, hmore⟩
  · exact hback more hmore
  · cases more with
    | nil => exact hback [] hmore.symm
    | cons c more =>
      obtain ⟨rfl, -⟩ := List.cons.inj hmore
      simp [h.first f more rfl] at hbegins

end Behind

/-! ## The law -/

/-- Of a line without a line feed goes what reaches from the first `<` that may begin a tag to the
last `>` that may end one. Where the first stands behind the last, or one of them is missing, the
line stays as it is. What comes out holds no tag, also not where the line was joined, and so it
comes out of a second time unchanged. -/
theorem a_line_loses_its_widest_tag (line : List Char) (hline : '\n' ∉ line) :
    (HasTag true line → ∃ front inner back, LineTag true line front inner back ∧
        dropTags line = front ++ back) ∧
      (¬ HasTag true line → dropTags line = line) ∧
      ¬ HasTag true (dropTags line) ∧ dropTags (dropTags line) = dropTags line := by
  have hkept : ¬ HasTag true line → dropTags line = line := dropFrom_of_not_hasTag
  have hlost : HasTag true line → ∃ front inner back, LineTag true line front inner back ∧
      dropTags line = front ++ back := by
    intro h
    obtain ⟨front, inner, back, htag⟩ := h.exists_lineTag hline
    exact ⟨front, inner, back, htag, dropFrom_of_lineTag hline htag⟩
  have hfree : ¬ HasTag true (dropTags line) := by
    by_cases h : HasTag true line
    · obtain ⟨front, inner, back, htag, hdropped⟩ := hlost h
      rw [hdropped]
      exact htag.not_hasTag hline
    · rwa [hkept h]
  exact ⟨hlost, hkept, hfree, dropFrom_of_not_hasTag hfree⟩

/-- A line with an escaped `<` in front of its tag, an angle inside of it, and one in front of a code
mark behind it. -/
def angledLine : List Char := "\\<a> b<c <d> e> f\x3e\x60".toList

theorem angledLine_loses_its_tag :
    '\n' ∉ angledLine ∧ HasTag true angledLine ∧
      dropTags angledLine = "\\<a> b f\x3e\x60".toList ∧ ¬ HasTag true (dropTags angledLine) := by
  have hline : '\n' ∉ angledLine := by decide
  have htag : HasTag true angledLine := by decide
  obtain ⟨hlost, -, hfree, -⟩ := a_line_loses_its_widest_tag angledLine hline
  exact ⟨hline, htag, by decide, hfree⟩

end DocPages.HeaderText
