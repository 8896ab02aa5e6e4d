-- The scripts of a source, with the gaps between them. A script is found where an
-- opening tag stands that has a closing tag behind it, and it ends at the first
-- closing tag. So a source is woven from its scripts and its gaps in one way only.
import DocPages.Proofs.Demo.Tags

namespace DocPages.Demo

/-! ## A script at the front of a text -/

/-- The opening tag of a script. -/
def IsOpening (tag : List Char) : Prop :=
  ∃ attributes, IsAttributes attributes ∧ tag = openTag "script" attributes

/-- A script has an opening tag, and no closing tag stands in its body. -/
structure Script.Sound (s : Script) : Prop where
  openTag : IsOpening s.openTag
  body : ¬ closing "script" <:+: s.body

/-- An opening tag stands at the front of a text, and a closing tag somewhere behind it. -/
def BeginsScript (cs : List Char) : Prop :=
  ∃ tag between, IsOpening tag ∧ tag ++ between ++ closing "script" <+: cs

theorem isTag_closing_script : IsTag (closing "script") := isTag_closing (by decide)

theorem block_length_pos (s : Script) : 0 < s.block.length := by
  have hclosing : 0 < (closing "script").length := by decide
  unfold Script.block
  rw [List.length_append]
  omega

theorem IsOpening.starts {tag : List Char} (h : IsOpening tag) :
    opening "script" <+: tag := by
  obtain ⟨attributes, -, rfl⟩ := h
  unfold openTag
  rw [List.append_assoc]
  exact List.prefix_append _ _

/-- The end of an opening tag stands nowhere else in it. -/
theorem IsOpening.exists_concat {tag : List Char} (h : IsOpening tag) :
    ∃ front, tag = front ++ ['>'] ∧ '>' ∉ front := by
  obtain ⟨attributes, hattributes, rfl⟩ := h
  refine ⟨opening "script" ++ attributes, rfl, ?_⟩
  rw [List.mem_append, not_or]
  exact ⟨by decide, hattributes.inside⟩

theorem openTag?_of_isOpening {tag : List Char} (h : IsOpening tag) (back : List Char) :
    openTag? "script" (tag ++ back) = some tag := by
  obtain ⟨attributes, hattributes, rfl⟩ := h
  exact openTag?_openTag hattributes back

/-- A script is read at the front of a text exactly if it stands there. -/
theorem script?_eq_some_iff {cs : List Char} {s : Script} :
    script? cs = some s ↔ s.Sound ∧ s.block <+: cs := by
  constructor
  · intro h
    obtain ⟨tag, htag, hrest⟩ := Option.bind_eq_some_iff.mp h
    obtain ⟨body, hbody, heq⟩ := Option.bind_eq_some_iff.mp hrest
    cases heq
    obtain ⟨attributes, hattributes, rfl, behind, rfl⟩ := exists_of_openTag? htag
    rw [List.drop_left] at hbody
    obtain ⟨hfront, hfree⟩ := (before?_eq_some_tag_iff isTag_closing_script).mp hbody
    refine ⟨⟨⟨attributes, hattributes, rfl⟩, hfree⟩, ?_⟩
    unfold Script.block
    rw [List.append_assoc, List.prefix_append_right_inj]
    exact hfront
  · rintro ⟨hsound, back, rfl⟩
    have hbody : Text.before? (closing "script") (s.body ++ closing "script" ++ back) =
        some s.body :=
      (before?_eq_some_tag_iff isTag_closing_script).mpr ⟨List.prefix_append _ _, hsound.body⟩
    unfold script? Script.block
    rw [List.append_assoc, List.append_assoc, openTag?_of_isOpening hsound.openTag,
      Option.bind_eq_bind, Option.bind_some, List.drop_left, ← List.append_assoc, hbody]
    rfl

theorem script?_block {s : Script} (h : s.Sound) (back : List Char) :
    script? (s.block ++ back) = some s :=
  script?_eq_some_iff.mpr ⟨h, List.prefix_append _ _⟩

/-- No script is read at the front of a text exactly if none begins there. -/
theorem script?_eq_none_iff {cs : List Char} : script? cs = none ↔ ¬ BeginsScript cs := by
  constructor
  · rintro h ⟨tag, between, htag, back, rfl⟩
    have hbefore :
        Text.before? (closing "script") (between ++ (closing "script" ++ back)) = none := by
      unfold script? at h
      rw [List.append_assoc, List.append_assoc, openTag?_of_isOpening htag, Option.bind_eq_bind,
        Option.bind_some, List.drop_left] at h
      cases hbody : Text.before? (closing "script") (between ++ (closing "script" ++ back)) with
      | none => rfl
      | some body =>
        rw [hbody] at h
        cases h
    rw [Text.before?_eq_none_iff] at hbefore
    exact hbefore ⟨between, back, List.append_assoc _ _ _⟩
  · intro h
    cases hscript : script? cs with
    | none => rfl
    | some s =>
      obtain ⟨hsound, hblock⟩ := script?_eq_some_iff.mp hscript
      exact absurd ⟨s.openTag, s.body, hsound.openTag, hblock⟩ h

/-- An opening tag that begins in front of a script ends in front of its closing tag. -/
theorem beginsScript_of_openingTag {tag gap rest : List Char} {s : Script} (hs : s.Sound)
    (htag : IsOpening tag) (h : tag <+: gap ++ (s.block ++ rest)) :
    BeginsScript (gap ++ (s.block ++ rest)) := by
  have hopen : gap ++ s.openTag <+: gap ++ (s.block ++ rest) := by
    rw [List.prefix_append_right_inj, Script.block, List.append_assoc, List.append_assoc]
    exact List.prefix_append _ _
  have hshort : tag <+: gap ++ s.openTag := by
    rcases List.prefix_or_prefix_of_prefix h hopen with hshort | hlong
    · exact hshort
    · obtain ⟨front, hfront, hinside⟩ := htag.exists_concat
      obtain ⟨most, hmost, -⟩ := hs.openTag.exists_concat
      rw [hfront, List.prefix_concat_iff] at hlong
      rcases hlong with heq | hwithin
      · rw [hfront, ← heq]
      · exact absurd (hwithin.subset (by simp [hmost])) hinside
  obtain ⟨between, hbetween⟩ := hshort
  refine ⟨tag, between ++ s.body, htag, rest, ?_⟩
  unfold Script.block
  rw [← List.append_assoc tag, hbetween]
  simp only [List.append_assoc]

/-! ## Passing over gaps and scripts -/

/-- A text where no script is read is passed over. -/
theorem scriptsFrom_gap {q t : List Char}
    (h : ∀ i < q.length, script? ((q ++ t).drop i) = none) :
    scriptsFrom 0 (q ++ t) = scriptsFrom 0 t := by
  induction q with
  | nil => rfl
  | cons c q ih =>
    have hfirst : script? (c :: (q ++ t)) = none := h 0 (by simp)
    have hrest : ∀ i < q.length, script? ((q ++ t).drop i) = none := by
      intro i hi
      exact h (i + 1) (by simpa using hi)
    rw [List.cons_append, scriptsFrom, hfirst, ih hrest]

theorem scriptsFrom_skip (q t : List Char) : scriptsFrom q.length (q ++ t) = scriptsFrom 0 t := by
  induction q with
  | nil => rfl
  | cons c q ih =>
    rw [List.length_cons, List.cons_append, scriptsFrom]
    exact ih

/-- A script is reported, and the search goes on behind it. -/
theorem scriptsFrom_block {s : Script} (h : s.Sound) (back : List Char) :
    scriptsFrom 0 (s.block ++ back) = s :: scriptsFrom 0 back := by
  have hhere := script?_block h back
  cases hblock : s.block with
  | nil =>
    have hpos := block_length_pos s
    rw [hblock] at hpos
    exact absurd hpos (Nat.lt_irrefl 0)
  | cons c text =>
    rw [hblock] at hhere
    rw [List.cons_append] at hhere ⊢
    rw [scriptsFrom, hhere]
    dsimp only
    rw [hblock, List.length_cons, Nat.add_sub_cancel, scriptsFrom_skip]

/-! ## Sources from gaps and scripts -/

/-- A script with the gap in front of it. -/
structure Piece where
  gap : List Char
  script : Script

/-- The source that is woven from pieces, with one more gap at the end. -/
def weave : List Piece → List Char → List Char
  | [], last => last
  | p :: pieces, last => p.gap ++ (p.script.block ++ weave pieces last)

/-- No opening tag begins in the gap in front of a script, and none with a closing tag behind it
stands in the last gap. -/
def Leftmost : List Piece → List Char → Prop
  | [], last => ∀ tag between, IsOpening tag → ¬ tag ++ between ++ closing "script" <:+: last
  | p :: pieces, last =>
    p.script.Sound ∧
      (∀ tag, IsOpening tag → ∀ i < p.gap.length, ¬ tag <+: (weave (p :: pieces) last).drop i) ∧
      Leftmost pieces last

/-- No script is read in the last gap. -/
theorem script?_drop_last {last : List Char} (h : Leftmost [] last) (i : Nat) :
    script? (last.drop i) = none := by
  rw [script?_eq_none_iff]
  rintro ⟨tag, between, htag, hstart⟩
  exact h tag between htag (hstart.isInfix.trans (List.drop_suffix _ _).isInfix)

/-- No script is read in the gap in front of a script. -/
theorem script?_drop_gap {p : Piece} {pieces : List Piece} {last : List Char}
    (h : Leftmost (p :: pieces) last) {i : Nat} (hi : i < p.gap.length) :
    script? ((weave (p :: pieces) last).drop i) = none := by
  rw [script?_eq_none_iff]
  rintro ⟨tag, between, htag, hstart⟩
  rw [List.append_assoc] at hstart
  exact h.2.1 tag htag i hi ((List.prefix_append _ _).trans hstart)

/-- The search reports the scripts of the pieces. -/
theorem scriptsFrom_weave {pieces : List Piece} {last : List Char} (h : Leftmost pieces last) :
    scriptsFrom 0 (weave pieces last) = pieces.map Piece.script := by
  induction pieces with
  | nil =>
    have hpass := scriptsFrom_gap (q := last) (t := []) fun i _ => by
      rw [List.append_nil]
      exact script?_drop_last h i
    rw [List.append_nil] at hpass
    exact hpass
  | cons p pieces ih =>
    rw [weave, scriptsFrom_gap fun i hi => script?_drop_gap h hi, scriptsFrom_block h.1, ih h.2.2]
    rfl

/-- No opening tag stands in the gap in front of a script. -/
theorem not_infix_gap {pieces : List Piece} {last : List Char} (h : Leftmost pieces last) :
    ∀ p ∈ pieces, p.script.Sound ∧ ∀ tag, IsOpening tag → ¬ tag <:+: p.gap := by
  induction pieces with
  | nil => exact List.forall_mem_nil _
  | cons p pieces ih =>
    rw [List.forall_mem_cons]
    refine ⟨⟨h.1, fun tag htag => ?_⟩, ih h.2.2⟩
    rintro ⟨front, back, hgap⟩
    have hlt : front.length < p.gap.length := by
      obtain ⟨most, rfl, -⟩ := htag.exists_concat
      rw [← hgap]
      simp only [List.length_append, List.length_singleton]
      omega
    refine h.2.1 tag htag front.length hlt ?_
    rw [weave, ← hgap]
    simp only [List.append_assoc, List.drop_left]
    exact List.prefix_append _ _

/-- No script is left in the last gap. -/
theorem leftmost_last {pieces : List Piece} {last : List Char} (h : Leftmost pieces last) :
    Leftmost [] last := by
  induction pieces with
  | nil => exact h
  | cons p pieces ih => exact ih h.2.2

/-- A character where no script begins belongs to the first gap. -/
theorem exists_weave_cons {c : Char} {pieces : List Piece} {last : List Char}
    (hbegin : ¬ BeginsScript (c :: weave pieces last)) (hleft : Leftmost pieces last) :
    ∃ more rest, c :: weave pieces last = weave more rest ∧ Leftmost more rest := by
  cases pieces with
  | nil =>
    refine ⟨[], c :: last, rfl, fun tag between htag hwithin => ?_⟩
    rcases List.infix_cons_iff.mp hwithin with hstart | hwithin
    · exact hbegin ⟨tag, between, htag, hstart⟩
    · exact hleft tag between htag hwithin
  | cons p pieces =>
    refine ⟨⟨c :: p.gap, p.script⟩ :: pieces, last, rfl, hleft.1, ?_, hleft.2.2⟩
    intro tag htag i hi hstart
    cases i with
    | zero =>
      -- A tag here would reach into the script at most, and so find its closing tag.
      have hfront : tag <+: (c :: p.gap) ++ (p.script.block ++ weave pieces last) := hstart
      exact hbegin (beginsScript_of_openingTag hleft.1 htag hfront)
    | succ i => exact hleft.2.1 tag htag i (Nat.lt_of_succ_lt_succ hi) hstart

/-- Every source is woven from pieces. -/
theorem exists_weave (source : List Char) :
    ∃ pieces last, source = weave pieces last ∧ Leftmost pieces last := by
  induction hlength : source.length using Nat.strongRecOn generalizing source with
  | ind n ih =>
    subst hlength
    cases source with
    | nil =>
      refine ⟨[], [], rfl, fun tag between _ h => ?_⟩
      have hnil := List.infix_nil.mp h
      simp [closing] at hnil
    | cons c cs =>
      cases hscript : script? (c :: cs) with
      | some s =>
        obtain ⟨hsound, rest, hrest⟩ := script?_eq_some_iff.mp hscript
        have hshort : rest.length < (c :: cs).length := by
          have hpos := block_length_pos s
          rw [← hrest, List.length_append]
          omega
        obtain ⟨pieces, last, rfl, hleft⟩ := ih rest.length hshort rest rfl
        refine ⟨⟨[], s⟩ :: pieces, last, hrest.symm, hsound, fun _ _ i hi => ?_, hleft⟩
        exact absurd hi (Nat.not_lt_zero i)
      | none =>
        obtain ⟨pieces, last, rfl, hleft⟩ := ih cs.length (Nat.lt_succ_self _) cs rfl
        exact exists_weave_cons (script?_eq_none_iff.mp hscript) hleft

/-- Where a script begins in one reading of a source, no gap is left in another one. -/
theorem gap_length_le {p q : Piece} {ps qs : List Piece} {a b : List Char}
    (hp : Leftmost (p :: ps) a) (hq : Leftmost (q :: qs) b)
    (h : weave (p :: ps) a = weave (q :: qs) b) : q.gap.length ≤ p.gap.length := by
  by_contra hlt
  have hnone := script?_drop_gap hq (Nat.lt_of_not_le hlt)
  rw [← h, weave, List.drop_left, script?_block hp.1] at hnone
  cases hnone

/-- A source is woven from pieces in one way. -/
theorem weave_injective {ps qs : List Piece} {a b : List Char} (hp : Leftmost ps a)
    (hq : Leftmost qs b) (h : weave ps a = weave qs b) : ps = qs ∧ a = b := by
  have hscripts : ps.map Piece.script = qs.map Piece.script := by
    rw [← scriptsFrom_weave hp, ← scriptsFrom_weave hq, h]
  induction ps generalizing qs with
  | nil =>
    cases qs with
    | nil => exact ⟨rfl, h⟩
    | cons q qs => cases hscripts
  | cons p ps ih =>
    cases qs with
    | nil => cases hscripts
    | cons q qs =>
      obtain ⟨hscript, hrest⟩ := List.cons.inj hscripts
      have hlength := Nat.le_antisymm (gap_length_le hq hp h.symm) (gap_length_le hp hq h)
      obtain ⟨hgap, hback⟩ := List.append_inj h hlength
      rw [hscript] at hback
      obtain ⟨rfl, rfl⟩ := ih hp.2.2 hq.2.2 (List.append_cancel_left hback) hrest
      have hpiece : p = q := by
        cases p
        cases q
        cases hgap
        cases hscript
        rfl
      exact ⟨congrArg (· :: ps) hpiece, rfl⟩

/-! ## The law -/

/-- A source is gaps and scripts in turns, and its scripts are those that the split reports. Each is
an opening tag, a body without a closing tag, and a closing tag. No opening tag stands in a gap in
front of a script, and none with a closing tag behind it stands in the last gap. There is no other
way to read the source so, if opening tags that begin in a gap and end behind it are counted too. -/
theorem a_source_is_woven_from_its_scripts (source : List Char) :
    ∃ pieces last,
      source = weave pieces last ∧
      (Parts.ofSource source).scripts = pieces.map Piece.script ∧
      (∀ p ∈ pieces, p.script.Sound ∧ ∀ tag, IsOpening tag → ¬ tag <:+: p.gap) ∧
      (∀ tag between, IsOpening tag → ¬ tag ++ between ++ closing "script" <:+: last) ∧
      Leftmost pieces last ∧
      ∀ others rest, source = weave others rest → Leftmost others rest →
        others = pieces ∧ rest = last := by
  obtain ⟨pieces, last, rfl, hleft⟩ := exists_weave source
  refine ⟨pieces, last, rfl, scriptsFrom_weave hleft, not_infix_gap hleft, ?_, hleft, ?_⟩
  · exact leftmost_last hleft
  · exact fun others rest h hother => weave_injective hother hleft h.symm

/-- An opening tag may reach over the name of another one. It begins in front of it, so it is the one
that counts. -/
example : (Parts.ofSource "<script <script>a</script>".toList).scripts =
    [⟨"<script <script>".toList, ['a']⟩] := by decide +kernel

end DocPages.Demo
