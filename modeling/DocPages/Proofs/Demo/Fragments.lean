-- The text of a preview, fragment by fragment. What the generator writes itself
-- is a frame: it holds no brace, and a frame stands between all that comes from
-- elsewhere, so no token arises where two fragments meet.
import DocPages.Demo.Component
import DocPages.Proofs.Text.Breaks

namespace DocPages.Demo

open TemplateTokens (Plain tokens mem_tokens_iff plain_append)

/-! ## Fragments -/

/-- Where a fragment of a preview comes from. -/
inductive Origin where
  | frame
  | data
  | template
  | written
  | vanilla
  | script
  | style
  deriving DecidableEq

/-- A stretch of a preview, and where it comes from. -/
structure Fragment where
  origin : Origin
  text : List Char

/-- The text of fragments in a row. -/
def textOf (fragments : List Fragment) : List Char := fragments.flatMap Fragment.text

/-- A fragment on lines of its own. -/
def lineOf (origin : Origin) (text : List Char) : List Fragment :=
  [⟨origin, text⟩, ⟨.frame, ['\n']⟩]

/-- A named slot, and what it shows. -/
def slotOf (name : String) (origin : Origin) (html : List Char) : List Fragment :=
  [⟨.frame, "<template #".toList ++ name.toList ++ ['>']⟩, ⟨origin, html⟩,
    ⟨.frame, "</template>".toList ++ ['\n']⟩]

/-- The fragments of a preview, in order. -/
def Preview.fragments (v : Preview) : List Fragment :=
  [⟨.frame, "<template>".toList ++ ['\n', '<'] ++ v.component.toList ++ " data=\x22".toList⟩,
    ⟨.data, v.payload⟩, ⟨.frame, ['\x22', '>', '\n']⟩] ++
  (if v.template.isEmpty then [] else lineOf .template v.template) ++
  slotOf writtenSlot .written v.writtenHtml ++ slotOf vanillaSlot .vanilla v.vanillaHtml ++
  [⟨.frame, ['<', '/'] ++ v.component.toList ++ ['>', '\n'] ++ "</template>".toList ++ ['\n']⟩] ++
  v.scripts.flatMap (lineOf .script) ++ v.style.toList.flatMap (lineOf .style)

/-- The texts that a preview has from an origin, beside what the generator writes itself. -/
def Preview.texts (v : Preview) : Origin → List (List Char)
  | .frame => []
  | .data => [v.payload]
  | .template => [v.template]
  | .written => [v.writtenHtml]
  | .vanilla => [v.vanillaHtml]
  | .script => v.scripts
  | .style => v.style.toList

variable {front token back : List Char} {fragments rest : List Fragment} {origin : Origin}

@[simp]
theorem textOf_nil : textOf [] = [] := rfl

@[simp]
theorem textOf_cons (f : Fragment) (rest : List Fragment) :
    textOf (f :: rest) = f.text ++ textOf rest := List.flatMap_cons

@[simp]
theorem textOf_append (a b : List Fragment) : textOf (a ++ b) = textOf a ++ textOf b :=
  List.flatMap_append

@[simp]
theorem textOf_lineOf (text : List Char) : textOf (lineOf origin text) = text ++ ['\n'] := by
  simp [lineOf]

@[simp]
theorem textOf_slotOf (name : String) (html : List Char) :
    textOf (slotOf name origin html) = slot name html ++ ['\n'] := by
  unfold slotOf slot
  simp only [textOf_cons, textOf_nil, List.append_assoc, List.append_nil]

@[simp]
theorem textOf_lines (texts : List (List Char)) :
    textOf (texts.flatMap (lineOf origin)) = texts.flatMap (· ++ ['\n']) := by
  induction texts with
  | nil => rfl
  | cons text texts ih =>
    rw [List.flatMap_cons, textOf_append, ih, textOf_lineOf, List.flatMap_cons]

/-- The text of a preview is that of its fragments. -/
theorem render_eq_textOf (v : Preview) : v.render = textOf v.fragments := by
  have htemplate : textOf (if v.template.isEmpty then [] else lineOf .template v.template) =
      (if v.template.isEmpty then [] else [v.template]).flatMap (· ++ ['\n']) := by
    split
    · rfl
    · rw [textOf_lineOf, List.flatMap_singleton]
  unfold Preview.render Preview.lines Preview.fragments
  simp only [textOf_append, textOf_cons, textOf_slotOf, textOf_lines, htemplate,
    List.flatMap_append, List.flatMap_cons, List.append_assoc, List.nil_append, List.cons_append]

theorem eq_of_mem_between {a b text : List Char} {f : Fragment}
    (h : f ∈ [⟨.frame, a⟩, ⟨origin, text⟩, ⟨.frame, b⟩]) (hfilled : f.origin ≠ .frame) :
    f = ⟨origin, text⟩ := by
  simp only [List.mem_cons, List.not_mem_nil, or_false] at h
  rcases h with rfl | h | rfl
  · exact absurd rfl hfilled
  · exact h
  · exact absurd rfl hfilled

theorem eq_of_mem_lineOf {text : List Char} {f : Fragment} (h : f ∈ lineOf origin text)
    (hfilled : f.origin ≠ .frame) : f = ⟨origin, text⟩ := by
  rcases List.mem_pair.mp h with h | rfl
  · exact h
  · exact absurd rfl hfilled

theorem exists_of_mem_lines {texts : List (List Char)} {f : Fragment}
    (h : f ∈ texts.flatMap (lineOf origin)) (hfilled : f.origin ≠ .frame) :
    ∃ text ∈ texts, f = ⟨origin, text⟩ := by
  obtain ⟨text, htext, hf⟩ := List.mem_flatMap.mp h
  exact ⟨text, htext, eq_of_mem_lineOf hf hfilled⟩

/-- A fragment that is no frame is one of the texts from its origin. -/
theorem Preview.text_mem_texts {v : Preview} {f : Fragment} (h : f ∈ v.fragments)
    (hfilled : f.origin ≠ .frame) : f.text ∈ v.texts f.origin := by
  unfold Preview.fragments at h
  simp only [List.mem_append] at h
  rcases h with (((((h | h) | h) | h) | h) | h) | h
  · rw [eq_of_mem_between h hfilled]
    exact List.mem_singleton_self _
  · split at h
    · cases h
    · rw [eq_of_mem_lineOf h hfilled]
      exact List.mem_singleton_self _
  · rw [eq_of_mem_between h hfilled]
    exact List.mem_singleton_self _
  · rw [eq_of_mem_between h hfilled]
    exact List.mem_singleton_self _
  · obtain rfl := List.mem_singleton.mp h
    exact absurd rfl hfilled
  · obtain ⟨text, htext, rfl⟩ := exists_of_mem_lines h hfilled
    exact htext
  · obtain ⟨text, htext, rfl⟩ := exists_of_mem_lines h hfilled
    exact htext

/-! ## Frames -/

/-- Frames hold no brace and are not empty, and one follows on each other fragment. -/
inductive Framed : List Fragment → Prop
  | nil : Framed []
  | frame {text : List Char} {rest : List Fragment} (hne : text ≠ []) (hplain : Plain text)
      (h : Framed rest) : Framed (⟨.frame, text⟩ :: rest)
  | filled {origin : Origin} {text frame : List Char} {rest : List Fragment}
      (horigin : origin ≠ .frame) (h : Framed (⟨.frame, frame⟩ :: rest)) :
      Framed (⟨origin, text⟩ :: ⟨.frame, frame⟩ :: rest)

theorem Framed.lineOf (h : Framed rest) (horigin : origin ≠ .frame) (text : List Char) :
    Framed (lineOf origin text ++ rest) :=
  .filled horigin (.frame (by decide) (by decide) h)

theorem Framed.lines (h : Framed rest) (horigin : origin ≠ .frame) (texts : List (List Char)) :
    Framed (texts.flatMap (Demo.lineOf origin) ++ rest) := by
  induction texts with
  | nil => exact h
  | cons text texts ih =>
    rw [List.flatMap_cons, List.append_assoc]
    exact ih.lineOf horigin text

theorem Framed.slotOf (h : Framed rest) (horigin : origin ≠ .frame) {name : String}
    (hname : Plain name.toList) (html : List Char) :
    Framed (slotOf name origin html ++ rest) := by
  have hopen : Plain ("<template #".toList ++ name.toList ++ ['>']) := by
    simp only [plain_append]
    exact ⟨⟨by decide, hname⟩, by decide⟩
  exact .frame (by simp) hopen (.filled horigin (.frame (by decide) (by decide) h))

theorem Preview.framed (v : Preview) (h : Plain v.component.toList) : Framed v.fragments := by
  have hopen : Plain ("<template>".toList ++ ['\n', '<'] ++ v.component.toList ++
      " data=\x22".toList) := by
    simp only [plain_append]
    exact ⟨⟨by decide, h⟩, by decide⟩
  have hclose : Plain (['<', '/'] ++ v.component.toList ++ ['>', '\n'] ++
      "</template>".toList ++ ['\n']) := by
    simp only [plain_append]
    exact ⟨⟨⟨⟨by decide, h⟩, by decide⟩, by decide⟩, by decide⟩
  have hblocks : Framed (v.scripts.flatMap (Demo.lineOf .script) ++
      (v.style.toList.flatMap (Demo.lineOf .style) ++ [])) :=
    (Framed.nil.lines (by decide) _).lines (by decide) _
  have hvanilla : Framed (Demo.slotOf vanillaSlot .vanilla v.vanillaHtml ++ _) :=
    (Framed.frame (by simp) hclose hblocks).slotOf (by decide) (by decide) _
  have hslots : Framed (Demo.slotOf writtenSlot .written v.writtenHtml ++ _) :=
    hvanilla.slotOf (by decide) (by decide) _
  unfold Preview.fragments
  simp only [List.append_assoc, List.append_nil] at hslots ⊢
  refine .frame (by simp) hopen (.filled (by decide) (.frame (by decide) (by decide) ?_))
  split
  · exact hslots
  · exact hslots.lineOf (by decide) v.template

/-! ## Tokens in fragments -/

/-- A stretch of the text of fragments, between `front` and `back`, lies in one of them. -/
def LiesIn (fragment : Fragment) (fragments : List Fragment) (front token back : List Char) :
    Prop :=
  ∃ before after start rest, fragments = before ++ fragment :: after ∧
    fragment.text = start ++ token ++ rest ∧ front = textOf before ++ start ∧
    back = rest ++ textOf after

theorem LiesIn.cons {fragment : Fragment} (h : LiesIn fragment fragments front token back)
    (first : Fragment) :
    LiesIn fragment (first :: fragments) (first.text ++ front) token back := by
  obtain ⟨before, after, start, rest, rfl, htext, rfl, rfl⟩ := h
  exact ⟨first :: before, after, start, rest, rfl, htext, (List.append_assoc ..).symm, rfl⟩

theorem LiesIn.mem {fragment : Fragment} (h : LiesIn fragment fragments front token back) :
    fragment ∈ fragments := by
  obtain ⟨before, after, -, -, rfl, -⟩ := h
  simp

theorem LiesIn.infix {fragment : Fragment} (h : LiesIn fragment fragments front token back) :
    token <:+: fragment.text := by
  obtain ⟨-, -, start, rest, -, htext, -⟩ := h
  exact ⟨start, rest, htext.symm⟩

/-- Two characters in a row stand in the first of two texts, in the second, or on both sides of the
seam. -/
theorem pair_in_append {a b : List Char} {c d : Char} (h : a ++ b = front ++ ([c, d] ++ back)) :
    (∃ more, front = a ++ more ∧ b = more ++ ([c, d] ++ back)) ∨
      (∃ more, a = front ++ ([c, d] ++ more) ∧ back = more ++ b) ∨
        a = front ++ [c] ∧ b = d :: back := by
  rw [List.append_eq_append_iff] at h
  rcases h with h | ⟨more, rfl, hback⟩
  · exact .inl h
  · simp only [List.cons_append, List.nil_append] at hback
    match more with
    | [] => exact .inl ⟨[], by simp, hback.symm⟩
    | [e] =>
      simp only [List.cons_append, List.nil_append, List.cons.injEq] at hback
      obtain ⟨rfl, rfl⟩ := hback
      exact .inr (.inr ⟨rfl, rfl⟩)
    | e :: e' :: more =>
      simp only [List.cons_append, List.cons.injEq] at hback
      obtain ⟨rfl, rfl, rfl⟩ := hback
      exact .inr (.inl ⟨more, rfl, rfl⟩)

/-- A token in the text of framed fragments lies in one of those that are no frames. -/
theorem Framed.token_lies_in (h : Framed fragments) (htoken : token ∈ tokens)
    (hsplit : textOf fragments = front ++ token ++ back) :
    ∃ fragment, fragment.origin ≠ .frame ∧ LiesIn fragment fragments front token back := by
  obtain ⟨c, hc, rfl⟩ := mem_tokens_iff.mp htoken
  rw [List.append_assoc] at hsplit
  induction h generalizing front with
  | nil => simp at hsplit
  | @frame text rest hne hplain h ih =>
    rw [textOf_cons] at hsplit
    dsimp only at hsplit
    have habsent : c ∉ text := fun hmem => by
      rw [hplain c hmem] at hc
      cases hc
    rcases pair_in_append hsplit with ⟨more, rfl, hrest⟩ | ⟨more, htext, -⟩ | ⟨htext, -⟩
    · obtain ⟨fragment, hfilled, hlies⟩ := ih hrest
      exact ⟨fragment, hfilled, hlies.cons ⟨.frame, text⟩⟩
    · exact absurd (htext ▸ by simp) habsent
    · exact absurd (htext ▸ by simp) habsent
  | @filled origin text frame rest horigin h ih =>
    rcases pair_in_append hsplit with ⟨more, rfl, hrest⟩ | ⟨more, htext, hback⟩ | ⟨-, hseam⟩
    · obtain ⟨fragment, hfilled, hlies⟩ := ih hrest
      exact ⟨fragment, hfilled, hlies.cons ⟨origin, text⟩⟩
    · refine ⟨⟨origin, text⟩, horigin, [], _, front, more, rfl, ?_, rfl, hback⟩
      rw [List.append_assoc]
      exact htext
    · -- The frame behind would begin with a brace.
      cases h with
      | filled hframe => exact absurd rfl hframe
      | frame hne hplain =>
        obtain ⟨d, frame, rfl⟩ := List.exists_cons_of_ne_nil hne
        obtain ⟨rfl, -⟩ := List.cons.inj hseam
        rw [hplain _ List.mem_cons_self] at hc
        cases hc

end DocPages.Demo
