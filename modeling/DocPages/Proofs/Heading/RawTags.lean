-- Counting the heading tags of raw markup. Whether a tag is found at a place is
-- said by the text up to the next angle. So a text that ends with an angle and
-- the text behind it are counted one by one, and so are stretches of markup.
import DocPages.Heading.RawTag
import DocPages.Proofs.Markup.Stretches
import Mathlib.Algebra.GroupWithZero.Nat
import Mathlib.Data.List.TakeDrop
import Mathlib.Data.List.TakeWhile

namespace DocPages.Heading

open Markup (Stretch textOf AllClosed)

/-! ## A tag at a place -/

/-- Whether the name of a heading stands at the front of a text, whatever is behind it. -/
def opensHeading (cs : List Char) : Bool :=
  match cs with
  | h :: d :: _ => h.toLower == 'h' && isDepth d
  | _ => false

/-- Whether what stands between the name of a heading and the next angle makes both a tag. -/
def endsHeading (attributes : List Char) : Bool :=
  attributes.isEmpty || attributes == ['/'] || attributes.head?.any Text.isBlank

theorem eq_cons_of_opensHeading {cs : List Char} (h : opensHeading cs = true) :
    ∃ a d rest, cs = a :: d :: rest ∧ (a.toLower == 'h' && isDepth d) = true := by
  unfold opensHeading at h
  split at h
  · exact ⟨_, _, _, rfl, h⟩
  · cases h

theorem ne_of_opens {a d : Char} (h : (a.toLower == 'h' && isDepth d) = true) :
    a ≠ '>' ∧ d ≠ '>' := by
  refine ⟨?_, ?_⟩
  · rintro rfl
    cases h
  · rintro rfl
    rw [Bool.and_eq_true] at h
    cases h.2

theorem opensHeading_of_not_letter {a : Char} (h : a.isAlpha = false) (cs : List Char) :
    opensHeading (a :: cs) = false := by
  cases cs with
  | nil => rfl
  | cons d rest =>
    have ha : (a.toLower == 'h') = false := by
      rw [beq_eq_false_iff_ne]
      intro hlower
      rw [Markup.isAlpha_of_toLower (by rw [hlower]; rfl)] at h
      cases h
    rw [opensHeading, ha, Bool.false_and]

theorem opensHeading_of_append {cs back : List Char} (h : opensHeading (cs ++ back) = false) :
    opensHeading cs = false := by
  match cs with
  | [] => rfl
  | [_] => rfl
  | _ :: _ :: _ => exact h

theorem opensHeading_append {cs : List Char} (h : '>' ∈ cs) (back : List Char) :
    opensHeading (cs ++ back) = opensHeading cs := by
  match cs with
  | [] => cases h
  | [a] =>
    obtain rfl := List.mem_singleton.mp h
    cases back <;> rfl
  | a :: d :: rest => rfl

theorem tagAttributes?_of_ne {c : Char} (hc : c ≠ '<') (cs : List Char) :
    tagAttributes? (c :: cs) = none := by
  unfold tagAttributes?
  split
  · rename_i heq
    cases heq
    exact absurd rfl hc
  · rfl

theorem tagAttributes?_of_not_opens {cs : List Char} (h : opensHeading cs = false) :
    tagAttributes? ('<' :: cs) = none := by
  unfold tagAttributes?
  split
  · rename_i heq
    cases heq
    rw [opensHeading] at h
    rw [if_neg (by rw [h]; exact Bool.false_ne_true)]
  · rfl

/-- A tag is not found without its end. -/
theorem tagAttributes?_of_not_mem (a d : Char) {rest : List Char} (h : '>' ∉ rest) :
    tagAttributes? ('<' :: a :: d :: rest) = none := by
  have hall : rest.dropWhile (· != '>') = [] := by
    rw [List.dropWhile_eq_nil_iff]
    intro c hc
    simpa using fun heq : c = '>' => h (heq ▸ hc)
  simp only [tagAttributes?]
  split
  · split
    · exact absurd List.mem_cons_self h
    · exact absurd (List.mem_cons_of_mem _ List.mem_cons_self) h
    · rw [List.span_eq_takeWhile_dropWhile, hall]
      simp
    · rfl
  · rfl

/-- The text up to the next angle decides whether the name of a heading opens a tag. -/
theorem tagAttributes?_eq {a d : Char} (hopens : (a.toLower == 'h' && isDepth d) = true)
    {attributes : List Char} (hangle : '>' ∉ attributes) (back : List Char) :
    tagAttributes? ('<' :: a :: d :: (attributes ++ '>' :: back)) =
      if endsHeading attributes then
        some (if attributes = ['/'] then [] else attributes, attributes.length + 4)
      else none := by
  have hne : ∀ c ∈ attributes, (c != '>') = true := by
    intro c hc
    simpa using fun heq : c = '>' => hangle (heq ▸ hc)
  have hspan : (attributes ++ '>' :: back).span (· != '>') = (attributes, '>' :: back) := by
    rw [List.span_eq_takeWhile_dropWhile, List.takeWhile_append_of_pos hne,
      List.dropWhile_append_of_pos hne]
    simp
  simp only [tagAttributes?, hopens, if_true]
  split
  · rename_i heq
    cases attributes with
    | nil => rfl
    | cons c rest =>
      cases heq
      exact absurd List.mem_cons_self hangle
  · rename_i heq
    cases attributes with
    | nil => cases heq
    | cons c rest =>
      obtain ⟨rfl, hrest⟩ := List.cons.inj heq
      cases rest with
      | nil => rfl
      | cons b rest =>
        obtain ⟨rfl, -⟩ := List.cons.inj hrest
        exact absurd (List.mem_cons_of_mem _ List.mem_cons_self) hangle
  · rename_i hend hslash heq
    cases attributes with
    | nil => exact absurd (List.cons.inj heq).1.symm hend
    | cons b rest =>
      obtain ⟨rfl, hback⟩ := List.cons.inj heq
      have hmore : ¬ b :: rest = ['/'] := by
        rintro ⟨⟩
        exact hslash back rfl hback.symm
      have hends : endsHeading (b :: rest) = Text.isBlank b := by
        unfold endsHeading
        rw [beq_eq_false_iff_ne.mpr hmore]
        rfl
      rw [hends, hspan, if_neg hmore]
  · rename_i heq
    simp at heq

/-- A place at which a tag is found. -/
structure IsTag (cs : List Char) (a d : Char) (attributes back : List Char) : Prop where
  text : cs = '<' :: a :: d :: (attributes ++ '>' :: back)
  opens : (a.toLower == 'h' && isDepth d) = true
  angle : '>' ∉ attributes
  ends : endsHeading attributes = true

theorem exists_tag_of_some {cs : List Char} (h : tagAttributes? cs ≠ none) :
    ∃ a d attributes back, IsTag cs a d attributes back := by
  cases cs with
  | nil => exact absurd rfl h
  | cons c cs =>
    by_cases hc : c = '<'
    · subst hc
      cases hopens : opensHeading cs with
      | false => exact absurd (tagAttributes?_of_not_opens hopens) h
      | true =>
        obtain ⟨a, d, rest, rfl, had⟩ := eq_cons_of_opensHeading hopens
        by_cases hangle : '>' ∈ rest
        · obtain ⟨attributes, back, rfl, hfirst⟩ := List.eq_append_cons_of_mem hangle
          rw [tagAttributes?_eq had hfirst] at h
          refine ⟨a, d, attributes, back, rfl, had, hfirst, ?_⟩
          by_contra hends
          exact h (if_neg hends)
        · exact absurd (tagAttributes?_of_not_mem a d hangle) h
    · exact absurd (tagAttributes?_of_ne hc cs) h

/-! ## Counting -/

/-- The characters of a tag that has been counted are passed over. -/
theorem countBare_skip (skip : Nat) (cs : List Char) :
    countBare skip cs = countBare 0 (cs.drop skip) := by
  induction skip generalizing cs with
  | zero => rfl
  | succ skip ih =>
    cases cs with
    | nil => rfl
    | cons c cs => exact ih cs

theorem countBare_of_none {c : Char} {cs : List Char} (h : tagAttributes? (c :: cs) = none) :
    countBare 0 (c :: cs) = countBare 0 cs := by
  simp only [countBare, h]

/-- A tag counts if it has no `id`, and the count goes on behind it. -/
theorem countBare_tag {a d : Char} (hopens : (a.toLower == 'h' && isDepth d) = true)
    {attributes : List Char} (hangle : '>' ∉ attributes) (hends : endsHeading attributes = true)
    (back : List Char) :
    countBare 0 ('<' :: a :: d :: (attributes ++ '>' :: back)) =
      (if hasId attributes then 0 else 1) + countBare 0 back := by
  have hkept : hasId (if attributes = ['/'] then [] else attributes) = hasId attributes := by
    split
    · rename_i heq
      rw [heq]
      rfl
    · rfl
  have hdrop : (a :: d :: (attributes ++ '>' :: back)).drop (attributes.length + 4 - 1) = back := by
    simp
  simp only [countBare, tagAttributes?_eq hopens hangle, hends, if_true]
  rw [hkept, countBare_skip, hdrop]

/-- In a text that an angle stands in, a tag is found whatever follows. -/
theorem tagAttributes?_append {front : List Char} (h : '>' ∈ front) (back : List Char) :
    tagAttributes? (front ++ back) = tagAttributes? front := by
  cases front with
  | nil => cases h
  | cons c cs =>
    rw [List.cons_append]
    by_cases hc : c = '<'
    · subst hc
      have hmem : '>' ∈ cs := by simpa using h
      cases hopens : opensHeading cs with
      | false =>
        rw [tagAttributes?_of_not_opens hopens, tagAttributes?_of_not_opens]
        rw [opensHeading_append hmem, hopens]
      | true =>
        obtain ⟨a, d, rest, rfl, had⟩ := eq_cons_of_opensHeading hopens
        obtain ⟨ha, hd⟩ := ne_of_opens had
        have hrest : '>' ∈ rest := by simpa [ha.symm, hd.symm] using hmem
        obtain ⟨attributes, more, rfl, hfirst⟩ := List.eq_append_cons_of_mem hrest
        rw [tagAttributes?_eq had hfirst, ← tagAttributes?_eq had hfirst (more ++ back)]
        simp
    · rw [tagAttributes?_of_ne hc, tagAttributes?_of_ne hc]

/-- A text is shut: it ends with an angle, if it is not empty. -/
def Shut (cs : List Char) : Prop := ∀ c ∈ cs.getLast?, c = '>'

theorem Shut.behind (front : List Char) {back : List Char} (h : Shut (front ++ back)) :
    Shut back := by
  intro c hc
  refine h c ?_
  rw [List.getLast?_append, Option.mem_def.mp hc]
  rfl

theorem Shut.mem {c : Char} {cs : List Char} (h : Shut (c :: cs)) : '>' ∈ c :: cs := by
  have hlast : (c :: cs).getLast? = some (cs.getLast?.getD c) := List.getLast?_cons
  have hangle := h _ hlast
  exact hangle ▸ List.mem_of_getLast? hlast

/-- A text that is shut and what is behind it are counted one by one. -/
theorem countBare_append {front : List Char} (h : Shut front) (back : List Char) :
    countBare 0 (front ++ back) = countBare 0 front + countBare 0 back := by
  -- A tag is passed over as a whole, so the induction is on the length.
  induction hn : front.length using Nat.strongRecOn generalizing front with
  | ind n ih =>
    cases front with
    | nil => rw [List.nil_append, countBare, Nat.zero_add]
    | cons c cs =>
      have happend := tagAttributes?_append h.mem back
      by_cases hnone : tagAttributes? (c :: cs) = none
      · rw [hnone, List.cons_append] at happend
        rw [countBare_of_none hnone, List.cons_append, countBare_of_none happend]
        exact ih cs.length (by simp at hn; omega) (Shut.behind [c] h) rfl
      · obtain ⟨a, d, attributes, more, ⟨htext, hopens, hangle, hends⟩⟩ :=
          exists_tag_of_some hnone
        rw [htext] at h hn ⊢
        have hmore : Shut more := by
          refine Shut.behind ('<' :: a :: d :: (attributes ++ ['>'])) ?_
          simpa using h
        have hlength : more.length < n := by
          simp at hn
          omega
        have hsplit : '<' :: a :: d :: (attributes ++ '>' :: more) ++ back =
            '<' :: a :: d :: (attributes ++ '>' :: (more ++ back)) := by
          simp
        rw [hsplit, countBare_tag hopens hangle hends, countBare_tag hopens hangle hends,
          ih more.length hlength hmore rfl, Nat.add_assoc]

/-! ## Counting stretches -/

/-- How many heading tags without an `id` a stretch of markup holds. -/
def bareIn (s : Stretch) : Nat := countBare 0 s.chars

/-- A stretch is counted by itself, whatever part of the text behind it follows. -/
theorem countBare_stretch {s : Stretch} {back : List Char} (h : s.Closed back)
    {front : List Char} (hfront : front <+: back) :
    countBare 0 (s.chars ++ front) = bareIn s + countBare 0 front := by
  rcases h with rfl | hangle | ⟨c, hchars, hletter⟩
  · rw [List.prefix_nil.mp hfront, List.append_nil, countBare, Nat.add_zero]
    rfl
  · refine countBare_append (fun c hc => ?_) front
    rw [hangle] at hc
    exact (Option.mem_some.mp hc).symm
  · -- A single character opens no tag: if it is an angle, no letter is behind it.
    have hnone : ∀ rest, rest <+: back → tagAttributes? (c :: rest) = none := by
      intro rest hrest
      by_cases hc : c = '<'
      · subst hc
        refine tagAttributes?_of_not_opens ?_
        cases rest with
        | nil => rfl
        | cons a rest =>
          obtain ⟨more, rfl⟩ := hrest
          exact opensHeading_of_not_letter (hletter rfl a rfl) rest
      · exact tagAttributes?_of_ne hc rest
    rw [bareIn, hchars, List.singleton_append, countBare_of_none (hnone front hfront),
      countBare_of_none (hnone [] List.nil_prefix), countBare, Nat.zero_add]

/-- Stretches that stand in markup are counted one by one. -/
theorem countBare_textOf {list behind : List Stretch} (h : AllClosed (list ++ behind)) :
    countBare 0 (textOf list) = (list.map bareIn).sum := by
  induction list with
  | nil => rfl
  | cons s rest ih =>
    obtain ⟨hclosed, hrest⟩ := h
    have hprefix : textOf rest <+: textOf (rest ++ behind) := by
      rw [Markup.textOf_append]
      exact List.prefix_append _ _
    rw [Markup.textOf_cons, countBare_stretch hclosed hprefix, ih hrest, List.map_cons,
      List.sum_cons]

end DocPages.Heading
