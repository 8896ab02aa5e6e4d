-- Line breaks behind the end of a text, and what is seen of them from the places in front of
-- them. A place in the longer text has the same line and column, and only more behind it. As long
-- as a step stays in front of the end it is the same step in both texts: the first character that
-- was not there before ends a line, and so does the end of a text. The text itself must not end in
-- a carriage return, which would be one break with a line feed put behind it.
import DocPages.Text.Blank
import DocPages.Yaml.Source
import Mathlib.Data.List.Infix
import Mathlib.Data.List.TakeWhile

namespace DocPages.Yaml

open Text (isLineBreak)

variable {cs ds cut : List Char} {keep : Char → Bool} {c : Char}

/-! ## Texts -/

/-- Nothing but line feeds and carriage returns. -/
def Breaks (cut : List Char) : Prop := ∀ c ∈ cut, isLineBreak c = true

/-- A text whose last character is neither a line feed nor a carriage return. -/
def Unbroken (cs : List Char) : Prop := ∀ c ∈ cs.getLast?, isLineBreak c = false

/-- A class of characters without the line feed and the carriage return. -/
def Inline (keep : Char → Bool) : Prop := ∀ c, isLineBreak c = true → keep c = false

theorem isLineBreak_iff : isLineBreak c = true ↔ c = '\n' ∨ c = '\r' := by simp [isLineBreak]

theorem inline_iff : Inline keep ↔ keep '\n' = false ∧ keep '\r' = false := by
  constructor
  · intro h
    exact ⟨h _ (by decide), h _ (by decide)⟩
  · rintro ⟨hfeed, hreturn⟩ c hc
    rcases isLineBreak_iff.mp hc with rfl | rfl
    · exact hfeed
    · exact hreturn

theorem inline_isGap : Inline isGap := inline_iff.mpr (by decide)

theorem inline_isWord : Inline isWord := inline_iff.mpr (by decide)

theorem inline_isDigit : Inline Char.isDigit := inline_iff.mpr (by decide)

theorem inline_isHexDigit : Inline Text.isHexDigit := inline_iff.mpr (by decide)

theorem inline_not_isBreak : Inline fun c => !isBreak c := inline_iff.mpr (by decide)

theorem inline_beq (h : isLineBreak c = false) : Inline (· == c) := by
  intro d hd
  rw [beq_eq_false_iff_ne]
  rintro rfl
  rw [hd] at h
  cases h

theorem isBreak_of_isLineBreak (h : isLineBreak c = true) : isBreak c = true := by
  simpa using inline_not_isBreak c h

theorem breakText_of_isLineBreak (h : isLineBreak c = true) : breakText c = ['\n'] := by
  rcases isLineBreak_iff.mp h with rfl | rfl <;> decide

theorem breaks_nil : Breaks [] := List.forall_mem_nil _

theorem Breaks.of_suffix (h : Breaks cs) (hsuffix : ds <:+ cs) : Breaks ds :=
  fun c hc => h c (hsuffix.subset hc)

theorem Unbroken.of_suffix (h : Unbroken cs) (hsuffix : ds <:+ cs) : Unbroken ds := by
  obtain ⟨front, rfl⟩ := hsuffix
  intro c hc
  refine h c ?_
  rw [List.getLast?_append, Option.mem_def.mp hc]
  rfl

/-- A carriage return is not the end of such a text. -/
theorem Unbroken.ne_nil (h : Unbroken (c :: cs)) (hc : isLineBreak c = true) : cs ≠ [] := by
  rintro rfl
  have hno := h c rfl
  rw [hc] at hno
  cases hno

section Behind

variable (hcut : Breaks cut)

include hcut

/-- A character in front that is no line break was there before. -/
theorem cons_of_append_breaks (hc : isLineBreak c = false) (h : cs ++ cut = c :: ds) :
    ∃ behind, cs = c :: behind ∧ ds = behind ++ cut := by
  cases cs with
  | nil =>
    have hbreak := hcut c (by rw [← List.nil_append cut, h]; exact List.mem_cons_self)
    rw [hbreak] at hc
    cases hc
  | cons d cs =>
    obtain ⟨rfl, rfl⟩ := List.cons.inj h
    exact ⟨cs, rfl, rfl⟩

theorem takeWhile_append_breaks (h : Inline keep) (cs : List Char) :
    (cs ++ cut).takeWhile keep = cs.takeWhile keep := by
  have hnil : cut.takeWhile keep = [] := by
    cases cut with
    | nil => rfl
    | cons c cut => simp [h c (hcut c List.mem_cons_self)]
  rw [List.takeWhile_append, hnil]
  split
  · rename_i hall
    rw [List.append_nil, (List.takeWhile_prefix keep).eq_of_length hall]
  · rfl

theorem dropWhile_append_breaks (h : Inline keep) (cs : List Char) :
    (cs ++ cut).dropWhile keep = cs.dropWhile keep ++ cut := by
  have hsplit := List.takeWhile_append_dropWhile (p := keep) (l := cs ++ cut)
  rw [takeWhile_append_breaks hcut h] at hsplit
  refine List.append_cancel_left (hsplit.trans ?_)
  rw [← List.append_assoc, List.takeWhile_append_dropWhile]

theorem any_head?_append (h : Inline keep) (cs : List Char) :
    (cs ++ cut).head?.any keep = cs.head?.any keep := by
  cases cs with
  | nil =>
    cases cut with
    | nil => rfl
    | cons c cut => exact h c (hcut c List.mem_cons_self)
  | cons c cs => rfl

theorem head?_append_beq (h : isLineBreak c = false) (cs : List Char) :
    ((cs ++ cut).head? == some c) = (cs.head? == some c) := by
  have hany := any_head?_append hcut (inline_beq h) cs
  cases cs with
  | nil =>
    cases cut with
    | nil => rfl
    | cons d cut => exact hany
  | cons d cs => rfl

theorem atGap_append (cs : List Char) : atGap (cs ++ cut) = atGap cs := by
  cases cs with
  | nil =>
    cases cut with
    | nil => rfl
    | cons c cut => simp [atGap, isBreak_of_isLineBreak (hcut c List.mem_cons_self)]
  | cons c cs => rfl

theorem isMark_append (h : isLineBreak c = false) (cs : List Char) :
    isMark c (cs ++ cut) = isMark c cs := by
  have hnone : ∀ d ∈ cut, (d == c) = false := fun d hd => inline_beq h d (hcut d hd)
  rcases cs with _ | ⟨a, _ | ⟨b, _ | ⟨d, cs⟩⟩⟩
  · rcases cut with _ | ⟨d, _ | ⟨e, _ | ⟨f, cut⟩⟩⟩ <;> simp_all [isMark]
  · rcases cut with _ | ⟨d, _ | ⟨e, cut⟩⟩ <;> simp_all [isMark]
  · rcases cut with _ | ⟨d, cut⟩ <;> simp_all [isMark]
  · simp only [List.cons_append, isMark, atGap_append hcut]

end Behind

/-- How many line breaks there are; a carriage return and a line feed are one. -/
def breakCount : List Char → Nat
  | '\r' :: '\n' :: cs => breakCount cs + 1
  | _ :: cs => breakCount cs + 1
  | [] => 0

/-! ## Readings that may fail -/

section Rel

variable {α β γ δ : Type} {R R' : α → β → Prop} {S : γ → δ → Prop} {x : Option α} {y : Option β}

theorem eq_none_of_rel (h : Option.Rel R none y) : y = none := by
  cases h
  rfl

theorem exists_of_rel {a : α} (h : Option.Rel R (some a) y) : ∃ b, y = some b ∧ R a b := by
  cases h with
  | some h => exact ⟨_, rfl, h⟩

theorem rel_mono (h : Option.Rel R x y) (himp : ∀ a b, R a b → R' a b) : Option.Rel R' x y := by
  cases h with
  | none => exact .none
  | some h => exact .some (himp _ _ h)

theorem rel_map {f : α → γ} {g : β → δ} (h : Option.Rel R x y)
    (hstep : ∀ a b, R a b → S (f a) (g b)) : Option.Rel S (x.map f) (y.map g) := by
  cases h with
  | none => exact .none
  | some h => exact .some (hstep _ _ h)

theorem rel_bind {f : α → Option γ} {g : β → Option δ} (h : Option.Rel R x y)
    (hstep : ∀ a b, x = some a → R a b → Option.Rel S (f a) (g b)) :
    Option.Rel S (x.bind f) (y.bind g) := by
  cases h with
  | none => exact .none
  | some h => exact hstep _ _ rfl h

end Rel

/-! ## Places -/

namespace Place

variable {p q : Place}

/-- The same place in a text that has more at its end. -/
def longer (p : Place) (cut : List Char) : Place := { p with rest := p.rest ++ cut }

@[simp] theorem longer_rest (p : Place) (cut : List Char) :
    (p.longer cut).rest = p.rest ++ cut := rfl

@[simp] theorem longer_line (p : Place) (cut : List Char) : (p.longer cut).line = p.line := rfl

@[simp] theorem longer_column (p : Place) (cut : List Char) :
    (p.longer cut).column = p.column := rfl

@[simp] theorem longer_index (p : Place) (cut : List Char) : (p.longer cut).index = p.index := rfl

theorem next_longer (h : p.rest ≠ []) (cut : List Char) :
    (p.longer cut).next = p.next.longer cut := by
  obtain ⟨c, cs, hrest⟩ := List.exists_cons_of_ne_nil h
  simp [next, longer, hrest]

theorem skip_longer {n : Nat} (h : n ≤ p.rest.length) (cut : List Char) :
    (p.longer cut).skip n = (p.skip n).longer cut := by
  simp [skip, longer, List.drop_append_of_le_length h]

theorem nextLine_longer (hunbroken : Unbroken p.rest) (h : p.rest ≠ []) (cut : List Char) :
    (p.longer cut).nextLine = p.nextLine.longer cut := by
  obtain ⟨c, cs, hrest⟩ := List.exists_cons_of_ne_nil h
  rw [hrest] at hunbroken
  by_cases hc : c = '\r'
  · subst hc
    obtain ⟨d, ds, rfl⟩ := List.exists_cons_of_ne_nil (hunbroken.ne_nil (by decide))
    by_cases hd : d = '\n'
    · subst hd
      simp [nextLine, longer, hrest]
    · simp [nextLine, longer, hrest, hd]
  · simp [nextLine, longer, hrest, hc]

theorem skipWhile_longer (hcut : Breaks cut) (h : Inline keep) (p : Place) :
    (p.longer cut).skipWhile keep = (p.skipWhile keep).longer cut := by
  unfold skipWhile
  rw [longer_rest, takeWhile_append_breaks hcut h, skip_longer]
  exact (List.takeWhile_prefix keep).length_le

theorem atDocumentMark_longer (hcut : Breaks cut) (p : Place) :
    (p.longer cut).atDocumentMark = p.atDocumentMark := by
  simp only [atDocumentMark, longer_rest, longer_column,
    isMark_append hcut (by decide : isLineBreak '-' = false),
    isMark_append hcut (by decide : isLineBreak '.' = false)]

/-! ## What is left behind a step -/

theorem rest_next (p : Place) : p.next.rest = p.rest.tail := by
  unfold next
  split <;> simp_all

theorem rest_skip (p : Place) (n : Nat) : (p.skip n).rest = p.rest.drop n := rfl

theorem rest_skip_suffix (p : Place) (n : Nat) : (p.skip n).rest <:+ p.rest := List.drop_suffix n _

theorem rest_next_suffix (p : Place) : p.next.rest <:+ p.rest := by
  rw [rest_next]
  exact List.tail_suffix _

theorem rest_skipWhile (p : Place) (keep : Char → Bool) :
    (p.skipWhile keep).rest = p.rest.dropWhile keep := by
  have hsplit := List.takeWhile_append_dropWhile (p := keep) (l := p.rest)
  rw [skipWhile, rest_skip]
  nth_rewrite 2 [← hsplit]
  exact List.drop_left

/-- Behind a line break at least its first character is gone. -/
theorem rest_nextLine_suffix (p : Place) : p.nextLine.rest <:+ p.rest.tail := by
  unfold nextLine
  split
  · rename_i cs hrest
    rw [hrest]
    exact List.suffix_cons '\n' cs
  · rename_i c cs _ hrest
    rw [hrest]
    exact List.suffix_rfl
  · rename_i hrest
    rw [hrest]
    exact List.nil_suffix

theorem breakCount_nextLine (p : Place) :
    breakCount p.nextLine.rest = breakCount p.rest - 1 := by
  unfold nextLine
  split
  · rename_i cs hrest
    rw [hrest, breakCount]
    rfl
  · rename_i c cs hne hrest
    rw [hrest, breakCount]
    · rfl
    · rintro ds rfl rfl
      exact hne ds rfl rfl
  · rename_i hrest
    rw [hrest]
    rfl

/-- The place in front of what is left of the text. -/
def skipTo (p : Place) (behind : List Char) : Place := p.skip (p.rest.length - behind.length)

theorem rest_skipTo {behind : List Char} (h : behind <:+ p.rest) :
    (p.skipTo behind).rest = behind := by
  obtain ⟨front, hfront⟩ := h
  rw [skipTo, rest_skip, ← hfront, List.length_append, Nat.add_sub_cancel, List.drop_left]

theorem skipTo_longer (p : Place) (behind cut : List Char) :
    (p.longer cut).skipTo (behind ++ cut) = (p.skipTo behind).longer cut := by
  unfold skipTo
  rw [longer_rest, List.length_append, List.length_append, Nat.add_sub_add_right]
  exact skip_longer (Nat.sub_le _ _) cut

/-! ## The end of a line -/

/-- Two places, one in a text and one in the text with more breaks at its end: the same place, or
the end of the text and a place among the breaks, behind at most one of them. -/
def Along (cut : List Char) (p q : Place) : Prop :=
  q = p.longer cut ∨
    (p.rest = [] ∧ Breaks q.rest ∧ breakCount q.rest = breakCount cut - 1)

/-- The place behind a comment, if one begins at a place. -/
def commentEnd (p : Place) : Place := if p.rest.head? == some '#' then p.lineEnd else p

theorem commentEnd_longer (hcut : Breaks cut) (p : Place) :
    (p.longer cut).commentEnd = p.commentEnd.longer cut := by
  unfold commentEnd lineEnd
  rw [longer_rest, head?_append_beq hcut (by decide), skipWhile_longer hcut inline_not_isBreak]
  split <;> rfl

theorem rest_skipWhile_suffix (p : Place) (keep : Char → Bool) :
    (p.skipWhile keep).rest <:+ p.rest := p.rest_skip_suffix _

theorem rest_commentEnd_suffix (p : Place) : p.commentEnd.rest <:+ p.rest := by
  unfold commentEnd
  split
  · exact p.rest_skipWhile_suffix _
  · exact List.suffix_rfl

/-- The place behind spaces, tabs and a comment. -/
def lineRest (p : Place) : Place := (p.skipWhile isGap).commentEnd

theorem afterLine?_eq (p : Place) :
    p.afterLine? =
      match p.lineRest.rest with
      | [] => some p.lineRest
      | c :: _ => if isBreak c then some p.lineRest.nextLine else none := rfl

theorem lineRest_longer (hcut : Breaks cut) (p : Place) :
    (p.longer cut).lineRest = p.lineRest.longer cut := by
  rw [lineRest, skipWhile_longer hcut inline_isGap, commentEnd_longer hcut]
  rfl

theorem rest_lineRest_suffix (p : Place) : p.lineRest.rest <:+ p.rest :=
  (rest_commentEnd_suffix _).trans (p.rest_skipWhile_suffix _)

theorem rest_afterLine?_suffix (h : p.afterLine? = some q) : q.rest <:+ p.rest := by
  rw [afterLine?_eq] at h
  split at h
  · cases h
    exact rest_lineRest_suffix p
  · split at h
    · cases h
      exact ((rest_nextLine_suffix _).trans (List.tail_suffix _)).trans (rest_lineRest_suffix p)
    · cases h

/-- A line that ends with the text ends there in the longer text, at the first of the breaks. -/
theorem afterLine?_longer (hcut : Breaks cut) (hunbroken : Unbroken p.rest) :
    Option.Rel (Along cut) p.afterLine? (p.longer cut).afterLine? := by
  have hline := hunbroken.of_suffix (rest_lineRest_suffix p)
  rw [afterLine?_eq, afterLine?_eq, lineRest_longer hcut, longer_rest]
  cases hrest : p.lineRest.rest with
  | nil =>
    cases cut with
    | nil => exact .some (.inl rfl)
    | cons c cut =>
      dsimp only [List.nil_append]
      rw [if_pos (isBreak_of_isLineBreak (hcut c List.mem_cons_self))]
      have hbehind : (p.lineRest.longer (c :: cut)).rest = c :: cut := by
        rw [longer_rest, hrest, List.nil_append]
      have hsuffix := rest_nextLine_suffix (p.lineRest.longer (c :: cut))
      rw [hbehind] at hsuffix
      refine .some (.inr ⟨hrest, hcut.of_suffix (hsuffix.trans (List.tail_suffix _)), ?_⟩)
      rw [breakCount_nextLine, hbehind]
  | cons c cs =>
    dsimp only [List.cons_append]
    split
    · rw [nextLine_longer hline (by simp [hrest])]
      exact .some (.inl rfl)
    · exact .none

end Place

end DocPages.Yaml
