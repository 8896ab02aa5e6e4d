-- Tags and directives in front of line breaks that were not there before. None of their characters
-- is a line break, so they read as they did, and what is left behind them is longer by the breaks.
import DocPages.Proofs.Yaml.Places
import DocPages.Yaml.Token

namespace DocPages.Yaml

open Text (isLineBreak)

variable {α : Type} {cs ds cut : List Char} {between inFlow : Bool} {fuel fuel' n m : Nat}

/-- The same reading with more left behind it. -/
def leaving (cut : List Char) (r : α × List Char) : α × List Char := (r.1, r.2 ++ cut)

theorem inline_isTagChar (between : Bool) : Inline (isTagChar between) :=
  inline_iff.mpr (by cases between <;> decide)

/-! ## What is left -/

theorem rest_percentByte? {b : Nat} (h : percentByte? cs = some (b, ds)) : ds <:+ cs.tail := by
  unfold percentByte? at h
  split at h
  · rename_i a b ds'
    split at h
    · cases h
      exact List.suffix_append [a, b] ds
    · cases h
  · cases h

theorem rest_byteTail? {count : Nat} (h : byteTail? count n cs = some (m, ds)) : ds <:+ cs := by
  induction count generalizing n cs with
  | zero =>
    cases h
    exact List.suffix_rfl
  | succ count ih =>
    rw [byteTail?] at h
    split at h
    · rename_i b rest hbyte
      split at h
      · exact ((ih h).trans (rest_percentByte? hbyte)).trans (List.tail_suffix cs)
      · cases h
    · cases h

theorem rest_percentChar? {c : Char} (h : percentChar? cs = some (c, ds)) : ds <:+ cs.tail := by
  unfold percentChar? at h
  simp only [Option.bind_eq_bind, Option.bind_eq_some_iff, Option.some.injEq, Prod.mk.injEq] at h
  obtain ⟨⟨b, behind⟩, hbyte, ⟨count, lead⟩, -, ⟨code, rest⟩, htail, -, rfl⟩ := h
  exact (rest_byteTail? htail).trans (rest_percentByte? hbyte)

theorem rest_tagCharsFrom {done name : List Char}
    (h : tagCharsFrom between fuel done cs = some (name, ds)) : ds <:+ cs := by
  induction fuel generalizing done cs with
  | zero =>
    cases h
    exact List.suffix_rfl
  | succ fuel ih =>
    cases cs with
    | nil =>
      cases h
      exact List.suffix_rfl
    | cons c cs =>
      rw [tagCharsFrom] at h
      split at h
      · cases h
        exact List.suffix_rfl
      · split at h
        · split at h
          · rename_i d rest hchar
            exact ((ih h).trans (rest_percentChar? hchar)).trans (List.suffix_cons c cs)
          · cases h
        · exact (ih h).trans (List.suffix_cons c cs)

theorem rest_tagChars? {name : List Char} (h : tagChars? between cs = some (name, ds)) :
    ds <:+ cs :=
  rest_tagCharsFrom h

theorem rest_handle? {name : List Char} (h : handle? cs = some (name, ds)) : ds <:+ cs.tail := by
  unfold handle? at h
  split at h
  · rename_i cs
    rw [List.span_eq_takeWhile_dropWhile] at h
    have hsuffix := List.dropWhile_suffix (l := cs) isWord
    split at h
    · rename_i word rest hspan
      cases h
      rw [(Prod.mk.inj hspan).2] at hsuffix
      exact (List.suffix_cons '!' ds).trans hsuffix
    · rename_i word rest _ hspan
      cases h
      rw [(Prod.mk.inj hspan).2] at hsuffix
      exact hsuffix
  · cases h

theorem rest_shorthand? {name : TagName} (h : shorthand? cs = some (name, ds)) :
    ds <:+ cs.tail := by
  unfold shorthand? at h
  simp only [Option.bind_eq_bind, Option.bind_eq_some_iff] at h
  obtain ⟨⟨handle, behind⟩, hhandle, ⟨suffix, rest⟩, hchars, h⟩ := h
  have hsuffix := (rest_tagChars? hchars).trans (rest_handle? hhandle)
  split at h
  · split at h
    · cases h
    · cases h
      exact hsuffix
  · cases h
    exact hsuffix

theorem rest_verbatim? {name : TagName} (h : verbatim? cs = some (name, ds)) : ds <:+ cs := by
  unfold verbatim? at h
  split at h
  · rename_i suffix rest hchars
    split at h
    · cases h
    · cases h
      exact (List.suffix_cons '>' ds).trans (rest_tagChars? hchars)
  · cases h

/-- A tag of either kind. -/
def tagAt? : List Char → Option (TagName × List Char)
  | '!' :: '<' :: cs => verbatim? cs
  | cs => shorthand? cs

theorem TagName.read?_eq (inFlow : Bool) (cs : List Char) :
    TagName.read? inFlow cs = (tagAt? cs).bind fun r =>
      if atGap r.2 || (inFlow && r.2.head? == some ',') then some r else none := by
  unfold TagName.read?
  split
  · rfl
  · rename_i hother
    rw [tagAt?]
    · rfl
    · exact hother

/-- A tag takes at least its mark. -/
theorem TagName.rest_read? {name : TagName} (h : TagName.read? inFlow cs = some (name, ds)) :
    ds <:+ cs.tail := by
  rw [TagName.read?_eq, Option.bind_eq_some_iff] at h
  obtain ⟨⟨tag, rest⟩, htag, h⟩ := h
  split at h
  · cases h
    unfold tagAt? at htag
    split at htag
    · exact (rest_verbatim? htag).trans (List.suffix_cons '<' _)
    · exact rest_shorthand? htag
  · cases h

namespace Lexer

theorem rest_versionNumber? (h : versionNumber? cs = some (n, ds)) : ds <:+ cs := by
  unfold versionNumber? at h
  rw [List.span_eq_takeWhile_dropWhile] at h
  split at h
  · cases h
  · rename_i digits rest _ hspan
    have hrest := (Prod.mk.inj hspan).2
    split at h
    · cases h
      rw [← hrest]
      exact List.dropWhile_suffix _
    · cases h

theorem rest_version? {t : Token} (h : version? cs = some (t, ds)) : ds <:+ cs := by
  unfold version? at h
  simp only [Option.bind_eq_bind, Option.bind_eq_some_iff] at h
  obtain ⟨⟨major, behind⟩, hmajor, h⟩ := h
  have hbehind := (rest_versionNumber? hmajor).trans (List.dropWhile_suffix _)
  split at h
  · rename_i rest hrest
    rw [show behind = '.' :: rest from hrest] at hbehind
    simp only [Option.bind_eq_some_iff] at h
    obtain ⟨⟨minor, back⟩, hminor, h⟩ := h
    cases h
    exact ((rest_versionNumber? hminor).trans (List.suffix_cons '.' rest)).trans hbehind
  · cases h

theorem rest_tagHandle? {t : Token} (h : tagHandle? cs = some (t, ds)) : ds <:+ cs := by
  unfold tagHandle? at h
  simp only [Option.bind_eq_bind, Option.bind_eq_some_iff] at h
  obtain ⟨⟨handle, behind⟩, hhandle, h⟩ := h
  have hbehind :=
    ((rest_handle? hhandle).trans (List.tail_suffix _)).trans (List.dropWhile_suffix _)
  split at h
  · cases h
  · simp only [Option.bind_eq_some_iff] at h
    obtain ⟨⟨start, rest⟩, hstart, h⟩ := h
    split at h
    · cases h
      exact ((rest_tagChars? hstart).trans (List.dropWhile_suffix _)).trans hbehind
    · cases h

end Lexer

/-! ## In front of line breaks -/

section Behind

variable (hcut : Breaks cut)

include hcut

theorem percentByte?_append (cs : List Char) :
    percentByte? (cs ++ cut) = (percentByte? cs).map (leaving cut) := by
  have hpercent : ∀ d ∈ cut, d ≠ '%' := by
    rintro d hd rfl
    exact absurd (hcut _ hd) (by decide)
  have hhex : ∀ d ∈ cut, Text.isHexDigit d = false := fun d hd => inline_isHexDigit d (hcut d hd)
  rcases cs with _ | ⟨a, cs⟩
  · rcases cut with _ | ⟨d, cut⟩
    · rfl
    · simp [percentByte?, hpercent d]
  by_cases ha : a = '%'
  · subst ha
    rcases cs with _ | ⟨b, _ | ⟨c, cs⟩⟩
    · rcases cut with _ | ⟨d, _ | ⟨e, cut⟩⟩ <;> simp_all [percentByte?]
    · rcases cut with _ | ⟨d, cut⟩ <;> simp_all [percentByte?]
    · simp only [List.cons_append, percentByte?]
      split <;> rfl
  · simp [percentByte?, ha]

theorem byteTail?_append (count n : Nat) (cs : List Char) :
    byteTail? count n (cs ++ cut) = (byteTail? count n cs).map (leaving cut) := by
  induction count generalizing n cs with
  | zero => rfl
  | succ count ih =>
    rw [byteTail?, byteTail?, percentByte?_append hcut]
    cases percentByte? cs with
    | none => rfl
    | some r =>
      simp only [Option.map_some, leaving]
      split
      · exact ih _ _
      · rfl

theorem percentChar?_append (cs : List Char) :
    percentChar? (cs ++ cut) = (percentChar? cs).map (leaving cut) := by
  unfold percentChar?
  rw [percentByte?_append hcut]
  cases percentByte? cs with
  | none => rfl
  | some r =>
    simp only [Option.map_some, leaving, Option.bind_eq_bind, Option.bind_some]
    cases byteLead? r.1 with
    | none => rfl
    | some lead =>
      simp only [Option.bind_some, byteTail?_append hcut]
      cases byteTail? lead.1 lead.2 r.2 <;> rfl

theorem tagCharsFrom_append (done : List Char) (hfuel : cs.length < fuel)
    (hfuel' : cs.length + cut.length < fuel') :
    tagCharsFrom between fuel' done (cs ++ cut) =
      (tagCharsFrom between fuel done cs).map (leaving cut) := by
  induction fuel generalizing fuel' done cs with
  | zero => omega
  | succ fuel ih =>
    obtain ⟨fuel', rfl⟩ : ∃ n, fuel' = n + 1 := Nat.exists_eq_add_one_of_ne_zero (by omega)
    cases cs with
    | nil =>
      cases cut with
      | nil => rfl
      | cons c cut =>
        have hc := inline_isTagChar between c (hcut c List.mem_cons_self)
        simp [tagCharsFrom, hc, leaving]
    | cons c cs =>
      simp only [List.length_cons] at hfuel hfuel'
      simp only [List.cons_append, tagCharsFrom]
      by_cases hc : isTagChar between c
      · simp only [hc, Bool.not_true, Bool.false_eq_true, if_false]
        by_cases hpercent : c == '%'
        · simp only [hpercent, if_true]
          rw [← List.cons_append, percentChar?_append hcut]
          cases hchar : percentChar? (c :: cs) with
          | none => rfl
          | some r =>
            have hlength := (rest_percentChar? hchar).length_le
            rw [List.tail_cons] at hlength
            exact ih _ (by omega) (by omega)
        · simp only [hpercent, Bool.false_eq_true, if_false]
          exact ih _ (by omega) (by omega)
      · simp [hc, leaving]

theorem tagChars?_append (between : Bool) (cs : List Char) :
    tagChars? between (cs ++ cut) = (tagChars? between cs).map (leaving cut) :=
  tagCharsFrom_append hcut [] (by omega) (by rw [List.length_append]; omega)

theorem handle?_append (cs : List Char) :
    handle? (cs ++ cut) = (handle? cs).map (leaving cut) := by
  have hmark : ∀ d ∈ cut, d ≠ '!' := by
    rintro d hd rfl
    exact absurd (hcut _ hd) (by decide)
  rcases cs with _ | ⟨a, cs⟩
  · rcases cut with _ | ⟨d, cut⟩
    · rfl
    · simp [handle?, hmark d]
  by_cases ha : a = '!'
  · subst ha
    simp only [List.cons_append, handle?, List.span_eq_takeWhile_dropWhile,
      takeWhile_append_breaks hcut inline_isWord, dropWhile_append_breaks hcut inline_isWord]
    rcases cs.dropWhile isWord with _ | ⟨b, behind⟩
    · rcases cut with _ | ⟨d, cut⟩
      · rfl
      · simp [hmark d, leaving]
    · by_cases hb : b = '!'
      · subst hb
        rfl
      · simp [hb, leaving]
  · simp [handle?, ha]

theorem shorthand?_append (cs : List Char) :
    shorthand? (cs ++ cut) = (shorthand? cs).map (leaving cut) := by
  unfold shorthand?
  rw [handle?_append hcut]
  cases handle? cs with
  | none => rfl
  | some r =>
    simp only [Option.map_some, leaving, Option.bind_eq_bind, Option.bind_some,
      tagChars?_append hcut]
    cases tagChars? false r.2 with
    | none => rfl
    | some chars =>
      simp only [Option.map_some, leaving, Option.bind_some]
      split
      · split <;> rfl
      · rfl

theorem verbatim?_append (cs : List Char) :
    verbatim? (cs ++ cut) = (verbatim? cs).map (leaving cut) := by
  have hangle : ∀ d ∈ cut, d ≠ '>' := by
    rintro d hd rfl
    exact absurd (hcut _ hd) (by decide)
  unfold verbatim?
  rw [tagChars?_append hcut]
  rcases tagChars? true cs with _ | ⟨suffix, behind⟩
  · rfl
  rcases behind with _ | ⟨b, behind⟩
  · rcases cut with _ | ⟨d, cut⟩
    · rfl
    · simp [leaving, hangle d]
  · by_cases hb : b = '>'
    · subst hb
      simp only [Option.map_some, leaving, List.cons_append]
      split <;> rfl
    · simp [leaving, hb]

theorem tagAt?_append (cs : List Char) : tagAt? (cs ++ cut) = (tagAt? cs).map (leaving cut) := by
  by_cases hverbatim : ∃ behind, cs = '!' :: '<' :: behind
  · obtain ⟨behind, rfl⟩ := hverbatim
    exact verbatim?_append hcut behind
  · rw [tagAt?, tagAt?]
    · exact shorthand?_append hcut cs
    · exact fun behind h => hverbatim ⟨behind, h⟩
    · intro behind h
      obtain ⟨rest, rfl, hrest⟩ := cons_of_append_breaks hcut (by decide) h
      obtain ⟨back, rfl, -⟩ := cons_of_append_breaks hcut (by decide) hrest.symm
      exact hverbatim ⟨back, rfl⟩

theorem TagName.read?_append (inFlow : Bool) (cs : List Char) :
    TagName.read? inFlow (cs ++ cut) = (TagName.read? inFlow cs).map (leaving cut) := by
  rw [TagName.read?_eq, TagName.read?_eq, tagAt?_append hcut]
  cases tagAt? cs with
  | none => rfl
  | some r =>
    simp only [Option.map_some, leaving, Option.bind_some, atGap_append hcut,
      head?_append_beq hcut (by decide : isLineBreak ',' = false)]
    split <;> rfl

namespace Lexer

theorem versionNumber?_append (cs : List Char) :
    versionNumber? (cs ++ cut) = (versionNumber? cs).map (leaving cut) := by
  simp only [versionNumber?, List.span_eq_takeWhile_dropWhile,
    takeWhile_append_breaks hcut inline_isDigit, dropWhile_append_breaks hcut inline_isDigit]
  cases cs.takeWhile Char.isDigit with
  | nil => rfl
  | cons d digits =>
    dsimp only
    split <;> rfl

theorem version?_append (cs : List Char) :
    version? (cs ++ cut) = (version? cs).map (leaving cut) := by
  have hdot : ∀ d ∈ cut, d ≠ '.' := by
    rintro d hd rfl
    exact absurd (hcut _ hd) (by decide)
  unfold version?
  rw [dropWhile_append_breaks hcut inline_isGap, versionNumber?_append hcut]
  rcases versionNumber? (cs.dropWhile isGap) with _ | ⟨major, behind⟩
  · rfl
  simp only [Option.map_some, leaving, Option.bind_eq_bind, Option.bind_some]
  rcases behind with _ | ⟨b, behind⟩
  · rcases cut with _ | ⟨d, cut⟩
    · rfl
    · simp [hdot d]
  · by_cases hb : b = '.'
    · subst hb
      simp only [List.cons_append, versionNumber?_append hcut]
      cases versionNumber? behind <;> rfl
    · simp [hb]

theorem tagHandle?_append (cs : List Char) :
    tagHandle? (cs ++ cut) = (tagHandle? cs).map (leaving cut) := by
  unfold tagHandle?
  rw [dropWhile_append_breaks hcut inline_isGap, handle?_append hcut]
  rcases handle? (cs.dropWhile isGap) with _ | ⟨handle, behind⟩
  · rfl
  simp only [Option.map_some, leaving, Option.bind_eq_bind, Option.bind_some,
    any_head?_append hcut inline_isGap, dropWhile_append_breaks hcut inline_isGap,
    tagChars?_append hcut]
  split
  · rfl
  · rcases tagChars? true (behind.dropWhile isGap) with _ | ⟨start, rest⟩
    · rfl
    · simp only [Option.map_some, leaving, Option.bind_some, atGap_append hcut]
      split <;> rfl

end Lexer

end Behind

end DocPages.Yaml
