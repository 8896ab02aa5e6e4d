-- What raw markup loses when it is written. Barred tags are spelled out and
-- nulls are replaced, but the search for heading tags finds the same in it.
import DocPages.Markdown.Html
import DocPages.Proofs.Heading.RawTags

namespace DocPages.Heading

/-! ## Markup as it is written -/

/-- One text stands for another one: an angle that names no heading may be spelled out, and a null
may be replaced. -/
inductive Blurred : List Char → List Char → Prop
  | nil : Blurred [] []
  | same (c : Char) {cs ds : List Char} : Blurred cs ds → Blurred (c :: cs) (c :: ds)
  | angle {cs ds : List Char} : opensHeading cs = false → Blurred cs ds →
      Blurred ('<' :: cs) ('&' :: 'l' :: 't' :: ';' :: ds)
  | null {cs ds : List Char} : Blurred cs ds → Blurred ('\x00' :: cs) (Char.ofNat 0xFFFD :: ds)

/-- No tag that is not let through has the name of a heading. -/
theorem opensHeading_of_isBarred {cs : List Char} (h : Markdown.Html.isBarred cs = true) :
    opensHeading cs = false := by
  rw [Bool.eq_false_iff]
  intro hopens
  obtain ⟨a, d, rest, rfl, had⟩ := eq_cons_of_opensHeading hopens
  rw [Bool.and_eq_true, beq_iff_eq] at had
  obtain ⟨hlower, -⟩ := had
  have hletter : a.isAlpha = true := Markup.isAlpha_of_toLower (by rw [hlower]; rfl)
  have hslash : ¬ (some a == some '/') = true := by
    intro heq
    rw [beq_iff_eq, Option.some.injEq] at heq
    rw [heq] at hletter
    cases hletter
  have hfirst : ∀ name ∈ Markdown.Html.barredTags, name.toList.head? ≠ some 'h' := by decide
  unfold Markdown.Html.isBarred Markdown.Block.isTagIn at h
  rw [List.head?_cons, if_neg hslash, Bool.and_eq_true, List.any_eq_true] at h
  obtain ⟨⟨name, hname, heq⟩, -⟩ := h
  refine hfirst name hname ?_
  rw [beq_iff_eq] at heq
  rw [heq, List.takeWhile_cons_of_pos (by rw [Char.isAlphanum, hletter, Bool.true_or])]
  exact congrArg some hlower

/-- Raw markup as it is written stands for the raw markup. -/
theorem blurred_rawChars (cs : List Char) : Blurred cs (Markdown.Html.rawChars cs) := by
  induction cs with
  | nil => exact .nil
  | cons c cs ih =>
    unfold Markdown.Html.rawChars at ih ⊢
    rw [Markdown.Html.filterTags]
    split
    · rename_i hbarred
      rw [Bool.and_eq_true, beq_iff_eq] at hbarred
      obtain ⟨rfl, hbarred⟩ := hbarred
      exact .angle (opensHeading_of_isBarred hbarred) ih
    · by_cases hnull : c = '\x00'
      · subst hnull
        exact .null ih
      · rw [List.singleton_append, List.map_cons, if_neg (by rwa [beq_iff_eq])]
        exact .same c ih

/-! ## What a text that stands for another one holds -/

theorem Blurred.not_mem {cs ds : List Char} (h : Blurred cs ds) (hangle : '>' ∉ cs) :
    '>' ∉ ds := by
  induction h with
  | nil => exact hangle
  | same c _ ih =>
    rw [List.mem_cons, not_or] at hangle ⊢
    exact ⟨hangle.1, ih hangle.2⟩
  | angle _ _ ih =>
    rw [List.mem_cons, not_or] at hangle
    simpa using ih hangle.2
  | null _ ih =>
    rw [List.mem_cons, not_or] at hangle
    rw [List.mem_cons, not_or]
    exact ⟨by decide, ih hangle.2⟩

/-- The text up to the next angle stands for that of the other one, and so does the rest. -/
theorem Blurred.split {attributes back ds : List Char} (h : Blurred (attributes ++ '>' :: back) ds)
    (hangle : '>' ∉ attributes) :
    ∃ attributes' back', ds = attributes' ++ '>' :: back' ∧ Blurred attributes attributes' ∧
      Blurred back back' := by
  induction attributes generalizing ds with
  | nil =>
    cases h with
    | same c h => exact ⟨[], _, rfl, .nil, h⟩
  | cons c cs ih =>
    rw [List.mem_cons, not_or] at hangle
    cases h with
    | same c h =>
      obtain ⟨attributes', back', rfl, hfront, hback⟩ := ih h hangle.2
      exact ⟨c :: attributes', back', rfl, .same c hfront, hback⟩
    | angle hopens h =>
      obtain ⟨attributes', back', rfl, hfront, hback⟩ := ih h hangle.2
      exact ⟨'&' :: 'l' :: 't' :: ';' :: attributes', back', rfl,
        .angle (opensHeading_of_append hopens) hfront, hback⟩
    | null h =>
      obtain ⟨attributes', back', rfl, hfront, hback⟩ := ih h hangle.2
      exact ⟨_, back', rfl, .null hfront, hback⟩

theorem Blurred.endsHeading {cs ds : List Char} (h : Blurred cs ds) :
    Heading.endsHeading ds = Heading.endsHeading cs := by
  cases h with
  | nil => rfl
  | same c h => cases h <;> rfl
  | angle _ _ => rfl
  | null _ => rfl

/-- Whether the first character that is no blank is a sign of equality. -/
theorem Blurred.equals {cs ds : List Char} (h : Blurred cs ds) :
    ((ds.dropWhile Text.isBlank).head? == some '=') =
      ((cs.dropWhile Text.isBlank).head? == some '=') := by
  induction h with
  | nil => rfl
  | same c _ ih =>
    rw [List.dropWhile_cons, List.dropWhile_cons]
    split
    · exact ih
    · rfl
  | angle _ _ _ => rfl
  | null _ _ => rfl

theorem Blurred.startsWithId {cs ds : List Char} (h : Blurred cs ds) :
    Heading.startsWithId ds = Heading.startsWithId cs := by
  cases h with
  | nil => rfl
  | same c h =>
    cases h with
    | nil => rfl
    | same d h =>
      unfold Heading.startsWithId
      dsimp only
      rw [h.equals]
    | angle _ h => simp [Heading.startsWithId]
    | null h => simp [Heading.startsWithId]
  | angle _ h => cases h <;> simp [Heading.startsWithId]
  | null h => cases h <;> simp [Heading.startsWithId]

theorem Blurred.hasId {cs ds : List Char} (h : Blurred cs ds) :
    Heading.hasId ds = Heading.hasId cs := by
  induction h with
  | nil => rfl
  | same c h ih => rw [Heading.hasId, Heading.hasId, ih, h.startsWithId]
  | angle _ _ ih => exact ih
  | null _ ih => exact ih

theorem Blurred.opensHeading {cs ds : List Char} (h : Blurred cs ds) :
    Heading.opensHeading ds = Heading.opensHeading cs := by
  cases h with
  | nil => rfl
  | same c h =>
    cases h with
    | nil => rfl
    | same d h => rfl
    | angle _ h => simp [Heading.opensHeading, isDepth]
    | null h => simp [Heading.opensHeading, isDepth]
  | angle _ _ => rw [opensHeading_of_not_letter rfl, opensHeading_of_not_letter rfl]
  | null _ => rw [opensHeading_of_not_letter rfl, opensHeading_of_not_letter rfl]

/-- The name of a heading stands for itself. -/
theorem Blurred.behind {a d : Char} {rest ds : List Char} (h : Blurred (a :: d :: rest) ds)
    (hopens : (a.toLower == 'h' && isDepth d) = true) :
    ∃ rest', ds = a :: d :: rest' ∧ Blurred rest rest' := by
  cases h with
  | same a h =>
    cases h with
    | same d h => exact ⟨_, rfl, h⟩
    | angle _ _ => simp [isDepth] at hopens
    | null _ => simp [isDepth] at hopens
  | angle _ _ => simp at hopens
  | null _ => simp at hopens

/-- A text that stands for another one holds as many heading tags without an `id`. -/
theorem Blurred.countBare {cs ds : List Char} (h : Blurred cs ds) :
    Heading.countBare 0 ds = Heading.countBare 0 cs := by
  induction hn : cs.length using Nat.strongRecOn generalizing cs ds with
  | ind n ih =>
    -- Where there is no tag in either text, the rest is counted.
    have hskip : ∀ {c : Char} {cs' ds' : List Char}, cs = c :: cs' → Blurred cs' ds' →
        tagAttributes? (c :: cs') = none → tagAttributes? (c :: ds') = none →
        Heading.countBare 0 (c :: ds') = Heading.countBare 0 (c :: cs') := by
      intro c cs' ds' hcs hrest hnone hnone'
      rw [countBare_of_none hnone, countBare_of_none hnone']
      exact ih cs'.length (by rw [← hn, hcs]; simp) hrest rfl
    cases h with
    | nil => rfl
    | @angle cs ds hopens h =>
      have hspelled : Heading.countBare 0 ('&' :: 'l' :: 't' :: ';' :: ds) =
          Heading.countBare 0 ds := rfl
      rw [countBare_of_none (tagAttributes?_of_not_opens hopens), hspelled]
      exact ih _ (by rw [← hn]; simp) h rfl
    | null h =>
      rw [countBare_of_none (tagAttributes?_of_ne (by decide) _),
        countBare_of_none (tagAttributes?_of_ne (by decide) _)]
      exact ih _ (by rw [← hn]; simp) h rfl
    | @same c cs ds h =>
      by_cases hc : c = '<'
      · subst hc
        cases hopens : Heading.opensHeading cs with
        | false =>
          exact hskip rfl h (tagAttributes?_of_not_opens hopens)
            (tagAttributes?_of_not_opens (h.opensHeading.trans hopens))
        | true =>
          obtain ⟨a, d, rest, rfl, had⟩ := eq_cons_of_opensHeading hopens
          obtain ⟨rest', rfl, hrest⟩ := h.behind had
          by_cases hangle : '>' ∈ rest
          · obtain ⟨attributes, back, rfl, hfirst⟩ := List.eq_append_cons_of_mem hangle
            obtain ⟨attributes', back', rfl, hfront, hback⟩ := hrest.split hfirst
            have hfirst' := hfront.not_mem hfirst
            cases hends : Heading.endsHeading attributes with
            | true =>
              have hends' := hfront.endsHeading.trans hends
              rw [countBare_tag had hfirst hends, countBare_tag had hfirst' hends', hfront.hasId,
                ih _ (by rw [← hn]; simp; omega) hback rfl]
            | false =>
              have hends' := hfront.endsHeading.trans hends
              refine hskip rfl h ?_ ?_
              · rw [tagAttributes?_eq had hfirst, hends]
                rfl
              · rw [tagAttributes?_eq had hfirst', hends']
                rfl
          · exact hskip rfl h (tagAttributes?_of_not_mem a d hangle)
              (tagAttributes?_of_not_mem a d (hrest.not_mem hangle))
      · exact hskip rfl h (tagAttributes?_of_ne hc cs) (tagAttributes?_of_ne hc ds)

/-- Raw markup as it is written holds as many heading tags without an `id`. -/
theorem bareTags_eq (value : String) :
    bareTags value = countBare 0 (Markdown.Html.rawChars value.toList) :=
  (blurred_rawChars value.toList).countBare.symm

end DocPages.Heading
