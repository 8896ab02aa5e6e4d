-- Scalars in the running text in front of line breaks that were not there before. A quoted scalar
-- reads as it did, since its closing quote cannot stand among the breaks. A plain scalar that
-- reaches the end of the text passes over the breaks behind it and keeps the same words.
import DocPages.Proofs.Yaml.Places
import DocPages.Yaml.Token

namespace DocPages.Yaml

variable {cs cut text : List Char} {p q : Place} {fold fold' : Fold} {quote c : Char}
  {fuel fuel' n floor : Nat} {inFlow : Bool}

/-! ## Escapes -/

theorem length_escape? {e : Char} (h : escape? cs = some (e, n)) : n ≤ cs.length := by
  unfold escape? at h
  split at h
  · cases h
  · rename_i c cs
    split at h
    · cases h
      simp
    · rename_i width _ _
      dsimp only at h
      split at h
      · rename_i hdigits
        simp only [Bool.and_eq_true, beq_iff_eq, List.length_take] at hdigits
        simp only [Option.map_eq_some_iff, Prod.mk.injEq] at h
        obtain ⟨-, -, -, rfl⟩ := h
        rw [List.length_cons]
        omega
      · cases h
    · cases h

/-- Digits that line breaks would have to complete are none. -/
theorem escape?_append (hcut : Breaks cut) (h : cs ≠ []) : escape? (cs ++ cut) = escape? cs := by
  obtain ⟨c, cs, rfl⟩ := List.exists_cons_of_ne_nil h
  rw [List.cons_append, escape?, escape?]
  cases letterEscape? c with
  | some n => rfl
  | none =>
    cases escapeWidth? c with
    | none => rfl
    | some width =>
      dsimp only
      by_cases hwidth : width ≤ cs.length
      · rw [List.take_append_of_le_length hwidth]
      · rw [if_neg, if_neg]
        · simp only [Bool.and_eq_true, beq_iff_eq, List.length_take]
          omega
        · rw [Bool.and_eq_true, not_and]
          intro hlength
          rw [beq_iff_eq, List.length_take, List.length_append] at hlength
          cases cut with
          | nil =>
            rw [List.length_nil] at hlength
            omega
          | cons d cut =>
            have hd := inline_isHexDigit d (hcut d List.mem_cons_self)
            have hmem : d ∈ (cs ++ d :: cut).take width := by
              rw [List.take_append, List.mem_append]
              obtain ⟨m, hm⟩ : ∃ m, width - cs.length = m + 1 :=
                Nat.exists_eq_add_one_of_ne_zero (by omega)
              rw [hm]
              exact .inr (by simp)
            rw [List.all_eq_true]
            intro hall
            rw [hall d hmem] at hd
            cases hd

/-! ## Quoted scalars -/

theorem rest_quotedFrom (h : quotedFrom quote fuel fold p = some (text, q)) :
    q.rest <:+ p.rest := by
  induction fuel generalizing fold p with
  | zero => cases h
  | succ fuel ih =>
    have hnext := p.rest_next_suffix
    have hline := p.rest_nextLine_suffix.trans (List.tail_suffix _)
    rw [quotedFrom] at h
    split at h
    · cases h
    · split at h
      · cases h
      · split at h
        · exact (ih h).trans hnext
        · split at h
          · exact (ih h).trans hline
          · split at h
            · split at h
              · exact (ih h).trans (p.rest_skip_suffix 2)
              · cases h
                exact hnext
            · split at h
              · split at h
                · cases h
                · split at h
                  · exact (ih h).trans
                      ((p.next.rest_nextLine_suffix.trans (List.tail_suffix _)).trans hnext)
                  · split at h
                    · exact (ih h).trans (p.rest_skip_suffix _)
                    · cases h
              · exact (ih h).trans hnext

/-- No scalar is closed by line breaks. -/
theorem quotedFrom_breaks (h : Breaks p.rest) :
    quotedFrom quote fuel fold p = none := by
  induction fuel generalizing fold p with
  | zero => rfl
  | succ fuel ih =>
    rw [quotedFrom]
    split
    · rfl
    · cases hrest : p.rest with
      | nil => rfl
      | cons c cs =>
        have hc := h c (by simp [hrest])
        simp only [inline_isGap c hc, isBreak_of_isLineBreak hc, Bool.false_eq_true, if_false,
          if_true]
        exact ih (h.of_suffix (p.rest_nextLine_suffix.trans (List.tail_suffix _)))

theorem quotedFrom_longer (hcut : Breaks cut) (hunbroken : Unbroken p.rest)
    (hfuel : p.rest.length < fuel) (hfuel' : p.rest.length + cut.length < fuel') :
    quotedFrom quote fuel' fold (p.longer cut) =
      (quotedFrom quote fuel fold p).map fun r => (r.1, r.2.longer cut) := by
  induction fuel generalizing fuel' fold p with
  | zero => omega
  | succ fuel ih =>
    cases hrest : p.rest with
    | nil =>
      have hbreaks : Breaks (p.longer cut).rest := by
        rw [Place.longer_rest, hrest, List.nil_append]
        exact hcut
      rw [quotedFrom_breaks hbreaks, quotedFrom_breaks (hrest ▸ nofun)]
      rfl
    | cons c cs =>
      obtain ⟨fuel', rfl⟩ : ∃ n, fuel' = n + 1 := Nat.exists_eq_add_one_of_ne_zero (by omega)
      have hne : p.rest ≠ [] := by simp [hrest]
      have hstep : ∀ {q : Place} {fold : Fold}, q.rest <:+ cs →
          quotedFrom quote fuel' fold (q.longer cut) =
            (quotedFrom quote fuel fold q).map fun r => (r.1, r.2.longer cut) := by
        intro q fold hq
        have hlength := hq.length_le
        rw [hrest, List.length_cons] at hfuel hfuel'
        exact ih (hunbroken.of_suffix (hrest ▸ hq.trans (List.suffix_cons c cs))) (by omega)
          (by omega)
      have hnext : p.next.rest = cs := by rw [p.rest_next, hrest, List.tail_cons]
      have hline : p.nextLine.rest <:+ cs := by
        simpa [hrest] using p.rest_nextLine_suffix
      rw [quotedFrom, quotedFrom, Place.atDocumentMark_longer hcut, Place.longer_rest, hrest,
        List.cons_append, Place.next_longer hne, Place.nextLine_longer hunbroken hne]
      dsimp only
      split
      · rfl
      split
      · exact hstep (hnext ▸ List.suffix_rfl)
      split
      · exact hstep hline
      split
      · rw [head?_append_beq hcut (by decide)]
        split
        · rename_i hquotes
          have htwo : 2 ≤ p.rest.length := by
            cases cs with
            | nil => simp at hquotes
            | cons d cs => simp [hrest]
          rw [Place.skip_longer htwo]
          refine hstep ?_
          rw [Place.rest_skip, hrest]
          exact List.drop_suffix 1 cs
        · rfl
      split
      · cases cs with
        | nil =>
          cases cut with
          | nil => rfl
          | cons d cut =>
            have hbehind : (p.next.longer (d :: cut)).rest = d :: cut := by
              rw [Place.longer_rest, hnext, List.nil_append]
            have hback := (p.next.longer (d :: cut)).rest_nextLine_suffix
            rw [hbehind] at hback
            dsimp only [List.nil_append]
            rw [if_pos (isBreak_of_isLineBreak (hcut d List.mem_cons_self)),
              quotedFrom_breaks (hcut.of_suffix (hback.trans (List.tail_suffix _)))]
            rfl
        | cons d ds =>
          have hunbroken' : Unbroken p.next.rest := hunbroken.of_suffix p.rest_next_suffix
          have hback := p.next.rest_nextLine_suffix
          rw [hnext, List.tail_cons] at hback
          rw [escape?_append hcut (List.cons_ne_nil d ds), List.cons_append,
            Place.nextLine_longer hunbroken' (by simp [hnext])]
          dsimp only
          split
          · exact hstep (hback.trans (List.suffix_cons d ds))
          · cases hescape : escape? (d :: ds) with
            | none => rfl
            | some r =>
              have hlength := length_escape? hescape
              dsimp only
              rw [Place.skip_longer (by rw [hrest, List.length_cons]; omega)]
              refine hstep ?_
              rw [Place.rest_skip, hrest, List.drop_succ_cons]
              exact List.drop_suffix _ _
      · exact hstep (hnext ▸ List.suffix_rfl)

theorem rest_quoted? (h : quoted? quote p = some (text, q)) : q.rest <:+ p.next.rest :=
  rest_quotedFrom h

theorem quoted?_longer (hcut : Breaks cut) (hunbroken : Unbroken p.rest) (h : p.rest ≠ []) :
    quoted? quote (p.longer cut) = (quoted? quote p).map fun r => (r.1, r.2.longer cut) := by
  have hlength : p.next.rest.length < p.rest.length := by
    obtain ⟨c, cs, hrest⟩ := List.exists_cons_of_ne_nil h
    simp [p.rest_next, hrest]
  unfold quoted?
  rw [Place.next_longer h, Place.longer_rest, List.length_append]
  exact quotedFrom_longer hcut (hunbroken.of_suffix p.rest_next_suffix) hlength (by omega)

/-! ## Plain scalars -/

theorem rest_plainFrom (h : plainFrom inFlow floor fuel fold p = some (fold', q)) :
    q.rest <:+ p.rest := by
  induction fuel generalizing fold p with
  | zero =>
    cases h
    exact List.suffix_rfl
  | succ fuel ih =>
    have hnext := p.rest_next_suffix
    have hline := p.rest_nextLine_suffix.trans (List.tail_suffix _)
    rw [plainFrom] at h
    split at h
    · cases h
      exact List.suffix_rfl
    split at h
    · split at h
      · cases h
      · exact (ih h).trans hnext
    split at h
    · exact (ih h).trans hline
    split at h
    · cases h
      exact List.suffix_rfl
    split at h
    · cases h
      exact List.suffix_rfl
    split at h
    · cases h
    split at h
    · cases h
      exact List.suffix_rfl
    · exact (ih h).trans hnext

@[simp] theorem Fold.words_addBreak (fold : Fold) (c : Char) :
    (fold.addBreak c).words = fold.words := by
  unfold addBreak words
  split <;> rfl

/-- Line breaks behind a plain scalar are passed over, and its words stay. -/
theorem plainFrom_breaks (inFlow : Bool) (floor : Nat) (fold : Fold) (h : Breaks p.rest)
    (hfuel : p.rest.length < fuel) :
    ∃ fold' q, plainFrom inFlow floor fuel fold p = some (fold', q) ∧ q.rest = [] ∧
      fold'.words = fold.words := by
  induction fuel generalizing fold p with
  | zero => omega
  | succ fuel ih =>
    cases hrest : p.rest with
    | nil => exact ⟨fold, p, by rw [plainFrom, hrest], hrest, rfl⟩
    | cons c cs =>
      have hc := h c (by simp [hrest])
      have hline : p.nextLine.rest <:+ cs := by
        simpa [hrest] using p.rest_nextLine_suffix
      have hlength := hline.length_le
      rw [hrest, List.length_cons] at hfuel
      obtain ⟨fold', q, hread, hq, hwords⟩ := ih (fold.addBreak c)
        (h.of_suffix (p.rest_nextLine_suffix.trans (List.tail_suffix _))) (by omega)
      refine ⟨fold', q, ?_, hq, hwords.trans (fold.words_addBreak c)⟩
      rw [plainFrom, hrest]
      simp only [inline_isGap c hc, isBreak_of_isLineBreak hc, Bool.false_eq_true, if_false,
        if_true]
      exact hread

theorem misplacedColon_append (hcut : Breaks cut) (cs : List Char) :
    misplacedColon (cs ++ cut) = misplacedColon cs := by
  have hmark : Inline fun c => isFlowMark c || c == '?' := inline_iff.mpr (by decide)
  cases cs with
  | nil =>
    cases cut with
    | nil => rfl
    | cons c cut => exact hmark c (hcut c List.mem_cons_self)
  | cons c cs => rfl

/-- Two readings of a plain scalar, the second one in front of more line breaks: the same, or both
at the end with the same words. -/
def SameWords (cut : List Char) (r s : Fold × Place) : Prop :=
  s = (r.1, r.2.longer cut) ∨ (r.2.rest = [] ∧ s.2.rest = [] ∧ s.1.words = r.1.words)

theorem plainFrom_longer (hcut : Breaks cut) (hunbroken : Unbroken p.rest)
    (hfuel : p.rest.length < fuel) (hfuel' : p.rest.length + cut.length < fuel') :
    Option.Rel (SameWords cut) (plainFrom inFlow floor fuel fold p)
      (plainFrom inFlow floor fuel' fold (p.longer cut)) := by
  induction fuel generalizing fuel' fold p with
  | zero => omega
  | succ fuel ih =>
    cases hrest : p.rest with
    | nil =>
      have hbehind : (p.longer cut).rest = cut := by
        rw [Place.longer_rest, hrest, List.nil_append]
      rw [← hbehind] at hcut
      obtain ⟨fold', q, hread, hq, hwords⟩ := plainFrom_breaks inFlow floor fold hcut
        (by rw [hbehind]; omega : (p.longer cut).rest.length < fuel')
      rw [hread, plainFrom, hrest]
      exact .some (.inr ⟨hrest, hq, hwords⟩)
    | cons c cs =>
      obtain ⟨fuel', rfl⟩ : ∃ n, fuel' = n + 1 := Nat.exists_eq_add_one_of_ne_zero (by omega)
      have hne : p.rest ≠ [] := by simp [hrest]
      have hstep : ∀ {q : Place} {fold : Fold}, q.rest <:+ cs →
          Option.Rel (SameWords cut) (plainFrom inFlow floor fuel fold q)
            (plainFrom inFlow floor fuel' fold (q.longer cut)) := by
        intro q fold hq
        have hlength := hq.length_le
        rw [hrest, List.length_cons] at hfuel hfuel'
        exact ih (hunbroken.of_suffix (hrest ▸ hq.trans (List.suffix_cons c cs))) (by omega)
          (by omega)
      have hnext : p.next.rest <:+ cs := by rw [p.rest_next, hrest, List.tail_cons]
      have hline : p.nextLine.rest <:+ cs := by
        simpa [hrest] using p.rest_nextLine_suffix
      have hcolumn : decide ((p.longer cut).column < floor) = decide (p.column < floor) := rfl
      rw [plainFrom, plainFrom, Place.longer_rest, hrest, List.cons_append]
      simp only [hcolumn, Place.next_longer hne, Place.nextLine_longer hunbroken hne,
        Place.atDocumentMark_longer hcut, misplacedColon_append hcut, atGap_append hcut]
      split
      · split
        · exact .none
        · exact hstep hnext
      split
      · exact hstep hline
      split
      · exact .some (.inl rfl)
      split
      · exact .some (.inl rfl)
      split
      · exact .none
      split
      · exact .some (.inl rfl)
      · exact hstep hnext

theorem plain?_longer (inFlow : Bool) (floor : Nat) (hcut : Breaks cut)
    (hunbroken : Unbroken p.rest) :
    Option.Rel (fun r s => s = (r.1, r.2.1, r.2.2.longer cut) ∨
        (r.2.2.rest = [] ∧ s.2.2.rest = [] ∧ s.1 = r.1))
      (plain? inFlow floor p) (plain? inFlow floor (p.longer cut)) := by
  have hread : Option.Rel (SameWords cut) (plainFrom inFlow floor (p.rest.length + 1) .empty p)
      (plainFrom inFlow floor ((p.longer cut).rest.length + 1) .empty (p.longer cut)) := by
    apply plainFrom_longer hcut hunbroken
    · omega
    · rw [Place.longer_rest, List.length_append]
      omega
  refine rel_map hread fun r s hrs => ?_
  rcases hrs with rfl | ⟨hrest, hrest', hwords⟩
  · exact .inl rfl
  · exact .inr ⟨hrest, hrest', hwords⟩

/-- A character with which a plain scalar begins does not end it. -/
theorem startsPlain_cons (h : Lexer.startsPlain inFlow (c :: cs) = true) :
    isGap c = false ∧ isBreak c = false ∧ (inFlow && c == ':' && misplacedColon cs) = false ∧
      ((c == ':' && atGap cs) || (inFlow && isFlowMark c)) = false := by
  simp only [Lexer.startsPlain, Bool.or_eq_true, Bool.and_eq_true, Bool.not_eq_true',
    beq_iff_eq] at h
  rcases h with (hplain | ⟨rfl, -⟩) | ⟨⟨rfl, rfl | rfl⟩, hgap⟩
  · simp only [Lexer.startsNoPlain, Bool.or_eq_false_iff] at hplain
    obtain ⟨⟨hgap, hbreak⟩, hmark⟩ := hplain
    have hcolon : (c == ':') = false := by
      rw [beq_eq_false_iff_ne]
      rintro rfl
      exact absurd hmark (by decide)
    have hflow : isFlowMark c = false := by
      rw [← Bool.not_eq_true]
      intro hflow
      simp only [isFlowMark, List.contains_iff_mem, List.mem_cons, List.not_mem_nil, or_false]
        at hflow
      rcases hflow with rfl | rfl | rfl | rfl | rfl <;> exact absurd hmark (by decide)
    simp [hgap, hbreak, hcolon, hflow]
  · refine ⟨by decide, by decide, ?_, ?_⟩ <;> simp [isFlowMark]
  · exact ⟨by decide, by decide, rfl, rfl⟩
  · exact ⟨by decide, by decide, rfl, by simp [hgap]⟩

/-- A plain scalar takes at least one character. -/
theorem rest_plain? {broken : Bool} (hrest : p.rest = c :: cs) (hmark : p.atDocumentMark = false)
    (hstarts : Lexer.startsPlain inFlow p.rest = true)
    (h : plain? inFlow floor p = some (text, broken, q)) : q.rest <:+ cs := by
  rw [hrest] at hstarts
  obtain ⟨hgap, hbreak, hcolon, hend⟩ := startsPlain_cons hstarts
  unfold plain? at h
  simp only [Option.map_eq_some_iff, Prod.mk.injEq] at h
  obtain ⟨⟨fold, place⟩, hread, -, -, rfl⟩ := h
  rw [plainFrom, hrest] at hread
  simp only [hgap, hbreak, hmark, hcolon, hend, Fold.pending, Fold.empty, List.isEmpty_nil,
    Bool.not_true, Bool.or_false, Bool.false_and, Bool.false_eq_true, if_false] at hread
  have hsuffix := rest_plainFrom hread
  rw [p.rest_next, hrest] at hsuffix
  exact hsuffix

end DocPages.Yaml
