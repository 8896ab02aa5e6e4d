-- Block scalars in front of line breaks that were not there before. One that ends in front of the
-- end of the text reads as it did. One that reaches the end takes the breaks as empty lines, and
-- how many of them its text gets is for the sign in its first line to say.
import DocPages.Proofs.Yaml.Places
import DocPages.Yaml.BlockScalar

namespace DocPages.Yaml

open Text (isLineBreak)

variable {cs cut breaks text : List Char} {p q : Place} {literal : Bool} {indent : Option Nat}
  {fuel fuel' widest column floor : Nat}

/-! ## The first line -/

section Behind

variable (hcut : Breaks cut)

include hcut

theorem bind_head?_append {α : Type} {f : Char → Option α}
    (h : ∀ c, isLineBreak c = true → f c = none) (cs : List Char) :
    (cs ++ cut).head?.bind f = cs.head?.bind f := by
  cases cs with
  | nil =>
    cases cut with
    | nil => rfl
    | cons c cut => exact h c (hcut c List.mem_cons_self)
  | cons c cs => rfl

theorem blockSigns_append (cs : List Char) : blockSigns (cs ++ cut) = blockSigns cs := by
  have hchomp : ∀ c, isLineBreak c = true → chomp? c = none := by
    intro c hc
    rcases isLineBreak_iff.mp hc with rfl | rfl <;> rfl
  have hdigit : ∀ c, isLineBreak c = true → indentDigit? c = none := by
    intro c hc
    rcases isLineBreak_iff.mp hc with rfl | rfl <;> rfl
  cases cs with
  | nil =>
    cases cut with
    | nil => rfl
    | cons c cut =>
      have hc := hcut c List.mem_cons_self
      simp [blockSigns, hchomp c hc, hdigit c hc]
  | cons a cs =>
    simp only [List.cons_append, blockSigns, bind_head?_append hcut hchomp,
      bind_head?_append hcut hdigit]

end Behind

theorem length_blockSigns (cs : List Char) : (blockSigns cs).2 ≤ cs.length := by
  rcases cs with _ | ⟨a, _ | ⟨b, cs⟩⟩
  · simp [blockSigns]
  · simp only [blockSigns, List.head?_nil, Option.bind_none, List.length_singleton]
    split <;> simp
  · simp only [blockSigns, List.length_cons]
    split
    · split <;> simp
    · split <;> simp
    · simp

theorem rest_blockHeader? {header : BlockHeader} (h : blockHeader? p = some (header, q)) :
    q.rest <:+ p.rest := by
  unfold blockHeader? at h
  dsimp only at h
  split at h
  · cases h
  · simp only [Option.map_eq_some_iff, Prod.mk.injEq] at h
    obtain ⟨place, hline, -, rfl⟩ := h
    exact (Place.rest_afterLine?_suffix hline).trans (p.rest_skip_suffix _)

theorem blockHeader?_longer (hcut : Breaks cut) (hunbroken : Unbroken p.rest) :
    Option.Rel (fun r s => s.1 = r.1 ∧ Place.Along cut r.2 s.2)
      (blockHeader? p) (blockHeader? (p.longer cut)) := by
  unfold blockHeader?
  rw [Place.longer_rest, blockSigns_append hcut]
  dsimp only
  split
  · exact .none
  · rw [Place.skip_longer (length_blockSigns p.rest)]
    exact rel_map (Place.afterLine?_longer hcut (hunbroken.of_suffix (p.rest_skip_suffix _)))
      fun _ _ h => ⟨rfl, h⟩

/-! ## Empty lines -/

theorem rest_emptyLinesFrom {e : EmptyLines}
    (h : emptyLinesFrom indent fuel breaks widest p = some e) : e.place.rest <:+ p.rest := by
  induction fuel generalizing breaks widest p with
  | zero =>
    cases h
    exact List.suffix_rfl
  | succ fuel ih =>
    rw [emptyLinesFrom] at h
    split at h
    · cases h
      exact List.suffix_rfl
    split at h
    · exact (ih h).trans p.rest_next_suffix
    split at h
    · cases h
    split at h
    · exact (ih h).trans (p.rest_nextLine_suffix.trans (List.tail_suffix _))
    · cases h
      exact List.suffix_rfl

theorem breakCount_cons_pos (c : Char) (cs : List Char) : 0 < breakCount (c :: cs) := by
  unfold breakCount
  split
  · omega
  · omega
  · rename_i hnil
    cases hnil

theorem Place.column_nextLine (h : p.rest ≠ []) : p.nextLine.column = 0 := by
  unfold nextLine
  split
  · rfl
  · rfl
  · rename_i hrest
    exact absurd hrest h

/-- Line breaks are empty lines, each of them one line feed. -/
theorem emptyLinesFrom_breaks (indent : Option Nat) (breaks : List Char) (widest : Nat)
    (h : Breaks p.rest) (hfuel : p.rest.length < fuel) :
    ∃ q, q.rest = [] ∧ emptyLinesFrom indent fuel breaks widest p =
      some ⟨breaks ++ List.replicate (breakCount p.rest) '\n', max widest p.column, q⟩ := by
  induction fuel generalizing breaks widest p with
  | zero => omega
  | succ fuel ih =>
    cases hrest : p.rest with
    | nil =>
      refine ⟨p, hrest, ?_⟩
      rw [emptyLinesFrom, hrest]
      simp [breakCount]
    | cons c cs =>
      have hc := h c (by simp [hrest])
      have hspace : (c == ' ') = false := inline_beq (by decide) c hc
      have htab : (c == '\t') = false := inline_beq (by decide) c hc
      have hline : p.nextLine.rest <:+ p.rest := p.rest_nextLine_suffix.trans (List.tail_suffix _)
      have hlength : p.nextLine.rest.length ≤ cs.length := by
        simpa [hrest] using p.rest_nextLine_suffix.length_le
      have hcount : breakCount (c :: cs) = breakCount p.nextLine.rest + 1 := by
        have hpos := breakCount_cons_pos c cs
        rw [p.breakCount_nextLine, hrest]
        omega
      rw [hrest, List.length_cons] at hfuel
      obtain ⟨q, hq, hread⟩ := ih (breaks ++ breakText c) (max widest p.column)
        (h.of_suffix hline) (by omega)
      refine ⟨q, hq, ?_⟩
      rw [emptyLinesFrom, hrest]
      simp only [hspace, htab, isBreak_of_isLineBreak hc, Bool.and_false, Bool.false_eq_true,
        if_false, if_true]
      rw [hread, Place.column_nextLine (by simp [hrest]), breakText_of_isLineBreak hc, hcount,
        List.replicate_succ, List.append_assoc, List.singleton_append, Nat.max_zero]

/-- Two readings of empty lines, the second one in front of more line breaks: the same, or both at
the end, where the breaks count as empty lines. -/
def EmptyLines.Along (cut : List Char) (e f : EmptyLines) : Prop :=
  (e.place.rest ≠ [] ∧ f = { e with place := e.place.longer cut }) ∨
    (e.place.rest = [] ∧ f.place.rest = [] ∧ f.widest = e.widest ∧
      f.breaks = e.breaks ++ List.replicate (breakCount cut) '\n')

theorem emptyLinesFrom_longer (hcut : Breaks cut) (hunbroken : Unbroken p.rest)
    (hfuel : p.rest.length < fuel) (hfuel' : p.rest.length + cut.length < fuel') :
    Option.Rel (EmptyLines.Along cut) (emptyLinesFrom indent fuel breaks widest p)
      (emptyLinesFrom indent fuel' breaks widest (p.longer cut)) := by
  induction fuel generalizing fuel' breaks widest p with
  | zero => omega
  | succ fuel ih =>
    cases hrest : p.rest with
    | nil =>
      have hbehind : (p.longer cut).rest = cut := by
        rw [Place.longer_rest, hrest, List.nil_append]
      rw [← hbehind] at hcut
      obtain ⟨q, hq, hread⟩ := emptyLinesFrom_breaks indent breaks widest hcut
        (by rw [hbehind]; omega : (p.longer cut).rest.length < fuel')
      rw [hread, emptyLinesFrom, hrest]
      refine .some (.inr ⟨hrest, hq, rfl, ?_⟩)
      rw [hbehind]
    | cons c cs =>
      obtain ⟨fuel', rfl⟩ : ∃ n, fuel' = n + 1 := Nat.exists_eq_add_one_of_ne_zero (by omega)
      have hne : p.rest ≠ [] := by simp [hrest]
      have hstep : ∀ {q : Place} {breaks : List Char} {widest : Nat}, q.rest <:+ cs →
          Option.Rel (EmptyLines.Along cut) (emptyLinesFrom indent fuel breaks widest q)
            (emptyLinesFrom indent fuel' breaks widest (q.longer cut)) := by
        intro q breaks widest hq
        have hlength := hq.length_le
        rw [hrest, List.length_cons] at hfuel hfuel'
        exact ih (hunbroken.of_suffix (hrest ▸ hq.trans (List.suffix_cons c cs))) (by omega)
          (by omega)
      have hinside : (indent.all fun n => decide ((p.longer cut).column < n)) =
          indent.all fun n => decide (p.column < n) := rfl
      rw [emptyLinesFrom, emptyLinesFrom, Place.longer_rest, hrest, List.cons_append]
      simp only [hinside, Place.next_longer hne, Place.nextLine_longer hunbroken hne]
      split
      · exact hstep (by rw [p.rest_next, hrest, List.tail_cons])
      split
      · exact .none
      split
      · exact hstep (by simpa [hrest] using p.rest_nextLine_suffix)
      · exact .some (.inl ⟨hne, rfl⟩)

theorem emptyLines?_longer (indent : Option Nat) (hcut : Breaks cut) (hunbroken : Unbroken p.rest) :
    Option.Rel (EmptyLines.Along cut) (emptyLines? indent p)
      (emptyLines? indent (p.longer cut)) := by
  apply emptyLinesFrom_longer hcut hunbroken
  · omega
  · rw [Place.longer_rest, List.length_append]
    omega

/-! ## Lines -/

/-- A block scalar at the end of a text, and the same one with further breaks behind it. The first
of these ends the line of the sign, or the last line if that has no break yet; each other one is an
empty line. -/
inductive BlockText.LongerBy (cut : List Char) : BlockText → BlockText → Prop
  | sign (t : BlockText) :
    LongerBy cut t { t with breaks := t.breaks ++ List.replicate (breakCount cut - 1) '\n' }
  | line (lines : List Char) (indented : Bool) (hcut : cut ≠ []) :
    LongerBy cut ⟨lines, [], [], indented⟩
      ⟨lines, ['\n'], List.replicate (breakCount cut - 1) '\n', indented⟩
  | empty (t : BlockText) :
    LongerBy cut t { t with breaks := t.breaks ++ List.replicate (breakCount cut) '\n' }

/-- The texts of a block scalar with the given sign at the end of a text, without further breaks
behind it and with them: of the breaks at its end each one has what the sign keeps. -/
def Chomped (cut : List Char) (chomp : Chomp) (x y : List Char) : Prop :=
  ∃ t t', BlockText.LongerBy cut t t' ∧ x = t.closed chomp ∧ y = t'.closed chomp

/-- Two readings of lines, the second one in front of more line breaks: the same, or both at the
end, with the breaks behind the second one. -/
def BlockText.Along (cut : List Char) (r s : BlockText × Place) : Prop :=
  (r.2.rest ≠ [] ∧ s = (r.1, r.2.longer cut)) ∨
    (r.2.rest = [] ∧ s.2.rest = [] ∧ r.1.LongerBy cut s.1)

/-- The break behind a line, and the place behind it. -/
def lineBreak (p : Place) : List Char × Place :=
  match p.rest with
  | [] => ([], p)
  | b :: _ => (breakText b, p.nextLine)

theorem blockLinesFrom_cons {c : Char} (hrest : p.rest = c :: cs) (literal : Bool)
    (column fuel : Nat) (t : BlockText) :
    blockLinesFrom literal column (fuel + 1) t p =
      if p.column != column then some (t, p)
      else
        (emptyLines? (some column) (lineBreak p.lineEnd).2).bind fun e =>
          blockLinesFrom literal column fuel
            ⟨t.text ++ t.gap literal (isGap c) ++ p.rest.takeWhile fun c => !isBreak c,
              (lineBreak p.lineEnd).1, e.breaks, isGap c⟩ e.place := by
  rw [blockLinesFrom, hrest]
  dsimp only
  split
  · rfl
  · unfold lineBreak
    rcases p.lineEnd.rest with _ | ⟨b, bs⟩
    · dsimp only
      cases emptyLines? (some column) p.lineEnd <;> rfl
    · dsimp only
      cases emptyLines? (some column) p.lineEnd.nextLine <;> rfl

theorem blockLinesFrom_nil (hrest : p.rest = []) (literal : Bool) (column fuel : Nat)
    (t : BlockText) : blockLinesFrom literal column fuel t p = some (t, p) := by
  cases fuel with
  | zero => rfl
  | succ fuel => rw [blockLinesFrom, hrest]

theorem rest_lineBreak_suffix (p : Place) : (lineBreak p).2.rest <:+ p.rest := by
  unfold lineBreak
  split
  · exact List.suffix_rfl
  · exact p.rest_nextLine_suffix.trans (List.tail_suffix _)

/-- A line takes at least one character, be it only its break. -/
theorem rest_lineBreak_lineEnd {c : Char} (hrest : p.rest = c :: cs) :
    (lineBreak p.lineEnd).2.rest <:+ cs := by
  by_cases hc : isBreak c
  · have hend : p.lineEnd.rest = c :: cs := by
      rw [Place.lineEnd, p.rest_skipWhile, hrest, List.dropWhile_cons_of_neg (by simp [hc])]
    have hsuffix := p.lineEnd.rest_nextLine_suffix
    rw [hend] at hsuffix
    unfold lineBreak
    rw [hend]
    exact hsuffix
  · refine (rest_lineBreak_suffix p.lineEnd).trans ?_
    rw [Place.lineEnd, p.rest_skipWhile, hrest, List.dropWhile_cons_of_pos (by simp [hc])]
    exact List.dropWhile_suffix _

theorem lineBreak_longer (hunbroken : Unbroken p.rest) (h : p.rest ≠ []) (cut : List Char) :
    lineBreak (p.longer cut) = ((lineBreak p).1, (lineBreak p).2.longer cut) := by
  obtain ⟨c, cs, hrest⟩ := List.exists_cons_of_ne_nil h
  unfold lineBreak
  rw [Place.longer_rest, hrest, List.cons_append]
  dsimp only
  rw [Place.nextLine_longer hunbroken h]

theorem rest_blockLinesFrom {t t' : BlockText}
    (h : blockLinesFrom literal column fuel t p = some (t', q)) : q.rest <:+ p.rest := by
  induction fuel generalizing t p with
  | zero =>
    cases h
    exact List.suffix_rfl
  | succ fuel ih =>
    cases hrest : p.rest with
    | nil =>
      rw [blockLinesFrom_nil hrest] at h
      cases h
      rw [hrest]
    | cons c cs =>
      rw [blockLinesFrom_cons hrest] at h
      split at h
      · cases h
        rw [hrest]
      · rw [Option.bind_eq_some_iff] at h
        obtain ⟨e, hlines, h⟩ := h
        exact ((ih h).trans (rest_emptyLinesFrom hlines)).trans
          ((rest_lineBreak_lineEnd hrest).trans (List.suffix_cons c cs))

/-- A last line without a break, and the same line in front of line breaks. -/
theorem lineBreak_at_end (hcut : Breaks cut) (hne : cut ≠ []) (hrest : p.rest = []) :
    (lineBreak (p.longer cut)).1 = ['\n'] ∧ Breaks (lineBreak (p.longer cut)).2.rest ∧
      breakCount (lineBreak (p.longer cut)).2.rest = breakCount cut - 1 := by
  obtain ⟨c, cs, rfl⟩ := List.exists_cons_of_ne_nil hne
  have hbehind : (p.longer (c :: cs)).rest = c :: cs := by
    rw [Place.longer_rest, hrest, List.nil_append]
  have hsuffix := (p.longer (c :: cs)).rest_nextLine_suffix
  rw [hbehind] at hsuffix
  unfold lineBreak
  rw [hbehind]
  refine ⟨breakText_of_isLineBreak (hcut c List.mem_cons_self),
    hcut.of_suffix (hsuffix.trans (List.tail_suffix _)), ?_⟩
  rw [Place.breakCount_nextLine, hbehind]

/-- The lines behind a last one without a break: none, and empty ones in the longer text. -/
theorem blockLinesFrom_last (hcut : Breaks cut) (hrest : p.rest = []) (lines : List Char)
    (indented : Bool) :
    Option.Rel (BlockText.Along cut)
      ((emptyLines? (some column) (lineBreak p).2).bind fun e =>
        blockLinesFrom literal column fuel ⟨lines, (lineBreak p).1, e.breaks, indented⟩ e.place)
      ((emptyLines? (some column) (lineBreak (p.longer cut)).2).bind fun e =>
        blockLinesFrom literal column fuel'
          ⟨lines, (lineBreak (p.longer cut)).1, e.breaks, indented⟩ e.place) := by
  have hshort : lineBreak p = ([], p) := by
    unfold lineBreak
    rw [hrest]
  have hempty : emptyLines? (some column) p = some ⟨[], max 0 p.column, p⟩ := by
    rw [emptyLines?, emptyLinesFrom, hrest]
  rw [hshort]
  dsimp only
  rw [hempty, Option.bind_some, blockLinesFrom_nil hrest]
  by_cases hne : cut = []
  · subst hne
    have hsame : p.longer [] = p := by simp [Place.longer]
    rw [hsame, hshort]
    dsimp only
    rw [hempty, Option.bind_some, blockLinesFrom_nil hrest]
    exact .some (.inr ⟨hrest, hrest, .empty ⟨lines, [], [], indented⟩⟩)
  · obtain ⟨hbreak, hbreaks, hcount⟩ := lineBreak_at_end hcut hne hrest
    obtain ⟨q, hq, hread⟩ := emptyLinesFrom_breaks (some column) [] 0 hbreaks (Nat.lt_add_one _)
    rw [emptyLines?, hread, Option.bind_some, blockLinesFrom_nil hq, hbreak, hcount,
      List.nil_append]
    exact .some (.inr ⟨hrest, hq, .line lines indented hne⟩)

theorem blockLinesFrom_longer (hcut : Breaks cut) (hunbroken : Unbroken p.rest) (hne : p.rest ≠ [])
    (t : BlockText) (hfuel : p.rest.length ≤ fuel)
    (hfuel' : p.rest.length + cut.length ≤ fuel') :
    Option.Rel (BlockText.Along cut) (blockLinesFrom literal column fuel t p)
      (blockLinesFrom literal column fuel' t (p.longer cut)) := by
  induction fuel generalizing fuel' t p with
  | zero => exact absurd (List.length_eq_zero_iff.mp (Nat.le_zero.mp hfuel)) hne
  | succ fuel ih =>
    obtain ⟨c, cs, hrest⟩ := List.exists_cons_of_ne_nil hne
    have hlength : p.rest.length = cs.length + 1 := by rw [hrest, List.length_cons]
    obtain ⟨fuel', rfl⟩ : ∃ n, fuel' = n + 1 := Nat.exists_eq_add_one_of_ne_zero (by omega)
    have hlonger : (p.longer cut).rest = c :: (cs ++ cut) := by
      rw [Place.longer_rest, hrest, List.cons_append]
    have hsuffix := rest_lineBreak_lineEnd hrest
    have hbehind := hunbroken.of_suffix (hrest ▸ hsuffix.trans (List.suffix_cons c cs))
    have hend : (p.longer cut).lineEnd = p.lineEnd.longer cut :=
      Place.skipWhile_longer hcut inline_not_isBreak p
    have hunbroken' : Unbroken p.lineEnd.rest := by
      rw [Place.lineEnd, p.rest_skipWhile]
      exact hunbroken.of_suffix (List.dropWhile_suffix _)
    rw [blockLinesFrom_cons hrest, blockLinesFrom_cons hlonger, Place.longer_column, hend,
      Place.longer_rest, takeWhile_append_breaks hcut inline_not_isBreak]
    split
    · exact .some (.inl ⟨hne, rfl⟩)
    by_cases hlast : p.lineEnd.rest = []
    · exact blockLinesFrom_last hcut hlast _ _
    · rw [lineBreak_longer hunbroken' hlast]
      refine rel_bind (emptyLines?_longer (some column) hcut hbehind) fun e f hread hef => ?_
      have hempty := (rest_emptyLinesFrom hread).trans hsuffix
      have hshort := hempty.length_le
      rcases hef with ⟨hinner, rfl⟩ | ⟨hnil, hnil', -, hbreaks⟩
      · exact ih (hunbroken.of_suffix (hrest ▸ hempty.trans (List.suffix_cons c cs))) hinner _
          (by omega) (by omega)
      · rw [blockLinesFrom_nil hnil, blockLinesFrom_nil hnil']
        rw [hbreaks]
        exact .some (.inr ⟨hnil, hnil', .empty ⟨_, _, e.breaks, isGap c⟩⟩)

/-! ## What the sign keeps -/

/-- How many line feeds the text of a block scalar lacks that ended a text, without the breaks
behind it: none where they do not count, at most one where one is kept, and where all are kept one
for each break, unless the first break ends the line of the sign. -/
def Chomp.Lacks (cut : List Char) : Chomp → Nat → Prop
  | .strip, n => n = 0
  | .clip, n => n ≤ 1
  | .keep, n => n = breakCount cut ∨ n = breakCount cut - 1

/-- Empty lines behind the last line are kept only where all are. -/
theorem BlockText.closed_breaks (t : BlockText) (cut : List Char) (chomp : Chomp) (n : Nat)
    (hn : n = breakCount cut ∨ n = breakCount cut - 1) :
    ∃ m, Chomp.Lacks cut chomp m ∧
      BlockText.closed { t with breaks := t.breaks ++ List.replicate n '\n' } chomp =
        t.closed chomp ++ List.replicate m '\n' := by
  cases chomp with
  | strip => exact ⟨0, rfl, by simp [closed]⟩
  | clip => exact ⟨0, Nat.zero_le 1, by simp [closed]⟩
  | keep => exact ⟨n, hn, by simp [closed]⟩

/-- A last line without a break gets the first of the breaks as its own. -/
theorem BlockText.closed_lastBreak (lines : List Char) (indented : Bool) (hcut : cut ≠ [])
    (chomp : Chomp) :
    ∃ m, Chomp.Lacks cut chomp m ∧
      BlockText.closed ⟨lines, ['\n'], List.replicate (breakCount cut - 1) '\n', indented⟩ chomp =
        BlockText.closed ⟨lines, [], [], indented⟩ chomp ++ List.replicate m '\n' := by
  cases chomp with
  | strip => exact ⟨0, rfl, by simp [closed]⟩
  | clip => exact ⟨1, Nat.le_refl 1, by simp [closed]⟩
  | keep =>
    obtain ⟨c, cs, rfl⟩ := List.exists_cons_of_ne_nil hcut
    obtain ⟨m, hm⟩ := Nat.exists_eq_add_one_of_ne_zero (breakCount_cons_pos c cs).ne'
    exact ⟨m + 1, .inl hm.symm, by simp [closed, hm, List.replicate_succ]⟩

/-- The text of a block scalar without the breaks behind it lacks nothing but line feeds. -/
theorem Chomped.lacks {chomp : Chomp} {x y : List Char} (h : Chomped cut chomp x y) :
    ∃ n, chomp.Lacks cut n ∧ y = x ++ List.replicate n '\n' := by
  obtain ⟨t, t', hlonger, rfl, rfl⟩ := h
  cases hlonger with
  | sign => exact t.closed_breaks cut chomp _ (.inr rfl)
  | line lines indented hcut => exact BlockText.closed_lastBreak lines indented hcut chomp
  | empty => exact t.closed_breaks cut chomp _ (.inl rfl)

/-! ## The whole scalar -/

/-- Two readings of a block scalar with a sign in its first line, the second one in front of more
line breaks: the same, or both at the end, with the breaks behind the second one. -/
def ScalarAlong (cut : List Char) (chomp : Chomp) (r s : List Char × Place) : Prop :=
  (r.2.rest ≠ [] ∧ s = (r.1, r.2.longer cut)) ∨
    (r.2.rest = [] ∧ s.2.rest = [] ∧ Chomped cut chomp r.1 s.1)

/-- What is read behind the first line of a block scalar. -/
def blockBody? (literal : Bool) (floor : Nat) (header : BlockHeader) (p : Place) :
    Option (List Char × Place) :=
  (emptyLines? (header.indent.map fun n => floor - 1 + n) p).bind fun lead =>
    (blockLinesFrom literal
      ((header.indent.map fun n => floor - 1 + n).getD (max lead.widest (max floor 1)))
      p.rest.length ⟨[], [], lead.breaks, false⟩ lead.place).map fun r =>
        (r.1.closed header.chomp, r.2)

theorem blockScalar?_eq (literal : Bool) (floor : Nat) (p : Place) :
    blockScalar? literal floor p =
      (blockHeader? p.next).bind fun r => blockBody? literal floor r.1 r.2 := by
  unfold blockScalar? blockBody?
  simp only [Option.bind_eq_bind, Option.map_eq_bind]
  rfl

theorem rest_blockBody? {header : BlockHeader}
    (h : blockBody? literal floor header p = some (text, q)) : q.rest <:+ p.rest := by
  unfold blockBody? at h
  simp only [Option.bind_eq_some_iff, Option.map_eq_some_iff, Prod.mk.injEq] at h
  obtain ⟨lead, hlead, ⟨t, place⟩, hlines, -, rfl⟩ := h
  exact (rest_blockLinesFrom hlines).trans (rest_emptyLinesFrom hlead)

/-- A block scalar takes at least its bar or angle. -/
theorem rest_blockScalar? (h : blockScalar? literal floor p = some (text, q)) :
    q.rest <:+ p.next.rest := by
  rw [blockScalar?_eq, Option.bind_eq_some_iff] at h
  obtain ⟨⟨header, place⟩, hheader, h⟩ := h
  exact (rest_blockBody? h).trans (rest_blockHeader? hheader)

/-- A scalar without lines has only the empty lines behind its first line. -/
theorem blockLinesFrom_empty (header : BlockHeader) {e f : EmptyLines} {n fuel fuel' : Nat}
    (hrest : e.place.rest = []) (hrest' : f.place.rest = [])
    (h : BlockText.LongerBy cut ⟨[], [], e.breaks, false⟩ ⟨[], [], f.breaks, false⟩) :
    Option.Rel (ScalarAlong cut header.chomp)
      ((blockLinesFrom literal column fuel ⟨[], [], e.breaks, false⟩ e.place).map fun r =>
        (r.1.closed header.chomp, r.2))
      ((blockLinesFrom literal n fuel' ⟨[], [], f.breaks, false⟩ f.place).map fun r =>
        (r.1.closed header.chomp, r.2)) := by
  rw [blockLinesFrom_nil hrest, blockLinesFrom_nil hrest']
  exact .some (.inr ⟨hrest, hrest', _, _, h, rfl, rfl⟩)

theorem blockBody?_longer (header : BlockHeader) (hcut : Breaks cut) (hunbroken : Unbroken p.rest) :
    Option.Rel (ScalarAlong cut header.chomp) (blockBody? literal floor header p)
      (blockBody? literal floor header (p.longer cut)) := by
  refine rel_bind (emptyLines?_longer _ hcut hunbroken) fun e f hread hef => ?_
  have hlength := (rest_emptyLinesFrom hread).length_le
  rcases hef with ⟨hinner, rfl⟩ | ⟨hnil, hnil', -, hbreaks⟩
  · refine rel_map (blockLinesFrom_longer hcut
      (hunbroken.of_suffix (rest_emptyLinesFrom hread)) hinner _ hlength ?_) fun r s hrs => ?_
    · rw [Place.longer_rest, List.length_append]
      omega
    rcases hrs with ⟨hne, rfl⟩ | ⟨hnil, hnil', hlonger⟩
    · exact .inl ⟨hne, rfl⟩
    · exact .inr ⟨hnil, hnil', _, _, hlonger, rfl, rfl⟩
  · refine blockLinesFrom_empty header hnil hnil' ?_
    rw [hbreaks]
    exact .empty ⟨[], [], e.breaks, false⟩

/-- Where the text ends in the first line, that line ends at the first of the breaks. -/
theorem blockBody?_at_end (header : BlockHeader) (hrest : p.rest = []) (hbreaks : Breaks q.rest)
    (hcount : breakCount q.rest = breakCount cut - 1) :
    Option.Rel (ScalarAlong cut header.chomp) (blockBody? literal floor header p)
      (blockBody? literal floor header q) := by
  have hempty : emptyLines? (header.indent.map fun n => floor - 1 + n) p =
      some ⟨[], max 0 p.column, p⟩ := by rw [emptyLines?, emptyLinesFrom, hrest]
  obtain ⟨place, hplace, hread⟩ := emptyLinesFrom_breaks
    (header.indent.map fun n => floor - 1 + n) [] 0 hbreaks (Nat.lt_add_one _)
  unfold blockBody?
  rw [hempty, emptyLines?, hread, Option.bind_some, Option.bind_some]
  refine blockLinesFrom_empty header hrest hplace ?_
  rw [hcount]
  exact .sign ⟨[], [], [], false⟩

/-- The sign of the block scalar at a place: what it says is kept at its end. -/
def signAt? (p : Place) : Option Chomp := (blockHeader? p.next).map fun r => r.1.chomp

theorem blockScalar?_longer (hcut : Breaks cut) (hunbroken : Unbroken p.rest) (hne : p.rest ≠ []) :
    Option.Rel (fun r s => ∃ chomp, signAt? p = some chomp ∧ ScalarAlong cut chomp r s)
      (blockScalar? literal floor p) (blockScalar? literal floor (p.longer cut)) := by
  have hnext := hunbroken.of_suffix p.rest_next_suffix
  rw [blockScalar?_eq, blockScalar?_eq, Place.next_longer hne]
  refine rel_bind (blockHeader?_longer hcut hnext) fun r s hread hrs => ?_
  obtain ⟨header, place⟩ := r
  obtain ⟨header', place'⟩ := s
  obtain ⟨hheader, hplace⟩ : header' = header ∧ place.Along cut place' := hrs
  subst hheader
  have hsign : signAt? p = some header'.chomp := by rw [signAt?, hread]; rfl
  refine rel_mono (R := ScalarAlong cut header'.chomp) ?_ fun a b hab => ⟨_, hsign, hab⟩
  rcases hplace with rfl | ⟨hrest, hbreaks, hcount⟩
  · exact blockBody?_longer header' hcut (hnext.of_suffix (rest_blockHeader? hread))
  · exact blockBody?_at_end header' hrest hbreaks hcount

end DocPages.Yaml
