-- The steps that read tokens, in front of line breaks that were not there before. As long as they
-- stay in front of the end of the text they are the same steps. At the end only the text of a block
-- scalar can differ; what else differs there is no longer looked at.
import DocPages.Proofs.Yaml.Lexing

namespace DocPages.Yaml

open Text (isLineBreak)

/-- The same start of a key in a text that has more at its end. -/
def KeyStart.longer (k : KeyStart) (cut : List Char) : KeyStart :=
  { k with place := k.place.longer cut }

namespace Lexer

variable {s r : Lexer} {cs cut rest : List Char} {c : Char} {t : Token} {fuel fuel' : Nat}

/-- The same state in a text that has more at its end. -/
def longer (s : Lexer) (cut : List Char) : Lexer :=
  { s with place := s.place.longer cut, keys := s.keys.map fun k => k.map (·.longer cut) }

@[simp] theorem longer_place (s : Lexer) (cut : List Char) :
    (s.longer cut).place = s.place.longer cut := rfl

@[simp] theorem longer_tokens (s : Lexer) (cut : List Char) :
    (s.longer cut).tokens = s.tokens := rfl

@[simp] theorem longer_count (s : Lexer) (cut : List Char) : (s.longer cut).count = s.count := rfl

@[simp] theorem longer_floor (s : Lexer) (cut : List Char) : (s.longer cut).floor = s.floor := rfl

@[simp] theorem longer_floors (s : Lexer) (cut : List Char) :
    (s.longer cut).floors = s.floors := rfl

@[simp] theorem longer_keyAllowed (s : Lexer) (cut : List Char) :
    (s.longer cut).keyAllowed = s.keyAllowed := rfl

@[simp] theorem inFlow_longer (s : Lexer) (cut : List Char) : (s.longer cut).inFlow = s.inFlow := by
  simp [inFlow, longer]

/-! ## Steps in place -/

theorem map_longer {x : Option Lexer} {f : Lexer → Lexer}
    (h : ∀ r, x = some r → f (r.longer cut) = (f r).longer cut) :
    (x.map (·.longer cut)).map f = (x.map f).map (·.longer cut) := by
  cases x with
  | none => rfl
  | some r => exact congrArg some (h r rfl)

theorem dropKey?_longer (s : Lexer) (cut : List Char) :
    (s.longer cut).dropKey? = s.dropKey?.map (·.longer cut) := by
  rcases s with ⟨place, tokens, count, floor, floors, keyAllowed, keys⟩
  rcases keys with _ | ⟨_ | k, keys⟩
  · rfl
  · rfl
  · simp only [dropKey?, longer, List.map_cons, Option.map_some]
    cases hrequired : k.required <;> simp [KeyStart.longer, hrequired]

theorem saveKey?_longer (s : Lexer) (cut : List Char) :
    (s.longer cut).saveKey? = s.saveKey?.map (·.longer cut) := by
  unfold saveKey?
  simp only [longer_keyAllowed, inFlow_longer, longer_floor, longer_place, Place.longer_column,
    dropKey?_longer, Option.bind_eq_bind]
  split
  · cases s.dropKey? with
    | none => rfl
    | some r =>
      simp only [Option.map_some, Option.bind_some, longer, List.map_cons, List.map_drop]
      rfl
  · rfl

theorem closeBlocksFrom_longer (floor : Nat) (floors : List Nat) (s : Lexer) (cut : List Char) :
    closeBlocksFrom floor floors (s.longer cut) = (closeBlocksFrom floor floors s).longer cut := by
  induction floors generalizing s with
  | nil => rfl
  | cons outer floors ih =>
    rw [closeBlocksFrom, closeBlocksFrom, longer_floor]
    split
    · exact ih { s.emit .blockEnd with floor := outer, floors := floors }
    · rfl

theorem closeBlocks_longer (s : Lexer) (floor : Nat) (cut : List Char) :
    (s.longer cut).closeBlocks floor = (s.closeBlocks floor).longer cut := by
  unfold closeBlocks
  rw [inFlow_longer, longer_floors, closeBlocksFrom_longer]
  split <;> rfl

theorem openBlock_longer (s : Lexer) (column number : Nat) (t : Token) (cut : List Char) :
    (s.longer cut).openBlock column number t = (s.openBlock column number t).longer cut := by
  unfold openBlock
  rw [inFlow_longer, longer_floor]
  split <;> rfl

theorem endBlocks?_longer (s : Lexer) (cut : List Char) :
    (s.longer cut).endBlocks? = s.endBlocks?.map (·.longer cut) := by
  unfold endBlocks?
  rw [closeBlocks_longer, dropKey?_longer]
  exact map_longer fun _ _ => rfl

theorem dropStaleKeys?_longer (s : Lexer) (cut : List Char) :
    (s.longer cut).dropStaleKeys? = s.dropStaleKeys?.map (·.longer cut) := by
  have hstale : ∀ k : Option KeyStart, (k.map (·.longer cut)).any
      (fun k => isStale (s.longer cut).place k && k.required) =
        k.any fun k => isStale s.place k && k.required := by
    rintro (_ | k) <;> rfl
  have hkept : ∀ k : Option KeyStart, (k.map (·.longer cut)).filter
      (fun k => !isStale (s.longer cut).place k) =
        (k.filter fun k => !isStale s.place k).map (·.longer cut) := by
    rintro (_ | k)
    · rfl
    · cases hk : isStale s.place k <;> simp [Option.filter, hk] <;> exact hk
  unfold dropStaleKeys?
  simp only [longer, List.any_map, List.map_map, Function.comp_def] at hstale hkept ⊢
  simp only [hstale, hkept]
  split
  · rfl
  · simp

/-! ## Tokens -/

theorem single_longer (h : s.place.rest ≠ []) (t : Token) (cut : List Char) :
    (s.longer cut).single t = (s.single t).longer cut := by
  unfold single
  rw [longer_place, Place.next_longer h]
  rfl

theorem documentMark?_longer (h : 3 ≤ s.place.rest.length) (t : Token) (cut : List Char) :
    (s.longer cut).documentMark? t = (s.documentMark? t).map (·.longer cut) := by
  unfold documentMark?
  rw [endBlocks?_longer]
  refine map_longer fun r hr => ?_
  rw [longer_place, Place.skip_longer (by rw [(stays_endBlocks? hr).place]; exact h)]
  rfl

theorem openBracket?_longer (h : s.place.rest ≠ []) (t : Token) (cut : List Char) :
    (s.longer cut).openBracket? t = (s.openBracket? t).map (·.longer cut) := by
  unfold openBracket?
  rw [saveKey?_longer]
  refine map_longer fun r hr => ?_
  rw [← single_longer (by rw [← (stays_saveKey? hr).place] at h; exact h)]
  rfl

theorem closeBracket?_longer (h : s.place.rest ≠ []) (t : Token) (cut : List Char) :
    (s.longer cut).closeBracket? t = (s.closeBracket? t).map (·.longer cut) := by
  unfold closeBracket?
  rw [dropKey?_longer]
  refine map_longer fun r hr => ?_
  rw [← (stays_dropKey? hr).place] at h
  rw [inFlow_longer]
  split
  · rw [← single_longer (by exact h)]
    simp [longer, allow]
  · rw [← single_longer (by exact h)]
    rfl

theorem comma?_longer (h : s.place.rest ≠ []) (cut : List Char) :
    (s.longer cut).comma? = s.comma?.map (·.longer cut) := by
  unfold comma?
  rw [dropKey?_longer]
  refine map_longer fun r hr => ?_
  rw [← (stays_dropKey? hr).place] at h
  rw [← single_longer (by exact h)]
  rfl

theorem entry?_longer (h : s.place.rest ≠ []) (cut : List Char) :
    entry? (s.longer cut) = s.entry?.map (·.longer cut) := by
  unfold entry?
  rw [inFlow_longer, longer_keyAllowed]
  split
  · rfl
  · dsimp only
    rw [openBlock_longer, dropKey?_longer]
    refine map_longer fun r hr => ?_
    have hplace := ((stays_openBlock s _ _ fun _ => rfl).trans (stays_dropKey? hr)).place
    rw [← hplace] at h
    rw [← single_longer (by exact h)]
    rfl

theorem keyMark?_longer (h : s.place.rest ≠ []) (cut : List Char) :
    (s.longer cut).keyMark? = s.keyMark?.map (·.longer cut) := by
  unfold keyMark?
  rw [inFlow_longer, longer_keyAllowed]
  split
  · rfl
  · dsimp only
    rw [openBlock_longer, dropKey?_longer]
    refine map_longer fun r hr => ?_
    have hplace := ((stays_openBlock s _ _ fun _ => rfl).trans (stays_dropKey? hr)).place
    rw [← hplace] at h
    rw [← single_longer (by exact h), inFlow_longer]
    rfl

theorem withKey_longer (s : Lexer) (k : KeyStart) (keys : List (Option KeyStart))
    (cut : List Char) :
    (s.longer cut).withKey (k.longer cut) (keys.map fun k => k.map (·.longer cut)) =
      (s.withKey k keys).longer cut := by
  have hopen := openBlock_longer (emitAt { s with keys := none :: keys } k.number .key)
    k.place.column k.number .mappingBlock cut
  exact congrArg (·.allow false) hopen

theorem withoutKey_longer (s : Lexer) (cut : List Char) :
    (s.longer cut).withoutKey = s.withoutKey.longer cut := by
  simp only [withoutKey, longer_place, Place.longer_column, longer_count, openBlock_longer,
    inFlow_longer]
  rfl

theorem colon?_longer (h : s.place.rest ≠ []) (cut : List Char) :
    (s.longer cut).colon? = s.colon?.map (·.longer cut) := by
  have hlonger : (s.longer cut).keys = s.keys.map fun k => k.map (·.longer cut) := rfl
  have hother : (if !(s.longer cut).inFlow && !(s.longer cut).keyAllowed then none
      else some ((s.longer cut).withoutKey.single .value)) =
        (if !s.inFlow && !s.keyAllowed then none
          else some (s.withoutKey.single .value)).map (·.longer cut) := by
    rw [inFlow_longer, longer_keyAllowed]
    split
    · rfl
    · rw [withoutKey_longer, single_longer (by rw [← s.stays_withoutKey.place] at h; exact h)]
      rfl
  rw [colon?_eq, colon?_eq, hlonger]
  rcases hkeys : s.keys with _ | ⟨_ | k, keys⟩
  · exact hother
  · exact hother
  · simp only [List.map_cons, Option.map_some]
    rw [withKey_longer, single_longer (by rw [← (stays_withKey hkeys).place] at h; exact h)]

theorem endsAnchor_append (hcut : Breaks cut) (cs : List Char) :
    endsAnchor (cs ++ cut) = endsAnchor cs := by
  have hends : Inline fun c => "?:,]\x7d%@\x60".toList.contains c := inline_iff.mpr (by decide)
  unfold endsAnchor
  rw [atGap_append hcut, any_head?_append hcut hends]

theorem anchor?_longer (hcut : Breaks cut) (h : s.place.rest ≠ []) (token : List Char → Token) :
    (s.longer cut).anchor? token = (s.anchor? token).map (·.longer cut) := by
  unfold anchor?
  rw [saveKey?_longer]
  cases hsave : s.saveKey? with
  | none => rfl
  | some r =>
    rw [← (stays_saveKey? hsave).place] at h
    have hname := (List.takeWhile_prefix (l := r.place.next.rest) isWord).length_le
    simp only [Option.map_some, Option.bind_eq_bind, Option.bind_some, longer_place,
      Place.next_longer h, Place.longer_rest, takeWhile_append_breaks hcut inline_isWord,
      Place.skip_longer hname, endsAnchor_append hcut]
    split <;> rfl

theorem tag?_longer (hcut : Breaks cut) (s : Lexer) :
    (s.longer cut).tag? = s.tag?.map (·.longer cut) := by
  unfold tag?
  rw [saveKey?_longer]
  cases hsave : s.saveKey? with
  | none => rfl
  | some r =>
    simp only [Option.map_some, Option.bind_eq_bind, Option.bind_some, inFlow_longer, longer_place,
      Place.longer_rest, TagName.read?_append hcut]
    cases TagName.read? r.inFlow r.place.rest with
    | none => rfl
    | some tag =>
      have hskip := r.place.skipTo_longer tag.2 cut
      rw [Place.skipTo, Place.skipTo, Place.longer_rest] at hskip
      simp only [Option.map_some, Option.bind_some, leaving, hskip]
      rfl

theorem quoted?_longer (hcut : Breaks cut) (hunbroken : Unbroken s.place.rest)
    (h : s.place.rest ≠ []) (quote : Char) :
    (s.longer cut).quoted? quote = (s.quoted? quote).map (·.longer cut) := by
  unfold quoted?
  rw [saveKey?_longer]
  cases hsave : s.saveKey? with
  | none => rfl
  | some r =>
    rw [← (stays_saveKey? hsave).place] at h hunbroken
    simp only [Option.map_some, Option.bind_eq_bind, Option.bind_some, longer_place,
      Yaml.quoted?_longer hcut hunbroken h]
    cases Yaml.quoted? quote r.place <;> rfl

/-! ## White space -/

/-- The place behind a byte order mark. -/
def dropMark (p : Place) : Place :=
  if p.column == 0 && p.rest.head?.any isByteOrderMark then p.next else p

/-- The place behind the white space and the comment that stand on a line. -/
def gapEnd (inFlow allowed : Bool) (p : Place) : Place :=
  ((dropMark p).skipWhile fun c => c == ' ' || ((inFlow || !allowed) && c == '\t')).commentEnd

variable {p : Place} {allowed flow : Bool}

theorem skipSpaceFrom_succ (flow : Bool) (fuel : Nat) (allowed : Bool) (p : Place) :
    skipSpaceFrom flow (fuel + 1) allowed p =
      match (gapEnd flow allowed p).rest with
      | [] => (allowed, gapEnd flow allowed p)
      | c :: _ =>
        if isBreak c then
          skipSpaceFrom flow fuel (allowed || !flow) (gapEnd flow allowed p).nextLine
        else (allowed, gapEnd flow allowed p) := rfl

theorem rest_dropMark_suffix (p : Place) : (dropMark p).rest <:+ p.rest := by
  unfold dropMark
  split
  · exact p.rest_next_suffix
  · exact List.suffix_rfl

theorem rest_gapEnd_suffix (flow allowed : Bool) (p : Place) :
    (gapEnd flow allowed p).rest <:+ p.rest :=
  (Place.rest_commentEnd_suffix _).trans
    ((Place.rest_skipWhile_suffix _ _).trans (rest_dropMark_suffix p))

theorem rest_skipSpaceFrom_suffix (flow : Bool) (fuel : Nat) (allowed : Bool) (p : Place) :
    (skipSpaceFrom flow fuel allowed p).2.rest <:+ p.rest := by
  induction fuel generalizing allowed p with
  | zero => exact List.suffix_rfl
  | succ fuel ih =>
    have hgap := rest_gapEnd_suffix flow allowed p
    rw [skipSpaceFrom_succ]
    split
    · exact hgap
    · split
      · exact (ih _ _).trans
          (((Place.rest_nextLine_suffix _).trans (List.tail_suffix _)).trans hgap)
      · exact hgap

theorem inline_gap (flow allowed : Bool) :
    Inline fun c => c == ' ' || ((flow || !allowed) && c == '\t') :=
  inline_iff.mpr (by cases flow <;> cases allowed <;> decide)

theorem inline_isByteOrderMark : Inline isByteOrderMark := inline_iff.mpr (by decide)

theorem dropMark_longer (hcut : Breaks cut) (p : Place) :
    dropMark (p.longer cut) = (dropMark p).longer cut := by
  unfold dropMark
  rw [Place.longer_rest, any_head?_append hcut inline_isByteOrderMark, Place.longer_column]
  split
  · rename_i hmark
    rw [Place.next_longer]
    rintro hnil
    simp [hnil] at hmark
  · rfl

theorem gapEnd_longer (hcut : Breaks cut) (flow allowed : Bool) (p : Place) :
    gapEnd flow allowed (p.longer cut) = (gapEnd flow allowed p).longer cut := by
  rw [gapEnd, dropMark_longer hcut, Place.skipWhile_longer hcut (inline_gap flow allowed),
    Place.commentEnd_longer hcut]
  rfl

/-- At line breaks there is no other white space to pass over. -/
theorem rest_gapEnd_breaks (h : Breaks p.rest) (flow allowed : Bool) :
    (gapEnd flow allowed p).rest = p.rest := by
  have hempty : (gapEnd flow allowed ⟨[], p.line, p.column, p.index⟩).rest = [] :=
    List.suffix_nil.mp (rest_gapEnd_suffix flow allowed _)
  have hlonger := gapEnd_longer h flow allowed ⟨[], p.line, p.column, p.index⟩
  have hsame : Place.longer ⟨[], p.line, p.column, p.index⟩ p.rest = p := rfl
  rw [hsame] at hlonger
  rw [hlonger, Place.longer_rest, hempty, List.nil_append]

theorem skipSpaceFrom_breaks (h : Breaks p.rest) (hfuel : p.rest.length < fuel)
    (flow allowed : Bool) : (skipSpaceFrom flow fuel allowed p).2.rest = [] := by
  induction fuel generalizing allowed p with
  | zero => omega
  | succ fuel ih =>
    have hgap := rest_gapEnd_breaks h flow allowed
    have hline := (gapEnd flow allowed p).rest_nextLine_suffix
    rw [hgap] at hline
    rw [skipSpaceFrom_succ]
    cases hrest : p.rest with
    | nil =>
      rw [hrest] at hgap
      rw [hgap]
      exact hgap
    | cons c cs =>
      have hlength := hline.length_le
      rw [hrest, List.tail_cons] at hlength
      rw [hrest] at hgap
      rw [hrest, List.length_cons] at hfuel
      rw [hgap]
      dsimp only
      rw [if_pos (isBreak_of_isLineBreak (h c (by simp [hrest])))]
      exact ih (h.of_suffix (hline.trans (List.tail_suffix _))) (by omega) _

/-- White space in front of the end of the text is passed over alike; white space up to the end
includes the breaks behind it. -/
theorem skipSpaceFrom_longer (hcut : Breaks cut) (hunbroken : Unbroken p.rest)
    (hfuel : p.rest.length < fuel) (hfuel' : p.rest.length + cut.length < fuel')
    (flow allowed : Bool) :
    ((skipSpaceFrom flow fuel allowed p).2.rest ≠ [] ∧
      skipSpaceFrom flow fuel' allowed (p.longer cut) =
        ((skipSpaceFrom flow fuel allowed p).1, (skipSpaceFrom flow fuel allowed p).2.longer cut)) ∨
    ((skipSpaceFrom flow fuel allowed p).2.rest = [] ∧
      (skipSpaceFrom flow fuel' allowed (p.longer cut)).2.rest = []) := by
  induction fuel generalizing fuel' allowed p with
  | zero => omega
  | succ fuel ih =>
    obtain ⟨fuel', rfl⟩ : ∃ n, fuel' = n + 1 := Nat.exists_eq_add_one_of_ne_zero (by omega)
    have hgap := rest_gapEnd_suffix flow allowed p
    rw [skipSpaceFrom_succ, skipSpaceFrom_succ, gapEnd_longer hcut, Place.longer_rest]
    cases hrest : (gapEnd flow allowed p).rest with
    | nil =>
      have hbehind : ((gapEnd flow allowed p).longer cut).rest = cut := by
        rw [Place.longer_rest, hrest, List.nil_append]
      have hline := ((gapEnd flow allowed p).longer cut).rest_nextLine_suffix
      rw [hbehind] at hline
      refine .inr ⟨hrest, ?_⟩
      rw [List.nil_append]
      cases cut with
      | nil => exact hbehind
      | cons c cut =>
        have hlength := hline.length_le
        rw [List.tail_cons] at hlength
        rw [List.length_cons] at hfuel'
        dsimp only
        rw [if_pos (isBreak_of_isLineBreak (hcut c List.mem_cons_self))]
        have hbreaks := hcut.of_suffix (hline.trans (List.tail_suffix _))
        exact skipSpaceFrom_breaks hbreaks (by omega) _ _
    | cons c cs =>
      have hne : (gapEnd flow allowed p).rest ≠ [] := by simp [hrest]
      have hbehind := hunbroken.of_suffix hgap
      have hline := (gapEnd flow allowed p).rest_nextLine_suffix
      have hlength := hline.length_le
      have hshort := hgap.length_le
      rw [hrest, List.tail_cons] at hlength
      rw [hrest, List.length_cons] at hshort
      rw [List.cons_append, Place.nextLine_longer hbehind hne]
      dsimp only
      split
      · exact ih (hbehind.of_suffix (hline.trans (List.tail_suffix _))) (by omega) (by omega) _
      · exact .inl ⟨hne, rfl⟩

/-- Nothing but white space is left. -/
def AtEnd (s : Lexer) : Prop := s.skipSpace.place.rest = []

theorem skipSpace_eq (s : Lexer) :
    s.skipSpace =
      { s with
        place := (skipSpaceFrom s.inFlow (s.place.rest.length + 1) s.keyAllowed s.place).2
        keyAllowed := (skipSpaceFrom s.inFlow (s.place.rest.length + 1) s.keyAllowed s.place).1 } :=
  rfl

theorem rest_skipSpace_suffix (s : Lexer) : s.skipSpace.place.rest <:+ s.place.rest := by
  rw [skipSpace_eq]
  exact rest_skipSpaceFrom_suffix _ _ _ _

theorem atEnd_of_breaks (h : Breaks s.place.rest) : s.AtEnd :=
  skipSpaceFrom_breaks h (Nat.lt_add_one _) _ _

theorem skipSpace_longer (hcut : Breaks cut) (hunbroken : Unbroken s.place.rest) :
    (s.skipSpace.place.rest ≠ [] ∧ (s.longer cut).skipSpace = s.skipSpace.longer cut) ∨
      (s.AtEnd ∧ (s.longer cut).AtEnd) := by
  have hfuel : s.place.rest.length + cut.length < (s.place.rest ++ cut).length + 1 := by
    rw [List.length_append]
    omega
  have hspace := skipSpaceFrom_longer hcut hunbroken (Nat.lt_add_one _) hfuel s.inFlow s.keyAllowed
  rcases hspace with ⟨hne, hspace⟩ | ⟨hnil, hnil'⟩
  · refine .inl ⟨hne, ?_⟩
    rw [skipSpace_eq, inFlow_longer, longer_place, Place.longer_rest, longer_keyAllowed, hspace]
    rfl
  · refine .inr ⟨hnil, ?_⟩
    rw [AtEnd, skipSpace_eq, inFlow_longer, longer_place, Place.longer_rest, longer_keyAllowed]
    exact hnil'

/-! ## Two states -/

/-- Two states with nothing but white space left, in which the same blocks are open and the same
keys need a colon. -/
structure Ended (s r : Lexer) : Prop where
  here : s.AtEnd
  there : r.AtEnd
  floor : r.floor = s.floor
  floors : r.floors = s.floors
  required : r.keys.map (fun k => k.map KeyStart.required) =
    s.keys.map fun k => k.map KeyStart.required

/-- Two states, one of them in a text with more breaks at its end: the same state, or both with
nothing but white space left and the same tokens. -/
def Along (cut : List Char) (s r : Lexer) : Prop :=
  r = s.longer cut ∨ (Ended s r ∧ r.tokens = s.tokens)

theorem ended_longer (here : s.AtEnd) (there : (s.longer cut).AtEnd) : Ended s (s.longer cut) := by
  refine ⟨here, there, rfl, rfl, ?_⟩
  rw [longer, List.map_map]
  refine List.map_congr_left fun k _ => ?_
  cases k <;> rfl

theorem rel_longer {x y : Option Lexer} (h : y = x.map (·.longer cut)) :
    Option.Rel (Along cut) x y := by
  rw [h]
  cases x with
  | none => exact .none
  | some s => exact .some (.inl rfl)

/-- A token whose reading ends with the text, and among the breaks of the longer one. -/
theorem ended_emit {p q : Place} (hrest : p.rest = []) (hbreaks : Breaks q.rest) (s : Lexer)
    (cut : List Char) (keyAllowed keyAllowed' : Bool) (t t' : Token) :
    Ended (((s.allow keyAllowed).emit t).at_ p)
      ((((s.longer cut).allow keyAllowed').emit t').at_ q) := by
  refine ⟨atEnd_of_breaks ?_, atEnd_of_breaks hbreaks, rfl, rfl, ?_⟩
  · change Breaks p.rest
    rw [hrest]
    exact breaks_nil
  · change (s.longer cut).keys.map _ = s.keys.map _
    rw [longer, List.map_map]
    refine List.map_congr_left fun k _ => ?_
    cases k <;> rfl

/-- What a step does behind a key that has been noted, or forgotten, it does alike. -/
theorem rel_bind_longer {R : Lexer → Lexer → Prop} {x : Option Lexer} {f : Lexer → Option Lexer}
    (h : ∀ r, x = some r → Option.Rel R (f r) (f (r.longer cut))) :
    Option.Rel R (x.bind f) ((x.map (·.longer cut)).bind f) := by
  cases x with
  | none => exact .none
  | some r => exact h r rfl

theorem plain?_longer (hcut : Breaks cut) (hunbroken : Unbroken s.place.rest) :
    Option.Rel (Along cut) s.plain? (s.longer cut).plain? := by
  unfold plain?
  rw [saveKey?_longer]
  refine rel_bind_longer fun r hr => ?_
  rw [← (stays_saveKey? hr).place] at hunbroken
  rw [inFlow_longer, longer_floor, longer_place]
  refine rel_bind (Yaml.plain?_longer r.inFlow r.floor hcut hunbroken) fun a b _ hab => ?_
  obtain ⟨text, broken, p⟩ := a
  obtain ⟨text', broken', q⟩ := b
  rcases hab with hab | ⟨hrest, hrest', htext⟩
  · cases hab
    exact .some (.inl rfl)
  · dsimp only at hrest hrest' htext ⊢
    subst htext
    refine .some (.inr ⟨ended_emit hrest ?_ r cut _ _ _ _, rfl⟩)
    rw [hrest']
    exact breaks_nil

theorem directiveAt?_append (hcut : Breaks cut) (h : cs ≠ []) :
    directiveAt? (cs ++ cut) = (directiveAt? cs).map (leaving cut) := by
  obtain ⟨c, cs, rfl⟩ := List.exists_cons_of_ne_nil h
  unfold directiveAt?
  simp only [List.cons_append, List.drop_succ_cons, List.drop_zero,
    takeWhile_append_breaks hcut inline_isWord, dropWhile_append_breaks hcut inline_isWord,
    atGap_append hcut, version?_append hcut, tagHandle?_append hcut]
  split
  · rfl
  split
  · rfl
  split
  · rfl
  · rfl

theorem directive?_longer (hcut : Breaks cut) (hunbroken : Unbroken s.place.rest)
    (h : s.place.rest ≠ []) : Option.Rel (Along cut) s.directive? (s.longer cut).directive? := by
  rw [directive?_eq, directive?_eq, endBlocks?_longer]
  refine rel_bind_longer fun r hr => ?_
  rw [← (stays_endBlocks? hr).place] at hunbroken h
  rw [longer_place, Place.longer_rest, directiveAt?_append hcut h]
  cases hread : directiveAt? r.place.rest with
  | none => exact .none
  | some a =>
    have hbehind := (rest_directiveAt? hread).trans (List.tail_suffix _)
    simp only [Option.map_some, Option.bind_some, leaving, Place.skipTo_longer]
    refine rel_map (Place.afterLine?_longer hcut ?_) fun p q hpq => ?_
    · rw [Place.rest_skipTo hbehind]
      exact hunbroken.of_suffix hbehind
    · rcases hpq with rfl | ⟨hrest, hbreaks, -⟩
      · exact .inl rfl
      · exact .inr ⟨ended_emit hrest hbreaks r cut r.keyAllowed r.keyAllowed a.1 a.1, rfl⟩

/-- Two states with nothing but white space left, behind a block scalar with a sign in its first
line. Behind the scalar of the second one stand the breaks. -/
def ScalarEnded (cut : List Char) (chomp : Chomp) (s r : Lexer) : Prop :=
  Ended s r ∧ ∃ x y before, Chomped cut chomp x y ∧ s.tokens = .scalar false x :: before ∧
    r.tokens = .scalar false y :: before

theorem block?_longer (hcut : Breaks cut) (hunbroken : Unbroken s.place.rest)
    (h : s.place.rest ≠ []) (literal : Bool) :
    Option.Rel (fun a b => ∃ chomp, signAt? s.place = some chomp ∧ a.inFlow = s.inFlow ∧
        ((a.place.rest ≠ [] ∧ b = a.longer cut) ∨
          (a.place.rest = [] ∧ ScalarEnded cut chomp a b)))
      (s.block? literal) ((s.longer cut).block? literal) := by
  unfold block?
  rw [dropKey?_longer]
  refine rel_bind_longer fun r hr => ?_
  have hflow : r.inFlow = s.inFlow := by rw [inFlow, inFlow, length_keys_of_dropKey? hr]
  rw [← (stays_dropKey? hr).place] at hunbroken h ⊢
  rw [longer_floor, longer_place]
  refine rel_bind (blockScalar?_longer hcut hunbroken h) fun a b _ hab => ?_
  obtain ⟨text, p⟩ := a
  obtain ⟨text', q⟩ := b
  obtain ⟨chomp, hsign, hab⟩ := hab
  refine .some ⟨chomp, hsign, hflow, ?_⟩
  rcases hab with ⟨hne, hab⟩ | ⟨hrest, hrest', htexts⟩
  · cases hab
    exact .inl ⟨hne, rfl⟩
  · refine .inr ⟨hrest, ended_emit hrest ?_ r cut _ _ _ _, text, text', r.tokens, htexts, rfl, rfl⟩
    dsimp only at hrest'
    rw [hrest']
    exact breaks_nil

/-! ## One token -/

theorem startsPlain_append (hcut : Breaks cut) (flow : Bool) (c : Char) (rest : List Char) :
    startsPlain flow (c :: (rest ++ cut)) = startsPlain flow (c :: rest) := by
  simp only [startsPlain, any_head?_append hcut inline_isGap, atGap_append hcut]

theorem turnAt_longer (hcut : Breaks cut) (hrest : s.place.rest = c :: rest) :
    (s.longer cut).turnAt c (rest ++ cut) = s.turnAt c rest := by
  have hdash := isMark_append hcut (by decide : isLineBreak '-' = false) (c :: rest)
  have hdot := isMark_append hcut (by decide : isLineBreak '.' = false) (c :: rest)
  rw [List.cons_append] at hdash hdot
  simp only [turnAt, longer_place, Place.longer_column, Place.longer_rest, hrest, List.cons_append,
    hdash, hdot, atGap_append hcut, inFlow_longer, startsPlain_append hcut]

theorem isMark_cons_of_ne {mark : Char} (h : c ≠ mark) (rest : List Char) :
    isMark mark (c :: rest) = false := by
  unfold isMark
  split
  · rename_i hcons
    cases hcons
    simp [h]
  · rfl

/-- Outside of brackets a bar and an angle begin block scalars. -/
theorem turnAt_of_bar (hrest : s.place.rest = c :: rest) (hflow : s.inFlow = false)
    (hc : (c == '|' || c == '>') = true) : ∃ literal, s.turnAt c rest = .block literal := by
  simp only [Bool.or_eq_true, beq_iff_eq] at hc
  rcases hc with rfl | rfl
  · refine ⟨true, ?_⟩
    simp [turnAt, hrest, hflow, isMark_cons_of_ne]
  · refine ⟨false, ?_⟩
    simp [turnAt, hrest, hflow, isMark_cons_of_ne]

/-- What the sign of a block scalar says is kept at its end, where the state behind its token is at
the end of the text. -/
def endSign? (s : Lexer) (c : Char) (r : Lexer) : Option Chomp :=
  if !s.inFlow && (c == '|' || c == '>') && r.place.rest.isEmpty then signAt? s.place else none

/-- Two states behind a token, one of them in a text with more breaks at its end. Where the token is
a block scalar that ends with the text, its text is the only difference. -/
def Behind (cut : List Char) (s : Lexer) (c : Char) (a b : Lexer) : Prop :=
  match s.endSign? c a with
  | none => Along cut a b
  | some chomp => a.inFlow = false ∧ ScalarEnded cut chomp a b

theorem behind_of_along {a b : Lexer} (hnone : ∀ r, s.endSign? c r = none) (h : Along cut a b) :
    Behind cut s c a b := by
  rw [Behind, hnone]
  exact h

/-- Turns other than block scalars are taken alike. -/
theorem read?_longer (hcut : Breaks cut) (hunbroken : Unbroken s.place.rest)
    (h : s.place.rest ≠ []) {turn : Turn} (hfits : turn.Fits s c)
    (hblock : ∀ literal, turn ≠ .block literal) :
    Option.Rel (Along cut) (turn.read? s) (turn.read? (s.longer cut)) := by
  cases turn with
  | directive => exact directive?_longer hcut hunbroken h
  | mark t => exact rel_longer (documentMark?_longer hfits.2 t cut)
  | opening t => exact rel_longer (openBracket?_longer h t cut)
  | closing t => exact rel_longer (closeBracket?_longer h t cut)
  | comma => exact rel_longer (comma?_longer h cut)
  | entry => exact rel_longer (entry?_longer h cut)
  | keyMark => exact rel_longer (keyMark?_longer h cut)
  | colon => exact rel_longer (colon?_longer h cut)
  | anchor token => exact rel_longer (anchor?_longer hcut h token)
  | tag => exact rel_longer (tag?_longer hcut s)
  | block literal => exact absurd rfl (hblock literal)
  | quoted quote => exact rel_longer (quoted?_longer hcut hunbroken h quote)
  | plain => exact plain?_longer hcut hunbroken
  | nothing => exact .none

theorem token?_longer (hcut : Breaks cut) (hunbroken : Unbroken s.place.rest)
    (hrest : s.place.rest = c :: rest) :
    Option.Rel (Behind cut s c) (s.token? c rest) ((s.longer cut).token? c (rest ++ cut)) := by
  have hne : s.place.rest ≠ [] := by simp [hrest]
  rw [token?_eq, token?_eq, turnAt_longer hcut hrest]
  by_cases hbar : (!s.inFlow && (c == '|' || c == '>')) = true
  · have hbar' := hbar
    rw [Bool.and_eq_true, Bool.not_eq_true'] at hbar'
    obtain ⟨literal, hturn⟩ := turnAt_of_bar hrest hbar'.1 hbar'.2
    rw [hturn]
    refine rel_mono (block?_longer hcut hunbroken hne literal) fun a b hab => ?_
    obtain ⟨chomp, hsign, hflow, ⟨hinner, rfl⟩ | ⟨hend, hended⟩⟩ := hab
    · have hnone : s.endSign? c a = none := by simp [endSign?, hinner]
      rw [Behind, hnone]
      exact .inl rfl
    · have hsome : s.endSign? c a = some chomp := by simp [endSign?, hbar, hend, hsign]
      rw [Behind, hsome]
      exact ⟨hflow.trans hbar'.1, hended⟩
  · have hnone : ∀ r, s.endSign? c r = none := fun r => if_neg (by simp [hbar])
    have hfits := s.fits_turnAt c rest
    refine rel_mono (read?_longer hcut hunbroken hne hfits ?_) fun a b hab =>
      behind_of_along hnone hab
    intro literal hturn
    rw [hturn] at hfits
    exact hbar (by simp [hfits.1, hfits.2])

end Lexer

end DocPages.Yaml
