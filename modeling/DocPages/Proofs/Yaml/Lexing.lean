-- What the steps that read tokens do to their state: each token takes at least one character, and
-- of the keys that may have begun there is always one for each open bracket and one for the text
-- outside of all.
import DocPages.Proofs.Yaml.BlockScalars
import DocPages.Proofs.Yaml.Brackets
import DocPages.Proofs.Yaml.Names
import DocPages.Proofs.Yaml.Scalars

namespace DocPages.Yaml

namespace Lexer

variable {s r : Lexer} {cs cut rest : List Char} {c : Char} {t : Token} {fuel : Nat}

/-! ## Open brackets -/

/-- There is one key for the text outside of brackets, and one for each bracket that is open. -/
def Balanced (s : Lexer) : Prop := s.keys.length = deepened s.tokens.reverse 0 + 1

theorem deepened_reverse_cons (t : Token) (ts : List Token) (d : Nat) :
    deepened (t :: ts).reverse d = t.deepen (deepened ts.reverse d) := by
  rw [List.reverse_cons, deepened_append]
  rfl

/-- A state that a step leaves where it was, with the same brackets open. -/
structure Stays (s r : Lexer) : Prop where
  place : r.place = s.place
  balanced : s.Balanced → r.Balanced

theorem Stays.refl (s : Lexer) : Stays s s := ⟨rfl, id⟩

theorem Stays.trans {q : Lexer} (h : Stays s r) (hq : Stays r q) : Stays s q :=
  ⟨hq.place.trans h.place, hq.balanced ∘ h.balanced⟩

theorem stays_allow (s : Lexer) (keyAllowed : Bool) : Stays s (s.allow keyAllowed) := ⟨rfl, id⟩

theorem stays_emit (s : Lexer) (ht : t.Flat) : Stays s (s.emit t) := by
  refine ⟨rfl, fun h => ?_⟩
  rw [Balanced, emit, deepened_reverse_cons, ht]
  exact h

theorem stays_emitAt (s : Lexer) (number : Nat) (ht : t.Flat) : Stays s (s.emitAt number t) := by
  refine ⟨rfl, fun h => ?_⟩
  have hsplit := List.take_append_drop (s.count - number) s.tokens
  rw [Balanced, ← hsplit] at h
  rw [Balanced, emitAt, List.reverse_append, deepened_append, deepened_reverse_cons, ht]
  rw [List.reverse_append, deepened_append] at h
  exact h

theorem stays_dropKey? (h : s.dropKey? = some r) : Stays s r := by
  unfold dropKey? at h
  split at h
  · rename_i k keys hkeys
    split at h
    · cases h
    · cases h
      refine ⟨rfl, fun hs => ?_⟩
      rw [Balanced, hkeys] at hs
      exact hs
  · cases h
    exact .refl s

theorem stays_saveKey? (h : s.saveKey? = some r) : Stays s r := by
  unfold saveKey? at h
  split at h
  · simp only [Option.bind_eq_bind, Option.bind_eq_some_iff, Option.some.injEq] at h
    obtain ⟨q, hdrop, rfl⟩ := h
    have hstays := stays_dropKey? hdrop
    refine ⟨hstays.place, fun hs => ?_⟩
    have hq := hstays.balanced hs
    unfold Balanced at hq ⊢
    simp only [List.length_cons, List.length_drop]
    omega
  · cases h
    exact .refl s

theorem length_keys_of_dropKey? (h : s.dropKey? = some r) : r.keys.length = s.keys.length := by
  unfold dropKey? at h
  split at h
  · rename_i k keys hkeys
    split at h
    · cases h
    · cases h
      rw [hkeys]
      rfl
  · cases h
    rfl

theorem inFlow_of_saveKey? (h : s.saveKey? = some r) : r.inFlow = s.inFlow := by
  unfold saveKey? at h
  split at h
  · simp only [Option.bind_eq_bind, Option.bind_eq_some_iff, Option.some.injEq] at h
    obtain ⟨q, hdrop, rfl⟩ := h
    have hlength := length_keys_of_dropKey? hdrop
    simp only [inFlow, List.length_cons, List.length_drop, hlength]
    congr 1
    exact propext (by omega)
  · cases h
    rfl

theorem stays_closeBlocksFrom (floor : Nat) (floors : List Nat) (s : Lexer) :
    Stays s (closeBlocksFrom floor floors s) := by
  induction floors generalizing s with
  | nil => exact .refl s
  | cons outer floors ih =>
    rw [closeBlocksFrom]
    split
    · have hemit : Stays s (s.emit .blockEnd) := stays_emit s fun _ => rfl
      have hstep : Stays s { s.emit .blockEnd with floor := outer, floors := floors } :=
        ⟨hemit.place, hemit.balanced⟩
      exact hstep.trans (ih _)
    · exact .refl s

theorem stays_closeBlocks (s : Lexer) (floor : Nat) : Stays s (s.closeBlocks floor) := by
  unfold closeBlocks
  split
  · exact .refl s
  · exact stays_closeBlocksFrom _ _ s

theorem stays_openBlock (s : Lexer) (column number : Nat) (ht : t.Flat) :
    Stays s (s.openBlock column number t) := by
  unfold openBlock
  split
  · have hemit := stays_emitAt s number ht
    exact ⟨hemit.place, hemit.balanced⟩
  · exact .refl s

theorem stays_endBlocks? (h : s.endBlocks? = some r) : Stays s r := by
  obtain ⟨q, hdrop, rfl⟩ := Option.map_eq_some_iff.mp h
  exact ((stays_closeBlocks s 0).trans (stays_dropKey? hdrop)).trans (stays_allow q false)

theorem stays_dropStaleKeys? (h : s.dropStaleKeys? = some r) : Stays s r := by
  unfold dropStaleKeys? at h
  split at h
  · cases h
  · cases h
    refine ⟨rfl, fun hs => ?_⟩
    rw [Balanced, List.length_map]
    exact hs

/-! ## Places behind a token -/

/-- A state behind at least one more character, with as many keys as there have to be. -/
structure Takes (s r : Lexer) : Prop where
  rest : r.place.rest <:+ s.place.rest.tail
  balanced : s.Balanced → r.Balanced

theorem Stays.takes {q : Lexer} (h : Stays s r) (hq : Takes r q) : Takes s q :=
  ⟨h.place ▸ hq.rest, hq.balanced ∘ h.balanced⟩

theorem takes_single (s : Lexer) (ht : t.Flat) : Takes s (s.single t) := by
  refine ⟨?_, (stays_emit s ht).balanced⟩
  rw [single, at_, s.place.rest_next]

/-- A token that is no bracket, at a place further on. -/
theorem takes_emit (s : Lexer) (ht : t.Flat) {p : Place} (h : p.rest <:+ s.place.rest.tail) :
    Takes s ((s.emit t).at_ p) := ⟨h, (stays_emit s ht).balanced⟩

theorem takes_documentMark? (ht : t.Flat) (h : s.documentMark? t = some r) : Takes s r := by
  obtain ⟨q, hend, rfl⟩ := Option.map_eq_some_iff.mp h
  refine (stays_endBlocks? hend).takes (takes_emit q ht ?_)
  rw [Place.rest_skip, ← List.drop_one]
  exact List.drop_suffix_drop_left _ (by omega)

theorem takes_openBracket? (ht : ∀ d, t.deepen d = d + 1) (h : s.openBracket? t = some r) :
    Takes s r := by
  obtain ⟨q, hsave, rfl⟩ := Option.map_eq_some_iff.mp h
  refine (stays_saveKey? hsave).takes ⟨?_, fun hq => ?_⟩
  · rw [single, at_, Place.rest_next]
    rfl
  · unfold Balanced at hq ⊢
    simp only [single, emit, at_, allow, deepened_reverse_cons, ht, List.length_cons, hq]

theorem takes_closeBracket? (ht : ∀ d, t.deepen d = d - 1) (h : s.closeBracket? t = some r) :
    Takes s r := by
  obtain ⟨q, hdrop, rfl⟩ := Option.map_eq_some_iff.mp h
  refine (stays_dropKey? hdrop).takes ⟨?_, fun hq => ?_⟩
  · rw [single, at_, Place.rest_next]
    split <;> rfl
  · unfold Balanced at hq ⊢
    cases hflow : q.inFlow with
    | true =>
      rw [inFlow, decide_eq_true_eq] at hflow
      simp only [if_true, single, emit, at_, allow, deepened_reverse_cons, ht, List.length_drop]
      omega
    | false =>
      rw [inFlow, decide_eq_false_iff_not] at hflow
      simp only [Bool.false_eq_true, if_false, single, emit, at_, allow, deepened_reverse_cons, ht]
      omega

theorem takes_comma? (h : s.comma? = some r) : Takes s r := by
  obtain ⟨q, hdrop, rfl⟩ := Option.map_eq_some_iff.mp h
  exact ((stays_dropKey? hdrop).trans (stays_allow q true)).takes (takes_single _ fun _ => rfl)

theorem takes_entry? (h : s.entry? = some r) : Takes s r := by
  unfold entry? at h
  split at h
  · cases h
  · obtain ⟨q, hdrop, rfl⟩ := Option.map_eq_some_iff.mp h
    have hopen := stays_openBlock (t := .sequenceBlock) s s.place.column s.count fun _ => rfl
    exact ((hopen.trans (stays_dropKey? hdrop)).trans (stays_allow q true)).takes
      (takes_single _ fun _ => rfl)

theorem takes_keyMark? (h : s.keyMark? = some r) : Takes s r := by
  unfold keyMark? at h
  split at h
  · cases h
  · obtain ⟨q, hdrop, rfl⟩ := Option.map_eq_some_iff.mp h
    have hopen := stays_openBlock (t := .mappingBlock) s s.place.column s.count fun _ => rfl
    exact ((hopen.trans (stays_dropKey? hdrop)).trans (stays_allow q _)).takes
      (takes_single _ fun _ => rfl)

/-- The state in front of a colon, with the key that began in front of it put in. -/
def withKey (s : Lexer) (k : KeyStart) (keys : List (Option KeyStart)) : Lexer :=
  ((emitAt { s with keys := none :: keys } k.number .key).openBlock k.place.column k.number
    .mappingBlock).allow false

/-- The state in front of a colon without a key. -/
def withoutKey (s : Lexer) : Lexer :=
  (s.openBlock s.place.column s.count .mappingBlock).allow
    (!(s.openBlock s.place.column s.count .mappingBlock).inFlow)

theorem colon?_eq (s : Lexer) :
    s.colon? =
      match s.keys with
      | some k :: keys => some ((s.withKey k keys).single .value)
      | _ => if !s.inFlow && !s.keyAllowed then none else some (s.withoutKey.single .value) := rfl

theorem stays_withKey {k : KeyStart} {keys : List (Option KeyStart)} (h : s.keys = some k :: keys) :
    Stays s (s.withKey k keys) := by
  have hforget : Stays s { s with keys := none :: keys } := by
    refine ⟨rfl, fun hs => ?_⟩
    rw [Balanced, h] at hs
    exact hs
  exact ((hforget.trans (stays_emitAt _ _ fun _ => rfl)).trans
    (stays_openBlock _ _ _ fun _ => rfl)).trans (stays_allow _ _)

theorem stays_withoutKey (s : Lexer) : Stays s s.withoutKey :=
  (stays_openBlock s _ _ fun _ => rfl).trans (stays_allow _ _)

theorem takes_colon? (h : s.colon? = some r) : Takes s r := by
  rw [colon?_eq] at h
  split at h
  · rename_i k keys hkeys
    cases h
    exact (stays_withKey hkeys).takes (takes_single _ fun _ => rfl)
  · split at h
    · cases h
    · cases h
      exact s.stays_withoutKey.takes (takes_single _ fun _ => rfl)

theorem takes_anchor? {token : List Char → Token} (ht : ∀ name, (token name).Flat)
    (h : s.anchor? token = some r) : Takes s r := by
  unfold anchor? at h
  simp only [Option.bind_eq_bind, Option.bind_eq_some_iff] at h
  obtain ⟨q, hsave, h⟩ := h
  split at h
  · cases h
    refine ((stays_saveKey? hsave).trans (stays_allow q false)).takes (takes_emit _ (ht _) ?_)
    rw [← Place.rest_next]
    exact Place.rest_skip_suffix _ _
  · cases h

theorem takes_tag? (h : s.tag? = some r) : Takes s r := by
  unfold tag? at h
  simp only [Option.bind_eq_bind, Option.bind_eq_some_iff, Option.some.injEq] at h
  obtain ⟨q, hsave, ⟨name, behind⟩, hread, rfl⟩ := h
  refine ((stays_saveKey? hsave).trans (stays_allow q false)).takes
    (takes_emit _ (fun _ => rfl) ?_)
  have hbehind := TagName.rest_read? hread
  have hrest : (q.place.skipTo behind).rest = behind :=
    Place.rest_skipTo (hbehind.trans (List.tail_suffix _))
  rw [Place.skipTo] at hrest
  rw [hrest]
  exact hbehind

theorem takes_block? {literal : Bool} (h : s.block? literal = some r) : Takes s r := by
  unfold block? at h
  simp only [Option.bind_eq_bind, Option.bind_eq_some_iff, Option.some.injEq] at h
  obtain ⟨q, hdrop, ⟨text, p⟩, hread, rfl⟩ := h
  refine ((stays_dropKey? hdrop).trans (stays_allow q true)).takes
    (takes_emit _ (fun _ => rfl) ?_)
  rw [← Place.rest_next]
  exact rest_blockScalar? hread

theorem takes_quoted? {quote : Char} (h : s.quoted? quote = some r) : Takes s r := by
  unfold quoted? at h
  simp only [Option.bind_eq_bind, Option.bind_eq_some_iff, Option.some.injEq] at h
  obtain ⟨q, hsave, ⟨text, p⟩, hread, rfl⟩ := h
  refine ((stays_saveKey? hsave).trans (stays_allow q false)).takes
    (takes_emit _ (fun _ => rfl) ?_)
  rw [← Place.rest_next]
  exact rest_quoted? hread

theorem takes_plain? (hmark : s.place.atDocumentMark = false)
    (hstarts : startsPlain s.inFlow s.place.rest = true) (h : s.plain? = some r) : Takes s r := by
  unfold plain? at h
  simp only [Option.bind_eq_bind, Option.bind_eq_some_iff, Option.some.injEq] at h
  obtain ⟨q, hsave, ⟨text, broken, p⟩, hread, rfl⟩ := h
  have hplace := (stays_saveKey? hsave).place
  refine ((stays_saveKey? hsave).trans (stays_allow q broken)).takes
    (takes_emit _ (fun _ => rfl) ?_)
  rw [← hplace] at hmark hstarts
  rw [← inFlow_of_saveKey? hsave] at hstarts
  change p.rest <:+ q.place.rest.tail
  cases hrest : q.place.rest with
  | nil =>
    rw [hrest] at hstarts
    cases hstarts
  | cons c cs => exact rest_plain? hrest hmark hstarts hread

/-- The token of a directive, and the text behind it on its line. -/
def directiveAt? (cs : List Char) : Option (Token × List Char) :=
  if !atGap ((cs.drop 1).dropWhile isWord) then none
  else if String.ofList ((cs.drop 1).takeWhile isWord) == "YAML" then
    version? ((cs.drop 1).dropWhile isWord)
  else if String.ofList ((cs.drop 1).takeWhile isWord) == "TAG" then
    tagHandle? ((cs.drop 1).dropWhile isWord)
  else none

theorem directive?_eq (s : Lexer) :
    s.directive? = s.endBlocks?.bind fun s => (directiveAt? s.place.rest).bind fun r =>
      (s.place.skipTo r.2).afterLine?.map fun p => (s.emit r.1).at_ p := by
  unfold directive? directiveAt?
  simp only [List.span_eq_takeWhile_dropWhile, Option.bind_eq_bind, Option.map_eq_bind]
  congr 1
  funext q
  split
  · rfl
  split
  · rfl
  split
  · rfl
  · rfl

theorem flat_of_directiveAt? (h : directiveAt? cs = some (t, rest)) : t.Flat := by
  unfold directiveAt? at h
  split at h
  · cases h
  split at h
  · unfold version? at h
    simp only [Option.bind_eq_bind, Option.bind_eq_some_iff] at h
    obtain ⟨major, -, h⟩ := h
    split at h
    · simp only [Option.bind_eq_some_iff] at h
      obtain ⟨minor, -, h⟩ := h
      cases h
      exact fun _ => rfl
    · cases h
  split at h
  · unfold tagHandle? at h
    simp only [Option.bind_eq_bind, Option.bind_eq_some_iff] at h
    obtain ⟨handle, -, h⟩ := h
    split at h
    · cases h
    · simp only [Option.bind_eq_some_iff] at h
      obtain ⟨start, -, h⟩ := h
      split at h
      · cases h
        exact fun _ => rfl
      · cases h
  · cases h

theorem rest_directiveAt? (h : directiveAt? cs = some (t, rest)) : rest <:+ cs.tail := by
  have hword : (cs.drop 1).dropWhile isWord <:+ cs.tail := by
    rw [← List.drop_one]
    exact List.dropWhile_suffix _
  unfold directiveAt? at h
  split at h
  · cases h
  split at h
  · exact (rest_version? h).trans hword
  split at h
  · exact (rest_tagHandle? h).trans hword
  · cases h

theorem takes_directive? (h : s.directive? = some r) : Takes s r := by
  rw [directive?_eq, Option.bind_eq_some_iff] at h
  obtain ⟨q, hend, h⟩ := h
  obtain ⟨⟨t, behind⟩, hread, h⟩ := Option.bind_eq_some_iff.mp h
  obtain ⟨p, hline, rfl⟩ := Option.map_eq_some_iff.mp h
  have hbehind := rest_directiveAt? hread
  refine (stays_endBlocks? hend).takes (takes_emit q (flat_of_directiveAt? hread) ?_)
  have hp := Place.rest_afterLine?_suffix hline
  rw [Place.rest_skipTo (hbehind.trans (List.tail_suffix _))] at hp
  exact hp.trans hbehind

/-! ## Turns -/

/-- What is read next. -/
inductive Turn where
  | directive
  | mark (t : Token)
  | opening (t : Token)
  | closing (t : Token)
  | comma
  | entry
  | keyMark
  | colon
  | anchor (token : List Char → Token)
  | tag
  | block (literal : Bool)
  | quoted (quote : Char)
  | plain
  | nothing

/-- Reads what is next. -/
def Turn.read? (s : Lexer) : Turn → Option Lexer
  | .directive => s.directive?
  | .mark t => s.documentMark? t
  | .opening t => s.openBracket? t
  | .closing t => s.closeBracket? t
  | .comma => s.comma?
  | .entry => s.entry?
  | .keyMark => s.keyMark?
  | .colon => s.colon?
  | .anchor token => s.anchor? token
  | .tag => s.tag?
  | .block literal => s.block? literal
  | .quoted quote => s.quoted? quote
  | .plain => s.plain?
  | .nothing => none

/-- What the characters in front of a place announce. -/
def turnAt (s : Lexer) (c : Char) (rest : List Char) : Turn :=
  if s.place.column == 0 && c == '%' then .directive
  else if s.place.column == 0 && isMark '-' s.place.rest then .mark .documentStart
  else if s.place.column == 0 && isMark '.' s.place.rest then .mark .documentEnd
  else if c == '[' then .opening .openList
  else if c == '\x7b' then .opening .openMap
  else if c == ']' then .closing .closeList
  else if c == '\x7d' then .closing .closeMap
  else if c == ',' then .comma
  else if c == '-' && atGap rest then .entry
  else if c == '?' && (s.inFlow || atGap rest) then .keyMark
  else if c == ':' && (s.inFlow || atGap rest) then .colon
  else if c == '*' then .anchor .alias
  else if c == '&' then .anchor .anchor
  else if c == '!' then .tag
  else if c == '|' && !s.inFlow then .block true
  else if c == '>' && !s.inFlow then .block false
  else if c == '\x27' || c == '\x22' then .quoted c
  else if startsPlain s.inFlow s.place.rest then .plain
  else .nothing

theorem token?_eq (s : Lexer) (c : Char) (rest : List Char) :
    s.token? c rest = (s.turnAt c rest).read? s := by
  simp only [turnAt, apply_ite (Turn.read? s)]
  rfl

/-- What is known where a turn is taken: which tokens are brackets, and where block scalars and
plain ones may stand. -/
def Turn.Fits (s : Lexer) (c : Char) : Turn → Prop
  | .mark t => t.Flat ∧ 3 ≤ s.place.rest.length
  | .opening t => ∀ d, t.deepen d = d + 1
  | .closing t => ∀ d, t.deepen d = d - 1
  | .anchor token => ∀ name, (token name).Flat
  | .block _ => s.inFlow = false ∧ (c == '|' || c == '>') = true
  | .plain => s.place.atDocumentMark = false ∧ startsPlain s.inFlow s.place.rest = true
  | _ => True

theorem length_of_isMark {mark : Char} (h : isMark mark cs = true) : 3 ≤ cs.length := by
  unfold isMark at h
  split at h
  · simp
  · cases h

theorem fits_turnAt (s : Lexer) (c : Char) (rest : List Char) : (s.turnAt c rest).Fits s c := by
  unfold turnAt
  refine iteInduction (fun _ => trivial) fun _ => ?_
  refine iteInduction (fun hmark => ⟨fun _ => rfl, ?_⟩) fun hdash => ?_
  · exact length_of_isMark (Bool.and_eq_true_iff.mp hmark).2
  refine iteInduction (fun hmark => ⟨fun _ => rfl, ?_⟩) fun hdot => ?_
  · exact length_of_isMark (Bool.and_eq_true_iff.mp hmark).2
  refine iteInduction (fun _ _ => rfl) fun _ => ?_
  refine iteInduction (fun _ _ => rfl) fun _ => ?_
  refine iteInduction (fun _ _ => rfl) fun _ => ?_
  refine iteInduction (fun _ _ => rfl) fun _ => ?_
  refine iteInduction (fun _ => trivial) fun _ => ?_
  refine iteInduction (fun _ => trivial) fun _ => ?_
  refine iteInduction (fun _ => trivial) fun _ => ?_
  refine iteInduction (fun _ => trivial) fun _ => ?_
  refine iteInduction (fun _ _ _ => rfl) fun _ => ?_
  refine iteInduction (fun _ _ _ => rfl) fun _ => ?_
  refine iteInduction (fun _ => trivial) fun _ => ?_
  refine iteInduction (fun hbar => ?_) fun _ => ?_
  · simp only [Bool.and_eq_true, Bool.not_eq_true'] at hbar
    exact ⟨hbar.2, by simp [hbar.1]⟩
  refine iteInduction (fun hangle => ?_) fun _ => ?_
  · simp only [Bool.and_eq_true, Bool.not_eq_true'] at hangle
    exact ⟨hangle.2, by simp [hangle.1]⟩
  refine iteInduction (fun _ => trivial) fun _ => ?_
  refine iteInduction (fun hstarts => ⟨?_, hstarts⟩) fun _ => trivial
  rw [Bool.not_eq_true] at hdash hdot
  rw [Place.atDocumentMark, Bool.and_or_distrib_left, hdash, hdot]
  rfl

/-- A token takes at least one character. -/
theorem takes_token? (h : s.token? c rest = some r) : Takes s r := by
  have hfits := s.fits_turnAt c rest
  rw [token?_eq] at h
  revert h hfits
  generalize s.turnAt c rest = turn
  intro h hfits
  cases turn with
  | directive => exact takes_directive? h
  | mark t => exact takes_documentMark? hfits.1 h
  | opening t => exact takes_openBracket? hfits h
  | closing t => exact takes_closeBracket? hfits h
  | comma => exact takes_comma? h
  | entry => exact takes_entry? h
  | keyMark => exact takes_keyMark? h
  | colon => exact takes_colon? h
  | anchor token => exact takes_anchor? hfits h
  | tag => exact takes_tag? h
  | block literal => exact takes_block? h
  | quoted quote => exact takes_quoted? h
  | plain => exact takes_plain? hfits.1 hfits.2 h
  | nothing => cases h

end Lexer

end DocPages.Yaml
