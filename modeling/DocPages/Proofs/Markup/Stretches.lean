-- Editing as reading and writing. Any markup is a row of stretches: start
-- tags, and what the editing passes over. Reading finds the stretches whatever
-- the change is; writing goes through them and changes their tags. A stretch
-- ends with an angle, or where nothing could go on.
import DocPages.Markup.Edit
import DocPages.Proofs.Text.Search

namespace DocPages.Markup

/-! ## Reading -/

/-- A stretch of markup as it is written, with the start tag that it is, if it is one. -/
structure Stretch where
  tag : Option StartTag
  chars : List Char
  deriving DecidableEq

/-- The content of an element whose start tag has been entered, if it is text. -/
def contentOf : Option String → List Char → List Char
  | none, _ => []
  | some name, cs => if name == "plaintext" then cs else textContent name.toList cs

/-- The stretches that the editing goes through. `held` is the content of an element of text, which
waits for the end tag of the element. -/
def stretchesFrom : Nat → Context → List Char → List Char → Except Ambiguous (List Stretch)
  | 0, _, held, cs => .ok [⟨none, held ++ cs⟩]
  | _ + 1, _, held, [] => .ok [⟨none, held⟩]
  | fuel + 1, ctx, held, c :: cs =>
    if c != '<' then (stretchesFrom fuel ctx [] cs).map (⟨none, held ++ [c]⟩ :: ·)
    else
      let (piece, length) := piece ctx.realm (c :: cs)
      let raw := held ++ (c :: cs).take length
      let rest := (c :: cs).drop length
      match piece with
      | .other => (stretchesFrom fuel ctx [] rest).map (⟨none, raw⟩ :: ·)
      | .stop name => (stretchesFrom fuel (ctx.leave name) [] rest).map (⟨none, raw⟩ :: ·)
      | .start tag =>
        match ctx.enter tag with
        | .error e => .error e
        | .ok (ctx, text?) =>
          let content := contentOf text? rest
          (stretchesFrom fuel ctx content (rest.drop content.length)).map (⟨some tag, raw⟩ :: ·)

/-- The stretches of markup. -/
def stretches (cs : List Char) : Except Ambiguous (List Stretch) :=
  stretchesFrom (cs.length + 1) .start [] cs

/-- The text of stretches. -/
def textOf (list : List Stretch) : List Char := list.flatMap Stretch.chars

@[simp] theorem textOf_nil : textOf [] = [] := rfl

@[simp] theorem textOf_cons (s : Stretch) (rest : List Stretch) :
    textOf (s :: rest) = s.chars ++ textOf rest := rfl

@[simp] theorem textOf_append (a b : List Stretch) : textOf (a ++ b) = textOf a ++ textOf b :=
  List.flatMap_append

/-! ## Where a piece ends -/

/-- Up to a length a text is closed: it ends with an angle there, or nothing follows. -/
def ClosedAt (length : Nat) (cs : List Char) : Prop :=
  cs.drop length = [] ∨ (cs.take length).getLast? = some '>'

theorem closedAt_of_le {length : Nat} {cs : List Char} (h : cs.length ≤ length) :
    ClosedAt length cs := .inl (List.drop_eq_nil_of_le h)

theorem ClosedAt.cons {length : Nat} {cs : List Char} (c : Char) (h : ClosedAt length cs) :
    ClosedAt (length + 1) (c :: cs) := by
  rcases h with h | h
  · exact .inl h
  · right
    rw [List.take_succ_cons, List.getLast?_cons, h]
    rfl

theorem getLast?_take_of_map {c : Char} {cs : List Char}
    {read : Option (List Attribute × Bool × Nat)} {attributes : List Attribute}
    {selfClosing : Bool} {length : Nat}
    (hread : ∀ r, read = some r → (cs.take r.2.2).getLast? = some '>')
    (h : (read.map fun r => (r.1, r.2.1, r.2.2 + 1)) = some (attributes, selfClosing, length)) :
    ((c :: cs).take length).getLast? = some '>' := by
  obtain ⟨r, hsome, heq⟩ := Option.map_eq_some_iff.mp h
  cases heq
  rw [List.take_succ_cons, List.getLast?_cons, hread r hsome]
  rfl

/-- The rest of a tag ends with an angle. -/
theorem attributesFrom_closed {cs : List Char} {skip : Nat} {done attributes : List Attribute}
    {selfClosing : Bool} {length : Nat}
    (h : attributesFrom skip done cs = some (attributes, selfClosing, length)) :
    (cs.take length).getLast? = some '>' := by
  induction cs generalizing skip done attributes selfClosing length with
  | nil => cases skip <;> cases h
  | cons c cs ih =>
    cases skip with
    | succ skip =>
      rw [attributesFrom] at h
      exact getLast?_take_of_map (fun r hr => ih hr) h
    | zero =>
      rw [attributesFrom] at h
      split at h
      · rename_i hangle
        cases h
        simpa using hangle
      split at h
      · rename_i hslash
        cases h
        cases cs with
        | nil => simp at hslash
        | cons d cs => simpa using (And.right (by simpa using hslash) : d = '>')
      split at h
      · exact getLast?_take_of_map (fun r hr => ih hr) h
      split at h
      · exact getLast?_take_of_map (fun r hr => ih hr) h
      · cases h

theorem read?_closed {cs : List Char} {tag : StartTag} {length : Nat}
    (h : StartTag.read? cs = some (tag, length)) : ClosedAt length cs := by
  unfold StartTag.read? at h
  obtain ⟨⟨attributes, selfClosing, n⟩, hread, heq⟩ := Option.map_eq_some_iff.mp h
  cases heq
  right
  rw [List.take_add, List.getLast?_append, attributesFrom_closed hread]
  rfl

/-- Up to the end of a needle that ends with an angle, a text is closed. -/
theorem lengthThrough_closed (stem cs : List Char) :
    ClosedAt (lengthThrough (stem ++ ['>']) cs) cs := by
  unfold lengthThrough
  split
  · rename_i before hbefore
    right
    have htake := List.prefix_iff_eq_take.mp (Text.prefix_of_before? hbefore)
    rw [List.length_append] at htake
    rw [← htake, ← List.append_assoc, List.getLast?_concat]
  · exact closedAt_of_le (Nat.le_refl _)

theorem commentEnd_closed (n : Nat) (cs : List Char) :
    ∃ length, commentEnd n cs = n + length ∧ ClosedAt length cs := by
  fun_induction commentEnd n cs with
  | case1 n => exact ⟨0, rfl, closedAt_of_le (Nat.le_refl _)⟩
  | case2 n rest => exact ⟨3, rfl, .inr rfl⟩
  | case3 n rest => exact ⟨4, rfl, .inr rfl⟩
  | case4 n c cs _ _ ih =>
    obtain ⟨length, hend, hclosed⟩ := ih
    exact ⟨length + 1, by omega, hclosed.cons c⟩

theorem commentLength_closed (cs : List Char) : ClosedAt (commentLength cs) cs := by
  unfold commentLength
  split
  · exact .inr rfl
  · exact .inr rfl
  · obtain ⟨length, hend, hclosed⟩ := commentEnd_closed 0 cs
    rw [hend, Nat.zero_add]
    exact hclosed

/-- A piece is closed, or it is an angle without a letter behind it. -/
theorem piece_closed (realm : Realm) (cs : List Char) :
    ClosedAt (piece realm ('<' :: cs)).2 ('<' :: cs) ∨
      ((piece realm ('<' :: cs)).2 = 1 ∧ (∀ c ∈ cs.head?, c.isAlpha = false) ∧
        ∀ c rest, cs ≠ '/' :: c :: rest) := by
  unfold piece
  split
  · rename_i c rest heq
    cases heq
    left
    split
    · split
      · rename_i hread
        exact ((read?_closed hread).cons '/').cons '<'
      · exact closedAt_of_le (Nat.le_refl _)
    · exact ((lengthThrough_closed [] _).cons '/').cons '<'
  · rename_i rest heq
    cases heq
    left
    exact ((((commentLength_closed rest).cons '-').cons '-').cons '!').cons '<'
  · rename_i rest hcomment heq
    cases heq
    left
    split
    · exact ((lengthThrough_closed [']', ']'] _).cons '!').cons '<'
    · exact ((lengthThrough_closed [] _).cons '!').cons '<'
  · rename_i rest heq
    cases heq
    left
    exact ((lengthThrough_closed [] _).cons '?').cons '<'
  · rename_i c rest hstop _ _ _ heq
    cases heq
    split
    · left
      split
      · rename_i hread
        exact (read?_closed hread).cons '<'
      · exact closedAt_of_le (Nat.le_refl _)
    · rename_i hletter
      right
      refine ⟨rfl, fun d hd => ?_, fun d more hcs => ?_⟩
      · cases hd
        exact Bool.eq_false_iff.mpr hletter
      · cases hcs
        exact hstop d more rfl rfl
  · rename_i hnone
    cases cs with
    | nil => exact .inl (closedAt_of_le (Nat.le_refl _))
    | cons c rest => exact absurd rfl (hnone c rest)

/-! ## Content that waits -/

/-- Content that is held waits for an end tag, or for nothing. -/
def Waits (held cs : List Char) : Prop :=
  held = [] ∨ cs = [] ∨ ∃ c rest, cs = '<' :: '/' :: c :: rest ∧ c.isAlpha = true

theorem isAlpha_of_toLower {c : Char} (h : c.toLower.isAlpha = true) : c.isAlpha = true := by
  unfold Char.toLower at h
  split at h
  · rename_i hupper
    have hcased : c.isUpper = true := decide_eq_true hupper
    exact Bool.or_eq_true_iff.mpr (.inl hcased)
  · exact h

theorem textContent_append (name cs : List Char) :
    textContent name cs ++ cs.drop (textContent name cs).length = cs := by
  induction cs with
  | nil => rfl
  | cons c cs ih =>
    rw [textContent]
    split
    · rfl
    · exact congrArg (List.cons c) ih

/-- The content of an element of text is followed by its end tag, or by nothing. -/
theorem closesText_behind (name cs : List Char) :
    cs.drop (textContent name cs).length = [] ∨
      closesText name (cs.drop (textContent name cs).length) = true := by
  induction cs with
  | nil => exact .inl rfl
  | cons c cs ih =>
    rw [textContent]
    split
    · rename_i hcloses
      exact .inr hcloses
    · exact ih

/-- The end tag of an element with a letter in front of its name starts with a letter, too. -/
theorem letter_of_closesText {name cs : List Char} (hname : name.head?.any Char.isAlpha = true)
    (h : closesText name cs = true) :
    ∃ c rest, cs = '<' :: '/' :: c :: rest ∧ c.isAlpha = true := by
  unfold closesText at h
  split at h
  · rename_i rest
    rw [Bool.and_eq_true, beq_iff_eq] at h
    obtain ⟨hlower, -⟩ := h
    cases name with
    | nil => cases hname
    | cons d name =>
      cases rest with
      | nil => cases hlower
      | cons c rest =>
        obtain ⟨hc, -⟩ := List.cons.inj hlower
        exact ⟨c, rest, rfl, isAlpha_of_toLower (hc ▸ hname)⟩
  · cases h

theorem mem_textElements_of_enter {ctx behind : Context} {tag : StartTag} {name : String}
    (h : ctx.enter tag = .ok (behind, some name)) : name ∈ textElements := by
  unfold Context.enter at h
  dsimp only at h
  cases hguard : ctx.guard.enter (String.ofList (Text.asciiLower tag.name)) with
  | error e =>
    rw [hguard] at h
    cases h
  | ok guard =>
    rw [hguard] at h
    simp only [Except.map, Except.ok.injEq, Prod.mk.injEq] at h
    obtain ⟨-, htext⟩ := h
    split at htext
    · rename_i hcontains
      cases htext
      rw [Bool.and_eq_true] at hcontains
      exact List.contains_iff_mem.mp hcontains.2
    · cases htext

theorem contentOf_append (text? : Option String) (cs : List Char) :
    contentOf text? cs ++ cs.drop (contentOf text? cs).length = cs := by
  cases text? with
  | none => rfl
  | some name =>
    rw [contentOf]
    split
    · rw [List.drop_length, List.append_nil]
    · exact textContent_append _ _

theorem contentOf_waits {ctx behind : Context} {tag : StartTag} {text? : Option String}
    (h : ctx.enter tag = .ok (behind, text?)) (cs : List Char) :
    Waits (contentOf text? cs) (cs.drop (contentOf text? cs).length) := by
  cases text? with
  | none => exact .inl rfl
  | some name =>
    have hletter : ∀ name ∈ textElements, name.toList.head?.any Char.isAlpha = true := by decide
    right
    rw [contentOf]
    split
    · exact .inl List.drop_length
    · rcases closesText_behind name.toList cs with hnil | hcloses
      · exact .inl hnil
      · exact .inr (letter_of_closesText (hletter name (mem_textElements_of_enter h)) hcloses)

/-! ## Writing -/

/-- No search for a tag that starts in a stretch goes on behind it: it ends with an angle, it is a
single character that starts no tag, or nothing follows. -/
def Stretch.Closed (s : Stretch) (back : List Char) : Prop :=
  back = [] ∨ s.chars.getLast? = some '>' ∨
    ∃ c, s.chars = [c] ∧ (c = '<' → ∀ d ∈ back.head?, d.isAlpha = false)

section

variable {σ : Type} (change : σ → StartTag → Option StartTag × σ)

/-- A stretch as it is written if its tag is changed. -/
def Stretch.write (state : σ) (s : Stretch) : List Char :=
  match s.tag with
  | none => s.chars
  | some tag => ((change state tag).1.map StartTag.chars).getD s.chars

/-- The state behind a stretch. -/
def Stretch.next (state : σ) (s : Stretch) : σ :=
  match s.tag with
  | none => state
  | some tag => (change state tag).2

/-- Stretches as they are written if their tags are changed, one after another. -/
def write : σ → List Stretch → List Char
  | _, [] => []
  | state, s :: rest => s.write change state ++ write (s.next change state) rest

/-- The state behind stretches. -/
def stateBehind (state : σ) (list : List Stretch) : σ := list.foldl (Stretch.next change) state

theorem write_append (state : σ) (a b : List Stretch) :
    write change state (a ++ b) =
      write change state a ++ write change (stateBehind change state a) b := by
  induction a generalizing state with
  | nil => rfl
  | cons s rest ih =>
    rw [List.cons_append, write, write, ih, List.append_assoc]
    rfl

end

/-! ## Steps -/

/-- A stretch leads from one place of the markup to another one. -/
structure Stretch.Leads (s : Stretch) (ctx : Context) (held cs : List Char) (ctx' : Context)
    (held' cs' : List Char) : Prop where
  waits : Waits held' cs'
  text : s.chars ++ (held' ++ cs') = held ++ cs
  closed : s.Closed (held' ++ cs')
  edit : ∀ {σ : Type} (change : σ → StartTag → Option StartTag × σ) (state : σ) (fuel : Nat),
    (editFrom change (fuel + 1) state ctx cs).map (held ++ ·) =
      (editFrom change fuel (s.next change state) ctx' cs').map
        (s.write change state ++ held' ++ ·)

theorem exists_of_map_ok {ε α β : Type} {x : Except ε α} {f : α → β} {b : β}
    (h : x.map f = .ok b) : ∃ a, x = .ok a ∧ f a = b := by
  cases x with
  | error e => cases h
  | ok a => exact ⟨a, rfl, Except.ok.inj h⟩

theorem map_map_except {ε α β γ : Type} (x : Except ε α) (f : α → β) (g : β → γ) :
    (x.map f).map g = x.map (g ∘ f) := by
  cases x <;> rfl

theorem map_congr_except {ε α β : Type} {x : Except ε α} {f g : α → β} (h : ∀ a, f a = g a) :
    x.map f = x.map g := by
  rw [funext h]

/-- In front of a start tag nothing is held. -/
theorem held_eq_nil_of_start {realm : Realm} {held cs : List Char} {tag : StartTag} {length : Nat}
    (hheld : Waits held ('<' :: cs)) (hpiece : piece realm ('<' :: cs) = (.start tag, length)) :
    held = [] := by
  rcases hheld with hnil | hnil | ⟨c, rest, heq, hletter⟩
  · exact hnil
  · cases hnil
  · cases heq
    simp only [piece, hletter, if_true] at hpiece
    split at hpiece <;> cases hpiece

/-- A piece with what is held in front of it is closed. -/
theorem raw_closed {realm : Realm} {held cs : List Char} {found : Piece} {length : Nat}
    (hheld : Waits held ('<' :: cs)) (hpiece : piece realm ('<' :: cs) = (found, length))
    (tag : Option StartTag) :
    (Stretch.mk tag (held ++ ('<' :: cs).take length)).Closed (('<' :: cs).drop length) := by
  have hends := piece_closed realm cs
  rw [hpiece] at hends
  rcases hends with (hnil | hangle) | ⟨rfl, hletter, hstop⟩
  · exact .inl hnil
  · right
    left
    rw [List.getLast?_append, hangle]
    rfl
  · -- Content is held in front of an end tag only, and an angle alone does not begin one.
    rcases hheld with rfl | hnil | ⟨c, rest, heq, -⟩
    · exact .inr (.inr ⟨'<', rfl, fun _ => hletter⟩)
    · cases hnil
    · cases heq
      exact absurd rfl (hstop c rest)

theorem raw_text (held cs : List Char) (length : Nat) :
    held ++ cs.take length ++ cs.drop length = held ++ cs := by
  rw [List.append_assoc, List.take_append_drop]

/-- A character that is no angle is passed over. -/
theorem leads_char (ctx : Context) {c : Char} (hc : c ≠ '<') (cs : List Char) :
    (Stretch.mk none [c]).Leads ctx [] (c :: cs) ctx [] cs where
  waits := .inl rfl
  text := rfl
  closed := .inr (.inr ⟨c, rfl, fun heq => absurd heq hc⟩)
  edit := by
    intro σ change state fuel
    rw [editFrom, if_pos (by simpa using hc), map_map_except]
    rfl

/-- The context behind a piece that is no start tag. -/
def Piece.behind (ctx : Context) : Piece → Context
  | .stop name => ctx.leave name
  | _ => ctx

/-- A piece that is no start tag is passed over. -/
theorem leads_passed {ctx : Context} {held cs : List Char} {found : Piece} {length : Nat}
    (hheld : Waits held ('<' :: cs)) (hpiece : piece ctx.realm ('<' :: cs) = (found, length))
    (hfound : ∀ tag, found ≠ .start tag) :
    (Stretch.mk none (held ++ ('<' :: cs).take length)).Leads ctx held ('<' :: cs)
      (found.behind ctx) [] (('<' :: cs).drop length) where
  waits := .inl rfl
  text := raw_text held _ length
  closed := raw_closed hheld hpiece none
  edit := by
    intro σ change state fuel
    rw [editFrom, if_neg (by decide), hpiece]
    cases found with
    | start tag => exact absurd rfl (hfound tag)
    | stop name =>
      dsimp only
      rw [map_map_except]
      exact map_congr_except fun x => by simp [Stretch.write]
    | other =>
      dsimp only
      rw [map_map_except]
      exact map_congr_except fun x => by simp [Stretch.write]

/-- A start tag is given to the change, and the content of its element is held if it is text. -/
theorem leads_start {ctx ctx' : Context} {cs : List Char} {tag : StartTag} {length : Nat}
    {text? : Option String} (hpiece : piece ctx.realm ('<' :: cs) = (.start tag, length))
    (henter : ctx.enter tag = .ok (ctx', text?)) :
    (Stretch.mk (some tag) (('<' :: cs).take length)).Leads ctx [] ('<' :: cs) ctx'
      (contentOf text? (('<' :: cs).drop length))
      ((('<' :: cs).drop length).drop (contentOf text? (('<' :: cs).drop length)).length) where
  waits := contentOf_waits henter _
  text := by
    rw [contentOf_append]
    exact raw_text [] _ length
  closed := by
    rw [contentOf_append]
    exact raw_closed (.inl rfl) hpiece (some tag)
  edit := by
    intro σ change state fuel
    rw [editFrom, if_neg (by decide), hpiece]
    dsimp only
    rw [henter]
    cases text? with
    | none =>
      dsimp only
      rw [map_map_except]
      exact map_congr_except fun x => by simp [Stretch.write, contentOf]
    | some name =>
      dsimp only
      rw [map_map_except]
      exact map_congr_except fun x => by simp [Stretch.write, contentOf]

/-- The reading goes on from place to place, or it stops at a tag that the editing stops at. -/
theorem stretchesFrom_step (fuel : Nat) (ctx : Context) {held cs : List Char} {c : Char}
    (hheld : Waits held (c :: cs)) :
    (∃ s ctx' held' cs', stretchesFrom (fuel + 1) ctx held (c :: cs) =
        (stretchesFrom fuel ctx' held' cs').map (s :: ·) ∧
      s.Leads ctx held (c :: cs) ctx' held' cs') ∨
      ∃ e, stretchesFrom (fuel + 1) ctx held (c :: cs) = .error e ∧
        ∀ {σ : Type} (change : σ → StartTag → Option StartTag × σ) (state : σ),
          editFrom change (fuel + 1) state ctx (c :: cs) = .error e := by
  rw [stretchesFrom]
  split
  · rename_i hc
    have hne : c ≠ '<' := by simpa using hc
    obtain rfl : held = [] := by
      rcases hheld with hnil | hnil | ⟨d, more, heq, -⟩
      · exact hnil
      · cases hnil
      · exact absurd (List.cons.inj heq).1 hne
    exact .inl ⟨_, ctx, [], cs, rfl, leads_char ctx hne cs⟩
  · rename_i hc
    obtain rfl : c = '<' := by simpa using hc
    cases hpiece : piece ctx.realm ('<' :: cs) with
    | mk found length =>
      cases found with
      | other => exact .inl ⟨_, ctx, [], _, rfl, leads_passed hheld hpiece nofun⟩
      | stop name => exact .inl ⟨_, ctx.leave name, [], _, rfl, leads_passed hheld hpiece nofun⟩
      | start tag =>
        cases henter : ctx.enter tag with
        | error e =>
          refine .inr ⟨e, by simp only [henter], fun change state => ?_⟩
          rw [editFrom, if_neg hc, hpiece]
          simp only [henter]
        | ok entered =>
          obtain ⟨ctx', text?⟩ := entered
          obtain rfl := held_eq_nil_of_start hheld hpiece
          refine .inl ⟨_, ctx', _, _, ?_, leads_start hpiece henter⟩
          simp only [henter, List.nil_append]

/-! ## All of the markup -/

/-- Each stretch is closed in front of those behind it. -/
def AllClosed : List Stretch → Prop
  | [] => True
  | s :: rest => s.Closed (textOf rest) ∧ AllClosed rest

theorem AllClosed.behind (front : List Stretch) {back : List Stretch}
    (h : AllClosed (front ++ back)) : AllClosed back := by
  induction front with
  | nil => exact h
  | cons s rest ih => exact ih h.2

/-- The stretches of markup are all of it, and each is closed in front of those behind it. -/
theorem stretchesFrom_spec {fuel : Nat} {ctx : Context} {held cs : List Char}
    {list : List Stretch} (hheld : Waits held cs)
    (h : stretchesFrom fuel ctx held cs = .ok list) :
    textOf list = held ++ cs ∧ AllClosed list := by
  induction fuel generalizing ctx held cs list with
  | zero =>
    cases h
    exact ⟨List.append_nil _, .inl rfl, trivial⟩
  | succ fuel ih =>
    cases cs with
    | nil =>
      cases h
      exact ⟨rfl, .inl rfl, trivial⟩
    | cons c cs =>
      rcases stretchesFrom_step fuel ctx hheld with
        ⟨s, ctx', held', cs', hread, hstep⟩ | ⟨e, hread, -⟩
      · rw [hread] at h
        obtain ⟨rest, hrest, rfl⟩ := exists_of_map_ok h
        obtain ⟨htext, hclosed⟩ := ih hstep.waits hrest
        refine ⟨?_, ?_, hclosed⟩
        · rw [textOf_cons, htext, hstep.text]
        · rw [htext]
          exact hstep.closed
      · rw [hread] at h
        cases h

theorem editFrom_eq_write {σ : Type} (change : σ → StartTag → Option StartTag × σ) (state : σ)
    (fuel : Nat) (ctx : Context) {held cs : List Char} (hheld : Waits held cs) :
    (editFrom change fuel state ctx cs).map (held ++ ·) =
      (stretchesFrom fuel ctx held cs).map (write change state) := by
  induction fuel generalizing state ctx held cs with
  | zero => simp [editFrom, stretchesFrom, write, Stretch.write, Except.map]
  | succ fuel ih =>
    cases cs with
    | nil => simp [editFrom, stretchesFrom, write, Stretch.write, Except.map]
    | cons c cs =>
      rcases stretchesFrom_step fuel ctx hheld with
        ⟨s, ctx', held', cs', hread, hstep⟩ | ⟨e, hread, hedit⟩
      · have hbehind := congrArg (Except.map (s.write change state ++ ·))
          (ih (s.next change state) ctx' hstep.waits)
        rw [map_map_except, map_map_except] at hbehind
        rw [hread, hstep.edit, map_map_except]
        refine Eq.trans (map_congr_except fun x => ?_) hbehind
        exact List.append_assoc _ _ _
      · rw [hread, hedit]
        rfl

theorem stretches_closed {cs : List Char} {list : List Stretch} (h : stretches cs = .ok list) :
    AllClosed list := (stretchesFrom_spec (.inl rfl) h).2

/-- Editing is reading the stretches and writing them with their tags changed. -/
theorem edit_eq_write {σ : Type} (change : σ → StartTag → Option StartTag × σ) (state : σ)
    (cs : List Char) : edit change state cs = (stretches cs).map (write change state) := by
  have hall := editFrom_eq_write change state (cs.length + 1) .start (.inl rfl : Waits [] cs)
  have hnil : (edit change state cs).map ([] ++ ·) = edit change state cs := by
    cases edit change state cs <;> rfl
  rw [← hnil]
  exact hall

end DocPages.Markup
