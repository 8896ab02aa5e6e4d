-- Markup with its pairs of braces broken. Its halves are broken one by one, with
-- a break between them where they meet in a pair, so a text without braces is
-- found in it where it is found in the markup itself, and nowhere else; and
-- nothing in it can be read as the start or the end of an interpolation.
import DocPages.TemplateTokens
import Mathlib.Data.List.Chain
import Mathlib.Data.List.Infix

namespace DocPages.TemplateTokens

variable {c : Char} {a b cs w front back : List Char}

/-- No brace stands in the text. -/
def Plain (cs : List Char) : Prop := ∀ c ∈ cs, isBrace c = false

instance (cs : List Char) : Decidable (Plain cs) :=
  decidable_of_iff (cs.any isBrace = false) (by simp [Plain])

theorem plain_append : Plain (a ++ b) ↔ Plain a ∧ Plain b := List.forall_mem_append

theorem breakPairs_cons (h : ∀ d ∈ cs.head?, (isBrace c && c == d) = false) :
    breakPairs (c :: cs) = c :: breakPairs cs := by
  cases cs with
  | nil => rfl
  | cons d rest =>
    rw [breakPairs, h d rfl]
    rfl

theorem head?_breakPairs (cs : List Char) : (breakPairs cs).head? = cs.head? := by
  match cs with
  | [] => rfl
  | [c] => rfl
  | c :: d :: rest =>
    rw [breakPairs]
    split <;> rfl

/-! ## Two texts in a row -/

/-- Two texts meet in a pair: one ends in a brace, and the other begins with the same brace. -/
def MeetInPair (a b : List Char) : Prop :=
  ∃ c, isBrace c = true ∧ a.getLast? = some c ∧ b.head? = some c

instance (a b : List Char) : Decidable (MeetInPair a b) :=
  decidable_of_iff (a.getLast?.any isBrace = true ∧ a.getLast? = b.head?) <| by
    unfold MeetInPair
    cases a.getLast? with
    | none => simp
    | some c =>
      constructor
      · rintro ⟨hc, hb⟩
        exact ⟨c, hc, rfl, hb.symm⟩
      · rintro ⟨d, hd, hcd, hb⟩
        cases hcd
        exact ⟨hd, hb.symm⟩

theorem meetInPair_singleton_iff {d : Char} :
    MeetInPair [c] (d :: b) ↔ (isBrace c && c == d) = true := by
  rw [Bool.and_eq_true, beq_iff_eq]
  constructor
  · rintro ⟨e, he, hc, hd⟩
    cases hc
    cases hd
    exact ⟨he, rfl⟩
  · rintro ⟨hc, rfl⟩
    exact ⟨c, hc, rfl, rfl⟩

theorem meetInPair_cons_iff (h : a ≠ []) : MeetInPair (c :: a) b ↔ MeetInPair a b := by
  unfold MeetInPair
  rw [List.getLast?_cons_of_ne_nil h]

/-- What is put between two texts: a break, if they meet in a pair. -/
def joint (a b : List Char) : List Char := if MeetInPair a b then breakMark else []

theorem mem_joint (h : c ∈ joint a b) : c ∈ breakMark := by
  unfold joint at h
  split at h
  · exact h
  · cases h

@[simp]
theorem joint_nil_left (b : List Char) : joint [] b = [] := if_neg (by simp [MeetInPair])

@[simp]
theorem joint_nil_right (a : List Char) : joint a [] = [] := if_neg (by simp [MeetInPair])

theorem joint_cons (h : a ≠ []) (b : List Char) : joint (c :: a) b = joint a b := by
  simp only [joint, meetInPair_cons_iff h]

@[simp]
theorem joint_singleton_append (c d : Char) (a b : List Char) :
    joint [c] (d :: (a ++ b)) = joint [c] (d :: a) := by
  simp only [joint, meetInPair_singleton_iff]

theorem breakPairs_cons_eq (c : Char) (cs : List Char) :
    breakPairs (c :: cs) = c :: (joint [c] cs ++ breakPairs cs) := by
  cases cs with
  | nil => simp
  | cons d rest =>
    simp only [breakPairs, joint, meetInPair_singleton_iff]
    split <;> rfl

theorem length_le_breakPairs (cs : List Char) : cs.length ≤ (breakPairs cs).length := by
  induction cs with
  | nil => exact Nat.le_refl _
  | cons c cs ih =>
    rw [breakPairs_cons_eq, List.length_cons, List.length_cons, List.length_append]
    omega

theorem mem_breakPairs (h : c ∈ breakPairs cs) : c ∈ cs ∨ c ∈ breakMark := by
  induction cs with
  | nil => cases h
  | cons d cs ih =>
    rw [breakPairs_cons_eq, List.mem_cons, List.mem_append] at h
    rcases h with rfl | h | h
    · exact Or.inl List.mem_cons_self
    · exact Or.inr (mem_joint h)
    · exact (ih h).imp_left (List.mem_cons_of_mem d)

/-- The pairs of two texts in a row are those of each, and the one in which they meet. -/
theorem breakPairs_append_eq (a b : List Char) :
    breakPairs (a ++ b) = breakPairs a ++ (joint a b ++ breakPairs b) := by
  induction a with
  | nil => simp
  | cons c a ih =>
    cases a with
    | nil => exact breakPairs_cons_eq c b
    | cons d a =>
      have hlast : joint (c :: d :: a) b = joint (d :: a) b := joint_cons (List.cons_ne_nil _ _) b
      rw [List.cons_append, breakPairs_cons_eq, ih, hlast, breakPairs_cons_eq c (d :: a)]
      simp

/-- No break is put between two texts that do not meet in a pair. -/
theorem breakPairs_append (h : ∀ d ∈ b.head?, isBrace d = false) :
    breakPairs (a ++ b) = breakPairs a ++ breakPairs b := by
  have hmeet : ¬ MeetInPair a b := by
    rintro ⟨c, hc, -, hb⟩
    rw [h c hb] at hc
    cases hc
  rw [breakPairs_append_eq, joint, if_neg hmeet, List.nil_append]

theorem length_breakPairs_le_append (a b : List Char) :
    (breakPairs a).length ≤ (breakPairs (a ++ b)).length := by
  rw [breakPairs_append_eq, List.length_append]
  exact Nat.le_add_right _ _

theorem breakPairs_append_of_plain (h : Plain a) :
    breakPairs (a ++ b) = a ++ breakPairs b := by
  induction a with
  | nil => rfl
  | cons c a ih =>
    rw [Plain, List.forall_mem_cons] at h
    have hfirst : breakPairs (c :: (a ++ b)) = c :: breakPairs (a ++ b) :=
      breakPairs_cons fun d _ => by rw [h.1, Bool.false_and]
    rw [List.cons_append, hfirst, ih h.2, List.cons_append]

/-- A text without braces stands at the front of markup whose pairs are broken if and only if it
stands there already. -/
theorem prefix_breakPairs_iff (hw : Plain w) : w <+: breakPairs cs ↔ w <+: cs := by
  induction w generalizing cs with
  | nil => simp
  | cons d w ih =>
    rw [Plain, List.forall_mem_cons] at hw
    cases cs with
    | nil => rfl
    | cons c cs =>
      by_cases hc : c = d
      · have hbreak : breakPairs (c :: cs) = c :: breakPairs cs :=
          breakPairs_cons fun e _ => by rw [hc, hw.1, Bool.false_and]
        rw [hbreak, List.cons_prefix_cons, List.cons_prefix_cons, ih hw.2]
      · have hhead : ∀ text : List Char, text.head? = some c → ¬ d :: w <+: text := by
          rintro text htext ⟨rest, rfl⟩
          exact hc (Option.some.inj htext).symm
        exact iff_of_false (hhead _ (head?_breakPairs _)) (hhead _ rfl)

/-! ## Places in broken markup -/

/-- Where broken markup is cut in two, the markup itself is cut, and what stands between its
halves. -/
theorem exists_of_breakPairs_eq_append (h : breakPairs cs = front ++ back) :
    ∃ a b s t, cs = a ++ b ∧ joint a b = s ++ t ∧ front = breakPairs a ++ s ∧
      back = t ++ breakPairs b := by
  induction cs generalizing front with
  | nil =>
    obtain ⟨rfl, rfl⟩ := List.append_eq_nil_iff.mp h.symm
    exact ⟨[], [], [], [], rfl, rfl, rfl, rfl⟩
  | cons c cs ih =>
    cases front with
    | nil => exact ⟨[], c :: cs, [], [], rfl, joint_nil_left _, rfl, h.symm⟩
    | cons d front =>
      rw [breakPairs_cons_eq, List.cons_append, List.cons.injEq] at h
      obtain ⟨rfl, h⟩ := h
      rcases List.append_eq_append_iff.mp h with ⟨u, hfront, hu⟩ | ⟨t, hjoint, hback⟩
      · obtain ⟨a, b, s, t, rfl, hst, rfl, rfl⟩ := ih hu
        cases a with
        | nil =>
          -- The cut is right behind the first character and its break.
          rw [joint_nil_left] at hst
          obtain ⟨rfl, rfl⟩ := List.append_eq_nil_iff.mp hst.symm
          refine ⟨[c], b, joint [c] b, [], rfl, (List.append_nil _).symm, ?_, rfl⟩
          rw [hfront]
          simp
        | cons e a =>
          refine ⟨c :: e :: a, b, s, t, rfl, ?_, ?_, rfl⟩
          · rw [joint_cons (List.cons_ne_nil _ _), hst]
          · rw [hfront, breakPairs_cons_eq c (e :: a)]
            simp
      · exact ⟨[c], cs, front, t, rfl, hjoint, rfl, hback⟩

/-- An angle that does not open a break has been in the markup before. -/
theorem exists_of_angle {i : Nat} (hc : c ≠ 'w') (h : '<' :: c :: w <+: (breakPairs cs).drop i) :
    ∃ a b, cs = a ++ '<' :: b ∧ (breakPairs a).length = i := by
  obtain ⟨a, b, s, t, rfl, hst, hfront, hback⟩ :=
    exists_of_breakPairs_eq_append (List.take_append_drop i (breakPairs cs)).symm
  rw [hback] at h
  have hhead : '<' :: c :: w <+: breakPairs b → b.head? = some '<' := by
    rintro ⟨rest, hrest⟩
    rw [← head?_breakPairs, ← hrest]
    rfl
  by_cases hmeet : MeetInPair a b
  · -- Only the first character of a break is an angle, and a `w` follows it; a brace stands behind.
    rw [joint, if_pos hmeet] at hst
    exfalso
    cases t with
    | nil =>
      obtain ⟨d, hd, -, hb⟩ := hmeet
      rw [hhead h] at hb
      cases hb
      cases hd
    | cons d t =>
      obtain ⟨rfl, hrest⟩ := List.cons_prefix_cons.mp h
      cases s with
      | nil =>
        obtain rfl := (List.cons.inj hst).2
        exact hc (List.cons_prefix_cons.mp hrest).1
      | cons e s =>
        have hmem : '<' ∈ breakMark.tail := by
          rw [hst]
          simp
        exact absurd hmem (by decide)
  · rw [joint, if_neg hmeet] at hst
    obtain ⟨rfl, rfl⟩ := List.append_eq_nil_iff.mp hst.symm
    obtain ⟨b, rfl⟩ := List.head?_eq_some_iff.mp (hhead h)
    refine ⟨a, b, rfl, ?_⟩
    have hle : i ≤ (breakPairs (a ++ '<' :: b)).length := by
      by_contra hlt
      rw [List.drop_of_length_le (Nat.le_of_not_le hlt)] at hback
      exact breakPairs_ne_nil (List.cons_ne_nil _ _) hback.symm
    rw [List.append_nil] at hfront
    rw [← hfront, List.length_take_of_le hle]

/-- A text without braces that is no part of a break stands in broken markup exactly where it stands
in the markup itself. -/
theorem breakPairs_eq_append_iff (hw : Plain w) (hmark : ¬ w <:+: breakMark) :
    breakPairs cs = front ++ (w ++ back) ↔
      ∃ a b, cs = a ++ (w ++ b) ∧ front = breakPairs a ∧ back = breakPairs b := by
  constructor
  · intro h
    obtain ⟨a, b, s, t, rfl, hst, rfl, hback⟩ := exists_of_breakPairs_eq_append h
    by_cases hmeet : MeetInPair a b
    · -- A brace stands behind what is left of the break, so the text would be a part of it.
      rw [joint, if_pos hmeet] at hst
      obtain ⟨c, hc, -, hb⟩ := hmeet
      have hpart : ∀ u, ¬ w ++ u = t := by
        rintro u rfl
        exact hmark ⟨s, u, by rw [hst, List.append_assoc]⟩
      rcases List.append_eq_append_iff.mp hback with ⟨u, ht, -⟩ | ⟨u, rfl, hu⟩
      · exact absurd ht.symm (hpart u)
      · cases u with
        | nil => exact absurd (by simp) (hpart [])
        | cons d u =>
          have hhead := head?_breakPairs b
          rw [hu, hb] at hhead
          obtain rfl : d = c := Option.some.inj hhead
          rw [hw d (List.mem_append_right _ List.mem_cons_self)] at hc
          cases hc
    · rw [joint, if_neg hmeet] at hst
      obtain ⟨rfl, rfl⟩ := List.append_eq_nil_iff.mp hst.symm
      rw [List.nil_append] at hback
      obtain ⟨b, rfl⟩ := (prefix_breakPairs_iff hw).mp ⟨back, hback⟩
      rw [breakPairs_append_of_plain hw, List.append_cancel_left_eq] at hback
      exact ⟨a, b, rfl, List.append_nil _, hback⟩
  · rintro ⟨a, b, rfl, rfl, rfl⟩
    rw [breakPairs_append, breakPairs_append_of_plain hw]
    intro d hd
    cases w with
    | nil => exact absurd List.nil_infix hmark
    | cons e w =>
      obtain rfl : e = d := Option.some.inj hd
      exact hw e List.mem_cons_self

/-! ## Tokens -/

/-- What a template compiler reads as the start or the end of an interpolation. -/
def tokens : List (List Char) := [['\x7b', '\x7b'], ['\x7d', '\x7d']]

/-- No token stands in the text. -/
def Tokenless (cs : List Char) : Prop := ∀ token ∈ tokens, ¬ token <:+: cs

instance (cs : List Char) : Decidable (Tokenless cs) :=
  inferInstanceAs (Decidable (∀ token ∈ tokens, ¬ token <:+: cs))

theorem mem_tokens_iff {token : List Char} :
    token ∈ tokens ↔ ∃ c, isBrace c = true ∧ token = [c, c] := by
  unfold tokens isBrace
  simp

/-- A text is without tokens if no two equal braces stand next to each other. -/
theorem tokenless_iff : Tokenless cs ↔ cs.IsChain fun c d => (isBrace c && c == d) = false := by
  rw [List.isChain_iff_forall_rel_of_append_cons_cons]
  constructor
  · intro h c d front back hcs
    by_contra hpair
    rw [Bool.not_eq_false, Bool.and_eq_true, beq_iff_eq] at hpair
    obtain ⟨hc, rfl⟩ := hpair
    refine h [c, c] (mem_tokens_iff.mpr ⟨c, hc, rfl⟩) ⟨front, back, ?_⟩
    rw [hcs, List.append_assoc]
    rfl
  · rintro h token htoken ⟨front, back, hcs⟩
    obtain ⟨c, hc, rfl⟩ := mem_tokens_iff.mp htoken
    rw [List.append_assoc] at hcs
    have hpair := h hcs.symm
    rw [hc, beq_self_eq_true] at hpair
    cases hpair

theorem tokenless_of_plain (h : Plain cs) : Tokenless cs := by
  rintro token htoken ⟨front, back, rfl⟩
  obtain ⟨c, hc, rfl⟩ := mem_tokens_iff.mp htoken
  rw [h c (by simp)] at hc
  cases hc

/-- A text put behind one without tokens brings in none if it has none itself and does not start
with a brace. -/
theorem Tokenless.append (ha : Tokenless a) (hb : Tokenless b)
    (h : ∀ d ∈ b.head?, isBrace d = false) : Tokenless (a ++ b) := by
  rw [tokenless_iff] at ha hb ⊢
  refine ha.append hb fun c _ d hd => ?_
  by_cases hcd : c = d
  · rw [hcd, h d hd, Bool.false_and]
  · rw [beq_false_of_ne hcd, Bool.and_false]

theorem Tokenless.append_plain (ha : Tokenless a) (hb : Plain b) : Tokenless (a ++ b) :=
  ha.append (tokenless_of_plain hb) fun d hd => hb d (List.mem_of_head? hd)

theorem Tokenless.plain_append (ha : Plain a) (hb : Tokenless b) : Tokenless (a ++ b) := by
  rw [tokenless_iff] at hb ⊢
  refine (tokenless_iff.mp (tokenless_of_plain ha)).append hb fun c hc d _ => ?_
  rw [ha c (List.mem_of_getLast? hc), Bool.false_and]

/-- Breaking the pairs leaves no token. -/
theorem tokenless_breakPairs (cs : List Char) : Tokenless (breakPairs cs) := by
  have hmark : Plain breakMark := by decide
  induction cs with
  | nil => exact tokenless_of_plain (List.forall_mem_nil _)
  | cons c cs ih =>
    have hfirst : Tokenless [c] := tokenless_iff.mpr (List.isChain_singleton c)
    cases cs with
    | nil => exact hfirst
    | cons d rest =>
      rw [breakPairs]
      split
      · -- A break begins with an angle, so no pair arises in front of it.
        refine hfirst.append (ih.plain_append hmark) fun e he => ?_
        obtain rfl : '<' = e := Option.some.inj he
        rfl
      · rename_i hpair
        rw [Bool.not_eq_true] at hpair
        rw [tokenless_iff] at ih ⊢
        refine List.isChain_cons.mpr ⟨fun e he => ?_, ih⟩
        rw [head?_breakPairs] at he
        obtain rfl : d = e := Option.some.inj he
        exact hpair

end DocPages.TemplateTokens
