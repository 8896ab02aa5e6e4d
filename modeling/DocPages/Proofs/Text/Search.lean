-- Where a search stops. What is found is what stands in front of the first place
-- of the needle, and a needle cannot be found in front of the first place at
-- which its last character stands. Where nothing is found, nothing is replaced.
import DocPages.Text.Search
import Mathlib.Data.List.Chain
import Mathlib.Data.List.Infix
import Mathlib.Logic.Basic

namespace DocPages.Text

theorem startsWith_iff {needle cs : List Char} : startsWith needle cs = true ↔ needle <+: cs :=
  List.isPrefixOf_iff_prefix

/-- A search fails only where the needle does not occur. -/
theorem before?_eq_none_iff {needle cs : List Char} :
    before? needle cs = none ↔ ¬ needle <:+: cs := by
  induction cs with
  | nil =>
    rw [before?, List.infix_nil]
    cases needle <;> simp
  | cons c cs ih =>
    rw [before?, List.infix_cons_iff, not_or, ← startsWith_iff, ← ih]
    split
    · rename_i hhere
      simp [hhere]
    · rename_i hnot
      simp [hnot]

theorem contains_iff {needle cs : List Char} : contains needle cs = true ↔ needle <:+: cs := by
  unfold contains
  rw [Option.isSome_iff_ne_none, ne_eq, before?_eq_none_iff, not_not]

theorem contains_eq_false_iff {needle cs : List Char} :
    contains needle cs = false ↔ ¬ needle <:+: cs := by
  rw [← Bool.not_eq_true, contains_iff]

/-- A search gives the text in front of the first place of the needle. -/
theorem before?_eq_some_iff {needle cs front : List Char} :
    before? needle cs = some front ↔
      front ++ needle <+: cs ∧ ∀ i < front.length, ¬ needle <+: cs.drop i := by
  induction cs generalizing front with
  | nil =>
    rw [before?, List.prefix_nil, List.append_eq_nil_iff]
    cases needle <;> cases front <;> simp
  | cons c cs ih =>
    rw [before?]
    split
    · rename_i hhere
      rw [startsWith_iff] at hhere
      constructor
      · intro h
        cases h
        exact ⟨hhere, nofun⟩
      · rintro ⟨-, hfirst⟩
        cases front with
        | nil => rfl
        | cons d front => exact absurd hhere (hfirst 0 (Nat.zero_lt_succ _))
    · rename_i hnot
      rw [startsWith_iff] at hnot
      rw [Option.map_eq_some_iff]
      constructor
      · rintro ⟨rest, hrest, rfl⟩
        obtain ⟨hstart, hfirst⟩ := ih.mp hrest
        refine ⟨(List.prefix_cons_inj c).mpr hstart, fun i hi => ?_⟩
        cases i with
        | zero => exact hnot
        | succ i => exact hfirst i (Nat.lt_of_succ_lt_succ hi)
      · rintro ⟨hstart, hfirst⟩
        cases front with
        | nil => exact absurd hstart hnot
        | cons d front =>
          obtain ⟨rfl, hrest⟩ := List.cons_prefix_cons.mp hstart
          refine ⟨front, ih.mpr ⟨hrest, fun i hi => ?_⟩, rfl⟩
          exact hfirst (i + 1) (Nat.succ_lt_succ hi)

/-- What stands in front of a needle that has been found is followed by the needle. -/
theorem prefix_of_before? {needle cs front : List Char} (h : before? needle cs = some front) :
    front ++ needle <+: cs := (before?_eq_some_iff.mp h).1

/-- A text is cut at a needle: what is left stands in front of its first place, or is all of the text
if the needle has no place in it. -/
def CutAt (needle cs front : List Char) : Prop :=
  (∃ back, cs = front ++ (needle ++ back)) ∧
      (∀ a b, cs = a ++ (needle ++ b) → front.length ≤ a.length) ∨
    ¬ needle <:+: cs ∧ front = cs

theorem before?_eq_some_iff_first {needle cs front : List Char} :
    before? needle cs = some front ↔ (∃ back, cs = front ++ (needle ++ back)) ∧
      ∀ a b, cs = a ++ (needle ++ b) → front.length ≤ a.length := by
  have hprefix : front ++ needle <+: cs ↔ ∃ back, cs = front ++ (needle ++ back) := by
    simp only [List.IsPrefix, List.append_assoc, eq_comm]
  rw [before?_eq_some_iff, hprefix]
  refine and_congr_right fun _ => ⟨fun h a b hab => ?_, fun h i hi hplace => ?_⟩
  · by_contra hlt
    refine h a.length (Nat.lt_of_not_le hlt) ?_
    rw [hab, List.drop_left]
    exact List.prefix_append _ _
  · obtain ⟨b, hb⟩ := hplace
    have hle := h (cs.take i) b (by rw [hb, List.take_append_drop])
    have hi' := List.length_take_le i cs
    omega

/-- A search cuts a text at its needle. -/
theorem cutAt_iff {needle cs front : List Char} :
    CutAt needle cs front ↔ (before? needle cs).getD cs = front := by
  unfold CutAt
  rw [← before?_eq_some_iff_first, ← before?_eq_none_iff]
  cases before? needle cs with
  | none => simp [eq_comm]
  | some found => simp

/-- A needle is found where its last character stands for the first time. -/
theorem before?_of_not_mem {front : List Char} {q : Char} (hfront : q ∉ front)
    (stem : List Char) (hstem : q ∉ stem) (back : List Char) :
    before? (stem ++ [q]) (front ++ (stem ++ q :: back)) = some front := by
  induction front with
  | nil =>
    have hhere : startsWith (stem ++ [q]) (stem ++ q :: back) = true := by
      rw [startsWith_iff]
      exact ⟨back, (List.append_cons _ _ _).symm⟩
    cases hcs : stem ++ q :: back with
    | nil => simp at hcs
    | cons c cs =>
      rw [hcs] at hhere
      rw [List.nil_append, before?, if_pos hhere]
  | cons c front ih =>
    rw [List.mem_cons, not_or] at hfront
    have hnot : ¬ startsWith (stem ++ [q]) (c :: front ++ (stem ++ q :: back)) = true := by
      rw [startsWith_iff]
      intro hstart
      -- The needle would end before the first place of its last character.
      have htake := List.prefix_iff_eq_take.mp hstart
      have hmem : q ∈ (c :: front ++ (stem ++ q :: back)).take (stem ++ [q]).length := by
        rw [← htake]
        simp
      have hshort : (stem ++ [q]).length ≤ (c :: front ++ stem).length := by
        simp
      rw [← List.append_assoc, List.take_append_of_le_length hshort] at hmem
      have hmem := List.mem_of_mem_take hmem
      simp only [List.mem_append, List.mem_cons] at hmem
      rcases hmem with (h | h) | h
      · exact hfront.1 h
      · exact hfront.2 h
      · exact hstem h
    rw [List.cons_append] at hnot ⊢
    rw [before?, if_neg hnot, ih hfront.2]
    rfl

/-- What occurs in two texts in a row begins at the end of the first and goes on in the second,
unless it occurs in one of them. -/
theorem not_infix_append {needle a b : List Char} (ha : ¬ needle <:+: a) (hb : ¬ needle <:+: b)
    (hseam : (∀ c ∈ a.getLast?, c ∉ needle) ∨ ∀ c ∈ b.head?, c ∉ needle.tail) :
    ¬ needle <:+: a ++ b := by
  intro h
  rcases List.infix_append_iff.mp h with h | h | ⟨front, back, rfl, hfront, hback⟩
  · exact ha h
  · exact hb h
  rcases List.eq_nil_or_concat front with rfl | ⟨most, last, rfl⟩
  · exact hb hback.isInfix
  cases back with
  | nil =>
    rw [List.append_nil] at ha
    exact ha hfront.isInfix
  | cons next back =>
    rcases hseam with hlast | hnext
    · obtain ⟨start, rfl⟩ := hfront
      exact hlast last (by simp) (by simp)
    · obtain ⟨rest, rfl⟩ := hback
      refine hnext next rfl ?_
      cases most <;> simp

/-- What does not hold the character between two texts occurs in one of them, if at all. -/
theorem infix_append_cons_iff {needle a b : List Char} {c : Char} (hc : c ∉ needle) :
    needle <:+: a ++ c :: b ↔ needle <:+: a ∨ needle <:+: b := by
  constructor
  · intro h
    by_contra hnot
    rw [not_or] at hnot
    have hb : ¬ needle <:+: c :: b := by
      rw [List.infix_cons_iff, not_or]
      refine ⟨fun hprefix => ?_, hnot.2⟩
      cases needle with
      | nil => exact hnot.2 List.nil_infix
      | cons d needle =>
        obtain ⟨rfl, -⟩ := List.cons_prefix_cons.mp hprefix
        exact hc List.mem_cons_self
    refine not_infix_append hnot.1 hb (Or.inr fun d hd => ?_) h
    obtain rfl : c = d := Option.some.inj hd
    exact fun hmem => hc (List.mem_of_mem_tail hmem)
  · rintro (h | h)
    · exact h.trans (List.prefix_append _ _).isInfix
    · exact h.trans ((List.suffix_cons c b).trans (List.suffix_append _ _)).isInfix

/-- What occurs in none of some texts in a row does not occur in the row, if of each two neighbours
one holds none of its characters. -/
theorem not_infix_flatten {needle : List Char} {texts : List (List Char)} (hneedle : needle ≠ [])
    (h : ∀ t ∈ texts, t ≠ [] ∧ ¬ needle <:+: t)
    (hseam : texts.IsChain fun a b => (∀ c ∈ a, c ∉ needle) ∨ ∀ c ∈ b, c ∉ needle) :
    ¬ needle <:+: texts.flatten := by
  induction texts with
  | nil => rwa [List.flatten_nil, List.infix_nil]
  | cons t texts ih =>
    rw [List.forall_mem_cons] at h
    rw [List.isChain_cons] at hseam
    rw [List.flatten_cons]
    apply not_infix_append h.1.2 (ih h.2 hseam.2)
    cases texts with
    | nil => exact Or.inr nofun
    | cons u texts =>
      have hu : u ≠ [] := (h.2 u List.mem_cons_self).1
      rw [List.flatten_cons, List.head?_append_of_ne_nil _ hu]
      exact (hseam.1 u rfl).imp (fun ht c hc => ht c (List.mem_of_mem_getLast? hc))
        fun hu' c hc hmem => hu' c (List.mem_of_mem_head? hc) (List.mem_of_mem_tail hmem)

/-! ## Nothing to replace -/

theorem replaceFrom_of_none {rule : Bool → List Char → Option Replacement} {start : Bool}
    {cs : List Char} (hstart : rule start cs = none)
    (hrest : ∀ rest, rest <:+ cs → rule false rest = none) : replaceFrom rule start 0 cs = cs := by
  induction cs generalizing start with
  | nil => rfl
  | cons c cs ih =>
    have hcs : cs <:+ c :: cs := List.suffix_cons c cs
    rw [replaceFrom, hstart]
    dsimp only
    rw [ih (hrest cs hcs) fun rest h => hrest rest (h.trans hcs)]

/-- A text at no place of which the rule offers a replacement stays as it is. -/
theorem replaceBy_of_none {rule : Bool → List Char → Option Replacement} {cs : List Char}
    (h : ∀ start rest, rest <:+ cs → (start = true → rest = cs) → rule start rest = none) :
    replaceBy rule cs = cs :=
  replaceFrom_of_none (h true cs List.suffix_rfl fun _ => rfl) fun rest hrest =>
    h false rest hrest nofun

theorem replaceAll_of_not_infix {needle cs : List Char} (h : ¬ needle <:+: cs)
    (replacement : List Char) : replaceAll needle replacement cs = cs := by
  refine replaceBy_of_none fun _ rest hrest _ => if_neg fun hhere => h ?_
  exact (startsWith_iff.mp hhere).isInfix.trans hrest.isInfix

/-! ## Replacing piece by piece -/

section Pieces

variable {rule : Bool → List Char → Option Replacement}

/-- What a replacement has used up is passed over. -/
theorem replaceFrom_skip (start : Bool) (q t : List Char) :
    replaceFrom rule start q.length (q ++ t) = replaceFrom rule (start && q.isEmpty) 0 t := by
  induction q generalizing start with
  | nil => simp
  | cons c q ih =>
    rw [List.length_cons, List.cons_append, replaceFrom, ih]
    simp

/-- A replacement stands for all that it uses up. -/
theorem replaceFrom_of_some {start : Bool} {c : Char} {q t shown : List Char}
    (h : rule start (c :: (q ++ t)) = some ⟨q.length, shown⟩) :
    replaceFrom rule start 0 (c :: (q ++ t)) = shown ++ replaceFrom rule false 0 t := by
  rw [replaceFrom, h]
  dsimp only
  rw [replaceFrom_skip, Bool.false_and]

/-- Inside a text a stretch is kept if at none of its places a replacement is offered. -/
theorem replaceFrom_keep {q t : List Char}
    (h : ∀ c rest, c :: rest <:+ q → rule false (c :: (rest ++ t)) = none) :
    replaceFrom rule false 0 (q ++ t) = q ++ replaceFrom rule false 0 t := by
  induction q with
  | nil => rfl
  | cons c q ih =>
    have hrest : ∀ d rest, d :: rest <:+ q → rule false (d :: (rest ++ t)) = none := by
      intro d rest hd
      exact h d rest (hd.trans (List.suffix_cons c q))
    rw [List.cons_append, replaceFrom, h c q List.suffix_rfl]
    dsimp only
    rw [ih hrest, List.cons_append]

/-! Most rules do not look at the flag. -/

variable (hflag : ∀ cs, rule false cs = rule true cs)
include hflag

theorem replaceFrom_false (cs : List Char) : replaceFrom rule false 0 cs = replaceBy rule cs := by
  unfold replaceBy
  cases cs with
  | nil => rfl
  | cons c cs => simp [replaceFrom, hflag]

theorem replaceBy_cons {c : Char} {t : List Char} (h : rule true (c :: t) = none) :
    replaceBy rule (c :: t) = c :: replaceBy rule t := by
  rw [← replaceFrom_false hflag t, replaceBy, replaceFrom, h]

theorem replaceBy_of_some {c : Char} {q t shown : List Char}
    (h : rule true (c :: (q ++ t)) = some ⟨q.length, shown⟩) :
    replaceBy rule (c :: (q ++ t)) = shown ++ replaceBy rule t := by
  rw [← replaceFrom_false hflag t]
  exact replaceFrom_of_some h

theorem replaceBy_keep {q t : List Char}
    (h : ∀ c rest, c :: rest <:+ q → rule true (c :: (rest ++ t)) = none) :
    replaceBy rule (q ++ t) = q ++ replaceBy rule t := by
  rw [← replaceFrom_false hflag, ← replaceFrom_false hflag]
  apply replaceFrom_keep
  intro c rest hrest
  rw [hflag, h c rest hrest]

end Pieces

theorem replaceAll_cons {needle cs : List Char} {c : Char} (h : ¬ needle <+: c :: cs)
    (replacement : List Char) :
    replaceAll needle replacement (c :: cs) = c :: replaceAll needle replacement cs :=
  replaceBy_cons (fun _ => rfl) (if_neg (by rwa [startsWith_iff]))

theorem replaceAll_append {needle : List Char} (hne : needle ≠ []) (replacement cs : List Char) :
    replaceAll needle replacement (needle ++ cs) =
      replacement ++ replaceAll needle replacement cs := by
  obtain ⟨c, q, rfl⟩ := List.exists_cons_of_ne_nil hne
  have hhere : startsWith (c :: q) (c :: (q ++ cs)) = true :=
    startsWith_iff.mpr (List.prefix_append (c :: q) cs)
  exact replaceBy_of_some (fun _ => rfl) (if_pos hhere)

end DocPages.Text
