-- Lower case, letter by letter. No text is lost by it, and a class of characters
-- that no run of the table leads into is entered by no letter. What is in lower
-- case stays as it is.
import DocPages.Text.LetterCase
import Mathlib.Data.List.Basic
import Mathlib.Data.List.Forall2

namespace DocPages.Text

variable {c d : Char} {cs piece : List Char} {ranges : List (Nat × Nat)}

/-! ## Shifts -/

theorem toNat_ofNat {n : Nat} (h : n.isValidChar) : (Char.ofNat n).toNat = n := by
  unfold Char.ofNat
  rw [dif_pos h]
  rfl

/-- Whether every run of a table leads to code points of characters, and into none of the ranges. -/
def avoids (table : List (Nat × Nat × Nat × Nat)) (ranges : List (Nat × Nat)) : Bool :=
  table.all fun s =>
    let last := s.2.2.2 + (s.2.1 - s.1)
    (last < 0xD800 || 0xDFFF < s.2.2.2 && last < 0x110000) &&
      ranges.all fun r => last < r.1 || r.2 < s.2.2.2

/-- A character outside of the ranges stays outside of them in its other case. -/
theorem inRanges_shiftCase {table : List (Nat × Nat × Nat × Nat)} (h : avoids table ranges = true)
    (hc : inRanges ranges c = false) : inRanges ranges (shiftCase table c) = false := by
  unfold shiftCase
  split
  · rename_i s hs
    have hrun := List.find?_some hs
    have hplace := List.all_eq_true.mp h s (List.mem_of_find?_eq_some hs)
    simp only [Bool.and_eq_true, decide_eq_true_eq] at hrun
    simp only [Bool.and_eq_true, Bool.or_eq_true, decide_eq_true_eq, List.all_eq_true] at hplace
    obtain ⟨⟨hlow, hhigh⟩, -⟩ := hrun
    obtain ⟨hchar, houtside⟩ := hplace
    have hvalid : (s.2.2.2 + (c.toNat - s.1)).isValidChar := by
      unfold Nat.isValidChar
      omega
    rw [Bool.eq_false_iff, ne_eq, inRanges_iff, toNat_ofNat hvalid]
    rintro ⟨r, hr, hfrom, hto⟩
    have := houtside r hr
    omega
  · exact hc

/-- A run of a table shifts the letter. -/
def InRun (s : Nat × Nat × Nat × Nat) (c : Char) : Prop :=
  s.1 ≤ c.toNat ∧ c.toNat ≤ s.2.1 ∧ (c.toNat - s.1) % s.2.2.1 = 0

section Runs

variable {table : List (Nat × Nat × Nat × Nat)}

/-- A letter that no run shifts stays as it is. -/
theorem shiftCase_of_no_run (h : ∀ s ∈ table, ¬ InRun s c) : shiftCase table c = c := by
  unfold shiftCase
  split
  · rename_i s hs
    refine absurd ?_ (h s (List.mem_of_find?_eq_some hs))
    have hrun := List.find?_some hs
    simp only [Bool.and_eq_true, decide_eq_true_eq, beq_iff_eq] at hrun
    exact ⟨hrun.1.1, hrun.1.2, hrun.2⟩
  · rfl

theorem shiftCase_cases (hchars : avoids table [] = true) (c : Char) :
    shiftCase table c = c ∨
      ∃ s ∈ table, InRun s c ∧ (shiftCase table c).toNat = s.2.2.2 + (c.toNat - s.1) := by
  unfold shiftCase
  split
  · rename_i s hs
    have hmem := List.mem_of_find?_eq_some hs
    have hrun := List.find?_some hs
    have hplace := List.all_eq_true.mp hchars s hmem
    simp only [Bool.and_eq_true, decide_eq_true_eq, beq_iff_eq] at hrun
    simp only [List.all_nil, Bool.and_true, Bool.and_eq_true, Bool.or_eq_true,
      decide_eq_true_eq] at hplace
    refine Or.inr ⟨s, hmem, ⟨hrun.1.1, hrun.1.2, hrun.2⟩, toNat_ofNat ?_⟩
    unfold Nat.isValidChar
    omega
  · exact Or.inl rfl

/-- Whether no run of a table starts in one of the ranges. -/
def misses (table : List (Nat × Nat × Nat × Nat)) (ranges : List (Nat × Nat)) : Bool :=
  table.all fun s => ranges.all fun r => s.2.1 < r.1 || r.2 < s.1

theorem shiftCase_of_inRanges (h : misses table ranges = true) (hc : inRanges ranges c = true) :
    shiftCase table c = c := by
  obtain ⟨r, hr, hfrom, hto⟩ := inRanges_iff.mp hc
  refine shiftCase_of_no_run fun s hs hrun => ?_
  have hapart := List.all_eq_true.mp (List.all_eq_true.mp h s hs) r hr
  simp only [Bool.or_eq_true, decide_eq_true_eq] at hapart
  have hlow := hrun.1
  have hhigh := hrun.2.1
  omega

/-- Whether no run of a table leads to where one of its runs starts. Two runs that meet must go in
steps of two, one through the even code points and one through the odd ones. -/
def settles (table : List (Nat × Nat × Nat × Nat)) : Bool :=
  table.all fun s =>
    (table.filter fun r => Nat.ble r.1 (s.2.2.2 + (s.2.1 - s.1)) && Nat.ble s.2.2.2 r.2.1).all
      fun r => r.2.2.1 == 2 && (s.2.2.1 == 2 || s.1 == s.2.1) && (s.2.2.2 + r.1) % 2 == 1

/-- A letter in its other case is not shifted again. -/
theorem shiftCase_shiftCase (h : settles table = true) (hchars : avoids table [] = true)
    (c : Char) : shiftCase table (shiftCase table c) = shiftCase table c := by
  rcases shiftCase_cases hchars c with hc | ⟨s, hs, ⟨hlow, hhigh, hstep⟩, hcode⟩
  · rw [hc, hc]
  · refine shiftCase_of_no_run fun r hr hagain => ?_
    obtain ⟨hlow', hhigh', hstep'⟩ := hagain
    rw [hcode] at hlow' hhigh' hstep'
    have hmeet : (Nat.ble r.1 (s.2.2.2 + (s.2.1 - s.1)) && Nat.ble s.2.2.2 r.2.1) = true := by
      rw [Bool.and_eq_true, Nat.ble_eq, Nat.ble_eq]
      omega
    have hparity := List.all_eq_true.mp (List.all_eq_true.mp h s hs) r
      (List.mem_filter.mpr ⟨hr, hmeet⟩)
    simp only [Bool.or_eq_true, Bool.and_eq_true, beq_iff_eq] at hparity
    obtain ⟨⟨htwo, hone⟩, hodd⟩ := hparity
    rw [htwo] at hstep'
    rcases hone with hone | hone
    · rw [hone] at hstep
      omega
    · omega

end Runs

/-! ## Lower case -/

theorem lowerChar_ne_nil (c : Char) : lowerChar c ≠ [] := by
  unfold lowerChar
  split <;> simp

/-- No letter goes lost. -/
theorem lowerCase_ne_nil (h : cs ≠ []) : lowerCase cs ≠ [] := by
  obtain ⟨c, cs, rfl⟩ := List.exists_cons_of_ne_nil h
  unfold lowerCase
  rw [lowerAfter]
  split
  · simp
  · simp [lowerChar_ne_nil]

/-- What holds of both small sigmas and of the lower case of each letter holds of the lower case of
a text. -/
theorem forall_mem_lowerCase {p : Char → Prop} (hfinal : p (Char.ofNat 0x3C2))
    (hplain : p (Char.ofNat 0x3C3)) (h : ∀ c ∈ cs, ∀ d ∈ lowerChar c, p d) :
    ∀ d ∈ lowerCase cs, p d := by
  unfold lowerCase
  generalize ([] : List Char) = before
  induction cs generalizing before with
  | nil => exact List.forall_mem_nil _
  | cons c cs ih =>
    rw [List.forall_mem_cons] at h
    rw [lowerAfter, List.forall_mem_append]
    refine ⟨?_, ih h.2 _⟩
    split
    · intro d hd
      obtain rfl := List.mem_singleton.mp hd
      split
      · exact hfinal
      · exact hplain
    · exact h.1

/-- A letter outside of the ranges stays outside of them in lower case. -/
theorem inRanges_lowerChar (h : avoids lowerShifts ranges = true)
    (hdot : ['i', Char.ofNat 0x307].any (inRanges ranges) = false)
    (hc : inRanges ranges c = false) (hd : d ∈ lowerChar c) : inRanges ranges d = false := by
  unfold lowerChar at hd
  split at hd
  · exact Bool.eq_false_iff.mpr (List.any_eq_false.mp hdot d hd)
  · rw [List.mem_singleton.mp hd]
    exact inRanges_shiftCase h hc

/-! ## Letter by letter -/

/-- The capital letter with a dot, the one letter whose lower case is two characters. -/
def dottedCapital : Char := Char.ofNat 0x130

theorem toNat_eq_iff {n : Nat} (h : n.isValidChar) : c.toNat = n ↔ c = Char.ofNat n := by
  rw [← Char.toNat_inj, toNat_ofNat h]

/-- A letter that no run of a table leads to comes from itself only. -/
theorem shiftCase_ne {table : List (Nat × Nat × Nat × Nat)} {n : Nat} (hn : n.isValidChar)
    (h : avoids table [(n, n)] = true) (hc : c ≠ Char.ofNat n) :
    shiftCase table c ≠ Char.ofNat n := by
  have hout : ∀ d : Char, inRanges [(n, n)] d = false ↔ d ≠ Char.ofNat n := by
    intro d
    rw [Bool.eq_false_iff, Ne, Ne, not_iff_not, ← toNat_eq_iff hn, inRanges_iff]
    simp only [List.mem_singleton, exists_eq_left]
    omega
  exact (hout _).mp (inRanges_shiftCase h ((hout c).mpr hc))

theorem lowerChar_of_ne (h : c ≠ dottedCapital) : lowerChar c = [shiftCase lowerShifts c] := by
  refine if_neg fun hcode => h ?_
  exact (toNat_eq_iff (by decide)).mp (beq_iff_eq.mp hcode)

theorem lowerChar_dottedCapital : lowerChar dottedCapital = ['i', Char.ofNat 0x307] := by
  decide

/-- What stands for a letter in lower case. For a capital sigma it is one of the small ones. -/
inductive LowerForm : Char → List Char → Prop
  | final : LowerForm capitalSigma [Char.ofNat 0x3C2]
  | plain : LowerForm capitalSigma [Char.ofNat 0x3C3]
  | letter {c : Char} (h : c ≠ capitalSigma) : LowerForm c (lowerChar c)

theorem LowerForm.eq_lowerChar (h : LowerForm c piece) (hc : c ≠ capitalSigma) :
    piece = lowerChar c := by
  cases h with
  | final => exact absurd rfl hc
  | plain => exact absurd rfl hc
  | letter _ => rfl

theorem exists_mem_of_forall₂ {α β : Type} {R : α → β → Prop} {as : List α} {bs : List β} {b : β}
    (h : List.Forall₂ R as bs) (hb : b ∈ bs) : ∃ a ∈ as, R a b := by
  induction h with
  | nil => cases hb
  | cons hfirst _ ih =>
    rcases List.mem_cons.mp hb with rfl | hb
    · exact ⟨_, List.mem_cons_self, hfirst⟩
    · obtain ⟨a, ha, hR⟩ := ih hb
      exact ⟨a, List.mem_cons_of_mem _ ha, hR⟩

/-- The lower case of a text is that of its letters in a row. -/
theorem lowerAfter_eq_flatten (before cs : List Char) :
    ∃ pieces, List.Forall₂ LowerForm cs pieces ∧ lowerAfter before cs = pieces.flatten := by
  induction cs generalizing before with
  | nil => exact ⟨[], .nil, rfl⟩
  | cons c cs ih =>
    obtain ⟨pieces, hpieces, hrest⟩ := ih (c :: before)
    rw [lowerAfter, hrest]
    by_cases hc : c = capitalSigma
    · subst hc
      rw [if_pos (beq_self_eq_true capitalSigma)]
      split
      · exact ⟨_, .cons .final hpieces, rfl⟩
      · exact ⟨_, .cons .plain hpieces, rfl⟩
    · rw [if_neg (by rwa [beq_iff_eq])]
      exact ⟨_, .cons (.letter hc) hpieces, rfl⟩

/-! ## Settled letters -/

/-- Lower case leaves the letter as it is. -/
def Settled (c : Char) : Prop := c ≠ capitalSigma ∧ lowerChar c = [c]

instance (c : Char) : Decidable (Settled c) :=
  inferInstanceAs (Decidable (c ≠ capitalSigma ∧ lowerChar c = [c]))

theorem lowerAfter_of_settled (h : ∀ c ∈ cs, Settled c) (before : List Char) :
    lowerAfter before cs = cs := by
  induction cs generalizing before with
  | nil => rfl
  | cons c cs ih =>
    rw [List.forall_mem_cons] at h
    rw [lowerAfter, if_neg (by simpa using h.1.1), h.1.2, ih h.2]
    rfl

theorem lowerCase_of_settled (h : ∀ c ∈ cs, Settled c) : lowerCase cs = cs :=
  lowerAfter_of_settled h []

theorem settled_of_mem_lowerChar (hc : c ≠ capitalSigma) (hd : d ∈ lowerChar c) : Settled d := by
  by_cases hdot : c = dottedCapital
  · subst hdot
    rw [lowerChar_dottedCapital] at hd
    have hmark : ∀ d ∈ [Char.ofNat 0x307], Settled d :=
      List.forall_mem_singleton.mpr (by decide +kernel)
    exact List.forall_mem_cons.mpr ⟨by decide +kernel, hmark⟩ d hd
  · rw [lowerChar_of_ne hdot, List.mem_singleton] at hd
    subst hd
    refine ⟨shiftCase_ne (by decide) (by decide +kernel) hc, ?_⟩
    rw [lowerChar_of_ne (shiftCase_ne (by decide) (by decide +kernel) hdot),
      shiftCase_shiftCase (by decide +kernel) (by decide +kernel)]

/-- What stands for a letter in lower case is in lower case. -/
theorem LowerForm.settled (h : LowerForm c piece) : ∀ d ∈ piece, Settled d := by
  cases h with
  | final => exact List.forall_mem_singleton.mpr (by decide +kernel)
  | plain => exact List.forall_mem_singleton.mpr (by decide +kernel)
  | letter hc => exact fun d => settled_of_mem_lowerChar hc

theorem settled_of_mem_lowerCase (h : d ∈ lowerCase cs) : Settled d := by
  obtain ⟨pieces, hpieces, hlower⟩ := lowerAfter_eq_flatten [] cs
  rw [lowerCase, hlower, List.mem_flatten] at h
  obtain ⟨piece, hpiece, hd⟩ := h
  obtain ⟨c, -, hform⟩ := exists_mem_of_forall₂ hpieces hpiece
  exact hform.settled d hd

end DocPages.Text
