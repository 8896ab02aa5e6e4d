-- Reading a quotient as a floating point number. Each number has an interval of quotients that
-- round to it, and from each of these reading gives the number back, whatever terms the quotient is
-- in.
import DocPages.Number.Shortest
import Mathlib.Algebra.Order.Field.Power
import Mathlib.Data.Rat.Cast.Order
import Mathlib.Tactic.FieldSimp
import Mathlib.Tactic.Linarith
import Mathlib.Tactic.NormNum
import Mathlib.Tactic.Positivity
import Mathlib.Tactic.Ring

namespace DocPages.Binary64

variable {x : Binary64} {num den n d m : Nat} {e : Int} {v : ℚ}

/-! ## Numbers and what rounds to them -/

/-- A number in the form in which it is kept: of all forms that with the most digits. -/
structure Normal (x : Binary64) : Prop where
  mantissa_lt : x.mantissa < 2 ^ 53
  exponent_ge : minExponent ≤ x.exponent
  exponent_le : x.exponent ≤ maxExponent
  full : 2 ^ 52 ≤ x.mantissa ∨ x.exponent = minExponent

/-- The value of a number without its sign. -/
def value (x : Binary64) : ℚ := x.mantissa * 2 ^ x.exponent

/-- A value at most half a unit away from a number rounds to it; at exactly half a unit it does if
the number is even. Below a power of two the unit is half of that above. -/
structure Near (x : Binary64) (v : ℚ) : Prop where
  above : v ≤ (x.mantissa + 1 / 2) * 2 ^ x.exponent
  below : (x.mantissa - 1 / 2) * 2 ^ x.exponent ≤ v
  narrow : x.mantissa = 2 ^ 52 → minExponent < x.exponent →
    (x.mantissa - 1 / 4) * 2 ^ x.exponent ≤ v
  even : x.mantissa % 2 = 1 → v < (x.mantissa + 1 / 2) * 2 ^ x.exponent ∧
    (x.mantissa - 1 / 2) * 2 ^ x.exponent < v

/-! ## Rounding -/

/-- A quotient is rounded to a whole number that is at most half a unit away. -/
theorem roundQuotient_eq_of_le (hd : 0 < d) (hhigh : 2 * n ≤ (2 * m + 1) * d)
    (hlow : 2 * m * d ≤ 2 * n + d)
    (heven : m % 2 = 1 → 2 * n < (2 * m + 1) * d ∧ 2 * m * d < 2 * n + d) :
    roundQuotient n d = m := by
  have hsplit := Nat.div_add_mod n d
  have hrest := Nat.mod_lt n hd
  have hm : m * d = d * m := Nat.mul_comm m d
  unfold roundQuotient
  dsimp only
  generalize n / d = q at *
  generalize n % d = r at *
  have hupper : q ≤ m := by
    by_contra hgt
    have := Nat.mul_le_mul_left d (Nat.succ_le_of_lt (not_le.mp hgt))
    nlinarith
  have hlower : m ≤ q + 1 := by
    by_contra hgt
    have := Nat.mul_le_mul_left d (Nat.succ_le_of_lt (not_le.mp hgt))
    nlinarith
  rcases Nat.lt_or_ge q m with hless | hsame
  · obtain rfl : m = q + 1 := by omega
    have hr : d ≤ 2 * r := by nlinarith
    have hodd : q % 2 = 0 → d < 2 * r := by
      intro hq
      have := (heven (by omega)).2
      nlinarith
    split
    · omega
    split
    · rfl
    split
    · rename_i hq
      have := hodd (beq_iff_eq.mp hq)
      omega
    · rfl
  · obtain rfl : m = q := by omega
    have hr : 2 * r ≤ d := by nlinarith
    have hodd : m % 2 = 1 → 2 * r < d := by
      intro hm
      have := (heven hm).1
      nlinarith
    split
    · rfl
    split
    · omega
    split
    · rfl
    · rename_i hq
      have := hodd (by rw [beq_iff_eq] at hq; omega)
      omega

theorem roundQuotient_eq (hd : 0 < d) (hhigh : (n : ℚ) / d ≤ m + 1 / 2)
    (hlow : (m : ℚ) - 1 / 2 ≤ n / d)
    (heven : m % 2 = 1 → (n : ℚ) / d < m + 1 / 2 ∧ (m : ℚ) - 1 / 2 < n / d) :
    roundQuotient n d = m := by
  have hdq : (0 : ℚ) < d := Nat.cast_pos.mpr hd
  rw [div_le_iff₀ hdq] at hhigh
  rw [le_div_iff₀ hdq] at hlow
  rw [div_lt_iff₀ hdq, lt_div_iff₀ hdq] at heven
  apply roundQuotient_eq_of_le hd
  · rw [← Nat.cast_le (α := ℚ)]
    push_cast
    linarith
  · rw [← Nat.cast_le (α := ℚ)]
    push_cast
    linarith
  · intro hodd
    rw [← Nat.cast_lt (α := ℚ), ← Nat.cast_lt (α := ℚ)]
    push_cast
    obtain ⟨habove, hbelow⟩ := heven hodd
    exact ⟨by linarith, by linarith⟩

/-! ## The grid -/

theorem cast_twoTo (n : Nat) : (twoTo n : ℚ) = 2 ^ n := Nat.cast_pow 2 n

theorem two_zpow_pos (e : Int) : (0 : ℚ) < 2 ^ e := zpow_pos (by norm_num) e

/-- A quotient on a grid of powers of two. -/
theorem scaleDown_spec (num : Nat) (hden : 0 < den) (q : Int) :
    0 < (scaleDown num den q).2 ∧
      ((scaleDown num den q).1 : ℚ) / (scaleDown num den q).2 = num / den / 2 ^ q := by
  have hdenq : (0 : ℚ) < den := Nat.cast_pos.mpr hden
  unfold scaleDown
  split
  · rename_i hq
    obtain ⟨k, rfl⟩ := Int.eq_ofNat_of_zero_le hq
    refine ⟨Nat.mul_pos hden (twoTo_pos _), ?_⟩
    rw [Int.toNat_natCast, zpow_natCast, Nat.cast_mul, cast_twoTo, div_div]
  · obtain ⟨k, rfl⟩ : ∃ k : Nat, q = -k := ⟨(-q).toNat, by omega⟩
    refine ⟨hden, ?_⟩
    rw [neg_neg, Int.toNat_natCast, zpow_neg, zpow_natCast, Nat.cast_mul, cast_twoTo]
    field_simp

/-- The exponent at which a quotient is rounded. -/
def gridExponent (num den : Nat) : Int :=
  let estimate : Int := (Nat.log2 num : Int) - (Nat.log2 den : Int) - 53
  let low := max estimate minExponent
  let (n, d) := scaleDown num den low
  if twoTo 53 ≤ n / d then low + 1 else low

theorem ofQuotient_eq (negative : Bool) (num den : Nat) :
    ofQuotient negative num den =
      let exponent := gridExponent num den
      let (n, d) := scaleDown num den exponent
      let mantissa := roundQuotient n d
      let (mantissa, exponent) :=
        if mantissa == twoTo 53 then (twoTo 52, exponent + 1) else (mantissa, exponent)
      if maxExponent < exponent then none else some ⟨negative, mantissa, exponent⟩ := by
  unfold ofQuotient gridExponent
  rfl

/-- The exponent that fits a value: the value has 53 digits of base two in front of the point then,
or fewer at the least exponent. -/
structure Fits (v : ℚ) (e : Int) : Prop where
  ge : minExponent ≤ e
  lt : v < 2 ^ 53 * 2 ^ e
  full : 2 ^ 52 * 2 ^ e ≤ v ∨ e = minExponent

theorem log2_bounds (h : 0 < n) :
    (2 : ℚ) ^ (Nat.log2 n : Int) ≤ n ∧ (n : ℚ) < 2 ^ ((Nat.log2 n : Int) + 1) := by
  have hlow := Nat.log2_self_le h.ne'
  have hhigh := Nat.lt_log2_self (n := n)
  constructor
  · rw [zpow_natCast]
    exact_mod_cast hlow
  · rw [← Nat.cast_succ, zpow_natCast]
    exact_mod_cast hhigh

theorem quotient_bounds (hnum : 0 < num) (hden : 0 < den) :
    (2 : ℚ) ^ ((Nat.log2 num : Int) - Nat.log2 den - 1) < num / den ∧
      (num : ℚ) / den < 2 ^ ((Nat.log2 num : Int) - Nat.log2 den + 1) := by
  have hdenq : (0 : ℚ) < den := Nat.cast_pos.mpr hden
  obtain ⟨hnumLow, hnumHigh⟩ := log2_bounds hnum
  obtain ⟨hdenLow, hdenHigh⟩ := log2_bounds hden
  constructor
  · rw [lt_div_iff₀ hdenq]
    calc (2 : ℚ) ^ ((Nat.log2 num : Int) - Nat.log2 den - 1) * den
        < 2 ^ ((Nat.log2 num : Int) - Nat.log2 den - 1) * 2 ^ ((Nat.log2 den : Int) + 1) :=
          mul_lt_mul_of_pos_left hdenHigh (two_zpow_pos _)
      _ = 2 ^ (Nat.log2 num : Int) := by
          rw [← zpow_add₀ two_ne_zero]
          congr 1
          ring
      _ ≤ num := hnumLow
  · rw [div_lt_iff₀ hdenq]
    calc (num : ℚ) < 2 ^ ((Nat.log2 num : Int) + 1) := hnumHigh
      _ = 2 ^ ((Nat.log2 num : Int) - Nat.log2 den + 1) * 2 ^ (Nat.log2 den : Int) := by
          rw [← zpow_add₀ two_ne_zero]
          congr 1
          ring
      _ ≤ 2 ^ ((Nat.log2 num : Int) - Nat.log2 den + 1) * den :=
          mul_le_mul_of_nonneg_left hdenLow (two_zpow_pos _).le

theorem gridExponent_eq (hnum : 0 < num) (hden : 0 < den) (h : Fits ((num : ℚ) / den) e) :
    gridExponent num den = e := by
  obtain ⟨hlow, hhigh⟩ := quotient_bounds hnum hden
  have hbelow : (Nat.log2 num : Int) - Nat.log2 den - 53 ≤ e := by
    have hlt := hlow.trans h.lt
    rw [← zpow_natCast, ← zpow_add₀ two_ne_zero,
      zpow_lt_zpow_iff_right₀ (by norm_num : (1 : ℚ) < 2)] at hlt
    push_cast at hlt
    omega
  have habove : e = minExponent ∨ e - 1 ≤ (Nat.log2 num : Int) - Nat.log2 den - 53 := by
    rcases h.full with hfull | hleast
    · right
      have hlt := hfull.trans_lt hhigh
      rw [← zpow_natCast, ← zpow_add₀ two_ne_zero,
        zpow_lt_zpow_iff_right₀ (by norm_num : (1 : ℚ) < 2)] at hlt
      push_cast at hlt
      omega
    · exact .inl hleast
  have hge := h.ge
  have hgrid : ∀ q, twoTo 53 ≤ (scaleDown num den q).1 / (scaleDown num den q).2 ↔
      2 ^ 53 * 2 ^ q ≤ (num : ℚ) / den := by
    intro q
    obtain ⟨hpos, hvalue⟩ := scaleDown_spec num hden q
    rw [Nat.le_div_iff_mul_le hpos, ← le_div_iff₀ (two_zpow_pos q), ← hvalue,
      le_div_iff₀ (Nat.cast_pos.mpr hpos), ← Nat.cast_le (α := ℚ), Nat.cast_mul, cast_twoTo]
  unfold gridExponent
  dsimp only
  simp only [hgrid]
  generalize hlow : max ((Nat.log2 num : Int) - (Nat.log2 den : Int) - 53) minExponent = low
  rcases eq_or_ne low e with rfl | hne
  · exact if_neg (not_le.mpr h.lt)
  · obtain rfl : e = low + 1 := by omega
    have hfull : 2 ^ 52 * 2 ^ (low + 1) ≤ (num : ℚ) / den :=
      h.full.resolve_right (by omega)
    rw [zpow_add_one₀ two_ne_zero] at hfull
    exact if_pos (by linarith)

/-! ## Reading -/

theorem Near.pos (hzero : x.mantissa ≠ 0) (h : x.Near v) : 0 < v := by
  have hone : (1 : ℚ) ≤ x.mantissa := by exact_mod_cast Nat.pos_of_ne_zero hzero
  refine lt_of_lt_of_le (mul_pos ?_ (two_zpow_pos x.exponent)) h.below
  linarith

theorem Near.lt (hx : x.Normal) (h : x.Near v) : v < 2 ^ 53 * 2 ^ x.exponent := by
  have hlt : (x.mantissa : ℚ) + 1 ≤ 2 ^ 53 := by exact_mod_cast hx.mantissa_lt
  refine h.above.trans_lt (mul_lt_mul_of_pos_right ?_ (two_zpow_pos _))
  linarith

/-- On the grid of its exponent a value is rounded to the number that it is near. -/
theorem roundQuotient_of_near (hden : 0 < den) (h : x.Near ((num : ℚ) / den)) :
    roundQuotient (scaleDown num den x.exponent).1 (scaleDown num den x.exponent).2 =
      x.mantissa := by
  have hunit := two_zpow_pos x.exponent
  obtain ⟨hpos, hvalue⟩ := scaleDown_spec num hden x.exponent
  apply roundQuotient_eq hpos
  · rw [hvalue, div_le_iff₀ hunit]
    exact h.above
  · rw [hvalue, le_div_iff₀ hunit]
    exact h.below
  · intro hodd
    rw [hvalue, div_lt_iff₀ hunit, lt_div_iff₀ hunit]
    exact h.even hodd

/-- A value below a power of two that is near it is rounded up to it on the finer grid. -/
theorem roundQuotient_of_narrow (hden : 0 < den) {low : Int}
    (hlt : (num : ℚ) / den < 2 ^ 52 * 2 ^ (low + 1))
    (hge : ((2 : ℚ) ^ 52 - 1 / 4) * 2 ^ (low + 1) ≤ num / den) :
    roundQuotient (scaleDown num den low).1 (scaleDown num den low).2 = 2 ^ 53 := by
  have hunit := two_zpow_pos low
  obtain ⟨hpos, hvalue⟩ := scaleDown_spec num hden low
  rw [zpow_add_one₀ two_ne_zero] at hlt hge
  apply roundQuotient_eq hpos
  · rw [hvalue, div_le_iff₀ hunit]
    push_cast
    nlinarith
  · rw [hvalue, le_div_iff₀ hunit]
    push_cast
    nlinarith
  · intro hodd
    exact absurd hodd (by decide)

/-- What rounds to a number is read as that number. -/
theorem ofQuotient_of_near (hx : x.Normal) (hnum : 0 < num) (hden : 0 < den)
    (h : x.Near ((num : ℚ) / den)) : ofQuotient x.negative num den = some x := by
  have hge := hx.exponent_ge
  have hle := hx.exponent_le
  rw [ofQuotient_eq]
  dsimp only
  by_cases hfull : 2 ^ 52 * 2 ^ x.exponent ≤ (num : ℚ) / den ∨ x.exponent = minExponent
  · have hsmall : (x.mantissa == twoTo 53) = false :=
      beq_eq_false_iff_ne.mpr hx.mantissa_lt.ne
    rw [gridExponent_eq hnum hden ⟨hge, h.lt hx, hfull⟩, roundQuotient_of_near hden h, hsmall]
    exact if_neg (not_lt.mpr hle)
  · obtain ⟨hlt, hne⟩ := not_or.mp hfull
    rw [not_le] at hlt
    obtain ⟨low, hlow⟩ : ∃ low, x.exponent = low + 1 := ⟨x.exponent - 1, by ring⟩
    have hmantissa : x.mantissa = 2 ^ 52 := by
      refine le_antisymm ?_ (hx.full.resolve_right hne)
      by_contra hgt
      have hgt' : (2 : ℚ) ^ 52 + 1 ≤ x.mantissa := by exact_mod_cast not_le.mp hgt
      have hbelow := h.below.trans_lt hlt
      rw [mul_lt_mul_iff_left₀ (two_zpow_pos _)] at hbelow
      linarith
    have hnarrow := h.narrow hmantissa (by omega)
    rw [hmantissa, hlow] at hnarrow
    push_cast at hnarrow
    rw [hlow] at hlt
    have hfits : Fits ((num : ℚ) / den) low := by
      have hunit := two_zpow_pos low
      have hone := zpow_add_one₀ (two_ne_zero (α := ℚ)) low
      rw [hone] at hlt hnarrow
      exact ⟨by omega, by linarith, .inl (by nlinarith)⟩
    rw [gridExponent_eq hnum hden hfits, roundQuotient_of_narrow hden hlt hnarrow]
    have htop : ((2 ^ 53 : Nat) == twoTo 53) = true := beq_self_eq_true _
    rw [htop, if_pos rfl]
    dsimp only
    rw [if_neg (by omega), ← hlow, show twoTo 52 = x.mantissa from hmantissa.symm]

/-! ## Decimals -/

theorem cast_tenTo (n : Nat) : (tenTo n : ℚ) = 10 ^ n := Nat.cast_pow 10 n

/-- A decimal whose value is at least `10 ^ 401` is refused, and only such ones are. -/
theorem magnitude_le (hx : x.Normal) (hd : 0 < d) {p : Int} (h : x.Near (d * 10 ^ p)) :
    (Nat.log2 d : Int) / 4 + p ≤ 400 := by
  by_contra hgt
  have hten : (0 : ℚ) < 10 ^ p := zpow_pos (by norm_num) p
  have hquarter : 4 * ((Nat.log2 d : Int) / 4) ≤ Nat.log2 d := by omega
  obtain ⟨k, hk⟩ : ∃ k : Nat, (Nat.log2 d : Int) / 4 = k := ⟨Nat.log2 d / 4, by omega⟩
  have hlarge : (10 : ℚ) ^ (401 : Int) ≤ d * 10 ^ p := by
    calc (10 : ℚ) ^ (401 : Int) ≤ 10 ^ ((k : Int) + p) :=
          zpow_le_zpow_right₀ (by norm_num) (by omega)
      _ = 10 ^ k * 10 ^ p := by rw [zpow_add₀ (by norm_num), zpow_natCast]
      _ ≤ 16 ^ k * 10 ^ p := by gcongr; norm_num
      _ = (2 : ℚ) ^ (4 * (k : Int)) * 10 ^ p := by
          rw [zpow_mul, zpow_natCast]
          norm_num
      _ ≤ 2 ^ (Nat.log2 d : Int) * 10 ^ p := by
          gcongr
          · norm_num
          · omega
      _ ≤ d * 10 ^ p := by
          gcongr
          exact (log2_bounds hd).1
  have hsmall : (d : ℚ) * 10 ^ p < 2 ^ 53 * 2 ^ maxExponent :=
    (h.lt hx).trans_le (by gcongr; exacts [by norm_num, hx.exponent_le])
  have hbound : (2 : ℚ) ^ 53 * 2 ^ maxExponent ≤ 10 ^ (401 : Int) := by
    have hnat : 2 ^ 53 * 2 ^ 971 ≤ 10 ^ 401 := by decide +kernel
    have hcast : (2 ^ 53 * 2 ^ 971 : ℚ) ≤ 10 ^ 401 := by exact_mod_cast hnat
    have hpow : (2 : ℚ) ^ maxExponent = 2 ^ 971 := zpow_natCast 2 971
    have hpow' : (10 : ℚ) ^ (401 : Int) = 10 ^ 401 := zpow_natCast 10 401
    rwa [hpow, hpow']
  linarith

/-- A decimal whose value is less than `10 ^ -400` is read as zero, and no number is near it. -/
theorem neg_400_le (hx : x.Normal) (hzero : x.mantissa ≠ 0) {p : Int}
    (h : x.Near (d * 10 ^ p)) : -400 ≤ (Nat.log2 d : Int) + p := by
  by_contra hlt
  have hten : (0 : ℚ) < 10 ^ p := zpow_pos (by norm_num) p
  have hsmall : (d : ℚ) * 10 ^ p ≤ 10 ^ (-400 : Int) := by
    calc (d : ℚ) * 10 ^ p ≤ 2 ^ (Nat.log2 d + 1) * 10 ^ p := by
          gcongr
          exact_mod_cast (Nat.lt_log2_self (n := d)).le
      _ ≤ 10 ^ (Nat.log2 d + 1) * 10 ^ p := by gcongr; norm_num
      _ = 10 ^ ((Nat.log2 d : Int) + 1 + p) := by
          rw [zpow_add₀ (by norm_num), ← zpow_natCast]
          push_cast
          rfl
      _ ≤ 10 ^ (-400 : Int) := zpow_le_zpow_right₀ (by norm_num) (by omega)
  have hone : (1 : ℚ) ≤ x.mantissa := by exact_mod_cast Nat.pos_of_ne_zero hzero
  have hunit : (2 : ℚ) ^ minExponent ≤ 2 ^ x.exponent :=
    zpow_le_zpow_right₀ (by norm_num) hx.exponent_ge
  have hlarge : (1 / 2 : ℚ) * 2 ^ minExponent ≤ d * 10 ^ p :=
    (mul_le_mul (by linarith) hunit (two_zpow_pos _).le (by linarith)).trans h.below
  have hbound : (10 : ℚ) ^ (-400 : Int) < 1 / 2 * 2 ^ minExponent := by
    have hnat : 2 * 2 ^ 1074 < 10 ^ 400 := by decide +kernel
    have hcast : (2 * 2 ^ 1074 : ℚ) < 10 ^ 400 := by exact_mod_cast hnat
    have hpow : (2 : ℚ) ^ minExponent = (2 ^ 1074)⁻¹ := zpow_neg 2 1074
    have hpow' : (10 : ℚ) ^ (-400 : Int) = (10 ^ 400)⁻¹ := zpow_neg 10 400
    rw [hpow, hpow', one_div, ← mul_inv]
    exact inv_strictAnti₀ (by positivity) hcast
  linarith

/-- A decimal that rounds to a number is read as that number. -/
theorem ofDecimal_of_near (hx : x.Normal) (hzero : x.mantissa ≠ 0) {p : Int}
    (h : x.Near (d * 10 ^ p)) : ofDecimal x.negative d p = some x := by
  have hd : 0 < d := by
    refine Nat.pos_of_ne_zero fun hd => ?_
    have hpos := h.pos hzero
    rw [hd, Nat.cast_zero, zero_mul] at hpos
    exact lt_irrefl 0 hpos
  have hlarge := magnitude_le hx hd h
  have hsmall := neg_400_le hx hzero h
  unfold ofDecimal
  rw [if_neg (by simpa using hd.ne')]
  dsimp only
  rw [if_neg (not_lt.mpr hlarge), if_neg (not_lt.mpr hsmall)]
  split
  · rename_i hp
    obtain ⟨k, rfl⟩ := Int.eq_ofNat_of_zero_le hp
    refine ofQuotient_of_near hx (Nat.mul_pos hd (tenTo_pos _)) Nat.one_pos ?_
    rwa [Int.toNat_natCast, Nat.cast_mul, cast_tenTo, Nat.cast_one, div_one, ← zpow_natCast]
  · obtain ⟨k, rfl⟩ : ∃ k : Nat, p = -k := ⟨(-p).toNat, by omega⟩
    refine ofQuotient_of_near hx hd (tenTo_pos _) ?_
    rwa [neg_neg, Int.toNat_natCast, cast_tenTo, div_eq_mul_inv, ← zpow_natCast, ← zpow_neg]

end DocPages.Binary64
