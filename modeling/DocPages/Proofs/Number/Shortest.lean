-- The shortest text of a floating point number reads back as that number. The decimals that are
-- tried stand on finer and finer grids; with 17 digits a grid is finer than the interval that
-- rounds to the number, so one of them is found.
import DocPages.Proofs.Number.Rounding

namespace DocPages.Binary64

variable {x : Binary64} {num den n d m : Nat} {e : Int} {v : ℚ}

/-! ## Intervals -/

/-- The value of a decimal. -/
def Decimal.value (d : Decimal) : ℚ := d.digits * 10 ^ d.power

theorem scaled_of_nonneg (b n : Nat) {p : Int} (hp : 0 ≤ p) :
    ((n * Nat.pow b p.toNat : Nat) : ℚ) / (1 : Nat) = n * b ^ p := by
  obtain ⟨k, rfl⟩ := Int.eq_ofNat_of_zero_le hp
  rw [Int.toNat_natCast, Nat.cast_one, div_one, zpow_natCast, Nat.cast_mul]
  exact congrArg _ (Nat.cast_pow b k)

theorem scaled_of_neg (b n : Nat) {p : Int} (hp : ¬0 ≤ p) :
    (n : ℚ) / (Nat.pow b (-p).toNat : Nat) = n * b ^ p := by
  obtain ⟨k, rfl⟩ : ∃ k : Nat, p = -k := ⟨(-p).toNat, by omega⟩
  rw [neg_neg, Int.toNat_natCast, zpow_neg, zpow_natCast, div_eq_mul_inv]
  exact congrArg _ (congrArg _ (Nat.cast_pow b k))

theorem Decimal.quotient_spec (d : Decimal) :
    0 < d.quotient.2 ∧ (d.quotient.1 : ℚ) / d.quotient.2 = d.value := by
  unfold quotient
  split
  · rename_i hp
    exact ⟨Nat.one_pos, scaled_of_nonneg 10 _ hp⟩
  · rename_i hp
    exact ⟨tenTo_pos _, scaled_of_neg 10 _ hp⟩

theorem quotient_spec (x : Binary64) :
    0 < x.quotient.2 ∧ (x.quotient.1 : ℚ) / x.quotient.2 = x.value := by
  unfold quotient
  split
  · rename_i hp
    exact ⟨Nat.one_pos, scaled_of_nonneg 2 _ hp⟩
  · rename_i hp
    exact ⟨twoTo_pos _, scaled_of_neg 2 _ hp⟩

/-- How far below a number its interval reaches, in quarters of a unit. -/
def slack (x : Binary64) : Nat :=
  if x.mantissa == twoTo 52 && minExponent < x.exponent then 1 else 2

theorem rounding_ends (x : Binary64) :
    0 < x.rounding.den ∧
      (x.rounding.low : ℚ) / x.rounding.den =
        (4 * x.mantissa - x.slack : Nat) * 2 ^ (x.exponent - 2) ∧
      (x.rounding.high : ℚ) / x.rounding.den =
        (4 * x.mantissa + 2 : Nat) * 2 ^ (x.exponent - 2) := by
  unfold rounding
  dsimp only
  split
  · rename_i hp
    exact ⟨Nat.one_pos, scaled_of_nonneg 2 _ hp, scaled_of_nonneg 2 _ hp⟩
  · rename_i hp
    exact ⟨twoTo_pos _, scaled_of_neg 2 _ hp, scaled_of_neg 2 _ hp⟩

theorem rounding_closed (x : Binary64) : x.rounding.closed = (x.mantissa % 2 == 0) := by
  unfold rounding
  dsimp only
  split <;> rfl

/-- The ends of the interval of a number, in units of that number. -/
theorem rounding_spec (hzero : x.mantissa ≠ 0) :
    0 < x.rounding.den ∧
      (x.rounding.low : ℚ) / x.rounding.den = (x.mantissa - x.slack / 4) * 2 ^ x.exponent ∧
      (x.rounding.high : ℚ) / x.rounding.den = (x.mantissa + 1 / 2) * 2 ^ x.exponent := by
  obtain ⟨hden, hlow, hhigh⟩ := x.rounding_ends
  have hslack : x.slack ≤ 4 * x.mantissa := by
    unfold slack
    split <;> omega
  have hquarter : (2 : ℚ) ^ (x.exponent - 2) = 2 ^ x.exponent / 4 := by
    rw [zpow_sub₀ two_ne_zero]
    norm_num
  rw [Nat.cast_sub hslack, hquarter] at hlow
  rw [hquarter] at hhigh
  refine ⟨hden, hlow.trans ?_, hhigh.trans ?_⟩
  · push_cast
    ring
  · push_cast
    ring

theorem Interval.holds_iff {i : Interval} (hi : 0 < i.den) (hden : 0 < den) :
    i.holds num den = true ↔
      if i.closed then (i.low : ℚ) / i.den ≤ num / den ∧ (num : ℚ) / den ≤ i.high / i.den
      else (i.low : ℚ) / i.den < num / den ∧ (num : ℚ) / den < i.high / i.den := by
  have hiq : (0 : ℚ) < i.den := Nat.cast_pos.mpr hi
  have hdenq : (0 : ℚ) < den := Nat.cast_pos.mpr hden
  unfold holds
  dsimp only
  split
  · rw [div_le_div_iff₀ hiq hdenq, div_le_div_iff₀ hdenq hiq, Bool.and_eq_true, decide_eq_true_eq,
      decide_eq_true_eq]
    norm_cast
  · rw [div_lt_div_iff₀ hiq hdenq, div_lt_div_iff₀ hdenq hiq, Bool.and_eq_true, decide_eq_true_eq,
      decide_eq_true_eq]
    norm_cast

/-- The interval of a number holds what rounds to it. -/
theorem holds_rounding_iff (hzero : x.mantissa ≠ 0) (hden : 0 < den) :
    x.rounding.holds num den = true ↔ x.Near ((num : ℚ) / den) := by
  obtain ⟨hi, hlow, hhigh⟩ := rounding_spec hzero
  rw [Interval.holds_iff hi hden, hlow, hhigh, rounding_closed]
  generalize (num : ℚ) / den = v
  have hunit := two_zpow_pos x.exponent
  by_cases hwide : x.mantissa = 2 ^ 52 ∧ minExponent < x.exponent
  · obtain ⟨hmantissa, hexponent⟩ := hwide
    have hslack : x.slack = 1 := by
      unfold slack
      rw [if_pos]
      simp [hmantissa, twoTo, hexponent]
    have hevenness : x.mantissa % 2 = 0 := by rw [hmantissa]; rfl
    rw [hslack, hevenness]
    constructor
    · rintro ⟨hbelow, habove⟩
      refine ⟨habove, ?_, fun _ _ => by simpa using hbelow, fun hodd => by omega⟩
      push_cast at hbelow
      nlinarith
    · intro h
      exact ⟨by simpa using h.narrow hmantissa hexponent, h.above⟩
  · have hslack : x.slack = 2 := by
      unfold slack
      rw [if_neg]
      simpa [twoTo] using hwide
    have hhalf : ((2 : Nat) : ℚ) / 4 = 1 / 2 := by norm_num
    rw [hslack, hhalf]
    rcases Nat.mod_two_eq_zero_or_one x.mantissa with heven | hodd
    · rw [heven]
      constructor
      · rintro ⟨hbelow, habove⟩
        exact ⟨habove, hbelow, fun hm he => absurd ⟨hm, he⟩ hwide, fun hodd => by omega⟩
      · intro h
        exact ⟨h.below, h.above⟩
    · rw [hodd]
      constructor
      · rintro ⟨hbelow, habove⟩
        exact ⟨habove.le, hbelow.le, fun hm he => absurd ⟨hm, he⟩ hwide, fun _ => ⟨habove, hbelow⟩⟩
      · intro h
        exact ⟨(h.even hodd).2, (h.even hodd).1⟩

/-- A decimal that is taken to be in the interval of a number rounds to it. -/
theorem within_rounding_iff (hzero : x.mantissa ≠ 0) (d : Decimal) :
    d.within x.rounding = true ↔ x.Near d.value := by
  obtain ⟨hpos, hvalue⟩ := d.quotient_spec
  rw [Decimal.within, holds_rounding_iff hzero hpos, hvalue]

/-! ## Places -/

/-- A power of ten is at most a power of two where `10 ^ 3 ≤ 2 ^ 10`, or below one
`2 ^ 93 ≤ 10 ^ 28`, says so. -/
theorem ten_zpow_le_two_zpow {p q : Int} (hlarge : 10 * p ≤ 3 * q) (hsmall : 93 * p ≤ 28 * q) :
    (10 : ℚ) ^ p ≤ 2 ^ q := by
  rcases le_total 0 p with hp | hp
  · obtain ⟨k, rfl⟩ := Int.eq_ofNat_of_zero_le hp
    refine le_of_pow_le_pow_left₀ three_ne_zero (two_zpow_pos q).le ?_
    calc ((10 : ℚ) ^ (k : Int)) ^ 3 = (10 ^ 3) ^ k := by rw [zpow_natCast, pow_right_comm]
      _ ≤ (2 ^ 10) ^ k := by gcongr; norm_num
      _ = 2 ^ (10 * (k : Int)) := by rw [zpow_mul, zpow_natCast]; rfl
      _ ≤ 2 ^ (q * 3) := zpow_le_zpow_right₀ (by norm_num) (by omega)
      _ = ((2 : ℚ) ^ q) ^ 3 := by rw [zpow_mul]; rfl
  · obtain ⟨k, rfl⟩ : ∃ k : Nat, p = -k := ⟨(-p).toNat, by omega⟩
    refine le_of_pow_le_pow_left₀ (n := 28) (by norm_num) (two_zpow_pos q).le ?_
    calc ((10 : ℚ) ^ (-(k : Int))) ^ 28 = ((10 ^ 28) ^ k)⁻¹ := by
          rw [zpow_neg, zpow_natCast, inv_pow, pow_right_comm]
      _ ≤ ((2 ^ 93) ^ k)⁻¹ := by
          refine inv_anti₀ (by positivity) ?_
          gcongr
          norm_num
      _ = 2 ^ (93 * -(k : Int)) := by rw [zpow_mul, zpow_neg, zpow_natCast]; rfl
      _ ≤ 2 ^ (q * 28) := zpow_le_zpow_right₀ (by norm_num) (by omega)
      _ = ((2 : ℚ) ^ q) ^ 28 := by rw [zpow_mul]; rfl

/-- The places counted in front of the point are not too many: the quotient has a digit there. -/
theorem le_of_magnitude (hnum : 0 < num) (hden : 0 < den)
    (hlow : (2 : ℚ) ^ (-1100 : Int) ≤ num / den) (hhigh : (num : ℚ) / den < 2 ^ (1100 : Int)) :
    (10 : ℚ) ^ (magnitude num den - 1) ≤ num / den := by
  have hdenq : (0 : ℚ) < den := Nat.cast_pos.mpr hden
  have hreaches : ∀ k : Int,
      (if 0 ≤ k then den * tenTo k.toNat ≤ num else den ≤ num * tenTo (-k).toNat) →
        (10 : ℚ) ^ k ≤ num / den := by
    intro k h
    split at h
    · rename_i hk
      obtain ⟨n, rfl⟩ := Int.eq_ofNat_of_zero_le hk
      rw [Int.toNat_natCast] at h
      rw [le_div_iff₀ hdenq, zpow_natCast, mul_comm, ← cast_tenTo]
      exact_mod_cast h
    · obtain ⟨n, rfl⟩ : ∃ n : Nat, k = -n := ⟨(-k).toNat, by omega⟩
      rw [neg_neg, Int.toNat_natCast] at h
      rw [zpow_neg, zpow_natCast, inv_le_comm₀ (by positivity) (by positivity), inv_div,
        div_le_iff₀ (Nat.cast_pos.mpr hnum), mul_comm, ← cast_tenTo]
      exact_mod_cast h
  obtain ⟨habove, hbelow⟩ := quotient_bounds hnum hden
  have hleast := hlow.trans_lt hbelow
  have hmost := habove.trans hhigh
  rw [zpow_lt_zpow_iff_right₀ (by norm_num : (1 : ℚ) < 2)] at hleast hmost
  unfold magnitude
  dsimp only
  generalize (Nat.log2 num : Int) - (Nat.log2 den : Int) = width at *
  split
  · rename_i k hk
    have hk' := List.find?_some hk
    rw [add_sub_cancel_right]
    refine hreaches k ?_
    split at hk'
    · rename_i hsign
      rw [if_pos hsign]
      exact of_decide_eq_true hk'
    · rename_i hsign
      rw [if_neg hsign]
      exact of_decide_eq_true hk'
  · refine le_trans (ten_zpow_le_two_zpow (q := width - 1) ?_ ?_) habove.le <;> omega

/-- The neighbours of a quotient on a grid, one grid step apart, are on its two sides. -/
theorem neighbours_spec (num : Nat) (hden : 0 < den) (power : Int) :
    (neighbours num den power).1.value ≤ num / den ∧
      (num : ℚ) / den < (neighbours num den power).2.value ∧
      (neighbours num den power).2.value =
        (neighbours num den power).1.value + 10 ^ power := by
  have hdenq : (0 : ℚ) < den := Nat.cast_pos.mpr hden
  have hgrid : (0 : ℚ) < 10 ^ power := zpow_pos (by norm_num) power
  obtain ⟨n, d, hd, hvalue, hfloor⟩ : ∃ n d : Nat, 0 < d ∧ (n : ℚ) / d = num / den / 10 ^ power ∧
      neighbours num den power = (⟨n / d, power⟩, ⟨n / d + 1, power⟩) := by
    unfold neighbours
    dsimp only
    split
    · rename_i hp
      obtain ⟨k, rfl⟩ := Int.eq_ofNat_of_zero_le hp
      refine ⟨num, den * tenTo k, Nat.mul_pos hden (tenTo_pos k), ?_, rfl⟩
      rw [Nat.cast_mul, cast_tenTo, zpow_natCast, div_div]
    · obtain ⟨k, rfl⟩ : ∃ k : Nat, power = -k := ⟨(-power).toNat, by omega⟩
      refine ⟨num * tenTo k, den, hden, ?_, by rw [neg_neg, Int.toNat_natCast]⟩
      rw [Nat.cast_mul, cast_tenTo, zpow_neg, zpow_natCast]
      field_simp
  have hdq : (0 : ℚ) < d := Nat.cast_pos.mpr hd
  have hbelow : ((n / d : Nat) : ℚ) ≤ n / d := by
    rw [le_div_iff₀ hdq]
    exact_mod_cast Nat.div_mul_le_self n d
  have habove : (n : ℚ) / d < (n / d : Nat) + 1 := by
    rw [div_lt_iff₀ hdq]
    exact_mod_cast (Nat.div_lt_iff_lt_mul hd).mp (Nat.lt_succ_self (n / d))
  rw [hvalue] at hbelow habove
  rw [le_div_iff₀ hgrid] at hbelow
  rw [div_lt_iff₀ hgrid] at habove
  rw [hfloor]
  unfold Decimal.value
  dsimp only
  rw [Nat.cast_succ]
  exact ⟨hbelow, habove, by ring⟩

/-! ## The shortest text -/

/-- What is as close to a number as half a step of a grid with 17 digits rounds to it. -/
theorem near_of_close (hx : x.Normal) (hlow : x.value - x.value / (2 * 10 ^ 16) ≤ v)
    (hhigh : v ≤ x.value + x.value / (2 * 10 ^ 16)) : x.Near v := by
  have hunit := two_zpow_pos x.exponent
  have hlt : (x.mantissa : ℚ) + 1 ≤ 2 ^ 53 := by exact_mod_cast hx.mantissa_lt
  have hnonneg : (0 : ℚ) ≤ x.mantissa := Nat.cast_nonneg _
  unfold value at hlow hhigh
  have habove : v < (x.mantissa + 1 / 2) * 2 ^ x.exponent :=
    hhigh.trans_lt (by nlinarith)
  have hbelow : (x.mantissa - 1 / 2) * 2 ^ x.exponent < v :=
    lt_of_lt_of_le (by nlinarith) hlow
  refine ⟨habove.le, hbelow.le, fun hmantissa _ => le_trans ?_ hlow, fun _ => ⟨habove, hbelow⟩⟩
  have hmantissa' : (x.mantissa : ℚ) = 2 ^ 52 := by exact_mod_cast hmantissa
  rw [hmantissa']
  nlinarith

/-- One of the two decimals next to a number on a grid with 17 digits rounds to it. -/
theorem near_of_neighbours (hx : x.Normal) {low high : ℚ} {places : Int}
    (hplaces : (10 : ℚ) ^ (places - 1) ≤ x.value) (hlow : low ≤ x.value) (hhigh : x.value < high)
    (hstep : high = low + 10 ^ (places - 17)) : x.Near low ∨ x.Near high := by
  have hgrid : (10 : ℚ) ^ (places - 17) ≤ x.value / 10 ^ 16 := by
    rw [le_div_iff₀ (by norm_num)]
    refine le_trans (le_of_eq ?_) hplaces
    rw [← zpow_natCast, ← zpow_add₀ (by norm_num)]
    congr 1
    push_cast
    ring
  have hnonneg : 0 ≤ x.value := (zpow_pos (by norm_num) _).le.trans hplaces
  rcases le_total (x.value - low) (high - x.value) with hnear | hnear
  · exact .inl (near_of_close hx (by linarith) (by linarith))
  · exact .inr (near_of_close hx (by linarith) (by linarith))

theorem nearer_eq (num den : Nat) (below above : Decimal) :
    nearer num den below above = below ∨ nearer num den below above = above := by
  have hpick : ∀ {p : Prop} [Decidable p] {a b : Decimal},
      (a = below ∨ a = above) → (b = below ∨ b = above) →
        ((if p then a else b) = below ∨ (if p then a else b) = above) := by
    intro p _ a b ha hb
    split
    · exact ha
    · exact hb
  exact hpick (.inl rfl) (hpick (.inr rfl) (hpick (.inl rfl) (.inr rfl)))

/-- One grid: a neighbour that rounds to the number is taken, and without one the next grid is
tried. -/
theorem near_shortestFrom_succ (hzero : x.mantissa ≠ 0) {places : Int} {more count : Nat}
    (hnext : ¬x.Near (neighbours num den (places - count)).1.value →
      ¬x.Near (neighbours num den (places - count)).2.value →
        x.Near (shortestFrom x.rounding num den places more (count + 1)).value) :
    x.Near (shortestFrom x.rounding num den places (more + 1) count).value := by
  rw [shortestFrom]
  generalize neighbours num den (places - count) = next at hnext ⊢
  obtain ⟨below, above⟩ := next
  dsimp only at hnext ⊢
  rw [← within_rounding_iff hzero, ← within_rounding_iff hzero] at hnext
  split
  · rename_i hbelow habove
    rcases nearer_eq num den below above with h | h <;> rw [h]
    · exact (within_rounding_iff hzero below).mp hbelow
    · exact (within_rounding_iff hzero above).mp habove
  · rename_i hbelow _
    exact (within_rounding_iff hzero below).mp hbelow
  · rename_i _ habove
    exact (within_rounding_iff hzero above).mp habove
  · rename_i hbelow habove
    exact hnext (by rw [hbelow]; decide) (by rw [habove]; decide)

/-- The last grid that is tried has 17 digits, so what is found rounds to the number. -/
theorem near_shortestFrom (hx : x.Normal) (hzero : x.mantissa ≠ 0) (hden : 0 < den)
    (hvalue : (num : ℚ) / den = x.value) {places : Int}
    (hplaces : (10 : ℚ) ^ (places - 1) ≤ x.value) (more count : Nat) (h : count + more = 17) :
    x.Near (shortestFrom x.rounding num den places (more + 1) count).value := by
  induction more generalizing count with
  | zero =>
    obtain rfl : count = 17 := by omega
    refine near_shortestFrom_succ hzero fun hbelow habove => ?_
    obtain ⟨hlow, hhigh, hstep⟩ := neighbours_spec num hden (places - (17 : Nat))
    rw [hvalue] at hlow hhigh
    exact ((near_of_neighbours hx hplaces hlow hhigh hstep).elim hbelow habove).elim
  | succ more ih =>
    exact near_shortestFrom_succ hzero fun _ _ => ih (count + 1) (by omega)

theorem Decimal.strip_value (d : Decimal) (n : Nat) : (d.strip n).value = d.value := by
  induction n generalizing d with
  | zero => rfl
  | succ n ih =>
    rw [Decimal.strip]
    split
    · rename_i h
      rw [Bool.and_eq_true, beq_iff_eq] at h
      rw [ih]
      unfold Decimal.value
      dsimp only
      have hdigits : ((d.digits / 10 : Nat) : ℚ) * 10 = d.digits := by
        exact_mod_cast Nat.div_mul_cancel (Nat.dvd_of_mod_eq_zero h.2)
      rw [zpow_add_one₀ (by norm_num), ← hdigits]
      ring
    · rfl

/-- The shortest decimal of a number rounds to it. -/
theorem near_shortest (hx : x.Normal) (hzero : x.mantissa ≠ 0) : x.Near x.shortest.value := by
  obtain ⟨hden, hvalue⟩ := x.quotient_spec
  have hone : (1 : ℚ) ≤ x.mantissa := by exact_mod_cast Nat.pos_of_ne_zero hzero
  have hnum : 0 < x.quotient.1 := by
    refine Nat.pos_of_ne_zero fun h => ?_
    rw [h, Nat.cast_zero, zero_div, value] at hvalue
    have := mul_pos (zero_lt_one.trans_le hone) (two_zpow_pos x.exponent)
    linarith
  have hlow : (2 : ℚ) ^ (-1100 : Int) ≤ x.value := by
    calc (2 : ℚ) ^ (-1100 : Int) ≤ 2 ^ x.exponent :=
          zpow_le_zpow_right₀ (by norm_num) (le_trans (by decide) hx.exponent_ge)
      _ ≤ x.value := le_mul_of_one_le_left (two_zpow_pos _).le hone
  have hhigh : x.value < (2 : ℚ) ^ (1100 : Int) := by
    have hlt : (x.mantissa : ℚ) < 2 ^ 53 := by exact_mod_cast hx.mantissa_lt
    calc x.value < 2 ^ (53 : Int) * 2 ^ x.exponent :=
          mul_lt_mul_of_pos_right hlt (two_zpow_pos _)
      _ = 2 ^ (53 + x.exponent) := (zpow_add₀ two_ne_zero 53 x.exponent).symm
      _ ≤ 2 ^ (1100 : Int) := by
          have hle : x.exponent ≤ 971 := hx.exponent_le
          exact zpow_le_zpow_right₀ (by norm_num) (by omega)
  have hplaces := le_of_magnitude hnum hden (hlow.trans_eq hvalue.symm) (hvalue.trans_lt hhigh)
  rw [hvalue] at hplaces
  show x.Near (Decimal.strip _ _).value
  rw [Decimal.strip_value]
  exact near_shortestFrom hx hzero hden hvalue hplaces 16 1 rfl

end DocPages.Binary64
