-- The time of a file. It is counted from the start of 1970 in both directions, so
-- what is dropped and what is cut off lies towards that instant on either side.
-- An instant in front of it is given by the second in front of the instant, and the
-- nanoseconds are counted back from the next second.
import DocPages.Page.FileTime
import Mathlib.Algebra.Order.Ring.Int

namespace DocPages.Page

variable {seconds seconds' : Int} {nanos nanos' : Nat} {d : Span}

/-! ## Stretches of time -/

/-- The nanoseconds between the start of 1970 and an instant. They are negative in front of it. -/
def nanosOf (seconds : Int) (nanos : Nat) : Int := seconds * 1000000000 + nanos

/-- The nanoseconds of a stretch of time. -/
def Span.total (d : Span) : Nat := d.seconds * 1000000000 + d.nanos

/-- Milliseconds that are counted from the seconds and from the rest are those of the whole. -/
theorem Span.millis_eq (d : Span) : d.millis = d.total / 1000000 := by
  unfold millis total nanosPerMilli
  omega

/-- An instant that does not lie in front of the start of 1970. -/
theorem sinceEpoch_of_nonneg (h : 0 ≤ seconds) (nanos : Nat) :
    ∃ d, sinceEpoch seconds nanos = .ok d ∧ (d.total : Int) = nanosOf seconds nanos := by
  refine ⟨_, if_pos h, ?_⟩
  simp only [Span.total, nanosOf]
  omega

/-- An instant in front of the start of 1970. -/
theorem sinceEpoch_of_neg (h : ¬ 0 ≤ seconds) (hnanos : nanos < 1000000000) :
    ∃ d, sinceEpoch seconds nanos = .error d ∧ (d.total : Int) = -nanosOf seconds nanos := by
  unfold sinceEpoch
  rw [if_neg h]
  split
  · refine ⟨_, rfl, ?_⟩
    simp only [Span.total, nanosOf]
    omega
  · refine ⟨_, rfl, ?_⟩
    simp only [Span.total, nanosOf, nanosPerSecond]
    omega

/-! ## Numbers of 64 bits -/

theorem maxMillis_eq : maxMillis = 2 ^ 63 - 1 := by
  rw [maxMillis, Int64.toInt_maxValue]

theorem toInt_clamped (n : Nat) : (clamped n).toInt = min (n : Int) (2 ^ 63 - 1) := by
  unfold clamped
  rw [maxMillis_eq]
  split
  · rename_i hfits
    rw [Int64.toInt_ofNat_of_lt (by omega), min_eq_left hfits]
  · rename_i hgreat
    rw [Int64.toInt_maxValue, min_eq_right (by omega)]

/-- The least number of 64 bits is never reached, and so a change of the sign does not run over. -/
theorem toInt_neg_clamped (n : Nat) : (-(clamped n)).toInt = -(clamped n).toInt := by
  have hle : (clamped n).toInt ≤ 2 ^ 63 - 1 := by
    rw [toInt_clamped]
    exact min_le_right _ _
  have hnonneg : 0 ≤ (clamped n).toInt := by
    rw [toInt_clamped]
    omega
  rw [Int64.toInt_neg, Int.bmod_eq_of_le]
  · omega
  · omega

/-! ## Milliseconds -/

/-- A whole number up to the greatest of 64 bits in both directions. -/
def within (n : Int) : Int := max (-(2 ^ 63 - 1)) (min (2 ^ 63 - 1) n)

theorem within_mono {m n : Int} (h : m ≤ n) : within m ≤ within n := by
  unfold within
  omega

theorem within_neg (n : Int) : within (-n) = -within n := by
  unfold within
  omega

theorem tdiv_of_total (n : Nat) : (n : Int).tdiv 1000000 = ((n / 1000000 : Nat) : Int) :=
  (Int.ofNat_tdiv n 1000000).symm

/-- The milliseconds of an instant are counted from its nanoseconds. -/
theorem millis_eq (hnanos : nanos < 1000000000) :
    millis seconds nanos = within ((nanosOf seconds nanos).tdiv 1000000) := by
  unfold millis
  by_cases hseconds : 0 ≤ seconds
  · obtain ⟨d, hsince, htotal⟩ := sinceEpoch_of_nonneg hseconds nanos
    rw [hsince, ← htotal, tdiv_of_total, ← Span.millis_eq]
    simp only [toInt_clamped, within]
    omega
  · obtain ⟨d, hsince, htotal⟩ := sinceEpoch_of_neg hseconds hnanos
    have hneg : nanosOf seconds nanos = -(d.total : Int) := by omega
    rw [hsince, hneg, Int.neg_tdiv, tdiv_of_total, ← Span.millis_eq, within_neg]
    simp only [toInt_neg_clamped, toInt_clamped, within]
    omega

/-- A stretch of time up to an instant of 64 bits is one of 64 bits without a sign, and its
milliseconds have 128 bits at most. -/
theorem sinceEpoch_fits (hfirst : -2 ^ 63 ≤ seconds) (hlast : seconds < 2 ^ 63)
    (hnanos : nanos < 1000000000)
    (hsince : sinceEpoch seconds nanos = .ok d ∨ sinceEpoch seconds nanos = .error d) :
    d.seconds < 2 ^ 64 ∧ d.nanos < 1000000000 ∧ d.millis < 2 ^ 128 := by
  have hspan : d.seconds < 2 ^ 64 ∧ d.nanos < 1000000000 := by
    unfold sinceEpoch nanosPerSecond at hsince
    split at hsince
    · rcases hsince with hsince | hsince
      · cases hsince
        simp only
        omega
      · cases hsince
    · split at hsince
      · rcases hsince with hsince | hsince
        · cases hsince
        · cases hsince
          simp only
          omega
      · rcases hsince with hsince | hsince
        · cases hsince
        · cases hsince
          simp only
          omega
  refine ⟨hspan.1, hspan.2, ?_⟩
  unfold Span.millis nanosPerMilli
  omega

/-! ## The law -/

/-- The time of a file is told in milliseconds from the start of 1970: the quotient of its
nanoseconds, cut towards zero on both sides, and kept within the numbers of 64 bits. So a later
instant has no smaller time, and an instant as far on the other side the opposite one. Neither does
a stretch of time run over its 64 bits and its milliseconds over 128, nor the milliseconds that are
told over 64, nor a change of their sign. -/
theorem a_file_time_is_cut_towards_zero :
    (∀ seconds nanos, nanos < 1000000000 → millis seconds nanos =
        max (-(2 ^ 63 - 1)) (min (2 ^ 63 - 1) ((seconds * 1000000000 + nanos).tdiv 1000000))) ∧
      (∀ seconds nanos seconds' nanos', nanos < 1000000000 → nanos' < 1000000000 →
        nanosOf seconds nanos ≤ nanosOf seconds' nanos' →
        millis seconds nanos ≤ millis seconds' nanos') ∧
      (∀ seconds nanos seconds' nanos', nanos < 1000000000 → nanos' < 1000000000 →
        nanosOf seconds nanos = -nanosOf seconds' nanos' →
        millis seconds nanos = -millis seconds' nanos') ∧
      (∀ seconds nanos d, -2 ^ 63 ≤ seconds → seconds < 2 ^ 63 → nanos < 1000000000 →
        (sinceEpoch seconds nanos = .ok d ∨ sinceEpoch seconds nanos = .error d) →
        d.seconds < 2 ^ 64 ∧ d.nanos < 1000000000 ∧ d.millis < 2 ^ 128) ∧
      ∀ n : Nat, (clamped n).toInt = min (n : Int) (2 ^ 63 - 1) ∧
        (-(clamped n)).toInt = -(clamped n).toInt := by
  refine ⟨?_, ?_, ?_, ?_, ?_⟩
  · intro seconds nanos hnanos
    exact millis_eq hnanos
  · intro seconds nanos seconds' nanos' hnanos hnanos' hle
    rw [millis_eq hnanos, millis_eq hnanos']
    exact within_mono (Int.tdiv_le_tdiv (by decide) hle)
  · intro seconds nanos seconds' nanos' hnanos hnanos' hmirrored
    rw [millis_eq hnanos, millis_eq hnanos', hmirrored, Int.neg_tdiv, within_neg]
  · intro seconds nanos d hfirst hlast hnanos hsince
    exact sinceEpoch_fits hfirst hlast hnanos hsince
  · intro n
    exact ⟨toInt_clamped n, toInt_neg_clamped n⟩

/-- The last nanosecond of 1969 has no whole millisecond. The first second that can be told is cut to
the least time, and an instant as far behind 1970 as another lies in front of it has the opposite
time. -/
theorem fileTimes_around_zero_and_at_the_ends :
    millis (-1) 999999999 = 0 ∧ millis (-2) 999999 = -1999 ∧
      millis (-9223372036854775808) 0 = -(2 ^ 63 - 1) ∧
      millis (-9223372036854775808) 0 ≤ millis (-1) 999999999 ∧
      millis (-2) 999999 = -millis 1 999000001 ∧
      sinceEpoch (-9223372036854775808) 1 = .error ⟨9223372036854775807, 999999999⟩ ∧
      (⟨9223372036854775807, 999999999⟩ : Span).millis < 2 ^ 128 := by
  obtain ⟨hmillis, hlater, hmirrored, hfits, -⟩ := a_file_time_is_cut_towards_zero
  have hsince : sinceEpoch (-9223372036854775808) 1 = .error ⟨9223372036854775807, 999999999⟩ := by
    decide
  refine ⟨?_, ?_, ?_, ?_, ?_, hsince, ?_⟩
  · exact hmillis (-1) 999999999 (by decide)
  · exact hmillis (-2) 999999 (by decide)
  · exact hmillis (-9223372036854775808) 0 (by decide)
  · exact hlater _ _ _ _ (by decide) (by decide) (by decide)
  · exact hmirrored _ _ _ _ (by decide) (by decide) (by decide)
  · exact (hfits _ _ _ (by decide) (by decide) (by decide) (Or.inr hsince)).2.2

end DocPages.Page
