-- The text of a number reads back as that number. A number is written as a numeral: digits, digits
-- behind a point and a power of ten, some of which may be missing. Reading takes all of a numeral,
-- as long as nothing behind it could be one more part of it.
import DocPages.Json.Printer
import DocPages.Json.Reader
import DocPages.Proofs.Number.Shortest

namespace DocPages

variable {ds cs rest : List Char} {n : Nat}

/-! ## Digits -/

namespace Text

theorem digitsValue_append (cs ds : List Char) :
    digitsValue 10 (cs ++ ds) = digitsValue 10 cs * 10 ^ ds.length + digitsValue 10 ds := by
  have hfrom : ∀ (ds : List Char) (n : Nat), ds.foldl (fun n c => n * 10 + hexValue c) n =
      n * 10 ^ ds.length + ds.foldl (fun n c => n * 10 + hexValue c) 0 := by
    intro ds
    induction ds with
    | nil => intro n; simp
    | cons d ds ih =>
      intro n
      rw [List.foldl_cons, List.foldl_cons, ih, ih (0 * 10 + hexValue d), List.length_cons,
        Nat.pow_succ]
      ring
  unfold digitsValue
  rw [List.foldl_append, hfrom]

theorem digitsValue_zeros (n : Nat) : digitsValue 10 (List.replicate n '0') = 0 := by
  induction n with
  | zero => rfl
  | succ n ih =>
    rw [List.replicate_succ', digitsValue_append, ih, Nat.zero_mul]
    rfl

end Text

namespace Binary64

theorem isDigit_of_mem_digitChars {c : Char} (h : c ∈ digitChars n) : c.isDigit = true :=
  Nat.isDigit_of_mem_toDigits (by decide) (by decide) h

theorem digitChars_of_lt (h : n < 10) : digitChars n = [Nat.digitChar n] :=
  Nat.toDigits_of_lt_base h

theorem digitChars_of_le (h : 10 ≤ n) :
    digitChars n = digitChars (n / 10) ++ [Nat.digitChar (n % 10)] :=
  Nat.toDigits_of_base_le (by decide) h

theorem digitsValue_digitChars (n : Nat) : Text.digitsValue 10 (digitChars n) = n := by
  have hone : ∀ d < 10, Text.digitsValue 10 [Nat.digitChar d] = d := by decide
  induction n using Nat.strongRecOn with
  | _ n ih =>
    rcases Nat.lt_or_ge n 10 with hn | hn
    · rw [digitChars_of_lt hn, hone n hn]
    · rw [digitChars_of_le hn, Text.digitsValue_append, ih _ (by omega), hone _ (by omega),
        List.length_singleton, pow_one]
      omega

theorem head?_digitChars (hn : 0 < n) : (digitChars n).head? ≠ some '0' := by
  have hone : ∀ d < 10, 0 < d → [Nat.digitChar d].head? ≠ some '0' := by decide
  induction n using Nat.strongRecOn with
  | _ n ih =>
    rcases Nat.lt_or_ge n 10 with hlt | hge
    · rw [digitChars_of_lt hlt]
      exact hone n hlt hn
    · have hne : digitChars (n / 10) ≠ [] := Nat.toDigits_ne_nil
      rw [digitChars_of_le hge, List.head?_append_of_ne_nil _ hne]
      exact ih _ (by omega) (by omega)

end Binary64

namespace Json

/-! ## Numerals -/

/-- A decimal as it is written. -/
structure Numeral where
  whole : List Char
  decimals : List Char
  power : Option Int

/-- No sign of a number going on at the front of a text. -/
def Ends (rest : List Char) : Prop :=
  ∀ c ∈ rest.head?, c.isDigit = false ∧ c ≠ '.' ∧ c ≠ 'e' ∧ c ≠ 'E'

namespace Numeral

/-- The digits of a numeral are digits, and a zero in front stands alone. -/
structure WellFormed (n : Numeral) : Prop where
  whole : ∀ c ∈ n.whole, c.isDigit = true
  decimals : ∀ c ∈ n.decimals, c.isDigit = true
  front : n.whole ≠ []
  zero : n.whole.head? = some '0' → n.whole = ['0']

/-- A point and what stands behind it. -/
def fractionChars : List Char → List Char
  | [] => []
  | c :: cs => '.' :: c :: cs

theorem fractionChars_eq (h : ds ≠ []) : fractionChars ds = '.' :: ds := by
  obtain ⟨d, ds, rfl⟩ := List.exists_cons_of_ne_nil h
  rfl

/-- The mark of a power of ten and the power. -/
def powerChars : Option Int → List Char
  | none => []
  | some p => 'e' :: ((if p < 0 then ['-'] else []) ++ Binary64.digitChars p.natAbs)

/-- The characters of a numeral. -/
def chars (n : Numeral) : List Char := n.whole ++ (fractionChars n.decimals ++ powerChars n.power)

/-- All digits of a numeral, as one whole number. -/
def digits (n : Numeral) : Nat := Text.digitsValue 10 (n.whole ++ n.decimals)

/-- The power of ten that goes with all digits. -/
def scale (n : Numeral) : Int := n.power.getD 0 - n.decimals.length

/-- The number that a numeral spells behind a sign. -/
def number (negative : Bool) (n : Numeral) : Option Number :=
  if n.decimals.isEmpty && n.power.isNone && !(negative && n.digits == 0) then
    Number.ofInt? (if negative then -n.digits else n.digits)
  else (Binary64.ofDecimal negative n.digits n.scale).map .float

end Numeral

theorem spanDigits_append (hds : ∀ c ∈ ds, c.isDigit = true)
    (hrest : ∀ c ∈ rest.head?, c.isDigit = false) : spanDigits (ds ++ rest) = (ds, rest) := by
  unfold spanDigits
  rw [List.span_eq_takeWhile_dropWhile, List.takeWhile_append_of_pos hds,
    List.dropWhile_append_of_pos hds]
  cases rest with
  | nil => simp
  | cons c rest =>
    have hc : ¬c.isDigit = true := by
      rw [hrest c rfl]
      decide
    rw [List.takeWhile_cons_of_neg hc, List.dropWhile_cons_of_neg hc, List.append_nil]

theorem fraction?_append (hds : ∀ c ∈ ds, c.isDigit = true)
    (hrest : ∀ c ∈ rest.head?, c.isDigit = false ∧ c ≠ '.') :
    fraction? (Numeral.fractionChars ds ++ rest) = some (ds, rest) := by
  cases ds with
  | nil =>
    show fraction? rest = some ([], rest)
    unfold fraction?
    split
    · exact absurd rfl (hrest '.' rfl).2
    · rfl
  | cons d ds =>
    show fraction? ('.' :: (d :: ds ++ rest)) = some (d :: ds, rest)
    rw [fraction?, spanDigits_append hds fun c hc => (hrest c hc).1]

theorem ne_of_isDigit {c d : Char} (hc : c.isDigit = true) (hd : d.isDigit = false) : c ≠ d := by
  rintro rfl
  rw [hc] at hd
  exact absurd hd (by decide)

theorem power?_digits (negative : Bool) (hds : ∀ c ∈ ds, c.isDigit = true) (hne : ds ≠ [])
    (hrest : ∀ c ∈ rest.head?, c.isDigit = false) :
    power? ('e' :: ((if negative then ['-'] else []) ++ (ds ++ rest))) =
      some (some (if negative then -(Text.digitsValue 10 ds : Int) else Text.digitsValue 10 ds),
        rest) := by
  obtain ⟨d, ds, rfl⟩ := List.exists_cons_of_ne_nil hne
  have hspan := spanDigits_append hds hrest
  cases negative with
  | true =>
    show power? ('e' :: '-' :: (d :: ds ++ rest)) = _
    rw [power?]
    simp only [hspan]
    rfl
  | false =>
    have hd : d.isDigit = true := hds d List.mem_cons_self
    have hminus : d ≠ '-' := ne_of_isDigit hd (by decide)
    have hplus : d ≠ '+' := ne_of_isDigit hd (by decide)
    show power? ('e' :: (d :: ds ++ rest)) = _
    rw [List.cons_append] at hspan ⊢
    rw [power?]
    · simp [hspan]
    · exact fun r h => hminus (List.cons.inj h).1
    · exact fun r h => hplus (List.cons.inj h).1

theorem power?_append (p : Option Int)
    (hrest : ∀ c ∈ rest.head?, c.isDigit = false ∧ c ≠ 'e' ∧ c ≠ 'E') :
    power? (Numeral.powerChars p ++ rest) = some (p, rest) := by
  cases p with
  | none =>
    cases rest with
    | nil => rfl
    | cons c rest =>
      obtain ⟨-, hlower, hupper⟩ := hrest c rfl
      have hmark : ¬(c == 'e' || c == 'E') = true := by simp [hlower, hupper]
      show power? (c :: rest) = some (none, c :: rest)
      unfold power?
      exact if_neg hmark
  | some p =>
    have hdigits := power?_digits (decide (p < 0))
      (fun c => Binary64.isDigit_of_mem_digitChars (n := p.natAbs)) Nat.toDigits_ne_nil
      fun c hc => (hrest c hc).1
    rw [Binary64.digitsValue_digitChars] at hdigits
    rw [Numeral.powerChars, List.cons_append, List.append_assoc]
    simp only [decide_eq_true_eq] at hdigits
    rw [hdigits]
    congr
    split <;> omega

theorem sign_append (negative : Bool) {d : Char} (hd : d ≠ '-') (cs : List Char) :
    sign ((if negative then ['-'] else []) ++ d :: cs) = (negative, d :: cs) := by
  cases negative with
  | true => rfl
  | false =>
    show sign (d :: cs) = _
    rw [sign]
    exact fun r h => hd (List.cons.inj h).1

namespace Numeral

variable {m : Numeral}

/-- Nothing behind the digits in front is one more digit. -/
theorem head?_tail (hrest : Ends rest) :
    ∀ c ∈ (fractionChars m.decimals ++ (powerChars m.power ++ rest)).head?, c.isDigit = false := by
  intro c hc
  obtain ⟨whole, decimals, power⟩ := m
  rcases decimals with _ | ⟨d, ds⟩
  · rcases power with _ | p
    · exact (hrest c hc).1
    · obtain rfl : 'e' = c := Option.some_inj.mp hc
      decide
  · obtain rfl : '.' = c := Option.some_inj.mp hc
    decide

/-- Nothing behind the digits behind the point is one more digit, nor one more point. -/
theorem head?_power (hrest : Ends rest) :
    ∀ c ∈ (powerChars m.power ++ rest).head?, c.isDigit = false ∧ c ≠ '.' := by
  intro c hc
  obtain ⟨whole, decimals, power⟩ := m
  rcases power with _ | p
  · exact ⟨(hrest c hc).1, (hrest c hc).2.1⟩
  · obtain rfl : 'e' = c := Option.some_inj.mp hc
    exact ⟨by decide, by decide⟩

end Numeral

/-- A numeral is read to its end. -/
theorem number?_numeral (negative : Bool) {m : Numeral} (hm : m.WellFormed) (hrest : Ends rest) :
    number? ((if negative then ['-'] else []) ++ (m.chars ++ rest)) =
      some (m.number negative, rest) := by
  have hspan := spanDigits_append hm.whole (m.head?_tail hrest)
  have hfraction := fraction?_append hm.decimals (m.head?_power hrest)
  have hpower := power?_append m.power fun c hc => ⟨(hrest c hc).1, (hrest c hc).2.2⟩
  obtain ⟨d, ds, hwhole⟩ := List.exists_cons_of_ne_nil hm.front
  have hd : d ≠ '-' := ne_of_isDigit (hm.whole d (hwhole ▸ List.mem_cons_self)) (by decide)
  have hsign := sign_append negative hd
    (ds ++ (Numeral.fractionChars m.decimals ++ (Numeral.powerChars m.power ++ rest)))
  rw [← List.cons_append, ← hwhole] at hsign
  rw [Numeral.chars, List.append_assoc, List.append_assoc]
  unfold number?
  simp only [hsign, hspan]
  split
  · rename_i hnil
    exact absurd hnil hm.front
  · rename_i c cs hzero
    have halone := hm.zero (by rw [hzero]; rfl)
    rw [hzero] at halone
    exact absurd (List.cons.inj halone).2 (List.cons_ne_nil c cs)
  · simp only [hfraction, hpower, Option.bind_eq_bind, Option.bind_some]
    unfold Numeral.number Numeral.digits Numeral.scale
    split <;> rfl

/-! ## Floating point numbers -/

namespace Numeral

variable {m : Numeral} {d : Binary64.Decimal} {p : Int}

/-- A numeral with a point or a power of ten that has the value of a decimal. -/
structure Spells (m : Numeral) (d : Binary64.Decimal) : Prop where
  wellFormed : m.WellFormed
  broken : (m.decimals.isEmpty && m.power.isNone) = false
  value : (m.digits : ℚ) * 10 ^ m.scale = d.value

/-- Digits of which the first is not a zero. -/
structure Leading (ds : List Char) : Prop where
  digits : ∀ c ∈ ds, c.isDigit = true
  front : ds ≠ []
  zero : ds.head? ≠ some '0'

theorem leading_digitChars {n : Nat} (hn : 0 < n) : Leading (Binary64.digitChars n) :=
  ⟨fun _ => Binary64.isDigit_of_mem_digitChars, Nat.toDigits_ne_nil, Binary64.head?_digitChars hn⟩

theorem isDigit_zeros (n : Nat) : ∀ c ∈ List.replicate n '0', c.isDigit = true := by
  intro c hc
  rw [(List.mem_replicate.mp hc).2]
  decide

/-- Digits, zeros up to the point, and a zero behind it. -/
theorem spells_whole (h : Leading ds) (k : Nat) :
    Spells ⟨ds ++ List.replicate k '0', ['0'], none⟩ ⟨Text.digitsValue 10 ds, k⟩ := by
  refine ⟨⟨?_, isDigit_zeros 1, ?_, ?_⟩, rfl, ?_⟩
  · exact List.forall_mem_append.mpr ⟨h.digits, isDigit_zeros k⟩
  · exact List.append_ne_nil_of_left_ne_nil h.front _
  · intro hzero
    rw [List.head?_append_of_ne_nil _ h.front] at hzero
    exact absurd hzero h.zero
  · have hpoint : (⟨ds ++ List.replicate k '0', ['0'], none⟩ : Numeral).scale = -1 := rfl
    rw [hpoint, digits, Text.digitsValue_append, Text.digitsValue_append, Text.digitsValue_zeros,
      Binary64.Decimal.value, zpow_natCast, List.length_replicate, List.length_singleton,
      show Text.digitsValue 10 ['0'] = 0 from rfl]
    push_cast
    field_simp
    ring

/-- Digits with a point between two of them. -/
theorem spells_point (h : Leading ds) {k : Nat} (hk : 0 < k) (hlt : k < ds.length)
    (hp : p = k - ds.length) :
    Spells ⟨ds.take k, ds.drop k, none⟩ ⟨Text.digitsValue 10 ds, p⟩ := by
  obtain ⟨k, rfl⟩ := Nat.exists_eq_succ_of_ne_zero hk.ne'
  obtain ⟨d, ds, rfl⟩ := List.exists_cons_of_ne_nil h.front
  refine ⟨⟨?_, ?_, List.cons_ne_nil _ _, ?_⟩, ?_, ?_⟩
  · exact fun c hc => h.digits c (List.mem_of_mem_take hc)
  · exact fun c hc => h.digits c (List.mem_of_mem_drop hc)
  · exact fun hzero => absurd hzero h.zero
  · rw [Bool.and_eq_false_iff]
    left
    rw [List.isEmpty_eq_false_iff]
    exact fun hnil => absurd (List.drop_eq_nil_iff.mp hnil) (by omega)
  · have hpoint : (⟨(d :: ds).take (k + 1), (d :: ds).drop (k + 1), none⟩ : Numeral).scale = p := by
      rw [scale, List.length_drop, hp]
      dsimp only [Option.getD_none]
      omega
    rw [hpoint, digits, List.take_append_drop]
    rfl

/-- A zero, a point, zeros and digits. -/
theorem spells_fraction (h : Leading ds) {k : Nat} (hp : p = -(k + ds.length)) :
    Spells ⟨['0'], List.replicate k '0' ++ ds, none⟩ ⟨Text.digitsValue 10 ds, p⟩ := by
  refine ⟨⟨isDigit_zeros 1, ?_, List.cons_ne_nil _ _, fun _ => rfl⟩, ?_, ?_⟩
  · exact List.forall_mem_append.mpr ⟨isDigit_zeros k, h.digits⟩
  · rw [Bool.and_eq_false_iff]
    left
    rw [List.isEmpty_eq_false_iff]
    exact List.append_ne_nil_of_right_ne_nil _ h.front
  · have hpoint : (⟨['0'], List.replicate k '0' ++ ds, none⟩ : Numeral).scale = p := by
      rw [scale, List.length_append, List.length_replicate, hp]
      dsimp only [Option.getD_none]
      omega
    have hzeros : (⟨['0'], List.replicate k '0' ++ ds, none⟩ : Numeral).digits =
        Text.digitsValue 10 ds := by
      show Text.digitsValue 10 ('0' :: (List.replicate k '0' ++ ds)) = _
      rw [← List.cons_append, ← List.replicate_succ, Text.digitsValue_append,
        Text.digitsValue_zeros, Nat.zero_mul, Nat.zero_add]
    rw [hpoint, hzeros]
    rfl

/-- One digit, the others behind a point, and a power of ten. -/
theorem spells_power {c : Char} (h : Leading (c :: ds)) {e : Int} (he : e = ds.length + p) :
    Spells ⟨[c], ds, some e⟩ ⟨Text.digitsValue 10 (c :: ds), p⟩ := by
  refine ⟨⟨?_, ?_, List.cons_ne_nil _ _, ?_⟩, ?_, ?_⟩
  · exact List.forall_mem_singleton.mpr (h.digits c List.mem_cons_self)
  · exact fun d hd => h.digits d (List.mem_cons_of_mem c hd)
  · exact fun hzero => absurd hzero h.zero
  · exact Bool.and_false _
  · have hpoint : (⟨[c], ds, some e⟩ : Numeral).scale = p := by
      rw [scale, he]
      dsimp only [Option.getD_some]
      omega
    rw [hpoint]
    rfl

/-- A number is written as a sign and a numeral of its shortest decimal. -/
theorem exists_spells (x : Binary64) (hdigits : 0 < x.shortest.digits) (hzero : x.mantissa ≠ 0) :
    ∃ m : Numeral, m.Spells x.shortest ∧
      x.render = (if x.negative then ['-'] else []) ++ m.chars := by
  have hleading := leading_digitChars hdigits
  have hvalue := Binary64.digitsValue_digitChars x.shortest.digits
  have hzero' : ¬x.isZero = true := by simpa [Binary64.isZero] using hzero
  unfold Binary64.render
  rw [if_neg hzero']
  dsimp only
  generalize x.shortest = d at hdigits hleading hvalue ⊢
  obtain ⟨n, power⟩ := d
  dsimp only at hleading hvalue ⊢
  generalize Binary64.digitChars n = ds at hleading hvalue ⊢
  subst hvalue
  simp only [List.append_cancel_left_eq]
  split
  · rename_i h
    rw [Bool.and_eq_true, decide_eq_true_eq, decide_eq_true_eq] at h
    obtain ⟨k, rfl⟩ := Int.eq_ofNat_of_zero_le h.1
    refine ⟨_, spells_whole hleading k, ?_⟩
    rw [Int.toNat_natCast]
    rfl
  split
  · rename_i hwhole h
    rw [Bool.and_eq_true, decide_eq_true_eq, decide_eq_true_eq] at hwhole h
    obtain ⟨k, hk⟩ := Int.eq_ofNat_of_zero_le h.1.le
    refine ⟨_, spells_point hleading (k := k) (p := power) (by omega) (by omega) (by omega), ?_⟩
    have hdrop : ds.drop k ≠ [] := mt List.drop_eq_nil_iff.mp (by omega)
    rw [hk, Int.toNat_natCast, chars, fractionChars_eq hdrop]
    exact congrArg _ (List.append_nil _).symm
  split
  · rename_i h
    rw [Bool.and_eq_true, decide_eq_true_eq, decide_eq_true_eq] at h
    obtain ⟨k, hk⟩ : ∃ k : Nat, (ds.length : Int) + power = -k :=
      ⟨(-(ds.length + power)).toNat, by omega⟩
    refine ⟨_, spells_fraction hleading (k := k) (p := power) (by omega), ?_⟩
    have hdigits := List.append_ne_nil_of_right_ne_nil (List.replicate k '0') hleading.front
    rw [hk, neg_neg, Int.toNat_natCast, chars, fractionChars_eq hdigits]
    exact congrArg _ (List.append_nil _).symm
  · obtain ⟨c, ds, rfl⟩ := List.exists_cons_of_ne_nil hleading.front
    refine ⟨_, spells_power hleading (e := (c :: ds).length + power - 1) (p := power) ?_, ?_⟩
    · rw [List.length_cons]
      omega
    · cases ds <;> rfl

end Numeral

/-! ## Numbers -/

/-- A number that can be held: a whole number of at most 64 bits, or a floating point number in the
form in which it is kept. -/
def Number.Sound : Number → Prop
  | .int n => minInt ≤ n ∧ n ≤ maxInt
  | .float x => x.Normal

/-- The numeral of a whole number. -/
def Numeral.ofNat (n : Nat) : Numeral := ⟨Binary64.digitChars n, [], none⟩

theorem Numeral.wellFormed_ofNat (n : Nat) : (ofNat n).WellFormed := by
  refine ⟨fun _ => Binary64.isDigit_of_mem_digitChars, List.forall_mem_nil _, Nat.toDigits_ne_nil,
    fun hzero => ?_⟩
  obtain rfl : n = 0 := by
    by_contra hne
    exact Binary64.head?_digitChars (Nat.pos_of_ne_zero hne) hzero
  rfl

theorem Numeral.chars_ofNat (n : Nat) : (ofNat n).chars = Binary64.digitChars n :=
  List.append_nil _

theorem Numeral.digits_ofNat (n : Nat) : (ofNat n).digits = n := by
  rw [digits, ofNat, List.append_nil, Binary64.digitsValue_digitChars]

theorem Numeral.number_ofNat {n : Int} (hlow : minInt ≤ n) (hhigh : n ≤ maxInt) :
    (ofNat n.natAbs).number (decide (n < 0)) = some (.int n) := by
  have hsign : (decide (n < 0) && n.natAbs == 0) = false := by
    rw [Bool.and_eq_false_iff, decide_eq_false_iff_not, beq_eq_false_iff_ne]
    omega
  have hwhole : (if n < 0 then -(n.natAbs : Int) else n.natAbs) = n := by
    split <;> omega
  rw [number, digits_ofNat, hsign]
  simp only [decide_eq_true_eq, hwhole]
  show Number.ofInt? n = some (.int n)
  exact if_pos ⟨hlow, hhigh⟩

theorem number?_int {n : Int} (hlow : minInt ≤ n) (hhigh : n ≤ maxInt) (hrest : Ends rest) :
    number? ((Number.int n).render ++ rest) = some (some (.int n), rest) := by
  have hread := number?_numeral (decide (n < 0)) (Numeral.wellFormed_ofNat n.natAbs) hrest
  rw [Numeral.number_ofNat hlow hhigh, Numeral.chars_ofNat, ← List.append_assoc] at hread
  simp only [decide_eq_true_eq] at hread
  exact hread

theorem number?_zero (negative : Bool) (hrest : Ends rest) :
    number? ((Binary64.zero negative).render ++ rest) =
      some (some (.float (.zero negative)), rest) := by
  have hdigit := Numeral.isDigit_zeros 1
  have hread := number?_numeral negative
    (m := ⟨['0'], ['0'], none⟩) ⟨hdigit, hdigit, List.cons_ne_nil _ _, fun _ => rfl⟩ hrest
  rw [← List.append_assoc] at hread
  exact hread

theorem number?_float {x : Binary64} (hx : x.Normal) (hrest : Ends rest) :
    number? (x.render ++ rest) = some (some (.float x), rest) := by
  by_cases hzero : x.mantissa = 0
  · have hx' : x = .zero x.negative := by
      have hleast := hx.full.resolve_left (by rw [hzero]; decide)
      obtain ⟨negative, mantissa, exponent⟩ := x
      dsimp only at hzero hleast
      rw [hzero, hleast]
      rfl
    rw [hx']
    exact number?_zero x.negative hrest
  · have hnear := Binary64.near_shortest hx hzero
    have hdigits : 0 < x.shortest.digits := by
      refine Nat.pos_of_ne_zero fun hnone => ?_
      have hpos := hnear.pos hzero
      rw [Binary64.Decimal.value, hnone, Nat.cast_zero, zero_mul] at hpos
      exact lt_irrefl 0 hpos
    obtain ⟨m, hm, hrender⟩ := Numeral.exists_spells x hdigits hzero
    rw [← hm.value] at hnear
    rw [hrender, List.append_assoc, number?_numeral _ hm.wellFormed hrest, Numeral.number,
      hm.broken, Bool.false_and, if_neg (by decide), Binary64.ofDecimal_of_near hx hzero hnear]
    rfl

/-- The text of a number reads back as that number. -/
theorem number?_render {n : Number} (hn : n.Sound) (hrest : Ends rest) :
    number? (n.render ++ rest) = some (some n, rest) := by
  cases n with
  | int n => exact number?_int hn.1 hn.2 hrest
  | float x => exact number?_float hn hrest

end Json

end DocPages
