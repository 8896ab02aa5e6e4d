-- Text of 64 characters read back. Reading is strict: the padding has to be
-- there, and the bits that it leaves over are zero. What has been written for
-- a text reads back as the bytes of its UTF-8 form, and nothing else does.
import DocPages.Text.Base64

namespace DocPages.Text.Base64

/-! ## Reading -/

/-- The number below 64 that a character stands for. -/
def value? (c : Char) : Option Nat :=
  if 'A' ≤ c ∧ c ≤ 'Z' then some (c.toNat - 0x41)
  else if 'a' ≤ c ∧ c ≤ 'z' then some (c.toNat - 0x61 + 26)
  else if '0' ≤ c ∧ c ≤ '9' then some (c.toNat - 0x30 + 52)
  else if c = '+' then some 62
  else if c = '/' then some 63
  else none

/-- The three bytes of four characters. -/
def bytes? (a b c d : Char) : Option (List Nat) := do
  let a ← value? a
  let b ← value? b
  let c ← value? c
  let d ← value? d
  some [a * 4 + b / 16, b % 16 * 16 + c / 4, c % 4 * 64 + d]

/-- The bytes of three characters in front of a padding at the end: two, or one if the padding has
begun in front. -/
def tailBytes? (a b c : Char) : Option (List Nat) := do
  let a ← value? a
  let b ← value? b
  if c = '=' then
    if b % 16 = 0 then some [a * 4 + b / 16] else none
  else
    let c ← value? c
    if c % 4 = 0 then some [a * 4 + b / 16, b % 16 * 16 + c / 4] else none

/-- The bytes that a text spells. -/
def decode? : List Char → Option (List Nat)
  | [] => some []
  | a :: b :: c :: d :: rest =>
    if d = '=' then
      if rest.isEmpty then tailBytes? a b c else none
    else do
      let front ← bytes? a b c d
      let back ← decode? rest
      some (front ++ back)
  | _ => none

/-! ## Reading what has been written -/

theorem value?_digit : ∀ n < 64, value? (digit n) = some n := by decide

theorem digit_ne_padding : ∀ n < 64, digit n ≠ '=' := by decide

theorem bytes?_group {a b c : Nat} (ha : a < 256) (hb : b < 256) (hc : c < 256) :
    bytes? (digit (a / 4)) (digit (a % 4 * 16 + b / 16)) (digit (b % 16 * 4 + c / 64))
      (digit (c % 64)) = some [a, b, c] := by
  have ha' : a / 4 * 4 + (a % 4 * 16 + b / 16) / 16 = a := by omega
  have hb' : (a % 4 * 16 + b / 16) % 16 * 16 + (b % 16 * 4 + c / 64) / 4 = b := by omega
  have hc' : (b % 16 * 4 + c / 64) % 4 * 64 + c % 64 = c := by omega
  unfold bytes?
  rw [value?_digit _ (by omega), value?_digit _ (by omega), value?_digit _ (by omega),
    value?_digit _ (by omega)]
  simp only [Option.bind_eq_bind, Option.bind_some, ha', hb', hc']

theorem tailBytes?_two {a b : Nat} (ha : a < 256) (hb : b < 256) :
    tailBytes? (digit (a / 4)) (digit (a % 4 * 16 + b / 16)) (digit (b % 16 * 4)) =
      some [a, b] := by
  have ha' : a / 4 * 4 + (a % 4 * 16 + b / 16) / 16 = a := by omega
  have hb' : (a % 4 * 16 + b / 16) % 16 * 16 + b % 16 * 4 / 4 = b := by omega
  have hrest : b % 16 * 4 % 4 = 0 := by omega
  have hdigit : digit (b % 16 * 4) ≠ '=' := digit_ne_padding _ (by omega)
  unfold tailBytes?
  rw [value?_digit _ (by omega), value?_digit _ (by omega), value?_digit _ (by omega)]
  simp only [Option.bind_eq_bind, Option.bind_some, if_neg hdigit, hrest, if_true, ha', hb']

theorem tailBytes?_one {a : Nat} (ha : a < 256) :
    tailBytes? (digit (a / 4)) (digit (a % 4 * 16)) '=' = some [a] := by
  have ha' : a / 4 * 4 + a % 4 * 16 / 16 = a := by omega
  have hrest : a % 4 * 16 % 16 = 0 := by omega
  unfold tailBytes?
  rw [value?_digit _ (by omega), value?_digit _ (by omega)]
  simp only [Option.bind_eq_bind, Option.bind_some, if_true, hrest, ha']

/-- Bytes that have been written read back. -/
theorem decode?_encode {bytes : List Nat} (h : ∀ b ∈ bytes, b < 256) :
    decode? (encode bytes) = some bytes := by
  induction bytes using encode.induct with
  | case1 a b c rest ih =>
    simp only [List.forall_mem_cons] at h
    obtain ⟨ha, hb, hc, hrest⟩ := h
    rw [encode, group, List.cons_append, List.cons_append, List.cons_append, List.cons_append,
      List.nil_append, decode?, if_neg (digit_ne_padding _ (by omega)), bytes?_group ha hb hc,
      ih hrest]
    rfl
  | case2 a b =>
    simp only [List.forall_mem_cons] at h
    obtain ⟨ha, hb, -⟩ := h
    rw [encode, decode?, if_pos rfl]
    exact tailBytes?_two ha hb
  | case3 a =>
    simp only [List.forall_mem_cons] at h
    obtain ⟨ha, -⟩ := h
    rw [encode, decode?, if_pos rfl]
    exact tailBytes?_one ha
  | case4 => rfl

/-! ## Writing what has been read -/

theorem digit_of_value? {c : Char} {n : Nat} (h : value? c = some n) : n < 64 ∧ digit n = c := by
  have hback : ∀ low, low ≤ c.toNat → Char.ofNat (c.toNat - low + low) = c := by
    intro low hlow
    rw [Nat.sub_add_cancel hlow, Char.ofNat_toNat]
  unfold value? at h
  split at h
  · rename_i hupper
    have hlow : 0x41 ≤ c.toNat := hupper.1
    have hhigh : c.toNat ≤ 0x5A := hupper.2
    cases h
    refine ⟨by omega, ?_⟩
    unfold digit
    rw [if_pos (by omega), hback _ hlow]
  split at h
  · rename_i hlower
    have hlow : 0x61 ≤ c.toNat := hlower.1
    have hhigh : c.toNat ≤ 0x7A := hlower.2
    cases h
    refine ⟨by omega, ?_⟩
    unfold digit
    rw [if_neg (by omega), if_pos (by omega), Nat.add_sub_cancel, hback _ hlow]
  split at h
  · rename_i hdecimal
    have hlow : 0x30 ≤ c.toNat := hdecimal.1
    have hhigh : c.toNat ≤ 0x39 := hdecimal.2
    cases h
    refine ⟨by omega, ?_⟩
    unfold digit
    rw [if_neg (by omega), if_neg (by omega), if_pos (by omega), Nat.add_sub_cancel, hback _ hlow]
  split at h
  · rename_i hplus
    cases h
    exact ⟨by decide, hplus.symm⟩
  split at h
  · rename_i hslash
    cases h
    exact ⟨by decide, hslash.symm⟩
  · cases h

theorem group_of_bytes? {a b c d : Char} {bytes : List Nat} (h : bytes? a b c d = some bytes) :
    ∃ i j k, bytes = [i, j, k] ∧ group i j k = [a, b, c, d] := by
  unfold bytes? at h
  simp only [Option.bind_eq_bind, Option.bind_eq_some_iff, Option.some_inj] at h
  obtain ⟨i, ha, j, hb, k, hc, l, hd, rfl⟩ := h
  obtain ⟨hi, rfl⟩ := digit_of_value? ha
  obtain ⟨hj, rfl⟩ := digit_of_value? hb
  obtain ⟨hk, rfl⟩ := digit_of_value? hc
  obtain ⟨hl, rfl⟩ := digit_of_value? hd
  refine ⟨_, _, _, rfl, ?_⟩
  have hfirst : (i * 4 + j / 16) / 4 = i := by omega
  have hsecond : (i * 4 + j / 16) % 4 * 16 + (j % 16 * 16 + k / 4) / 16 = j := by omega
  have hthird : (j % 16 * 16 + k / 4) % 16 * 4 + (k % 4 * 64 + l) / 64 = k := by omega
  have hfourth : (k % 4 * 64 + l) % 64 = l := by omega
  rw [group, hfirst, hsecond, hthird, hfourth]

theorem encode_of_tailBytes? {a b c : Char} {bytes : List Nat}
    (h : tailBytes? a b c = some bytes) : encode bytes = [a, b, c, '='] := by
  unfold tailBytes? at h
  simp only [Option.bind_eq_bind, Option.bind_eq_some_iff] at h
  obtain ⟨i, ha, j, hb, h⟩ := h
  obtain ⟨hi, rfl⟩ := digit_of_value? ha
  obtain ⟨hj, rfl⟩ := digit_of_value? hb
  have hfirst : (i * 4 + j / 16) / 4 = i := by omega
  split at h
  · rename_i hpadding
    obtain ⟨hleft, hbytes⟩ := Option.ite_none_right_eq_some.mp h
    cases hbytes
    have hsecond : (i * 4 + j / 16) % 4 * 16 = j := by omega
    rw [encode, hfirst, hsecond, hpadding]
  · obtain ⟨k, hc, hrest⟩ := Option.bind_eq_some_iff.mp h
    obtain ⟨hk, rfl⟩ := digit_of_value? hc
    obtain ⟨hleft, hbytes⟩ := Option.ite_none_right_eq_some.mp hrest
    cases hbytes
    have hsecond : (i * 4 + j / 16) % 4 * 16 + (j % 16 * 16 + k / 4) / 16 = j := by omega
    have hthird : (j % 16 * 16 + k / 4) % 16 * 4 = k := by omega
    rw [encode, hfirst, hsecond, hthird]

/-- No other text than the one that is written for some bytes reads back as them. -/
theorem encode_of_decode? {cs : List Char} {bytes : List Nat} (h : decode? cs = some bytes) :
    encode bytes = cs := by
  induction cs using decode?.induct generalizing bytes with
  | case1 =>
    cases h
    rfl
  | case2 a b c rest hrest =>
    rw [decode?, if_pos rfl, if_pos hrest] at h
    rw [encode_of_tailBytes? h, List.isEmpty_iff.mp hrest]
  | case3 a b c rest hrest =>
    rw [decode?, if_pos rfl, if_neg hrest] at h
    cases h
  | case4 a b c d rest hpadding ih =>
    rw [decode?, if_neg hpadding] at h
    simp only [Option.bind_eq_bind, Option.bind_eq_some_iff, Option.some_inj] at h
    obtain ⟨front, hfront, back, hback, rfl⟩ := h
    obtain ⟨i, j, k, rfl, hgroup⟩ := group_of_bytes? hfront
    rw [List.cons_append, List.cons_append, List.cons_append, List.nil_append, encode, hgroup,
      ih hback]
    rfl
  | case5 cs hnil hfour =>
    rw [decode?] at h
    · cases h
    · exact hnil
    · exact hfour

/-! ## Bytes of a text -/

/-- The bytes of the UTF-8 form of a text, as numbers. -/
def bytesOf (text : String) : List Nat := text.toUTF8.data.toList.map UInt8.toNat

/-- The bytes of a character are those of its UTF-8 form. -/
theorem utf8Bytes_eq (c : Char) :
    utf8Bytes c = (String.utf8EncodeChar c).map UInt8.toNat := by
  have hlt : c.toNat < 0x110000 := by
    rcases c.valid with h | ⟨-, h⟩
    · exact Nat.lt_trans h (by decide)
    · exact h
  unfold utf8Bytes String.utf8EncodeChar
  change _ = List.map UInt8.toNat (if c.toNat ≤ 127 then _ else _)
  have hval : c.val.toNat = c.toNat := rfl
  simp only [hval]
  by_cases h1 : c.toNat < 0x80
  · have h1' : c.toNat ≤ 127 := by omega
    simp only [h1, h1', if_true, List.map_cons, List.map_nil, UInt8.toNat_ofNat', List.cons.injEq,
      and_true]
    omega
  have h1' : ¬ c.toNat ≤ 127 := by omega
  by_cases h2 : c.toNat < 0x800
  · have h2' : c.toNat ≤ 2047 := by omega
    simp only [h1, h1', h2, h2', if_true, if_false, List.map_cons, List.map_nil,
      UInt8.toNat_ofNat', List.cons.injEq, and_true]
    omega
  have h2' : ¬ c.toNat ≤ 2047 := by omega
  by_cases h3 : c.toNat < 0x10000
  · have h3' : c.toNat ≤ 65535 := by omega
    simp only [h1, h1', h2, h2', h3, h3', if_true, if_false, List.map_cons, List.map_nil,
      UInt8.toNat_ofNat', List.cons.injEq, and_true]
    omega
  · have h3' : ¬ c.toNat ≤ 65535 := by omega
    simp only [h1, h1', h2, h2', h3, h3', if_false, List.map_cons, List.map_nil,
      UInt8.toNat_ofNat', List.cons.injEq, and_true]
    omega

theorem bytesOf_eq (text : String) : bytesOf text = text.toList.flatMap utf8Bytes := by
  have hutf8 : text.toUTF8 = text.toList.utf8Encode := by
    rw [← String.toByteArray_ofList, String.ofList_toList]
    rfl
  have hdata : text.toList.utf8Encode.data.toList = text.toList.flatMap String.utf8EncodeChar := by
    simp [List.utf8Encode]
  unfold bytesOf
  rw [hutf8, hdata, List.map_flatMap]
  simp only [← utf8Bytes_eq]

/-- A text that has been written reads back as the bytes of its UTF-8 form. -/
theorem decode?_ofChars (text : String) : decode? (ofChars text.toList) = some (bytesOf text) := by
  have hbytes : ∀ b ∈ bytesOf text, b < 256 := by
    intro b hb
    obtain ⟨byte, -, rfl⟩ := List.mem_map.mp hb
    exact byte.toNat_lt
  unfold ofChars
  rw [← bytesOf_eq]
  exact decode?_encode hbytes

/-- The bytes of a text read back from nothing but what has been written for it. -/
theorem decode?_eq_bytesOf_iff {cs : List Char} {text : String} :
    decode? cs = some (bytesOf text) ↔ cs = ofChars text.toList := by
  constructor
  · intro h
    rw [ofChars, ← bytesOf_eq, encode_of_decode? h]
  · rintro rfl
    exact decode?_ofChars text

end DocPages.Text.Base64
