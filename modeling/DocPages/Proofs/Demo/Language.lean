-- The language of a script. An attribute that names a language with types is
-- white space, the name, an equals sign, and the language in quotes. A tag
-- without types has lost these attributes and nothing else.
import DocPages.Demo.Vanilla
import DocPages.Proofs.Demo.Tags
import Mathlib.Data.Bool.AllAny

namespace DocPages.Demo

/-! ## Attributes that name a language -/

def quotes : List Char := ['\x22', '\x27']

/-- The languages with types. -/
def languages : List (List Char) := [['t', 's'], ['t', 's', 'x']]

/-- An attribute that names a language with types, with the white space in front of it. -/
def IsLanguage (cs : List Char) : Prop :=
  ∃ front before behind : List Char, ∃ opened ∈ quotes, ∃ language ∈ languages, ∃ closed ∈ quotes,
    front ≠ [] ∧ (∀ c ∈ front ++ before ++ behind, Text.isBlank c = true) ∧
    cs = front ++ (['l', 'a', 'n', 'g'] ++ (before ++ (['='] ++ (behind ++
      opened :: (language ++ [closed])))))

theorem quote_not_blank : ∀ c ∈ quotes, Text.isBlank c = false :=
  List.all_iff_forall_prop.mp (by decide)

theorem IsLanguage.head_blank {m : List Char} (h : IsLanguage m) :
    ∃ c cs, m = c :: cs ∧ Text.isBlank c = true := by
  obtain ⟨front, before, behind, _, _, _, _, _, _, hne, hblanks, rfl⟩ := h
  cases front with
  | nil => exact absurd rfl hne
  | cons c front => exact ⟨c, _, rfl, hblanks c (by simp)⟩

theorem IsLanguage.getLast_mem {m : List Char} (h : IsLanguage m) :
    ∀ c ∈ m.getLast?, c ∈ quotes := by
  obtain ⟨front, before, behind, opened, _, language, _, closed, hclosed, -, -, rfl⟩ := h
  have hend : front ++ (['l', 'a', 'n', 'g'] ++ (before ++ (['='] ++ (behind ++
      opened :: (language ++ [closed]))))) =
      front ++ ['l', 'a', 'n', 'g'] ++ before ++ ['='] ++ behind ++ [opened] ++ language ++
        [closed] := by
    simp only [List.append_assoc, List.cons_append, List.nil_append]
  intro c hc
  rw [hend, List.getLast?_concat] at hc
  cases hc
  exact hclosed

theorem dropWhile_blanks {blanks : List Char} (h : ∀ c ∈ blanks, Text.isBlank c = true) {c : Char}
    (hc : Text.isBlank c = false) (rest : List Char) :
    (blanks ++ c :: rest).dropWhile Text.isBlank = c :: rest := by
  rw [List.dropWhile_append_of_pos h, List.dropWhile_cons_of_neg]
  simp [hc]

/-- What stands behind the white space at the front of a text. -/
theorem exists_blanks {cs rest : List Char} (h : cs.dropWhile Text.isBlank = rest) :
    ∃ blanks, (∀ c ∈ blanks, Text.isBlank c = true) ∧ cs = blanks ++ rest := by
  refine ⟨cs.takeWhile Text.isBlank, fun _ hc => List.mem_takeWhile_imp hc, ?_⟩
  rw [← h, List.takeWhile_append_dropWhile]

theorem behind?_eq_some_iff {needle cs rest : List Char} :
    behind? needle cs = some rest ↔ cs = needle ++ rest := by
  unfold behind?
  constructor
  · intro h
    split at h
    · rename_i hstart
      obtain ⟨back, rfl⟩ := Text.startsWith_iff.mp hstart
      rw [List.drop_left] at h
      cases h
      rfl
    · cases h
  · rintro rfl
    rw [Text.startsWith_iff.mpr (List.prefix_append _ _), List.drop_left]
    rfl

theorem behindQuote?_eq_some_iff {cs rest : List Char} :
    behindQuote? cs = some rest ↔ ∃ q ∈ quotes, cs = q :: rest := by
  cases cs with
  | nil => simp [behindQuote?]
  | cons c cs =>
    unfold behindQuote?
    by_cases hq : c ∈ quotes
    · have hc : (c == '\x22' || c == '\x27') = true := by simpa [quotes] using hq
      simp [hc, hq]
    · have hc : (c == '\x22' || c == '\x27') = false := by simpa [quotes] using hq
      simp only [hc, Bool.false_eq_true, ↓reduceIte, reduceCtorEq, false_iff]
      rintro ⟨q, hmem, h⟩
      exact hq ((List.cons.inj h).1 ▸ hmem)

theorem behindLanguage?_eq_some_iff {cs rest : List Char} :
    behindLanguage? cs = some rest ↔
      ∃ language ∈ languages, ∃ q ∈ quotes, cs = language ++ q :: rest := by
  unfold behindLanguage?
  rw [Option.bind_eq_bind, Option.bind_eq_some_iff]
  constructor
  · rintro ⟨cs, hcs, h⟩
    rw [behind?_eq_some_iff] at hcs
    subst hcs
    split at h
    · rename_i hquote
      cases h
      obtain ⟨q, hq, rfl⟩ := behindQuote?_eq_some_iff.mp hquote
      exact ⟨['t', 's'], by decide, q, hq, rfl⟩
    · obtain ⟨more, hmore, h⟩ := Option.bind_eq_some_iff.mp h
      obtain ⟨q, hq, rfl⟩ := behindQuote?_eq_some_iff.mp h
      rw [behind?_eq_some_iff] at hmore
      subst hmore
      exact ⟨['t', 's', 'x'], by decide, q, hq, rfl⟩
  · rintro ⟨language, hlanguage, q, hq, rfl⟩
    have hquote : behindQuote? (q :: rest) = some rest :=
      behindQuote?_eq_some_iff.mpr ⟨q, hq, rfl⟩
    simp only [languages, List.mem_cons, List.not_mem_nil, or_false] at hlanguage
    rcases hlanguage with rfl | rfl
    · refine ⟨q :: rest, behind?_eq_some_iff.mpr rfl, ?_⟩
      rw [hquote]
    · refine ⟨'x' :: q :: rest, behind?_eq_some_iff.mpr rfl, ?_⟩
      have hnone : behindQuote? ('x' :: q :: rest) = none := by simp [behindQuote?]
      have hx : behind? ['x'] ('x' :: q :: rest) = some (q :: rest) := behind?_eq_some_iff.mpr rfl
      rw [hnone]
      dsimp only
      rw [hx]
      exact hquote

/-- Such an attribute is passed over where one stands, and nowhere else. -/
theorem behindLangAttribute?_eq_some_iff {cs rest : List Char} :
    behindLangAttribute? cs = some rest ↔ ∃ m, IsLanguage m ∧ cs = m ++ rest := by
  cases cs with
  | nil =>
    refine ⟨nofun, ?_⟩
    rintro ⟨m, hm, h⟩
    obtain ⟨d, more, rfl, -⟩ := hm.head_blank
    cases h
  | cons c cs =>
    unfold behindLangAttribute?
    dsimp only
    split
    · rename_i hblank
      simp only [Option.bind_eq_bind, Option.bind_eq_some_iff, behind?_eq_some_iff,
        behindQuote?_eq_some_iff, behindLanguage?_eq_some_iff]
      constructor
      · rintro ⟨name, hname, equals, hequals, value, ⟨opened, hopened, hvalue⟩, language,
          hlanguage, closed, hclosed, rfl⟩
        obtain ⟨front, hfront, hcs⟩ := exists_blanks hname
        obtain ⟨before, hbefore, rfl⟩ := exists_blanks hequals
        obtain ⟨behind, hbehind, rfl⟩ := exists_blanks hvalue
        have hne : front ≠ [] := by
          rintro rfl
          obtain ⟨rfl, -⟩ := List.cons.inj hcs
          revert hblank
          decide
        refine ⟨_, ⟨front, before, behind, opened, hopened, language, hlanguage, closed, hclosed,
          hne, ?_, rfl⟩, ?_⟩
        · simp only [List.mem_append]
          rintro c ((hc | hc) | hc)
          · exact hfront c hc
          · exact hbefore c hc
          · exact hbehind c hc
        · rw [hcs]
          simp only [List.append_assoc, List.cons_append, List.nil_append]
      · rintro ⟨m, ⟨front, before, behind, opened, hopened, language, hlanguage, closed, hclosed,
          hne, hblanks, rfl⟩, hcs⟩
        simp only [List.forall_mem_append] at hblanks
        obtain ⟨⟨hfront, hbefore⟩, hbehind⟩ := hblanks
        have hsplit : c :: cs = front ++ (['l', 'a', 'n', 'g'] ++ (before ++ (['='] ++
            (behind ++ opened :: (language ++ closed :: rest))))) := by
          rw [hcs]
          simp only [List.append_assoc, List.cons_append, List.nil_append]
        have hvalue := dropWhile_blanks hbehind (quote_not_blank opened hopened)
          (language ++ closed :: rest)
        rw [hsplit]
        exact ⟨_, dropWhile_blanks hfront (by decide) _, _, dropWhile_blanks hbefore (by decide) _, _,
          ⟨opened, hopened, hvalue⟩, language, hlanguage, closed, hclosed, rfl⟩
    · rename_i hblank
      refine ⟨nofun, ?_⟩
      rintro ⟨m, hm, h⟩
      obtain ⟨d, more, rfl, hd⟩ := hm.head_blank
      obtain ⟨rfl, -⟩ := List.cons.inj h
      exact absurd hd hblank

/-! ## Tags without types -/

/-- What is left of a text that has lost, from left to right, its attributes that name a language
with types. -/
inductive WithoutLanguage : List Char → List Char → Prop
  | nil : WithoutLanguage [] []
  | drop {m cs rest : List Char} (hm : IsLanguage m) (h : WithoutLanguage cs rest) :
    WithoutLanguage (m ++ cs) rest
  | keep {c : Char} {cs rest : List Char} (hc : ∀ m, IsLanguage m → ¬ m <+: c :: cs)
    (h : WithoutLanguage cs rest) : WithoutLanguage (c :: cs) (c :: rest)

variable {name : String} {cs rest m : List Char}

theorem plainTag_language (hm : IsLanguage m) (cs : List Char) :
    plainTag (m ++ cs) = plainTag cs := by
  have hbehind : behindLangAttribute? (m ++ cs) = some cs :=
    behindLangAttribute?_eq_some_iff.mpr ⟨m, hm, rfl⟩
  obtain ⟨c, more, rfl, -⟩ := hm.head_blank
  have hlength : (c :: (more ++ cs)).length - cs.length - 1 = more.length := by
    simp only [List.length_append, List.length_cons]
    omega
  have hdrop : dropLang true (c :: (more ++ cs)) = some ⟨more.length, []⟩ := by
    rw [List.cons_append] at hbehind
    rw [dropLang, hbehind, Option.map_some, hlength]
  exact Text.replaceBy_of_some (fun _ => rfl) hdrop

theorem plainTag_other {c : Char} (hc : ∀ m, IsLanguage m → ¬ m <+: c :: cs) :
    plainTag (c :: cs) = c :: plainTag cs := by
  have hnone : behindLangAttribute? (c :: cs) = none := by
    rw [Option.eq_none_iff_forall_ne_some]
    intro rest hrest
    obtain ⟨m, hm, hcs⟩ := behindLangAttribute?_eq_some_iff.mp hrest
    exact hc m hm ⟨rest, hcs.symm⟩
  apply Text.replaceBy_cons (fun _ => rfl)
  rw [dropLang, hnone, Option.map_none]

theorem plainTag_unblank {q : List Char} (hq : ∀ c ∈ q, Text.isBlank c = false)
    (cs : List Char) : plainTag (q ++ cs) = q ++ plainTag cs := by
  induction q with
  | nil => rfl
  | cons c q ih =>
    rw [List.forall_mem_cons] at hq
    have hc : ∀ m, IsLanguage m → ¬ m <+: c :: (q ++ cs) := by
      rintro m hm ⟨back, hback⟩
      obtain ⟨d, more, rfl, hd⟩ := hm.head_blank
      obtain ⟨rfl, -⟩ := List.cons.inj hback
      rw [hq.1] at hd
      cases hd
    rw [List.cons_append, plainTag_other hc, ih hq.2, List.cons_append]

/-- Attributes in front of the end of a tag. -/
theorem exists_withoutLanguage (cs : List Char) :
    ∃ rest, WithoutLanguage cs rest ∧
      plainTag (cs ++ ['>']) = rest ++ ['>'] := by
  induction hn : cs.length using Nat.strong_induction_on generalizing cs with
  | h n ih =>
    by_cases hm : ∃ m, IsLanguage m ∧ m <+: cs
    · obtain ⟨m, hm, cs, rfl⟩ := hm
      obtain ⟨c, more, rfl, -⟩ := hm.head_blank
      have hlt : cs.length < n := by
        rw [← hn, List.length_append, List.length_cons]
        omega
      obtain ⟨rest, hrest, hreplaced⟩ := ih cs.length hlt cs rfl
      refine ⟨rest, .drop hm hrest, ?_⟩
      rw [List.append_assoc, plainTag_language hm, hreplaced]
    · have hnone : ∀ m, IsLanguage m → ¬ m <+: cs := fun m h hstart => hm ⟨m, h, hstart⟩
      cases cs with
      | nil =>
        refine ⟨[], .nil, ?_⟩
        have hend := plainTag_unblank (q := ['>'])
          (List.all_iff_forall_prop.mp (by decide)) []
        exact hend
      | cons c cs =>
        have hlt : cs.length < n := by
          rw [← hn, List.length_cons]
          omega
        obtain ⟨rest, hrest, hreplaced⟩ := ih cs.length hlt cs rfl
        refine ⟨c :: rest, .keep hnone hrest, ?_⟩
        -- An attribute ends in a quote, so none runs over the end of the tag.
        have hwhole : ∀ m, IsLanguage m → ¬ m <+: c :: (cs ++ ['>']) := by
          intro m h hstart
          rw [← List.cons_append, List.prefix_concat_iff] at hstart
          rcases hstart with rfl | hstart
          · have hquote := h.getLast_mem '>' List.getLast?_concat
            revert hquote
            decide
          · exact hnone m h hstart
        rw [List.cons_append, plainTag_other hwhole, hreplaced, List.cons_append]

/-- A tag without types. -/
theorem plainTag_openTag (hname : ∀ c ∈ name.toList, Text.isBlank c = false)
    (attributes : List Char) :
    ∃ rest, WithoutLanguage attributes rest ∧
      plainTag (openTag name attributes) = openTag name rest := by
  obtain ⟨rest, hrest, hreplaced⟩ := exists_withoutLanguage attributes
  refine ⟨rest, hrest, ?_⟩
  have hopening : ∀ c ∈ opening name, Text.isBlank c = false :=
    List.forall_mem_cons.mpr ⟨by decide, hname⟩
  unfold openTag
  rw [List.append_assoc, plainTag_unblank hopening, hreplaced, List.append_assoc]

/-! ## Attributes without languages -/

/-- White space or the end follows every attribute that names a language with types. -/
def LanguagesApart (attributes : List Char) : Prop :=
  ∀ front m back, attributes = front ++ m ++ back → IsLanguage m →
    ∀ c ∈ back.head?, Text.isBlank c = true

/-- It is enough to look at each place where such an attribute is passed over. -/
theorem languagesApart_iff {attributes : List Char} :
    LanguagesApart attributes ↔
      ∀ i < attributes.length, ∀ rest ∈ behindLangAttribute? (attributes.drop i),
        rest.head?.all Text.isBlank = true := by
  constructor
  · intro h i _ rest hrest
    obtain ⟨m, hm, hdrop⟩ := behindLangAttribute?_eq_some_iff.mp hrest
    refine (Option.all_eq_true _ _).mpr (h (attributes.take i) m rest ?_ hm)
    rw [List.append_assoc, ← hdrop, List.take_append_drop]
  · intro h front m back hsplit hm
    obtain ⟨d, more, rfl, -⟩ := hm.head_blank
    have hi : front.length < attributes.length := by
      rw [hsplit]
      simp only [List.length_append, List.length_cons]
      omega
    refine (Option.all_eq_true _ _).mp
      (h front.length hi back (behindLangAttribute?_eq_some_iff.mpr ⟨_, hm, ?_⟩))
    rw [hsplit, List.append_assoc, List.drop_left]

instance (attributes : List Char) : Decidable (LanguagesApart attributes) :=
  decidable_of_iff _ languagesApart_iff.symm

theorem WithoutLanguage.sublist (h : WithoutLanguage cs rest) : rest.Sublist cs := by
  induction h with
  | nil => exact List.Sublist.refl _
  | drop _ _ ih => exact ih.trans (List.sublist_append_right _ _)
  | keep _ _ ih => exact ih.cons_cons _

theorem WithoutLanguage.head_blank (h : WithoutLanguage cs rest) (hapart : LanguagesApart cs)
    (hcs : ∀ c ∈ cs.head?, Text.isBlank c = true) : ∀ c ∈ rest.head?, Text.isBlank c = true := by
  induction h with
  | nil => exact hcs
  | @drop m cs rest hm _ ih =>
    refine ih ?_ (hapart [] m cs rfl hm)
    intro front n back hback hn
    refine hapart (m ++ front) n back ?_ hn
    rw [hback]
    simp only [List.append_assoc]
  | keep _ _ _ => exact hcs

theorem WithoutLanguage.isAttributes (h : WithoutLanguage cs rest) (hapart : LanguagesApart cs)
    (hcs : IsAttributes cs) : IsAttributes rest :=
  ⟨h.head_blank hapart hcs.blank, fun hmem => hcs.inside (h.sublist.subset hmem)⟩

end DocPages.Demo
