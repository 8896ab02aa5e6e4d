-- Escaped stars in front of an emphasised word. A backslash keeps a star from
-- ending a text between marks, but not from beginning one. So the first escaped
-- star of the line takes in what stands between it and the star of the word, and
-- the text comes out as it was only if there is no such star.
import DocPages.Proofs.HeaderText.Escaped
import DocPages.Proofs.Text.Trim
import Mathlib.Data.Bool.AllAny

namespace DocPages.HeaderText

/-! ## Words -/

/-- A text of letters and digits of any script: it holds no white space, and of the ASCII characters
only letters and digits. -/
structure IsWord (u : List Char) : Prop where
  filled : u ≠ []
  dark : ∀ c ∈ u, Text.isBlank c = false
  plain : ∀ c ∈ u, c.val < 128 → c.isAlphanum = true

instance (u : List Char) : Decidable (IsWord u) :=
  decidable_of_iff
    (u ≠ [] ∧ (u.all fun c => Text.isBlank c = false) ∧
      u.all fun c => c.val < 128 → c.isAlphanum = true)
    (by
      rw [List.all_iff_forall_prop, List.all_iff_forall_prop]
      exact ⟨fun ⟨hfilled, hdark, hplain⟩ => ⟨hfilled, hdark, hplain⟩,
        fun h => ⟨h.filled, h.dark, h.plain⟩⟩)

section Word

variable {u : List Char}

theorem IsWord.not_mem (h : IsWord u) {c : Char} (hsmall : c.val < 128)
    (hc : c.isAlphanum = false) : c ∉ u := by
  intro hmem
  have halpha := h.plain c hmem hsmall
  rw [hc] at halpha
  cases halpha

theorem IsWord.not_escapable (h : IsWord u) : ∀ c ∈ u, c ∉ escapable := by
  have hplain : ∀ c ∈ escapable, c.val < 128 ∧ c.isAlphanum = false :=
    List.all_iff_forall_prop.mp (by decide)
  intro c hu hc
  exact h.not_mem (hplain c hc).1 (hplain c hc).2 hu

theorem IsWord.line (h : IsWord u) : '\n' ∉ u := by
  intro hmem
  have hdark := h.dark _ hmem
  revert hdark
  decide

theorem IsWord.not_backslash (h : IsWord u) : '\\' ∉ u := h.not_mem (by decide) (by decide)

theorem IsWord.closes (h : IsWord u) : u.getLast? ≠ some '\\' :=
  fun hlast => h.not_backslash (List.mem_of_getLast? hlast)

theorem IsWord.star (h : IsWord u) : '*' ∉ u := h.not_mem (by decide) (by decide)

/-- Between two stars a word is emphasised. -/
theorem IsWord.unwrapEmphasis_starred (h : IsWord u) :
    unwrapEmphasis ('*' :: (u ++ ['*'])) = u := by
  have hapart : ∀ c ∈ ['*'], c ∉ u := by
    intro c hc
    rw [List.mem_singleton.mp hc]
    exact h.star
  have hend : unwrapEmphasis [] = [] := rfl
  have hstarred := Marked.unwrapEmphasis_written
    ⟨['*'], u, by decide, h.filled, h.line, hapart, h.closes⟩ []
  simpa [Marked.written, hend] using hstarred

/-- Of a word and one star nothing is taken off. -/
theorem IsWord.unwrapEmphasis_star (h : IsWord u) : unwrapEmphasis (u ++ ['*']) = u ++ ['*'] := by
  have hend : unwrapEmphasis ['*'] = ['*'] := by decide
  rw [unwrapEmphasis_keep, hend]
  intro c rest hrest
  apply emphasisAt_of_not_mem
  intro hc
  exact h.not_escapable c (hrest.subset List.mem_cons_self) (markChars_subset hc)

end Word

/-- An escaped text, and an emphasised word behind it. -/
def escapedThenStarred (t u : List Char) : List Char := escaped t ++ '*' :: (u ++ ['*'])

/-! ## Escaped text in front of a character -/

theorem escaped_append (a b : List Char) : escaped (a ++ b) = escaped a ++ escaped b :=
  List.flatMap_append

/-- The last character of a text stays the last one. -/
theorem escaped_concat (cs : List Char) (last : Char) :
    ∃ mid, '\n' ∉ mid ∧ escaped (cs ++ [last]) = escaped cs ++ mid ++ [last] := by
  rw [escaped_append]
  by_cases hlast : last ∈ escapable
  · refine ⟨['\\'], by decide, ?_⟩
    rw [escaped_cons_of_mem hlast]
    simp [escaped]
  · refine ⟨[], by decide, ?_⟩
    rw [escaped_cons_of_not_mem hlast]
    simp [escaped]

theorem getLast?_escaped (cs : List Char) (last : Char) :
    (escaped (cs ++ [last])).getLast? = some last := by
  obtain ⟨mid, -, hmid⟩ := escaped_concat cs last
  rw [hmid, List.getLast?_concat]

theorem mem_escaped {c : Char} {cs : List Char} (h : c ∈ cs) : c ∈ escaped cs := by
  unfold escaped
  rw [List.mem_flatMap]
  refine ⟨c, h, ?_⟩
  split <;> simp

/-- Escaping brings in no line feed. -/
theorem line_escaped_iff (cs : List Char) (last : Char) :
    '\n' ∈ (escaped (cs ++ [last])).dropLast ↔ '\n' ∈ cs := by
  obtain ⟨mid, hline, hmid⟩ := escaped_concat cs last
  rw [hmid, List.dropLast_concat, List.mem_append]
  constructor
  · rintro (h | h)
    · exact mem_of_mem_escaped (by decide) h
    · exact absurd h hline
  · intro h
    exact Or.inl (mem_escaped h)

theorem blocked_escaped {m : Char} (hm : m ∈ escapable) (cs : List Char) :
    Blocked m (escaped cs) := (guarded_escaped cs).blocked hm

theorem escaped_ne_nil {cs : List Char} (h : cs ≠ []) : escaped cs ≠ [] := by
  obtain ⟨c, rest, rfl⟩ := List.exists_cons_of_ne_nil h
  exact List.ne_nil_of_mem (mem_escaped List.mem_cons_self)

theorem head_escaped_ne_star (cs back : List Char) (h : cs ≠ []) :
    (escaped cs ++ back).head? ≠ some '*' := by
  rw [List.head?_append_of_ne_nil _ (escaped_ne_nil h)]
  intro hhead
  exact head_escaped hhead (by decide)

/-- An escaped character stands in front of escaped text. -/
theorem exists_of_suffix_escaped {c : Char} (hc : c ∈ escapable) {rest cs : List Char}
    (h : c :: rest <:+ escaped cs) :
    ∃ front back, cs = front ++ c :: back ∧ rest = escaped back := by
  induction cs with
  | nil => simp [escaped] at h
  | cons d cs ih =>
    by_cases hd : d ∈ escapable
    · rw [escaped_cons_of_mem hd, List.suffix_cons_iff, List.suffix_cons_iff] at h
      rcases h with h | h | h
      · obtain ⟨rfl, -⟩ := List.cons.inj h
        exact absurd hc (by decide)
      · obtain ⟨rfl, rfl⟩ := List.cons.inj h
        exact ⟨[], cs, rfl, rfl⟩
      · obtain ⟨front, back, rfl, rfl⟩ := ih h
        exact ⟨d :: front, back, rfl, rfl⟩
    · rw [escaped_cons_of_not_mem hd, List.suffix_cons_iff] at h
      rcases h with h | h
      · obtain ⟨rfl, -⟩ := List.cons.inj h
        exact absurd hc hd
      · obtain ⟨front, back, rfl, rfl⟩ := ih h
        exact ⟨d :: front, back, rfl, rfl⟩

/-! ## What an escaped star takes in -/

section Star

variable {u : List Char}

/-- A star takes in no text over a line feed. -/
theorem emphasisAt_star_line {cs : List Char} (last : Char) (hline : '\n' ∈ cs) (back : List Char) :
    emphasisAt ('*' :: (escaped (cs ++ [last]) ++ back)) = none := by
  have hblocked : Blocked '*' (escaped (cs ++ [last])) := blocked_escaped (by decide) _
  rw [emphasisAt_star (head_escaped_ne_star _ _ (by simp)),
    bodyLength?_line hblocked ((line_escaped_iff cs last).mpr hline), Option.map_none]

/-- A star takes in the text up to the next star without a backslash in front of it. -/
theorem emphasisAt_star_body {body : List Char} (hblocked : Blocked '*' body) (hne : body ≠ [])
    (hhead : body.head? ≠ some '*') (hline : '\n' ∉ body.dropLast)
    (hend : body.getLast? ≠ some '\\') (back : List Char) :
    emphasisAt ('*' :: (body ++ '*' :: back)) = some ⟨body.length + 1, body⟩ := by
  have hhead' : (body ++ '*' :: back).head? ≠ some '*' := by
    rwa [List.head?_append_of_ne_nil _ hne]
  have hlength : bodyLength? ['*'] (body ++ '*' :: back) = some body.length :=
    bodyLength?_append hblocked hne hline hend back
  rw [emphasisAt_star hhead', hlength]
  simp

/-- An escaped star takes in the text up to the star of the word. -/
theorem emphasisAt_star_text {cs : List Char} {last : Char} (hline : '\n' ∉ cs)
    (hlast : last ≠ '\\') (back : List Char) :
    emphasisAt ('*' :: (escaped (cs ++ [last]) ++ '*' :: back)) =
      some ⟨(escaped (cs ++ [last])).length + 1, escaped (cs ++ [last])⟩ := by
  have hne : cs ++ [last] ≠ [] := by simp
  apply emphasisAt_star_body (blocked_escaped (by decide) _) (escaped_ne_nil hne)
  · simpa using head_escaped_ne_star _ [] hne
  · exact (line_escaped_iff cs last).not.mpr hline
  · rw [getLast?_escaped]
    simpa using hlast

theorem blocked_star_word (hu : IsWord u) : Blocked '*' ('*' :: u) := by
  refine List.isChain_cons.mpr ⟨?_, blocked_of_not_mem hu.star⟩
  intro c hc hstar
  exact absurd (hstar ▸ List.mem_of_mem_head? hc) hu.star

/-- Behind a backslash of the text the star of the word ends nothing, and the star behind the word
does. -/
theorem emphasisAt_star_backslash (hu : IsWord u) {cs : List Char} (hline : '\n' ∉ cs) :
    emphasisAt ('*' :: (escaped (cs ++ ['\\']) ++ '*' :: u ++ ['*'])) =
      some ⟨(escaped (cs ++ ['\\']) ++ '*' :: u).length + 1,
        escaped (cs ++ ['\\']) ++ '*' :: u⟩ := by
  have hne : cs ++ ['\\'] ≠ [] := by simp
  have hblocked : Blocked '*' (escaped (cs ++ ['\\']) ++ '*' :: u) := by
    apply (blocked_escaped (by decide) _).append (blocked_star_word hu)
    intro _ c hc
    rw [getLast?_escaped] at hc
    exact (Option.some.inj hc).symm
  have hhead := head_escaped_ne_star (cs ++ ['\\']) ('*' :: u) hne
  have hnone : '\n' ∉ escaped (cs ++ ['\\']) ++ '*' :: u := by
    intro hmem
    rcases List.mem_append.mp hmem with hmem | hmem
    · have hcs := mem_of_mem_escaped (by decide) hmem
      simp [hline] at hcs
    · simp [hu.line] at hmem
  have hend : (escaped (cs ++ ['\\']) ++ '*' :: u).getLast? ≠ some '\\' := by
    rw [List.getLast?_append_of_ne_nil _ (by simp), List.getLast?_cons_of_ne_nil hu.filled]
    exact hu.closes
  apply emphasisAt_star_body hblocked (by simp) hhead _ hend
  exact fun h => hnone (List.dropLast_subset _ h)

/-- Where two stars stand in front of the word the mark of two stars does not end. -/
theorem markedAt_longer (hu : IsWord u) {mark : List Char} (hmark : mark ∈ marks)
    (hlonger : ¬ mark <+: ['*']) : markedAt mark ('*' :: '*' :: (u ++ ['*'])) = none := by
  have hpair : ¬ ['*', '*'] <:+: u ++ ['*'] := by
    intro h
    have hcount := h.sublist.count_le '*'
    simp [List.count_eq_zero_of_not_mem hu.star] at hcount
  have hthird : ¬ ['*', '*', '*'] <+: '*' :: '*' :: (u ++ ['*']) := by
    intro h
    obtain ⟨c, rest, rfl⟩ := List.exists_cons_of_ne_nil hu.filled
    simp only [List.cons_append, List.cons_prefix_cons, List.nil_prefix, and_true, true_and] at h
    exact hu.star (h ▸ List.mem_cons_self)
  simp only [marks, List.mem_cons, List.not_mem_nil, or_false] at hmark
  rcases hmark with rfl | rfl | rfl | rfl | rfl
  · apply markedAt_of_not_prefix
    simp
  · exact markedAt_of_not_prefix hthird
  · simp [markedAt, Text.startsWith, bodyLength?_of_not_infix hpair]
  · exact absurd List.prefix_rfl hlonger
  · apply markedAt_of_not_prefix
    simp

/-- A star in front of the star of the word takes in that star and the word. -/
theorem emphasisAt_two_stars (hu : IsWord u) :
    emphasisAt ('*' :: ('*' :: u ++ ['*'])) = some ⟨('*' :: u).length + 1, '*' :: u⟩ := by
  have hend : ('*' :: u).getLast? ≠ some '\\' := by
    rw [List.getLast?_cons_of_ne_nil hu.filled]
    exact hu.closes
  have hline : '\n' ∉ ('*' :: u).dropLast := by
    rw [List.dropLast_cons_of_ne_nil hu.filled]
    simpa using fun h => hu.line (List.dropLast_subset _ h)
  have hlength : bodyLength? ['*'] ('*' :: (u ++ ['*'])) = some (u.length + 1) :=
    bodyLength?_append (blocked_star_word hu) (List.cons_ne_nil _ _) hline hend []
  apply emphasisAt_of_mark (by decide : ['*'] ∈ marks)
  · exact fun _ => markedAt_longer hu
  · simp [markedAt, Text.startsWith, hlength, Nat.add_comm]

end Star

/-! ## The text in front of the word -/

/-- A star of the text stands in front of its last character, with no line feed between the two. -/
def OpensStar (t : List Char) : Prop :=
  ∃ front back last, t = front ++ '*' :: (back ++ [last]) ∧ '\n' ∉ back

section Text

variable {t u : List Char}

theorem escaped_append_starred (a b u : List Char) :
    escaped a ++ escapedThenStarred b u = escapedThenStarred (a ++ b) u := by
  simp [escapedThenStarred, escaped_append]

/-- In front of a word only stars are taken for marks. -/
theorem emphasisAt_not_star (hu : IsWord u) (t : List Char) {m : Char} (hm : m ∈ markChars)
    (hstar : m ≠ '*') : emphasisAt (m :: escapedThenStarred t u) = none := by
  have hword : m ∉ '*' :: (u ++ ['*']) := by
    simpa [hstar] using fun h => hu.not_escapable m h (markChars_subset hm)
  apply emphasisAt_of_blocked
  apply (blocked_escaped (markChars_subset hm) t).append (blocked_of_not_mem hword)
  intro hhead
  exact absurd (Option.some.inj hhead).symm hstar

/-- A text is kept up to the first of its stars that takes in something. -/
theorem unwrapEmphasis_front (hu : IsWord u) {front rest : List Char}
    (hstars : ∀ f g, front = f ++ '*' :: g →
      emphasisAt ('*' :: escapedThenStarred (g ++ rest) u) = none) :
    unwrapEmphasis (escapedThenStarred (front ++ rest) u) =
      escaped front ++ unwrapEmphasis (escapedThenStarred rest u) := by
  rw [← escaped_append_starred]
  apply unwrapEmphasis_keep
  intro c r hr
  by_cases hc : c ∈ markChars
  · obtain ⟨f, g, hfront, rfl⟩ := exists_of_suffix_escaped (markChars_subset hc) hr
    rw [escaped_append_starred]
    by_cases hstar : c = '*'
    · subst hstar
      exact hstars f g hfront
    · exact emphasisAt_not_star hu _ hc hstar
  · exact emphasisAt_of_not_mem hc _

/-- The star at the front of a text takes in `body`, and its backslash stays. -/
theorem unwrapEmphasis_star {rest body back : List Char}
    (hsplit : escapedThenStarred rest u = body ++ '*' :: back)
    (hbody : emphasisAt ('*' :: (body ++ '*' :: back)) = some ⟨body.length + 1, body⟩) :
    unwrapEmphasis (escapedThenStarred ('*' :: rest) u) =
      '\\' :: (body ++ unwrapEmphasis back) := by
  have hstar : '*' ∈ escapable := by decide
  have hwritten : escapedThenStarred ('*' :: rest) u = '\\' :: '*' :: (body ++ '*' :: back) := by
    rw [← hsplit, escapedThenStarred, escaped_cons_of_mem hstar]
    rfl
  have htaken : '*' :: (body ++ '*' :: back) = '*' :: (body ++ ['*'] ++ back) := by simp
  have hlength : body.length + 1 = (body ++ ['*']).length := by simp
  have hbackslash : ∀ cs, emphasisAt ('\\' :: cs) = none := emphasisAt_of_not_mem (by decide)
  rw [htaken, hlength] at hbody
  rw [hwritten, unwrapEmphasis_cons (hbackslash _), htaken, unwrapEmphasis_of_some hbody]

/-- The first star that takes in something reaches to the star of the word, or over the word. -/
theorem unwrapEmphasis_opened (hu : IsWord u) {front back : List Char} {last : Char}
    (hline : '\n' ∉ back) (hfirst : ∀ f g, front = f ++ '*' :: g → '\n' ∈ g) :
    unwrapEmphasis (escapedThenStarred (front ++ '*' :: (back ++ [last])) u) =
      escaped front ++ '\\' :: (escaped (back ++ [last]) ++
        if last = '\\' then '*' :: u else u ++ ['*']) := by
  rw [unwrapEmphasis_front hu]
  · congr 1
    split
    · rename_i hlast
      subst hlast
      have hend : unwrapEmphasis [] = [] := rfl
      have hsplit : escapedThenStarred (back ++ ['\\']) u =
          escaped (back ++ ['\\']) ++ '*' :: u ++ ['*'] := by simp [escapedThenStarred]
      rw [unwrapEmphasis_star hsplit (emphasisAt_star_backslash hu hline), hend, List.append_nil]
    · rename_i hlast
      rw [unwrapEmphasis_star rfl (emphasisAt_star_text hline hlast _), hu.unwrapEmphasis_star]
  · intro f g hfront
    have hg : '\n' ∈ g ++ '*' :: back := List.mem_append_left _ (hfirst f g hfront)
    have hnone := emphasisAt_star_line last hg ('*' :: (u ++ ['*']))
    simpa [escapedThenStarred] using hnone

/-- A star that takes in nothing but the star of the word and the word stays. -/
theorem unwrapEmphasis_last_star (hu : IsWord u) :
    unwrapEmphasis (escapedThenStarred ['*'] u) = escaped ['*'] ++ u := by
  have hsplit : escapedThenStarred [] u = '*' :: u ++ ['*'] := rfl
  have hend : unwrapEmphasis [] = [] := rfl
  rw [unwrapEmphasis_star hsplit (emphasisAt_two_stars hu), hend, List.append_nil]
  rfl

/-- Where no star takes in text, the word loses its stars and the text loses nothing. -/
theorem unwrapEmphasis_shut (hu : IsWord u) (h : ¬ OpensStar t) :
    unwrapEmphasis (escapedThenStarred t u) = escaped t ++ u := by
  have hline : ∀ f g last, t = f ++ '*' :: (g ++ [last]) → '\n' ∈ g := by
    intro f g last ht
    by_contra hg
    exact h ⟨f, g, last, ht, hg⟩
  by_cases hlast : t.getLast? = some '*'
  · obtain ⟨front, rfl⟩ := List.getLast?_eq_some_iff.mp hlast
    rw [unwrapEmphasis_front hu, unwrapEmphasis_last_star hu, escaped_append, List.append_assoc]
    intro f g hfront
    exact emphasisAt_star_line '*' (hline f g '*' (by simp [hfront])) _
  · have hstars : ∀ f g, t = f ++ '*' :: g →
        emphasisAt ('*' :: escapedThenStarred (g ++ []) u) = none := by
      intro f g ht
      rcases List.eq_nil_or_concat g with rfl | ⟨g, last, rfl⟩
      · simp [ht] at hlast
      · rw [List.append_nil]
        rw [List.concat_eq_append] at ht ⊢
        exact emphasisAt_star_line last (hline f g last ht) _
    have hkeep := unwrapEmphasis_front hu hstars
    rw [List.append_nil] at hkeep
    rw [hkeep]
    exact congrArg (escaped t ++ ·) hu.unwrapEmphasis_starred

/-! ## The pipeline -/

theorem runChars_shallow (cs : List Char) :
    runChars shallowSteps cs =
      Text.trim (unescapePunctuation (unwrapEmphasis (unwrapLinks (decodeEntities cs)))) := rfl

/-- A word between stars brings in neither references nor links. -/
theorem runChars_starred (hu : IsWord u) (hlinks : '[' ∉ t)
    (hentities : ∀ e ∈ entities, ¬ e.1 <:+: t) :
    runChars shallowSteps (escapedThenStarred t u) =
      Text.trim (unescapePunctuation (unwrapEmphasis (escapedThenStarred t u))) := by
  have hand : '&' ∉ '*' :: (u ++ ['*']) := by
    simpa using hu.not_mem (by decide : '&'.val < 128) (by decide)
  have hplain : ∀ e ∈ entities, '&' ∈ e.1 ∧ '*' ∉ e.1.tail ∧
      e.1.all (fun c => c != '\\' && !escapable.contains c) = true := by decide
  have hdecoded : decodeEntities (escapedThenStarred t u) = escapedThenStarred t u := by
    apply decodeEntities_of_not_infix
    intro e he
    obtain ⟨hfirst, hstar, hall⟩ := hplain e he
    apply Text.not_infix_append
    · exact fun h => hentities e he (infix_of_infix_escaped (by simpa using hall) h)
    · exact fun h => hand (h.subset hfirst)
    · right
      rintro c ⟨⟩
      exact hstar
  have hopen : '[' ∉ escapedThenStarred t u := by
    have hword : '[' ∉ u := hu.not_mem (by decide) (by decide)
    have htext : '[' ∉ escaped t := fun h => hlinks (mem_of_mem_escaped (by decide) h)
    simp [escapedThenStarred, hword, htext]
  rw [runChars_shallow, hdecoded, unwrapLinks_of_not_mem hopen]

theorem unescapePunctuation_of_not_mem {cs : List Char} (h : '\\' ∉ cs) :
    unescapePunctuation cs = cs := by
  refine Text.replaceBy_of_none fun start rest hrest _ => ?_
  unfold escapeAt
  split
  · exact absurd (hrest.subset List.mem_cons_self) h
  · rfl

theorem escaped_of_not_mem {cs : List Char} (h : ∀ c ∈ cs, c ∉ escapable) : escaped cs = cs := by
  induction cs with
  | nil => rfl
  | cons c cs ih =>
    rw [List.forall_mem_cons] at h
    rw [escaped_cons_of_not_mem h.1, ih h.2]

theorem IsWord.head (h : IsWord u) (back : List Char) :
    ∀ d, (u ++ back).head? = some d → d ∉ escapable := by
  intro d hd
  rw [List.head?_append_of_ne_nil _ h.filled] at hd
  exact h.not_escapable d (List.mem_of_mem_head? hd)

theorem shallow_shut (hu : IsWord u) (hlinks : '[' ∉ t) (hentities : ∀ e ∈ entities, ¬ e.1 <:+: t)
    (h : ¬ OpensStar t) :
    runChars shallowSteps (escapedThenStarred t u) = Text.trim (t ++ u) := by
  have hword : escaped t ++ u = escaped (t ++ u) := by
    rw [escaped_append, escaped_of_not_mem hu.not_escapable]
  rw [runChars_starred hu hlinks hentities, unwrapEmphasis_shut hu h, hword,
    unescapePunctuation_escaped]

/-- What comes out behind the backslash of the first star that takes in text. -/
def behindOpened (back : List Char) (last : Char) (u : List Char) : List Char :=
  back ++ if last = '\\' then '*' :: u else last :: (u ++ ['*'])

theorem unescapePunctuation_opened (hu : IsWord u) (back : List Char) (last : Char) :
    unescapePunctuation (escaped (back ++ [last]) ++
      if last = '\\' then '*' :: u else u ++ ['*']) = behindOpened back last u := by
  unfold behindOpened
  split
  · rename_i hlast
    have hescaped : escaped (back ++ [last]) ++ '*' :: u = escaped (back ++ '*' :: u) := by
      rw [hlast, escaped_append, escaped_append, escaped_cons_of_mem (by decide : '*' ∈ escapable),
        escaped_of_not_mem hu.not_escapable]
      simp [escaped, escapable]
    rw [hescaped, unescapePunctuation_escaped]
  · have hplain : '\\' ∉ u ++ ['*'] := by simp [hu.not_backslash]
    rw [unescapePunctuation_append _ (hu.head _), unescapePunctuation_of_not_mem hplain]
    simp

/-- The first star that takes in text stands between `front` and `back`, and `last` is the last
character of the text. -/
structure FirstOpening (t front back : List Char) (last : Char) : Prop where
  split : t = front ++ '*' :: (back ++ [last])
  line : '\n' ∉ back
  first : ∀ f g, front = f ++ '*' :: g → '\n' ∈ g

theorem shallow_opened (hu : IsWord u) (hlinks : '[' ∉ t) (hentities : ∀ e ∈ entities, ¬ e.1 <:+: t)
    {front back : List Char} {last : Char} (h : FirstOpening t front back last) :
    runChars shallowSteps (escapedThenStarred t u) =
      Text.trim (front ++ '\\' :: behindOpened back last u) := by
  have hbackslash : ∀ cs d, ('\\' :: cs : List Char).head? = some d → d ∉ escapable := by
    rintro cs d ⟨⟩
    decide
  have hback : ∀ cs d, (escaped (back ++ [last]) ++ cs).head? = some d → d ∉ escapable := by
    intro cs d hd
    rw [List.head?_append_of_ne_nil _ (escaped_ne_nil (by simp))] at hd
    exact head_escaped hd
  have hkept := escapeAt_of_head (hback (if last = '\\' then '*' :: u else u ++ ['*'])) true '\\'
  rw [runChars_starred hu hlinks hentities, h.split, unwrapEmphasis_opened hu h.line h.first,
    unescapePunctuation_append _ (hbackslash _), ← unescapePunctuation_opened hu]
  exact congrArg (fun cs => Text.trim (front ++ cs)) (Text.replaceBy_cons (fun _ => rfl) hkept)

theorem opensStar_cons {c : Char} :
    OpensStar (c :: t) ↔ (c = '*' ∧ t ≠ [] ∧ '\n' ∉ t.dropLast) ∨ OpensStar t := by
  constructor
  · rintro ⟨front, back, last, ht, hline⟩
    cases front with
    | nil =>
      obtain ⟨rfl, rfl⟩ := List.cons.inj ht
      exact Or.inl ⟨rfl, by simp, by simpa using hline⟩
    | cons d front =>
      obtain ⟨-, hrest⟩ := List.cons.inj ht
      exact Or.inr ⟨front, back, last, hrest, hline⟩
  · rintro (⟨rfl, hne, hline⟩ | ⟨front, back, last, rfl, hline⟩)
    · refine ⟨[], t.dropLast, t.getLast hne, ?_, hline⟩
      rw [List.dropLast_concat_getLast, List.nil_append]
    · exact ⟨c :: front, back, last, rfl, hline⟩

instance : (t : List Char) → Decidable (OpensStar t)
  | [] => isFalse (by rintro ⟨front, back, last, ht, -⟩; simp at ht)
  | _ :: t => have := instDecidableOpensStar t; decidable_of_iff _ opensStar_cons.symm

/-- Of the stars that take in text one is the first. -/
theorem OpensStar.exists_first (h : OpensStar t) :
    ∃ front back last, FirstOpening t front back last := by
  induction t with
  | nil =>
    obtain ⟨front, back, last, ht, -⟩ := h
    simp at ht
  | cons c t ih =>
    by_cases hhere : c = '*' ∧ t ≠ [] ∧ '\n' ∉ t.dropLast
    · obtain ⟨rfl, hne, hline⟩ := hhere
      refine ⟨[], t.dropLast, t.getLast hne, ?_, hline, by simp⟩
      rw [List.dropLast_concat_getLast, List.nil_append]
    · obtain ⟨front, back, last, hrest⟩ := ih ((opensStar_cons.mp h).resolve_left hhere)
      refine ⟨c :: front, back, last, by rw [hrest.split]; rfl, hrest.line, ?_⟩
      intro f g hfront
      cases f with
      | nil =>
        obtain ⟨rfl, rfl⟩ := List.cons.inj hfront
        by_contra hg
        refine hhere ⟨rfl, by simp [hrest.split], ?_⟩
        rw [hrest.split, ← List.cons_append, ← List.append_assoc, List.dropLast_concat]
        simp [hg, hrest.line]
      | cons d f => exact hrest.first f g (List.cons.inj hfront).2

theorem last_behindOpened (hu : IsWord u) (front back : List Char) (last : Char) :
    ∀ c, (front ++ '\\' :: behindOpened back last u).getLast? = some c →
      Text.isBlank c = false := by
  intro c hc
  unfold behindOpened at hc
  split at hc
  · have hsplit : front ++ '\\' :: (back ++ '*' :: u) =
        (front ++ '\\' :: (back ++ ['*'])) ++ u := by simp
    rw [hsplit, List.getLast?_append_of_ne_nil _ hu.filled] at hc
    exact hu.dark c (List.mem_of_getLast? hc)
  · have hsplit : front ++ '\\' :: (back ++ last :: (u ++ ['*'])) =
        (front ++ '\\' :: (back ++ last :: u)) ++ ['*'] := by simp
    rw [hsplit, List.getLast?_concat] at hc
    cases hc
    decide

/-- With its backslash a star does not come out as the star alone. -/
theorem trim_opened_ne (hu : IsWord u) {front back : List Char} {last : Char}
    (h : FirstOpening t front back last) :
    Text.trim (front ++ '\\' :: behindOpened back last u) ≠ Text.trim (t ++ u) := by
  have hdark : ∀ c, u.getLast? = some c → Text.isBlank c = false :=
    fun c hc => hu.dark c (List.mem_of_getLast? hc)
  have hright : ∀ c, (t ++ u).getLast? = some c → Text.isBlank c = false := by
    rw [List.getLast?_append_of_ne_nil _ hu.filled]
    exact hdark
  rw [Text.trim_of_getLast (last_behindOpened hu _ _ _), Text.trim_of_getLast hright, h.split,
    List.append_assoc, List.cons_append, Text.dropWhile_append_cons (by decide),
    Text.dropWhile_append_cons (by decide)]
  intro heq
  have hhead := (List.cons.inj (List.append_cancel_left heq)).1
  revert hhead
  decide

end Text

/-! ## The law -/

/-- Escaped text comes out as it was, and the emphasised word behind it without its stars, exactly
if no star of the text stands in front of its last character in the same line. The first star that
does takes in what stands behind it: its backslash comes out, and it does not. It ends at the star
of the word, so that the star behind the word stays. If the text ends in a backslash, it ends at the
star behind the word, and the star of the word stays. -/
theorem an_escaped_star_opens_iff_its_line_goes_on (text word : String) (hword : IsWord word.toList)
    (hlinks : '[' ∉ text.toList) (hentities : ∀ e ∈ entities, ¬ e.1 <:+: text.toList) :
    let written := String.ofList (escapedThenStarred text.toList word.toList)
    let wanted := String.ofList (Text.trim (text.toList ++ word.toList))
    (shallow written = wanted ↔ ¬ OpensStar text.toList) ∧
      ∀ front back last, FirstOpening text.toList front back last →
        shallow written =
          String.ofList (Text.trim (front ++ '\\' :: (back ++
            if last = '\\' then '*' :: word.toList else last :: (word.toList ++ ['*'])))) := by
  intro written wanted
  have hrun : shallow written =
      String.ofList (runChars shallowSteps (escapedThenStarred text.toList word.toList)) := by
    unfold shallow run
    rw [String.toList_ofList]
  have hopened : ∀ front back last, FirstOpening text.toList front back last →
      shallow written =
        String.ofList (Text.trim (front ++ '\\' :: behindOpened back last word.toList)) := by
    intro front back last h
    rw [hrun, shallow_opened hword hlinks hentities h]
  refine ⟨⟨?_, ?_⟩, hopened⟩
  · intro heq hopens
    obtain ⟨front, back, last, hfirst⟩ := hopens.exists_first
    rw [hopened front back last hfirst] at heq
    exact trim_opened_ne hword hfirst (String.ofList_injective heq)
  · intro hshut
    rw [hrun, shallow_shut hword hlinks hentities hshut]

/-- A text with a star in each of its lines, the second star at its end. -/
def starredLines : String := "_*a\n\\b! *"

/-- Neither star takes in text: a line feed stands behind the first, nothing behind the second. -/
theorem starredLines_stay_shut :
    IsWord "c1".toList ∧ '[' ∉ starredLines.toList ∧
      (∀ e ∈ entities, ¬ e.1 <:+: starredLines.toList) ∧ ¬ OpensStar starredLines.toList ∧
      shallow "\\_\\*a\n\\b\\! \\**c1*" = "_*a\n\\b! *c1" := by
  have hword : IsWord "c1".toList := by decide
  have hlinks : '[' ∉ starredLines.toList := by decide
  have hsearched : ∀ e ∈ entities, Text.contains e.1 starredLines.toList = false := by decide
  have hentities : ∀ e ∈ entities, ¬ e.1 <:+: starredLines.toList :=
    fun e he => Text.contains_eq_false_iff.mp (hsearched e he)
  have hshut : ¬ OpensStar starredLines.toList := by decide
  have hwritten : escapedThenStarred starredLines.toList "c1".toList =
      "\\_\\*a\n\\b\\! \\**c1*".toList := by decide
  have hwanted : Text.trim (starredLines.toList ++ "c1".toList) = "_*a\n\\b! *c1".toList := by
    decide
  obtain ⟨hshallow, -⟩ :=
    an_escaped_star_opens_iff_its_line_goes_on starredLines "c1" hword hlinks hentities
  rw [hwritten, hwanted, String.ofList_toList, String.ofList_toList] at hshallow
  exact ⟨hword, hlinks, hentities, hshut, hshallow.mpr hshut⟩

/-- A star in front of one emphasised word. -/
theorem escapedStar_takes_in_its_line :
    '[' ∉ "*a ".toList ∧ (∀ e ∈ entities, ¬ e.1 <:+: "*a ".toList) ∧ IsWord "b".toList ∧
      escapedThenStarred "*a ".toList "b".toList = "\\*a *b*".toList ∧
      Text.trim ("*a ".toList ++ "b".toList) = "*a b".toList ∧
      shallow "\\*a *b*" = "\\a b*" ∧ shallow "\\*a *b*" ≠ "*a b" := by
  have hsearched : ∀ e ∈ entities, Text.contains e.1 "*a ".toList = false := by decide
  have hentities : ∀ e ∈ entities, ¬ e.1 <:+: "*a ".toList :=
    fun e he => Text.contains_eq_false_iff.mp (hsearched e he)
  have hshallow : shallow "\\*a *b*" = "\\a b*" := by decide
  refine ⟨by decide, hentities, by decide, by decide, by decide, hshallow, ?_⟩
  rw [hshallow]
  decide

end DocPages.HeaderText
