-- Quoted attributes. An opening tag is read through its first angle, also where
-- that stands in the value of an attribute. So a script comes out as it was
-- written exactly if no value of its tag holds an angle; otherwise the rest of
-- the tag is taken for code.
import DocPages.Proofs.Compile.Order
import DocPages.Proofs.Demo.Elements
import DocPages.Proofs.Demo.Language

namespace DocPages.Demo

/-! ## Scripts as they are written -/

/-- An attribute with its value in quotes, and the white space in front of it. The value may hold
anything but its own quote. -/
structure QuotedAttribute where
  gap : List Char
  name : List Char
  quote : Char
  value : List Char
  spaced : gap ≠ []
  blank : ∀ c ∈ gap, Text.isBlank c = true
  named : ∀ c ∈ name, Text.isBlank c = false ∧ c ∉ '>' :: '=' :: quotes
  quoted : quote ∈ quotes
  closed : quote ∉ value

def QuotedAttribute.text (a : QuotedAttribute) : List Char :=
  a.gap ++ a.name ++ '=' :: a.quote :: (a.value ++ [a.quote])

/-- A script whose opening tag has attributes in quotes, and the gap in front of it. -/
structure QuotedScript where
  gap : List Char
  attributes : List QuotedAttribute
  trailing : List Char
  body : List Char
  blank : ∀ c ∈ trailing, Text.isBlank c = true
  ended : ¬ closing "script" <:+: body

namespace QuotedScript

/-- What stands in the opening tag behind the name. -/
def inside (s : QuotedScript) : List Char := s.attributes.flatMap QuotedAttribute.text ++ s.trailing

/-- The script as it was written. -/
def written (s : QuotedScript) : Piece := ⟨s.gap, ⟨openTag "script" s.inside, s.body⟩⟩

/-- No value holds an angle. -/
def Plain (s : QuotedScript) : Prop := ∀ a ∈ s.attributes, '>' ∉ a.value

/-- What stands in the opening tag in front of its first angle. -/
def shown (s : QuotedScript) : List Char := s.inside.takeWhile (· != '>')

/-- What is left of the opening tag behind its first angle. -/
def rest (s : QuotedScript) : List Char := (s.inside ++ ['>']).drop (s.shown.length + 1)

/-- The script as it is read: its tag ends at the first angle. -/
def read (s : QuotedScript) : Piece := ⟨s.gap, ⟨openTag "script" s.shown, s.rest ++ s.body⟩⟩

end QuotedScript

/-- No opening tag begins in the gap in front of a script, and none with a closing tag behind it
stands in the last gap. -/
def Unopened : List Piece → List Char → Prop
  | [], last => ∀ tag between, IsOpening tag → ¬ tag ++ between ++ closing "script" <:+: last
  | p :: pieces, last =>
    (∀ tag, IsOpening tag → ∀ i < p.gap.length, ¬ tag <+: (weave (p :: pieces) last).drop i) ∧
      Unopened pieces last

theorem Unopened.leftmost {pieces : List Piece} {last : List Char} (h : Unopened pieces last)
    (hsound : ∀ p ∈ pieces, p.script.Sound) : Leftmost pieces last := by
  induction pieces with
  | nil => exact h
  | cons p pieces ih =>
    rw [List.forall_mem_cons] at hsound
    exact ⟨hsound.1, h.1, ih h.2 hsound.2⟩

/-- Gaps in which the name of the tag does not stand hold no opening tag. -/
theorem Unopened.of_free {scripts : List QuotedScript} {last : List Char}
    (hgaps : ∀ s ∈ scripts, ¬ opening "script" <:+: s.gap) (hlast : ¬ opening "script" <:+: last) :
    Unopened (scripts.map QuotedScript.written) last := by
  induction scripts with
  | nil =>
    rintro tag between htag ⟨front, back, rfl⟩
    apply hlast
    refine htag.starts.isInfix.trans ⟨front, between ++ closing "script" ++ back, ?_⟩
    simp only [List.append_assoc]
  | cons s scripts ih =>
    rw [List.forall_mem_cons] at hgaps
    refine ⟨fun tag htag i hi hstart => ?_, ih hgaps.2⟩
    have hhead : ∀ c ∈ (s.written.script.block ++
        weave (scripts.map QuotedScript.written) last).head?, c ∉ (opening "script").tail := by
      rintro c ⟨⟩
      decide
    exact not_prefix_drop hgaps.1 (Or.inr hhead) hi (htag.starts.trans hstart)

/-- What the split reports is a script. -/
theorem sound_of_mem_scripts {source : List Char} {s : Script}
    (h : s ∈ (Parts.ofSource source).scripts) : s.Sound := by
  obtain ⟨pieces, last, rfl, hleft⟩ := exists_weave source
  unfold Parts.ofSource at h
  rw [scriptsFrom_weave hleft, List.mem_map] at h
  obtain ⟨p, hp, rfl⟩ := h
  exact (not_infix_gap hleft p hp).1

/-! ## The angles of an opening tag -/

theorem IsOpening.isAttributes {attributes : List Char}
    (h : IsOpening (openTag "script" attributes)) : IsAttributes attributes := by
  obtain ⟨others, hothers, heq⟩ := h
  rwa [openTag_injective "script" heq]

theorem QuotedAttribute.angle_mem_text (a : QuotedAttribute) : '>' ∈ a.text ↔ '>' ∈ a.value := by
  have hgap : '>' ∉ a.gap := fun h => absurd (a.blank _ h) (by decide)
  have hname : '>' ∉ a.name := fun h => (a.named _ h).2 (by simp)
  have hquote : '>' ≠ a.quote := by
    intro h
    have hquoted := a.quoted
    rw [← h] at hquoted
    exact absurd hquoted (by decide)
  unfold QuotedAttribute.text
  simp [hgap, hname, hquote]

theorem takeWhile_angle (cs : List Char) :
    cs ++ ['>'] = cs.takeWhile (· != '>') ++
      '>' :: (cs ++ ['>']).drop ((cs.takeWhile (· != '>')).length + 1) := by
  induction cs with
  | nil => rfl
  | cons c cs ih =>
    by_cases hc : c = '>'
    · simp [hc]
    · have htake : (c :: cs).takeWhile (· != '>') = c :: cs.takeWhile (· != '>') := by simp [hc]
      rw [htake, List.cons_append, List.length_cons, List.drop_succ_cons, List.cons_append, ← ih]

/-- A closing tag does not reach over the end of another tag. -/
theorem closing_of_append {a b : List Char} (h : closing "script" <:+: a ++ ['>'] ++ b) :
    closing "script" <:+: a ++ ['>'] ∨ closing "script" <:+: b := by
  rcases List.infix_append_iff.mp h with h | h | ⟨front, back, hsplit, hfront, hback⟩
  · exact Or.inl h
  · exact Or.inr h
  cases back using List.reverseRecOn with
  | nil =>
    rw [List.append_nil] at hsplit
    exact Or.inl (hsplit ▸ hfront.isInfix)
  | append_singleton back last =>
    rcases List.eq_nil_or_concat front with rfl | ⟨most, c, rfl⟩
    · exact Or.inr (hsplit ▸ hback.isInfix)
    · -- The angle would stand in front of the end of the closing tag.
      obtain ⟨more, hmore⟩ := hfront
      obtain rfl : c = '>' := by simpa using congrArg List.getLast? hmore
      have hinside : '>' ∉ (closing "script").dropLast := by decide
      rw [hsplit, ← List.append_assoc, List.dropLast_concat] at hinside
      simp at hinside

namespace QuotedScript

variable (s : QuotedScript)

theorem inside_eq : s.inside ++ ['>'] = s.shown ++ '>' :: s.rest := takeWhile_angle s.inside

theorem blank_of_head : ∀ c ∈ s.inside.head?, Text.isBlank c = true := by
  unfold inside
  intro c hc
  cases hattributes : s.attributes with
  | nil =>
    rw [hattributes] at hc
    exact s.blank c (List.mem_of_head? hc)
  | cons a attributes =>
    rw [hattributes, List.flatMap_cons, QuotedAttribute.text] at hc
    cases hgap : a.gap with
    | nil => exact absurd hgap a.spaced
    | cons d gap =>
      rw [hgap] at hc
      cases hc
      exact a.blank c (by simp [hgap])

theorem angle_mem_inside : '>' ∈ s.inside ↔ ¬ s.Plain := by
  have htrailing : '>' ∉ s.trailing := fun h => absurd (s.blank _ h) (by decide)
  unfold inside Plain
  simp [htrailing, QuotedAttribute.angle_mem_text]

theorem isAttributes_inside (h : s.Plain) : IsAttributes s.inside :=
  ⟨s.blank_of_head, fun hangle => s.angle_mem_inside.mp hangle h⟩

theorem isAttributes_shown : IsAttributes s.shown := by
  have hprefix : s.shown <+: s.inside := List.takeWhile_prefix _
  constructor
  · exact fun c hc => s.blank_of_head c (Text.head?_of_prefix hprefix hc)
  · intro hangle
    simpa using List.mem_takeWhile_imp hangle

/-- What is written is a script exactly if no value holds an angle. -/
theorem sound_written_iff : s.written.script.Sound ↔ s.Plain := by
  constructor
  · intro h
    by_contra hplain
    exact h.openTag.isAttributes.inside (s.angle_mem_inside.mpr hplain)
  · intro h
    exact ⟨⟨s.inside, s.isAttributes_inside h, rfl⟩, s.ended⟩

/-- What is read is the text that is written, with the tag ended at its first angle. -/
theorem read_block : s.read.script.block = s.written.script.block := by
  have hinside := s.inside_eq
  simp only [Script.block, read, written, openTag, List.append_assoc]
  rw [← List.append_assoc s.inside, hinside]
  simp

/-- Nothing is left of a tag exactly if no value holds an angle. -/
theorem rest_eq_nil_iff : s.rest = [] ↔ s.Plain := by
  constructor
  · intro hrest
    have hinside := s.inside_eq
    rw [hrest] at hinside
    by_contra hplain
    apply s.isAttributes_shown.inside
    rw [← List.append_cancel_right hinside]
    exact s.angle_mem_inside.mpr hplain
  · intro hplain
    have hinside := s.inside_eq
    have hshown : s.shown = s.inside := by
      apply List.takeWhile_eq_self_iff.mpr
      rintro c hc
      rw [bne_iff_ne]
      rintro rfl
      exact s.angle_mem_inside.mp hc hplain
    rw [hshown, List.append_cancel_left_eq] at hinside
    exact (List.cons.inj hinside).2.symm

theorem rest_suffix : s.rest <:+ s.written.script.openTag := by
  refine ⟨opening "script" ++ (s.shown ++ ['>']), ?_⟩
  dsimp only [written, openTag]
  rw [List.append_assoc (opening "script") s.inside, inside_eq]
  simp

/-- The end of the tag is the end of what is left of it. -/
theorem rest_cases : s.rest = [] ∨ ∃ most, s.rest = most ++ ['>'] := by
  rcases List.eq_nil_or_concat s.rest with h | ⟨most, last, h⟩
  · exact Or.inl h
  · have hlast := congrArg List.getLast? s.inside_eq
    rw [h, List.concat_eq_append, ← List.cons_append, ← List.append_assoc, List.getLast?_concat,
      List.getLast?_concat] at hlast
    cases hlast
    exact Or.inr ⟨most, h.trans List.concat_eq_append⟩

theorem sound_read (h : ¬ closing "script" <:+: s.written.script.openTag) :
    s.read.script.Sound := by
  refine ⟨⟨s.shown, s.isAttributes_shown, rfl⟩, fun hclosing => ?_⟩
  unfold read at hclosing
  rcases s.rest_cases with hrest | ⟨most, hrest⟩
  · rw [hrest] at hclosing
    exact s.ended hclosing
  · rw [hrest] at hclosing
    rcases closing_of_append hclosing with hrest' | hbody
    · rw [← hrest] at hrest'
      exact h (hrest'.trans s.rest_suffix.isInfix)
    · exact s.ended hbody

end QuotedScript

theorem weave_read (scripts : List QuotedScript) (last : List Char) :
    weave (scripts.map QuotedScript.read) last = weave (scripts.map QuotedScript.written) last := by
  induction scripts with
  | nil => rfl
  | cons s scripts ih =>
    rw [List.map_cons, List.map_cons, weave, weave, ih, s.read_block]
    rfl

theorem Unopened.read {scripts : List QuotedScript} {last : List Char}
    (h : Unopened (scripts.map QuotedScript.written) last) :
    Unopened (scripts.map QuotedScript.read) last := by
  induction scripts with
  | nil => exact h
  | cons s scripts ih =>
    have htext := weave_read (s :: scripts) last
    rw [List.map_cons, List.map_cons] at htext
    refine ⟨?_, ih h.2⟩
    rw [htext]
    exact h.1

/-! ## The law -/

/-- An opening tag is read through its first angle. So the scripts of a demo come out as they were
written exactly if no value of an attribute holds an angle, and then the transpiler is asked for
their bodies. Otherwise, if no closing tag stands in an opening tag, each script is found as a
whole, but what is left of its tag is put in front of its body, and the transpiler is asked for
both. -/
theorem a_script_tag_ends_at_its_first_angle (scripts : List QuotedScript) (last : List Char)
    (h : Unopened (scripts.map QuotedScript.written) last) :
    let split := (Parts.ofSource (weave (scripts.map QuotedScript.written) last)).scripts
    (split = scripts.map (fun s => s.written.script) ↔ ∀ s ∈ scripts, s.Plain) ∧
      ((∀ s ∈ scripts, s.Plain) → ∀ c, Follows c (vanillaScripts c split)
        (scripts.map fun s => .transpile (String.ofList s.body))) ∧
      ((∀ s ∈ scripts, ¬ closing "script" <:+: s.written.script.openTag) →
        split = scripts.map (fun s => s.read.script) ∧
          ∀ c, Follows c (vanillaScripts c split)
            (scripts.map fun s => .transpile (String.ofList (s.rest ++ s.body)))) ∧
      ∀ s ∈ scripts, s.rest = [] ↔ s.Plain := by
  intro split
  have hplain : (∀ s ∈ scripts, s.Plain) → split = scripts.map fun s => s.written.script := by
    intro hplain
    have hsound : ∀ p ∈ scripts.map QuotedScript.written, p.script.Sound := by
      rw [List.forall_mem_map]
      exact fun s hs => s.sound_written_iff.mpr (hplain s hs)
    exact (scriptsFrom_weave (h.leftmost hsound)).trans List.map_map
  have hread : (∀ s ∈ scripts, ¬ closing "script" <:+: s.written.script.openTag) →
      split = scripts.map fun s => s.read.script := by
    intro hfree
    have hsound : ∀ p ∈ scripts.map QuotedScript.read, p.script.Sound := by
      rw [List.forall_mem_map]
      exact fun s hs => s.sound_read (hfree s hs)
    have hscripts := scriptsFrom_weave (h.read.leftmost hsound)
    rw [weave_read] at hscripts
    exact hscripts.trans List.map_map
  refine ⟨⟨?_, hplain⟩, ?_, fun hfree => ⟨hread hfree, ?_⟩, fun s _ => s.rest_eq_nil_iff⟩
  · intro heq s hs
    have hmem : s.written.script ∈ split := by
      rw [heq]
      exact List.mem_map_of_mem hs
    exact s.sound_written_iff.mp (sound_of_mem_scripts hmem)
  · intro hall c
    have hasked := follows_vanillaScripts c (scripts.map fun s => s.written.script)
    rwa [List.map_map, ← hplain hall] at hasked
  · intro c
    have hasked := follows_vanillaScripts c (scripts.map fun s => s.read.script)
    rwa [List.map_map, ← hread hfree] at hasked

/-- A script in a language with types. -/
def typedScript : QuotedScript where
  gap := "<template>a</template>\n".toList
  attributes := [
    { gap := [' '], name := "lang".toList, quote := '\x27', value := "ts".toList,
      spaced := by decide, blank := List.all_iff_forall_prop.mp (by decide),
      named := List.all_iff_forall_prop.mp (by decide), quoted := by decide,
      closed := by decide }]
  trailing := ['\n']
  body := "let a".toList
  blank := List.all_iff_forall_prop.mp (by decide)
  ended := by decide +kernel

/-- A script with a list of type arguments. -/
def genericScript : QuotedScript where
  gap := ['\n']
  attributes := [
    { gap := [' '], name := "generic".toList, quote := '\x22',
      value := "T extends Map<K, V>".toList, spaced := by decide,
      blank := List.all_iff_forall_prop.mp (by decide),
      named := List.all_iff_forall_prop.mp (by decide), quoted := by decide,
      closed := by decide }]
  trailing := []
  body := "let b".toList
  blank := List.all_iff_forall_prop.mp (by decide)
  ended := by decide +kernel

/-- No tag of a script stands in a gap of the two demos. So one comes out as it was written, and in
the other one the end of the type arguments is put in front of the code. -/
theorem typedScript_comes_out_and_genericScript_does_not :
    Unopened [typedScript.written] [] ∧
      (Parts.ofSource (weave [typedScript.written] [])).scripts = [typedScript.written.script] ∧
      Unopened [typedScript.written, genericScript.written] ['\n'] ∧
      (Parts.ofSource (weave [typedScript.written, genericScript.written] ['\n'])).scripts =
        [typedScript.written.script,
          ⟨"<script generic=\x22T extends Map<K, V>".toList, "\x22>let b".toList⟩] := by
  have hone : Unopened ([typedScript].map QuotedScript.written) [] :=
    .of_free (by decide +kernel) (by decide)
  have htwo : Unopened ([typedScript, genericScript].map QuotedScript.written) ['\n'] :=
    .of_free (by decide +kernel) (by decide)
  refine ⟨hone, ?_, htwo, ?_⟩
  · have hplain : ∀ s ∈ [typedScript], s.Plain := by
      unfold QuotedScript.Plain
      decide
    exact (a_script_tag_ends_at_its_first_angle [typedScript] [] hone).1.mpr hplain
  · have hfree : ∀ s ∈ [typedScript, genericScript],
        ¬ closing "script" <:+: s.written.script.openTag := by decide +kernel
    exact ((a_script_tag_ends_at_its_first_angle [typedScript, genericScript] ['\n'] htwo).2.2.1
      hfree).1

/-- A demo that does not come out as it was written. -/
theorem genericScript_loses_the_end_of_its_tag :
    (Parts.ofSource (weave [genericScript.written] [])).scripts =
        [⟨"<script generic=\x22T extends Map<K, V>".toList, "\x22>let b".toList⟩] ∧
      (Parts.ofSource (weave [genericScript.written] [])).scripts ≠
        [genericScript.written.script] := by
  decide +kernel

end DocPages.Demo
