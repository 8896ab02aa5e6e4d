-- A demo without types, split again. The elements of a tidy demo survive the
-- loss of their types: the template and the style as they are, and of the
-- scripts those that something is left of, in order.
import DocPages.Proofs.Demo.Delivered
import DocPages.Proofs.Demo.Elements
import DocPages.Proofs.Demo.Language

namespace DocPages.Demo

variable {c : Collaborators}

/-! ## The scripts that remain -/

/-- The content of a script without types: transpiled code, less the line breaks at its ends,
between two line breaks. -/
def remaining (code : String) : List Char :=
  '\n' :: (Text.trimBy Text.isLineBreak code.toList ++ ['\n'])

/-- The scripts that remain of scripts without their types. A script whose code is blank is dropped;
any other one loses its language, and holds what its code has been transpiled to. -/
inductive Remain (c : Collaborators) : List Element → List Element → Prop
  | nil : Remain c [] []
  | dropped {e : Element} {es rest : List Element} {code : String}
    (hcode : c.transpile (String.ofList e.content) = .ok code)
    (hblank : Text.allBlank code.toList = true) (h : Remain c es rest) : Remain c (e :: es) rest
  | kept {e : Element} {es rest : List Element} {code : String} {attributes : List Char}
    (hcode : c.transpile (String.ofList e.content) = .ok code)
    (hblank : Text.allBlank code.toList = false)
    (hattributes : WithoutLanguage e.attributes attributes) (h : Remain c es rest) :
    Remain c (e :: es) (⟨attributes, remaining code⟩ :: rest)

theorem isBlank_of_isLineBreak (d : Char) (h : Text.isLineBreak d = true) :
    Text.isBlank d = true := by
  unfold Text.isLineBreak at h
  rw [Bool.or_eq_true, beq_iff_eq, beq_iff_eq] at h
  rcases h with rfl | rfl <;> decide

/-- What a script is turned into. -/
theorem vanillaScript?_openTag (attributes : List Char) (code : String) :
    ∃ rest, WithoutLanguage attributes rest ∧
      vanillaScript? (openTag "script" attributes) code.toList =
        if Text.allBlank code.toList then none
        else some (Element.text "script" ⟨rest, remaining code⟩) := by
  have hname : ∀ c ∈ "script".toList, Text.isBlank c = false :=
    List.all_iff_forall_prop.mp (by decide)
  obtain ⟨rest, hrest, htag⟩ := plainTag_openTag hname attributes
  refine ⟨rest, hrest, ?_⟩
  unfold vanillaScript?
  dsimp only
  rw [Text.allBlank_trimBy isBlank_of_isLineBreak, htag]
  simp only [Element.text, remaining, List.append_assoc, List.cons_append, List.nil_append]

theorem Remain.exists {es : List Element}
    (h : ∀ e ∈ es, ∃ code, c.transpile (String.ofList e.content) = .ok code) :
    ∃ rest, Remain c es rest ∧
      (es.map Element.script).filterMap (Script.vanilla? c) = rest.map (Element.text "script") := by
  induction es with
  | nil => exact ⟨[], .nil, rfl⟩
  | cons e es ih =>
    rw [List.forall_mem_cons] at h
    obtain ⟨code, hcode⟩ := h.1
    obtain ⟨rest, hrest, hwritten⟩ := ih h.2
    obtain ⟨attributes, hattributes, hscript⟩ := vanillaScript?_openTag e.attributes code
    have hhere : Script.vanilla? c e.script =
        vanillaScript? (openTag "script" e.attributes) code.toList := by
      unfold Script.vanilla? Element.script
      dsimp only
      rw [hcode]
    rw [List.map_cons, List.filterMap_cons, hhere, hscript, hwritten]
    cases hblank : Text.allBlank code.toList with
    | true => exact ⟨rest, .dropped hcode hblank hrest, rfl⟩
    | false => exact ⟨_, .kept hcode hblank hattributes hrest, rfl⟩

/-- What remains is as tidy as what has been transpiled. -/
theorem Remain.tidy {es rest : List Element} (h : Remain c es rest)
    (htidy : ∀ e ∈ es, e.Tidy kinds) (hapart : ∀ e ∈ es, LanguagesApart e.attributes)
    (hfree : ∀ script code, c.transpile script = .ok code → ∀ name ∈ kinds, Free name code.toList) :
    ∀ e ∈ rest, e.Tidy kinds := by
  induction h with
  | nil => exact nofun
  | dropped _ _ _ ih =>
    rw [List.forall_mem_cons] at htidy hapart
    exact ih htidy.2 hapart.2
  | @kept e es rest code attributes hcode _ hattributes _ ih =>
    rw [List.forall_mem_cons] at htidy hapart
    refine List.forall_mem_cons.mpr ⟨⟨?_, ?_, ?_⟩, ih htidy.2 hapart.2⟩
    · exact hattributes.isAttributes hapart.1 htidy.1.attributes
    · exact fun hmem => htidy.1.angle (hattributes.sublist.subset hmem)
    · intro name hname
      have hbreak : Free name ['\n'] := free_of_not_mem (by decide)
      have hcode : Free name (Text.trimBy Text.isLineBreak code.toList) :=
        (hfree _ _ hcode name hname).within (Text.trimBy_infix _ _)
      have hback := hcode.append hname hbreak (Or.inr (by simp))
      exact hbreak.append hname hback (Or.inl (by simp))

/-! ## Transpiling -/

/-- The scripts of a demo have come out exactly if each of them can be transpiled. -/
theorem vanillaScripts_ok_iff {scripts : List Script} :
    (∃ vanilla, (vanillaScripts c scripts).outcome = .ok vanilla) ↔
      ∀ s ∈ scripts, ∃ code, c.transpile (String.ofList s.body) = .ok code := by
  have hok : ∀ {α : Type} (outcome : Except CompileError α),
      (∃ a, outcome = .ok a) ↔ failureOf outcome = none := by
    intro α outcome
    cases outcome <;> simp [failureOf]
  rw [hok, (follows_vanillaScripts c scripts).failed, List.findSome?_eq_none_iff]
  simp only [List.forall_mem_map, hok]
  rfl

theorem vanillaScripts_of_generate {o : Options.Compiler} {p : Source} {text : String}
    (h : (generate c o p).outcome = .ok text) :
    ∃ vanilla, (vanillaScripts c (Parts.ofSource p.demo.toList).scripts).outcome = .ok vanilla := by
  have hfailed := (follows_generate c o p).failed
  rw [h] at hfailed
  rw [vanillaScripts_ok_iff]
  intro s hs
  have hasked : s.question ∈ plan c o p.demo := by
    unfold plan
    simp only [List.mem_append, List.mem_map]
    exact Or.inl (Or.inr ⟨s, hs, rfl⟩)
  have hnone : failureOf (c.transpile (String.ofList s.body)) = none :=
    List.findSome?_eq_none_iff.mp hfailed.symm _ hasked
  cases hcode : c.transpile (String.ofList s.body) with
  | ok code => exact ⟨code, rfl⟩
  | error e =>
    rw [hcode] at hnone
    cases hnone

/-! ## The law -/

/-- A tidy demo splits into the elements that it was written from, and the demo without types splits
into the template, the scripts that remain and the style, if no transpiled code holds a tag of a
demo. The scripts come out exactly if each of them can be transpiled, and a preview shows the demo
that is written from them. -/
theorem a_demo_without_types_splits_into_what_remains (c : Collaborators) (o : Options.Compiler)
    (p : Source) (a : Assembly) (hdemo : p.demo = String.ofList (Text.joinWith ['\n'] a.texts))
    (htidy : a.Tidy) (hapart : ∀ e ∈ a.scripts, LanguagesApart e.attributes)
    (hfree : ∀ script code, c.transpile script = .ok code →
      ∀ name ∈ kinds, Free name code.toList) :
    Parts.ofSource p.demo.toList = a.parts ∧
      ((∃ vanilla, (vanillaScripts c a.parts.scripts).outcome = .ok vanilla) ↔
        ∀ e ∈ a.scripts, ∃ code, c.transpile (String.ofList e.content) = .ok code) ∧
      (∀ vanilla, (vanillaScripts c a.parts.scripts).outcome = .ok vanilla →
        ∃ scripts, Remain c a.scripts scripts ∧
          Parts.ofSource (vanillaSource a.parts vanilla) =
            ⟨a.parts.template, scripts.map Element.script, a.parts.style⟩) ∧
      ∀ text, (generate c o p).outcome = .ok text →
        ∃ vanilla, (vanillaScripts c a.parts.scripts).outcome = .ok vanilla ∧
          shownTexts (generate c o p).trace =
            [fence o.demoLanguage p.demo,
              fence o.demoLanguage (String.ofList (vanillaSource a.parts vanilla))] := by
  have hparts : Parts.ofSource p.demo.toList = a.parts := by
    rw [hdemo, String.toList_ofList]
    exact htidy.ofSource (by decide)
  have hok : (∃ vanilla, (vanillaScripts c a.parts.scripts).outcome = .ok vanilla) ↔
      ∀ e ∈ a.scripts, ∃ code, c.transpile (String.ofList e.content) = .ok code := by
    rw [vanillaScripts_ok_iff]
    exact List.forall_mem_map
  refine ⟨hparts, hok, ?_, ?_⟩
  · intro vanilla hvanilla
    obtain ⟨scripts, hremain, hwritten⟩ := Remain.exists (hok.mp ⟨vanilla, hvanilla⟩)
    have hagain : ({a with scripts} : Assembly).Tidy :=
      ⟨htidy.template, hremain.tidy htidy.scripts hapart hfree, htidy.style⟩
    refine ⟨scripts, hremain, ?_⟩
    have hscripts : vanilla = scripts.map (Element.text "script") :=
      (vanillaScripts_outcome c hvanilla).trans hwritten
    rw [hscripts]
    exact hagain.ofSource (by decide : '<' ∉ ['\n', '\n'])
  · intro text htext
    obtain ⟨vanilla, hvanilla⟩ := vanillaScripts_of_generate htext
    rw [hparts] at hvanilla
    refine ⟨vanilla, hvanilla, ?_⟩
    rw [shownTexts_generate htext, vanillaScripts_outcome c hvanilla]
    unfold vanillaText
    rw [hparts]

/-- A transpiler that knows one script. -/
def oneScriptCollaborators : Collaborators :=
  { plainCollaborators with
    transpile script :=
      .ok (if script == "\nlet n: number = 1\n" then "let n = 1;\n" else "") }

/-- A demo with an empty script, a typed script that has other attributes too, and a style. -/
def typedDemo : Assembly where
  template := some ⟨[], "<p>{{ n }}</p>".toList⟩
  scripts := [⟨[], "\n".toList⟩, ⟨" lang=\x22ts\x22 setup".toList, "\nlet n: number = 1\n".toList⟩]
  style := some ⟨" scoped".toList, "p {}".toList⟩

/-- The empty script of a demo is dropped, and the other one loses its language. -/
theorem typedDemo_splits_into_its_second_script :
    typedDemo.Tidy ∧ (∀ e ∈ typedDemo.scripts, LanguagesApart e.attributes) ∧
      (∀ script code, oneScriptCollaborators.transpile script = .ok code →
        ∀ name ∈ kinds, Free name code.toList) ∧
      ∃ scripts, Remain oneScriptCollaborators typedDemo.scripts scripts ∧
        Parts.ofSource (vanillaSource typedDemo.parts
          ["<script setup>\nlet n = 1;\n</script>".toList]) =
            ⟨typedDemo.parts.template, scripts.map Element.script, typedDemo.parts.style⟩ := by
  have htidy : typedDemo.Tidy := by
    constructor
    · rintro e ⟨⟩
      exact ⟨by decide, by decide, by unfold Free; decide +kernel⟩
    · intro e he
      rcases List.mem_pair.mp he with rfl | rfl
      · exact ⟨by decide, by decide, by unfold Free; decide +kernel⟩
      · exact ⟨by decide, by decide, by unfold Free; decide +kernel⟩
    · rintro e ⟨⟩
      exact ⟨by decide, by decide, by unfold Free; decide +kernel⟩
  have hapart : ∀ e ∈ typedDemo.scripts, LanguagesApart e.attributes := by
    decide +kernel
  have hfree : ∀ script code, oneScriptCollaborators.transpile script = .ok code →
      ∀ name ∈ kinds, Free name code.toList := by
    rintro script code ⟨⟩ name -
    refine free_of_not_mem ?_
    split <;> decide
  have hlaw := a_demo_without_types_splits_into_what_remains oneScriptCollaborators .standard
    { quotedDemo with demo := String.ofList (Text.joinWith ['\n'] typedDemo.texts) } typedDemo rfl
    htidy hapart hfree
  exact ⟨htidy, hapart, hfree, hlaw.2.2.1 _ (by decide +kernel)⟩

end DocPages.Demo
