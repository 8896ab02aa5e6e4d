-- The order in which compiling asks its collaborators: first for the front
-- matter, the markup and the time of the page, then for what a demo needs.
-- The first question that fails ends the work and is its failure, and a
-- failure leaves no trace in the memory.
import DocPages.Proofs.Compile.Cached
import DocPages.Proofs.Compile.Plan

namespace DocPages

open Demo (Script Parts fence vanillaSource vanillaScript? vanillaScripts)

/-! ## The plan of a demo -/

namespace Demo

/-- The question for a script without types. -/
def Script.question (s : Script) : Question := .transpile (String.ofList s.body)

/-- What is left of a script without types, where it can be transpiled. -/
def Script.vanilla? (c : Collaborators) (s : Script) : Option (List Char) :=
  match c.transpile (String.ofList s.body) with
  | .ok code => vanillaScript? s.openTag code.toList
  | .error _ => none

/-- A demo without types, as far as its scripts can be transpiled. -/
def vanillaText (c : Collaborators) (demo : String) : String :=
  let parts := Parts.ofSource demo.toList
  String.ofList (vanillaSource parts (parts.scripts.filterMap (Script.vanilla? c)))

/-- The questions for a demo: for the markup of its code, for its scripts in order, and for the
markup of the code without types. -/
def plan (c : Collaborators) (o : Options.Compiler) (demo : String) : List Question :=
  [.render (fence o.demoLanguage demo)] ++
    (Parts.ofSource demo.toList).scripts.map Script.question ++
    [.render (fence o.demoLanguage (vanillaText c demo))]

end Demo

variable (c : Collaborators) (o : Options.Compiler)

theorem follows_askFrontMatter (source : String) :
    Follows c (c.askFrontMatter source) [.extract source] := follows_ask rfl

theorem follows_askMarkup (text : String) : Follows c (c.askMarkup text) [.render text] :=
  follows_ask rfl

theorem follows_askTime (file : String) : Follows c (c.askTime file) [.stat file] :=
  follows_ask rfl

theorem follows_askScript (script : String) : Follows c (c.askScript script) [.transpile script] :=
  follows_ask rfl

theorem follows_highlight (code : String) :
    Follows c (Demo.highlight c o code) [.render (fence o.demoLanguage code)] :=
  (follows_askMarkup c _).then_quiet fun _ _ => follows_pure _

theorem follows_vanillaScripts (scripts : List Script) :
    Follows c (vanillaScripts c scripts) (scripts.map Script.question) := by
  induction scripts with
  | nil => exact follows_pure []
  | cons s rest ih =>
    rw [List.map_cons, ← List.singleton_append]
    refine (follows_askScript c _).bind fun code _ => ?_
    exact ih.then_quiet fun _ _ => follows_pure _

/-- Scripts that can all be transpiled give what is left of each. -/
theorem vanillaScripts_outcome {scripts : List Script} {vanilla : List (List Char)}
    (h : (vanillaScripts c scripts).outcome = .ok vanilla) :
    vanilla = scripts.filterMap (Script.vanilla? c) := by
  induction scripts generalizing vanilla with
  | nil => cases h; rfl
  | cons s rest ih =>
    obtain ⟨code, hcode, h⟩ := Traced.bind_ok h
    obtain ⟨others, hothers, h⟩ := Traced.bind_ok h
    cases h
    have hs : c.transpile (String.ofList s.body) = .ok code := hcode
    have hv : Script.vanilla? c s = vanillaScript? s.openTag code.toList := by
      unfold Script.vanilla?
      rw [hs]
    rw [ih hothers, List.filterMap_cons, hv]
    cases vanillaScript? s.openTag code.toList <;> rfl

theorem follows_noteMarker (p : Demo.Source) : Follows c (Demo.noteMarker o p) [] := by
  unfold Demo.noteMarker
  split
  · exact follows_pure ()
  · exact follows_note _

theorem follows_generate (p : Demo.Source) :
    Follows c (Demo.generate c o p) (Demo.plan c o p.demo) := by
  unfold Demo.generate Demo.plan
  rw [List.append_assoc]
  refine (follows_note _).behind_quiet fun _ _ => ?_
  refine (follows_highlight c o p.demo).bind fun written _ => ?_
  extract_lets parts next
  have hnext : Follows c (next ()) (parts.scripts.map Script.question ++
      [.render (fence o.demoLanguage (Demo.vanillaText c p.demo))]) := by
    refine (follows_vanillaScripts c _).bind fun scripts hout => ?_
    have hvanilla := vanillaScripts_outcome c hout
    subst hvanilla
    refine (follows_highlight c o _).then_quiet fun shown _ => ?_
    exact (follows_noteMarker c o p).behind_quiet fun _ _ => follows_pure _
  split
  · exact (follows_note _).behind_quiet fun _ _ => hnext
  · exact hnext

/-! ## The plan of a page -/

namespace Compile

/-- The text of a page behind its front matter, where that can be read. -/
def bodyOf (c : Collaborators) (r : Request) : String :=
  match c.extract r.source with
  | .ok fm => fm.body
  | .error _ => ""

/-- The demo of a page, where its text can be shown. -/
def demoOf? (c : Collaborators) (r : Request) : Option String :=
  match (c.render (bodyOf c r)).outcome with
  | .ok shown => shown.demoSource
  | .error _ => none

/-- A page that has been compiled has had an answer to each of its questions. -/
theorem page_ok {r : Request} {compiled : Compiled} (h : (page c o r).outcome = .ok compiled) :
    ∃ fm shown time, c.extract r.source = .ok fm ∧ (c.render fm.body).outcome = .ok shown ∧
      demoOf? c r = shown.demoSource ∧ compiled.pageData = pageData r fm shown time ∧
      (component c o compiled.pageData shown.demoSource).outcome =
        .ok compiled.componentSource := by
  unfold page at h
  obtain ⟨fm, hfm, h⟩ := Traced.bind_ok h
  obtain ⟨shown, hshown, h⟩ := Traced.bind_ok h
  obtain ⟨time, -, h⟩ := Traced.bind_ok h
  obtain ⟨text, htext, h⟩ := Traced.bind_ok h
  cases h
  replace hfm : c.extract r.source = .ok fm := hfm
  replace hshown : (c.render fm.body).outcome = .ok shown := hshown
  refine ⟨fm, shown, time, hfm, hshown, ?_, rfl, htext⟩
  unfold demoOf? bodyOf
  rw [hfm, hshown]

/-- The questions that only a page with a demo needs. -/
def demoPlan (c : Collaborators) (o : Options.Compiler) (r : Request) : List Question :=
  match demoOf? c r with
  | none => []
  | some demo => Demo.plan c o demo

/-- The questions for a page: for its front matter, its markup and its time, and for its demo. -/
def plan (c : Collaborators) (o : Options.Compiler) (r : Request) : List Question :=
  [.extract r.source, .render (bodyOf c r), .stat r.file] ++ demoPlan c o r

theorem follows_component (data : PageData) (demo : Option String) :
    Follows c (component c o data demo)
      (match demo with
        | none => []
        | some demo => Demo.plan c o demo) := by
  cases demo with
  | none => exact follows_pure _
  | some demo => exact follows_generate c o _

theorem follows_page (r : Request) : Follows c (page c o r) (plan c o r) := by
  have hplan : plan c o r =
      [.extract r.source] ++ ([.render (bodyOf c r)] ++ ([.stat r.file] ++ demoPlan c o r)) := rfl
  unfold page
  rw [hplan]
  refine (follows_askFrontMatter c r.source).bind fun fm hfm => ?_
  have hbody : bodyOf c r = fm.body := by
    have h : c.extract r.source = .ok fm := hfm
    unfold bodyOf
    rw [h]
  rw [hbody]
  refine (follows_askMarkup c fm.body).bind fun shown hshown => ?_
  have hdemo : demoOf? c r = shown.demoSource := by
    have h : (c.render fm.body).outcome = .ok shown := hshown
    unfold demoOf?
    rw [hbody, h]
  refine (follows_askTime c r.file).bind fun time _ => ?_
  unfold demoPlan
  rw [hdemo]
  exact (follows_component c o _ _).then_quiet fun _ _ => follows_pure _

/-- Noting that a page is not remembered asks nothing. -/
theorem follows_missWork (r : Request) : Follows c (missWork c o r) (plan c o r) :=
  (follows_note _).behind_quiet fun _ _ => follows_page c o r

/-! ## How often each part is asked -/

theorem countP_scripts (scripts : List Script) (part : Part) :
    (scripts.map Script.question).countP (fun q => q.part == part) =
      if part = .transpile then scripts.length else 0 := by
  rw [List.countP_map]
  split
  · rename_i h
    subst h
    exact List.countP_eq_length.mpr fun s _ => rfl
  · rename_i h
    refine List.countP_eq_zero.mpr fun s _ => ?_
    simp only [Function.comp_apply, beq_iff_eq]
    exact fun hs => h hs.symm

/-- How often the plan of a page asks a part. -/
def asksOf (c : Collaborators) (r : Request) : Part → Nat
  | .extract => 1
  | .stat => 1
  | .render => if (demoOf? c r).isSome then 3 else 1
  | .transpile => ((demoOf? c r).map fun demo => (Parts.ofSource demo.toList).scripts.length).getD 0

theorem countP_plan (r : Request) (part : Part) :
    (plan c o r).countP (fun q => q.part == part) = asksOf c r part := by
  unfold plan demoPlan asksOf
  rw [List.countP_append]
  cases demoOf? c r with
  | none => cases part <;> rfl
  | some demo =>
    unfold Demo.plan
    rw [List.countP_append, List.countP_append, countP_scripts]
    cases part <;> simp [Question.part]

/-! ## The law -/

/-- Compiling asks its collaborators in the one order of the plan, up to the first question that
fails, whose failure is its own; a failure leaves the memory as it was, the order of use included.
A page that is remembered asks nothing, and one that has been compiled has asked all of its plan. -/
theorem a_page_asks_in_order_up_to_its_first_failure (memory : Memory) (r : Request) :
    (∀ e, (cached c o memory r).1.outcome = .error e → (cached c o memory r).2 = memory) ∧
      (memory.contains r.source = true →
        Traced.questions (cached c o memory r).1.trace = []) ∧
      (memory.contains r.source = false →
        Traced.questions (cached c o memory r).1.trace =
            throughFailure c.failure? (plan c o r) ∧
          failureOf (cached c o memory r).1.outcome = (plan c o r).findSome? c.failure? ∧
          ∀ p, (cached c o memory r).1.outcome = .ok p →
            Traced.count .extract (cached c o memory r).1.trace = 1 ∧
              Traced.count .stat (cached c o memory r).1.trace = 1 ∧
              (demoOf? c r = none →
                Traced.count .render (cached c o memory r).1.trace = 1 ∧
                  Traced.count .transpile (cached c o memory r).1.trace = 0) ∧
              ∀ demo, demoOf? c r = some demo →
                Traced.count .render (cached c o memory r).1.trace = 3 ∧
                  Traced.count .transpile (cached c o memory r).1.trace =
                    (Parts.ofSource demo.toList).scripts.length) := by
  refine ⟨fun e he => cached_memory_of_error he, ?_, ?_⟩
  · intro hhit
    obtain ⟨p, hp⟩ := Cache.contains_eq_true_iff.mp hhit
    rw [cached_of_hit hp]
    rfl
  · intro hmiss
    have hwork : (cached c o memory r).1 = missWork c o r := by
      rw [cached_of_miss (Cache.contains_eq_false_iff.mp hmiss)]
    have hfollows := follows_missWork c o r
    rw [hwork]
    refine ⟨hfollows.asked, hfollows.failed, ?_⟩
    intro p hp
    have hcount : ∀ part, Traced.count part (missWork c o r).trace = asksOf c r part := by
      intro part
      have hnone : (plan c o r).findSome? c.failure? = none := by
        rw [← hfollows.failed, hp]
        rfl
      unfold Traced.count
      rw [hfollows.asked, throughFailure_of_none hnone]
      exact countP_plan c o r part
    simp only [hcount, asksOf]
    refine ⟨trivial, trivial, ?_, ?_⟩
    · intro hdemo
      simp [hdemo]
    · intro demo hdemo
      simp [hdemo]

end Compile

end DocPages
