-- Where the parts of a demo stand in its source. Scripts never overlap, but the
-- template and the style reach to the last of their closing tags, over
-- whatever stands in between. So the parts stand apart exactly if none of
-- them begins in front of the end of another one.
import DocPages.Proofs.Compile.Order
import DocPages.Proofs.Demo.Scripts
import DocPages.Proofs.Text.Trim
import Mathlib.Data.List.Pairwise

namespace DocPages.Demo

/-! ## Places -/

/-- A stretch of a source, from one character up to another. -/
structure Place where
  start : Nat
  stop : Nat
  deriving DecidableEq

namespace Place

/-- The characters of a source at a place. -/
def text (source : List Char) (p : Place) : List Char := (source.drop p.start).take (p.stop - p.start)

/-- Whether a place holds the character with the number `i`. -/
def holds (i : Nat) (p : Place) : Bool := p.start ≤ i && i < p.stop

/-- Places without a character in common. -/
def Apart (p q : Place) : Prop := p.stop ≤ q.start ∨ q.stop ≤ p.start

instance (p q : Place) : Decidable (p.Apart q) :=
  inferInstanceAs (Decidable (p.stop ≤ q.start ∨ q.stop ≤ p.start))

instance : Std.Symm Apart := ⟨fun _ _ h => h.symm⟩

/-- The place of a text that begins at a character. -/
def ofText (start : Nat) (text : List Char) : Place := ⟨start, start + text.length⟩

theorem text_ofText {source text : List Char} {i : Nat} (h : text <+: source.drop i) :
    (ofText i text).text source = text := by
  unfold Place.text ofText
  dsimp only
  rw [Nat.add_sub_cancel_left]
  exact (List.prefix_iff_eq_take.mp h).symm

end Place

/-- The place of the first block of a text, the first character of which has the number `i`. -/
def blockPlace? (name : String) : Nat → List Char → Option Place
  | _, [] => none
  | i, c :: cs =>
    ((blockHere? name (c :: cs)).map (Place.ofText i)).or (blockPlace? name (i + 1) cs)

/-- The places of the scripts of a text, the first character of which has the number `i`; `skip`
characters belong to a script in front. -/
def scriptPlaces : Nat → Nat → List Char → List Place
  | _, _, [] => []
  | i, skip + 1, _ :: cs => scriptPlaces (i + 1) skip cs
  | i, 0, c :: cs =>
    match script? (c :: cs) with
    | some s => .ofText i s.block :: scriptPlaces (i + 1) (s.block.length - 1) cs
    | none => scriptPlaces (i + 1) 0 cs

/-- The places of the parts of a demo. -/
structure Places where
  template : Option Place
  scripts : List Place
  style : Option Place

/-- The places of the parts of a demo. -/
def Places.ofSource (source : List Char) : Places :=
  ⟨blockPlace? "template" 0 source, scriptPlaces 0 0 source, blockPlace? "style" 0 source⟩

/-- All of the places. -/
def Places.all (p : Places) : List Place := p.template.toList ++ p.scripts ++ p.style.toList

/-! ## Blocks -/

/-- A block stands at a place: it begins with its opening tag and ends with the last of its closing
tags. -/
structure BlockAt (name : String) (source : List Char) (p : Place) : Prop where
  opens : opening name <+: source.drop p.start
  ends : ∃ content back, source.drop p.start = content ++ closing name ++ back ∧
    p.stop = p.start + (content ++ closing name).length ∧ ¬ closing name <:+: back

/-- The block at the front of a text. -/
theorem exists_of_blockHere? {name : String} (hname : '<' ∉ name.toList) {cs text : List Char}
    (h : blockHere? name cs = some text) :
    opening name <+: cs ∧ ∃ content back, text = content ++ closing name ∧ cs = text ++ back ∧
      ¬ closing name <:+: back := by
  obtain ⟨tag, htag, hrest⟩ := Option.bind_eq_some_iff.mp h
  obtain ⟨rest, hlast, heq⟩ := Option.bind_eq_some_iff.mp hrest
  cases heq
  obtain ⟨attributes, -, rfl, behind, rfl⟩ := exists_of_openTag? htag
  rw [List.drop_left] at hlast
  obtain ⟨content, back, rfl, rfl, hback⟩ :=
    (throughLast?_eq_some_iff (isTag_closing hname)).mp hlast
  refine ⟨?_, openTag name attributes ++ content, back, ?_, ?_, hback⟩
  · unfold openTag
    rw [List.append_assoc, List.append_assoc]
    exact List.prefix_append _ _
  · rw [List.append_assoc]
  · simp only [List.append_assoc]

theorem drop_succ_of_drop {source cs : List Char} {c : Char} {i : Nat}
    (h : source.drop i = c :: cs) : source.drop (i + 1) = cs := by
  rw [← List.drop_drop, h]
  rfl

/-- The place of a block is that of its text. -/
theorem block?_eq {name : String} (hname : '<' ∉ name.toList) {source cs : List Char} {i : Nat}
    (h : source.drop i = cs) :
    block? name cs = (blockPlace? name i cs).map (Place.text source) ∧
      ∀ p ∈ blockPlace? name i cs, BlockAt name source p := by
  induction cs generalizing i with
  | nil => exact ⟨rfl, nofun⟩
  | cons c cs ih =>
    obtain ⟨htext, hplace⟩ := ih (drop_succ_of_drop h)
    rw [block?, blockPlace?]
    cases hhere : blockHere? name (c :: cs) with
    | none => exact ⟨htext, hplace⟩
    | some text =>
      obtain ⟨hopens, content, back, rfl, hcs, hback⟩ := exists_of_blockHere? hname hhere
      rw [← h] at hopens hcs
      constructor
      · have hfound := Place.text_ofText (i := i) ⟨back, hcs.symm⟩
        rw [Option.map_some, Option.some_or, Option.some_or, Option.map_some, hfound]
      · intro p hp
        cases hp
        exact ⟨hopens, content, back, hcs, rfl, hback⟩

/-- A block ends in front of a tag behind its start if and only if none of its closing tags stands
behind that. -/
theorem BlockAt.stop_le_iff {name : String} (hname : '<' ∉ name.toList) {source : List Char}
    {p : Place} (hp : BlockAt name source p) {i : Nat} (hi : ['<'] <+: source.drop i)
    (hlt : p.start < i) : p.stop ≤ i ↔ Text.contains (closing name) (source.drop i) = false := by
  obtain ⟨-, content, back, hsource, hstop, hback⟩ := hp
  rw [Bool.eq_false_iff, ne_eq, Text.contains_iff]
  constructor
  · intro hle hwithin
    obtain ⟨k, rfl⟩ := Nat.exists_eq_add_of_le hle
    have hdrop : source.drop (p.stop + k) = back.drop k := by
      rw [← List.drop_drop, hstop, ← List.drop_drop, hsource, List.drop_left]
    rw [hdrop] at hwithin
    exact hback (hwithin.trans (List.drop_suffix _ _).isInfix)
  · intro hnot
    by_contra hgt
    obtain ⟨k, rfl⟩ := Nat.exists_eq_add_of_le hlt.le
    rw [← List.drop_drop, hsource] at hi hnot
    exact hnot (infix_drop_of_angle (isTag_closing hname) back (by omega) hi)

/-! ## Scripts -/

theorem script?_eq_some {cs : List Char} {s : Script} (h : script? cs = some s) :
    opening "script" <+: cs ∧ s.block <+: cs := by
  obtain ⟨hsound, hblock⟩ := script?_eq_some_iff.mp h
  have hfront : s.openTag <+: s.block := by
    rw [Script.block, List.append_assoc]
    exact List.prefix_append _ _
  exact ⟨hsound.openTag.starts.trans (hfront.trans hblock), hblock⟩

/-- A script stands at a place. -/
structure ScriptAt (source : List Char) (p : Place) : Prop where
  opens : opening "script" <+: source.drop p.start
  ends : p.start < p.stop

/-- The places of scripts are those of their texts, one behind another. -/
theorem scriptsFrom_eq {source cs : List Char} {i : Nat} (skip : Nat) (h : source.drop i = cs) :
    (scriptsFrom skip cs).map Script.block = (scriptPlaces i skip cs).map (Place.text source) ∧
      (scriptPlaces i skip cs).Pairwise (fun p q => p.stop ≤ q.start) ∧
      ∀ p ∈ scriptPlaces i skip cs, ScriptAt source p ∧ i + skip ≤ p.start := by
  induction cs generalizing i skip with
  | nil => simp [scriptsFrom, scriptPlaces]
  | cons c cs ih =>
    have hnext := drop_succ_of_drop h
    cases skip with
    | succ skip =>
      obtain ⟨htext, hapart, hplace⟩ := ih skip hnext
      rw [scriptsFrom, scriptPlaces]
      refine ⟨htext, hapart, fun p hp => ?_⟩
      obtain ⟨hscript, hle⟩ := hplace p hp
      exact ⟨hscript, by omega⟩
    | zero =>
      rw [scriptsFrom, scriptPlaces]
      cases hs : script? (c :: cs) with
      | none =>
        obtain ⟨htext, hapart, hplace⟩ := ih 0 hnext
        refine ⟨htext, hapart, fun p hp => ?_⟩
        obtain ⟨hscript, hle⟩ := hplace p hp
        exact ⟨hscript, by omega⟩
      | some s =>
        obtain ⟨htext, hapart, hplace⟩ := ih (s.block.length - 1) hnext
        obtain ⟨hopens, hblock⟩ := script?_eq_some hs
        have hpos := block_length_pos s
        rw [← h] at hopens hblock
        refine ⟨?_, ?_, ?_⟩
        · simp only [List.map_cons, htext, Place.text_ofText hblock]
        · refine List.pairwise_cons.mpr ⟨fun p hp => ?_, hapart⟩
          have hle := (hplace p hp).2
          simp only [Place.ofText]
          omega
        · rw [List.forall_mem_cons]
          refine ⟨⟨⟨hopens, ?_⟩, ?_⟩, fun p hp => ?_⟩
          · simp only [Place.ofText]
            omega
          · simp only [Place.ofText]
            omega
          · obtain ⟨hscript, hle⟩ := hplace p hp
            exact ⟨hscript, by omega⟩

/-! ## Reaching over -/

/-- No part of a demo begins in front of the end of another one that begins before it. For the
template and the style, which reach to their last closing tags, this says that none of these tags
stands behind the start of the other part. -/
structure Places.Clear (source : List Char) (p : Places) : Prop where
  template : ∀ t ∈ p.template, ∀ q ∈ p.all, t.start < q.start →
    Text.contains (closing "template") (source.drop q.start) = false
  scripts : ∀ s ∈ p.scripts, ∀ q ∈ p.all, s.start < q.start → s.stop ≤ q.start
  style : ∀ t ∈ p.style, ∀ q ∈ p.all, t.start < q.start →
    Text.contains (closing "style") (source.drop q.start) = false

/-- The parts of a demo stand at their places. -/
structure Places.Located (source : List Char) (p : Places) : Prop where
  template : ∀ t ∈ p.template, BlockAt "template" source t
  scripts : ∀ s ∈ p.scripts, ScriptAt source s
  ordered : p.scripts.Pairwise (fun s q => s.stop ≤ q.start)
  style : ∀ t ∈ p.style, BlockAt "style" source t

theorem located_ofSource (source : List Char) : (Places.ofSource source).Located source := by
  obtain ⟨-, hordered, hscripts⟩ := scriptsFrom_eq 0 (List.drop_zero (l := source))
  constructor
  · exact (block?_eq (by decide) List.drop_zero).2
  · exact fun s hs => (hscripts s hs).1
  · exact hordered
  · exact (block?_eq (by decide) List.drop_zero).2

theorem BlockAt.proper {name : String} {source : List Char} {p : Place}
    (h : BlockAt name source p) : p.start < p.stop := by
  obtain ⟨content, back, -, hstop, -⟩ := h.ends
  have hclosing : 0 < (closing name).length := by simp [closing]
  rw [List.length_append] at hstop
  omega

namespace Places

variable {source : List Char} {p : Places}

theorem mem_all {q : Place} : q ∈ p.all ↔ q ∈ p.template ∨ q ∈ p.scripts ∨ q ∈ p.style := by
  unfold Places.all
  simp only [List.mem_append, Option.mem_toList, or_assoc, Option.mem_def]

theorem Located.of_mem (h : p.Located source) {q : Place} (hq : q ∈ p.all) :
    ['<'] <+: source.drop q.start ∧ q.start < q.stop := by
  have hangle : ∀ name, ['<'] <+: opening name := fun name => ⟨name.toList, rfl⟩
  rcases mem_all.mp hq with hq | hq | hq
  · have hblock := h.template q hq
    exact ⟨(hangle _).trans hblock.opens, hblock.proper⟩
  · have hscript := h.scripts q hq
    exact ⟨(hangle _).trans hscript.opens, hscript.ends⟩
  · have hblock := h.style q hq
    exact ⟨(hangle _).trans hblock.opens, hblock.proper⟩

/-- Tags of two names do not begin at the same place. -/
theorem start_ne {a b : Place} {m n : String} (ha : opening m <+: source.drop a.start)
    (hb : opening n <+: source.drop b.start) (hm : ¬ opening m <+: opening n)
    (hn : ¬ opening n <+: opening m) : a.start ≠ b.start := by
  intro heq
  rw [heq] at ha
  rcases List.prefix_or_prefix_of_prefix ha hb with h | h
  · exact hm h
  · exact hn h

theorem Located.starts (h : p.Located source) :
    p.all.Pairwise (fun a b => a.start ≠ b.start) := by
  unfold Places.all
  rw [List.pairwise_append, List.pairwise_append]
  refine ⟨⟨?_, ?_, ?_⟩, ?_, ?_⟩
  · cases p.template <;> simp
  · refine h.ordered.imp_of_mem fun {a b} ha _ hle heq => ?_
    have hproper := (h.scripts a ha).ends
    omega
  · intro a ha b hb
    rw [Option.mem_toList] at ha
    exact start_ne (h.template a ha).opens (h.scripts b hb).opens (by decide) (by decide)
  · cases p.style <;> simp
  · intro a ha b hb
    rw [List.mem_append, Option.mem_toList] at ha
    rw [Option.mem_toList] at hb
    rcases ha with ha | ha
    · exact start_ne (h.template a ha).opens (h.style b hb).opens (by decide) (by decide)
    · exact start_ne (h.scripts a ha).opens (h.style b hb).opens (by decide) (by decide)

/-- Each part ends in front of those that begin behind it. -/
def Ordered (p : Places) : Prop :=
  ∀ a ∈ p.all, ∀ b ∈ p.all, a.start < b.start → a.stop ≤ b.start

theorem Located.apart_iff (h : p.Located source) :
    p.all.Pairwise Place.Apart ↔ p.Ordered := by
  constructor
  · intro hapart a ha b hb hlt
    have hne : a ≠ b := by
      rintro rfl
      exact Nat.lt_irrefl _ hlt
    have hproper := (h.of_mem hb).2
    rcases hapart.forall ha hb hne with hab | hba
    · exact hab
    · omega
  · intro hordered
    refine h.starts.imp_of_mem fun {a b} ha hb hne => ?_
    rcases Nat.lt_or_gt_of_ne hne with hlt | hgt
    · exact Or.inl (hordered a ha b hb hlt)
    · exact Or.inr (hordered b hb a ha hgt)

theorem Located.ordered_iff_clear (h : p.Located source) : p.Ordered ↔ p.Clear source := by
  constructor
  · intro hordered
    constructor
    · intro t ht q hq hlt
      have hle := hordered t (mem_all.mpr (.inl ht)) q hq hlt
      exact ((h.template t ht).stop_le_iff (by decide) (h.of_mem hq).1 hlt).mp hle
    · intro s hs q hq hlt
      exact hordered s (mem_all.mpr (.inr (.inl hs))) q hq hlt
    · intro t ht q hq hlt
      have hle := hordered t (mem_all.mpr (.inr (.inr ht))) q hq hlt
      exact ((h.style t ht).stop_le_iff (by decide) (h.of_mem hq).1 hlt).mp hle
  · intro hclear a ha b hb hlt
    have hangle := (h.of_mem hb).1
    rcases mem_all.mp ha with ha | ha | ha
    · exact ((h.template a ha).stop_le_iff (by decide) hangle hlt).mpr
        (hclear.template a ha b hb hlt)
    · exact hclear.scripts a ha b hb hlt
    · exact ((h.style a ha).stop_le_iff (by decide) hangle hlt).mpr (hclear.style a ha b hb hlt)

/-- Of places that stand apart at most one holds a character. -/
theorem countP_holds_le {places : List Place} (h : places.Pairwise Place.Apart) (i : Nat) :
    places.countP (Place.holds i) ≤ 1 := by
  induction h with
  | nil => simp
  | @cons a rest hfirst _ ih =>
    rw [List.countP_cons]
    by_cases ha : a.holds i = true
    · have hrest : rest.countP (Place.holds i) = 0 := by
        rw [List.countP_eq_zero]
        intro b hb hheld
        simp only [Place.holds, Bool.and_eq_true, decide_eq_true_eq] at ha hheld
        rcases hfirst b hb with hab | hba
        · omega
        · omega
      rw [hrest, ha]
      rfl
    · rw [if_neg ha]
      exact ih

end Places

theorem parts_eq (source : List Char) :
    (Parts.ofSource source).template =
        (Places.ofSource source).template.map (Place.text source) ∧
      (Parts.ofSource source).scripts.map Script.block =
        (Places.ofSource source).scripts.map (Place.text source) ∧
      (Parts.ofSource source).style =
        (Places.ofSource source).style.map (Place.text source) := by
  refine ⟨?_, ?_, ?_⟩
  · exact (block?_eq (by decide) List.drop_zero).1
  · exact (scriptsFrom_eq 0 List.drop_zero).1
  · exact (block?_eq (by decide) List.drop_zero).1

/-! ## The law -/

/-- The parts of a demo are what stands at their places. Its scripts never overlap. All its parts
stand apart if and only if no script holds the start of another part, and no closing tag of the
template or the style stands behind the start of a part that begins behind theirs. Then no character
of the source is emitted twice by the preview, and what the demo without types takes over as it
stands, the template and the style, holds nothing of a script. -/
theorem parts_stand_apart_iff_none_reaches_over_another (demo : String) :
    (Places.ofSource demo.toList).scripts.Pairwise (fun s q => s.stop ≤ q.start) ∧
      ((Places.ofSource demo.toList).all.Pairwise Place.Apart ↔
        (Places.ofSource demo.toList).Clear demo.toList) ∧
      (∀ o written shown payload,
        preview o (Parts.ofSource demo.toList) written shown payload =
          ⟨o.previewComponent, payload,
            ((Places.ofSource demo.toList).template.map
              fun t => retarget (t.text demo.toList)).getD [],
            written, shown,
            (Places.ofSource demo.toList).scripts.map (Place.text demo.toList),
            (Places.ofSource demo.toList).style.map (Place.text demo.toList)⟩) ∧
      (∀ c, vanillaText c demo = String.ofList (Text.joinWith ['\n', '\n']
        (((Places.ofSource demo.toList).template.map (Place.text demo.toList)).toList ++
          (Parts.ofSource demo.toList).scripts.filterMap (Script.vanilla? c) ++
          ((Places.ofSource demo.toList).style.map (Place.text demo.toList)).toList))) ∧
      ((Places.ofSource demo.toList).all.Pairwise Place.Apart →
        (∀ i, (Places.ofSource demo.toList).all.countP (Place.holds i) ≤ 1) ∧
        ∀ s ∈ (Places.ofSource demo.toList).scripts,
          (∀ t ∈ (Places.ofSource demo.toList).template, t.Apart s) ∧
            ∀ t ∈ (Places.ofSource demo.toList).style, s.Apart t) := by
  have hlocated := located_ofSource demo.toList
  obtain ⟨htemplate, hscripts, hstyle⟩ := parts_eq demo.toList
  refine ⟨hlocated.ordered, ?_, ?_, ?_, ?_⟩
  · rw [hlocated.apart_iff, hlocated.ordered_iff_clear]
  · intro o written shown payload
    unfold preview
    rw [htemplate, hscripts, hstyle, Option.map_map]
    rfl
  · intro c
    unfold vanillaText vanillaSource
    rw [← htemplate, ← hstyle]
  · intro hapart
    refine ⟨fun i => Places.countP_holds_le hapart i, fun s hs => ?_⟩
    unfold Places.all at hapart
    rw [List.pairwise_append, List.pairwise_append] at hapart
    obtain ⟨⟨-, -, hfront⟩, -, hback⟩ := hapart
    constructor
    · intro t ht
      exact hfront t (Option.mem_toList.mpr ht) s hs
    · intro t ht
      exact hback s (List.mem_append_right _ hs) t (Option.mem_toList.mpr ht)

/-- A demo whose script writes the closing tag of the template. -/
def reachingDemo : String :=
  "<template>a</template>\n<script>\nconst end: string = '</template>'\n</script>\n"

/-- The template reaches into the script. So the preview emits the start of the script twice, and
it stands in the demo without types, whatever transpiling makes of the script. -/
theorem reachingDemo_emits_its_script_twice :
    ¬ (Places.ofSource reachingDemo.toList).all.Pairwise Place.Apart ∧
      (Places.ofSource reachingDemo.toList).all.countP (Place.holds 33) = 2 ∧
      ∀ c, "<template>a</template>\n<script>\nconst end: string = '</template>".toList <+:
        (vanillaText c reachingDemo).toList := by
  refine ⟨by decide +kernel, by decide +kernel, fun c => ?_⟩
  have htemplate : (Parts.ofSource reachingDemo.toList).template =
      some "<template>a</template>\n<script>\nconst end: string = '</template>".toList := by
    decide +kernel
  have htext : (vanillaText c reachingDemo).toList =
      vanillaSource (Parts.ofSource reachingDemo.toList)
        ((Parts.ofSource reachingDemo.toList).scripts.filterMap (Script.vanilla? c)) :=
    String.toList_ofList
  rw [htext, vanillaSource, htemplate]
  exact Text.prefix_joinWith _ _ _

end DocPages.Demo
