-- A demo written down element by element: at most one template, scripts, and at
-- most one style. If no element holds a tag of the other kinds, the demo splits
-- into the elements that it was written from.
import DocPages.Proofs.Demo.Scripts
import DocPages.Proofs.Text.Trim
import Mathlib.Data.Bool.AllAny

namespace DocPages.Demo

/-! ## Texts without the tags of a kind -/

/-- What the tags of a kind begin with. -/
def tagStarts (name : String) : List (List Char) :=
  [opening name, ['<', '/'] ++ name.toList]

/-- No tag of a kind begins in the text. -/
def Free (name : String) (cs : List Char) : Prop := ∀ tag ∈ tagStarts name, ¬ tag <:+: cs

/-- The kinds of elements. -/
def kinds : List String := ["template", "script", "style"]

theorem tagStarts_seams : ∀ name ∈ kinds, ∀ tag ∈ tagStarts name,
    (∀ c ∈ ['>', '\n'], c ∉ tag) ∧ ∀ c ∈ ['<', '\n'], c ∉ tag.tail := by
  have hseams : ∀ name ∈ kinds, ∀ tag ∈ tagStarts name,
      (['>', '\n'].all fun c => c ∉ tag) ∧ ['<', '\n'].all fun c => c ∉ tag.tail := by
    decide +kernel
  simpa only [List.all_iff_forall_prop] using hseams

/-- The tags of one kind are no tags of another one. -/
theorem tagStarts_unlike : ∀ m ∈ kinds, ∀ n ∈ kinds, m ≠ n → ∀ tag ∈ tagStarts m,
    ¬ tag <+: opening n ∧ ¬ opening n <+: tag ∧ ¬ tag <:+: closing n := by decide +kernel

theorem angle_mem_tagStart {name : String} : ∀ tag ∈ tagStarts name, '<' ∈ tag := by
  simp [tagStarts, opening]

theorem free_of_not_mem {name : String} {cs : List Char} (h : '<' ∉ cs) : Free name cs :=
  fun tag htag hwithin => h (hwithin.subset (angle_mem_tagStart tag htag))

theorem Free.within {name : String} {a b : List Char} (h : Free name b) (hab : a <:+: b) :
    Free name a :=
  fun tag htag ha => h tag htag (ha.trans hab)

theorem Free.opening {name : String} {cs : List Char} (h : Free name cs) :
    ¬ opening name <:+: cs := h _ List.mem_cons_self

theorem Free.closing {name : String} {cs : List Char} (h : Free name cs) :
    ¬ closing name <:+: cs := by
  intro hclosing
  have hstart : ['<', '/'] ++ name.toList <+: Demo.closing name := List.prefix_append _ _
  exact h _ (by simp [tagStarts]) (hstart.isInfix.trans hclosing)

/-- Where two texts meet, no tag runs from one into the other. -/
def Seam (a b : List Char) : Prop :=
  (∀ c ∈ a.getLast?, c ∈ ['>', '\n']) ∨ ∀ c ∈ b.head?, c ∈ ['<', '\n']

theorem Seam.of_tag {name : String} (hname : name ∈ kinds) {a b tag : List Char}
    (h : Seam a b) (htag : tag ∈ tagStarts name) :
    (∀ c ∈ a.getLast?, c ∉ tag) ∨ ∀ c ∈ b.head?, c ∉ tag.tail := by
  obtain ⟨hlast, hhead⟩ := tagStarts_seams name hname tag htag
  rcases h with h | h
  · exact Or.inl fun c hc => hlast c (h c hc)
  · exact Or.inr fun c hc => hhead c (h c hc)

theorem Free.append {name : String} (hname : name ∈ kinds) {a b : List Char} (ha : Free name a)
    (hb : Free name b) (hseam : Seam a b) : Free name (a ++ b) :=
  fun tag htag => Text.not_infix_append (ha tag htag) (hb tag htag) (hseam.of_tag hname htag)

/-! ## Passing over a text -/

theorem blockHere?_eq_none {name : String} {cs : List Char} (h : ¬ opening name <+: cs) :
    blockHere? name cs = none := by
  unfold blockHere?
  rw [openTag?_eq_none h]
  rfl

theorem script?_eq_none {cs : List Char} (h : ¬ opening "script" <+: cs) :
    script? cs = none := by
  unfold script?
  rw [openTag?_eq_none h]
  rfl

theorem block?_pass {name : String} {q t : List Char}
    (h : ∀ i < q.length, ¬ opening name <+: (q ++ t).drop i) :
    block? name (q ++ t) = block? name t := by
  induction q with
  | nil => rfl
  | cons c q ih =>
    have hfirst : ¬ opening name <+: c :: (q ++ t) := h 0 (by simp)
    have hrest : ∀ i < q.length, ¬ opening name <+: (q ++ t).drop i := by
      intro i hi
      exact h (i + 1) (by simpa using hi)
    rw [List.cons_append, block?, blockHere?_eq_none hfirst, Option.none_or, ih hrest]

theorem scriptsFrom_pass {q t : List Char}
    (h : ∀ i < q.length, ¬ opening "script" <+: (q ++ t).drop i) :
    scriptsFrom 0 (q ++ t) = scriptsFrom 0 t :=
  scriptsFrom_gap fun i hi => script?_eq_none (h i hi)

/-! ## Elements -/

/-- An element: what stands in its opening tag behind the name, and what stands between the tags. -/
structure Element where
  attributes : List Char
  content : List Char

namespace Element

/-- The text of an element of a kind. -/
def text (name : String) (e : Element) : List Char :=
  openTag name e.attributes ++ e.content ++ closing name

def script (e : Element) : Script := ⟨openTag "script" e.attributes, e.content⟩

/-- The attributes of the element are sound, and it holds no tags of the given kinds. -/
structure Tidy (names : List String) (e : Element) : Prop where
  attributes : IsAttributes e.attributes
  angle : '<' ∉ e.attributes
  content : ∀ name ∈ names, Free name e.content

variable {e : Element} {names : List String}

theorem script_block (e : Element) : e.script.block = e.text "script" := rfl

theorem free_openTag {m n : String} (hm : m ∈ kinds) (hn : n ∈ kinds) (hne : m ≠ n)
    {attributes : List Char} (h : '<' ∉ attributes) : Free m (openTag n attributes) := by
  intro tag htag hwithin
  obtain ⟨hfront, hback, -⟩ := tagStarts_unlike m hm n hn hne tag htag
  have hangle := angle_mem_tagStart tag htag
  have hrest : '<' ∉ n.toList ++ attributes ++ ['>'] := by
    have hname : ∀ n ∈ kinds, '<' ∉ n.toList := by decide
    simp [h, hname n hn]
  have hcons : openTag n attributes = '<' :: (n.toList ++ attributes ++ ['>']) := rfl
  rw [hcons, List.infix_cons_iff] at hwithin
  rcases hwithin with hstart | hwithin
  · have hopen : opening n <+: '<' :: (n.toList ++ attributes ++ ['>']) := by
      rw [← hcons, openTag, List.append_assoc]
      exact List.prefix_append _ _
    rcases List.prefix_or_prefix_of_prefix hstart hopen with h | h
    · exact hfront h
    · exact hback h
  · exact hrest (hwithin.subset hangle)

/-- An element of another kind holds no tag of a kind that its content does not hold. -/
theorem Tidy.free (h : e.Tidy names) {m n : String} (hm : m ∈ kinds) (hn : n ∈ kinds)
    (hne : m ≠ n) (hmem : m ∈ names) : Free m (e.text n) := by
  have hclosing : Free m (closing n) :=
    fun tag htag => (tagStarts_unlike m hm n hn hne tag htag).2.2
  have hfront : Free m (openTag n e.attributes ++ e.content) :=
    (free_openTag hm hn hne h.angle).append hm (h.content m hmem) (Or.inl (by simp [openTag]))
  exact hfront.append hm hclosing (Or.inr (by simp [closing]))

theorem block?_text (h : e.Tidy names) {name : String} (hname : '<' ∉ name.toList)
    {back : List Char} (hback : ¬ closing name <:+: back) :
    block? name (e.text name ++ back) = some (e.text name) := by
  have hlast : throughLast? (closing name) (e.content ++ closing name ++ back) =
      some (e.content ++ closing name) :=
    (throughLast?_eq_some_iff (isTag_closing hname)).mpr ⟨e.content, back, rfl, rfl, hback⟩
  have hhere : blockHere? name (e.text name ++ back) = some (e.text name) := by
    unfold blockHere? text
    rw [List.append_assoc, List.append_assoc, openTag?_openTag h.attributes, Option.bind_eq_bind,
      Option.bind_some, List.drop_left, ← List.append_assoc, hlast, List.append_assoc]
    rfl
  have hcons : e.text name ++ back = '<' :: (e.text name ++ back).tail := rfl
  rw [hcons, block?, ← hcons, hhere]
  rfl

theorem Tidy.sound (h : e.Tidy names) (hmem : "script" ∈ names) : e.script.Sound :=
  ⟨⟨e.attributes, h.attributes, rfl⟩, (h.content "script" hmem).closing⟩

theorem scriptsFrom_text (h : e.Tidy names) (hmem : "script" ∈ names) (back : List Char) :
    scriptsFrom 0 (e.text "script" ++ back) = e.script :: scriptsFrom 0 back :=
  scriptsFrom_block (h.sound hmem) back

end Element

/-! ## Demos from elements -/

/-- The elements of a demo. -/
structure Assembly where
  template : Option Element
  scripts : List Element
  style : Option Element

namespace Assembly

/-- The texts of the elements, in order. -/
def texts (a : Assembly) : List (List Char) :=
  (a.template.map (Element.text "template")).toList ++ a.scripts.map (Element.text "script") ++
    (a.style.map (Element.text "style")).toList

/-- The parts of a demo that the elements make. -/
def parts (a : Assembly) : Parts :=
  ⟨a.template.map (Element.text "template"), a.scripts.map Element.script,
    a.style.map (Element.text "style")⟩

/-- No element holds a tag of the kind of another one, and scripts and the style hold no tag of
their own kind. -/
structure Tidy (a : Assembly) : Prop where
  template : ∀ e ∈ a.template, e.Tidy ["script", "style"]
  scripts : ∀ e ∈ a.scripts, e.Tidy kinds
  style : ∀ e ∈ a.style, e.Tidy kinds

end Assembly

/-- Texts with a gap in front of each. -/
def spaced (gap : List Char) (texts : List (List Char)) : List Char := texts.flatMap (gap ++ ·)

theorem spaced_append (gap : List Char) (front back : List (List Char)) :
    spaced gap (front ++ back) = spaced gap front ++ spaced gap back := List.flatMap_append

theorem spaced_eq (gap text : List Char) (texts : List (List Char)) :
    gap ++ Text.joinWith gap (text :: texts) = spaced gap (text :: texts) := by
  induction texts generalizing text with
  | nil => simp [spaced, Text.joinWith]
  | cons u texts ih =>
    have hjoin : Text.joinWith gap (text :: u :: texts) =
        text ++ gap ++ Text.joinWith gap (u :: texts) := rfl
    have hrest := ih u
    rw [hjoin, List.append_assoc, hrest]
    simp [spaced]

/-- A text that begins with an angle, ends with one, and holds no tag of a kind. -/
structure Closed (name : String) (text : List Char) : Prop where
  free : Free name text
  head : text.head? = some '<'
  last : text.getLast? = some '>'

theorem Element.Tidy.closed {e : Element} {names : List String} (h : e.Tidy names) {m n : String}
    (hm : m ∈ kinds) (hn : n ∈ kinds) (hne : m ≠ n) (hmem : m ∈ names) :
    Closed m (e.text n) := by
  have hlast : e.text n = openTag n e.attributes ++ e.content ++ ['<', '/'] ++ n.toList ++ ['>'] := by
    simp only [Element.text, closing, List.append_assoc]
  exact ⟨h.free hm hn hne hmem, rfl, by rw [hlast, List.getLast?_concat]⟩

section Spaced

variable {gap : List Char} {texts : List (List Char)} {name : String}

theorem last_spaced (h : ∀ t ∈ texts, Closed name t) :
    ∀ c ∈ (spaced gap texts).getLast?, c ∈ ['>', '\n'] := by
  induction texts with
  | nil => simp [spaced]
  | cons t texts ih =>
    rw [List.forall_mem_cons] at h
    have hcons : spaced gap (t :: texts) = gap ++ t ++ spaced gap texts := rfl
    intro c hc
    rw [hcons, List.getLast?_append, Option.mem_def, Option.or_eq_some_iff] at hc
    rcases hc with hc | ⟨-, hc⟩
    · exact ih h.2 c hc
    · rw [List.getLast?_append, h.1.last] at hc
      cases hc
      exact List.mem_cons_self

theorem free_spaced (hname : name ∈ kinds) (hgap : '<' ∉ gap)
    (h : ∀ t ∈ texts, Closed name t) : Free name (spaced gap texts) := by
  induction texts with
  | nil => exact free_of_not_mem (by simp [spaced])
  | cons t texts ih =>
    rw [List.forall_mem_cons] at h
    have hfront : Free name (gap ++ t) :=
      (free_of_not_mem hgap).append hname h.1.free (Or.inr (by simp [h.1.head]))
    exact hfront.append hname (ih h.2) (Or.inl (by simp [h.1.last]))

/-- Texts that hold no tag of a kind are passed over. -/
theorem not_opening_spaced (hname : name ∈ kinds) (hgap : '<' ∉ gap)
    (h : ∀ t ∈ texts, Closed name t) (back : List Char) :
    ∀ i < (spaced gap texts).length, ¬ opening name <+: (spaced gap texts ++ back).drop i := by
  intro i hi
  have hseam : Seam (spaced gap texts) back := Or.inl (last_spaced h)
  exact not_prefix_drop (free_spaced hname hgap h).opening
    (hseam.of_tag hname List.mem_cons_self) hi

theorem not_opening_gap (hgap : '<' ∉ gap) (back : List Char) :
    ∀ i < gap.length, ¬ opening name <+: (gap ++ back).drop i := by
  intro i hi h
  rw [List.drop_append_of_le_length hi.le, List.drop_eq_getElem_cons hi, List.cons_append] at h
  have hangle := (List.cons_prefix_cons.mp h).1
  exact hgap (hangle ▸ List.getElem_mem hi)

theorem block?_spaced (hname : name ∈ kinds) (hgap : '<' ∉ gap) {names : List String}
    {element : Option Element} (h : ∀ e ∈ element, e.Tidy names)
    (hback : ∀ t ∈ texts, Closed name t) :
    block? name (spaced gap ((element.map (Element.text name)).toList ++ texts)) =
      element.map (Element.text name) := by
  have hangle : ∀ n ∈ kinds, '<' ∉ n.toList := by decide
  cases element with
  | none =>
    have hpass := block?_pass (not_opening_spaced hname hgap hback [])
    rw [List.append_nil] at hpass
    exact hpass
  | some e =>
    have hspaced : spaced gap (e.text name :: texts) = gap ++ (e.text name ++ spaced gap texts) :=
      List.append_assoc ..
    have hclosing := (free_spaced hname hgap hback).closing
    rw [Option.map_some, Option.toList_some, List.singleton_append, hspaced,
      block?_pass (not_opening_gap hgap _)]
    exact Element.block?_text (h e rfl) (hangle name hname) hclosing

theorem scriptsFrom_spaced (hgap : '<' ∉ gap) {elements : List Element}
    (h : ∀ e ∈ elements, e.Tidy kinds) (hback : ∀ t ∈ texts, Closed "script" t) :
    scriptsFrom 0 (spaced gap (elements.map (Element.text "script") ++ texts)) =
      elements.map Element.script := by
  induction elements with
  | nil =>
    have hpass := scriptsFrom_pass (not_opening_spaced (by decide) hgap hback [])
    rw [List.append_nil] at hpass
    exact hpass
  | cons e elements ih =>
    rw [List.forall_mem_cons] at h
    have hspaced : spaced gap
        (e.text "script" :: (elements.map (Element.text "script") ++ texts)) =
          gap ++ (e.text "script" ++
            spaced gap (elements.map (Element.text "script") ++ texts)) := List.append_assoc ..
    rw [List.map_cons, List.cons_append, hspaced, scriptsFrom_pass (not_opening_gap hgap _),
      Element.scriptsFrom_text h.1 (by decide), ih h.2]
    rfl

end Spaced

/-! ## Splitting -/

theorem ofSource_joinWith {gap : List Char} (hgap : '<' ∉ gap) (texts : List (List Char)) :
    Parts.ofSource (Text.joinWith gap texts) = Parts.ofSource (spaced gap texts) := by
  cases texts with
  | nil => rfl
  | cons t texts =>
    unfold Parts.ofSource
    rw [← spaced_eq, block?_pass (not_opening_gap hgap _), block?_pass (not_opening_gap hgap _),
      scriptsFrom_pass (not_opening_gap hgap _)]

/-- A tidy demo splits into the elements that it was written from. -/
theorem Assembly.Tidy.ofSource {a : Assembly} (h : a.Tidy) {gap : List Char} (hgap : '<' ∉ gap) :
    Parts.ofSource (Text.joinWith gap a.texts) = a.parts := by
  have hscripts : ∀ m ∈ kinds, m ≠ "script" →
      ∀ t ∈ a.scripts.map (Element.text "script"), Closed m t := by
    intro m hm hne t ht
    obtain ⟨e, he, rfl⟩ := List.mem_map.mp ht
    exact (h.scripts e he).closed hm (by decide) hne hm
  have hstyle : ∀ m ∈ kinds, m ≠ "style" →
      ∀ t ∈ (a.style.map (Element.text "style")).toList, Closed m t := by
    intro m hm hne t ht
    obtain ⟨e, he, rfl⟩ := Option.map_eq_some_iff.mp (Option.mem_toList.mp ht)
    exact (h.style e he).closed hm (by decide) hne hm
  have htemplate : ∀ m ∈ ["script", "style"],
      ∀ t ∈ (a.template.map (Element.text "template")).toList, Closed m t := by
    intro m hm t ht
    obtain ⟨e, he, rfl⟩ := Option.map_eq_some_iff.mp (Option.mem_toList.mp ht)
    have hkind : m ∈ kinds ∧ m ≠ "template" := by
      revert m
      decide
    exact (h.template e he).closed hkind.1 (by decide) hkind.2 hm
  rw [ofSource_joinWith hgap]
  unfold Assembly.texts Assembly.parts Parts.ofSource
  congr 1
  · rw [List.append_assoc]
    refine block?_spaced (by decide) hgap h.template fun t ht => ?_
    rcases List.mem_append.mp ht with ht | ht
    · exact hscripts "template" (by decide) (by decide) t ht
    · exact hstyle "template" (by decide) (by decide) t ht
  · rw [List.append_assoc, spaced_append,
      scriptsFrom_pass (not_opening_spaced (by decide) hgap (htemplate "script" (by decide)) _)]
    exact scriptsFrom_spaced hgap h.scripts (hstyle "script" (by decide) (by decide))
  · have hfront : ∀ t ∈ (a.template.map (Element.text "template")).toList ++
        a.scripts.map (Element.text "script"), Closed "style" t := by
      intro t ht
      rcases List.mem_append.mp ht with ht | ht
      · exact htemplate "style" (by decide) t ht
      · exact hscripts "style" (by decide) (by decide) t ht
    rw [spaced_append, block?_pass (not_opening_spaced (by decide) hgap hfront _)]
    have hlast := block?_spaced (by decide : "style" ∈ kinds) hgap h.style (List.forall_mem_nil _)
    rwa [List.append_nil] at hlast

/-! ## The law -/

theorem openTag_injective (name : String) : Function.Injective (openTag name) := by
  intro a b h
  exact List.append_cancel_left (List.append_cancel_right h)

theorem Element.script_injective : Function.Injective Element.script := by
  intro e f h
  obtain ⟨htag, hcontent⟩ := Script.mk.inj h
  have hattributes := openTag_injective "script" htag
  cases e
  cases f
  exact congrArg₂ Element.mk hattributes hcontent

/-- An element is read off its text: its opening tag first, and then what is left of it. -/
theorem Element.text_inj {name : String} {e f : Element} (he : IsAttributes e.attributes)
    (hf : IsAttributes f.attributes) (h : e.text name = f.text name) : e = f := by
  have htag : some (openTag name e.attributes) = some (openTag name f.attributes) := by
    rw [← openTag?_openTag he (e.content ++ closing name),
      ← openTag?_openTag hf (f.content ++ closing name), ← List.append_assoc, ← List.append_assoc]
    exact congrArg (openTag? name) h
  have hattributes := openTag_injective name (Option.some.inj htag)
  unfold Element.text at h
  rw [hattributes] at h
  have hcontent := List.append_cancel_left (List.append_cancel_right h)
  cases e
  cases f
  exact congrArg₂ Element.mk hattributes hcontent

theorem Element.map_text_inj {name : String} {s t : Option Element}
    (hs : ∀ e ∈ s, IsAttributes e.attributes) (ht : ∀ e ∈ t, IsAttributes e.attributes)
    (h : s.map (Element.text name) = t.map (Element.text name)) : s = t := by
  cases s with
  | none => exact (Option.map_eq_none_iff.mp h.symm).symm
  | some e =>
    obtain ⟨f, rfl, htext⟩ := Option.map_eq_some_iff.mp h.symm
    exact congrArg some (Element.text_inj (hs e rfl) (ht f rfl) htext.symm)

/-- Tidy demos with the same parts are the same. -/
theorem Assembly.Tidy.parts_inj {a b : Assembly} (ha : a.Tidy) (hb : b.Tidy)
    (h : a.parts = b.parts) : a = b := by
  obtain ⟨htemplate, hscripts, hstyle⟩ := Parts.mk.inj h
  have ht := Element.map_text_inj (fun e he => (ha.template e he).attributes)
    (fun e he => (hb.template e he).attributes) htemplate
  have hs := List.map_injective_iff.mpr Element.script_injective hscripts
  have hst := Element.map_text_inj (fun e he => (ha.style e he).attributes)
    (fun e he => (hb.style e he).attributes) hstyle
  cases a
  cases b
  cases ht
  cases hs
  cases hst
  rfl

/-- The elements of a demo, joined by line feeds, are split into the same elements again: the same
template, the same scripts with their opening tags and bodies, and the same style, and a part that is
absent stays so. So no two demos are joined to the same source. -/
theorem joined_elements_are_split_again (a : Assembly) (h : a.Tidy) :
    Parts.ofSource (Text.joinWith ['\n'] a.texts) =
        ⟨a.template.map (Element.text "template"),
          a.scripts.map fun e => ⟨openTag "script" e.attributes, e.content⟩,
          a.style.map (Element.text "style")⟩ ∧
      (Parts.ofSource (Text.joinWith ['\n'] a.texts)).scripts.map Script.block =
        a.scripts.map (Element.text "script") ∧
      ∀ b : Assembly, b.Tidy →
        Text.joinWith ['\n'] b.texts = Text.joinWith ['\n'] a.texts → b = a := by
  have hsplit := h.ofSource (by decide : '<' ∉ ['\n'])
  refine ⟨hsplit, ?_, fun b hb hjoin => ?_⟩
  · rw [hsplit]
    exact List.map_map.trans (List.map_congr_left fun e _ => e.script_block)
  · have hother := hb.ofSource (by decide : '<' ∉ ['\n'])
    rw [hjoin, hsplit] at hother
    exact hb.parts_inj h hother.symm

/-- A demo with a template in its template, an empty script in front of another one, and no style. -/
def nestedDemo : Assembly where
  template := some ⟨" v-if=\x22a\x22".toList, "<template #b>c</template>\n</template>d".toList⟩
  scripts := [⟨[], []⟩, ⟨"\n setup".toList, "let a = 1 < 2".toList⟩]
  style := none

/-- The template reaches to the last of its closing tags, and each script to its own one. -/
theorem nestedDemo_is_split_again :
    nestedDemo.Tidy ∧
      Parts.ofSource (Text.joinWith ['\n'] nestedDemo.texts) =
        ⟨some "<template v-if=\x22a\x22><template #b>c</template>\n</template>d</template>".toList,
          [⟨"<script>".toList, []⟩, ⟨"<script\n setup>".toList, "let a = 1 < 2".toList⟩], none⟩ := by
  have htidy : nestedDemo.Tidy := by
    constructor
    · rintro e ⟨⟩
      exact ⟨by decide, by decide, by unfold Free; decide +kernel⟩
    · intro e he
      rcases List.mem_pair.mp he with rfl | rfl
      · exact ⟨by decide, by decide, by unfold Free; decide +kernel⟩
      · exact ⟨by decide, by decide, by unfold Free; decide +kernel⟩
    · exact nofun
  refine ⟨htidy, (joined_elements_are_split_again nestedDemo htidy).1.trans ?_⟩
  decide +kernel

end DocPages.Demo
