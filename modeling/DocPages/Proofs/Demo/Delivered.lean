-- What a preview is handed. The data of a demo stands between the first two
-- quotes of the component, holds nothing that could end it or break its line,
-- and reads back, through each of its three writings, as what went in.
import DocPages.Proofs.Compile.Order
import DocPages.Proofs.Demo.Payload
import DocPages.Proofs.Json.Fields
import DocPages.Proofs.Json.Printed
import DocPages.Proofs.Json.ReadBack
import DocPages.Proofs.Text.Attribute
import DocPages.Proofs.Text.Base64
import DocPages.Proofs.Text.Escaping
import DocPages.Proofs.Text.Search

namespace DocPages.Demo

/-! ## Looking into a component -/

/-- What stands in front of the value of the data. -/
def dataMark : List Char := "data=\x22".toList

/-- The value of the data: what stands between the first mark of data and the next quote. -/
def dataValue? (component : List Char) : Option (List Char) := do
  let front ← Text.before? dataMark component
  Text.before? ['\x22'] (component.drop (front.length + dataMark.length))

def codeBytes? (key : String) (fields : Fields) : Option (List Nat) := do
  let code ← (fields.get? key).bind Json.string?
  Text.Base64.decode? code.toList

/-- The texts that have been shown, in order. -/
def shownTexts (trace : List Event) : List String :=
  (Traced.questions trace).filterMap fun
    | .render text => some text
    | _ => none

/-! ## What has been generated -/

variable {c : Collaborators} {o : Options.Compiler} {p : Source}

theorem highlight_ok {code : String} {html : List Char}
    (h : (highlight c o code).outcome = .ok html) :
    ∃ shown, (c.render (fence o.demoLanguage code)).outcome = .ok shown ∧
      html = TemplateTokens.breakPairs shown.html.toList := by
  obtain ⟨shown, hshown, h⟩ := Traced.bind_ok h
  cases h
  exact ⟨shown, hshown, TemplateTokens.toList_escape _⟩

/-- A component that has been generated is a preview that shows the markup of the demo in both
forms. -/
theorem generate_shows {text : String} (h : (generate c o p).outcome = .ok text) :
    ∃ written shown, (highlight c o p.demo).outcome = .ok written ∧
      (highlight c o (vanillaText c p.demo)).outcome = .ok shown ∧
      text = String.ofList (preview o (Parts.ofSource p.demo.toList) written shown
        (payloadText (payload (p.payloadSource o (vanillaText c p.demo))))).render := by
  unfold generate at h
  obtain ⟨-, -, h⟩ := Traced.bind_ok h
  obtain ⟨written, hwritten, h⟩ := Traced.bind_ok h
  extract_lets parts next at h
  have hnext : (next ()).outcome = .ok text := by
    split at h
    · obtain ⟨-, -, h⟩ := Traced.bind_ok h
      exact h
    · exact h
  obtain ⟨scripts, hscripts, hrest⟩ := Traced.bind_ok hnext
  have hvanilla := vanillaScripts_outcome c hscripts
  subst hvanilla
  obtain ⟨shown, hshown, hmarker⟩ := Traced.bind_ok hrest
  obtain ⟨-, -, hdone⟩ := Traced.bind_ok hmarker
  cases hdone
  exact ⟨written, shown, hwritten, hshown, rfl⟩

theorem generate_ok {text : String} (h : (generate c o p).outcome = .ok text) :
    ∃ written shown, text = String.ofList (preview o (Parts.ofSource p.demo.toList) written shown
      (payloadText (payload (p.payloadSource o (vanillaText c p.demo))))).render := by
  obtain ⟨written, shown, -, -, htext⟩ := generate_shows h
  exact ⟨written, shown, htext⟩

/-- For a component that has been generated, two texts have been shown: the fence of the demo, and
that of the demo without types. -/
theorem shownTexts_generate {text : String} (h : (generate c o p).outcome = .ok text) :
    shownTexts (generate c o p).trace =
      [fence o.demoLanguage p.demo, fence o.demoLanguage (vanillaText c p.demo)] := by
  obtain ⟨hasked, hfailed⟩ := follows_generate c o p
  rw [h] at hfailed
  have hscripts : ∀ scripts : List Script,
      ((scripts.map Script.question).filterMap fun
        | .render text => some text
        | _ => none) = [] := by
    intro scripts
    rw [List.filterMap_map, List.filterMap_eq_nil_iff]
    intro s _
    rfl
  unfold shownTexts
  rw [hasked, throughFailure_of_none hfailed.symm]
  unfold plan
  rw [List.filterMap_append, List.filterMap_append, hscripts]
  rfl

/-! ## The place of the data -/

/-- What stands behind the data in a preview. -/
def Preview.behind (v : Preview) : List Char :=
  '>' :: '\n' :: (v.lines.drop 2).flatMap (· ++ ['\n'])

theorem render_eq (v : Preview) :
    v.render = "<template>\n<".toList ++ v.component.toList ++ [' '] ++
      ("data=".toList ++ '\x22' :: (v.payload ++ '\x22' :: v.behind)) := by
  unfold Preview.render Preview.behind Preview.lines
  simp

/-- In a preview whose component is named without a quote the data is delimited by quotes, if it
holds none itself. -/
theorem dataValue?_render {v : Preview} (hname : '\x22' ∉ v.component.toList)
    (hpayload : '\x22' ∉ v.payload) : dataValue? v.render = some v.payload := by
  have hfront : '\x22' ∉ "<template>\n<".toList ++ v.component.toList ++ [' '] := by
    simp only [List.mem_append, not_or]
    exact ⟨⟨by decide, hname⟩, by decide⟩
  have hmark : "data=".toList ++ ['\x22'] = dataMark := by decide
  have hfound := Text.before?_of_not_mem hfront "data=".toList (by decide)
    (v.payload ++ '\x22' :: v.behind)
  rw [hmark] at hfound
  have hvalue := Text.before?_of_not_mem hpayload [] List.not_mem_nil v.behind
  have hrest : v.render.drop
      (("<template>\n<".toList ++ v.component.toList ++ [' ']).length + dataMark.length) =
        v.payload ++ '\x22' :: v.behind := by
    have hsplit : "data=".toList ++ '\x22' :: (v.payload ++ '\x22' :: v.behind) =
        "data=".toList ++ ['\x22'] ++ (v.payload ++ '\x22' :: v.behind) := List.append_cons ..
    rw [render_eq, ← hmark, ← List.drop_drop, List.drop_left, hsplit, List.drop_left]
  unfold dataValue?
  rw [← render_eq] at hfound
  rw [hfound, Option.bind_eq_bind, Option.bind_some, hrest]
  exact hvalue

/-! ## The data -/

theorem codeBytes?_payload (s : PayloadSource) :
    codeBytes? "originalCode" (payload s) = some (Text.Base64.bytesOf s.demo) ∧
      codeBytes? "vanillaCode" (payload s) = some (Text.Base64.bytesOf s.vanilla) := by
  have hread : ∀ text : String, ((some (packed text)).bind Json.string?).bind
      (fun code => Text.Base64.decode? code.toList) = some (Text.Base64.bytesOf text) := by
    intro text
    show Text.Base64.decode? (String.ofList (Text.Base64.ofChars text.toList)).toList = _
    rw [String.toList_ofList]
    exact Text.Base64.decode?_ofChars text
  constructor
  · unfold codeBytes? payload
    rw [Fields.get?_insert_ne (by decide), Fields.get?_insert_self]
    exact hread s.demo
  · unfold codeBytes? payload
    rw [Fields.get?_insert_self]
    exact hread s.vanilla

theorem sound_insert {fields : Fields} (h : ∀ f ∈ fields, f.2.Sound) (key : String) {value : Json}
    (hvalue : value.Sound) :
    ∀ f ∈ fields.insert key value, f.2.Sound := by
  intro f hf
  rcases Fields.mem_insert hf with rfl | hf
  · exact hvalue
  · exact h f hf

theorem sound_captions (headers : List Header) (locales : List String) :
    ∀ f ∈ captions headers locales, f.2.Sound := by
  induction locales using List.reverseRecOn with
  | nil => exact List.forall_mem_nil _
  | append_singleton locales locale ih =>
    rw [captions_concat]
    split
    · exact sound_insert ih _ (.string _)
    · exact ih

theorem sound_overlay {fields upper : Fields} (h : ∀ f ∈ fields, f.2.Sound)
    (hupper : ∀ f ∈ upper, f.2.Sound) : ∀ f ∈ overlay fields upper, f.2.Sound := by
  induction upper using List.reverseRecOn with
  | nil => exact h
  | append_singleton upper f ih =>
    obtain ⟨key, value⟩ := f
    rw [List.forall_mem_append, List.forall_mem_singleton] at hupper
    rw [overlay_concat]
    exact sound_insert (ih hupper.1) key hupper.2

/-- The page puts only strings down, so all numbers in its data are those of its front matter. -/
theorem sound_payload {s : PayloadSource} (h : ∀ f ∈ s.metadata, f.2.Sound) :
    (Json.object (payload s)).Sound := by
  have hpage := sound_insert (sound_captions s.headers s.captionLocales) "html"
    (.string ((htmlBefore? s.marker s.html).getD s.html))
  have hpath := sound_insert (sound_overlay hpage h) "relativePath" (.string s.relativePath)
  exact .object (sound_insert (sound_insert hpath _ (.string _)) _ (.string _))

theorem not_mem_payloadText {x : Char} (hx : x.toNat < 0x20) (fields : Fields) :
    x ∉ payloadText fields := by
  have hall : Text.referenceChars.all (fun y => 0x20 ≤ y.toNat) = true := by decide
  have href : ∀ y ∈ Text.referenceChars, 0x20 ≤ y.toNat := by simpa using hall
  refine Text.not_mem_attributeText_of (fun h => ?_) fun h => ?_
  · exact absurd (href x h) (Nat.not_le.mpr hx)
  · exact absurd (Json.printed_chars (.object fields) x h) (Nat.not_le.mpr hx)

/-! ## The law -/

/-- A component that has been generated carries the data of its demo as the value of one attribute,
which holds no quote, no angle and no line break. Its references read back as the compact text of
the data, that text as the data, if the numbers of the front matter can be held, and the code in the
data as the bytes of the demo and of the demo without types, the one whose fence has been shown
second. -/
theorem the_data_of_a_demo_reads_back (c : Collaborators) (o : Options.Compiler) (p : Source)
    (text : String) (hname : '\x22' ∉ o.previewComponent.toList)
    (h : (generate c o p).outcome = .ok text) :
    ∃ value fields vanilla, dataValue? text.toList = some value ∧
      fields = payload (p.payloadSource o vanilla) ∧ value = payloadText fields ∧
      (∀ x ∈ ['\x22', '\x27', '<', '>', '\r', '\n'], x ∉ value) ∧
      Text.attributeValue value = (Json.object fields).chars ∧
      ((∀ f ∈ p.metadata, f.2.Sound) →
        Json.read? (String.ofList (Text.attributeValue value)) = some (.object fields)) ∧
      codeBytes? "originalCode" fields = some (Text.Base64.bytesOf p.demo) ∧
      codeBytes? "vanillaCode" fields = some (Text.Base64.bytesOf vanilla) ∧
      shownTexts (generate c o p).trace =
        [fence o.demoLanguage p.demo, fence o.demoLanguage vanilla] := by
  obtain ⟨written, shown, rfl⟩ := generate_ok h
  obtain ⟨horiginal, hvanilla⟩ := codeBytes?_payload (p.payloadSource o (vanillaText c p.demo))
  refine ⟨_, _, vanillaText c p.demo, ?_, rfl, rfl, ?_, ?_, fun hsound => ?_, horiginal, hvanilla,
    shownTexts_generate h⟩
  · rw [String.toList_ofList]
    exact dataValue?_render hname (Text.not_mem_attributeText (by decide) _)
  · intro x hx
    simp only [List.mem_cons, List.not_mem_nil, or_false] at hx
    rcases hx with rfl | rfl | rfl | rfl | rfl | rfl
    · exact Text.not_mem_attributeText (by decide) _
    · exact Text.not_mem_attributeText (by decide) _
    · exact Text.not_mem_attributeText (by decide) _
    · exact Text.not_mem_attributeText (by decide) _
    · exact not_mem_payloadText (by decide) _
    · exact not_mem_payloadText (by decide) _
  · exact Text.attributeValue_attributeText _
  · rw [payloadText, Text.attributeValue_attributeText]
    exact Json.read?_compact (sound_payload hsound)

/-- A renderer that shows every text as itself. -/
def plainCollaborators : Collaborators where
  extract source := .ok ⟨source, []⟩
  render text := ⟨[], .ok ⟨text, [], none⟩⟩
  modified _ := .ok 0
  transpile script := .ok script

/-- A demo with a typed script, on a page whose title holds what ends an attribute and a line. -/
def quotedDemo : Source :=
  { demo := "<script lang=\x22ts\x22>let é = 'ü'</script>\n"
    html := "<p>a & b</p>\n"
    headers := []
    metadata := [("title", .string "\x22a\x22\n'b' <c>")]
    relativePath := "demo.md" }

/-- The data of a demo with quotes, angles and line breaks is one value, and reads back. -/
theorem quotedDemo_reads_back :
    '\x22' ∉ Options.Compiler.standard.previewComponent.toList ∧
      ∃ text value fields vanilla, (generate plainCollaborators .standard quotedDemo).outcome =
          .ok text ∧
        dataValue? text.toList = some value ∧
        (∀ x ∈ ['\x22', '\x27', '<', '>', '\r', '\n'], x ∉ value) ∧
        Text.attributeValue value = (Json.object fields).chars ∧
        Json.read? (String.ofList (Text.attributeValue value)) = some (.object fields) ∧
        codeBytes? "originalCode" fields = some (Text.Base64.bytesOf quotedDemo.demo) ∧
        codeBytes? "vanillaCode" fields = some (Text.Base64.bytesOf vanilla) := by
  have hname : '\x22' ∉ Options.Compiler.standard.previewComponent.toList := by decide
  have hdone : (generate plainCollaborators .standard quotedDemo).outcome.isOk = true := by
    decide +kernel
  obtain ⟨text, htext⟩ :
      ∃ text, (generate plainCollaborators .standard quotedDemo).outcome = .ok text := by
    cases hcase : (generate plainCollaborators .standard quotedDemo).outcome with
    | ok text => exact ⟨text, rfl⟩
    | error e => rw [hcase] at hdone; cases hdone
  obtain ⟨value, fields, vanilla, hvalue, -, -, hclean, hread, hdata, horiginal, hvanilla, -⟩ :=
    the_data_of_a_demo_reads_back plainCollaborators .standard quotedDemo text hname htext
  have hsound : ∀ f ∈ quotedDemo.metadata, f.2.Sound := List.forall_mem_singleton.mpr (.string _)
  exact ⟨hname, text, value, fields, vanilla, htext, hvalue, hclean, hread, hdata hsound,
    horiginal, hvanilla⟩

end DocPages.Demo
