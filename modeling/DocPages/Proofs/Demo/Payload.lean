-- What the data of a preview holds. Its fields are put down in four turns, and
-- each turn writes over the ones before it, so a key holds what the last turn
-- that knows it has put there.
import DocPages.Demo.Generate
import DocPages.Proofs.Json.Fields
import DocPages.Proofs.Text.Base64
import DocPages.Proofs.Text.Search
import Mathlib.Data.List.Induction
import Mathlib.Data.List.Nodup

namespace DocPages.Demo

variable {key : String} {value : Json} {fields : Fields}

/-! ## Fields over fields -/

theorem overlay_concat (fields upper : Fields) (key : String) (value : Json) :
    overlay fields (upper ++ [(key, value)]) = (overlay fields upper).insert key value := by
  unfold overlay
  rw [List.foldl_append]
  rfl

theorem ordered_overlay (h : fields.Ordered) (upper : Fields) :
    (overlay fields upper).Ordered := by
  induction upper using List.reverseRecOn with
  | nil => exact h
  | append_singleton upper f ih =>
    rw [overlay_concat]
    exact ih.insert _ _

/-- Of two fields with one key the later one counts. -/
theorem get?_overlay (fields upper : Fields) :
    (overlay fields upper).get? key =
      (Fields.get? key upper.reverse).or (fields.get? key) := by
  induction upper using List.reverseRecOn with
  | nil => rfl
  | append_singleton upper f ih =>
    obtain ⟨k, v⟩ := f
    rw [overlay_concat, List.reverse_concat]
    by_cases hk : key = k
    · rw [hk, Fields.get?_insert_self, Fields.get?_cons_self]
      rfl
    · rw [Fields.get?_insert_ne hk, Fields.get?_cons_ne hk, ih]

theorem get?_overlay_of_not_mem {upper : Fields} (h : ∀ f ∈ upper, f.1 ≠ key) (fields : Fields) :
    (overlay fields upper).get? key = fields.get? key := by
  have hnone : Fields.get? key upper.reverse = none :=
    Fields.get?_eq_none_iff.mpr fun f hf => h f (List.mem_reverse.mp hf)
  rw [get?_overlay, hnone, Option.none_or]

theorem get?_overlay_of_mem {upper : Fields} (h : (upper.map Prod.fst).Nodup)
    (hmem : (key, value) ∈ upper) (fields : Fields) :
    (overlay fields upper).get? key = some value := by
  have hsome : Fields.get? key upper.reverse = some value := by
    rw [Fields.get?_eq_some_iff (by rwa [List.map_reverse, List.nodup_reverse]), List.mem_reverse]
    exact hmem
  rw [get?_overlay, hsome, Option.some_or]

/-! ## Captions -/

theorem captions_concat (headers : List Header) (locales : List String) (locale : String) :
    captions headers (locales ++ [locale]) =
      match caption? headers locale with
      | some text => (captions headers locales).insert locale (.string text)
      | none => captions headers locales := by
  unfold captions
  rw [List.foldl_append]
  rfl

theorem ordered_captions (headers : List Header) (locales : List String) :
    (captions headers locales).Ordered := by
  induction locales using List.reverseRecOn with
  | nil => exact Fields.ordered_nil
  | append_singleton locales locale ih =>
    rw [captions_concat]
    split
    · exact ih.insert _ _
    · exact ih

theorem get?_captions (headers : List Header) (locales : List String) :
    (captions headers locales).get? key =
      if key ∈ locales then (caption? headers key).map .string else none := by
  induction locales using List.reverseRecOn with
  | nil => rfl
  | append_singleton locales locale ih =>
    rw [captions_concat]
    by_cases hk : key = locale
    · subst hk
      cases hcaption : caption? headers key with
      | none => simp [ih, hcaption]
      | some text => simp
    · have hmem : key ∈ locales ++ [locale] ↔ key ∈ locales := by simp [hk]
      simp only [hmem]
      split
      · rw [Fields.get?_insert_ne hk, ih]
      · exact ih

/-- The caption in a language is the text under the first heading of that title. -/
theorem caption?_eq_some_iff {headers : List Header} {locale text : String} :
    caption? headers locale = some text ↔ ∃ front h back, headers = front ++ h :: back ∧
      (∀ g ∈ front, g.title ≠ locale) ∧ h.title = locale ∧ h.content = text := by
  unfold caption?
  simp only [Option.map_eq_some_iff, List.find?_eq_some_iff_append, beq_iff_eq,
    Bool.not_eq_true', beq_eq_false_iff_ne]
  constructor
  · rintro ⟨h, ⟨htitle, front, back, hsplit, hfront⟩, htext⟩
    exact ⟨front, h, back, hsplit, hfront, htitle, htext⟩
  · rintro ⟨front, h, back, hsplit, hfront, htitle, htext⟩
    exact ⟨h, ⟨htitle, front, back, hsplit, hfront⟩, htext⟩

/-! ## Markup -/

theorem htmlBefore?_getD_iff {marker html shown : String} :
    (htmlBefore? marker html).getD html = shown ↔
      Text.CutAt marker.toList html.toList shown.toList := by
  rw [Text.cutAt_iff]
  unfold htmlBefore?
  cases Text.before? marker.toList html.toList with
  | none => simp [String.ext_iff]
  | some front => simp [String.ext_iff]

/-! ## Code -/

theorem packed_eq_string_iff {text code : String} :
    packed text = .string code ↔
      Text.Base64.decode? code.toList = some (Text.Base64.bytesOf text) := by
  rw [Text.Base64.decode?_eq_bytesOf_iff, packed, Json.string.injEq, String.ext_iff,
    String.toList_ofList, eq_comm]

/-! ## All turns -/

/-- The keys under which the page itself stands. -/
def pageKeys : List String := ["relativePath", "originalCode", "vanillaCode"]

variable {s : PayloadSource}

theorem ordered_payload (s : PayloadSource) : (payload s).Ordered := by
  have hpage := (ordered_captions s.headers s.captionLocales).insert "html"
    (.string ((htmlBefore? s.marker s.html).getD s.html))
  exact (((ordered_overlay hpage s.metadata).insert _ _).insert _ _).insert _ _

theorem get?_payload (hkey : key ∉ pageKeys) :
    (payload s).get? key = (overlay ((captions s.headers s.captionLocales).insert "html"
      (.string ((htmlBefore? s.marker s.html).getD s.html))) s.metadata).get? key := by
  simp only [pageKeys, List.mem_cons, List.not_mem_nil, or_false, not_or] at hkey
  unfold payload
  rw [Fields.get?_insert_ne hkey.2.2, Fields.get?_insert_ne hkey.2.1,
    Fields.get?_insert_ne hkey.1]

theorem get?_payload_html (h : ∀ f ∈ s.metadata, f.1 ≠ "html") :
    (payload s).get? "html" = some (.string ((htmlBefore? s.marker s.html).getD s.html)) := by
  rw [get?_payload (by decide), get?_overlay_of_not_mem h, Fields.get?_insert_self]

theorem get?_payload_caption (hkey : key ∉ "html" :: pageKeys)
    (h : ∀ f ∈ s.metadata, f.1 ≠ key) :
    (payload s).get? key =
      if key ∈ s.captionLocales then (caption? s.headers key).map .string else none := by
  rw [List.mem_cons, not_or] at hkey
  rw [get?_payload hkey.2, get?_overlay_of_not_mem h, Fields.get?_insert_ne hkey.1,
    get?_captions]

/-! ## The law -/

/-- What the data of a preview holds under which key: under its own keys the page, with the two
sources as text that reads back as their bytes, under the keys of the front matter what stands
there, and under the keys that are left the markup in front of the demo and the captions. -/
inductive Holds (p : Source) (o : Options.Compiler) (vanilla : String) : String → Json → Prop
  | path : Holds p o vanilla "relativePath" (.string p.relativePath)
  | written {code : String}
      (hcode : Text.Base64.decode? code.toList = some (Text.Base64.bytesOf p.demo)) :
      Holds p o vanilla "originalCode" (.string code)
  | vanilla {code : String}
      (hcode : Text.Base64.decode? code.toList = some (Text.Base64.bytesOf vanilla)) :
      Holds p o vanilla "vanillaCode" (.string code)
  | metadata {key : String} {value : Json} (hkey : key ∉ pageKeys)
      (hmem : (key, value) ∈ p.metadata) : Holds p o vanilla key value
  | html {front : String} (hmetadata : ∀ f ∈ p.metadata, f.1 ≠ "html")
      (hcut : Text.CutAt o.marker.toList p.html.toList front.toList) :
      Holds p o vanilla "html" (.string front)
  | caption {front back : List Header} {h : Header} (hlocale : h.title ∈ o.locales)
      (hkey : h.title ∉ "html" :: pageKeys) (hmetadata : ∀ f ∈ p.metadata, f.1 ≠ h.title)
      (hsplit : p.headers = front ++ h :: back) (hfirst : ∀ g ∈ front, g.title ≠ h.title) :
      Holds p o vanilla h.title (.string h.content)

variable {p : Source} {o : Options.Compiler} {vanilla : String}

theorem get?_of_holds (h : (p.metadata.map Prod.fst).Nodup) (hholds : Holds p o vanilla key value) :
    (payload (p.payloadSource o vanilla)).get? key = some value := by
  cases hholds with
  | path =>
    unfold payload
    rw [Fields.get?_insert_ne (by decide), Fields.get?_insert_ne (by decide),
      Fields.get?_insert_self]
    rfl
  | written hcode =>
    unfold payload
    rw [Fields.get?_insert_ne (by decide), Fields.get?_insert_self,
      ← packed_eq_string_iff.mpr hcode]
    rfl
  | vanilla hcode =>
    unfold payload
    rw [Fields.get?_insert_self, ← packed_eq_string_iff.mpr hcode]
    rfl
  | metadata hkey hmem =>
    rw [get?_payload hkey]
    exact get?_overlay_of_mem h hmem _
  | html hmetadata hcut =>
    rw [get?_payload_html hmetadata, ← htmlBefore?_getD_iff.mpr hcut]
    rfl
  | caption hlocale hkey hmetadata hsplit hfirst =>
    have hcaption := caption?_eq_some_iff.mpr ⟨_, _, _, hsplit, hfirst, rfl, rfl⟩
    rw [get?_payload_caption hkey hmetadata]
    unfold Source.payloadSource
    rw [if_pos hlocale, hcaption]
    rfl

theorem holds_of_get? (h : (p.metadata.map Prod.fst).Nodup)
    (hget : (payload (p.payloadSource o vanilla)).get? key = some value) :
    Holds p o vanilla key value := by
  have hsame : ∀ {v}, Holds p o vanilla key v → Holds p o vanilla key value := by
    intro v hv
    rw [get?_of_holds h hv, Option.some_inj] at hget
    rwa [← hget]
  by_cases hkey : key ∈ pageKeys
  · simp only [pageKeys, List.mem_cons, List.not_mem_nil, or_false] at hkey
    rcases hkey with rfl | rfl | rfl
    · exact hsame .path
    · exact hsame (.written (packed_eq_string_iff.mp rfl))
    · exact hsame (.vanilla (packed_eq_string_iff.mp rfl))
  by_cases hmetadata : ∀ f ∈ p.metadata, f.1 ≠ key
  · by_cases hhtml : key = "html"
    · subst hhtml
      exact hsame (.html hmetadata (htmlBefore?_getD_iff.mp rfl))
    · have hfree : key ∉ "html" :: pageKeys := by
        rw [List.mem_cons, not_or]
        exact ⟨hhtml, hkey⟩
      rw [get?_payload_caption hfree hmetadata] at hget
      split at hget
      · rename_i hlocale
        obtain ⟨text, htext, rfl⟩ := Option.map_eq_some_iff.mp hget
        obtain ⟨front, h, back, hsplit, hfirst, rfl, rfl⟩ := caption?_eq_some_iff.mp htext
        exact .caption hlocale hfree hmetadata hsplit hfirst
      · cases hget
  · push Not at hmetadata
    obtain ⟨⟨k, v⟩, hmem, rfl⟩ := hmetadata
    exact hsame (.metadata hkey hmem)

/-- The data of a preview has its keys in order, each one once, and holds exactly this: under the
keys of the page the page itself, its two sources as text that reads back as their bytes, whatever
the front matter and the locales are named; under every other key of the front matter what stands
there; under the key of the markup, if it is none of the front matter, the markup in front of the
first marker, or all of it; and under each locale that is none of these keys the text under the
first heading of that title. -/
theorem the_data_holds_the_page_over_its_metadata_over_its_captions (p : Source)
    (o : Options.Compiler) (vanilla : String) (h : (p.metadata.map Prod.fst).Nodup) :
    (payload (p.payloadSource o vanilla)).Ordered ∧
      ∀ key value, (key, value) ∈ payload (p.payloadSource o vanilla) ↔
        Holds p o vanilla key value := by
  have hordered := ordered_payload (p.payloadSource o vanilla)
  refine ⟨hordered, fun key value => ?_⟩
  rw [← Fields.get?_eq_some_iff hordered.nodup]
  exact ⟨holds_of_get? h, get?_of_holds h⟩

/-- Options whose locales are named as a key of the page and as a heading. -/
def crowdedOptions : Options.Compiler :=
  { Options.Compiler.standard with captionLocales := ("originalCode", "de") }

/-- A demo on a page whose headings and front matter are named as keys of the page. -/
def crowdedDemo : Source :=
  { demo := "<b>x</b>"
    html := "<h1>T</h1><pre><code class=\"language-vue\">x</code></pre>"
    headers := [⟨2, "originalCode", "", "code"⟩, ⟨2, "de", "", "first"⟩, ⟨2, "de", "", "second"⟩]
    metadata := [("relativePath", .string "other.md"), ("title", .string "T")]
    relativePath := "demo.md" }

/-- Each key of such a page holds one value: that of the page, else that of the front matter, else
the markup or the first caption. -/
theorem crowdedDemo_holds_each_key_once :
    (crowdedDemo.metadata.map Prod.fst).Nodup ∧
      (payload (crowdedDemo.payloadSource crowdedOptions "")).Ordered ∧
      ∀ f ∈ [("relativePath", .string "demo.md"), ("originalCode", .string "PGI+eDwvYj4="),
          ("vanillaCode", .string ""), ("title", .string "T"), ("html", .string "<h1>T</h1>"),
          ("de", .string "first")],
        f ∈ payload (crowdedDemo.payloadSource crowdedOptions "") := by
  have hkeys : (crowdedDemo.metadata.map Prod.fst).Nodup := by decide
  obtain ⟨hordered, hholds⟩ :=
    the_data_holds_the_page_over_its_metadata_over_its_captions crowdedDemo crowdedOptions "" hkeys
  have hmetadata : ∀ f ∈ crowdedDemo.metadata, f.1 ≠ "html" ∧ f.1 ≠ "de" := by decide
  have hcut : (htmlBefore? crowdedOptions.marker crowdedDemo.html).getD crowdedDemo.html =
      "<h1>T</h1>" := by decide +kernel
  refine ⟨hkeys, hordered, ?_⟩
  simp only [List.forall_mem_cons, hholds]
  have hcode : Text.Base64.decode? "PGI+eDwvYj4=".toList =
      some (Text.Base64.bytesOf crowdedDemo.demo) := by decide +kernel
  refine ⟨.path, .written hcode, .vanilla (by decide +kernel), .metadata (by decide) ?_, ?_, ?_,
    List.forall_mem_nil _⟩
  · exact List.mem_cons_of_mem _ List.mem_cons_self
  · exact .html (fun f hf => (hmetadata f hf).1) (htmlBefore?_getD_iff.mp hcut)
  · have hfirst : ∀ g ∈ [(⟨2, "originalCode", "", "code"⟩ : Header)], g.title ≠ "de" := by decide
    have hlocale : "de" ∈ crowdedOptions.locales := by decide
    have hfree : "de" ∉ "html" :: pageKeys := by decide
    exact Holds.caption (h := ⟨2, "de", "", "first"⟩) hlocale hfree
      (fun f hf => (hmetadata f hf).2) rfl hfirst

end DocPages.Demo
