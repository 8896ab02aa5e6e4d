import DocPages.Markup.StartTag

/-!
What the tags in front of a place say about the text behind it: whether it is markup at all, whether
it belongs to a drawing or a formula, and whether a tag in it could be read in two ways.
-/

namespace DocPages.Markup

/-- What the elements around a place belong to. -/
inductive Realm where
  | page
  | drawing
  | formula
  deriving DecidableEq, Inhabited

/-- Where a place stands in elements that take only some tags: outside, in a list of choices, in
templates inside of one, or in a set of frames. -/
inductive Guard where
  | outside
  | choices
  | template (depth : Nat)
  | frames
  deriving DecidableEq, Inhabited

/-- The context of a place: the realms around it, innermost first, in front of the page itself, and
the guard. -/
structure Context where
  realms : List Realm
  guard : Guard
  deriving Inhabited

namespace Context

/-- The context at the start of a page. -/
def start : Context := ⟨[], .outside⟩

/-- The realm of a place. -/
def realm (ctx : Context) : Realm := ctx.realms.head?.getD .page

end Context

/-! ## Names of elements -/

/-- Elements whose content is text and no markup. -/
def textElements : List String :=
  ["textarea", "title", "plaintext", "script", "style", "iframe", "xmp", "noembed", "noframes",
    "noscript"]

/-- Elements of the page that end a drawing or a formula. -/
def pageElements : List String :=
  ["b", "big", "blockquote", "body", "br", "center", "code", "dd", "div", "dl", "dt", "em", "embed",
    "h1", "h2", "h3", "h4", "h5", "h6", "head", "hr", "i", "img", "li", "listing", "menu", "meta",
    "nobr", "ol", "p", "pre", "ruby", "s", "small", "span", "strong", "strike", "sub", "sup",
    "table", "tt", "u", "ul", "var"]

/-- Elements of a drawing or a formula whose content belongs to the page again. -/
def islands : Realm → List String
  | .page => []
  | .drawing => ["desc", "title", "foreignobject"]
  | .formula => ["mi", "mo", "mn", "ms", "mtext"]

/-- The element of a formula that holds a piece of another language. -/
def annotation : String := "annotation-xml"

/-- The languages of a page, in lower case. -/
def pageLanguages : List String := ["text/html", "application/xhtml+xml"]

/-! ## Tags that could be read in two ways -/

/-- A tag whose element is text, where it is unclear whether the tag counts. -/
structure Ambiguous where
  tag : String
  deriving DecidableEq, Inhabited

/-- Refuses a tag whose element is text. -/
def refuseText (name : String) (guard : Guard) : Except Ambiguous Guard :=
  if textElements.contains name then .error ⟨name⟩ else .ok guard

/-- The guard behind a start tag. -/
def Guard.enter (guard : Guard) (name : String) : Except Ambiguous Guard :=
  match guard with
  | .outside =>
    if name == "select" then .ok .choices
    else if name == "frameset" then .ok .frames
    else .ok .outside
  | .choices =>
    if ["select", "textarea", "input", "keygen"].contains name then .ok .outside
    else if name == "template" then .ok (.template 1)
    else if name == "script" then .ok .choices
    else refuseText name .choices
  | .template depth =>
    if name == "template" then .ok (.template (depth + 1)) else refuseText name (.template depth)
  | .frames => if name == "noframes" then .ok .frames else refuseText name .frames

/-- The guard behind an end tag. -/
def Guard.leave (guard : Guard) (name : String) : Guard :=
  match guard with
  | .choices => if name == "select" then .outside else .choices
  | .template depth =>
    if name != "template" then .template depth
    else if depth ≤ 1 then .choices else .template (depth - 1)
  | guard => guard

/-! ## Realms -/

/-- Whether a tag in a drawing or a formula belongs to the page after all. -/
def endsRealm (name : String) (tag : StartTag) : Bool :=
  pageElements.contains name ||
    (name == "font" && (tag.has "color" || tag.has "size" || tag.has "face"))

/-- Whether a tag says that what it holds is in a language of pages. -/
def isPageAnnotation (name : String) (tag : StartTag) : Bool :=
  name == annotation && tag.attributes.any fun a =>
    a.name == "encoding".toList &&
      pageLanguages.any fun language => language.toList == Text.asciiLower a.value

/-- Whether the content of an element of a realm belongs to the page. -/
def startsIsland (realm : Realm) (name : String) (tag : StartTag) : Bool :=
  !tag.selfClosing &&
    ((islands realm).contains name || (realm == .formula && isPageAnnotation name tag))

/-- Whether the end of an element ends the part of the page that stands in a realm. -/
def endsIsland (realm : Realm) (name : String) : Bool :=
  (islands realm).contains name || (realm == .formula && name == annotation)

/-- Whether an end tag ends a realm: that of the realm itself, or one of two that belong to the page
in any case. -/
def leavesRealm (realm : Realm) (name : String) : Bool :=
  match realm with
  | .page => false
  | .drawing => ["svg", "p", "br"].contains name
  | .formula => ["math", "p", "br"].contains name

/-- The realms behind a start tag. -/
def realmsBehind (realms : List Realm) (name : String) (tag : StartTag) : List Realm :=
  let realm := realms.head?.getD .page
  if name == "svg" then .drawing :: realms
  else if name == "math" then .formula :: realms
  else if realm == .page then realms
  else if endsRealm name tag then realms.drop 1
  else if startsIsland realm name tag then .page :: realms
  else realms

/-- The context behind a start tag, and the name of the element if its content is text. -/
def Context.enter (ctx : Context) (tag : StartTag) : Except Ambiguous (Context × Option String) :=
  let name := String.ofList (Text.asciiLower tag.name)
  (ctx.guard.enter name).map fun guard =>
    let isText := ctx.realm == .page && textElements.contains name
    (⟨realmsBehind ctx.realms name tag, guard⟩, if isText then some name else none)

/-- The context behind an end tag. -/
def Context.leave (ctx : Context) (name : String) : Context :=
  let realms :=
    match ctx.realms with
    | .page :: outer :: rest => if endsIsland outer name then outer :: rest else ctx.realms
    | realm :: rest => if leavesRealm realm name then rest else ctx.realms
    | [] => []
  ⟨realms, ctx.guard.leave name⟩

end DocPages.Markup
