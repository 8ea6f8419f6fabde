import DeclarativeBuild.Markup.Element
import DeclarativeBuild.Markup.Scan
import DeclarativeBuild.Text.Pieces

/-!
# Reading documents

A document is read from front to back with the open elements on a stack.  Every step takes something
off the input, so reading ends.
-/

namespace DeclarativeBuild
namespace Markup

/-- The text at the start of an element while it is read. -/
inductive LeadingText where
  | awaited
  | gathered (text : List Char)
  | ended (text : List Char)

namespace LeadingText

def add (more : List Char) : LeadingText → LeadingText
  | awaited => gathered more
  | gathered text => gathered (text ++ more)
  | ended text => ended text

def stop : LeadingText → LeadingText
  | awaited => ended []
  | gathered text => ended text
  | ended text => ended text

/-- The text without blanks around it, if anything is left. -/
def text? (t : LeadingText) : Option String :=
  let trimmed := match t with
    | awaited => []
    | gathered text => Text.trim text
    | ended text => Text.trim text
  if trimmed.isEmpty then none else some (String.ofList trimmed)

end LeadingText

/-- An element whose end tag is still to come; its children stand last to first. -/
structure OpenElement where
  name : QualifiedName
  attributes : List (String × String)
  scope : Namespaces
  children : List Element
  lead : LeadingText

namespace OpenElement

def start (name : QualifiedName) (scope : Namespaces) (attributes : List (String × String)) :
    OpenElement :=
  ⟨name, attributes, scope, [], .awaited⟩

def close (e : OpenElement) : Element :=
  .mk e.name.localName e.attributes e.children.reverse e.lead.text?

def addText (e : OpenElement) (text : List Char) : OpenElement :=
  { e with lead := e.lead.add text }

def stopText (e : OpenElement) : OpenElement :=
  { e with lead := e.lead.stop }

def addChild (e : OpenElement) (child : Element) : OpenElement :=
  { e with children := child :: e.children, lead := e.lead.stop }

end OpenElement

/-- One piece of an element's content. -/
inductive Item where
  | text (text : List Char)
  | remark
  | startTag (name : QualifiedName) (attributes : List Attribute) (tagEnd : TagEnd)
  | endTag (name : QualifiedName)

def scanText (cs : List Char) : Option ((List Char) × List Char) :=
  let raw := cs.takeWhile (· != '<')
  if raw.all isDocumentChar && !occursIn "]]>".toList raw then
    (written raw).map fun ws => (textValue ws, cs.drop raw.length)
  else none

/-- The next piece of content. -/
def scanItem (cs : List Char) : Option (Item × List Char) :=
  match cs with
  | [] => none
  | '<' :: '!' :: '-' :: '-' :: rest =>
    (scanComment rest).map fun (_, after) => (.remark, after)
  | '<' :: '!' :: rest => do
    let body ← stripPrefix? "[CDATA[".toList rest
    let (raw, after) ← scanUntil "]]>".toList body
    some (.text (textValue (raw.map (⟨·, false⟩))), after)
  | '<' :: '?' :: rest => (scanInstruction rest).map fun (_, after) => (.remark, after)
  | '<' :: '/' :: rest => (scanEndTag rest).map fun (name, after) => (.endTag name, after)
  | '<' :: rest =>
    (scanStartTag rest).map fun ((name, attributes, tagEnd), after) =>
      (.startTag name attributes tagEnd, after)
  | _ => (scanText cs).map fun (text, after) => (.text text, after)

/-- Reads the content of `top`, which is open inside `below`, up to the end of the outermost. -/
def readContent (top : OpenElement) (below : List OpenElement) (cs : List Char) :
    Option (Element × List Char) :=
  match scanItem cs with
  | none => none
  | some (item, rest) =>
    if rest.length < cs.length then
      match item with
      | .text text => readContent (top.addText text) below rest
      | .remark => readContent top.stopText below rest
      | .startTag name attributes tagEnd =>
        match enter? top.scope name attributes with
        | none => none
        | some (scope, plain) =>
          let inner := OpenElement.start name scope plain
          match tagEnd with
          | .closed => readContent (top.addChild inner.close) below rest
          | .opening => readContent inner (top :: below) rest
      | .endTag name =>
        if name != top.name then none
        else
          match below with
          | [] => some (top.close, rest)
          | parent :: below => readContent (parent.addChild top.close) below rest
    else none
termination_by cs.length

/-- The root element with all its content. -/
def readRoot (cs : List Char) : Option (Element × List Char) :=
  match cs with
  | '<' :: rest =>
    match scanStartTag rest with
    | none => none
    | some ((name, attributes, tagEnd), rest) =>
      match enter? Namespaces.initial name attributes with
      | none => none
      | some (scope, plain) =>
        let root := OpenElement.start name scope plain
        match tagEnd with
        | .closed => some (root.close, rest)
        | .opening => readContent root [] rest
  | _ => none

/-- The root element of a document.  A document type definition makes it none. -/
def readDocument (source : String) : Option Element := do
  let cs := source.toList
  let cs := if cs.head? == some '\ufeff' then cs.drop 1 else cs
  let cs ← skipDeclaration cs >>= skipMisc
  let (root, rest) ← readRoot cs
  let rest ← skipMisc rest
  if rest.isEmpty then some root else none

end Markup
end DeclarativeBuild
