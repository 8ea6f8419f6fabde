import DeclarativeBuild.Markup.Literal
import DeclarativeBuild.Markup.Namespace

/-!
# Scanning markup

Each scanner takes something off the front of the input and gives it with the rest, or nothing if
the input does not start that way.
-/

namespace DeclarativeBuild
namespace Markup

def skipSpaces (cs : List Char) : List Char :=
  cs.dropWhile isSpace

/-- The text up to `stop`, which is taken off too. -/
def scanUntil (stop : List Char) (cs : List Char) : Option ((List Char) × List Char) :=
  match cs with
  | [] => none
  | c :: rest =>
    if stop.isPrefixOf cs then some ([], cs.drop stop.length)
    else if isDocumentChar c then
      (scanUntil stop rest).map fun (text, after) => (c :: text, after)
    else none

/-- Whether `part` occurs in a text. -/
def occursIn (part : List Char) : List Char → Bool
  | [] => part.isEmpty
  | c :: cs => part.isPrefixOf (c :: cs) || occursIn part cs

/-- The rest of a comment, after its opening.  Two hyphens may only close it. -/
def scanComment (cs : List Char) : Option (Unit × List Char) := do
  let (text, rest) ← scanUntil ['-', '-', '>'] cs
  if occursIn ['-', '-'] text || text.getLast? == some '-' then none else some ((), rest)

def scanName (cs : List Char) : Option (String × List Char) :=
  let name := cs.takeWhile isNameChar
  match name with
  | c :: _ => if isNameStart c then some (String.ofList name, cs.drop name.length) else none
  | [] => none

/-- The rest of a processing instruction, after its opening. -/
def scanInstruction (cs : List Char) : Option (Unit × List Char) := do
  if "xml ".toList.isPrefixOf cs then none
  let (_, rest) ← scanName cs
  let (_, rest) ← scanUntil ['?', '>'] (skipSpaces rest)
  some ((), rest)

def startsName (cs : List Char) : Bool :=
  match cs with
  | c :: _ => isNameStart c
  | [] => false

/-- A name with at most one colon; both parts of it start like names. -/
def scanQualifiedName (cs : List Char) : Option (QualifiedName × List Char) :=
  let name := cs.takeWhile isNameChar
  let rest := cs.drop name.length
  match Text.cutFirst ':' name with
  | none => if startsName name then some (⟨"", String.ofList name⟩, rest) else none
  | some (qualifier, localName) =>
    if localName.contains ':' || !startsName localName then none
    else if !qualifier.isEmpty && !startsName qualifier then none
    else some (⟨String.ofList qualifier, String.ofList localName⟩, rest)

/-- A name, an equals sign and a quoted text without the sign that opens a tag. -/
def scanAttribute (cs : List Char) : Option ((QualifiedName × List Char) × List Char) := do
  let (name, rest) ← scanQualifiedName cs
  match skipSpaces rest with
  | '=' :: rest =>
    match skipSpaces rest with
    | quote :: rest =>
      if quote != '"' && quote != '\'' then none
      let (value, rest) ← scanUntil [quote] rest
      if value.contains '<' then none else some ((name, value), rest)
    | [] => none
  | _ => none

/-- How a start tag ends. -/
inductive TagEnd where
  | opening
  | closed
deriving DecidableEq

/-- The attributes of a start tag and its end.  Each attribute follows a space. -/
def scanAttributes (cs : List Char) : Option ((List Attribute × TagEnd) × List Char) :=
  match skipSpaces cs with
  | '/' :: '>' :: rest => some (([], .closed), rest)
  | '>' :: rest => some (([], .opening), rest)
  | start =>
    if start.length < cs.length then
      match scanAttribute start with
      | none => none
      | some ((name, raw), rest) =>
        if rest.length < cs.length then
          match written raw, scanAttributes rest with
          | some ws, some ((attributes, tagEnd), rest) =>
            some ((⟨name, String.ofList (attributeValue ws)⟩ :: attributes, tagEnd), rest)
          | _, _ => none
        else none
    else none
termination_by cs.length

/-- A start tag after its opening sign. -/
def scanStartTag (cs : List Char) :
    Option ((QualifiedName × List Attribute × TagEnd) × List Char) := do
  let (name, rest) ← scanQualifiedName cs
  let ((attributes, tagEnd), rest) ← scanAttributes rest
  some ((name, attributes, tagEnd), rest)

/-- An end tag after its opening. -/
def scanEndTag (cs : List Char) : Option (QualifiedName × List Char) := do
  let (name, rest) ← scanQualifiedName cs
  match skipSpaces rest with
  | '>' :: rest => some (name, rest)
  | _ => none

/-- Comments, instructions and spaces outside the root element. -/
def skipMisc (cs : List Char) : Option (List Char) :=
  match skipSpaces cs with
  | '<' :: '!' :: '-' :: '-' :: rest =>
    match scanComment rest with
    | none => none
    | some (_, rest) => if rest.length < cs.length then skipMisc rest else none
  | '<' :: '?' :: rest =>
    match scanInstruction rest with
    | none => none
    | some (_, rest) => if rest.length < cs.length then skipMisc rest else none
  | rest => some rest
termination_by cs.length

/-- Spaces, which may only be missing where a declaration ends. -/
def declarationGap (cs : List Char) : Option (List Char) :=
  if ['?', '>'].isPrefixOf cs || cs.isEmpty then some cs
  else
    match cs with
    | c :: _ => if isSpace c then some (skipSpaces cs) else none
    | [] => none

/-- An attribute of the declaration whose name starts with `name`, if one stands there. -/
def skipDeclared (name : String) (cs : List Char) : Option (List Char) :=
  if name.toList.isPrefixOf cs then (scanAttribute cs).map (·.2) else some cs

/-- The declaration that may open a document: a version, an encoding and a standalone flag. -/
def skipDeclaration (cs : List Char) : Option (List Char) :=
  if !"<?xml ".toList.isPrefixOf cs then some cs else do
  let cs ← declarationGap (cs.drop 5)
  if !"version".toList.isPrefixOf cs then none
  let cs ← skipDeclared "version" cs >>= declarationGap
  let cs ← (if "encoding".toList.isPrefixOf cs then
    skipDeclared "encoding" cs >>= declarationGap else some cs)
  let cs ← skipDeclared "standalone" cs
  stripPrefix? ['?', '>'] (skipSpaces cs)

end Markup
end DeclarativeBuild
