import DeclarativeBuild.Proofs.Json.Tokens
import Mathlib.Data.List.Forall2

/-!
# JSON documents

A document is one value with blanks around it.  It is read by a machine with a stack of the lists and
objects that are open.  What the plan printer writes is read back as the value that was written, and
it is no document any more when more than blanks stands before it.
-/

namespace DeclarativeBuild
namespace Json

/-- A list or an object that is open, with what has been read of it last first. -/
inductive Frame where
  | list (items : List Json)
  | object (members : List (String × Json)) (key : String)

/-- What may come next. -/
inductive Expecting where
  | value
  | valueOrEnd
  | key (members : List (String × Json))
  | keyOrEnd
  | colon (members : List (String × Json)) (key : String)
  | afterValue (v : Json)

structure Parsing where
  stack : List Frame
  expecting : Expecting

namespace Parsing

def initial : Parsing := ⟨[], .value⟩

/-- Begins a value. -/
def begin (stack : List Frame) : Token → Option Parsing
  | .word v => some ⟨stack, .afterValue v⟩
  | .text s => some ⟨stack, .afterValue (.text s)⟩
  | .openList => some ⟨stack, .valueOrEnd⟩
  | .openObject => some ⟨stack, .keyOrEnd⟩
  | _ => none

def next : Parsing → Token → Option Parsing
  | ⟨stack, .value⟩, t => begin stack t
  | ⟨stack, .valueOrEnd⟩, .closeList => some ⟨stack, .afterValue (.list [])⟩
  | ⟨stack, .valueOrEnd⟩, t => begin (.list [] :: stack) t
  | ⟨stack, .keyOrEnd⟩, .closeObject => some ⟨stack, .afterValue (.object [])⟩
  | ⟨stack, .keyOrEnd⟩, .text key => some ⟨stack, .colon [] key⟩
  | ⟨stack, .key members⟩, .text key => some ⟨stack, .colon members key⟩
  | ⟨stack, .colon members key⟩, .colon => some ⟨.object members key :: stack, .value⟩
  | ⟨.list items :: stack, .afterValue v⟩, .comma => some ⟨.list (v :: items) :: stack, .value⟩
  | ⟨.list items :: stack, .afterValue v⟩, .closeList =>
    some ⟨stack, .afterValue (.list (v :: items).reverse)⟩
  | ⟨.object members key :: stack, .afterValue v⟩, .comma =>
    some ⟨stack, .key ((key, v) :: members)⟩
  | ⟨.object members key :: stack, .afterValue v⟩, .closeObject =>
    some ⟨stack, .afterValue (.object ((key, v) :: members).reverse)⟩
  | _, _ => none

def run (p : Parsing) (tokens : List Token) : Option Parsing :=
  tokens.foldlM next p

theorem run_cons (p : Parsing) (t : Token) (rest : List Token) :
    p.run (t :: rest) = (p.next t).bind fun q => q.run rest :=
  List.foldlM_cons

theorem run_append (p : Parsing) (tokens more : List Token) :
    p.run (tokens ++ more) = (p.run tokens).bind fun q => q.run more :=
  List.foldlM_append

/-- The value of a document that has come to its end. -/
def value? : Parsing → Option Json
  | ⟨[], .afterValue v⟩ => some v
  | _ => none

theorem begin_ne_initial {stack : List Frame} {t : Token} {p : Parsing}
    (h : begin stack t = some p) : p ≠ initial := by
  rintro rfl
  cases t <;> simp [begin, initial] at h

/-- After a token the machine is never again as it was before all of them. -/
theorem next_ne_initial {p q : Parsing} {t : Token} (h : p.next t = some q) : q ≠ initial := by
  unfold next at h
  split at h <;> first | exact begin_ne_initial h | (cases h; simp [initial]) | cases h

theorem run_ne_initial {p q : Parsing} {tokens : List Token} (hne : tokens ≠ [])
    (h : p.run tokens = some q) : q ≠ initial := by
  induction tokens generalizing p with
  | nil => exact absurd rfl hne
  | cons t rest ih =>
      rw [run_cons] at h
      obtain ⟨after, hn, hrest⟩ := Option.bind_eq_some_iff.mp h
      cases rest with
      | nil =>
          cases hrest
          exact next_ne_initial hn
      | cons u rest => exact ih (List.cons_ne_nil _ _) hrest

end Parsing

/-- Reads a document, whose last line need not be ended. -/
def read (source : String) : Option Json := do
  let (tokens, _) ← Lexing.run .between (source.toList ++ ['\n'])
  (← Parsing.run .initial tokens).value?

end Json

namespace JsonValue

open Json

mutual

/-- A value as a reader knows it. -/
def document : JsonValue → Json
  | text s => .text s
  | list items => .list (documents items)
  | object members => .object (memberDocuments members)

def documents : List JsonValue → List Json
  | [] => []
  | v :: rest => v.document :: documents rest

def memberDocuments : List (String × JsonValue) → List (String × Json)
  | [] => []
  | (key, v) :: rest => (key, v.document) :: memberDocuments rest

end

mutual

/-- The tokens of a value. -/
def tokens : JsonValue → List Token
  | text s => [.text s]
  | list [] => [.openList, .closeList]
  | list (v :: rest) => .openList :: v.tokens ++ itemTokens rest
  | object [] => [.openObject, .closeObject]
  | object ((key, v) :: rest) => .openObject :: .text key :: .colon :: v.tokens ++ memberTokens rest

/-- The tokens of a list after its first item. -/
def itemTokens : List JsonValue → List Token
  | [] => [.closeList]
  | v :: rest => .comma :: v.tokens ++ itemTokens rest

/-- The tokens of an object after its first member. -/
def memberTokens : List (String × JsonValue) → List Token
  | [] => [.closeObject]
  | (key, v) :: rest => .comma :: .text key :: .colon :: v.tokens ++ memberTokens rest

end

/-- The first item of a list is read like any other value. -/
theorem run_valueOrEnd (v : JsonValue) (stack : List Frame) (more : List Token) :
    Parsing.run ⟨stack, .valueOrEnd⟩ (v.tokens ++ more) =
      Parsing.run ⟨.list [] :: stack, .value⟩ (v.tokens ++ more) := by
  cases v with
  | text s => rfl
  | list items => cases items <;> simp only [tokens, List.cons_append] <;> rfl
  | object members => cases members <;> simp only [tokens, List.cons_append] <;> rfl

mutual

/-- A value is read as itself, and what is open around it stays open. -/
theorem run_tokens : (v : JsonValue) → (stack : List Frame) → (more : List Token) →
    Parsing.run ⟨stack, .value⟩ (v.tokens ++ more) =
      Parsing.run ⟨stack, .afterValue v.document⟩ more
  | text s, stack, more => by rw [tokens, document]; rfl
  | list [], stack, more => by rw [tokens, document, documents]; rfl
  | list (v :: rest), stack, more => by
      simp only [tokens, document, documents, List.cons_append, List.append_assoc]
      -- After the bracket the list might still end, so its first item is read in a state of its own.
      change Parsing.run ⟨stack, .valueOrEnd⟩ _ = _
      rw [run_valueOrEnd, run_tokens v, run_itemTokens rest]
      rfl
  | object [], stack, more => by rw [tokens, document, memberDocuments]; rfl
  | object ((key, v) :: rest), stack, more => by
      simp only [tokens, document, memberDocuments, List.cons_append, List.append_assoc]
      change Parsing.run ⟨.object [] key :: stack, .value⟩ _ = _
      rw [run_tokens v, run_memberTokens rest]
      rfl

theorem run_itemTokens : (items : List JsonValue) → (done : List Json) → (v : Json) →
    (stack : List Frame) → (more : List Token) →
    Parsing.run ⟨.list done :: stack, .afterValue v⟩ (itemTokens items ++ more) =
      Parsing.run ⟨stack, .afterValue (.list ((v :: done).reverse ++ documents items))⟩ more
  | [], done, v, stack, more => by
      rw [itemTokens, documents, List.append_nil]
      rfl
  | w :: rest, done, v, stack, more => by
      simp only [itemTokens, documents, List.cons_append, List.append_assoc]
      change Parsing.run ⟨.list (v :: done) :: stack, .value⟩ _ = _
      rw [run_tokens w, run_itemTokens rest]
      simp

theorem run_memberTokens : (members : List (String × JsonValue)) → (done : List (String × Json)) →
    (key : String) → (v : Json) → (stack : List Frame) → (more : List Token) →
    Parsing.run ⟨.object done key :: stack, .afterValue v⟩ (memberTokens members ++ more) =
      Parsing.run ⟨stack, .afterValue
        (.object (((key, v) :: done).reverse ++ memberDocuments members))⟩ more
  | [], done, key, v, stack, more => by
      rw [memberTokens, memberDocuments, List.append_nil]
      rfl
  | (k, w) :: rest, done, key, v, stack, more => by
      simp only [memberTokens, memberDocuments, List.cons_append, List.append_assoc]
      change Parsing.run ⟨.object ((key, v) :: done) k :: stack, .value⟩ _ = _
      rw [run_tokens w, run_memberTokens rest]
      simp

end

theorem itemTokens_eq (items : List JsonValue) :
    itemTokens items = (items.map tokens).flatMap (Token.comma :: ·) ++ [.closeList] := by
  induction items with
  | nil => rw [itemTokens]; rfl
  | cons v rest ih => simp [itemTokens, ih]

theorem memberTokens_eq (members : List (String × JsonValue)) :
    memberTokens members =
      (members.map fun (key, v) => Token.text key :: .colon :: v.tokens).flatMap
        (Token.comma :: ·) ++ [.closeObject] := by
  induction members with
  | nil => rw [memberTokens]; rfl
  | cons member rest ih => simp [memberTokens, ih]

section Printed

/-- A text that is printed has certain tokens. -/
abbrev Prints (s : String) (tokens : List Token) : Prop :=
  Lexes s.toList tokens

theorem Prints.append {s t : String} {tokens more : List Token} (hs : Prints s tokens)
    (ht : Prints t more) : Prints (s ++ t) (tokens ++ more) := by
  rw [Prints, String.toList_append]
  exact Lexes.append hs ht

theorem prints_openList : Prints "[" [.openList] := rfl

theorem prints_closeList : Prints "]" [.closeList] := rfl

theorem prints_openObject : Prints "\x7b" [.openObject] := rfl

theorem prints_closeObject : Prints "\x7d" [.closeObject] := rfl

theorem prints_lineEnd : Prints "\n" [] := rfl

theorem prints_key (key : String) : Prints (quoted key ++ ": ") [.text key, .colon] := by
  have hcolon : Prints ": " [Token.colon] := rfl
  exact (show Prints (quoted key) _ from lexes_quoted key).append hcolon

theorem prints_spaces (n : Nat) : Prints (String.ofList (List.replicate n ' ')) [] := by
  rw [Prints, String.toList_ofList]
  apply Lexes.blanks
  intro c hc
  rw [List.eq_of_mem_replicate hc]
  rfl

theorem prints_intercalate {first : String} {rest : List String} {tokens : List Token}
    {more : List (List Token)} (hfirst : Prints first tokens)
    (hrest : List.Forall₂ Prints rest more) :
    Prints (",\n".intercalate (first :: rest)) (tokens ++ more.flatMap (Token.comma :: ·)) := by
  have hcomma : Prints ",\n" [Token.comma] := rfl
  induction hrest generalizing first tokens with
  | nil => simpa using hfirst
  | cons hs _ ih =>
      rw [String.intercalate_cons_of_ne_nil (List.cons_ne_nil _ _)]
      simpa using (hfirst.append hcomma).append (ih hs)

/-- A block has the tokens of its parts, with commas between them. -/
theorem prints_block {opening closing : String} {o c : Token} (ho : Prints opening [o])
    (hc : Prints closing [c]) (indent : Nat) {first : String} {rest : List String}
    {tokens : List Token} {more : List (List Token)} (hfirst : Prints first tokens)
    (hrest : List.Forall₂ Prints rest more) :
    Prints (block opening closing indent (first :: rest))
      (o :: tokens ++ (more.flatMap (Token.comma :: ·) ++ [c])) := by
  let pad := String.ofList (List.replicate (indent + 2) ' ')
  have hpadded : List.Forall₂ Prints (rest.map (pad ++ ·)) more := by
    rw [List.forall₂_map_left_iff]
    exact hrest.imp fun s ts hs => (prints_spaces _).append hs
  have hitems := prints_intercalate ((prints_spaces (indent + 2)).append hfirst) hpadded
  have hall := ((((ho.append prints_lineEnd).append hitems).append prints_lineEnd).append
    (prints_spaces indent)).append hc
  rw [block, if_neg (by simp)]
  simpa using hall

mutual

theorem prints_pretty : (v : JsonValue) → (indent : Nat) → Prints (v.pretty indent) v.tokens
  | text s, indent => by
      rw [pretty, tokens]
      exact lexes_quoted s
  | list [], indent => by
      rw [pretty, prettyItems, tokens]
      exact prints_openList.append prints_closeList
  | list (v :: rest), indent => by
      rw [pretty, prettyItems, tokens, itemTokens_eq]
      exact prints_block prints_openList prints_closeList indent (prints_pretty v _)
        (prints_prettyItems rest _)
  | object [], indent => by
      rw [pretty, prettyMembers, tokens]
      exact prints_openObject.append prints_closeObject
  | object ((key, v) :: rest), indent => by
      have hmember := (prints_key key).append (prints_pretty v (indent + 2))
      rw [pretty, prettyMembers, tokens, memberTokens_eq]
      exact prints_block prints_openObject prints_closeObject indent hmember
        (prints_prettyMembers rest _)

theorem prints_prettyItems : (items : List JsonValue) → (indent : Nat) →
    List.Forall₂ Prints (prettyItems indent items) (items.map tokens)
  | [], _ => by
      rw [prettyItems]
      exact .nil
  | v :: rest, indent => by
      rw [prettyItems]
      exact .cons (prints_pretty v indent) (prints_prettyItems rest indent)

theorem prints_prettyMembers : (members : List (String × JsonValue)) → (indent : Nat) →
    List.Forall₂ Prints (prettyMembers indent members)
      (members.map fun (key, v) => Token.text key :: .colon :: v.tokens)
  | [], _ => by
      rw [prettyMembers]
      exact .nil
  | (key, v) :: rest, indent => by
      rw [prettyMembers]
      exact .cons ((prints_key key).append (prints_pretty v indent))
        (prints_prettyMembers rest indent)

end

end Printed

/-- Where a value has begun, or a key or a sign must come, a list is no end of the document. -/
theorem value?_run_list {p : Parsing} (hp : p ≠ .initial) (items : List JsonValue) :
    (p.run (list items).tokens).bind Parsing.value? = none := by
  have hopen : ∃ rest, (list items).tokens = .openList :: rest := by
    cases items with
    | nil => exact ⟨_, rfl⟩
    | cons v rest =>
        rw [tokens]
        exact ⟨_, rfl⟩
  have hvalue : ∀ stack, stack ≠ [] →
      (Parsing.run ⟨stack, .value⟩ (list items).tokens).bind Parsing.value? = none := by
    intro stack hs
    have hrun := run_tokens (list items) stack []
    rw [List.append_nil] at hrun
    rw [hrun]
    cases stack with
    | nil => exact absurd rfl hs
    | cons frame stack => rfl
  obtain ⟨stack, expecting⟩ := p
  cases expecting with
  | value =>
      apply hvalue
      rintro rfl
      exact hp rfl
  | valueOrEnd =>
      have hrun := run_valueOrEnd (list items) stack []
      rw [List.append_nil] at hrun
      rw [hrun]
      exact hvalue _ (List.cons_ne_nil _ _)
  | key members =>
      obtain ⟨rest, hrest⟩ := hopen
      rw [hrest, Parsing.run_cons]
      rfl
  | keyOrEnd =>
      obtain ⟨rest, hrest⟩ := hopen
      rw [hrest, Parsing.run_cons]
      rfl
  | colon members key =>
      obtain ⟨rest, hrest⟩ := hopen
      rw [hrest, Parsing.run_cons]
      rfl
  | afterValue v =>
      obtain ⟨rest, hrest⟩ := hopen
      rw [hrest, Parsing.run_cons]
      cases stack with
      | nil => rfl
      | cons frame stack => cases frame <;> rfl

theorem prints_document (v : JsonValue) {before : String} {tokens : List Token}
    (hb : Prints before tokens) :
    Lexing.run .between ((before ++ v.pretty 0 ++ "\n").toList ++ ['\n']) =
      some (tokens ++ v.tokens, .between) := by
  have hall := ((hb.append (prints_pretty v 0)).append prints_lineEnd).append prints_lineEnd
  simp only [List.append_nil] at hall
  rw [Prints, String.toList_append] at hall
  exact hall

/-- A printed value with blanks before it and a line end after it is a document of that value. -/
theorem read_pretty (v : JsonValue) {before : String} (hb : ∀ c ∈ before.toList, isBlank c = true) :
    Json.read (before ++ v.pretty 0 ++ "\n") = some v.document := by
  have hbefore : Prints before [] := Lexes.blanks hb
  have hrun := run_tokens v [] []
  rw [List.append_nil] at hrun
  rw [Json.read, prints_document v hbefore]
  change (Parsing.run ⟨[], .value⟩ v.tokens).bind _ = _
  rw [hrun]
  rfl

/-- A printed list with lines before it that are not all blank is no document. -/
theorem read_pretty_eq_none (items : List JsonValue) {before : String} {cs : List Char}
    (hline : before.toList = cs ++ ['\n']) (hb : ¬∀ c ∈ before.toList, isBlank c = true) :
    Json.read (before ++ (list items).pretty 0 ++ "\n") = none := by
  cases hrun : Lexing.run .between before.toList with
  | none =>
      rw [Json.read, String.append_assoc, String.toList_append, List.append_assoc,
        Lexing.run_append, hrun]
      rfl
  | some found =>
      obtain ⟨tokens, l⟩ := found
      have hl : l = .between := by
        rw [hline] at hrun
        exact Lexing.run_lineEnd hrun
      subst hl
      have hbefore : Prints before tokens := hrun
      have hne : tokens ≠ [] := by
        rintro rfl
        exact hb (Lexes.blank_of_nil hbefore)
      rw [Json.read, prints_document _ hbefore]
      change (Parsing.run .initial (tokens ++ (list items).tokens)).bind _ = none
      rw [Parsing.run_append]
      cases hp : Parsing.run .initial tokens with
      | none => rfl
      | some p => exact value?_run_list (Parsing.run_ne_initial hne hp) items

end JsonValue

end DeclarativeBuild
