import DeclarativeBuild.Shell.Regex

/-!
# Rules over records

The programs of `awk`: rules, each with a pattern that chooses records and an action that runs for
them, and functions that actions call.
-/

namespace DeclarativeBuild
namespace Shell
namespace Record

mutual

/-- What can be assigned to. -/
inductive Place where
  | variable (name : String)
  | element (table : String) (subscripts : List Expr)
  | field (index : Expr)

inductive Expr where
  | number (x : Float)
  | text (s : String)
  /-- An expression in slashes, which is a match with the record unless a pattern is wanted. -/
  | pattern (e : Regex)
  | place (p : Place)
  | assign (p : Place) (operator : Option String) (e : Expr)
  /-- A step up or down, which yields the value before or after it. -/
  | step (p : Place) (up yieldsOld : Bool)
  | unary (operator : String) (e : Expr)
  | binary (operator : String) (left right : Expr)
  | both (left right : Expr)
  | either (left right : Expr)
  | choice (condition yes no : Expr)
  | matching (negated : Bool) (subject pattern : Expr)
  | member (subscripts : List Expr) (table : String)
  | call (function : String) (args : List Expr)
  | builtin (name : String) (args : List Expr)
  /-- Reads a record from the main input, into a place or as the record. -/
  | readMain (target : Option Place)
  | readFile (target : Option Place) (file : Expr)
  | readCommand (target : Option Place) (command : Expr)
  /-- Expressions in parentheses. -/
  | list (es : List Expr)

end

/-- Where `print` writes to: a file, with or without what is in it, or the input of a command. -/
inductive OutputKind where
  | file
  | append
  | command
deriving DecidableEq, Repr

inductive Statement where
  | expression (e : Expr)
  | print (formatted : Bool) (args : List Expr) (target : Option (OutputKind × Expr))
  | block (body : List Statement)
  | conditional (condition : Expr) (yes no : Statement)
  /-- A loop with a condition, which is looked at first or last, and a step after each turn. -/
  | loop (testsFirst : Bool) (condition : Option Expr) (step body : Statement)
  | each (name table : String) (body : Statement)
  | delete (table : String) (subscripts : List Expr)
  | clear (table : String)
  | leaveLoop
  | nextTurn
  | nextRecord
  | nextFile
  | exit (code : Option Expr)
  | giveBack (value : Option Expr)

/-- Which records an action runs for. -/
inductive Pattern where
  | start
  | finish
  | always
  | condition (e : Expr)
  | range (first last : Expr)

structure Rule where
  pattern : Pattern
  action : Statement

structure Function where
  parameters : List String
  body : Statement

structure Program where
  rules : List Rule := []
  functions : List (String × Function) := []

namespace Program

/-- The actions that run before or after all records. -/
def actionsAt (p : Program) (atStart : Bool) : List Statement :=
  p.rules.filterMap fun r =>
    match r.pattern, atStart with
    | .start, true | .finish, false => some r.action
    | _, _ => none

/-- Whether any rule needs the records to be read. -/
def readsRecords (p : Program) : Bool :=
  p.rules.any fun r =>
    match r.pattern with
    | .start => false
    | _ => true

end Program

end Record
end Shell
end DeclarativeBuild
