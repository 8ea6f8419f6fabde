import DeclarativeBuild.Failure

/-!
# Source languages

The two languages that compilers are chosen by, and the tags and file extensions they go by.
-/

namespace DeclarativeBuild

inductive Language where
  | c
  | cxx
deriving DecidableEq, Inhabited, Repr

namespace Language

/-- The tag that descriptions use. -/
def tag : Language → String
  | c => "c"
  | cxx => "cpp"

/-- The language of a tag in a description. -/
def ofTag? (text : String) : Option Language :=
  if ["c", "C"].contains text then some c
  else if ["cpp", "cxx", "c++", "C++"].contains text then some cxx
  else none

/-- The language of a stored value, where letter case counts. -/
def ofStored? (text : String) : Option Language :=
  if text == "c" then some c
  else if ["cpp", "cxx", "c++"].contains text then some cxx
  else none

/-- The letters of `A` to `Z` in lower case, and all else as it is. -/
def lowerAscii (text : String) : String :=
  String.ofList (text.toList.map Char.toLower)

/-- The language of the files with an extension; headers have none. -/
def ofExtension? (extension : String) : Option Language :=
  let lower := lowerAscii extension
  if lower == "c" then some c
  else if ["cc", "cpp", "c++", "cxx"].contains lower then some cxx
  else none

def unknownTagMessage (text : String) : String :=
  "invalid language '" ++ text ++ "', valid values: c, cpp"

theorem ofTag?_tag (l : Language) : ofTag? l.tag = some l := by
  cases l <;> decide

theorem ofTag?_of_ofStored? {text : String} {l : Language} (h : ofStored? text = some l) :
    ofTag? text = some l := by
  unfold ofStored? at h
  split at h
  · next hc => simp_all [ofTag?]
  · split at h
    · next hx =>
      simp only [List.contains_eq_mem, List.mem_cons, List.not_mem_nil, or_false,
        decide_eq_true_eq] at hx
      rcases hx with rfl | rfl | rfl <;> simp_all [ofTag?]
    · simp at h

end Language

end DeclarativeBuild
