import DeclarativeBuild.Proofs.Task.Expansions

/-!
# Paths that are written

An element writes the paths of sources, objects, libraries, include directories and listed files as
templates.  Each is settled when the element is read: what its template expands to, seen from the
directory of the description.
-/

namespace DeclarativeBuild

/-- A text that an element writes for a path, with the path that is read for it. -/
inductive Scope.Settles (s : Scope) (e : Element) : String → Path → Prop
  | source {outer? : Option Compiler} {o : ObjectTask} {template text : String} {path : Path}
      (read : ObjectTask.ofElement s outer? e = .ok o)
      (written : e.attribute? "src" = some template)
      (expands : s.props.expand template = .ok text) (place : path ∈ o.sources) :
      s.Settles e text path
  | prebuilt {outer? : Option Compiler} {o : ObjectTask} {template text : String} {path : Path}
      (read : ObjectTask.ofElement s outer? e = .ok o)
      (written : e.attribute? "file" = some template)
      (expands : s.props.expand template = .ok text) (place : o.file? = some path) :
      s.Settles e text path
  | placed {outer? : Option Compiler} {o : ObjectTask} {template text : String} {path : Path}
      (read : ObjectTask.ofElement s outer? e = .ok o) (unnamed : e.attribute? "file" = none)
      (written : e.attribute? "output" = some template)
      (expands : s.props.expand template = .ok text) (place : path ∈ o.outputs) :
      s.Settles e text path
  | library {mode : LinkMode} {b : BinaryTask} {child : Element} {template text : String}
      {path : Path} (read : BinaryTask.ofElement s mode e = .ok b)
      (written : child.attribute? "libpath" = some template)
      (expands : s.props.expand template = .ok text)
      (place : (child, path) ∈ (e.childrenNamed "link").zip b.libraries) : s.Settles e text path
  | included {params : Params} {child : Element} {template text dir : String}
      (read : Params.ofElement s.props s.base e = .ok params)
      (written : child.attribute? "dir" = some template)
      (expands : s.props.expand template = .ok text)
      (place : (child, dir) ∈ (e.childrenNamed "include").zip params.includes) :
      s.Settles e text ⟨dir⟩
  | listed {f : Fileset} {child : Element} {template text : String} {path : Path}
      (read : Fileset.ofElement s.props s.base e = .ok f)
      (written : child.attribute? "path" = some template)
      (expands : s.props.expand template = .ok text)
      (place : (child, .file path) ∈ e.children.zip f.sources) : s.Settles e text path

variable {s : Scope} {e child : Element} {template text : String} {path : Path}

theorem Scope.path_of_expand (h : s.props.expand template = .ok text) :
    s.path template = .ok (s.base.join ⟨text⟩) := by
  rw [Scope.path, h]
  rfl

namespace ObjectTask

variable {outer? : Option Compiler} {o : ObjectTask}

theorem sources_of_ofElement (h : ObjectTask.ofElement s outer? e = .ok o)
    (hsrc : e.attribute? "src" = some template) (hpath : s.path template = .ok path) :
    o.sources = [path] := by
  have hsources := (ofElement_eq_ok_iff.mp h).sources_eq
  simp only [readSources, hsrc, hpath] at hsources
  exact (Except.ok.inj hsources).symm

theorem file?_of_ofElement (h : ObjectTask.ofElement s outer? e = .ok o)
    (hfile : e.attribute? "file" = some template) (hpath : s.path template = .ok path) :
    o.file? = some path := by
  obtain ⟨file, hplace, hsome, -⟩ := (ofElement_eq_ok_iff.mp h).prebuilt hfile
  rw [hsome, Except.ok.inj (hpath.symm.trans hplace)]

theorem outputs_of_ofElement (h : ObjectTask.ofElement s outer? e = .ok o)
    (hfile : e.attribute? "file" = none) (houtput : e.attribute? "output" = some template)
    (hpath : s.path template = .ok path) : o.outputs = [path] := by
  obtain ⟨_, output, -, hplace, houtputs⟩ := (ofElement_eq_ok_iff.mp h).placed hfile houtput
  rw [houtputs, Except.ok.inj (hpath.symm.trans hplace)]

end ObjectTask

theorem BinaryTask.library_of_ofElement {mode : LinkMode} {b : BinaryTask} {found : Path}
    (h : BinaryTask.ofElement s mode e = .ok b)
    (hlib : child.attribute? "libpath" = some template) (hpath : s.path template = .ok path)
    (hm : (child, found) ∈ (e.childrenNamed "link").zip b.libraries) : found = path := by
  have hread := (List.forall₂_iff_zip.mp (readFrom_of_ofElement h).libraries).2 hm
  rw [Element.require_eq_ok_iff.mpr hlib] at hread
  exact Except.ok.inj (hread.symm.trans hpath)

theorem Params.include_of_ofElement {params : Params} {dir : String}
    (h : Params.ofElement s.props s.base e = .ok params)
    (hdir : child.attribute? "dir" = some template) (hexpand : s.props.expand template = .ok text)
    (hm : (child, dir) ∈ (e.childrenNamed "include").zip params.includes) :
    dir = (s.base.join ⟨text⟩).text := by
  have hread := (List.forall₂_iff_zip.mp (expandedFrom_of_ofElement h).includes).2 hm
  obtain ⟨_, _, hwritten, hexpanded, heq⟩ := hread
  obtain rfl := Option.some.inj (hwritten.symm.trans hdir)
  obtain rfl := Except.ok.inj (hexpanded.symm.trans hexpand)
  exact heq

theorem Fileset.file_of_ofElement {f : Fileset} {found : Path}
    (h : Fileset.ofElement s.props s.base e = .ok f)
    (hpath : child.attribute? "path" = some template)
    (hexpand : s.props.expand template = .ok text)
    (hm : (child, .file found) ∈ e.children.zip f.sources) : found = s.base.join ⟨text⟩ := by
  have hread := (List.forall₂_iff_zip.mp (expandedFrom_of_ofElement h).sources).2 hm
  generalize hsource : FileSource.file found = source at hread
  cases hread with
  | file tag_eq written expands =>
      obtain rfl := Option.some.inj (written.symm.trans hpath)
      obtain rfl := Except.ok.inj (expands.symm.trans hexpand)
      exact FileSource.file.inj hsource
  | wildcard => cases hsource

/-- Whatever an element writes, its path is seen from the directory of the description. -/
theorem Scope.Settles.path_eq (h : s.Settles e text path) : path = s.base.join ⟨text⟩ := by
  cases h with
  | source read written expands place =>
      rw [ObjectTask.sources_of_ofElement read written (path_of_expand expands)] at place
      exact List.mem_singleton.mp place
  | prebuilt read written expands place =>
      rw [ObjectTask.file?_of_ofElement read written (path_of_expand expands)] at place
      exact (Option.some.inj place).symm
  | placed read unnamed written expands place =>
      rw [ObjectTask.outputs_of_ofElement read unnamed written (path_of_expand expands)] at place
      exact List.mem_singleton.mp place
  | library read written expands place =>
      exact BinaryTask.library_of_ofElement read written (path_of_expand expands) place
  | included read written expands place =>
      exact congrArg Path.mk (Params.include_of_ofElement read written expands place)
  | listed read written expands place =>
      exact Fileset.file_of_ofElement read written expands place

end DeclarativeBuild
