import DeclarativeBuild.Proofs.Compiler.DrivePaths
import DeclarativeBuild.Proofs.Task.Reading

/-!
# Lines on the drive

A line is words with blanks between them, and whoever reads it takes it apart at the blanks.  Its
words come back exactly if each path on it is one operand: below the mounted directory, not the
directory itself, and without a blank in what is kept of its names.
-/

namespace DeclarativeBuild
namespace WatcomDriver

open ShortName Text

/-- Names without blanks, at least one, lead down to the path. -/
def IsOperand (d : WatcomDriver) (p : Path) : Prop :=
  ∃ names, d.LeadsTo p names ∧ names ≠ [] ∧
    ∀ name ∈ names, ' ' ∉ dotted (base name.toList) (extension name.toList)

/-- A word of a line: a given text, or a path behind what leads it in. -/
inductive Word where
  | given (text : String)
  | path (lead : String) (p : Path)

/-- How a word is put on the line. -/
inductive Word.Written (d : WatcomDriver) : Word → String → Prop
  | given (text : String) : Word.Written d (.given text) text
  | path {lead operand : String} {p : Path} (h : d.drivePath p = .ok operand) :
      Word.Written d (.path lead p) (lead ++ operand)

/-- What a word is to be read as. -/
inductive Word.Read : Word → String → Prop
  | given (text : String) : Word.Read (.given text) text
  | path {operand : String} (h : operand ≠ "") (lead : String) (p : Path) :
      Word.Read (.path lead p) (lead ++ operand)

/-- Whether a word has blanks of its own. -/
def Word.IsPlain : Word → Prop
  | .given text => ' ' ∉ text.toList
  | .path lead _ => ' ' ∉ lead.toList

/-- The words of the line that compiles one source. -/
def objectWords (d : WatcomDriver) (source : Path) (p : Params) : List Word :=
  [.given d.driver, .given "/c", .path "" source, .given "/fo=OUT.OBJ"] ++
    (GnuDriver.optional p.debugSymbols "/d2").map .given ++
    (p.defines.map ("/d" ++ ·)).map .given ++
    (p.includes.map Path.mk).map (.path "/i=") ++ p.opts.map .given

/-- The words of the line that links objects and libraries. -/
def executableWords (d : WatcomDriver) (objects libraries : List Path) (p : Params) : List Word :=
  [.given d.driver, .given "/l=dos", .given "/fe=OUT.EXE"] ++
    (GnuDriver.optional p.debugSymbols "/d2").map .given ++
    objects.map (.path "") ++ libraries.map (.path "") ++ p.opts.map .given

theorem ofName_ne_empty {name : String} (h : Path.isIdle name = false) : ofName name ≠ "" := by
  intro hempty
  have hsegment : ofSegment name.toList = [] := by
    rw [← String.toList_ofList (l := ofSegment _)]
    exact String.toList_eq_nil_iff.mpr hempty
  rw [ofSegment_eq, uppercase_eq_nil_iff, dotted, List.append_eq_nil_iff] at hsegment
  obtain ⟨hbase, hextension⟩ := hsegment
  have hfirst : (halves name.toList).1 = [] := by
    unfold base shortenBase at hbase
    split at hbase
    · simp at hbase
    · exact hbase
  have hsecond : (halves name.toList).2 = [] := by
    have htake : extension name.toList = [] := by simpa using hextension
    simpa [extension, maxExtension] using htake
  have hname : name.toList = [] ∨ name.toList = ['.'] := by
    unfold halves at hfirst hsecond
    cases hc : cutFirst '.' name.toList with
    | none => 
        rw [hc] at hfirst
        exact .inl hfirst
    | some found =>
        obtain ⟨before, after⟩ := found
        rw [hc] at hfirst hsecond
        obtain rfl : before = [] := hfirst
        obtain rfl : after = [] := hsecond
        exact .inr (eq_of_cutFirst_eq_some hc).2
  have hidle : Path.isIdle name = true := by
    rcases hname with hname | hname
    · obtain rfl : name = "" := String.toList_inj.mp hname
      decide
    · obtain rfl : name = "." := String.toList_inj.mp hname
      decide
  rw [hidle] at h
  cases h

theorem joined_names_eq_empty_iff {names : List String}
    (h : ∀ name ∈ names, Path.isIdle name = false) :
    "\\".intercalate (names.map ofName) = "" ↔ names = [] := by
  refine ⟨fun hempty => ?_, fun hnone => by rw [hnone]; rfl⟩
  cases names with
  | nil => rfl
  | cons first rest =>
      have hfirst := ofName_ne_empty (h first List.mem_cons_self)
      rw [List.map_cons] at hempty
      cases rest with
      | nil => exact absurd hempty hfirst
      | cons second more =>
          rw [List.map_cons, String.intercalate_cons_cons, String.append_eq_empty_iff,
            String.append_eq_empty_iff] at hempty
          exact absurd hempty.1.1 hfirst

/-- The name of a path on the drive is one operand exactly if it is not empty and has no blank. -/
theorem isOperand_iff {d : WatcomDriver} {p : Path} {operand : String}
    (h : d.drivePath p = .ok operand) :
    d.IsOperand p ↔ operand ≠ "" ∧ ' ' ∉ operand.toList := by
  obtain ⟨names, hleads, -, rfl⟩ := drivePath_eq_ok_iff.mp h
  have hblank : ' ' ∉ ("\\".intercalate (names.map ofName)).toList ↔
      ∀ name ∈ names, ' ' ∉ dotted (base name.toList) (extension name.toList) := by
    have hjoined : ' ' ∈ ("\\".intercalate (names.map ofName)).toList ↔
        ∃ t ∈ names.map ofName, ' ' ∈ t.toList :=
      mem_joined_iff '\\' (by decide)
    rw [← not_iff_not] at hjoined
    refine hjoined.trans ?_
    simp [mem_ofName_iff (show ' ' ∈ separators by decide)]
  rw [hblank, ne_eq, joined_names_eq_empty_iff fun name hm => (hleads.of_mem hm).2.1]
  constructor
  · rintro ⟨others, hothers, hne, hplain⟩
    obtain rfl := hleads.unique hothers
    exact ⟨hne, hplain⟩
  · rintro ⟨hne, hplain⟩
    exact ⟨names, hleads, hne, hplain⟩

theorem Word.Written.read_iff {d : WatcomDriver} {word : Word} {text : String}
    (h : word.Written d text) (hplain : word.IsPlain) :
    word.Read text ∧ ' ' ∉ text.toList ↔ ∀ lead p, .path lead p = word → d.IsOperand p := by
  cases h with
  | given => simpa using ⟨.given text, hplain⟩
  | @path lead operand p hoperand =>
      have hread : (Word.path lead p).Read (lead ++ operand) ↔ operand ≠ "" := by
        refine ⟨fun hread => ?_, fun hne => .path hne lead p⟩
        generalize heq : lead ++ operand = text at hread
        cases hread with
        | path hne =>
            obtain rfl := (String.append_right_inj lead).mp heq
            exact hne
      have hblank : ' ' ∉ (lead ++ operand).toList ↔ ' ' ∉ operand.toList := by
        rw [String.toList_append, List.mem_append, not_or]
        exact and_iff_right hplain
      rw [hread, hblank, ← isOperand_iff hoperand]
      simp

variable {d : WatcomDriver} {layout : List Word} {texts : List String}

theorem forall₂_read_iff (h : List.Forall₂ (Word.Written d) layout texts)
    (hplain : ∀ word ∈ layout, word.IsPlain) :
    List.Forall₂ Word.Read layout texts ∧ (∀ text ∈ texts, ' ' ∉ text.toList) ↔
      ∀ lead p, .path lead p ∈ layout → d.IsOperand p := by
  induction h with
  | nil => simp
  | @cons word text layout texts hword _ ih =>
      have hfirst := hword.read_iff (hplain word List.mem_cons_self)
      have hrest := ih fun w hw => hplain w (List.mem_cons_of_mem word hw)
      simp only [List.forall₂_cons, List.mem_cons, or_imp, forall_and, forall_eq]
      rw [and_and_and_comm, hfirst, hrest]

/-- Words come back from the line that they are on exactly if its paths are operands, and then they
come back as they were written. -/
theorem forall₂_read_splitString_iff (hne : layout ≠ [])
    (h : List.Forall₂ (Word.Written d) layout texts) (hplain : ∀ word ∈ layout, word.IsPlain) :
    (List.Forall₂ Word.Read layout (splitString ' ' (" ".intercalate texts)) ↔
      ∀ lead p, .path lead p ∈ layout → d.IsOperand p) ∧
    (List.Forall₂ Word.Read layout (splitString ' ' (" ".intercalate texts)) →
      List.Forall₂ (Word.Written d) layout (splitString ' ' (" ".intercalate texts))) := by
  have htexts : texts ≠ [] := by
    rintro rfl
    cases h
    exact hne rfl
  have hsplit : (∀ text ∈ texts, ' ' ∉ text.toList) →
      splitString ' ' (" ".intercalate texts) = texts :=
    splitString_joined_of_notMem htexts
  have hblank : List.Forall₂ Word.Read layout (splitString ' ' (" ".intercalate texts)) →
      ∀ text ∈ texts, ' ' ∉ text.toList := by
    intro hread
    exact (length_splitString_joined_iff htexts).mp (hread.length_eq.symm.trans h.length_eq)
  rw [← forall₂_read_iff h hplain]
  refine ⟨⟨fun hread => ?_, fun ⟨hread, hplain⟩ => ?_⟩, fun hread => ?_⟩
  · have hnone := hblank hread
    exact ⟨hsplit hnone ▸ hread, hnone⟩
  · rw [hsplit hplain]
    exact hread
  · rw [hsplit (hblank hread)]
    exact h

/-- A line is written from a layout with these paths on it, or one of them is refused. -/
structure LineOf (d : WatcomDriver) (layout : List Word) (paths : List Path)
    (result : Except Failure String) : Prop where
  read_iff : ∀ line, result = .ok line →
    (List.Forall₂ Word.Read layout (splitString ' ' line) ↔ ∀ p ∈ paths, d.IsOperand p)
  written : ∀ line, result = .ok line → List.Forall₂ Word.Read layout (splitString ' ' line) →
    List.Forall₂ (Word.Written d) layout (splitString ' ' line)
  refused : ∀ failure, result = .error failure →
    (∃ p ∈ paths, d.drivePath p = .error failure) ∧
      ∃ text fault, failure = .incompatiblePath text fault

theorem LineOf.of_written {paths : List Path} {result : Except Failure String} (hne : layout ≠ [])
    (hplain : ∀ word ∈ layout, word.IsPlain)
    (hpaths : ∀ p, (∃ lead, .path lead p ∈ layout) ↔ p ∈ paths)
    (hok : ∀ line, result = .ok line →
      ∃ texts, List.Forall₂ (Word.Written d) layout texts ∧ line = " ".intercalate texts)
    (herror : ∀ failure, result = .error failure → ∃ p ∈ paths, d.drivePath p = .error failure) :
    LineOf d layout paths result := by
  have hoperands : (∀ lead p, .path lead p ∈ layout → d.IsOperand p) ↔
      ∀ p ∈ paths, d.IsOperand p := by
    simp only [← hpaths]
    exact ⟨fun h p ⟨lead, hmem⟩ => h lead p hmem, fun h lead p hmem => h p ⟨lead, hmem⟩⟩
  refine ⟨fun line hline => ?_, fun line hline => ?_, fun failure hfailure => ?_⟩
  · obtain ⟨texts, htexts, rfl⟩ := hok line hline
    rw [← hoperands]
    exact (forall₂_read_splitString_iff hne htexts hplain).1
  · obtain ⟨texts, htexts, rfl⟩ := hok line hline
    exact (forall₂_read_splitString_iff hne htexts hplain).2
  · obtain ⟨p, hp, hrefused⟩ := herror failure hfailure
    exact ⟨⟨p, hp, hrefused⟩, exists_of_drivePath_eq_error hrefused⟩

theorem forall₂_written_given (d : WatcomDriver) (texts : List String) :
    List.Forall₂ (Word.Written d) (texts.map .given) texts := by
  rw [List.forall₂_map_left_iff, List.forall₂_same]
  exact fun text _ => .given text

theorem forall₂_written_path {lead : String} {paths : List Path}
    (h : d.drivePaths paths = .ok texts) :
    List.Forall₂ (Word.Written d) (paths.map (.path lead)) (texts.map (lead ++ ·)) := by
  rw [List.forall₂_map_left_iff, List.forall₂_map_right_iff]
  exact (mapM_eq_ok_iff.mp h).imp fun p text => .path

theorem forall₂_written_objectWords {source : Path} {p : Params} {line : String}
    (h : d.objectLine source p = .ok line) :
    ∃ texts, List.Forall₂ (Word.Written d) (d.objectWords source p) texts ∧
      line = " ".intercalate texts := by
  obtain ⟨operand, hoperand, h⟩ := bind_eq_ok_iff.mp h
  obtain ⟨includes, hincludes, h⟩ := bind_eq_ok_iff.mp h
  cases h
  refine ⟨_, ?_, rfl⟩
  have hstart : List.Forall₂ (Word.Written d)
      [.given d.driver, .given "/c", .path "" source, .given "/fo=OUT.OBJ"]
      [d.driver, "/c", operand, "/fo=" ++ objectOutput] :=
    .cons (.given _) (.cons (.given _) (.cons (.path hoperand) (.cons (.given _) .nil)))
  have hdebug := forall₂_written_given d (GnuDriver.optional p.debugSymbols "/d2")
  have hdefines := forall₂_written_given d (p.defines.map ("/d" ++ ·))
  have hdirectories : List.Forall₂ (Word.Written d) ((p.includes.map Path.mk).map (.path "/i="))
      (includes.map ("/i=" ++ ·)) :=
    forall₂_written_path hincludes
  have hopts := forall₂_written_given d p.opts
  refine List.rel_append ?_ hopts
  refine List.rel_append ?_ hdirectories
  refine List.rel_append ?_ hdefines
  exact List.rel_append hstart hdebug

theorem forall₂_written_executableWords {objects libraries : List Path} {p : Params}
    {line : String} (h : d.executableLine objects libraries p = .ok line) :
    ∃ texts, List.Forall₂ (Word.Written d) (d.executableWords objects libraries p) texts ∧
      line = " ".intercalate texts := by
  obtain ⟨objectNames, hobjects, h⟩ := bind_eq_ok_iff.mp h
  obtain ⟨libraryNames, hlibraries, h⟩ := bind_eq_ok_iff.mp h
  cases h
  refine ⟨_, ?_, rfl⟩
  have hbare : ∀ {paths : List Path} {names : List String}, d.drivePaths paths = .ok names →
      List.Forall₂ (Word.Written d) (paths.map (.path "")) names := by
    intro paths names hnames
    have hwritten : List.Forall₂ (Word.Written d) (paths.map (.path "")) (names.map ("" ++ ·)) :=
      forall₂_written_path hnames
    simpa using hwritten
  have hstart := forall₂_written_given d [d.driver, "/l=dos", "/fe=" ++ executableOutput]
  have hdebug := forall₂_written_given d (GnuDriver.optional p.debugSymbols "/d2")
  have hopts := forall₂_written_given d p.opts
  refine List.rel_append ?_ hopts
  refine List.rel_append ?_ (hbare hlibraries)
  refine List.rel_append ?_ (hbare hobjects)
  exact List.rel_append hstart hdebug

/-- A line that compiles is written unless one of its paths is refused. -/
theorem exists_of_objectLine_eq_error {source : Path} {p : Params} {failure : Failure}
    (h : d.objectLine source p = .error failure) :
    ∃ q ∈ source :: p.includes.map Path.mk, d.drivePath q = .error failure := by
  obtain hsource | ⟨_, -, h⟩ := bind_eq_error_iff.mp h
  · exact ⟨source, List.mem_cons_self, hsource⟩
  · obtain hincludes | ⟨_, -, h⟩ := bind_eq_error_iff.mp h
    · obtain ⟨q, hq, hrefused⟩ := exists_of_mapM_eq_error hincludes
      exact ⟨q, List.mem_cons_of_mem source hq, hrefused⟩
    · cases h

/-- A line that links is written unless one of its paths is refused. -/
theorem exists_of_executableLine_eq_error {objects libraries : List Path} {p : Params}
    {failure : Failure} (h : d.executableLine objects libraries p = .error failure) :
    ∃ q ∈ objects ++ libraries, d.drivePath q = .error failure := by
  obtain hobjects | ⟨_, -, h⟩ := bind_eq_error_iff.mp h
  · obtain ⟨q, hq, hrefused⟩ := exists_of_mapM_eq_error hobjects
    exact ⟨q, List.mem_append_left _ hq, hrefused⟩
  · obtain hlibraries | ⟨_, -, h⟩ := bind_eq_error_iff.mp h
    · obtain ⟨q, hq, hrefused⟩ := exists_of_mapM_eq_error hlibraries
      exact ⟨q, List.mem_append_right _ hq, hrefused⟩
    · cases h

/-- All paths on a line have names on the drive. -/
theorem drivePath_of_objectLine {source : Path} {p : Params} {line : String}
    (h : d.objectLine source p = .ok line) {q : Path}
    (hq : q ∈ source :: p.includes.map Path.mk) : ∃ operand, d.drivePath q = .ok operand := by
  obtain ⟨operand, hoperand, h⟩ := bind_eq_ok_iff.mp h
  obtain ⟨includes, hincludes, -⟩ := bind_eq_ok_iff.mp h
  rcases List.mem_cons.mp hq with rfl | hq
  · exact ⟨operand, hoperand⟩
  · exact exists_of_mapM_eq_ok hincludes hq

theorem drivePath_of_executableLine {objects libraries : List Path} {p : Params} {line : String}
    (h : d.executableLine objects libraries p = .ok line) {q : Path}
    (hq : q ∈ objects ++ libraries) : ∃ operand, d.drivePath q = .ok operand := by
  obtain ⟨objectNames, hobjects, h⟩ := bind_eq_ok_iff.mp h
  obtain ⟨libraryNames, hlibraries, -⟩ := bind_eq_ok_iff.mp h
  rcases List.mem_append.mp hq with hq | hq
  · exact exists_of_mapM_eq_ok hobjects hq
  · exact exists_of_mapM_eq_ok hlibraries hq

theorem blank_notMem_of_mem_optional {condition : Bool} {text : String}
    (h : text ∈ GnuDriver.optional condition "/d2") : ' ' ∉ text.toList := by
  cases condition with
  | false => simp [GnuDriver.optional] at h
  | true =>
      obtain rfl : text = "/d2" := by simpa [GnuDriver.optional] using h
      decide

theorem lineOf_objectLine {p : Params} (hdriver : ' ' ∉ d.driver.toList)
    (hdefines : ∀ define ∈ p.defines, ' ' ∉ define.toList)
    (hopts : ∀ opt ∈ p.opts, ' ' ∉ opt.toList) (source : Path) :
    LineOf d (d.objectWords source p) (source :: p.includes.map Path.mk)
      (d.objectLine source p) := by
  refine LineOf.of_written (by simp [objectWords]) ?_ ?_
    (fun line => forall₂_written_objectWords) ?_
  · simp only [objectWords, List.forall_mem_append, List.forall_mem_cons, List.forall_mem_map,
      List.not_mem_nil, false_implies, implies_true, and_true, Word.IsPlain]
    refine ⟨⟨⟨⟨⟨hdriver, by decide, by decide, by decide⟩, ?_⟩, ?_⟩, ?_⟩, hopts⟩
    · exact fun text => blank_notMem_of_mem_optional
    · intro define hdefine
      rw [String.toList_append, List.mem_append, not_or]
      exact ⟨by decide, hdefines define hdefine⟩
    · exact fun _ _ => by decide
  · intro q
    simp [objectWords, exists_or]
  · exact fun failure => exists_of_objectLine_eq_error

theorem lineOf_executableLine {p : Params} (hdriver : ' ' ∉ d.driver.toList)
    (hopts : ∀ opt ∈ p.opts, ' ' ∉ opt.toList) (objects libraries : List Path) :
    LineOf d (d.executableWords objects libraries p) (objects ++ libraries)
      (d.executableLine objects libraries p) := by
  refine LineOf.of_written (by simp [executableWords]) ?_ ?_
    (fun line => forall₂_written_executableWords) ?_
  · simp only [executableWords, List.forall_mem_append, List.forall_mem_cons, List.forall_mem_map,
      List.not_mem_nil, false_implies, implies_true, and_true, Word.IsPlain]
    refine ⟨⟨⟨⟨⟨hdriver, by decide, by decide⟩, ?_⟩, ?_⟩, ?_⟩, hopts⟩
    · exact fun text => blank_notMem_of_mem_optional
    · exact fun _ _ => by decide
    · exact fun _ _ => by decide
  · intro q
    simp [executableWords, exists_or]
  · exact fun failure => exists_of_executableLine_eq_error

/-- The lines that compile and link can be taken apart at their blanks exactly if each source,
include directory, object and library on them is below the mounted directory, not that directory
itself, and kept without a blank.  A line is not written if a path has no name on the drive. -/
theorem lines_read_iff_operands (d : WatcomDriver) (p : Params) (hdriver : ' ' ∉ d.driver.toList)
    (hdefines : ∀ define ∈ p.defines, ' ' ∉ define.toList)
    (hopts : ∀ opt ∈ p.opts, ' ' ∉ opt.toList) :
    (∀ source, LineOf d (d.objectWords source p) (source :: p.includes.map Path.mk)
      (d.objectLine source p)) ∧
    ∀ objects libraries, LineOf d (d.executableWords objects libraries p) (objects ++ libraries)
      (d.executableLine objects libraries p) :=
  ⟨lineOf_objectLine hdriver hdefines hopts, lineOf_executableLine hdriver hopts⟩

/-- A compiler with `/work` for its drive. -/
def onWork : WatcomDriver where
  emulator := ⟨"dosbox"⟩
  emulatorArgs := []
  driver := "wcl"
  mount := ⟨"/work"⟩

theorem lines_read_iff_operands_onWork :
    onWork.objectLine ⟨"/work/src/main.c"⟩ { includes := ["/work/include"], defines := ["X=1"] } =
        .ok "wcl /c SRC\\MAIN.C /fo=OUT.OBJ /dX=1 /i=INCLUDE" ∧
      List.Forall₂ Word.Read
        (onWork.objectWords ⟨"/work/src/main.c"⟩
          { includes := ["/work/include"], defines := ["X=1"] })
        (splitString ' ' "wcl /c SRC\\MAIN.C /fo=OUT.OBJ /dX=1 /i=INCLUDE") := by
  have hline : onWork.objectLine ⟨"/work/src/main.c"⟩
      { includes := ["/work/include"], defines := ["X=1"] } =
        .ok "wcl /c SRC\\MAIN.C /fo=OUT.OBJ /dX=1 /i=INCLUDE" := by rfl
  refine ⟨hline, ?_⟩
  have hlines := lines_read_iff_operands onWork
    { includes := ["/work/include"], defines := ["X=1"] } (by decide) (by decide) (by decide)
  rw [(hlines.1 ⟨"/work/src/main.c"⟩).read_iff _ hline]
  have hsource : onWork.IsOperand ⟨"/work/src/main.c"⟩ :=
    ⟨["src", "main.c"], by rfl, by decide, by decide +kernel⟩
  have hinclude : onWork.IsOperand ⟨"/work/include"⟩ :=
    ⟨["include"], by rfl, by decide, by decide +kernel⟩
  simpa using ⟨hsource, hinclude⟩

/-- A file name with a blank makes two words, and the mounted directory makes an empty one. -/
theorem line_not_read :
    (onWork.objectLine ⟨"/work/my file.c"⟩ {} = .ok "wcl /c MY FILE.C /fo=OUT.OBJ" ∧
      ¬List.Forall₂ Word.Read (onWork.objectWords ⟨"/work/my file.c"⟩ {})
        (splitString ' ' "wcl /c MY FILE.C /fo=OUT.OBJ")) ∧
    onWork.objectLine ⟨"/work/main.c"⟩ { includes := ["/work"] } =
        .ok "wcl /c MAIN.C /fo=OUT.OBJ /i=" ∧
      ¬List.Forall₂ Word.Read (onWork.objectWords ⟨"/work/main.c"⟩ { includes := ["/work"] })
        (splitString ' ' "wcl /c MAIN.C /fo=OUT.OBJ /i=") := by
  refine ⟨⟨rfl, fun h => ?_⟩, rfl, fun h => ?_⟩
  · have hlength := h.length_eq
    revert hlength
    decide +kernel
  · have hoperands := ((lineOf_objectLine (by decide) (by decide) (by decide) _).read_iff _ rfl).mp h
    obtain ⟨names, hleads, hne, -⟩ := hoperands ⟨"/work"⟩ (by decide)
    have hmount : onWork.LeadsTo ⟨"/work"⟩ [] := by rfl
    exact hne (hmount.unique hleads)

end WatcomDriver
end DeclarativeBuild
