import DeclarativeBuild.Compiler.Gnu
import DeclarativeBuild.Proofs.Disk.Components

/-!
# What a link line asks for

The arguments of a link command, read by the rules of the drivers: some options take the next
argument, one hands its items to the linker, which are parted at commas, and one names a library by
its file name.  A line asks for what it was written for exactly if no library stands in a directory
with a comma in its path.
-/

namespace DeclarativeBuild
namespace GnuDriver

open Text

/-- One thing that a driver is told by its arguments. -/
inductive Order where
  | shared
  | debug
  | output (file : String)
  | operand (file : String)
  | includeDirectory (directory : String)
  | define (definition : String)
  | searchDirectory (directory : String)
  | linkerItems (items : List String)
  | libraryFile (name : String)
deriving DecidableEq

/-- How an argument is taken. -/
inductive Reading where
  | withNext (order : String → Order)
  | alone (order : Order)
  | unknown

/-- The rules of the drivers. -/
def readingOf (arg : String) : Reading :=
  match arg.toList with
  | ['-', 'o'] => .withNext .output
  | ['-', 'I'] => .withNext .includeDirectory
  | ['-', 'D'] => .withNext .define
  | ['-', 'L'] => .withNext .searchDirectory
  | ['-', 'g'] => .alone .debug
  | ['-', 's', 'h', 'a', 'r', 'e', 'd'] => .alone .shared
  | '-' :: 'W' :: 'l' :: ',' :: items => .alone (.linkerItems (splitString ',' (String.ofList items)))
  | '-' :: 'l' :: ':' :: name => .alone (.libraryFile (String.ofList name))
  | '-' :: _ => .unknown
  | _ => .alone (.operand arg)

/-- The orders that arguments give, if all of them can be read. -/
def readOrders : List String → Option (List Order)
  | [] => some []
  | arg :: rest =>
    match readingOf arg, rest with
    | .withNext order, next :: rest => (readOrders rest).map (order next :: ·)
    | .withNext _, [] => none
    | .alone order, rest => (readOrders rest).map (order :: ·)
    | .unknown, _ => none

/-- What the linker makes of its items: the directories that are searched at run time, and files. -/
def readItems : List String → Option (List String × List String)
  | [] => some ([], [])
  | item :: rest =>
    if item = "-rpath" then
      match rest with
      | directory :: rest => (readItems rest).map fun (ds, files) => (directory :: ds, files)
      | [] => none
    else if item.toList.head? = some '-' then none
    else (readItems rest).map fun (ds, files) => (ds, item :: files)

/-- What a link line asks for. -/
structure LinkRequest where
  shared : Bool
  debug : Bool
  outputs : List String
  objects : List String
  includes : List String
  defines : List String
  runtimeDirectories : List String
  searchDirectories : List String
  libraryFiles : List String
  /-- Files that only the linker is told of. -/
  linkerFiles : List String
deriving DecidableEq

namespace Order

def output? : Order → Option String
  | output file => some file
  | _ => none

def operand? : Order → Option String
  | operand file => some file
  | _ => none

def includeDirectory? : Order → Option String
  | includeDirectory directory => some directory
  | _ => none

def define? : Order → Option String
  | define definition => some definition
  | _ => none

def searchDirectory? : Order → Option String
  | searchDirectory directory => some directory
  | _ => none

def libraryFile? : Order → Option String
  | libraryFile name => some name
  | _ => none

def items : Order → List String
  | linkerItems items => items
  | _ => []

end Order

def LinkRequest.ofOrders (orders : List Order) : Option LinkRequest :=
  (readItems (orders.flatMap Order.items)).map fun (runtimeDirectories, linkerFiles) =>
    { shared := orders.contains .shared
      debug := orders.contains .debug
      outputs := orders.filterMap Order.output?
      objects := orders.filterMap Order.operand?
      includes := orders.filterMap Order.includeDirectory?
      defines := orders.filterMap Order.define?
      runtimeDirectories
      searchDirectories := orders.filterMap Order.searchDirectory?
      libraryFiles := orders.filterMap Order.libraryFile?
      linkerFiles }

def LinkRequest.read (args : List String) : Option LinkRequest :=
  readOrders args >>= ofOrders

/-- The link that is to be asked for. -/
def LinkRequest.wanted (mode : LinkMode) (output : Path) (objects libraries : List Path)
    (p : Params) : LinkRequest where
  shared := mode == .sharedLibrary
  debug := p.debugSymbols
  outputs := [output.text]
  objects := objects.map Path.text
  includes := p.includes
  defines := p.defines
  runtimeDirectories := libraries.map fun library => (splitLibrary library).1
  searchDirectories := libraries.map fun library => (splitLibrary library).1
  libraryFiles := libraries.map fun library => (splitLibrary library).2
  linkerFiles := []

/-- Arguments that give the same orders wherever they stand. -/
def Gives (args : List String) (orders : List Order) : Prop :=
  ∀ rest, readOrders (args ++ rest) = (readOrders rest).map (orders ++ ·)

namespace Gives

theorem nil : Gives [] [] := by
  intro rest
  simp

theorem append {args more : List String} {orders orders' : List Order} (h : Gives args orders)
    (h' : Gives more orders') : Gives (args ++ more) (orders ++ orders') := by
  intro rest
  rw [List.append_assoc, h, h', Option.map_map]
  congr 1
  funext later
  simp

theorem flatMap {α : Type} {xs : List α} {f : α → List String} {g : α → List Order}
    (h : ∀ x ∈ xs, Gives (f x) (g x)) : Gives (xs.flatMap f) (xs.flatMap g) := by
  induction xs with
  | nil => exact nil
  | cons x xs ih =>
      rw [List.flatMap_cons, List.flatMap_cons]
      exact (h x List.mem_cons_self).append (ih fun y hy => h y (List.mem_cons_of_mem x hy))

theorem single {arg : String} {order : Order} (h : readingOf arg = .alone order) :
    Gives [arg] [order] := by
  intro rest
  rw [List.singleton_append, readOrders.eq_def]
  simp only [h, List.singleton_append]

theorem pair {arg : String} {order : String → Order} (h : readingOf arg = .withNext order)
    (next : String) : Gives [arg, next] [order next] := by
  intro rest
  rw [List.cons_append, List.singleton_append, readOrders.eq_def]
  simp only [h, List.singleton_append]

theorem readOrders_eq {args : List String} {orders : List Order} (h : Gives args orders) :
    readOrders args = some orders := by
  have hall := h []
  simpa [readOrders] using hall

theorem optional {arg : String} {order : Order} (h : readingOf arg = .alone order)
    (condition : Bool) :
    Gives (GnuDriver.optional condition arg) (if condition then [order] else []) := by
  cases condition with
  | false => exact nil
  | true => exact single h

end Gives

theorem readingOf_of_isAbsolute {p : Path} (h : p.isAbsolute = true) :
    readingOf p.text = .alone (.operand p.text) := by
  obtain ⟨cs, hcs⟩ : ∃ cs, p.text.toList = '/' :: cs := by
    rw [Path.isAbsolute, beq_iff_eq] at h
    exact List.head?_eq_some_iff.mp h
  rw [readingOf, hcs]
  rfl

theorem readingOf_linkerItems (items : String) :
    readingOf ("-Wl," ++ items) = .alone (.linkerItems (splitString ',' items)) := by
  rw [readingOf]
  simp

theorem readingOf_libraryFile (name : String) :
    readingOf ("-l:" ++ name) = .alone (.libraryFile name) := by
  rw [readingOf]
  simp

/-- The arguments of a link before the options that are taken as they are. -/
def linkArgs (mode : LinkMode) (output : Path) (objects libraries : List Path) (p : Params) :
    List String :=
  optional (mode == .sharedLibrary) "-shared" ++ optional p.debugSymbols "-g" ++
    ["-o", output.text] ++ objects.map Path.text ++ includeArgs p ++ defineArgs p ++
    libraries.flatMap libraryArgs

/-- The orders for one library. -/
def libraryOrders (library : Path) : List Order :=
  [.linkerItems (splitString ',' ("-rpath," ++ (splitLibrary library).1)),
    .searchDirectory (splitLibrary library).1, .libraryFile (splitLibrary library).2]

def linkOrders (mode : LinkMode) (output : Path) (objects libraries : List Path) (p : Params) :
    List Order :=
  (if mode == .sharedLibrary then [.shared] else []) ++ (if p.debugSymbols then [.debug] else []) ++
    [.output output.text] ++ objects.map (fun o => .operand o.text) ++
    p.includes.map .includeDirectory ++ p.defines.map .define ++ libraries.flatMap libraryOrders

theorem gives_linkArgs (mode : LinkMode) (output : Path) {objects : List Path}
    (h : ∀ o ∈ objects, o.isAbsolute = true) (libraries : List Path) (p : Params) :
    Gives (linkArgs mode output objects libraries p)
      (linkOrders mode output objects libraries p) := by
  have hobjects : Gives (objects.map Path.text) (objects.map fun o => .operand o.text) := by
    rw [List.map_eq_flatMap, List.map_eq_flatMap]
    exact .flatMap fun o ho => .single (readingOf_of_isAbsolute (h o ho))
  have hincludes : Gives (includeArgs p) (p.includes.map .includeDirectory) := by
    rw [List.map_eq_flatMap]
    exact .flatMap fun directory _ => .pair rfl directory
  have hdefines : Gives (defineArgs p) (p.defines.map .define) := by
    rw [List.map_eq_flatMap]
    exact .flatMap fun definition _ => .pair rfl definition
  have hlibraries : Gives (libraries.flatMap libraryArgs) (libraries.flatMap libraryOrders) := by
    refine .flatMap fun library _ => ?_
    have hitems : Gives ["-Wl,-rpath," ++ (splitLibrary library).1]
        [.linkerItems (splitString ',' ("-rpath," ++ (splitLibrary library).1))] := by
      have hlead : "-Wl,-rpath," ++ (splitLibrary library).1 =
          "-Wl," ++ ("-rpath," ++ (splitLibrary library).1) := by
        rw [← String.append_assoc]
        rfl
      rw [hlead]
      exact .single (readingOf_linkerItems _)
    have hdirectory : Gives ["-L", (splitLibrary library).1]
        [.searchDirectory (splitLibrary library).1] := .pair rfl _
    exact (hitems.append hdirectory).append (.single (readingOf_libraryFile _))
  have hstart : Gives (optional (mode == .sharedLibrary) "-shared" ++
      optional p.debugSymbols "-g" ++ ["-o", output.text])
      ((if mode == .sharedLibrary then [.shared] else []) ++
        (if p.debugSymbols then [.debug] else []) ++ [.output output.text]) :=
    ((Gives.optional rfl _).append (.optional rfl _)).append (.pair rfl _)
  exact (((hstart.append hobjects).append hincludes).append hdefines).append hlibraries

theorem splitString_rpath (directory : String) :
    splitString ',' ("-rpath," ++ directory) = "-rpath" :: splitString ',' directory :=
  splitString_append ',' "-rpath" directory

section Collected

variable {mode : LinkMode} {output : Path} {objects libraries : List Path} {p : Params}

/-- What is collected from the orders of a link comes from its parts one after the other. -/
theorem filterMap_linkOrders {f : Order → Option String} (hshared : f .shared = none)
    (hdebug : f .debug = none) (hitems : ∀ items, f (.linkerItems items) = none) :
    (linkOrders mode output objects libraries p).filterMap f =
      (f (.output output.text)).toList ++ objects.filterMap (fun o => f (.operand o.text)) ++
        p.includes.filterMap (fun directory => f (.includeDirectory directory)) ++
        p.defines.filterMap (fun definition => f (.define definition)) ++
        libraries.flatMap fun library => (f (.searchDirectory (splitLibrary library).1)).toList ++
          (f (.libraryFile (splitLibrary library).2)).toList := by
  have hsingle : ∀ order, [order].filterMap f = (f order).toList := by
    intro order
    cases h : f order <;> simp [h]
  have hlibrary : ∀ library, (libraryOrders library).filterMap f =
      (f (.searchDirectory (splitLibrary library).1)).toList ++
        (f (.libraryFile (splitLibrary library).2)).toList := by
    intro library
    rw [libraryOrders, List.filterMap_cons_none (hitems _), ← hsingle, ← hsingle,
      ← List.filterMap_append]
    rfl
  have hmode : (if mode == .sharedLibrary then [Order.shared] else []).filterMap f = [] := by
    cases mode <;> simp [hshared]
  have hflag : (if p.debugSymbols then [Order.debug] else []).filterMap f = [] := by
    cases p.debugSymbols <;> simp [hdebug]
  simp only [linkOrders, List.filterMap_append, hmode, hflag, hsingle, List.filterMap_map,
    List.filterMap_flatMap, hlibrary, Function.comp_def, List.nil_append]

theorem flatMap_items_linkOrders :
    (linkOrders mode output objects libraries p).flatMap Order.items =
      libraries.flatMap fun library => "-rpath" :: splitString ',' (splitLibrary library).1 := by
  have hnone {α : Type} (xs : List α) : xs.flatMap (fun _ => ([] : List String)) = [] :=
    List.flatMap_eq_nil_iff.mpr fun _ _ => rfl
  have hmode : (if mode == .sharedLibrary then [Order.shared] else []).flatMap Order.items = [] := by
    cases mode <;> rfl
  have hflag : (if p.debugSymbols then [Order.debug] else []).flatMap Order.items = [] := by
    cases p.debugSymbols <;> rfl
  have hlibrary : ∀ library, (libraryOrders library).flatMap Order.items =
      "-rpath" :: splitString ',' (splitLibrary library).1 := by
    intro library
    simp [libraryOrders, Order.items, splitString_rpath]
  simp only [linkOrders, List.flatMap_append, hmode, hflag, List.flatMap_map, List.flatMap_assoc,
    hlibrary, Order.items, hnone, List.flatMap_singleton, List.nil_append]

end Collected

theorem ofOrders_linkOrders (mode : LinkMode) (output : Path) (objects libraries : List Path)
    (p : Params) :
    LinkRequest.ofOrders (linkOrders mode output objects libraries p) =
      (readItems (libraries.flatMap fun library =>
        "-rpath" :: splitString ',' (splitLibrary library).1)).map fun (ds, files) =>
          { LinkRequest.wanted mode output objects libraries p with
            runtimeDirectories := ds, linkerFiles := files } := by
  have hnone {α : Type} (xs : List α) : xs.filterMap (fun _ => (none : Option String)) = [] :=
    List.filterMap_eq_nil_iff.mpr fun _ _ => rfl
  rw [LinkRequest.ofOrders, flatMap_items_linkOrders]
  congr 1
  funext ⟨ds, files⟩
  rw [LinkRequest.wanted, LinkRequest.mk.injEq]
  refine ⟨?_, ?_, ?_, ?_, ?_, ?_, rfl, ?_, ?_, rfl⟩
  · cases mode <;> cases h : p.debugSymbols <;> simp [linkOrders, libraryOrders, h]
  · cases mode <;> cases h : p.debugSymbols <;> simp [linkOrders, libraryOrders, h]
  all_goals
    rw [filterMap_linkOrders rfl rfl fun _ => rfl]
    simp [Order.output?, Order.operand?, Order.includeDirectory?, Order.define?,
      Order.searchDirectory?, Order.libraryFile?, List.filterMap_eq_map', hnone,
      ← List.map_eq_flatMap]

/-- Items that have no commas are the directories that they were written for. -/
theorem readItems_rpaths (libraries : List Path) :
    readItems (libraries.flatMap fun library => ["-rpath", (splitLibrary library).1]) =
      some (libraries.map fun library => (splitLibrary library).1, []) := by
  induction libraries with
  | nil => rfl
  | cons library libraries ih => simp [readItems, ih]

theorem mem_of_readItems {items directories files : List String}
    (h : readItems items = some (directories, files)) {directory : String}
    (hd : directory ∈ directories) : directory ∈ items := by
  fun_induction readItems items generalizing directories files with
  | case1 => simp_all
  | case2 directory' rest ih =>
      obtain ⟨⟨ds, fs⟩, hread, heq⟩ := Option.map_eq_some_iff.mp h
      cases heq
      rcases List.mem_cons.mp hd with rfl | hd
      · simp
      · exact List.mem_cons_of_mem _ (List.mem_cons_of_mem _ (ih hread hd))
  | case3 => cases h
  | case4 => cases h
  | case5 item rest hitem hoption ih =>
      obtain ⟨⟨ds, fs⟩, hread, heq⟩ := Option.map_eq_some_iff.mp h
      cases heq
      exact List.mem_cons_of_mem _ (ih hread hd)

theorem read_linkArgs_iff (mode : LinkMode) (output : Path) {objects : List Path}
    (h : ∀ o ∈ objects, o.isAbsolute = true) (libraries : List Path) (p : Params) :
    LinkRequest.read (linkArgs mode output objects libraries p) =
        some (.wanted mode output objects libraries p) ↔
      ∀ library ∈ libraries, ',' ∉ (splitLibrary library).1.toList := by
  have hread : LinkRequest.read (linkArgs mode output objects libraries p) =
      LinkRequest.ofOrders (linkOrders mode output objects libraries p) := by
    rw [LinkRequest.read, (gives_linkArgs mode output h libraries p).readOrders_eq]
    rfl
  rw [hread, ofOrders_linkOrders]
  constructor
  · intro hwanted library hlibrary
    obtain ⟨⟨directories, files⟩, hitems, heq⟩ := Option.map_eq_some_iff.mp hwanted
    have hdirectories := congrArg LinkRequest.runtimeDirectories heq
    have hmem : (splitLibrary library).1 ∈ directories := by
      rw [show directories = _ from hdirectories]
      exact List.mem_map_of_mem hlibrary
    -- What the linker is handed are pieces between commas.
    obtain ⟨other, -, hpiece⟩ := List.mem_flatMap.mp (mem_of_readItems hitems hmem)
    rcases List.mem_cons.mp hpiece with hrpath | hpiece
    · rw [hrpath]
      decide
    · obtain ⟨cs, hcs, htext⟩ := List.mem_map.mp hpiece
      rw [← htext, String.toList_ofList]
      exact notMem_of_mem_pieces hcs
  · intro hplain
    have hsplit : (libraries.flatMap fun library =>
        "-rpath" :: splitString ',' (splitLibrary library).1) =
        libraries.flatMap fun library => ["-rpath", (splitLibrary library).1] := by
      rw [List.flatMap_def, List.flatMap_def]
      congr 1
      apply List.map_congr_left
      intro library hlibrary
      rw [splitString_of_notMem (hplain library hlibrary)]
    rw [hsplit, readItems_rpaths]
    rfl

/-- The directory of a library is its parent, where its file name stands. -/
theorem splitLibrary_of_isAbsolute {library : Path} (h : library.isAbsolute = true)
    (hname : library.fileName?.isSome = true) :
    library.parent? = some ⟨(splitLibrary library).1⟩ ∧
      (Path.join ⟨(splitLibrary library).1⟩ ⟨(splitLibrary library).2⟩).components =
        library.components := by
  obtain ⟨name, hname⟩ := Option.isSome_iff_exists.mp hname
  obtain ⟨directory, hparent, habsolute, hjoin⟩ := Path.exists_parent_of_fileName? h hname
  have hne : (directory.text == "") = false := by
    rw [beq_eq_false_iff_ne]
    intro hempty
    simp [Path.isAbsolute, hempty] at habsolute
  have hsplit : splitLibrary library = (directory.text, name) := by
    simp [splitLibrary, hparent, hne, hname]
  rw [hsplit]
  exact ⟨hparent, hjoin⟩

/-- A link line asks for what it was written for exactly if no library stands in a directory with a
comma in its path. -/
theorem linkCommand_read_iff (d : GnuDriver) (mode : LinkMode) (output : Path)
    (objects libraries : List Path) (p : Params) (hobjects : ∀ o ∈ objects, o.isAbsolute = true)
    (hlibraries : ∀ library ∈ libraries,
      library.isAbsolute = true ∧ library.fileName?.isSome = true) :
    (∃ front, (d.linkCommand mode output objects libraries p).args = front ++ p.opts ∧
      (LinkRequest.read front = some (.wanted mode output objects libraries p) ↔
        ∀ library ∈ libraries, ',' ∉ (splitLibrary library).1.toList)) ∧
    ∀ library ∈ libraries, library.parent? = some ⟨(splitLibrary library).1⟩ ∧
      (Path.join ⟨(splitLibrary library).1⟩ ⟨(splitLibrary library).2⟩).components =
        library.components := by
  refine ⟨⟨linkArgs mode output objects libraries p, rfl, ?_⟩, fun library hlibrary => ?_⟩
  · exact read_linkArgs_iff mode output hobjects libraries p
  · obtain ⟨habsolute, hname⟩ := hlibraries library hlibrary
    exact splitLibrary_of_isAbsolute habsolute hname

/-- A driver with a path of its own. -/
def ownClang : GnuDriver where
  name := "clang"
  language := .c
  family := .clang
  program := ⟨"/opt/llvm/bin/clang"⟩

theorem linkCommand_read_iff_twoLibraries :
    let objects : List Path := [⟨"/o/main.c.o"⟩, ⟨"/o/-g"⟩]
    let libraries : List Path := [⟨"/libs/libfoo.so"⟩, ⟨"/own libs//sub/bar,baz.a/"⟩]
    let p : Params := { debugSymbols? := some true, includes := ["-g"], opts := ["-Wl,-s"] }
    (∀ o ∈ objects, o.isAbsolute = true) ∧
      (∀ library ∈ libraries, library.isAbsolute = true ∧ library.fileName?.isSome = true) ∧
      ∃ front, (ownClang.linkCommand .sharedLibrary ⟨"/o/app.so"⟩ objects libraries p).args =
          front ++ p.opts ∧
        LinkRequest.read front =
          some (.wanted .sharedLibrary ⟨"/o/app.so"⟩ objects libraries p) := by
  intro objects libraries p
  have hobjects : ∀ o ∈ objects, o.isAbsolute = true := by decide
  have hlibraries : ∀ library ∈ libraries,
      library.isAbsolute = true ∧ library.fileName?.isSome = true := by decide +kernel
  obtain ⟨⟨front, hargs, hread⟩, -⟩ :=
    linkCommand_read_iff ownClang .sharedLibrary ⟨"/o/app.so"⟩ objects libraries p hobjects hlibraries
  exact ⟨hobjects, hlibraries, front, hargs, hread.mpr (by decide +kernel)⟩

/-- The directory `/li,bs` is searched at run time as `/li`, and the linker is handed a file `bs`. -/
theorem linkCommand_comma_parted :
    let wanted := LinkRequest.wanted .executable ⟨"/app"⟩ [⟨"/main.o"⟩] [⟨"/li,bs/libfoo.so"⟩] {}
    (ownClang.linkCommand .executable ⟨"/app"⟩ [⟨"/main.o"⟩] [⟨"/li,bs/libfoo.so"⟩] {}).args =
        ["-o", "/app", "/main.o", "-Wl,-rpath,/li,bs", "-L", "/li,bs", "-l:libfoo.so"] ∧
      wanted.runtimeDirectories = ["/li,bs"] ∧
      LinkRequest.read
          ["-o", "/app", "/main.o", "-Wl,-rpath,/li,bs", "-L", "/li,bs", "-l:libfoo.so"] =
        some { wanted with runtimeDirectories := ["/li"], linkerFiles := ["bs"] } := by
  decide +kernel

end GnuDriver
end DeclarativeBuild
