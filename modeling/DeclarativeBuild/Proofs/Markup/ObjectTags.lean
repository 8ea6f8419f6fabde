import DeclarativeBuild.ObjectTags
import DeclarativeBuild.Proofs.Disk.Components
import DeclarativeBuild.Proofs.Disk.Listing
import DeclarativeBuild.Proofs.Markup.AttributeValues
import DeclarativeBuild.Proofs.Markup.Content
import DeclarativeBuild.Proofs.Markup.Prolog
import DeclarativeBuild.Proofs.Text.ByteOrder
import Mathlib

/-!
# What object tags are read as

A tag holds the path of its file as it is, without references.  It is read as the element it was
meant to be where every character of the path stands for itself between quotes, and nowhere else.
-/

namespace DeclarativeBuild
namespace Markup

/-- The element that all content is part of. -/
def Opened.outermost (o : Opened) : OpenElement :=
  o.below.getLast?.getD o.top

/-- Nothing that is read changes the name or the attributes of the outermost element. -/
theorem Opened.take_outermost {o o' : Opened} {item : Item} (h : o.take item = some o') :
    o'.outermost.name = o.outermost.name ∧ o'.outermost.attributes = o.outermost.attributes := by
  obtain ⟨top, below⟩ := o
  cases item with
  | text text =>
      cases h
      cases hlast : below.getLast? <;> simp [outermost, hlast, OpenElement.addText]
  | remark =>
      cases h
      cases hlast : below.getLast? <;> simp [outermost, hlast, OpenElement.stopText]
  | startTag name attributes tagEnd =>
      obtain ⟨⟨scope, plain⟩, -, rfl⟩ := Option.map_eq_some_iff.mp h
      cases tagEnd with
      | closed => cases hlast : below.getLast? <;> simp [outermost, hlast, OpenElement.addChild]
      | opening => cases hlast : below.getLast? <;> simp [outermost, hlast, List.getLast?_cons]
  | endTag name =>
      rw [take] at h
      split at h
      · cases below with
        | nil => cases h
        | cons parent below =>
            cases h
            cases hlast : below.getLast? <;>
              simp [outermost, hlast, List.getLast?_cons, OpenElement.addChild]
      · cases h

theorem Opened.read_outermost {o : Opened} {cs rest : List Char} {e : Element}
    (h : o.read cs = some (e, rest)) :
    e.tag = o.outermost.name.localName ∧ e.attributes = o.outermost.attributes := by
  induction hn : cs.length using Nat.strong_induction_on generalizing cs o with
  | _ n ih =>
    subst hn
    obtain ⟨item, after, hscan, ⟨o', htake, hmore⟩ | ⟨rfl, hbelow, hend⟩⟩ := read_cases h
    · obtain ⟨hname, hattributes⟩ := take_outermost htake
      obtain ⟨htag, hread⟩ := ih after.length (length_of_scanItem hscan) hmore rfl
      exact ⟨htag.trans (congrArg _ hname), hread.trans hattributes⟩
    · cases hend
      rw [outermost, hbelow]
      exact ⟨rfl, rfl⟩

theorem readDocument_of_element {source : String} {c : Char} {tail : List Char}
    (hsource : source.toList = '<' :: c :: tail) (hc : isNameChar c = true) :
    readDocument source = readRoot source.toList >>= fun (root, rest) =>
      skipMisc rest >>= fun rest => if rest.isEmpty then some root else none := by
  have hne : ∀ d, isNameChar d = false → c ≠ d := by
    rintro d hd rfl
    rw [hc] at hd
    cases hd
  have hdeclaration : skipDeclaration source.toList = some source.toList := by
    have hprefix : "<?xml ".toList.isPrefixOf source.toList = false := by
      rw [hsource]
      simp [List.isPrefixOf, (hne '?' (by decide)).symm]
    rw [skipDeclaration, hprefix]
    rfl
  have hmisc : skipMisc source.toList = some source.toList := by
    have hskip : skipSpaces source.toList = source.toList := by
      rw [hsource]
      rfl
    rw [skipMisc_of_other, hskip]
    intro opening scan hopens hprefix
    rw [hskip, hsource] at hprefix
    cases hopens <;>
      · have hsecond := (List.cons_prefix_cons.mp hprefix).2
        exact hne _ (by decide) (List.cons_prefix_cons.mp hsecond).1.symm
  simp only [readDocument, Option.bind_eq_bind]
  rw [if_neg (by simp [hsource]), hdeclaration, Option.bind_some, hmisc, Option.bind_some]

/-- The root element has the name and the attributes of the start tag. -/
theorem startTag_of_readRoot {cs rest : List Char} {e : Element}
    (h : readRoot ('<' :: cs) = some (e, rest)) :
    ∃ name attributes tagEnd after scope,
      scanStartTag cs = some ((name, attributes, tagEnd), after) ∧
      enter? Namespaces.initial name attributes = some (scope, e.attributes) ∧
      e.tag = name.localName := by
  rw [readRoot] at h
  split at h
  · cases h
  next name attributes tagEnd after hscan =>
  split at h
  · cases h
  next scope plain henter =>
  refine ⟨name, attributes, tagEnd, after, scope, hscan, ?_⟩
  cases tagEnd with
  | closed =>
      cases h
      exact ⟨henter, rfl⟩
  | opening =>
      obtain ⟨htag, hattributes⟩ := Opened.read_outermost (o := ⟨.start name scope plain, []⟩) h
      rw [hattributes]
      exact ⟨henter, htag⟩

end Markup

/-- The tag of a source file. -/
def sourceTag (l : Language) (path : Path) : String :=
  "<object lang=\"" ++ l.tag ++ "\" src=\"" ++ path.text ++ "\"/>"

namespace Markup

theorem isVerbatim_tag (l : Language) : ∀ c ∈ l.tag.toList, isVerbatim c = true := by
  cases l <;> exact List.all_eq_true.mp (by decide)

/-- The characters of a text with two values in it.  The texts are variables here, since unfolding
literals is slow. -/
theorem toList_alternating (start first between second rest : String) :
    (start ++ first ++ between ++ second ++ rest).toList =
      start.toList ++ (first.toList ++ (between.toList ++ (second.toList ++ rest.toList))) := by
  simp only [String.toList_append, List.append_assoc]

theorem scanStartTag_sourceTag (l : Language) (path : Path) :
    ∃ cs, (sourceTag l path).toList = '<' :: 'o' :: cs ∧
      scanStartTag ('o' :: cs) =
        readValue (path.text.toList ++ '"' :: "/>".toList) >>= fun (value, rest) =>
          (scanAttributes rest).map fun ((attributes, tagEnd), rest) =>
            ((⟨"", "object"⟩,
              ⟨⟨"", "lang"⟩, l.tag⟩ :: ⟨⟨"", "src"⟩, String.ofList value⟩ :: attributes, tagEnd),
              rest) := by
  have hname : ∀ s, scanQualifiedName ("object".toList ++ ' ' :: s) =
      some (⟨"", "object"⟩, ' ' :: s) := fun s => rfl
  have hlang : ∀ s, scanQualifiedName ("lang".toList ++ '=' :: s) =
      some (⟨"", "lang"⟩, '=' :: s) := fun s => rfl
  have hsrc : ∀ s, scanQualifiedName ("src".toList ++ '=' :: s) =
      some (⟨"", "src"⟩, '=' :: s) := fun s => rfl
  refine ⟨"bject".toList ++ ' ' :: ("lang".toList ++ '=' :: '"' :: (l.tag.toList ++ '"' :: ' ' ::
    ("src".toList ++ '=' :: '"' :: (path.text.toList ++ '"' :: "/>".toList)))), ?_, ?_⟩
  · exact toList_alternating _ _ _ _ _
  · rw [← List.cons_append, show 'o' :: "bject".toList = "object".toList from rfl, scanStartTag_eq,
      hname]
    simp only [Option.bind_eq_bind, Option.bind_some, scanAttributes_quoted hlang,
      readValue_of_verbatim (isVerbatim_tag l), scanAttributes_quoted hsrc, String.ofList_toList]
    cases readValue (path.text.toList ++ '"' :: "/>".toList) with
    | none => rfl
    | some read =>
        simp only [Option.bind_some]
        cases scanAttributes read.2 <;> rfl

theorem ofSource_eq_ok_iff {path : Path} {source : String} {e : Element} :
    Element.ofSource path source = .ok e ↔ readDocument source = some e := by
  unfold Element.ofSource
  cases readDocument source <;> simp

theorem plain_of_enter? {outer scope : Namespaces} {name : QualifiedName}
    {attributes : List Attribute} {plain : List (String × String)}
    (h : enter? outer name attributes = some (scope, plain)) :
    plain = (attributes.filter (!·.isDeclaration)).map fun a => (a.name.localName, a.value) := by
  obtain ⟨own, -, h⟩ := Option.bind_eq_some_iff.mp h
  simp only at h
  split at h
  · cases h
    rfl
  · cases h

/-- A tag is read as it was meant if and only if every character of the path stands for itself. -/
theorem reads_sourceTag_iff (l : Language) (path p : Path) :
    (∃ e, Element.ofSource p (sourceTag l path) = .ok e ∧ e.tag = "object" ∧
      e.attribute? "lang" = some l.tag ∧ e.attribute? "src" = some path.text) ↔
    ∀ c ∈ path.text.toList, isVerbatim c = true := by
  obtain ⟨cs, htext, hscan⟩ := scanStartTag_sourceTag l path
  have hread := readDocument_of_element htext (by decide)
  rw [htext] at hread
  simp only [ofSource_eq_ok_iff, hread]
  constructor
  · rintro ⟨e, hdocument, -, -, hsrc⟩
    obtain ⟨⟨root, rest⟩, hroot, hrest⟩ := Option.bind_eq_some_iff.mp hdocument
    obtain rfl : root = e := by
      obtain ⟨rest', -, hend⟩ := Option.bind_eq_some_iff.mp hrest
      split at hend
      · exact Option.some.inj hend
      · cases hend
    obtain ⟨name, attributes, tagEnd, after, scope, htag, henter, -⟩ := startTag_of_readRoot hroot
    rw [hscan] at htag
    obtain ⟨⟨value, rest'⟩, hvalue, htag⟩ := Option.bind_eq_some_iff.mp htag
    obtain ⟨x, -, heq⟩ := Option.map_eq_some_iff.mp htag
    cases heq
    -- Of two attributes of one name the first counts, which holds what comes before the first quote.
    rw [Element.attribute?, plain_of_enter? henter] at hsrc
    obtain rfl : value = path.text.toList := by
      rw [← String.toList_ofList (l := value)]
      exact congrArg String.toList (Option.some.inj hsrc)
    exact isVerbatim_of_readValue hvalue
  · intro h
    have hclosed : scanAttributes "/>".toList = some (([], .closed), []) :=
      scanAttributes_of_closed rfl
    have hmisc : skipMisc [] = some [] := by
      rw [skipMisc]
      rfl
    have henter : enter? Namespaces.initial ⟨"", "object"⟩
        [⟨⟨"", "lang"⟩, l.tag⟩, ⟨⟨"", "src"⟩, path.text⟩] =
          some (Namespaces.initial, [("lang", l.tag), ("src", path.text)]) := rfl
    rw [readValue_of_verbatim h] at hscan
    simp only [Option.bind_eq_bind, Option.bind_some, hclosed, Option.map_some,
      String.ofList_toList] at hscan
    refine ⟨(OpenElement.start ⟨"", "object"⟩ Namespaces.initial
      [("lang", l.tag), ("src", path.text)]).close, ?_, rfl, rfl, rfl⟩
    simp only [readRoot, hscan, henter, Option.bind_eq_bind, Option.bind_some, hmisc]
    rfl

end Markup

/-- The language of a source file that gets a tag, by its name. -/
def taggedLanguage? (name : String) : Option Language := do
  let extension ← (Path.mk name).extension?
  if taggedExtensions.contains (Language.lowerAscii extension) then
    Language.ofExtension? extension
  else none

theorem taggedLanguage?_eq_some_iff {name : String} {l : Language} :
    taggedLanguage? name = some l ↔
      ∃ extension, (Path.mk name).extension? = some extension ∧
        Language.lowerAscii extension ∈ ["c", "cc", "cpp", "c++"] ∧
        Language.ofExtension? extension = some l := by
  rw [taggedLanguage?, Option.bind_eq_bind, Option.bind_eq_some_iff]
  refine exists_congr fun extension => and_congr_right fun _ => ?_
  simp [taggedExtensions]

theorem lowerAscii_lowerAscii (text : String) :
    Language.lowerAscii (Language.lowerAscii text) = Language.lowerAscii text := by
  simp [Language.lowerAscii, Function.comp_def]

theorem objectTag?_eq (path : Path) {name : String} (h : path.fileName? = some name)
    (hname : Path.isPlainName name = true) :
    objectTag? path = (taggedLanguage? name).map fun l => sourceTag l path := by
  have hextension : path.extension? = (Path.mk name).extension? := by
    rw [Path.extension?, Path.extension?, h, Path.fileName?_of_isPlainName hname]
  rw [objectTag?, taggedLanguage?, hextension]
  cases (Path.mk name).extension? with
  | none => rfl
  | some extension =>
      have hlanguage : Language.ofExtension? (Language.lowerAscii extension) =
          Language.ofExtension? extension := by
        simp only [Language.ofExtension?, lowerAscii_lowerAscii]
      simp only [Option.map_some, Option.bind_eq_bind, Option.bind_some, hlanguage]
      cases taggedExtensions.contains (Language.lowerAscii extension) <;>
        cases Language.ofExtension? extension <;> rfl

/-- An entry of a directory that gets a tag, with its language. -/
def tagged? (entry : String × Entry) : Option (String × Language) :=
  if entry.2.isFile then (taggedLanguage? entry.1).map fun l => (entry.1, l) else none

theorem objectTags_eq {w : World} {directory : Path} {loc : Location} (hlawful : w.disk.Lawful)
    (hloc : w.disk.locate true w.cwd directory = .ok loc)
    (hdirectory : w.disk.lookup loc = some .directory) :
    w.objectTags directory =
      .ok (((w.disk.listing loc).filterMap tagged?).map fun (name, l) =>
        sourceTag l (directory.join ⟨name⟩)) := by
  have hentry : w.disk.entryAt true w.cwd directory = .ok .directory := by
    rw [Disk.entryAt, hloc]
    simp only [hdirectory]
  have hread : w.disk.readDirectory w.cwd directory = .ok (w.disk.listing loc) :=
    Disk.readDirectory_eq_ok_iff.mpr ⟨loc, hloc, hdirectory, rfl⟩
  rw [World.objectTags, hentry, hread]
  simp only [List.map_filterMap]
  refine congrArg _ (List.filterMap_congr fun entry hmem => ?_)
  have hname : entry.1 ∈ w.disk.names loc := by
    rw [← Disk.map_fst_listing]
    exact List.mem_map_of_mem hmem
  have hplain := Disk.isPlainName_of_mem_names hlawful hname
  rw [tagged?]
  split
  · rw [objectTag?_eq _ (Path.fileName?_join directory hplain) hplain, Option.map_map]
    rfl
  · rfl

theorem mem_filterMap_tagged?_iff {d : Disk} {loc : Location} {name : String} {l : Language} :
    (name, l) ∈ (d.listing loc).filterMap tagged? ↔
      (∃ content executable, d.lookup (loc ++ [name]) = some (.file content executable)) ∧
        taggedLanguage? name = some l := by
  rw [List.mem_filterMap]
  constructor
  · rintro ⟨⟨name', e⟩, hmem, h⟩
    rw [tagged?] at h
    split at h
    · next hfile =>
      obtain ⟨l', hl', heq⟩ := Option.map_eq_some_iff.mp h
      cases heq
      cases e with
      | file content executable =>
          exact ⟨⟨content, executable, Disk.mem_listing_iff.mp hmem⟩, hl'⟩
      | directory | link => cases hfile
    · cases h
  · rintro ⟨⟨content, executable, hfile⟩, hl⟩
    refine ⟨(name, .file content executable), Disk.mem_listing_iff.mpr hfile, ?_⟩
    simp only [tagged?, Entry.isFile, if_true, hl, Option.map_some]

theorem pairwise_filterMap_tagged? {d : Disk} (hlawful : d.Lawful) (loc : Location) :
    (((d.listing loc).filterMap tagged?).map fun source => Text.bytes source.1).Pairwise
      (· < ·) := by
  have hnames := Disk.pairwise_names hlawful loc
  rw [← Disk.map_fst_listing, List.pairwise_map] at hnames
  rw [List.pairwise_map, List.pairwise_filterMap]
  refine hnames.imp fun {a b} hab s hs t ht => ?_
  have hsame : ∀ {entry source}, tagged? entry = some source → source.1 = entry.1 := by
    intro entry source h
    rw [tagged?] at h
    split at h
    · obtain ⟨l, -, rfl⟩ := Option.map_eq_some_iff.mp h
      rfl
    · cases h
  rw [hsame hs, hsame ht]
  exact Text.bytes_lt_bytes_iff.mpr hab

/-- The tags of a directory are those of its source files, in the order of their names.  Each is read
back if and only if its path can stand between quotes as it is. -/
theorem World.objectTags_read_back_iff {w : World} {directory : Path} {loc : Location}
    (hlawful : w.disk.Lawful) (hloc : w.disk.locate true w.cwd directory = .ok loc)
    (hdirectory : w.disk.lookup loc = some .directory) :
    ∃ sources : List (String × Language),
      w.objectTags directory =
        .ok (sources.map fun (name, l) => sourceTag l (directory.join ⟨name⟩)) ∧
      (sources.map fun source => Text.bytes source.1).Pairwise (· < ·) ∧
      (∀ name l, (name, l) ∈ sources ↔
        (∃ content executable, w.disk.lookup (loc ++ [name]) = some (.file content executable)) ∧
        ∃ extension, (Path.mk name).extension? = some extension ∧
          Language.lowerAscii extension ∈ ["c", "cc", "cpp", "c++"] ∧
          Language.ofExtension? extension = some l) ∧
      ∀ name l, (name, l) ∈ sources → ∀ p,
        (∃ e, Element.ofSource p (sourceTag l (directory.join ⟨name⟩)) = .ok e ∧
          e.tag = "object" ∧ e.attribute? "lang" = some l.tag ∧
          e.attribute? "src" = some (directory.join ⟨name⟩).text) ↔
        ∀ c ∈ (directory.join ⟨name⟩).text.toList, Markup.isVerbatim c = true := by
  refine ⟨_, objectTags_eq hlawful hloc hdirectory, pairwise_filterMap_tagged? hlawful loc,
    fun name l => ?_, fun name l _ p => Markup.reads_sourceTag_iff l (directory.join ⟨name⟩) p⟩
  rw [mem_filterMap_tagged?_iff, taggedLanguage?_eq_some_iff]

theorem locate_holding (files : List (Location × String)) (directories : List Location) :
    (World.holding files directories).disk.locate true ⟨"/"⟩ ⟨"/src"⟩ = .ok ["src"] := by
  have hpieces : Path.pieces ⟨"/src"⟩ = ["", "src"] := by decide +kernel
  have hfault : Disk.textFault? ⟨"/src"⟩ = none := by decide +kernel
  have hidle : Path.isIdle "" = true ∧ Path.isIdle "src" = false := by decide
  have hroot : (World.holding files directories).disk.lookup [] = some .directory := rfl
  have hshort : ¬Disk.nameLimit < "src".utf8ByteSize := by decide
  have hstart : Disk.startOf ⟨"/"⟩ ⟨"/src"⟩ = [] := by decide
  rw [Disk.locate_eq_descend (World.isLinkless_holding _ _), hfault, hpieces, hstart]
  simp [Disk.descend, hidle, hroot, hshort]

/-- A directory with a source file, a header and another directory. -/
def tagging : World :=
  .holding [(["src", "my main.CC"], ""), (["src", "main.h"], "")] [["src"], ["src", "old.c"]]

theorem World.objectTags_read_back_tagging :
    tagging.disk.Lawful ∧ tagging.disk.locate true tagging.cwd ⟨"/src"⟩ = .ok ["src"] ∧
      tagging.disk.lookup ["src"] = some .directory ∧
      ∃ sources : List (String × Language), ("my main.CC", .cxx) ∈ sources ∧
        tagging.objectTags ⟨"/src"⟩ =
          .ok (sources.map fun (name, l) => sourceTag l ((Path.mk "/src").join ⟨name⟩)) ∧
        ∃ e, Element.ofSource ⟨"build.xml"⟩ (sourceTag .cxx ⟨"/src/my main.CC"⟩) = .ok e ∧
          e.tag = "object" ∧ e.attribute? "lang" = some "cpp" ∧
          e.attribute? "src" = some "/src/my main.CC" := by
  have hlawful : tagging.disk.Lawful := by decide +kernel
  have hloc : tagging.disk.locate true tagging.cwd ⟨"/src"⟩ = .ok ["src"] := locate_holding _ _
  have hdirectory : tagging.disk.lookup ["src"] = some .directory := rfl
  obtain ⟨sources, htags, -, hsources, hread⟩ :=
    World.objectTags_read_back_iff hlawful hloc hdirectory
  have hmem : ("my main.CC", Language.cxx) ∈ sources :=
    (hsources _ _).mpr ⟨⟨_, _, rfl⟩, "CC", by decide +kernel⟩
  refine ⟨hlawful, hloc, hdirectory, sources, hmem, htags, ?_⟩
  exact (hread _ _ hmem ⟨"build.xml"⟩).mpr (List.all_eq_true.mp (by decide +kernel))

/-- A name with an ampersand gives a tag that is no element. -/
theorem World.objectTags_ampersand_unread :
    let w := World.holding [(["src", "a&b.c"], "")] [["src"]]
    w.disk.Lawful ∧ w.objectTags ⟨"/src"⟩ = .ok ["<object lang=\"c\" src=\"/src/a&b.c\"/>"] ∧
      ∀ p e, Element.ofSource p "<object lang=\"c\" src=\"/src/a&b.c\"/>" ≠ .ok e := by
  intro w
  have hlawful : w.disk.Lawful := by decide +kernel
  have htag : "<object lang=\"c\" src=\"/src/a&b.c\"/>" = sourceTag .c ⟨"/src/a&b.c"⟩ := by
    decide +kernel
  refine ⟨hlawful, ?_, fun p e => ?_⟩
  · have hnames : w.disk.names ["src"] = ["a&b.c"] := by
      have hin : (w.disk.entries.map Prod.fst).filterMap (Disk.nameIn? ["src"]) = ["a&b.c"] := by
        decide +kernel
      rw [Disk.names_eq, hin]
      exact List.mergeSort_singleton _
    have hsources : (w.disk.listing ["src"]).filterMap tagged? = [("a&b.c", .c)] := by
      rw [Disk.listing, hnames]
      decide +kernel
    rw [objectTags_eq hlawful (locate_holding _ _) rfl, hsources]
    decide +kernel
  · obtain ⟨cs, htext, hscan⟩ := Markup.scanStartTag_sourceTag .c ⟨"/src/a&b.c"⟩
    have hvalue : Markup.readValue ("/src/a&b.c".toList ++ '"' :: "/>".toList) = none := by
      decide +kernel
    rw [hvalue] at hscan
    rw [htag, ne_eq, Markup.ofSource_eq_ok_iff, Markup.readDocument_of_element htext (by decide),
      htext]
    simp [Markup.readRoot, hscan]

end DeclarativeBuild
