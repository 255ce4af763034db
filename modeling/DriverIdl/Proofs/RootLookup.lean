import DriverIdl.Proofs.CompileOrder
import DriverIdl.Proofs.Paths

/-!
# Roots and the place of files

A root covers the packages that its segments start, and the root of a package is the one that covers
it with the most segments.  Looking an import up goes down from the directory of that root along the
segments that are left; the check of a place goes up from the file along the same segments.  What is
found by the one is therefore never refused by the other.
-/

namespace DriverIdl

namespace Package

variable {package ancestor : String}

theorem segments_join (left right : String) :
    segments (left ++ "." ++ right) = segments left ++ segments right := by
  have spelled : (left ++ "." ++ right).toList = left.toList ++ '.' :: right.toList := by simp
  simp [segments, spelled, pieces_join]

theorem isWithin_iff_exists :
    isWithin package ancestor = true ↔
      package = ancestor ∨ ∃ rest, package = ancestor ++ "." ++ rest := by
  rw [isWithin, Bool.or_eq_true, beq_iff_eq, List.isPrefixOf_iff_prefix]
  refine or_congr_right ⟨?_, ?_⟩
  · rintro ⟨rest, spelled⟩
    refine ⟨String.ofList rest, String.toList_injective ?_⟩
    simp [← spelled]
  · rintro ⟨rest, rfl⟩
    exact ⟨rest.toList, by simp⟩

theorem segments_ne_nil (dotted : Dotted package) : segments package ≠ [] := by
  intro none
  have pieces := pieces_of_dotted dotted
  rw [none] at pieces
  exact List.splitOn_ne_nil _ _ pieces

/-- A package lies below another one exactly if the segments of that start its own. -/
theorem isWithin_iff (dotted : Dotted package) (dottedToo : Dotted ancestor) :
    isWithin package ancestor = true ↔ segments ancestor <+: segments package := by
  rw [isWithin_iff_exists]
  constructor
  · rintro (rfl | ⟨rest, rfl⟩)
    · exact List.prefix_refl _
    · exact ⟨segments rest, (segments_join ancestor rest).symm⟩
  · rintro ⟨rest, spelled⟩
    rw [← intercalate_segments dotted, ← spelled]
    by_cases whole : rest = []
    · left
      rw [whole, List.append_nil, intercalate_segments dottedToo]
    · right
      refine ⟨String.intercalate "." rest, ?_⟩
      rw [String.intercalate_append_of_ne_nil (segments_ne_nil dottedToo) whole,
        intercalate_segments dottedToo]

/-- A package that lies below another one is longer, unless it is that one. -/
theorem eq_or_size_lt_of_isWithin (within : isWithin package ancestor = true) :
    package = ancestor ∨ ancestor.utf8ByteSize < package.utf8ByteSize := by
  refine (isWithin_iff_exists.mp within).imp_right ?_
  rintro ⟨rest, rfl⟩
  rw [String.utf8ByteSize_append, String.utf8ByteSize_append]
  exact Nat.lt_of_lt_of_le (Nat.lt_add_of_pos_right (by decide)) (Nat.le_add_right _ _)

end Package

theorem PackageRoot.dotted_of_parse {text : String} {root : PackageRoot}
    (parsed : parse text = .ok root) : Package.Dotted root.package := by
  unfold parse at parsed
  simp only at parsed
  split at parsed
  · cases parsed
  · split at parsed
    · cases parsed
    · rename_i valid
      split at parsed
      · cases parsed
      · cases parsed
        intro piece listed
        rw [String.toList_ofList] at listed
        have words : ∀ segment ∈ Text.pieces '.' (text.toList.takeWhile (· != ':')),
            segment ≠ [] ∧ ∀ character ∈ segment, isWordChar character = true := by
          simpa using valid
        simpa [Text.IsWord] using words piece listed

namespace Options

/-- The root of a package covers it, and every other root that does has fewer segments. -/
def LongestRoot (roots : List PackageRoot) (package : String) : Option PackageRoot → Prop
  | none => ∀ root ∈ roots, ¬Package.segments root.package <+: Package.segments package
  | some root => root ∈ roots ∧ Package.segments root.package <+: Package.segments package ∧
      ∀ other ∈ roots, Package.segments other.package <+: Package.segments package →
        other = root ∨
          (Package.segments other.package).length < (Package.segments root.package).length

/-- The root that is kept of two. -/
def keepLonger (best : Option PackageRoot) (root : PackageRoot) : Option PackageRoot :=
  match best with
  | some longest =>
    if longest.package.utf8ByteSize ≤ root.package.utf8ByteSize then some root else best
  | none => some root

theorem rootFor?_eq (options : Options) (package : String) :
    options.rootFor? package =
      (options.roots.filter fun root => Package.isWithin package root.package).foldl keepLonger
        none := rfl

/-- No root is longer than the one that is kept. -/
theorem exists_foldl_keepLonger (start : PackageRoot) (roots : List PackageRoot) :
    ∃ best, roots.foldl keepLonger (some start) = some best ∧ best ∈ start :: roots ∧
      ∀ root ∈ start :: roots, root.package.utf8ByteSize ≤ best.package.utf8ByteSize := by
  induction roots generalizing start with
  | nil => exact ⟨start, rfl, by simp, by simp⟩
  | cons first rest ih =>
      rw [List.foldl_cons, keepLonger]
      split
      · rename_i longer
        obtain ⟨best, isBest, listed, longest⟩ := ih first
        refine ⟨best, isBest, List.mem_cons_of_mem _ listed, ?_⟩
        exact List.forall_mem_cons.mpr ⟨Nat.le_trans longer (longest first (by simp)), longest⟩
      · rename_i shorter
        obtain ⟨best, isBest, listed, longest⟩ := ih start
        obtain ⟨isStart, others⟩ := List.forall_mem_cons.mp longest
        refine ⟨best, isBest, by grind, ?_⟩
        refine List.forall_mem_cons.mpr ⟨isStart, List.forall_mem_cons.mpr ⟨?_, others⟩⟩
        exact Nat.le_trans (Nat.le_of_lt (Nat.lt_of_not_le shorter)) isStart

section Roots

variable {options : Options} {package : String}

theorem rootFor?_eq_none (none : options.rootFor? package = none) :
    ∀ root ∈ options.roots, Package.isWithin package root.package = false := by
  rw [rootFor?_eq] at none
  cases covering : options.roots.filter fun root => Package.isWithin package root.package with
  | nil => simpa using covering
  | cons first rest =>
      obtain ⟨best, isBest, -⟩ := exists_foldl_keepLonger first rest
      rw [covering] at none
      exact absurd (none.symm.trans isBest) nofun

theorem rootFor?_eq_some {root : PackageRoot} (found : options.rootFor? package = some root) :
    root ∈ options.roots ∧ Package.isWithin package root.package = true ∧
      ∀ other ∈ options.roots, Package.isWithin package other.package = true →
        other.package.utf8ByteSize ≤ root.package.utf8ByteSize := by
  rw [rootFor?_eq] at found
  cases covering : options.roots.filter fun root => Package.isWithin package root.package with
  | nil =>
      rw [covering] at found
      cases found
  | cons first rest =>
      obtain ⟨best, isBest, listed, longest⟩ := exists_foldl_keepLonger first rest
      rw [covering] at found
      obtain rfl : best = root := Option.some.inj (isBest.symm.trans found)
      rw [← covering] at listed longest
      obtain ⟨isRoot, within⟩ := List.mem_filter.mp listed
      exact ⟨isRoot, within, fun other isOther withinToo =>
        longest other (List.mem_filter.mpr ⟨isOther, withinToo⟩)⟩

/-- The root of a package is the one whose segments go furthest along those of the package. -/
theorem longestRoot_rootFor? (dotted : Package.Dotted package)
    (roots : ∀ root ∈ options.roots, Package.Dotted root.package)
    (distinct : (options.roots.map PackageRoot.package).Nodup) :
    LongestRoot options.roots package (options.rootFor? package) := by
  cases found : options.rootFor? package with
  | none =>
      intro root listed covers
      have outside := rootFor?_eq_none found root listed
      rw [(Package.isWithin_iff dotted (roots root listed)).mpr covers] at outside
      cases outside
  | some root =>
      obtain ⟨listed, within, longest⟩ := rootFor?_eq_some found
      have covers := (Package.isWithin_iff dotted (roots root listed)).mp within
      refine ⟨listed, covers, fun other isOther coversToo => ?_⟩
      have shorter := longest other isOther
        ((Package.isWithin_iff dotted (roots other isOther)).mpr coversToo)
      by_contra neither
      obtain ⟨differs, notShorter⟩ := not_or.mp neither
      have starts := List.prefix_of_prefix_length_le covers coversToo (Nat.le_of_not_lt notShorter)
      have isBelow := (Package.isWithin_iff (roots other isOther) (roots root listed)).mpr starts
      rcases Package.eq_or_size_lt_of_isWithin isBelow with same | longer
      · exact differs (List.inj_on_of_nodup_map distinct isOther listed same)
      · exact Nat.lt_irrefl _ (Nat.lt_of_lt_of_le longer shorter)

/-- Below its root a package goes down along the segments that are left. -/
theorem relativeDir_eq {root : PackageRoot} (within : Package.isWithin package root.package = true) :
    relativeDir package root = Path.ofNames
      ((Package.segments package).drop (Package.segments root.package).length) := by
  rcases Package.isWithin_iff_exists.mp within with same | ⟨rest, spelled⟩
  · have left : package.toList.drop root.package.length = [] := by
      rw [same, ← String.length_toList, List.drop_length]
    rw [relativeDir, left, same, List.drop_length]
    rfl
  · have left : package.toList.drop root.package.length = '.' :: rest.toList := by
      rw [spelled, ← String.length_toList]
      simp
    have onlyRest : String.ofList ('.' :: rest.toList) = "" ++ "." ++ rest :=
      String.toList_injective (by simp)
    rw [relativeDir, left, onlyRest, Package.path, Package.segments_join, spelled,
      Package.segments_join, List.drop_left]
    rfl

theorem importPath_eq_ok {fullName : String} {path : Path}
    (found : options.importPath fullName = .ok path) : ∃ package name root,
      Package.splitFullName? fullName = some (package, name) ∧
        options.rootFor? package = some root ∧
        path = (root.path.join (relativeDir package root)).join ⟨name ++ ".idl"⟩ := by
  unfold importPath at found
  split at found
  · cases found
  · rename_i package name split
    cases isRoot : options.rootFor? package with
    | none =>
        rw [packageDir?, isRoot] at found
        cases found
    | some root =>
        rw [packageDir?, isRoot] at found
        cases found
        exact ⟨package, name, root, split, isRoot, rfl⟩

end Roots

end Options

namespace Path

/-- The steps of a directory of names are its names. -/
theorem components_ofNames {names : List String} (areNames : ∀ name ∈ names, IsFileName name) :
    (ofNames names).components = names.map .normal := by
  induction names using List.reverseRecOn with
  | nil => rfl
  | append_singleton names last ih =>
      have isLast : IsFileName last := areNames last (by simp)
      have below : ofNames (names ++ [last]) = (ofNames names).join ⟨last⟩ := by simp [ofNames]
      rw [below, components_join isLast, ih fun name listed => areNames name (by simp [listed])]
      simp

theorem parentComponents_of_components {path : Path} {steps : List Component} {name : String}
    (components : path.components = steps ++ [.normal name]) : path.parentComponents = steps := by
  simp [parentComponents, components]

end Path

namespace Options

variable {options : Options}

/-- Where an import is looked up is the right place for its package. -/
theorem checkPlacement_of_importPath {fullName : String} {path : Path}
    (dotted : Package.Dotted fullName) (found : options.importPath fullName = .ok path) :
    ∃ package name, Package.splitFullName? fullName = some (package, name) ∧
      options.checkPlacement package path = .ok () := by
  obtain ⟨package, name, root, split, isRoot, rfl⟩ := importPath_eq_ok found
  refine ⟨package, name, split, ?_⟩
  have dottedPackage : Package.Dotted package := by
    rw [← Package.splitFullName?_eq_some split] at dotted
    exact (Package.dotted_join.mp dotted).1
  have isName := Path.isFileName_of_isWord (Package.isWord_of_splitFullName? dotted split)
  have isFile : Path.IsFileName (name ++ ".idl") := .append isName.undivided (by decide)
  obtain ⟨-, within, -⟩ := rootFor?_eq_some isRoot
  generalize isLeft : (Package.segments package).drop (Package.segments root.package).length = left
  have areNames : ∀ segment ∈ left, Path.IsFileName segment := by
    intro segment listed
    rw [← isLeft] at listed
    exact Path.isFileName_of_isWord (dottedPackage.isWord (List.mem_of_mem_drop listed))
  have expected : relativeDir package root = .ofNames left := by rw [relativeDir_eq within, isLeft]
  rw [checkPlacement]
  split
  · rfl
  · rw [isRoot]
    have steps := Path.components_ofNames_join areNames isFile root.path
    rw [List.map_append, List.map_singleton, ← List.append_assoc] at steps
    simp only [expected, Path.parentComponents_of_components steps, Path.components_ofNames areNames]
    rw [if_pos]
    simp

end Options

namespace Parse

open ParseState

variable {options : Options} {before middle after : ParseState}

/-- No fault of the place of the file was found between two states. -/
def KeepsPlace (before after : ParseState) : Prop :=
  ∀ diagnostic ∈ after.diagnostics, (∃ fault, diagnostic.fault = .placement fault) →
    diagnostic ∈ before.diagnostics

theorem KeepsPlace.trans (first : KeepsPlace before middle) (second : KeepsPlace middle after) :
    KeepsPlace before after :=
  fun diagnostic listed ofPlace => first diagnostic (second diagnostic listed ofPlace) ofPlace

theorem KeepsPlace.of_reported {sort : SourceFault → Prop} (reported : Reported sort before after)
    (other : ∀ fault, ¬sort (.placement fault)) : KeepsPlace before after := by
  rintro diagnostic listed ⟨fault, isFault⟩
  exact reported.mem_of_not listed (isFault ▸ other fault)

theorem KeepsPlace.of_moves (moves : Moves SourceFault.OffPlace before after) :
    KeepsPlace before after :=
  .of_reported (.of_moves moves) fun fault off => off fault rfl

theorem KeepsPlace.of_eq (same : after.diagnostics = before.diagnostics) :
    KeepsPlace before after := fun _ listed _ => same ▸ listed

/-- A package that suits the place of the file is entered in peace. -/
theorem enterPackage_keepsPlace {package : String} {place : Position}
    (placed : options.checkPlacement package before.unit.path = .ok ()) :
    KeepsPlace before (stateAfter (enterPackage options package place) before) := by
  apply KeepsPlace.of_eq
  simp only [enterPackage, stateAfter, Bind.bind, EStateM.bind, get_run, placed]
  rfl

theorem packageStatement_keepsPlace
    (placed : ∀ package read, Announced .packageWord package before read →
      options.checkPlacement package before.unit.path = .ok ()) :
    KeepsPlace before (stateAfter (packageStatement options) before) := by
  cases run : announcement .packageWord "\"package\"" "a package name" before with
  | error fault after =>
      rw [packageStatement, stateAfter_bind_error run]
      exact .of_moves ((Runs.announcement Runs.offPlace_unexpected _ _ _).error run)
  | ok named read =>
      obtain ⟨package, place⟩ := named
      have announced := announcement_ok (by decide) run
      have suits : options.checkPlacement package read.unit.path = .ok () := by
        rw [announced.same]
        exact placed package read announced
      have untouched : KeepsPlace before read := .of_eq (by rw [announced.same])
      rw [packageStatement, stateAfter_bind run]
      apply untouched.trans
      dsimp only
      cases Package.version package with
      | ok version => exact @enterPackage_keepsPlace options { read with
          unit := { read.unit with version := version } } package place suits
      | error fault =>
          have noted : Moves SourceFault.OffPlace read
              (stateAfter (report place (.package fault)) read) :=
            .single (.report fun misplaced same => by cases same)
          have goesOn : KeepsPlace read (stateAfter
              (do report place (.package fault); enterPackage options package place) read) := by
            rw [stateAfter_bind (show report place (.package fault) read = .ok () _ from rfl)]
            exact (KeepsPlace.of_moves noted).trans (enterPackage_keepsPlace suits)
          exact goesOn

end Parse

namespace Program

open Parse

/-- A file in the right place for the package of its header is not refused for its place. -/
theorem no_placementFault_of_checkPlacement {program : Program} {options : Options}
    {diagnostics : List Diagnostic} {path : Path} {source : String} {header : Header}
    (isHeader : Header.ofSource path source = .ok header)
    (placed : options.checkPlacement header.package path = .ok ()) :
    ∀ diagnostic ∈ (program.parseSource options diagnostics path source).diagnostics,
      (∃ fault, diagnostic.fault = .placement fault) → diagnostic ∈ diagnostics := by
  have ofHeader : ∀ fault, ¬SourceFault.OfBody (.placement fault) := nofun
  set start := ParseState.start program diagnostics path source with isStart
  have opening : KeepsPlace start (stateAfter (packageStatement options) start) :=
    packageStatement_keepsPlace fun package read announced => by
      obtain ⟨rfl, -⟩ := package_eq_of_header announced isHeader
      exact placed
  have whole : KeepsPlace start (stateAfter (file options) start) := by
    cases run : packageStatement options start with
    | error fault after =>
        rw [file, stateAfter_bind_error run]
        rwa [stateAfter_error run] at opening
    | ok value entered =>
        rw [file, stateAfter_bind run]
        rw [stateAfter_ok run] at opening
        apply opening.trans
        cases header : headerStatements entered with
        | error fault after =>
            rw [stateAfter_bind_error header]
            exact .of_moves (headerStatements_moves.error header)
        | ok value opened =>
            rw [stateAfter_bind header]
            exact (KeepsPlace.of_moves (headerStatements_moves.ok header)).trans
              (.of_reported (Reports.declarations opened) ofHeader)
  obtain ⟨read, early, late, course⟩ := exists_course program options diagnostics path source
  obtain ⟨result, run⟩ := course.reads
  obtain ⟨state, finished⟩ := course.finishes
  have outcome := parseSource_of_finished run finished
  have isRead := stateAfter_of_attempt run
  rw [outcome]
  exact (isRead ▸ whole).trans (.of_reported (Reports.finishUnit.ok finished) ofHeader)

end Program

/-- What is looked up for an import lies where it belongs.  With roots for different packages, the
root of a package is the one that starts its segments and has most of them, or there is none that
does; and a file found where an import is looked up has the right place for the package of the
import, so that no parse of it complains about its place. -/
theorem import_lookup_agrees_with_placement {options : Options}
    (roots : ∀ root ∈ options.roots, ∃ text, PackageRoot.parse text = .ok root)
    (distinct : (options.roots.map PackageRoot.package).Nodup) {fullName : String}
    (dotted : Package.Dotted fullName) :
    (∀ package name, Package.splitFullName? fullName = some (package, name) →
      Options.LongestRoot options.roots package (options.rootFor? package)) ∧
    ∀ path, options.importPath fullName = .ok path →
      ∃ package name, Package.splitFullName? fullName = some (package, name) ∧
        options.checkPlacement package path = .ok () ∧
        ∀ (program : Program) (diagnostics : List Diagnostic) (source : String) (header : Header),
          Header.ofSource path source = .ok header → header.package = package →
          ∀ diagnostic ∈ (program.parseSource options diagnostics path source).diagnostics,
            (∃ fault, diagnostic.fault = .placement fault) → diagnostic ∈ diagnostics := by
  constructor
  · intro package name split
    rw [← Package.splitFullName?_eq_some split] at dotted
    apply Options.longestRoot_rootFor? (Package.dotted_join.mp dotted).1 _ distinct
    intro root listed
    obtain ⟨text, parsed⟩ := roots root listed
    exact PackageRoot.dotted_of_parse parsed
  · intro path found
    obtain ⟨package, name, split, placed⟩ := Options.checkPlacement_of_importPath dotted found
    refine ⟨package, name, split, placed, ?_⟩
    rintro program diagnostics source header isHeader rfl
    exact Program.no_placementFault_of_checkPlacement isHeader placed

/-- Roots one below the other, the lower one with a directory that ends with a separator and a
dot. -/
def nestedRoots : Options :=
  { roots := [⟨"ohos.hdi", ⟨"/idl"⟩⟩, ⟨"ohos.hdi.foo", ⟨"foo/."⟩⟩, ⟨"vendor", ⟨"v"⟩⟩] }

/-- The lower root is that of a package below both, and a unit of the mapped package itself lies in
the directory of the root. -/
theorem import_lookup_agrees_with_placement_nestedRoots :
    (∀ root ∈ nestedRoots.roots, ∃ text, PackageRoot.parse text = .ok root) ∧
    (nestedRoots.roots.map PackageRoot.package).Nodup ∧
    Package.Dotted "ohos.hdi.foo.v1_0.IFoo" ∧ Package.Dotted "ohos.hdi.foo.IFoo" ∧
    Options.LongestRoot nestedRoots.roots "ohos.hdi.foo.v1_0" (some ⟨"ohos.hdi.foo", ⟨"foo/."⟩⟩) ∧
    nestedRoots.checkPlacement "ohos.hdi.foo" ⟨"foo/./IFoo.idl"⟩ = .ok () := by
  have roots : ∀ root ∈ nestedRoots.roots, ∃ text, PackageRoot.parse text = .ok root := by
    simp only [nestedRoots, List.forall_mem_cons]
    exact ⟨⟨"ohos.hdi:/idl", rfl⟩, ⟨"ohos.hdi.foo:foo/.", rfl⟩, ⟨"vendor:v", rfl⟩, nofun⟩
  have distinct : (nestedRoots.roots.map PackageRoot.package).Nodup := by decide
  have word {text : String} (isWord : text.toList ≠ [] ∧ text.toList.all isWordChar = true) :
      Package.Dotted text :=
    Package.dotted_of_isWord ⟨isWord.1, List.all_eq_true.mp isWord.2⟩
  have isOhos := @word "ohos" (by decide +kernel)
  have isHdi := @word "hdi" (by decide +kernel)
  have isFoo := @word "foo" (by decide +kernel)
  have isVersion := @word "v1_0" (by decide +kernel)
  have isUnit := @word "IFoo" (by decide +kernel)
  have versioned : Package.Dotted "ohos.hdi.foo.v1_0.IFoo" := by
    have spelled : "ohos.hdi.foo.v1_0.IFoo" =
        "ohos" ++ "." ++ "hdi" ++ "." ++ "foo" ++ "." ++ "v1_0" ++ "." ++ "IFoo" := by decide +kernel
    simp only [spelled, Package.dotted_join]
    exact ⟨⟨⟨⟨isOhos, isHdi⟩, isFoo⟩, isVersion⟩, isUnit⟩
  have mapped : Package.Dotted "ohos.hdi.foo.IFoo" := by
    have spelled : "ohos.hdi.foo.IFoo" = "ohos" ++ "." ++ "hdi" ++ "." ++ "foo" ++ "." ++ "IFoo" := by
      decide +kernel
    simp only [spelled, Package.dotted_join]
    exact ⟨⟨⟨isOhos, isHdi⟩, isFoo⟩, isUnit⟩
  obtain ⟨longest, -⟩ := import_lookup_agrees_with_placement roots distinct versioned
  obtain ⟨-, lookup⟩ := import_lookup_agrees_with_placement roots distinct mapped
  refine ⟨roots, distinct, versioned, mapped, longest "ohos.hdi.foo.v1_0" "IFoo" rfl, ?_⟩
  obtain ⟨package, name, split, placed, -⟩ := lookup ⟨"foo/./IFoo.idl"⟩ rfl
  have parts : Package.splitFullName? "ohos.hdi.foo.IFoo" = some ("ohos.hdi.foo", "IFoo") := rfl
  cases parts.symm.trans split
  exact placed

end DriverIdl
