import DriverIdl.Proofs.Discovery
import Mathlib.Data.List.Forall2

/-!
# The order of the entries

A run may be given its files in any order.  The units that it ends with do not depend on the order:
a name that is not the unit of an entry is always looked up at one path, and an entry is found
wherever it stands.  Whether the run ends with units does depend on it.  An import is looked up only
if its unit is not known yet, so an entry that other entries import must be the file that the
look-up of its name leads to; otherwise it has to stand in front of them.
-/

namespace DriverIdl

/-- Two paths lead to one place. -/
def FileTree.SameFile (tree : FileTree) (first second : Path) : Prop :=
  ∃ location, tree.locate first = .ok location ∧ tree.locate second = .ok location

section Paths

/-- A character that does not separate belongs to the last piece. -/
theorem Text.pieces_concat {separator last : Char} (differs : last ≠ separator)
    (characters : List Char) : ∃ before piece,
      Text.pieces separator (characters ++ [last]) = before ++ [piece ++ [last]] := by
  simp only [Text.pieces, List.splitOn_eq_splitOnP]
  induction characters with
  | nil => exact ⟨[], [], by simp [List.splitOnP_cons_eq_if_modifyHead, differs]⟩
  | cons first rest ih =>
      obtain ⟨before, piece, split⟩ := ih
      rw [List.cons_append, List.splitOnP_cons_eq_if_modifyHead, split]
      by_cases separates : first == separator
      · exact ⟨[] :: before, piece, by simp [separates]⟩
      · cases before with
        | nil => exact ⟨[], first :: piece, by simp [separates]⟩
        | cons other others => exact ⟨(first :: other) :: others, piece, by simp [separates]⟩

/-- The path of an import ends with the name of a file. -/
theorem Options.fileName?_of_importPath {options : Options} {fullName : String} {path : Path}
    (isPath : options.importPath fullName = .ok path) : ∃ name, path.fileName? = some name := by
  have ending : ∃ front, path.text.toList = front ++ ['l'] := by
    unfold importPath at isPath
    split at isPath
    · cases isPath
    · split at isPath
      · cases isPath
      · rename_i package name _ _ directory _
        cases isPath
        unfold Path.join
        split
        · exact ⟨name.toList ++ ['.', 'i', 'd'], by simp⟩
        · split
          · exact ⟨directory.text.toList ++ name.toList ++ ['.', 'i', 'd'], by simp⟩
          · exact ⟨directory.text.toList ++ '/' :: name.toList ++ ['.', 'i', 'd'], by simp⟩
  obtain ⟨front, ends⟩ := ending
  obtain ⟨before, piece, split⟩ := Text.pieces_concat (by decide : 'l' ≠ '/') front
  rw [← ends] at split
  have notDots {dots : List Char} (isDots : dots.getLast? = some '.') : piece ++ ['l'] ≠ dots := by
    rintro rfl
    simp at isDots
  obtain ⟨steps, components⟩ := Path.components_concat split (by simp) (notDots rfl)
  refine ⟨String.ofList (piece ++ ['l']), ?_⟩
  rw [Path.fileName?, components, if_neg (notDots rfl), List.getLast?_concat]

end Paths

namespace Resolution

variable {options : Options} {tree : FileTree}

/-- The file at a path declares a unit of some name. -/
def Declares (tree : FileTree) (path : Path) (name : String) : Prop :=
  ∃ unit, scan tree path = .ok unit ∧ unit.fullName = name

section Files

theorem isFile_of_scan {path : Path} {unit : FoundUnit} (scanned : scan tree path = .ok unit) :
    tree.isFile path = true := by
  obtain ⟨source, readable, -⟩ := header_of_scan scanned
  obtain ⟨contents, isRead, -⟩ := bind_eq_ok.mp readable
  rw [FileTree.isFile, isRead]

/-- A text has the same header under every path of one file name. -/
theorem ofSource_of_stem {path other : Path} {source : String} {header : Header}
    (isHeader : Header.ofSource path source = .ok header) (sameStem : path.stem? = other.stem?) :
    Header.ofSource other source = .ok { header with path := other } := by
  unfold Header.ofSource at isHeader ⊢
  rw [← sameStem]
  split at isHeader
  · cases isHeader
  · split at isHeader
    · split at isHeader
      · cases isHeader
        rfl
      · cases isHeader
    · cases isHeader

/-- Where the look-up of a name leads to the file of a unit, that unit is found. -/
theorem scan_of_sameFile {name : String} {path found : Path} {unit : FoundUnit}
    (scanned : scan tree path = .ok unit) (isPath : options.importPath name = .ok found)
    (same : tree.SameFile found path) :
    scan tree found = .ok ⟨{ unit.header with path := found }, unit.location⟩ := by
  obtain ⟨located, contents, source, isFile, decoded, isHeader⟩ := file_of_scan scanned
  obtain ⟨location, locatedFound, locatedPath⟩ := same
  obtain rfl := Except.ok.inj (locatedPath.symm.trans located)
  have readable : tree.readText found = .ok source := by
    simp only [FileTree.readText, FileTree.read, locatedFound, isFile, decoded, Bind.bind,
      Except.bind, Pure.pure, Except.pure]
  obtain ⟨file, named⟩ := Options.fileName?_of_importPath isPath
  have sameStem : path.stem? = found.stem? := by
    rw [stem?_of_scan scanned, Path.stem?, named,
      FileTree.fileName?_of_locate locatedFound isFile named]
  simp only [scan, readable, locatedFound, ofSource_of_stem isHeader sameStem]

end Files

section Agreement

variable {sources shuffled : List Path} {first second : List FoundUnit}
  {unit counterpart : FoundUnit}

/-- A search that succeeds ends with the closure of the imports, sorted by name. -/
theorem closure_of_discover {units : List FoundUnit}
    (discovered : discover options tree sources = .ok units) :
    ImportClosure options tree sources units ∧
      units.Pairwise fun left right => left.fullName ≤ right.fullName := by
  obtain ⟨rounds, ends⟩ := ends_of_start options tree sources
  obtain ⟨found, searched, sorted⟩ := bind_eq_ok.mp discovered
  cases sorted
  rw [searched] at ends
  constructor
  · exact (ends.closure (.start options tree sources)).perm (List.mergeSort_perm _ _)
  · have ordered : (found.mergeSort fun left right =>
        decide (left.fullName ≤ right.fullName)).Pairwise fun left right =>
          decide (left.fullName ≤ right.fullName) = true := by
      apply List.pairwise_mergeSort
      · intro left middle right
        simpa using String.le_trans
      · intro left right
        simpa using String.le_total left.fullName right.fullName
    simpa only [decide_eq_true_eq] using ordered

theorem ImportClosure.eq_of_name (closure : ImportClosure options tree sources first)
    (listed : unit ∈ first) (listedToo : counterpart ∈ first)
    (sameName : counterpart.fullName = unit.fullName) : counterpart = unit :=
  List.inj_on_of_nodup_map closure.names_nodup listedToo listed sameName

/-- The unit with the name of an entry stands in the file of the entry. -/
theorem ImportClosure.location_of_entry (closure : ImportClosure options tree sources first)
    {path : Path} {entry : FoundUnit} (isSource : path ∈ sources)
    (scanned : scan tree path = .ok entry) (listed : unit ∈ first)
    (sameName : entry.fullName = unit.fullName) : unit.location = entry.location := by
  obtain ⟨again, scannedAgain, there, isThere, name, location⟩ := closure.entries path isSource
  obtain rfl := Except.ok.inj (scannedAgain.symm.trans scanned)
  rw [← closure.eq_of_name listed isThere (name.trans sameName), location]

/-- Units of one name in two closures of the same entries stand in one file. -/
theorem ImportClosure.location_eq (closure : ImportClosure options tree sources first)
    (other : ImportClosure options tree shuffled second)
    (same : ∀ path, path ∈ shuffled ↔ path ∈ sources) (listed : unit ∈ first)
    (listedToo : counterpart ∈ second) (sameName : counterpart.fullName = unit.fullName) :
    counterpart.location = unit.location := by
  have scanned := closure.scanned unit listed
  have scannedToo := other.scanned counterpart listedToo
  rcases closure.origin unit listed with isSource | isPath
  · exact other.location_of_entry ((same _).mpr isSource) scanned listedToo sameName.symm
  · rcases other.origin counterpart listedToo with isSource | isPathToo
    · exact (closure.location_of_entry ((same _).mp isSource) scannedToo listed sameName).symm
    · rw [sameName, isPath] at isPathToo
      rw [← Except.ok.inj isPathToo, scanned] at scannedToo
      rw [Except.ok.inj scannedToo]

theorem ImportClosure.imports_eq (closure : ImportClosure options tree sources first)
    (other : ImportClosure options tree shuffled second)
    (same : ∀ path, path ∈ shuffled ↔ path ∈ sources) (listed : unit ∈ first)
    (listedToo : counterpart ∈ second) (sameName : counterpart.fullName = unit.fullName) :
    counterpart.header.imports = unit.header.imports := by
  have samePlace := closure.location_eq other same listed listedToo sameName
  rw [header_eq_of_location (closure.scanned _ listed) (other.scanned _ listedToo) samePlace]

/-- What one closure holds, the other holds too. -/
theorem ImportClosure.knows (closure : ImportClosure options tree sources first)
    (other : ImportClosure options tree shuffled second)
    (same : ∀ path, path ∈ shuffled ↔ path ∈ sources) (listed : unit ∈ first) :
    Knows second unit.fullName := by
  obtain ⟨path, isSource, entry, scanned, chain⟩ := closure.reached unit listed
  generalize unit.fullName = name at chain
  induction chain with
  | refl =>
      obtain ⟨again, scannedAgain, there, isThere, name, -⟩ :=
        other.entries path ((same path).mpr isSource)
      obtain rfl := Except.ok.inj (scannedAgain.symm.trans scanned)
      exact ⟨there, isThere, name⟩
  | tail _ imports ih =>
      obtain ⟨importer, isImporter, rfl, imported⟩ := imports
      obtain ⟨there, isThere, name⟩ := ih
      rw [← closure.imports_eq other same isImporter isThere name] at imported
      exact other.imports there isThere _ imported

/-- The two closures have the same names in the same order. -/
theorem ImportClosure.names_eq (closure : ImportClosure options tree sources first)
    (other : ImportClosure options tree shuffled second)
    (same : ∀ path, path ∈ shuffled ↔ path ∈ sources)
    (sorted : first.Pairwise fun left right => left.fullName ≤ right.fullName)
    (sortedToo : second.Pairwise fun left right => left.fullName ≤ right.fullName) :
    second.map FoundUnit.fullName = first.map FoundUnit.fullName := by
  have members : (second.map FoundUnit.fullName).Perm (first.map FoundUnit.fullName) := by
    apply (List.perm_ext_iff_of_nodup other.names_nodup closure.names_nodup).mpr
    intro name
    simp only [List.mem_map]
    constructor
    · rintro ⟨unit, listed, rfl⟩
      exact other.knows closure (fun path => (same path).symm) listed
    · rintro ⟨unit, listed, rfl⟩
      exact closure.knows other same listed
  apply members.eq_of_pairwise (fun _ _ _ _ => String.le_antisymm)
  · exact List.pairwise_map.mpr sortedToo
  · exact List.pairwise_map.mpr sorted

/-- Lists of units with the same names, place by place. -/
theorem forall₂_of_names (names : second.map FoundUnit.fullName = first.map FoundUnit.fullName) :
    List.Forall₂ (fun unit counterpart => unit ∈ first ∧ counterpart ∈ second ∧
      counterpart.fullName = unit.fullName) first second := by
  have aligned : List.Forall₂ (fun unit counterpart : FoundUnit =>
      unit.fullName = counterpart.fullName) first second := by
    have equal : List.Forall₂ (· = ·) (first.map FoundUnit.fullName)
        (second.map FoundUnit.fullName) := by
      rw [List.forall₂_eq_eq_eq, names]
    simpa only [List.forall₂_map_left_iff, List.forall₂_map_right_iff] using equal
  obtain ⟨lengths, pairs⟩ := List.forall₂_iff_zip.mp aligned
  refine List.forall₂_iff_zip.mpr ⟨lengths, fun paired => ?_⟩
  obtain ⟨listed, listedToo⟩ := List.of_mem_zip paired
  exact ⟨listed, listedToo, (pairs paired).symm⟩

end Agreement

section Order

variable {sources shuffled : List Path} {first second : List FoundUnit}

/-- The search looks at the roots of the options, and not at their sources. -/
theorem discoverFrom_withSources (unread : List Location) (known : List FoundUnit)
    (queue : List SoughtFile) :
    discoverFrom { options with sources := shuffled } tree unread known queue =
      discoverFrom options tree unread known queue := by
  induction unread, known, queue using discoverFrom.induct with
  | case1 unread known => rw [discoverFrom, discoverFrom]
  | case2 unread known sought rest skips reads =>
      have sameLook : look { options with sources := shuffled } tree known sought =
          look options tree known sought := rfl
      rw [discoverFrom_cons, discoverFrom_cons, sameLook]
      apply bind_congr
      rintro (_ | ⟨unit, imports⟩)
      · exact skips
      · by_cases present : unit.location ∈ unread
        · simpa only [if_pos present] using reads unit imports present
        · simpa only [if_neg present] using skips

theorem resolve_withSources_eq_ok {resolution : Resolution} :
    resolve { options with sources := shuffled } tree = .ok resolution ↔
      ∃ units ordered, discover options tree shuffled = .ok units ∧ order units = .ok ordered ∧
        resolution = ⟨units, ordered.map fun unit => unit.header.path⟩ := by
  have same : discover { options with sources := shuffled } tree shuffled =
      discover options tree shuffled := by
    simp only [discover, discoverFrom_withSources]
  rw [resolve, same]
  simp only [bind_eq_ok, Pure.pure, Except.pure, Except.ok.injEq]
  constructor
  · rintro ⟨units, discovered, ordered, isOrder, rfl⟩
    exact ⟨units, ordered, discovered, isOrder, rfl⟩
  · rintro ⟨units, ordered, discovered, isOrder, rfl⟩
    exact ⟨units, discovered, ordered, isOrder, rfl⟩

/-- Ordered units are some of the given ones, in an order of names that the imports alone decide. -/
theorem order_eq_ok {units ordered : List FoundUnit} :
    order units = .ok ordered ↔ ∃ names,
      ImportGraph.order (units.map fun unit => ⟨unit.fullName, unit.header.imports⟩) = .ok names ∧
        ordered = names.filterMap fun name => units.find? fun unit => unit.fullName == name := by
  unfold order
  split
  · rename_i names isError
    simp [isError]
  · rename_i names isOrder
    simp only [isOrder, Except.ok.injEq, exists_eq_left', eq_comm]

theorem mem_of_order {units ordered : List FoundUnit} (isOrder : order units = .ok ordered)
    {unit : FoundUnit} (listed : unit ∈ ordered) : unit ∈ units := by
  obtain ⟨names, -, rfl⟩ := order_eq_ok.mp isOrder
  obtain ⟨name, -, found⟩ := List.mem_filterMap.mp listed
  exact List.mem_of_find?_eq_some found

/-- Ordered units have the names of the order. -/
theorem names_of_order {units : List FoundUnit} {names : List String}
    (isOrder : ImportGraph.order (units.map fun unit => ⟨unit.fullName, unit.header.imports⟩) =
      .ok names) :
    (names.filterMap fun name => units.find? fun unit => unit.fullName == name).map
      FoundUnit.fullName = names := by
  have same := ImportGraph.order_names_perm isOrder
  rw [List.map_map] at same
  exact names_of_lookup fun name listed => same.subset listed

/-- Two closures of the same entries are ordered alike. -/
theorem ImportClosure.order_alike (closure : ImportClosure options tree sources first)
    (other : ImportClosure options tree shuffled second)
    (same : ∀ path, path ∈ shuffled ↔ path ∈ sources)
    (sorted : first.Pairwise fun left right => left.fullName ≤ right.fullName)
    (sortedToo : second.Pairwise fun left right => left.fullName ≤ right.fullName)
    {ordered : List FoundUnit} (isOrder : order first = .ok ordered) :
    ∃ reordered, order second = .ok reordered ∧
      List.Forall₂ (fun unit counterpart => counterpart.fullName = unit.fullName ∧
        tree.SameFile unit.header.path counterpart.header.path) ordered reordered := by
  have names := closure.names_eq other same sorted sortedToo
  have waiting : second.map (fun unit => (⟨unit.fullName, unit.header.imports⟩ : WaitingUnit)) =
      first.map fun unit => ⟨unit.fullName, unit.header.imports⟩ := by
    rw [← List.forall₂_eq_eq_eq, List.forall₂_map_left_iff, List.forall₂_map_right_iff]
    refine (forall₂_of_names names).flip.imp ?_
    rintro counterpart unit ⟨listed, listedToo, sameName⟩
    rw [sameName, closure.imports_eq other same listed listedToo sameName]
  obtain ⟨placed, isPlaced, rfl⟩ := order_eq_ok.mp isOrder
  have isPlacedToo := isPlaced
  rw [← waiting] at isPlacedToo
  have reorders := order_eq_ok.mpr ⟨placed, isPlacedToo, rfl⟩
  refine ⟨_, reorders, ?_⟩
  have placedNames := (names_of_order isPlacedToo).trans (names_of_order isPlaced).symm
  refine (forall₂_of_names placedNames).imp ?_
  rintro unit counterpart ⟨isOrdered, isReordered, sameName⟩
  have listed := mem_of_order isOrder isOrdered
  have listedToo := mem_of_order reorders isReordered
  obtain ⟨located, -⟩ := file_of_scan (closure.scanned unit listed)
  obtain ⟨locatedToo, -⟩ := file_of_scan (other.scanned counterpart listedToo)
  rw [closure.location_eq other same listed listedToo sameName] at locatedToo
  exact ⟨sameName, unit.location, located, locatedToo⟩

theorem Found.declares {units : List FoundUnit} (found : Found tree units) :
    List.Forall₂ (Declares tree) (units.map fun unit => unit.header.path)
      (units.map FoundUnit.fullName) := by
  rw [List.forall₂_map_left_iff, List.forall₂_map_right_iff, List.forall₂_same]
  exact fun unit listed => ⟨unit, found.scanned unit listed, rfl⟩

end Order

section Success

variable {sources shuffled : List Path} {units known : List FoundUnit}

/-- Each entry that an entry imports is the file that the look-up of its name leads to. -/
def EntriesFindable (options : Options) (tree : FileTree) (sources : List Path) : Prop :=
  ∀ path ∈ sources, ∀ other ∈ sources, ∀ entry importer, scan tree path = .ok entry →
    scan tree other = .ok importer → entry.fullName ∈ importer.header.imports →
      ∃ found, options.importPath entry.fullName = .ok found ∧ tree.SameFile found path

theorem EntriesFindable.of_mem_iff (findable : EntriesFindable options tree sources)
    (same : ∀ path, path ∈ shuffled ↔ path ∈ sources) : EntriesFindable options tree shuffled :=
  fun path isSource other isOther =>
    findable path ((same path).mp isSource) other ((same other).mp isOther)

/-- A unit is one of given ones, but for the path of its file. -/
def Within (units : List FoundUnit) (unit : FoundUnit) : Prop :=
  ∃ known ∈ units, known.fullName = unit.fullName ∧ known.location = unit.location

/-- A file of the queue declares one of given units, and the one that is expected. -/
def Fits (tree : FileTree) (units : List FoundUnit) (sought : SoughtFile) : Prop :=
  ∃ unit, scan tree sought.path = .ok unit ∧
    (∀ name, sought.expected = some name → unit.fullName = name) ∧ Within units unit

/-- What holds of a search whose end is known to be a closure: it only meets units of the closure,
and it looks at all entries before it looks at any import. -/
structure Safe (options : Options) (tree : FileTree) (sources : List Path)
    (units : List FoundUnit) (search : Search) : Prop where
  known : ∀ unit ∈ search.known, Within units unit
  sought : ∀ sought ∈ search.queue, Fits tree units sought
  entries : ∃ entries imports, search.queue = entries ++ imports ∧
    (∀ sought ∈ entries, sought.path ∈ sources) ∧
    ∀ path ∈ sources, (∃ sought ∈ entries, sought.path = path) ∨
      ∃ entry, scan tree path = .ok entry ∧ Knows search.known entry.fullName

theorem Safe.start (closure : ImportClosure options tree sources units)
    (same : ∀ path, path ∈ shuffled ↔ path ∈ sources) :
    Safe options tree sources units (.start shuffled) where
  known := by simp [Search.start]
  sought sought queued := by
    obtain ⟨path, isShuffled, rfl⟩ := List.mem_map.mp queued
    obtain ⟨entry, scanned, within⟩ := closure.entries path ((same path).mp isShuffled)
    exact ⟨entry, scanned, by simp, within⟩
  entries := by
    refine ⟨_, [], (List.append_nil _).symm, ?_, ?_⟩
    · intro sought queued
      obtain ⟨path, isShuffled, rfl⟩ := List.mem_map.mp queued
      exact (same path).mp isShuffled
    · intro path isSource
      exact .inl ⟨⟨path, none⟩, List.mem_map_of_mem ((same path).mpr isSource), rfl⟩

section Step

variable {sought : SoughtFile} {rest : List SoughtFile} {unit : FoundUnit}

/-- The look-up of an import that is not known leads to a unit of the closure.  If that unit is an
entry, then some entry is still to be looked at, so the importer is one, too. -/
theorem Safe.exists_import (safe : Safe options tree sources units ⟨known, sought :: rest⟩)
    (closure : ImportClosure options tree sources units)
    (findable : EntriesFindable options tree sources) (scanned : scan tree sought.path = .ok unit)
    (within : Within units unit) {name : String} (imported : name ∈ unit.header.imports)
    (unknown : ¬Knows known name) :
    ∃ path, options.importPath name = .ok path ∧ Fits tree units ⟨path, some name⟩ := by
  obtain ⟨twin, isTwin, -, samePlace⟩ := within
  have importedToo : name ∈ twin.header.imports := by
    rw [header_eq_of_location scanned (closure.scanned twin isTwin) samePlace]
    exact imported
  obtain ⟨target, isTarget, rfl⟩ := closure.imports twin isTwin name importedToo
  have scannedTarget := closure.scanned target isTarget
  rcases closure.origin target isTarget with isSource | isPath
  · obtain ⟨entries, imports, queue, areEntries, looked⟩ := safe.entries
    cases entries with
    | nil =>
        obtain ⟨_, impossible, -⟩ | ⟨entry, scannedEntry, isKnown⟩ := looked _ isSource
        · cases impossible
        · obtain rfl := Except.ok.inj (scannedEntry.symm.trans scannedTarget)
          exact absurd isKnown unknown
    | cons head others =>
        obtain ⟨rfl, -⟩ := List.cons.inj queue
        obtain ⟨found, isFound, same⟩ := findable _ isSource _ (areEntries _ List.mem_cons_self)
          target unit scannedTarget scanned imported
        exact ⟨found, isFound, _, scan_of_sameFile scannedTarget isFound same,
          fun _ isName => Option.some.inj isName, target, isTarget, rfl, rfl⟩
  · exact ⟨_, isPath, target, scannedTarget, fun _ isName => Option.some.inj isName, target,
      isTarget, rfl, rfl⟩

theorem exists_mapM_eq_ok {α β ε : Type} {convert : α → Except ε β} {items : List α}
    (all : ∀ item ∈ items, ∃ result, convert item = .ok result) :
    ∃ results, items.mapM convert = .ok results := by
  induction items with
  | nil => exact ⟨[], rfl⟩
  | cons item rest ih =>
      obtain ⟨result, here⟩ := all item List.mem_cons_self
      obtain ⟨results, later⟩ := ih fun other listed => all other (List.mem_cons_of_mem _ listed)
      exact ⟨result :: results, by rw [List.mapM_cons, here, later]; rfl⟩

/-- Imports that are all found are sought. -/
theorem exists_soughtImports {header : Header}
    (findable : ∀ name ∈ header.imports, ¬Knows known name →
      ∃ path, options.importPath name = .ok path ∧ Fits tree units ⟨path, some name⟩) :
    ∃ imports, soughtImports options tree known header = .ok imports ∧
      ∀ file ∈ imports, Fits tree units file := by
  have found : ∀ name ∈ header.imports.filter (fun name =>
      !known.any fun unit => unit.fullName == name),
      ∃ path, options.importPath name = .ok path ∧ Fits tree units ⟨path, some name⟩ := by
    intro name isMissing
    obtain ⟨imported, isNew⟩ := List.mem_filter.mp isMissing
    refine findable name imported ?_
    rintro ⟨unit, listed, rfl⟩
    simp only [Bool.not_eq_true', List.any_eq_false] at isNew
    exact isNew unit listed (by simp)
  obtain ⟨imports, looked⟩ :
      ∃ imports, soughtImports options tree known header = .ok imports := by
    refine exists_mapM_eq_ok fun name isMissing => ?_
    obtain ⟨path, isPath, unit, scanned, -⟩ := found name isMissing
    exact ⟨⟨path, some name⟩, by simp only [isPath, isFile_of_scan scanned, if_true]⟩
  refine ⟨imports, looked, fun file listed => ?_⟩
  obtain ⟨name, isMissing, converted⟩ := (mapM_eq_ok looked).2 file listed
  obtain ⟨expected, isPath⟩ := sought_eq_ok converted
  obtain ⟨path, isPathToo, fits⟩ := found name isMissing
  obtain rfl := Except.ok.inj (isPath.symm.trans isPathToo)
  rw [← expected] at fits
  exact fits

/-- Entries stay in front of imports, and the unit of one that was looked at is known. -/
theorem Safe.entries_behind (safe : Safe options tree sources units ⟨known, sought :: rest⟩)
    (scanned : scan tree sought.path = .ok unit) {later : List FoundUnit} (kept : known ⊆ later)
    (isKnown : Knows later unit.fullName) (more : List SoughtFile) :
    ∃ entries imports, rest ++ more = entries ++ imports ∧
      (∀ sought ∈ entries, sought.path ∈ sources) ∧
      ∀ path ∈ sources, (∃ sought ∈ entries, sought.path = path) ∨
        ∃ entry, scan tree path = .ok entry ∧ Knows later entry.fullName := by
  obtain ⟨entries, imports, queue, areEntries, looked⟩ := safe.entries
  have stays {path : Path} : (∃ entry, scan tree path = .ok entry ∧ Knows known entry.fullName) →
      ∃ entry, scan tree path = .ok entry ∧ Knows later entry.fullName := by
    rintro ⟨entry, scannedEntry, knows⟩
    exact ⟨entry, scannedEntry, knows.subset kept⟩
  cases entries with
  | nil => exact ⟨[], rest ++ more, rfl, by simp, fun path isSource =>
      (looked path isSource).imp_right stays⟩
  | cons head others =>
      obtain ⟨rfl, rfl⟩ := List.cons.inj queue
      refine ⟨others, imports ++ more, List.append_assoc .., ?_, ?_⟩
      · exact fun entry listed => areEntries entry (List.mem_cons_of_mem _ listed)
      · intro path isSource
        rcases looked path isSource with ⟨entry, listed, rfl⟩ | isThere
        · rcases List.mem_cons.mp listed with rfl | isLater
          · exact .inr ⟨unit, scanned, isKnown⟩
          · exact .inl ⟨entry, isLater, rfl⟩
        · exact .inr (stays isThere)

theorem checkExpected_eq_ok
    (expected : ∀ name, sought.expected = some name → unit.fullName = name) :
    checkExpected sought unit = .ok () := by
  unfold checkExpected
  split
  · rfl
  · rename_i name isExpected
    rw [if_pos (by simp [expected name isExpected])]

/-- A round of a safe search succeeds, and the search stays safe. -/
theorem Safe.look (safe : Safe options tree sources units ⟨known, sought :: rest⟩)
    (closure : ImportClosure options tree sources units)
    (findable : EntriesFindable options tree sources) :
    (look options tree known sought = .ok none ∧ Safe options tree sources units ⟨known, rest⟩) ∨
      ∃ unit imports, look options tree known sought = .ok (some (unit, imports)) ∧
        Safe options tree sources units ⟨known ++ [unit], rest ++ imports⟩ := by
  obtain ⟨unit, scanned, expected, within⟩ := safe.sought sought List.mem_cons_self
  have restFits : ∀ file ∈ rest, Fits tree units file :=
    fun file queued => safe.sought file (List.mem_cons_of_mem _ queued)
  simp only [Resolution.look, scanned, checkExpected_eq_ok expected, Bind.bind, Except.bind]
  cases isNew : known.find? fun other => other.fullName == unit.fullName with
  | some earlier =>
      have isKnown := List.mem_of_find?_eq_some isNew
      have sameName : earlier.fullName = unit.fullName := by simpa using List.find?_some isNew
      obtain ⟨twin, isTwin, twinName, twinPlace⟩ := within
      obtain ⟨other, isOther, otherName, otherPlace⟩ := safe.known earlier isKnown
      have samePlace : earlier.location = unit.location := by
        rw [← otherPlace, ← twinPlace, closure.eq_of_name isTwin isOther
          (otherName.trans (sameName.trans twinName.symm))]
      have entries :=
        safe.entries_behind scanned (List.Subset.refl _) ⟨earlier, isKnown, sameName⟩ []
      rw [List.append_nil] at entries
      refine .inl ⟨by simp only [samePlace, beq_self_eq_true, if_true]; rfl, ?_⟩
      exact ⟨safe.known, restFits, entries⟩
  | none =>
      obtain ⟨imports, looked, fits⟩ := exists_soughtImports fun name imported unknown =>
        safe.exists_import closure findable scanned within imported unknown
      refine .inr ⟨unit, imports, by simp only [looked]; rfl, ?_, ?_, ?_⟩
      · intro other listed
        rcases List.mem_append.mp listed with earlier | isLast
        · exact safe.known other earlier
        · rwa [List.mem_singleton.mp isLast]
      · intro file queued
        exact (List.mem_append.mp queued).elim (restFits file) (fits file)
      · exact safe.entries_behind scanned (List.subset_append_left ..)
          ⟨unit, List.mem_append_right _ (List.mem_singleton_self unit), rfl⟩ imports

end Step

/-- A safe search ends well. -/
theorem Search.Ends.exists_ok {rounds : Nat} {search : Search}
    {result : Except Failure (List FoundUnit)}
    (ends : Search.Ends options tree rounds search result)
    (closure : ImportClosure options tree sources units)
    (findable : EntriesFindable options tree sources)
    (safe : Safe options tree sources units search) : ∃ found, result = .ok found := by
  induction ends with
  | done => exact ⟨_, rfl⟩
  | failed looks =>
      obtain ⟨succeeds, -⟩ | ⟨unit, imports, succeeds, -⟩ := safe.look closure findable
      · cases looks.symm.trans succeeds
      · cases looks.symm.trans succeeds
  | passed looks _ ih =>
      obtain ⟨-, later⟩ | ⟨unit, imports, adds, -⟩ := safe.look closure findable
      · exact ih later
      · cases looks.symm.trans adds
  | added looks _ ih =>
      obtain ⟨passes, -⟩ | ⟨unit, imports, adds, later⟩ := safe.look closure findable
      · cases looks.symm.trans passes
      · cases looks.symm.trans adds
        exact ih later

theorem exists_discover (findable : EntriesFindable options tree sources)
    (same : ∀ path, path ∈ shuffled ↔ path ∈ sources)
    (discovered : discover options tree sources = .ok units) :
    ∃ others, discover options tree shuffled = .ok others := by
  obtain ⟨closure, -⟩ := closure_of_discover discovered
  obtain ⟨rounds, ends⟩ := ends_of_start options tree shuffled
  obtain ⟨found, isFound⟩ := ends.exists_ok closure findable (.start closure same)
  exact ⟨_, by rw [discover, isFound]; rfl⟩

/-- A search that ended well has kept what it knew, and each file that it had queued declares one of
its units. -/
theorem Search.Ends.fits {rounds : Nat} {search : Search}
    (ends : Search.Ends options tree rounds search (.ok units)) :
    search.known ⊆ units ∧ ∀ sought ∈ search.queue, Fits tree units sought := by
  generalize isResult : (.ok units : Except Failure (List FoundUnit)) = result at ends
  induction ends with
  | done =>
      cases isResult
      exact ⟨List.Subset.refl _, by simp⟩
  | failed => cases isResult
  | passed looks later ih =>
      obtain ⟨unit, scanned, expected, ⟨-, earlier, isKnown, same⟩ | ⟨_, ⟨⟩, _⟩⟩ := look_eq_ok looks
      obtain ⟨kept, fits⟩ := ih isResult
      refine ⟨kept, List.forall_mem_cons.mpr ⟨?_, fits⟩⟩
      exact ⟨unit, scanned, expected, earlier, kept isKnown, same⟩
  | @added _ _ _ imports unit _ _ looks later ih =>
      obtain ⟨_, scanned, expected, ⟨⟨⟩, _⟩ | ⟨_, ⟨⟩, -, -⟩⟩ := look_eq_ok looks
      obtain ⟨kept, fits⟩ := ih isResult
      refine ⟨fun other listed => kept (List.mem_append_left _ listed),
        List.forall_mem_cons.mpr ⟨?_, fun file queued => fits file (List.mem_append_left _ queued)⟩⟩
      exact ⟨unit, scanned, expected, unit,
        kept (List.mem_append_right _ (List.mem_singleton_self unit)), rfl, rfl⟩

/-- A search that starts with an importer looks up each of its imports, so entries that it imports
are found there. -/
theorem findable_of_discover (discovers : ∀ shuffled, shuffled.Perm sources →
    ∃ units, discover options tree shuffled = .ok units) :
    EntriesFindable options tree sources := by
  intro path isSource other isOther entry importer scanned scannedOther imported
  have shuffles := List.perm_cons_erase isOther
  obtain ⟨units, discovered⟩ := discovers _ shuffles.symm
  obtain ⟨found, searched, -⟩ := bind_eq_ok.mp discovered
  obtain ⟨rounds, ends⟩ := ends_of_start options tree (other :: sources.erase other)
  rw [searched] at ends
  have closure := ends.closure (.start options tree _)
  cases ends with
  | passed looks later =>
      obtain ⟨_, _, _, ⟨-, _, ⟨⟩, _⟩ | ⟨_, ⟨⟩, _⟩⟩ := look_eq_ok looks
  | added looks later =>
      obtain ⟨unit, scannedUnit, -, ⟨⟨⟩, _⟩ | ⟨imports, isAdded, -, looked⟩⟩ := look_eq_ok looks
      cases isAdded
      obtain rfl := Except.ok.inj (scannedUnit.symm.trans scannedOther)
      obtain ⟨forward, backward⟩ := soughtImports_eq_ok looked
      obtain ⟨_, ⟨⟩, _⟩ | ⟨file, queued, expected⟩ := forward _ imported
      obtain ⟨name, -, isName, isPath⟩ := backward file queued
      obtain rfl := Option.some.inj (isName.symm.trans expected)
      obtain ⟨target, scannedTarget, named, twin, isTwin, twinName, twinPlace⟩ :=
        later.fits.2 file (List.mem_append_right _ queued)
      have place := closure.location_of_entry (shuffles.mem_iff.mp isSource) scanned isTwin
        (twinName.trans (named _ expected)).symm
      obtain ⟨located, -⟩ := file_of_scan scannedTarget
      obtain ⟨locatedEntry, -⟩ := file_of_scan scanned
      rw [← twinPlace, place] at located
      exact ⟨file.path, isPath, entry.location, located, locatedEntry⟩

theorem exists_resolve (findable : EntriesFindable options tree sources)
    (same : ∀ path, path ∈ shuffled ↔ path ∈ sources)
    (resolves : ∃ resolution, resolve { options with sources := sources } tree = .ok resolution) :
    ∃ resolution, resolve { options with sources := shuffled } tree = .ok resolution := by
  obtain ⟨resolution, resolved⟩ := resolves
  obtain ⟨units, ordered, discovered, isOrder, -⟩ := resolve_withSources_eq_ok.mp resolved
  obtain ⟨others, rediscovered⟩ := exists_discover findable same discovered
  obtain ⟨closure, sorted⟩ := closure_of_discover discovered
  obtain ⟨other, sortedToo⟩ := closure_of_discover rediscovered
  obtain ⟨reordered, reorders, -⟩ := closure.order_alike other same sorted sortedToo isOrder
  exact ⟨_, resolve_withSources_eq_ok.mpr ⟨others, reordered, rediscovered, reorders, rfl⟩⟩

end Success

/-- If each entry that an entry imports is the file that the look-up of its name leads to, a run
finds its units in every order of the entries or in none.  Otherwise a run that finds its units in
one order does not find them in another. -/
theorem resolve_succeeds_in_any_order (options : Options) (tree : FileTree) :
    (EntriesFindable options tree options.sources → ∀ shuffled, shuffled.Perm options.sources →
      ((∃ resolution, resolve { options with sources := shuffled } tree = .ok resolution) ↔
        ∃ resolution, resolve options tree = .ok resolution)) ∧
    ((∃ resolution, resolve options tree = .ok resolution) →
      ¬EntriesFindable options tree options.sources →
        ∃ shuffled, shuffled.Perm options.sources ∧
          ∀ resolution, resolve { options with sources := shuffled } tree ≠ .ok resolution) := by
  constructor
  · intro findable shuffled same
    have sameMembers : ∀ path, path ∈ shuffled ↔ path ∈ options.sources := fun _ => same.mem_iff
    constructor
    · exact exists_resolve (findable.of_mem_iff sameMembers) fun path => (sameMembers path).symm
    · exact exists_resolve findable sameMembers
  · intro _ notFindable
    by_contra all
    push Not at all
    refine notFindable (findable_of_discover fun shuffled same => ?_)
    obtain ⟨resolution, resolved⟩ := all shuffled same
    obtain ⟨units, -, discovered, -⟩ := resolve_withSources_eq_ok.mp resolved
    exact ⟨units, discovered⟩

/-- A file and another one that imports it. -/
def entryTree : FileTree where
  nodes := [(["a"], .directory), (["a", "v1_0"], .directory),
    (["a", "v1_0", "Base.idl"], .file "package a.v1_0;".toUTF8),
    (["a", "v1_0", "IMain.idl"], .file "package a.v1_0; import a.v1_0.Base;".toUTF8)]

/-- A run over the two files, the imported one first. -/
def entryOptions (roots : List PackageRoot) : Options :=
  { sources := [pairPath "Base", pairPath "IMain"], roots := roots }

/-- The unit of the first file. -/
def baseUnit : FoundUnit :=
  ⟨⟨pairPath "Base", "a.v1_0", "Base", []⟩, ["a", "v1_0", "Base.idl"]⟩

/-- Another path of the first file. -/
def baseDetour : Path := ⟨"a/./v1_0//Base.idl"⟩

/-- A root that leads the look-up to the files. -/
def entryRoots : List PackageRoot := [⟨"a", ⟨"a"⟩⟩]

/-- The units of the two files, by each of the paths, how their names stand to one another, and what
a look-up comes to with the root and without. -/
theorem entryTree_spec :
    (scan entryTree (pairPath "Base")).toOption = some baseUnit ∧
      (scan entryTree baseDetour).toOption =
        some { baseUnit with header := { baseUnit.header with path := baseDetour } } ∧
      (scan entryTree (pairPath "IMain")).toOption = some (pairUnit "IMain" "Base") ∧
      (pairUnit "IMain" "Base").header.imports = [baseUnit.fullName] ∧
      baseUnit.fullName ≠ (pairUnit "IMain" "Base").fullName ∧
      baseUnit.fullName ≤ (pairUnit "IMain" "Base").fullName ∧
      ((entryOptions entryRoots).importPath baseUnit.fullName).toOption = some (pairPath "Base") ∧
      (look (entryOptions []) entryTree [] ⟨pairPath "IMain", none⟩).toOption = none := by
  decide +kernel

theorem scan_base : scan entryTree (pairPath "Base") = .ok baseUnit :=
  eq_ok_of_toOption entryTree_spec.1

theorem scan_detour : scan entryTree baseDetour =
    .ok { baseUnit with header := { baseUnit.header with path := baseDetour } } :=
  eq_ok_of_toOption entryTree_spec.2.1

theorem scan_main : scan entryTree (pairPath "IMain") = .ok (pairUnit "IMain" "Base") :=
  eq_ok_of_toOption entryTree_spec.2.2.1

theorem discover_of_ends {sources : List Path} {rounds : Nat} {units : List FoundUnit}
    (ends : Search.Ends options tree rounds (.start sources) (.ok units))
    (sorted : units.Pairwise fun left right => decide (left.fullName ≤ right.fullName) = true) :
    discover options tree sources = .ok units := by
  obtain ⟨others, endsToo⟩ := ends_of_start options tree sources
  rw [discover, endsToo.unique ends]
  simp only [Bind.bind, Except.bind]
  rw [List.mergeSort_of_pairwise sorted]
  rfl

/-- With an imported file in front of its importer, nothing is looked up, whatever the roots are. -/
theorem resolve_importing {path other : Path} {unit second : FoundUnit}
    (scanned : scan tree path = .ok unit) (scannedOther : scan tree other = .ok second)
    (noImports : unit.header.imports = []) (imports : second.header.imports = [unit.fullName])
    (differs : unit.fullName ≠ second.fullName) (sorted : unit.fullName ≤ second.fullName) :
    resolve { options with sources := [path, other] } tree =
      .ok ⟨[unit, second], [path, other]⟩ := by
  have first : look options tree [] ⟨path, none⟩ = .ok (some (unit, [])) := by
    simp [look, scanned, checkExpected, soughtImports, noImports, Bind.bind, Except.bind, Pure.pure,
      Except.pure]
  have last : look options tree [unit] ⟨other, none⟩ = .ok (some (second, [])) := by
    simp [look, scannedOther, checkExpected, soughtImports, imports, differs, Bind.bind,
      Except.bind, Pure.pure, Except.pure]
  have ends : Search.Ends options tree 2 (.start [path, other]) (.ok [unit, second]) :=
    .added first (.added last .done)
  have ordered : order [unit, second] = .ok [unit, second] := by
    simp [order, noImports, imports, differs, ImportGraph.order, ImportGraph.splitReady,
      ImportGraph.place, ImportGraph.advance, WaitingUnit.without]
  refine resolve_withSources_eq_ok.mpr ⟨_, _, discover_of_ends ends ?_, ordered, ?_⟩
  · simpa using sorted
  · simp [path_of_scan scanned, path_of_scan scannedOther]

theorem resolve_entryTree (roots : List PackageRoot) : ∃ resolution,
    resolve (entryOptions roots) entryTree = .ok resolution :=
  have ⟨_, _, _, imports, differs, sorted, _⟩ := entryTree_spec
  ⟨_, @resolve_importing (entryOptions roots) _ _ _ _ _ scan_base scan_main rfl imports differs
    sorted⟩

theorem entriesFindable_of_roots :
    EntriesFindable (entryOptions entryRoots) entryTree (entryOptions entryRoots).sources := by
  intro path isSource other isOther entry importer scanned scannedOther imported
  simp only [entryOptions, List.mem_cons, List.not_mem_nil, or_false] at isSource isOther
  rcases isOther with rfl | rfl
  · cases scan_base.symm.trans scannedOther
    cases imported
  · cases scan_main.symm.trans scannedOther
    obtain ⟨-, -, -, imports, differs, -, isPath, -⟩ := entryTree_spec
    rcases isSource with rfl | rfl
    · cases scan_base.symm.trans scanned
      obtain ⟨located, -⟩ := file_of_scan scan_base
      exact ⟨pairPath "Base", eq_ok_of_toOption isPath, _, located, located⟩
    · cases scan_main.symm.trans scanned
      rw [imports, List.mem_singleton] at imported
      exact absurd imported.symm differs

theorem not_entriesFindable_of_nil :
    ¬EntriesFindable (entryOptions []) entryTree (entryOptions []).sources := by
  intro findable
  obtain ⟨found, isFound, -⟩ := findable (pairPath "Base") (by simp [entryOptions])
    (pairPath "IMain") (by simp [entryOptions]) _ _ scan_base scan_main
    (entryTree_spec.2.2.2.1 ▸ List.mem_singleton_self _)
  cases isFound

theorem resolve_succeeds_in_any_order_entryTree :
    (∃ resolution, resolve { entryOptions entryRoots with
      sources := (entryOptions entryRoots).sources.reverse } entryTree = .ok resolution) ∧
      ∃ shuffled, shuffled.Perm (entryOptions []).sources ∧
        ∀ resolution, resolve { entryOptions [] with sources := shuffled } entryTree ≠
          .ok resolution := by
  obtain ⟨independent, -⟩ := resolve_succeeds_in_any_order (entryOptions entryRoots) entryTree
  obtain ⟨-, dependent⟩ := resolve_succeeds_in_any_order (entryOptions []) entryTree
  constructor
  · exact (independent entriesFindable_of_roots _ (List.reverse_perm _)).mpr (resolve_entryTree _)
  · exact dependent (resolve_entryTree []) not_entriesFindable_of_nil

/-- Without roots, the files are not found if the importing one is first. -/
theorem resolve_depends_on_order :
    (entryOptions []).sources.reverse.Perm (entryOptions []).sources ∧
      (∃ resolution, resolve (entryOptions []) entryTree = .ok resolution) ∧
      ∀ resolution, resolve { entryOptions [] with sources := (entryOptions []).sources.reverse }
        entryTree ≠ .ok resolution := by
  refine ⟨List.reverse_perm _, resolve_entryTree [], ?_⟩
  intro resolution resolved
  obtain ⟨units, -, discovered, -⟩ := resolve_withSources_eq_ok.mp resolved
  obtain ⟨found, searched, -⟩ := bind_eq_ok.mp discovered
  obtain ⟨-, -, -, -, -, -, -, fails⟩ := entryTree_spec
  have queue : (entryOptions []).sources.reverse.map (fun path => (⟨path, none⟩ : SoughtFile)) =
      [⟨pairPath "IMain", none⟩, ⟨pairPath "Base", none⟩] := rfl
  rw [queue, discoverFrom_cons] at searched
  obtain ⟨outcome, looks, -⟩ := bind_eq_ok.mp searched
  rw [looks] at fails
  cases fails

/-- Two runs over the same entries, whatever their order, that both find their units: the units have
the same names, in the same compile order, and at each place of it the two paths lead to one
file. -/
theorem resolve_agrees_in_any_order {options : Options} {tree : FileTree} {shuffled : List Path}
    {first second : Resolution} (same : shuffled.Perm options.sources)
    (resolved : resolve options tree = .ok first)
    (resolvedToo : resolve { options with sources := shuffled } tree = .ok second) :
    second.units.map FoundUnit.fullName = first.units.map FoundUnit.fullName ∧
      (∃ names, List.Forall₂ (Declares tree) first.paths names ∧
        List.Forall₂ (Declares tree) second.paths names) ∧
      List.Forall₂ tree.SameFile first.paths second.paths := by
  have sameMembers : ∀ path, path ∈ shuffled ↔ path ∈ options.sources := fun _ => same.mem_iff
  obtain ⟨units, ordered, discovered, isOrder, rfl⟩ := resolve_withSources_eq_ok.mp resolved
  obtain ⟨others, reordered, rediscovered, reorders, rfl⟩ :=
    resolve_withSources_eq_ok.mp resolvedToo
  obtain ⟨closure, sorted⟩ := closure_of_discover discovered
  obtain ⟨other, sortedToo⟩ := closure_of_discover rediscovered
  obtain ⟨_, reordersToo, aligned⟩ :=
    closure.order_alike other sameMembers sorted sortedToo isOrder
  obtain rfl := Except.ok.inj (reorders.symm.trans reordersToo)
  have names : reordered.map FoundUnit.fullName = ordered.map FoundUnit.fullName := by
    rw [← List.forall₂_eq_eq_eq, List.forall₂_map_left_iff, List.forall₂_map_right_iff]
    exact aligned.flip.imp fun _ _ alike => alike.1
  refine ⟨closure.names_eq other sameMembers sorted sortedToo,
    ⟨ordered.map FoundUnit.fullName, ?_, ?_⟩, ?_⟩
  · exact (found_of_order (found_of_discover discovered) isOrder).declares
  · rw [← names]
    exact (found_of_order (found_of_discover rediscovered) reorders).declares
  · rw [List.forall₂_map_left_iff, List.forall₂_map_right_iff]
    exact aligned.imp fun _ _ alike => alike.2

/-- Of two paths of one file without imports, a run keeps the first. -/
theorem resolve_twice {path other : Path} {unit second : FoundUnit}
    (scanned : scan tree path = .ok unit) (scannedOther : scan tree other = .ok second)
    (samePlace : second.location = unit.location) (noImports : unit.header.imports = []) :
    resolve { options with sources := [path, other] } tree = .ok ⟨[unit], [path]⟩ := by
  have none : soughtImports options tree [] unit.header = .ok [] := by
    rw [soughtImports, noImports]
    rfl
  have first : look options tree [] ⟨path, .none⟩ = .ok (some (unit, [])) := by
    simp only [look, scanned, checkExpected, List.find?_nil, none, Bind.bind, Except.bind]
    rfl
  have again : look options tree [unit] ⟨other, .none⟩ = .ok .none := by
    have sameName := fullName_eq_of_location scanned scannedOther samePlace
    simp [look, scannedOther, checkExpected, sameName, samePlace, Bind.bind, Except.bind, Pure.pure,
      Except.pure]
  have ends : Search.Ends options tree 2 (.start [path, other]) (.ok [unit]) :=
    .added first (.passed again .done)
  have ordered : order [unit] = .ok [unit] := by
    simp [order, noImports, ImportGraph.order, ImportGraph.splitReady, ImportGraph.place,
      ImportGraph.advance]
  refine resolve_withSources_eq_ok.mpr ⟨_, _, discover_of_ends ends (by simp), ordered, ?_⟩
  rw [List.map_singleton, path_of_scan scanned]

/-- The file is kept under the path that is given first, and the two paths lead to it. -/
theorem resolve_agrees_in_any_order_detour : ∃ first second,
    resolve { sources := [pairPath "Base", baseDetour] } entryTree = .ok first ∧
      resolve { sources := [baseDetour, pairPath "Base"] } entryTree = .ok second ∧
      first.paths = [pairPath "Base"] ∧ second.paths = [baseDetour] ∧
      List.Forall₂ entryTree.SameFile first.paths second.paths := by
  have resolved : resolve { sources := [pairPath "Base", baseDetour] } entryTree = .ok _ :=
    @resolve_twice {} _ _ _ _ _ scan_base scan_detour rfl rfl
  have resolvedToo : resolve { sources := [baseDetour, pairPath "Base"] } entryTree = .ok _ :=
    @resolve_twice {} _ _ _ _ _ scan_detour scan_base rfl rfl
  refine ⟨_, _, resolved, resolvedToo, rfl, rfl, ?_⟩
  exact (resolve_agrees_in_any_order (List.Perm.swap _ _ _) resolved resolvedToo).2.2

end Resolution

end DriverIdl
