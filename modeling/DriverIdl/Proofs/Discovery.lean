import DriverIdl.Proofs.Model.Arena
import DriverIdl.Proofs.Resolution
import Mathlib.Logic.Relation

/-!
# The search for units ends with the closure of the imports

A search keeps the units that it knows and a queue of files to be looked at.  A file is queued once
for each unit that imports it, but it adds a unit, and with it more files, only the first time: the
unit that a file declares depends on the place of the file alone.  So a search over finitely many
files ends, without any bound on its rounds, and what it then knows is the entries and whatever they
import, directly or through others.
-/

namespace DriverIdl

section Names

theorem Path.components_concat {path : Path} {pieces : List (List Char)} {last : List Char}
    (split : Text.pieces '/' path.text.toList = pieces ++ [last]) (visible : last ≠ [])
    (moves : last ≠ ['.']) :
    ∃ before, path.components =
      before ++ [if last = ['.', '.'] then .parent else .normal (String.ofList last)] := by
  simp only [components, split, List.filterMap_append]
  refine ⟨_, (List.append_assoc _ _ _).symm.trans (congrArg _ ?_)⟩
  simp only [List.filterMap_cons, List.filterMap_nil]
  by_cases up : last = ['.', '.']
  · simp [up]
  · simp only [if_neg up]

/-- The name of a file is the last piece of its path. -/
theorem Path.fileName?_eq_some {path : Path} {pieces : List (List Char)} {last : List Char}
    {name : String} (split : Text.pieces '/' path.text.toList = pieces ++ [last])
    (visible : last ≠ []) (moves : last ≠ ['.']) (named : path.fileName? = some name) :
    last ≠ ['.', '.'] ∧ name = String.ofList last := by
  obtain ⟨before, steps⟩ := components_concat split visible moves
  rw [fileName?, steps, List.getLast?_concat] at named
  by_cases up : last = ['.', '.']
  · simp [up] at named
  · rw [if_neg up] at named
    exact ⟨up, (Option.some.inj named).symm⟩

variable {tree : FileTree}

/-- A step that ends at a file goes down by the name of the file, or up. -/
theorem FileTree.getLast?_of_step {place location : Location} {piece : List Char}
    {contents : ByteArray} (steps : tree.step place (String.ofList piece) = .ok location)
    (isFile : tree.node? location = some (.file contents)) :
    piece ≠ [] ∧ piece ≠ ['.'] ∧
      (piece ≠ ['.', '.'] → location.getLast? = some (String.ofList piece)) := by
  unfold step at steps
  split at steps
  · rename_i isDirectory
    split at steps
    · cases steps
      rw [isDirectory] at isFile
      cases isFile
    · rename_i stays
      refine ⟨by rintro rfl; simp at stays, by rintro rfl; simp at stays, ?_⟩
      intro up
      have down : ¬(String.ofList piece == "..") = true := by
        simpa [← String.toList_inj] using up
      rw [if_neg down] at steps
      split at steps
      · cases steps
      · split at steps
        · cases steps
          rw [List.getLast?_concat]
        · cases steps
  · cases steps
  · cases steps

/-- A file has the same name in every path that leads to it. -/
theorem FileTree.fileName?_of_locate {path : Path} {location : Location} {contents : ByteArray}
    {name : String} (located : tree.locate path = .ok location)
    (isFile : tree.node? location = some (.file contents)) (named : path.fileName? = some name) :
    location.getLast? = some name := by
  have pieces := List.dropLast_append_getLast (List.splitOn_ne_nil '/' path.text.toList)
  generalize (path.text.toList.splitOn '/').dropLast = before at pieces
  generalize (path.text.toList.splitOn '/').getLast _ = last at pieces
  have split : Text.pieces '/' path.text.toList = before ++ [last] := pieces.symm
  simp only [locate, follow, Path.pieces, split, List.map_append, List.map_cons, List.map_nil,
    List.foldlM_append, List.foldlM_cons, List.foldlM_nil, bind_pure] at located
  have followed : ∃ place, tree.step place (String.ofList last) = .ok location := by
    split at located
    · cases located
    · split at located
      · cases located
      · split at located
        · cases located
        · obtain ⟨place, -, steps⟩ := Resolution.bind_eq_ok.mp located
          exact ⟨place, steps⟩
  obtain ⟨place, steps⟩ := followed
  obtain ⟨visible, moves, down⟩ := getLast?_of_step steps isFile
  obtain ⟨up, rfl⟩ := Path.fileName?_eq_some split visible moves named
  exact down up

end Names

namespace Resolution

variable {options : Options} {tree : FileTree}

section Files

/-- A unit that was found stands in a file of the tree. -/
theorem file_of_scan {path : Path} {unit : FoundUnit} (scanned : scan tree path = .ok unit) :
    tree.locate path = .ok unit.location ∧ ∃ contents source,
      tree.node? unit.location = some (.file contents) ∧
        String.fromUTF8? contents = some source ∧
        Header.ofSource path source = .ok unit.header := by
  unfold scan at scanned
  split at scanned
  · rename_i source location readable located
    split at scanned
    · rename_i header isHeader
      cases scanned
      refine ⟨located, ?_⟩
      obtain ⟨contents, isRead, decodes⟩ := bind_eq_ok.mp readable
      obtain ⟨place, reached, holds⟩ := bind_eq_ok.mp isRead
      obtain rfl := Except.ok.inj (located.symm.trans reached)
      split at holds
      · rename_i stored isFile
        cases holds
        split at decodes
        · rename_i text decoded
          cases decodes
          exact ⟨contents, source, isFile, decoded, isHeader⟩
        · cases decodes
      · cases holds
    · cases scanned
  · cases scanned
  · cases scanned

theorem location_mem_files {path : Path} {unit : FoundUnit} (scanned : scan tree path = .ok unit) :
    unit.location ∈ tree.files := by
  obtain ⟨-, contents, -, isFile, -⟩ := file_of_scan scanned
  rw [FileTree.node?] at isFile
  split at isFile
  · cases isFile
  · exact List.mem_filterMap.mpr ⟨_, mem_of_lookup_eq_some isFile, rfl⟩

/-- The parts of a header that do not depend on how the file is called. -/
theorem header_of_stem {path other : Path} {source : String} {header second : Header}
    (isHeader : Header.ofSource path source = .ok header)
    (isSecond : Header.ofSource other source = .ok second) (sameStem : path.stem? = other.stem?) :
    second = { header with path := other } := by
  unfold Header.ofSource at isHeader isSecond
  cases stem : path.stem? with
  | none =>
      rw [stem] at isHeader
      cases isHeader
  | some name =>
      simp only [← sameStem, stem] at isHeader isSecond
      split at isHeader
      · rename_i statement isStatement
        simp only [isStatement] at isSecond
        split at isHeader
        · rename_i package statements isPackage
          simp only [isPackage] at isSecond
          cases isHeader
          cases isSecond
          rfl
        · cases isHeader
      · cases isHeader

/-- The last name of a place names the unit in the file. -/
theorem stem?_of_scan {path : Path} {unit : FoundUnit} (scanned : scan tree path = .ok unit) :
    path.stem? = unit.location.getLast?.map Path.stemOf := by
  obtain ⟨located, contents, source, isFile, -, isHeader⟩ := file_of_scan scanned
  cases named : path.fileName? with
  | none =>
      have noStem : path.stem? = none := by rw [Path.stem?, named, Option.map_none]
      rw [Header.ofSource, noStem] at isHeader
      cases isHeader
  | some name => rw [Path.stem?, named, FileTree.fileName?_of_locate located isFile named]

/-- Two paths that lead to one file give one unit. -/
theorem header_eq_of_location {path other : Path} {unit second : FoundUnit}
    (scanned : scan tree path = .ok unit) (scannedOther : scan tree other = .ok second)
    (samePlace : second.location = unit.location) :
    second.header = { unit.header with path := other } := by
  have sameStem : path.stem? = other.stem? := by
    rw [stem?_of_scan scanned, stem?_of_scan scannedOther, samePlace]
  obtain ⟨-, contents, source, isFile, decoded, isHeader⟩ := file_of_scan scanned
  obtain ⟨-, _, _, isSame, decodedSame, isSecond⟩ := file_of_scan scannedOther
  rw [samePlace, isFile] at isSame
  cases isSame
  obtain rfl := Option.some.inj (decoded.symm.trans decodedSame)
  exact header_of_stem isHeader isSecond sameStem

theorem fullName_eq_of_location {path other : Path} {unit second : FoundUnit}
    (scanned : scan tree path = .ok unit) (scannedOther : scan tree other = .ok second)
    (samePlace : second.location = unit.location) : second.fullName = unit.fullName := by
  rw [FoundUnit.fullName, header_eq_of_location scanned scannedOther samePlace]
  rfl

end Files

/-- What a file of the queue adds to the units that are known: nothing if it declares one of them
and is the same file, or else a new unit and the files of its imports that are not known. -/
def look (options : Options) (tree : FileTree) (known : List FoundUnit) (sought : SoughtFile) :
    Except Failure (Option (FoundUnit × List SoughtFile)) := do
  let unit ← scan tree sought.path
  checkExpected sought unit
  match known.find? fun other => other.fullName == unit.fullName with
  | some earlier =>
    if earlier.location == unit.location then return none
    else throw (.resolve (.declaredTwice unit.fullName earlier.header.path unit.header.path))
  | none =>
    let imports ← soughtImports options tree known unit.header
    return some (unit, imports)

/-- A search under way: the units that it knows and the files that it still has to look at. -/
structure Search where
  known : List FoundUnit
  queue : List SoughtFile

/-- A search that starts with given files. -/
def Search.start (sources : List Path) : Search := ⟨[], sources.map fun path => ⟨path, none⟩⟩

/-- A search that goes on for as long as there are files to look at ends after some rounds with a
result: the units that are then known, or the failure of its last round. -/
inductive Search.Ends (options : Options) (tree : FileTree) :
    Nat → Search → Except Failure (List FoundUnit) → Prop
  | done {known : List FoundUnit} : Ends options tree 0 ⟨known, []⟩ (.ok known)
  | failed {known : List FoundUnit} {sought : SoughtFile} {rest : List SoughtFile}
    {failure : Failure} (looks : look options tree known sought = .error failure) :
    Ends options tree 1 ⟨known, sought :: rest⟩ (.error failure)
  | passed {known : List FoundUnit} {sought : SoughtFile} {rest : List SoughtFile} {rounds : Nat}
    {result : Except Failure (List FoundUnit)} (looks : look options tree known sought = .ok none)
    (later : Ends options tree rounds ⟨known, rest⟩ result) :
    Ends options tree (rounds + 1) ⟨known, sought :: rest⟩ result
  | added {known : List FoundUnit} {sought : SoughtFile} {rest imports : List SoughtFile}
    {unit : FoundUnit} {rounds : Nat} {result : Except Failure (List FoundUnit)}
    (looks : look options tree known sought = .ok (some (unit, imports)))
    (later : Ends options tree rounds ⟨known ++ [unit], rest ++ imports⟩ result) :
    Ends options tree (rounds + 1) ⟨known, sought :: rest⟩ result

theorem Search.Ends.unique {rounds others : Nat} {search : Search}
    {first second : Except Failure (List FoundUnit)} (ends : Ends options tree rounds search first)
    (endsToo : Ends options tree others search second) : first = second := by
  induction ends generalizing others with
  | done =>
      cases endsToo
      rfl
  | failed looks =>
      cases endsToo with
      | failed looksToo => exact congrArg _ (Except.error.inj (looks.symm.trans looksToo))
      | passed looksToo => cases looks.symm.trans looksToo
      | added looksToo => cases looks.symm.trans looksToo
  | passed looks _ ih =>
      cases endsToo with
      | failed looksToo => cases looks.symm.trans looksToo
      | passed looksToo later => exact ih later
      | added looksToo => cases looks.symm.trans looksToo
  | added looks _ ih =>
      cases endsToo with
      | failed looksToo => cases looks.symm.trans looksToo
      | passed looksToo => cases looks.symm.trans looksToo
      | added looksToo later =>
          cases looks.symm.trans looksToo
          exact ih later

section Rounds

variable {known : List FoundUnit} {sought : SoughtFile}

theorem discoverFrom_cons (unread : List Location) (rest : List SoughtFile) :
    discoverFrom options tree unread known (sought :: rest) = (do
      match ← look options tree known sought with
      | none => discoverFrom options tree unread known rest
      | some (unit, imports) =>
        if unit.location ∈ unread then
          discoverFrom options tree (unread.erase unit.location) (known ++ [unit]) (rest ++ imports)
        else discoverFrom options tree unread known rest) := by
  rw [discoverFrom, look]
  simp only [bind_assoc]
  apply bind_congr
  intro unit
  apply bind_congr
  intro expects
  cases known.find? fun other => other.fullName == unit.fullName with
  | some earlier =>
      by_cases same : earlier.location == unit.location
      · simp only [same, ↓reduceIte, pure_bind]
      · simp only [same]
        rfl
  | none => simp only [bind_assoc, pure_bind]

/-- The two ways in which a look at a file succeeds. -/
theorem look_eq_ok {outcome : Option (FoundUnit × List SoughtFile)}
    (looks : look options tree known sought = .ok outcome) :
    ∃ unit, scan tree sought.path = .ok unit ∧
      (∀ name, sought.expected = some name → unit.fullName = name) ∧
      ((outcome = none ∧ ∃ earlier ∈ known, earlier.fullName = unit.fullName ∧
          earlier.location = unit.location) ∨
        ∃ imports, outcome = some (unit, imports) ∧
          known.find? (fun other => other.fullName == unit.fullName) = none ∧
          soughtImports options tree known unit.header = .ok imports) := by
  obtain ⟨unit, scanned, looks⟩ := bind_eq_ok.mp looks
  obtain ⟨_, expects, looks⟩ := bind_eq_ok.mp looks
  refine ⟨unit, scanned, ?_, ?_⟩
  · intro name isExpected
    simp only [checkExpected, isExpected] at expects
    split at expects
    · rename_i same
      exact (beq_iff_eq.mp same).symm
    · cases expects
  · cases isNew : known.find? fun other => other.fullName == unit.fullName with
    | some earlier =>
        simp only [isNew] at looks
        split at looks
        · rename_i same
          cases looks
          exact .inl ⟨rfl, earlier, List.mem_of_find?_eq_some isNew,
            by simpa using List.find?_some isNew, beq_iff_eq.mp same⟩
        · cases looks
    | none =>
        simp only [isNew] at looks
        obtain ⟨imports, sought, looks⟩ := bind_eq_ok.mp looks
        cases looks
        exact .inr ⟨imports, rfl, rfl, sought⟩

end Rounds

section Termination

open Search

/-- The guard of `discoverFrom` is never met: a file that was read before declares a unit that is
known.  So `discoverFrom` follows the rounds of a search to their end. -/
theorem ends_discoverFrom {unread : List Location} {known : List FoundUnit}
    {queue : List SoughtFile} (found : Found tree known)
    (covers : ∀ location ∈ tree.files, location ∉ unread →
      ∃ unit ∈ known, unit.location = location) :
    ∃ rounds, Ends options tree rounds ⟨known, queue⟩
      (discoverFrom options tree unread known queue) := by
  induction unread, known, queue using discoverFrom.induct with
  | case1 unread known =>
      rw [discoverFrom]
      exact ⟨0, .done⟩
  | case2 unread known sought rest skips reads =>
      rw [discoverFrom_cons]
      cases looks : look options tree known sought with
      | error failure => exact ⟨1, .failed looks⟩
      | ok outcome =>
          obtain ⟨unit, scanned, -, ⟨rfl, -⟩ | ⟨imports, rfl, isNew, -⟩⟩ := look_eq_ok looks
          · obtain ⟨rounds, ends⟩ := skips found covers
            exact ⟨rounds + 1, .passed looks ends⟩
          · have unreadYet : unit.location ∈ unread := by
              by_contra isRead
              obtain ⟨earlier, isKnown, samePlace⟩ :=
                covers unit.location (location_mem_files scanned) isRead
              have sameName := fullName_eq_of_location scanned (found.scanned _ isKnown) samePlace
              have different := List.find?_eq_none.mp isNew earlier isKnown
              simp [sameName] at different
            obtain ⟨rounds, ends⟩ := reads unit imports unreadYet
              (found.append_singleton scanned isNew) (by
                intro location listed isRead
                by_cases here : location = unit.location
                · exact ⟨unit, by simp, here.symm⟩
                · rw [List.mem_erase_of_ne here] at isRead
                  obtain ⟨earlier, isKnown, place⟩ := covers location listed isRead
                  exact ⟨earlier, List.mem_append_left _ isKnown, place⟩)
            refine ⟨rounds + 1, .added looks ?_⟩
            simp only [Bind.bind, Except.bind, if_pos unreadYet]
            exact ends

theorem ends_of_start (options : Options) (tree : FileTree) (sources : List Path) :
    ∃ rounds, Ends options tree rounds (.start sources)
      (discoverFrom options tree tree.files [] (sources.map fun path => ⟨path, none⟩)) :=
  ends_discoverFrom ⟨by simp, by simp⟩ fun _ listed isRead => absurd listed isRead

end Termination

section Closure

/-- A unit of some name is among given ones. -/
def Knows (units : List FoundUnit) (name : String) : Prop :=
  ∃ unit ∈ units, unit.fullName = name

/-- Among given units, one of the first name imports the second. -/
def Imports (units : List FoundUnit) (first second : String) : Prop :=
  ∃ unit ∈ units, unit.fullName = first ∧ second ∈ unit.header.imports

/-- A name is that of the unit in an entry, or a chain of imports leads to it from one. -/
def Reached (tree : FileTree) (sources : List Path) (units : List FoundUnit) (name : String) :
    Prop :=
  ∃ path ∈ sources, ∃ entry, scan tree path = .ok entry ∧
    Relation.ReflTransGen (Imports units) entry.fullName name

theorem Knows.subset {units others : List FoundUnit} {name : String} (knows : Knows units name)
    (subset : units ⊆ others) : Knows others name := by
  obtain ⟨unit, listed, named⟩ := knows
  exact ⟨unit, subset listed, named⟩

theorem Reached.subset {sources : List Path} {units others : List FoundUnit} {name : String}
    (reached : Reached tree sources units name) (subset : units ⊆ others) :
    Reached tree sources others name := by
  obtain ⟨path, isSource, entry, scanned, chain⟩ := reached
  refine ⟨path, isSource, entry, scanned, Relation.ReflTransGen.mono ?_ _ _ chain⟩
  rintro first second ⟨unit, listed, named, imported⟩
  exact ⟨unit, subset listed, named, imported⟩

theorem Reached.imports {sources : List Path} {units : List FoundUnit} {unit : FoundUnit}
    {name : String} (reached : Reached tree sources units unit.fullName) (listed : unit ∈ units)
    (imported : name ∈ unit.header.imports) : Reached tree sources units name := by
  obtain ⟨path, isSource, entry, scanned, chain⟩ := reached
  exact ⟨path, isSource, entry, scanned, chain.tail ⟨unit, listed, rfl, imported⟩⟩

/-- Units that are the closure of the imports of given files. -/
structure ImportClosure (options : Options) (tree : FileTree) (sources : List Path)
    (units : List FoundUnit) : Prop where
  /-- Each unit is what its own file declares. -/
  scanned : ∀ unit ∈ units, scan tree unit.header.path = .ok unit
  /-- No name stands for two units. -/
  names_nodup : (units.map FoundUnit.fullName).Nodup
  /-- The unit of each given file is there. -/
  entries : ∀ path ∈ sources, ∃ entry, scan tree path = .ok entry ∧
    ∃ unit ∈ units, unit.fullName = entry.fullName ∧ unit.location = entry.location
  /-- Whatever a unit imports is there. -/
  imports : ∀ unit ∈ units, ∀ name ∈ unit.header.imports, Knows units name
  /-- Nothing else is there. -/
  reached : ∀ unit ∈ units, Reached tree sources units unit.fullName
  /-- A unit that is not of a given file was read where imports of its name are looked for. -/
  origin : ∀ unit ∈ units, unit.header.path ∈ sources ∨
    options.importPath unit.fullName = .ok unit.header.path

/-- What holds of a search in every round: the closure of the imports up to what the queue still
holds, and each file of the queue is an entry or the file of an import. -/
structure Progress (options : Options) (tree : FileTree) (sources : List Path) (search : Search) :
    Prop where
  found : Found tree search.known
  entries : ∀ path ∈ sources, ⟨path, none⟩ ∈ search.queue ∨
    ∃ entry, scan tree path = .ok entry ∧
      ∃ unit ∈ search.known, unit.fullName = entry.fullName ∧ unit.location = entry.location
  imports : ∀ unit ∈ search.known, ∀ name ∈ unit.header.imports,
    Knows search.known name ∨ ∃ sought ∈ search.queue, sought.expected = some name
  reached : ∀ unit ∈ search.known, Reached tree sources search.known unit.fullName
  origin : ∀ unit ∈ search.known, unit.header.path ∈ sources ∨
    options.importPath unit.fullName = .ok unit.header.path
  sought : ∀ sought ∈ search.queue, (sought.expected = none ∧ sought.path ∈ sources) ∨
    ∃ name, sought.expected = some name ∧ options.importPath name = .ok sought.path ∧
      ∃ unit ∈ search.known, name ∈ unit.header.imports

theorem Progress.start (options : Options) (tree : FileTree) (sources : List Path) :
    Progress options tree sources (.start sources) where
  found := ⟨by simp [Search.start], by simp [Search.start]⟩
  entries path isSource := .inl (List.mem_map_of_mem isSource)
  imports := by simp [Search.start]
  reached := by simp [Search.start]
  origin := by simp [Search.start]
  sought sought listed := by
    obtain ⟨path, isSource, rfl⟩ := List.mem_map.mp listed
    exact .inl ⟨rfl, isSource⟩

theorem Progress.closure {sources : List Path} {known : List FoundUnit}
    (progress : Progress options tree sources ⟨known, []⟩) :
    ImportClosure options tree sources known where
  scanned := progress.found.scanned
  names_nodup := progress.found.names_nodup
  entries path isSource := (progress.entries path isSource).resolve_left List.not_mem_nil
  imports unit listed name imported :=
    (progress.imports unit listed name imported).resolve_right fun ⟨_, queued, _⟩ =>
      List.not_mem_nil queued
  reached := progress.reached
  origin := progress.origin

section Step

variable {sources : List Path} {known : List FoundUnit} {sought : SoughtFile}
  {rest : List SoughtFile}

/-- What is known of the unit in the first file of the queue. -/
theorem Progress.head (progress : Progress options tree sources ⟨known, sought :: rest⟩)
    {unit : FoundUnit} (scanned : scan tree sought.path = .ok unit)
    (expected : ∀ name, sought.expected = some name → unit.fullName = name) :
    (unit.header.path ∈ sources ∨ options.importPath unit.fullName = .ok unit.header.path) ∧
      Reached tree sources known unit.fullName := by
  rw [path_of_scan scanned]
  rcases progress.sought sought List.mem_cons_self with
    ⟨-, isSource⟩ | ⟨name, isExpected, isPath, importer, listed, imported⟩
  · exact ⟨.inl isSource, sought.path, isSource, unit, scanned, .refl⟩
  · rw [expected name isExpected]
    exact ⟨.inr isPath, (progress.reached importer listed).imports listed imported⟩

/-- A file that declares a known unit leaves nothing open. -/
theorem Progress.passed (progress : Progress options tree sources ⟨known, sought :: rest⟩)
    {unit earlier : FoundUnit} (scanned : scan tree sought.path = .ok unit)
    (expected : ∀ name, sought.expected = some name → unit.fullName = name)
    (isKnown : earlier ∈ known) (sameName : earlier.fullName = unit.fullName)
    (samePlace : earlier.location = unit.location) :
    Progress options tree sources ⟨known, rest⟩ where
  found := progress.found
  entries path isSource := by
    rcases progress.entries path isSource with queued | isThere
    · rcases List.mem_cons.mp queued with rfl | queued
      · exact .inr ⟨unit, scanned, earlier, isKnown, sameName, samePlace⟩
      · exact .inl queued
    · exact .inr isThere
  imports importer listed name imported := by
    rcases progress.imports importer listed name imported with isThere | ⟨file, queued, isName⟩
    · exact .inl isThere
    · rcases List.mem_cons.mp queued with rfl | queued
      · exact .inl ⟨earlier, isKnown, sameName.trans (expected name isName)⟩
      · exact .inr ⟨file, queued, isName⟩
  reached := progress.reached
  origin := progress.origin
  sought file queued := progress.sought file (List.mem_cons_of_mem _ queued)

theorem mapM_eq_ok {α β ε : Type} {convert : α → Except ε β} {items : List α} {results : List β}
    (converted : items.mapM convert = .ok results) :
    (∀ item ∈ items, ∃ result ∈ results, convert item = .ok result) ∧
      ∀ result ∈ results, ∃ item ∈ items, convert item = .ok result := by
  induction items generalizing results with
  | nil =>
      cases converted
      simp
  | cons item rest ih =>
      rw [List.mapM_cons] at converted
      obtain ⟨result, here, converted⟩ := bind_eq_ok.mp converted
      obtain ⟨others, later, last⟩ := bind_eq_ok.mp converted
      cases last
      obtain ⟨forward, backward⟩ := ih later
      simp only [List.forall_mem_cons, List.exists_mem_cons_iff]
      exact ⟨⟨.inl here, fun item listed => .inr (forward item listed)⟩,
        .inl here, fun result listed => .inr (backward result listed)⟩

theorem sought_eq_ok {header : Header} {name : String} {file : SoughtFile}
    (converted : (match options.importPath name with
      | .error fault => .error (.resolve (.importName fault))
      | .ok path =>
        if tree.isFile path then .ok ⟨path, some name⟩
        else .error (.resolve (.importMissing name header.path path)) :
        Except Failure SoughtFile) = .ok file) :
    file.expected = some name ∧ options.importPath name = .ok file.path := by
  split at converted
  · cases converted
  · rename_i path isPath
    split at converted
    · cases converted
      exact ⟨rfl, isPath⟩
    · cases converted

/-- The imports of a unit are known or sought, and only they are sought. -/
theorem soughtImports_eq_ok {header : Header} {imports : List SoughtFile}
    (looked : soughtImports options tree known header = .ok imports) :
    (∀ name ∈ header.imports, Knows known name ∨ ∃ file ∈ imports, file.expected = some name) ∧
      ∀ file ∈ imports, ∃ name ∈ header.imports, file.expected = some name ∧
        options.importPath name = .ok file.path := by
  obtain ⟨forward, backward⟩ := mapM_eq_ok looked
  constructor
  · intro name imported
    by_cases isKnown : known.any fun unit => unit.fullName == name
    · obtain ⟨unit, listed, same⟩ := List.any_eq_true.mp isKnown
      exact .inl ⟨unit, listed, beq_iff_eq.mp same⟩
    · obtain ⟨file, listed, converted⟩ := forward name
        (List.mem_filter.mpr ⟨imported, by simpa using isKnown⟩)
      exact .inr ⟨file, listed, (sought_eq_ok converted).1⟩
  · intro file listed
    obtain ⟨name, isMissing, converted⟩ := backward file listed
    exact ⟨name, List.mem_of_mem_filter isMissing, sought_eq_ok converted⟩

/-- A new unit takes the place of its file, and its imports are known or sought. -/
theorem Progress.added (progress : Progress options tree sources ⟨known, sought :: rest⟩)
    {unit : FoundUnit} {imports : List SoughtFile} (scanned : scan tree sought.path = .ok unit)
    (expected : ∀ name, sought.expected = some name → unit.fullName = name)
    (isNew : known.find? (fun other => other.fullName == unit.fullName) = none)
    (looked : soughtImports options tree known unit.header = .ok imports) :
    Progress options tree sources ⟨known ++ [unit], rest ++ imports⟩ := by
  obtain ⟨origin, reached⟩ := progress.head scanned expected
  obtain ⟨knownOrSought, onlyImports⟩ := soughtImports_eq_ok looked
  have isLast : unit ∈ known ++ [unit] := List.mem_append_right _ (List.mem_singleton_self unit)
  have isSought {name : String} {file : SoughtFile} (queued : file ∈ sought :: rest)
      (isName : file.expected = some name) :
      Knows (known ++ [unit]) name ∨ ∃ file ∈ rest ++ imports, file.expected = some name := by
    rcases List.mem_cons.mp queued with rfl | queued
    · exact .inl ⟨unit, isLast, expected name isName⟩
    · exact .inr ⟨file, List.mem_append_left _ queued, isName⟩
  refine ⟨progress.found.append_singleton scanned isNew, ?_, ?_, ?_, ?_, ?_⟩
  · intro path isSource
    rcases progress.entries path isSource with queued | ⟨entry, isEntry, earlier, listed, same⟩
    · rcases List.mem_cons.mp queued with rfl | queued
      · exact .inr ⟨unit, scanned, unit, isLast, rfl, rfl⟩
      · exact .inl (List.mem_append_left _ queued)
    · exact .inr ⟨entry, isEntry, earlier, List.mem_append_left _ listed, same⟩
  · intro importer listed name imported
    rcases List.mem_append.mp listed with listed | listed
    · rcases progress.imports importer listed name imported with isThere | ⟨file, queued, isName⟩
      · exact .inl (isThere.subset (List.subset_append_left ..))
      · exact isSought queued isName
    · obtain rfl := List.mem_singleton.mp listed
      rcases knownOrSought name imported with isThere | ⟨file, queued, isName⟩
      · exact .inl (isThere.subset (List.subset_append_left ..))
      · exact .inr ⟨file, List.mem_append_right _ queued, isName⟩
  · intro other listed
    rcases List.mem_append.mp listed with listed | listed
    · exact (progress.reached other listed).subset (List.subset_append_left ..)
    · obtain rfl := List.mem_singleton.mp listed
      exact reached.subset (List.subset_append_left ..)
  · intro other listed
    rcases List.mem_append.mp listed with listed | listed
    · exact progress.origin other listed
    · obtain rfl := List.mem_singleton.mp listed
      exact origin
  · intro file queued
    rcases List.mem_append.mp queued with queued | queued
    · rcases progress.sought file (List.mem_cons_of_mem _ queued) with
        isEntry | ⟨name, isName, isPath, importer, listed, imported⟩
      · exact .inl isEntry
      · exact .inr ⟨name, isName, isPath, importer, List.mem_append_left _ listed, imported⟩
    · obtain ⟨name, imported, isName, isPath⟩ := onlyImports file queued
      exact .inr ⟨name, isName, isPath, unit, isLast, imported⟩

end Step

/-- A search that ends well ends with the closure of the imports. -/
theorem Search.Ends.closure {sources : List Path} {rounds : Nat} {search : Search}
    {units : List FoundUnit} (ends : Search.Ends options tree rounds search (.ok units))
    (progress : Progress options tree sources search) :
    ImportClosure options tree sources units := by
  generalize isResult : (.ok units : Except Failure (List FoundUnit)) = result at ends
  induction ends with
  | done =>
      cases isResult
      exact progress.closure
  | failed => cases isResult
  | passed looks later ih =>
      obtain ⟨unit, scanned, expected, ⟨-, earlier, isKnown, sameName, samePlace⟩ | ⟨_, ⟨⟩, _⟩⟩ :=
        look_eq_ok looks
      exact ih (progress.passed scanned expected isKnown sameName samePlace) isResult
  | added looks later ih =>
      obtain ⟨unit, scanned, expected, ⟨⟨⟩, _⟩ | ⟨_, ⟨⟩, isNew, looked⟩⟩ := look_eq_ok looks
      exact ih (progress.added scanned expected isNew looked) isResult

theorem ImportClosure.perm {sources : List Path} {first second : List FoundUnit}
    (closure : ImportClosure options tree sources first) (same : second.Perm first) :
    ImportClosure options tree sources second where
  scanned unit listed := closure.scanned unit (same.subset listed)
  names_nodup := (same.map FoundUnit.fullName).nodup_iff.mpr closure.names_nodup
  entries path isSource := by
    obtain ⟨entry, scanned, unit, listed, equal⟩ := closure.entries path isSource
    exact ⟨entry, scanned, unit, same.symm.subset listed, equal⟩
  imports unit listed name imported :=
    (closure.imports unit (same.subset listed) name imported).subset same.symm.subset
  reached unit listed := (closure.reached unit (same.subset listed)).subset same.symm.subset
  origin unit listed := closure.origin unit (same.subset listed)

end Closure

/-- A search that goes on until its queue is empty ends after finitely many rounds, and `discover`
gives its result, sorted by name.  If it succeeds, the units are the closure of the imports of the
given files. -/
theorem discover_ends_with_import_closure (options : Options) (tree : FileTree)
    (sources : List Path) :
    (∃ rounds result, Search.Ends options tree rounds (.start sources) result ∧
      discover options tree sources = result.map fun units =>
        units.mergeSort fun left right => decide (left.fullName ≤ right.fullName)) ∧
    ∀ units, discover options tree sources = .ok units →
      ImportClosure options tree sources units := by
  obtain ⟨rounds, ends⟩ := ends_of_start options tree sources
  refine ⟨⟨rounds, _, ends, rfl⟩, ?_⟩
  intro units discovered
  obtain ⟨found, searched, sorted⟩ := bind_eq_ok.mp discovered
  cases sorted
  rw [searched] at ends
  exact (ends.closure (.start options tree sources)).perm (List.mergeSort_perm _ _)

/-- Two files that import each other, and one that nothing imports. -/
def pairTree : FileTree where
  nodes := [(["a"], .directory), (["a", "v1_0"], .directory),
    (["a", "v1_0", "IMain.idl"], .file "package a.v1_0; import a.v1_0.Types;".toUTF8),
    (["a", "v1_0", "Types.idl"], .file "package a.v1_0; import a.v1_0.IMain;".toUTF8),
    (["a", "v1_0", "Other.idl"], .file "package a.v1_0;".toUTF8)]

/-- The path of a unit in that tree. -/
def pairPath (name : String) : Path := ⟨"a/v1_0/" ++ name ++ ".idl"⟩

/-- A unit of that tree, as it is found by an import. -/
def pairUnit (name imported : String) : FoundUnit :=
  ⟨⟨pairPath name, "a.v1_0", name, ["a.v1_0." ++ imported]⟩, ["a", "v1_0", name ++ ".idl"]⟩

/-- The files of the package lie below a directory of its name. -/
def pairOptions : Options := { roots := [⟨"a", ⟨"a"⟩⟩] }

/-- One file is an entry twice, by two paths; the second time it is passed over. -/
def pairSources : List Path := [pairPath "IMain", ⟨"a/./v1_0//IMain.idl"⟩]

/-- What the three looks find, and the order of the names that are found. -/
theorem pairTree_spec :
    (look pairOptions pairTree [] ⟨pairPath "IMain", none⟩).toOption =
        some (some (pairUnit "IMain" "Types", [⟨pairPath "Types", some "a.v1_0.Types"⟩])) ∧
      (look pairOptions pairTree [pairUnit "IMain" "Types"]
        ⟨⟨"a/./v1_0//IMain.idl"⟩, none⟩).toOption = some none ∧
      (look pairOptions pairTree [pairUnit "IMain" "Types"]
        ⟨pairPath "Types", some "a.v1_0.Types"⟩).toOption =
          some (some (pairUnit "Types" "IMain", [])) ∧
      [pairUnit "IMain" "Types", pairUnit "Types" "IMain"].Pairwise
        fun left right => decide (left.fullName ≤ right.fullName) = true := by
  decide +kernel

theorem ends_of_pair :
    Search.Ends pairOptions pairTree 3 (.start pairSources)
      (.ok [pairUnit "IMain" "Types", pairUnit "Types" "IMain"]) := by
  obtain ⟨first, second, third, -⟩ := pairTree_spec
  exact .added (eq_ok_of_toOption first) (.passed (eq_ok_of_toOption second)
    (.added (eq_ok_of_toOption third) .done))

theorem discover_ends_with_import_closure_pair :
    ∃ units, discover pairOptions pairTree pairSources = .ok units ∧
      units.map FoundUnit.fullName = ["a.v1_0.IMain", "a.v1_0.Types"] ∧
      ImportClosure pairOptions pairTree pairSources units := by
  obtain ⟨⟨rounds, result, ends, discovered⟩, closure⟩ :=
    discover_ends_with_import_closure pairOptions pairTree pairSources
  obtain rfl := ends.unique ends_of_pair
  refine ⟨_, discovered, ?_, closure _ discovered⟩
  beta_reduce
  rw [List.mergeSort_of_pairwise pairTree_spec.2.2.2]
  rfl

end Resolution

end DriverIdl
