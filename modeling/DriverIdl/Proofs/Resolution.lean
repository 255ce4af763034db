import DriverIdl.Proofs.ImportOrder
import DriverIdl.Resolution

/-!
# The units of a run

Each unit that a run finds was read from its own file, and no two units have one name: a second file
of that name ends the search.  Ordering the units loses none and doubles none.
-/

namespace DriverIdl

namespace ImportGraph

/-- Placed units and those left over are together the given ones. -/
theorem place_names_perm (placed : List String) (ready waiting : List WaitingUnit) :
    ((place placed ready waiting).1 ++ (place placed ready waiting).2.map WaitingUnit.name).Perm
      (placed ++ (ready.map WaitingUnit.name ++ waiting.map WaitingUnit.name)) := by
  fun_induction place placed ready waiting with
  | case1 placed waiting => simp
  | case2 placed waiting unit others ih =>
      refine ih.trans ?_
      have moved := advance_names_perm unit.name waiting
      simp only [List.map_append, List.map_cons, List.append_assoc, List.cons_append, List.nil_append]
      exact ((moved.append_left _).cons _).append_left _

/-- An order is one of all units. -/
theorem order_names_perm {units : List WaitingUnit} {names : List String}
    (ordered : order units = .ok names) : names.Perm (units.map WaitingUnit.name) := by
  simp only [order] at ordered
  have all := place_names_perm [] (splitReady units).1 (splitReady units).2
  split at ordered
  · rename_i placed finished
    cases ordered
    rw [finished] at all
    have parts := (splitReady_perm units).map WaitingUnit.name
    rw [List.map_append] at parts
    simp only [List.map_nil, List.append_nil, List.nil_append] at all
    exact all.trans parts
  · cases ordered

end ImportGraph

namespace Resolution

variable {options : Options} {tree : FileTree}

/-- Units that a search has found: each is read from its file, and their names differ. -/
structure Found (tree : FileTree) (units : List FoundUnit) : Prop where
  scanned : ∀ unit ∈ units, scan tree unit.header.path = .ok unit
  names_nodup : (units.map FoundUnit.fullName).Nodup

theorem readText_of_read {path : Path} {source : String}
    (bytes : tree.read path = .ok source.toUTF8) : tree.readText path = .ok source := by
  have decoded : String.fromUTF8? source.toUTF8 = some source := by
    simp [String.fromUTF8?, String.fromUTF8, String.toUTF8, source.isValidUTF8]
  rw [FileTree.readText, bytes]
  simp only [Bind.bind, Except.bind, decoded]
  rfl

theorem scan_of_read {path : Path} {source : String} {location : Location} {header : Header}
    (bytes : tree.read path = .ok source.toUTF8) (located : tree.locate path = .ok location)
    (isHeader : Header.ofSource path source = .ok header) :
    scan tree path = .ok ⟨header, location⟩ := by
  simp only [scan, readText_of_read bytes, located, isHeader]

/-- A unit that was found has the header of a text that can be read. -/
theorem header_of_scan {path : Path} {unit : FoundUnit} (scanned : scan tree path = .ok unit) :
    ∃ source, tree.readText path = .ok source ∧ Header.ofSource path source = .ok unit.header := by
  unfold scan at scanned
  split at scanned
  · rename_i source location readable located
    split at scanned
    · rename_i header isHeader
      cases scanned
      exact ⟨source, readable, isHeader⟩
    · cases scanned
  · cases scanned
  · cases scanned

/-- The header that is read from a file is that of the file. -/
theorem path_of_scan {path : Path} {unit : FoundUnit} (scanned : scan tree path = .ok unit) :
    unit.header.path = path := by
  obtain ⟨source, -, isHeader⟩ := header_of_scan scanned
  generalize unit.header = header at isHeader ⊢
  unfold Header.ofSource at isHeader
  split at isHeader
  · cases isHeader
  · split at isHeader
    · split at isHeader
      · cases isHeader
        rfl
      · cases isHeader
    · cases isHeader

theorem bind_eq_ok {ε α β : Type} {first : Except ε α} {second : α → Except ε β} {result : β} :
    (first >>= second) = .ok result ↔ ∃ value, first = .ok value ∧ second value = .ok result := by
  cases first <;> simp [Bind.bind, Except.bind]

theorem eq_ok_of_toOption {ε α : Type} {result : Except ε α} {value : α}
    (isValue : result.toOption = some value) : result = .ok value := by
  cases result with
  | error fault => cases isValue
  | ok other => rw [Option.some.inj isValue]

theorem Found.append_singleton {known : List FoundUnit} {unit : FoundUnit} {path : Path}
    (found : Found tree known) (scanned : scan tree path = .ok unit)
    (isNew : known.find? (fun other => other.fullName == unit.fullName) = none) :
    Found tree (known ++ [unit]) where
  scanned other listed := by
    rcases List.mem_append.mp listed with earlier | last
    · exact found.scanned other earlier
    · rw [List.mem_singleton.mp last, path_of_scan scanned, scanned]
  names_nodup := by
    have absent : unit.fullName ∉ known.map FoundUnit.fullName := by
      intro listed
      obtain ⟨other, isKnown, same⟩ := List.mem_map.mp listed
      have different := List.find?_eq_none.mp isNew other isKnown
      simp [same] at different
    rw [List.map_append, List.map_singleton]
    exact List.nodup_append.mpr ⟨found.names_nodup, by simp, by simpa using absent⟩

/-- A search adds a unit only if its name is new. -/
theorem Found.discoverFrom {unread : List Location} {known units : List FoundUnit}
    {queue : List SoughtFile} (found : Found tree known)
    (discovered : discoverFrom options tree unread known queue = .ok units) : Found tree units := by
  fun_induction Resolution.discoverFrom options tree unread known queue with
  | case1 unread known =>
      cases discovered
      exact found
  | case2 unread known sought rest skips reads =>
      obtain ⟨unit, scanned, expects⟩ := bind_eq_ok.mp discovered
      obtain ⟨-, -, searches⟩ := bind_eq_ok.mp expects
      cases isNew : known.find? fun other => other.fullName == unit.fullName with
      | some earlier =>
          simp only [isNew] at searches
          split at searches
          · exact skips found searches
          · cases searches
      | none =>
          simp only [isNew] at searches
          obtain ⟨imports, -, goesOn⟩ := bind_eq_ok.mp searches
          split at goesOn
          · rename_i present
            exact reads unit imports present (found.append_singleton scanned isNew) goesOn
          · exact skips found goesOn

theorem Found.perm {first second : List FoundUnit} (found : Found tree first)
    (same : second.Perm first) : Found tree second :=
  ⟨fun unit listed => found.scanned unit (same.subset listed),
    (same.map FoundUnit.fullName).nodup_iff.mpr found.names_nodup⟩

theorem found_of_discover {sources : List Path} {units : List FoundUnit}
    (discovered : discover options tree sources = .ok units) : Found tree units := by
  obtain ⟨found, searched, sorted⟩ := bind_eq_ok.mp discovered
  cases sorted
  have start : Found tree [] := ⟨by simp, by simp⟩
  exact (start.discoverFrom searched).perm (List.mergeSort_perm _ _)

/-- Units that are looked up by their names have these names. -/
theorem names_of_lookup {units : List FoundUnit} {names : List String}
    (listed : ∀ name ∈ names, name ∈ units.map FoundUnit.fullName) :
    (names.filterMap fun name => units.find? fun unit => unit.fullName == name).map
      FoundUnit.fullName = names := by
  induction names with
  | nil => rfl
  | cons name rest ih =>
      obtain ⟨unit, isUnit, isName⟩ := List.mem_map.mp (listed name (by simp))
      have present : (units.find? fun unit => unit.fullName == name).isSome = true :=
        List.find?_isSome.mpr ⟨unit, isUnit, by simp [isName]⟩
      obtain ⟨first, isFirst⟩ := Option.isSome_iff_exists.mp present
      have firstName : first.fullName = name := by simpa using List.find?_some isFirst
      simp only [List.filterMap_cons, isFirst, List.map_cons, firstName]
      rw [ih fun other isOther => listed other (by simp [isOther])]

/-- Ordered units are the given ones. -/
theorem found_of_order {units ordered : List FoundUnit} (found : Found tree units)
    (isOrder : order units = .ok ordered) : Found tree ordered := by
  unfold order at isOrder
  split at isOrder
  · cases isOrder
  · rename_i names isNames
    cases isOrder
    have same := ImportGraph.order_names_perm isNames
    rw [List.map_map] at same
    have namesEq : (names.filterMap fun name => units.find? fun unit => unit.fullName == name).map
        FoundUnit.fullName = names := names_of_lookup fun name listed => same.subset listed
    refine ⟨fun unit listed => ?_, ?_⟩
    · obtain ⟨name, -, isUnit⟩ := List.mem_filterMap.mp listed
      exact found.scanned unit (List.mem_of_find?_eq_some isUnit)
    · rw [namesEq]
      exact same.nodup_iff.mpr found.names_nodup

/-- A run compiles files with headers, whose units have different names. -/
theorem found_of_resolve {resolution : Resolution}
    (resolved : resolve options tree = .ok resolution) :
    ∃ ordered, Found tree ordered ∧
      resolution.paths = ordered.map fun unit => unit.header.path := by
  obtain ⟨units, discovered, orders⟩ := bind_eq_ok.mp resolved
  obtain ⟨ordered, isOrder, last⟩ := bind_eq_ok.mp orders
  cases last
  exact ⟨ordered, found_of_order (found_of_discover discovered) isOrder, rfl⟩

/-- A run over one file without imports compiles that file alone. -/
theorem resolve_single {path : Path} {unit : FoundUnit} (sources : options.sources = [path])
    (scanned : scan tree path = .ok unit) (noImports : unit.header.imports = [])
    (listed : unit.location ∈ tree.files) : resolve options tree = .ok ⟨[unit], [path]⟩ := by
  have none : soughtImports options tree [] unit.header = .ok [] := by
    rw [soughtImports, noImports]
    rfl
  have discovered : discover options tree [path] = .ok [unit] := by
    simp only [discover, List.map_singleton]
    rw [discoverFrom, scanned]
    simp only [checkExpected, List.find?_nil, none, if_pos listed, Bind.bind, Except.bind,
      List.append_nil, List.nil_append]
    rw [discoverFrom]
    simp only [List.mergeSort_singleton]
    rfl
  have ordered : order [unit] = .ok [unit] := by
    simp [order, noImports, ImportGraph.order, ImportGraph.splitReady, ImportGraph.place,
      ImportGraph.advance]
  simp only [resolve, sources, discovered, ordered, Bind.bind, Except.bind, List.map_singleton,
    path_of_scan scanned]
  rfl

/-- Two files without imports are compiled in the order of their names. -/
theorem resolve_pair {firstPath secondPath : Path} {first second : FoundUnit}
    (sources : options.sources = [firstPath, secondPath])
    (scannedFirst : scan tree firstPath = .ok first)
    (scannedSecond : scan tree secondPath = .ok second)
    (firstAlone : first.header.imports = []) (secondAlone : second.header.imports = [])
    (listedFirst : first.location ∈ tree.files)
    (listedSecond : second.location ∈ tree.files.erase first.location)
    (sorted : first.fullName ≤ second.fullName) (distinct : first.fullName ≠ second.fullName) :
    resolve options tree = .ok ⟨[first, second], [firstPath, secondPath]⟩ := by
  have noneSought : ∀ known (unit : FoundUnit), unit.header.imports = [] →
      soughtImports options tree known unit.header = .ok [] := by
    intro known unit alone
    rw [soughtImports, alone]
    rfl
  have discovered : discover options tree [firstPath, secondPath] = .ok [first, second] := by
    simp only [discover, List.map_cons, List.map_nil]
    rw [discoverFrom, scannedFirst]
    simp only [checkExpected, List.find?_nil, noneSought _ _ firstAlone, if_pos listedFirst, Bind.bind,
      Except.bind, List.append_nil, List.nil_append]
    rw [discoverFrom, scannedSecond]
    have unknown : [first].find? (fun other => other.fullName == second.fullName) = none := by
      simpa using distinct
    simp only [checkExpected, unknown, noneSought _ _ secondAlone, if_pos listedSecond, Bind.bind,
      Except.bind, List.append_nil, List.singleton_append]
    rw [discoverFrom]
    simp only
    rw [List.mergeSort_of_pairwise (by simpa using sorted)]
    rfl
  have ordered : order [first, second] = .ok [first, second] := by
    simp [order, firstAlone, secondAlone, ImportGraph.order, ImportGraph.splitReady,
      ImportGraph.place, ImportGraph.advance, distinct]
  simp only [resolve, sources, discovered, ordered, Bind.bind, Except.bind, List.map_cons,
    List.map_nil, path_of_scan scannedFirst, path_of_scan scannedSecond]
  rfl

end Resolution

end DriverIdl
