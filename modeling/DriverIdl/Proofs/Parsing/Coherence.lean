import DriverIdl.Proofs.Model.Trie
import DriverIdl.Proofs.Parsing.HeaderReading
import DriverIdl.Proofs.Program.Reachable

/-!
# Unit tables at every point of a file

Between any two moves of a file, each entry of the table of the unit stands for a type of the arena
with its key, and no key stands there twice: `Coherent`.  A type tells its key, so neither do two
entries share a type, nor does a unit hold two types of one shape.
-/

namespace DriverIdl

open Relation

/-- A type tells its key. -/
theorem TypeKey.Denotes.key_unique {first second : TypeKey} {node : TypeNode}
    (ofFirst : first.Denotes node) (ofSecond : second.Denotes node) : first = second := by
  cases first <;> cases second <;> simp_all [TypeKey.Denotes, TypeNode.name?]

/-- No key of a table stands there twice, and each entry stands for a type of the arena. -/
structure TableCoherent (arena : TypeArena) (table : List (TypeKey × TypeId)) : Prop where
  sound : TableSound arena table
  distinct : (table.map Prod.fst).Nodup

namespace TableCoherent

variable {arena : TypeArena} {table : List (TypeKey × TypeId)}

/-- What the keys of two entries have in common, the entries have. -/
theorem eq_of_key_eq (coherent : TableCoherent arena table) {first second : TypeKey × TypeId}
    (listed : first ∈ table) (listedToo : second ∈ table) (same : first.1 = second.1) :
    first = second :=
  List.inj_on_of_nodup_map coherent.distinct listed listedToo same

/-- Two types of one shape are one entry. -/
theorem eq_of_denotes (coherent : TableCoherent arena table) {first second : TypeKey × TypeId}
    {key : TypeKey} (listed : first ∈ table) (listedToo : second ∈ table)
    (denotes : key.Denotes (arena.node first.2)) (denotesToo : key.Denotes (arena.node second.2)) :
    first = second := by
  apply coherent.eq_of_key_eq listed listedToo
  rw [(coherent.sound _ listed).2.key_unique denotes,
    (coherent.sound _ listedToo).2.key_unique denotesToo]

/-- No two entries share a key or a type. -/
theorem pairwise (coherent : TableCoherent arena table) :
    table.Pairwise fun first second => first.1 ≠ second.1 ∧ first.2 ≠ second.2 := by
  have keys : table.Pairwise fun first second => first.1 ≠ second.1 :=
    List.pairwise_map.mp coherent.distinct
  refine keys.imp_of_mem fun {first second} listed listedToo different => ⟨different, fun same => ?_⟩
  have denotes := (coherent.sound _ listedToo).2
  rw [← same] at denotes
  exact different ((coherent.sound _ listed).2.key_unique denotes)

theorem extend {after : TypeArena} (coherent : TableCoherent arena table)
    (grown : arena.Extends after) : TableCoherent after table :=
  ⟨coherent.sound.extend grown, coherent.distinct⟩

theorem append_singleton {key : TypeKey} {type : TypeId} (coherent : TableCoherent arena table)
    (free : table.lookup key = none) (inside : type < arena.size)
    (denotes : key.Denotes (arena.node type)) : TableCoherent arena (table ++ [(key, type)]) where
  sound := coherent.sound.append_singleton inside denotes
  distinct := by
    rw [List.map_append, List.map_singleton, List.nodup_append]
    refine ⟨coherent.distinct, List.nodup_singleton key, ?_⟩
    rintro known listed _ isKey rfl
    obtain ⟨entry, isEntry, rfl⟩ := List.mem_map.mp listed
    rw [List.mem_singleton] at isKey
    simpa [isKey] using List.lookup_eq_none_iff.mp free entry isEntry

theorem tableWith {key : TypeKey} {type : TypeId} (coherent : TableCoherent arena table)
    (inside : type < arena.size) (denotes : key.Denotes (arena.node type)) :
    TableCoherent arena (CompiledUnit.tableWith table key type) := by
  unfold CompiledUnit.tableWith
  split
  · exact coherent
  · exact coherent.append_singleton ‹_› inside denotes

theorem initial (sound : arena.Sound) :
    TableCoherent arena (Primitive.all.map fun primitive => (.primitive primitive, primitive.id)) :=
  ⟨.initial sound, by decide⟩

end TableCoherent

namespace ParseState

variable {sort : SourceFault → Prop} {before middle after : ParseState}

/-- What holds at every point of a file. -/
structure Coherent (state : ParseState) : Prop where
  spelled : ∀ token ∈ state.tokens, token.WellSpelled
  table : TableCoherent state.types state.unit.table
  primitives : ∀ primitive : Primitive, (.primitive primitive, primitive.id) ∈ state.unit.table
  units : ∀ unit ∈ state.program.units, TableSound state.types unit.table
  namespaces : state.program.namespaces.Trie

/-- What a later point of a file still knows of an earlier one, if the unit has not changed its
package. -/
structure Recalls (before after : ParseState) : Prop where
  tokens : after.tokens <:+ before.tokens
  table : before.unit.table <+: after.unit.table
  namespaceId : after.unit.namespaceId = before.unit.namespaceId
  types : before.types.Extends after.types
  units : after.program.units = before.program.units
  namespaces : before.program.namespaces.Keeps after.program.namespaces
  trie : before.program.namespaces.Trie → after.program.namespaces.Trie

namespace Recalls

theorem refl (state : ParseState) : Recalls state state :=
  ⟨List.suffix_refl _, List.prefix_refl _, rfl, .refl _, rfl, .refl _, id⟩

theorem trans (first : Recalls before middle) (second : Recalls middle after) :
    Recalls before after where
  tokens := second.tokens.trans first.tokens
  table := first.table.trans second.table
  namespaceId := second.namespaceId.trans first.namespaceId
  types := first.types.trans second.types
  units := second.units.trans first.units
  namespaces := first.namespaces.trans second.namespaces
  trie := second.trie ∘ first.trie

theorem visibleType? (recalls : Recalls before after) {key : TypeKey} {type : TypeId}
    (visible : before.unit.visibleType? key = some type) :
    after.unit.visibleType? key = some type := by
  obtain ⟨added, table⟩ := recalls.table
  rw [CompiledUnit.visibleType?] at visible ⊢
  rw [← table, List.lookup_append, visible, Option.some_or]

/-- What stays coherent but for its own table is coherent if that is. -/
theorem coherent (recalls : Recalls before after) (coherent : before.Coherent)
    (table : TableCoherent after.types after.unit.table) : after.Coherent where
  spelled token listed := coherent.spelled token (recalls.tokens.subset listed)
  table := table
  primitives primitive := recalls.table.subset (coherent.primitives primitive)
  units unit listed := (coherent.units unit (recalls.units ▸ listed)).extend recalls.types
  namespaces := recalls.trie coherent.namespaces

end Recalls

theorem tableWith_prefix (table : List (TypeKey × TypeId)) (key : TypeKey) (type : TypeId) :
    table <+: CompiledUnit.tableWith table key type := by
  obtain ⟨added, extended, -⟩ := Parse.tableWith_eq table key type
  exact ⟨added, extended.symm⟩

theorem Move.mono {weaker : SourceFault → Prop} (weaken : ∀ fault, sort fault → weaker fault)
    (move : Move sort before after) : Move weaker before after := by
  cases move with
  | take suffix => exact .take suffix
  | report ofSort => exact .report (weaken _ ofSort)
  | intern denotes => exact .intern denotes
  | note => exact .note
  | amend keeps => exact .amend keeps
  | see named => exact .see named
  | share offered => exact .share offered
  | seek => exact .seek
  | setAside => exact .setAside

theorem Moves.mono {weaker : SourceFault → Prop} (weaken : ∀ fault, sort fault → weaker fault)
    (moves : Moves sort before after) : Moves weaker before after :=
  moves.lift id fun _ _ => Move.mono weaken

/-- A move forgets nothing, and keeps tables coherent. -/
theorem Move.coherent (move : Move sort before after) (coherent : before.Coherent) :
    Recalls before after ∧ after.Coherent := by
  have registers (key : TypeKey) (type : TypeId) :
      Recalls before { before with unit := before.unit.register key type } :=
    { Recalls.refl before with table := tableWith_prefix _ key type }
  cases move with
  | @take tokens rounds suffix =>
      have recalls : Recalls before { before with tokens := tokens, rounds := rounds } :=
        { Recalls.refl before with tokens := suffix }
      exact ⟨recalls, recalls.coherent coherent coherent.table⟩
  | report | note => exact ⟨{ Recalls.refl before with }, { coherent with }⟩
  | @intern key node denotes =>
      rw [interned, CompiledUnit.intern]
      cases visible : before.unit.visibleType? key with
      | some known => exact ⟨.refl before, coherent⟩
      | none =>
          have grown := TypeArena.Extends.alloc before.types node
          have recalls : Recalls before (before.withType key node) :=
            { Recalls.refl before with table := List.prefix_append _ _, types := grown }
          refine ⟨recalls, recalls.coherent coherent ?_⟩
          apply (coherent.table.extend grown).append_singleton visible
          · simp
          · simpa using denotes
  | @amend id change keeps =>
      have grown := TypeArena.Extends.update before.types id keeps
      have recalls : Recalls before { before with
          program := { before.program with types := before.program.types.update id change } } :=
        { Recalls.refl before with types := grown }
      exact ⟨recalls, recalls.coherent coherent (coherent.table.extend grown)⟩
  | @see key type named =>
      obtain ⟨_, _, _, denotes⟩ := Parse.namedKey?_eq_some.mp named
      exact ⟨registers key type, (registers key type).coherent coherent
        (coherent.table.tableWith (Parse.lt_size_of_namedKey? named) denotes)⟩
  | @share key type offered =>
      obtain ⟨unit, listed, visible⟩ := offered
      obtain ⟨inside, denotes⟩ :=
        coherent.units unit listed _ (CompiledUnit.mem_table_of_visibleType? visible)
      exact ⟨registers key type, (registers key type).coherent coherent
        (coherent.table.tableWith inside denotes)⟩
  | @seek package =>
      have interns := NamespaceTree.interns_intern coherent.namespaces package
      have recalls : Recalls before { before with program :=
          { before.program with namespaces := (before.program.namespaces.intern package).2 } } :=
        { Recalls.refl before with namespaces := interns.keeps, trie := fun _ => interns.trie }
      exact ⟨recalls, recalls.coherent coherent coherent.table⟩
  | @setAside full package name namespaceId =>
      have grown := TypeArena.Extends.alloc before.types (.sequenceable ⟨name, namespaceId⟩)
      have recalls : Recalls before (before.setAside full package name namespaceId) :=
        { Recalls.refl before with table := tableWith_prefix _ _ _, types := grown }
      refine ⟨recalls, recalls.coherent coherent ?_⟩
      apply (coherent.table.extend grown).tableWith
      · rw [TypeArena.size_alloc]
        exact Nat.lt_succ_self _
      · exact (@TypeArena.node_alloc_size before.types _).symm ▸ ⟨rfl, rfl⟩

theorem Moves.coherent (moves : Moves sort before after) (coherent : before.Coherent) :
    Recalls before after ∧ after.Coherent := by
  induction moves with
  | refl => exact ⟨.refl before, coherent⟩
  | tail _ move ih =>
      obtain ⟨recalls, between⟩ := ih
      obtain ⟨recallsToo, last⟩ := move.coherent between
      exact ⟨recalls.trans recallsToo, last⟩

/-- One thing that is done while a file is read: a move of any production, or what the package
statement does to the unit. -/
inductive FileMove (before : ParseState) : ParseState → Prop where
  | move {after : ParseState} (move : Move (fun _ => True) before after) : FileMove before after
  | version {version : Version} :
      FileMove before { before with unit := { before.unit with version := version } }
  | enter {package : String} :
      FileMove before { before with
        program := { before.program with
          namespaces := (before.program.namespaces.intern package).2 }
        unit := { before.unit with
          namespaceId := (before.program.namespaces.intern package).1, package := package } }

/-- The way from one point of a file to a later one. -/
abbrev FileMoves : ParseState → ParseState → Prop := ReflTransGen FileMove

instance : IsPreorder ParseState FileMoves where
  refl _ := .refl
  trans _ _ _ := .trans

theorem FileMoves.of_moves (moves : Moves (fun _ => True) before after) : FileMoves before after :=
  moves.lift id fun _ _ => .move

theorem FileMove.coherent (move : FileMove before after) (coherent : before.Coherent) :
    after.Coherent := by
  cases move with
  | move move => exact (move.coherent coherent).2
  | version => exact { coherent with }
  | @enter package =>
      exact { coherent with
        namespaces := (NamespaceTree.interns_intern coherent.namespaces package).trie }

/-- Whatever way leads to a point of a file, tables are coherent there. -/
theorem FileMoves.coherent (moves : FileMoves before after) (coherent : before.Coherent) :
    after.Coherent := by
  induction moves with
  | refl => exact coherent
  | tail _ move ih => exact move.coherent ih

end ParseState

/-- Parsing looks packages up and does nothing else to the tree, so it stays a trie. -/
theorem Program.Reachable.trie {program : Program} (reachable : program.Reachable) :
    program.namespaces.Trie := by
  induction reachable with
  | empty => exact .initial
  | parse options diagnostics path source reachable ih =>
      have wellFormed := reachable.wellFormed
      obtain ⟨read, advanced, rejects | accepts⟩ :=
        parseSource_cases wellFormed options diagnostics path source
      · rw [rejects.program]
        exact (advanced.namespaces wellFormed.namespaces).trie ih
      · exact (accepts.wellFormed wellFormed advanced).1.namespaces.trie ih

theorem ParseState.coherent_start {program : Program} (reachable : program.Reachable)
    (diagnostics : List Diagnostic) (path : Path) (source : String) :
    (start program diagnostics path source).Coherent where
  spelled := wellSpelled_start diagnostics path source
  table := .initial reachable.wellFormed.types
  primitives primitive := List.mem_map_of_mem (by cases primitive <;> decide)
  units unit listed := (reachable.wellFormed.units unit listed).table
  namespaces := reachable.trie

namespace Parse

open ParseState

namespace Runs

theorem enterPackage (options : Options) (package : String) (place : Position) :
    Runs FileMoves (enterPackage options package place) := by
  refine bind get fun state => ?_
  split
  · exact .changes fun _ => .single .enter
  · exact bind (fun _ => .single (.move (.report trivial))) fun _ => .changes fun _ => .single .enter

theorem packageStatement (options : Options) : Runs FileMoves (packageStatement options) := by
  apply Runs.bind fun before =>
    FileMoves.of_moves (announcement (fun _ _ => trivial) _ _ _ before)
  rintro ⟨package, place⟩
  dsimp only
  split
  · exact .bind (.changes fun _ => .single .version) fun _ => enterPackage options package place
  · exact .bind (fun _ => .single (.move (.report trivial))) fun _ =>
      enterPackage options package place

/-- Behind the package statement a file only makes moves. -/
theorem file (options : Options) (before : ParseState) :
    FileMoves before (stateAfter (Parse.packageStatement options) before) ∧
      Moves (fun _ => True) (stateAfter (Parse.packageStatement options) before)
        (stateAfter (file options) before) := by
  refine ⟨packageStatement options before, ?_⟩
  have anyFault (sort : SourceFault → Prop) : ∀ fault, sort fault → True := fun _ _ => trivial
  have behind : Runs (Moves fun _ => True) (do headerStatements; Parse.declarations options) :=
    .bind (fun state => (headerStatements_moves state).mono (anyFault _))
      fun _ state => Moves.mono (anyFault _) (declarations state)
  cases run : Parse.packageStatement options before with
  | error fault state =>
      rw [stateAfter_error run, Parse.file, stateAfter_bind_error run]
  | ok value state =>
      rw [stateAfter_ok run, Parse.file, stateAfter_bind run]
      exact behind state

/-- Finishing a unit leaves its table and all types as they are. -/
theorem finishUnit :
    Runs (fun before after => after.unit.table = before.unit.table ∧ after.types = before.types)
      Parse.finishUnit := by
  let Keeps (before after : ParseState) : Prop :=
    after.unit.table = before.unit.table ∧ after.types = before.types
  have : IsPreorder ParseState Keeps :=
    { refl := fun _ => ⟨rfl, rfl⟩
      trans := fun _ _ _ first second => ⟨second.1.trans first.1, second.2.trans first.2⟩ }
  have added (program : Program) (unit : CompiledUnit) :
      (program.add unit).2.types = program.types := by
    obtain ⟨same, -⟩ := program.add_spec unit
    rw [same]
  have settles : Runs Keeps settleKind := by
    intro before
    rcases settleKind_run before with ⟨fault, -, run⟩ | ⟨-, run⟩ <;>
      exact ⟨by rw [stateAfter, run]; rfl, by rw [stateAfter, run]; rfl⟩
  have verifies : Runs Keeps verifyUnit :=
    .bind .get fun _ => .ite (.changes fun _ => ⟨rfl, rfl⟩) (.pure _)
  have publishes : Runs Keeps publish := by
    refine .bind .get fun _ => .bind (.forM fun entry before => ?_) fun _ => .changes fun _ => ?_
    · obtain ⟨namespaces, run, -⟩ := publishSequenceable_run entry before
      rw [stateAfter_ok run]
      exact ⟨rfl, added before.program entry.2⟩
    · exact ⟨rfl, added _ _⟩
  exact .bind settles fun _ => .bind verifies fun _ => .bind .get fun _ =>
    .ite (.bind publishes fun _ => .pure _) (.pure _)

end Runs

end Parse

end DriverIdl
