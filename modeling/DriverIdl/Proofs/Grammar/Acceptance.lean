import DriverIdl.Proofs.Grammar.Completeness
import DriverIdl.Proofs.Grammar.Soundness
import DriverIdl.Proofs.Program.Accounting

/-!
# Parsing and the grammar

A text in which parsing finds nothing wrong is derived by the grammar, and parsing finds no fault of
tokens or grammar in a text that the grammar derives.  Both hold of any program, with what it takes for
integers behind the enums; in a program that comes from parsing these are the integer types.
-/

namespace DriverIdl

namespace Program

open Parse ParseState

variable {program : Program} {options : Options} {diagnostics : List Diagnostic} {path : Path}
  {source : String}

/-- A unit that no parsing builds: it knows `int` under a name. -/
def renamingUnit : CompiledUnit :=
  let package := (NamespaceTree.intern {} "a.v1_0").1
  { kind := .sequenceable, name := "Foo", package := "a.v1_0", namespaceId := package
    path := ⟨"a/v1_0/Foo.idl"⟩, table := [(.named package "Foo", Primitive.int.id)] }

/-- The program of that unit. -/
def renamedInt : Program :=
  { namespaces := (NamespaceTree.intern {} "a.v1_0").2, units := #[renamingUnit] }

/-- There a name is taken for an integer, and an enum may be stored as it. -/
theorem renamedInt_takes_name :
    (renamedInt.parseSource {} [] ⟨"a/v1_0/E.idl"⟩
        "package a.v1_0; sequenceable a.v1_0.Foo; enum E : Foo { A };").diagnostics.length = 0 ∧
      [.identifier] ∈ renamedInt.integerTypes ∧ [.identifier] ∉ Grammar.integerType := by
  refine ⟨by decide +kernel, .inr ⟨?_, ?_⟩, ?_⟩
  · exact Grammar.cons_mem_word_mul (Language.nil_mem_kstar _)
  · have isInt : renamedInt.types.node Primitive.int.id = .primitive .int := by decide +kernel
    exact ⟨renamingUnit, by simp [renamedInt], _, List.mem_cons_self, rfl, .int, isInt, rfl⟩
  · rw [Grammar.mem_integerType_iff]
    simp [Grammar.primitive?]

end Program

end DriverIdl
