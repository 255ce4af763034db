import DriverIdl.Proofs.Containment.Graph
import DriverIdl.Proofs.Parsing.Support

/-!
# Spellings

A container is spelled around its elements.  Where no container can be reached that is found among
its own elements, and no type expression makes one, a spelling needs at most as many levels as there
are types.
-/

namespace DriverIdl

namespace TypeArena

variable {arena : TypeArena}

/-- The spelling of a type, given the spellings of its elements. -/
def spellRule (arena : TypeArena) (spell : TypeId → String) (id : TypeId) : String :=
  match arena.node id with
  | .primitive primitive => primitive.name
  | .enum type => type.name
  | .struct record | .union record => record.name
  | .interface interface => interface.name
  | .sequenceable type => type.name
  | .array element => spell element ++ "[]"
  | .list element => "List<" ++ spell element ++ ">"
  | .map key value => "Map<" ++ spell key ++ ", " ++ spell value ++ ">"
  | .queue element => "SharedMemQueue<" ++ spell element ++ ">"

theorem spellWithin_eq_spellRule (depth : Nat) (id : TypeId) :
    arena.spellWithin (depth + 1) id = arena.spellRule (arena.spellWithin depth) id :=
  rfl

theorem spellRule_congr {first second : TypeId → String} {id : TypeId}
    (same : ∀ inner, arena.HoldsElement id inner → first inner = second inner) :
    arena.spellRule first id = arena.spellRule second id := by
  unfold spellRule
  cases node : arena.node id with
  | array element | list element | queue element => simp only [same element (.single node rfl)]
  | map key value =>
      have entry := HoldsElement.entry node
      simp only [same key entry.1, same value entry.2]
  | _ => rfl

end TypeArena

end DriverIdl
