import DriverIdl.Proofs.Dump.Declarations
import DriverIdl.Proofs.Grammar.Soundness

/-!
# Declarations that are read again, one behind the other

What a file without faults declares is told by the words of its types, in their order.  In front of
these words and the end of the file, the same types are declared again.
-/

namespace DriverIdl

namespace Parse

open ParseState

section Single

variable {before after : ParseState} {options : Options} {found : Attributes}

/-- Reports a statement of the header that stands among the declarations, and skips it. -/
def misplacedHeader (token : Token) : Parse Unit := do
  report token.place (.misplacedHeader token)
  let _ ← next
  recoverStatement

/-- Reads what stands behind the attributes of a declaration. -/
def definition (options : Options) (found : Attributes) (place : Position) (token : Token) :
    Parse Unit :=
  match token.kind with
  | .enum => enumDeclaration options found place
  | .struct => recordDeclaration options found place false
  | .union => recordDeclaration options found place true
  | .interface => interfaceDeclaration options found
  | .packageWord | .importWord | .sequenceable => misplacedHeader token
  | _ => unexpected token "a declaration"

theorem declaration_eq (options : Options) :
    declaration options = (do
      let (found, place) ← optionalAttributes
      let token ← peek
      definition options found place token) := rfl

theorem definition_cases (options : Options) (found : Attributes) (place : Position) (token : Token) :
    (token.kind = .enum ∧
        definition options found place token = enumDeclaration options found place) ∨
      (∃ isUnion, token.kind = (recordKeyword isUnion).1 ∧
        definition options found place token = recordDeclaration options found place isUnion) ∨
      (token.kind = .interface ∧
        definition options found place token = interfaceDeclaration options found) ∨
      definition options found place token = misplacedHeader token ∨
        definition options found place token = unexpected token "a declaration" := by
  unfold definition
  split
  · exact .inl ⟨‹_›, rfl⟩
  · exact .inr (.inl ⟨false, ‹_›, rfl⟩)
  · exact .inr (.inl ⟨true, ‹_›, rfl⟩)
  · exact .inr (.inr (.inl ⟨‹_›, rfl⟩))
  · exact .inr (.inr (.inr (.inl rfl)))
  · exact .inr (.inr (.inr (.inl rfl)))
  · exact .inr (.inr (.inr (.inl rfl)))
  · exact .inr (.inr (.inr (.inr rfl)))

theorem runs_definition (place : Position) (token : Token) :
    Runs (Moves SourceFault.OfBody) (definition options found place token) := by
  rcases definition_cases options found place token with
    ⟨-, same⟩ | ⟨_, -, same⟩ | ⟨-, same⟩ | same | same <;> rw [same]
  · exact .enumDeclaration _ _
  · exact .recordDeclaration _ _ _
  · exact .interfaceDeclaration _
  · exact .bind (.report (by rfl)) fun _ => .bind .next fun _ => .recoverStatement
  · exact .refuses _ _

theorem misplacedHeader_counts {token : Token} (run : misplacedHeader token before = .ok () after) :
    before.errors < after.errors := by
  obtain ⟨_, reported, reportRun, rest⟩ := bind_eq_ok.mp run
  cases reportRun
  exact (Leads.of_run rest (.bind .next fun _ => .recoverStatement)).errors_le

/-- Without a fault and without an interface, a type is declared. -/
theorem definition_ok {place : Position} {token : Token}
    (run : definition options found place token before = .ok () after) (clean : after.errors = 0)
    (other : token.kind ≠ .interface) :
    enumDeclaration options found place before = .ok () after ∨
      ∃ isUnion, recordDeclaration options found place isUnion before = .ok () after := by
  rcases definition_cases options found place token with
    ⟨-, same⟩ | ⟨isUnion, -, same⟩ | ⟨isInterface, -⟩ | same | same
  · exact .inl (same ▸ run)
  · exact .inr ⟨isUnion, same ▸ run⟩
  · exact absurd isInterface other
  · have counted := misplacedHeader_counts (same ▸ run)
    omega
  · rw [same] at run
    cases run

theorem Replays.declaration (ofType : found.OfType) {keyword : Word} {words : List Word}
    (notOpen : keyword.1 ≠ .bracketOpen) {production : Position → Parse Unit}
    (chooses : ∀ place token, token.kind = keyword.1 →
      definition options found place token = production place)
    (replays : ∀ place,
      Replays before after (keyword :: words) ⊤ (production place) fun _ => True) :
    Replays before after (found.words ++ keyword :: words) ⊤ (Parse.declaration options)
      fun _ => True := by
  rw [declaration_eq]
  apply (Replays.optionalAttributes ofType).seqStop fun _ => .cons (by simpa using notOpen)
  rintro ⟨_, place⟩ rfl
  apply Replays.peekBind
  intro token isWord
  rw [chooses place token (congrArg Prod.fst isWord)]
  exact replays place

/-- A declaration in which nothing was wrong declares a type, and its words declare it again. -/
theorem retells_declaration (run : declaration options before = .ok () after)
    (orderly : before.Orderly) (tidy : after.Tidy) :
    ∃ words, DeclaresBy before after words ∧ Keeps before after ∧
      Replays before after words ⊤ (declaration options) fun _ => True := by
  rw [declaration_eq] at run
  obtain ⟨⟨found, place⟩, read, attributesRun, rest⟩ := bind_eq_ok.mp run
  obtain ⟨_, _, peekRun, rest⟩ := bind_eq_ok.mp rest
  cases peekRun
  have reads := Leads.of_run attributesRun Runs.optionalAttributes
  have orderlyRead := reads.orderly orderly
  have defines := Leads.of_run rest (runs_definition place (ahead read))
  obtain ⟨same, exclusive⟩ :=
    optionalAttributes_ok attributesRun (defines.tidy orderlyRead.coherent tidy).clean
  have other : (ahead read).kind ≠ .interface :=
    Parse.ahead_ne (by decide) fun token isHead =>
      orderlyRead.noInterface token (List.mem_of_mem_head? isHead)
  have declares {words : List Word} (declared : DeclaresBy read after words) :
      DeclaresBy before after words := by
    rwa [DeclaresBy, same.unit_eq] at declared
  rcases definition_ok rest tidy.clean other with enumRun | ⟨isUnion, recordRun⟩
  · obtain ⟨ofType, words, declared, keeps, replays⟩ :=
      retells_enumDeclaration enumRun exclusive orderlyRead tidy
    rw [Keeps, same.types_eq] at keeps
    refine ⟨_, declares declared, keeps, .declaration ofType (by decide) ?_ fun placeToo =>
      (replays placeToo).congr same (.refl _)⟩
    intro _ token isKind
    rw [definition, isKind]
  · obtain ⟨ofType, words, declared, keeps, replays⟩ :=
      retells_recordDeclaration recordRun exclusive orderlyRead tidy
    rw [Keeps, same.types_eq] at keeps
    refine ⟨_, declares declared, keeps, .declaration ofType ?_ ?_ fun placeToo =>
      (replays placeToo).congr same (.refl _)⟩
    · cases isUnion <;> decide
    · intro _ token isKind
      cases isUnion <;> rw [definition, isKind] <;> rfl

/-- In a round without a fault, the file ends or a type is declared. -/
theorem declarationRound_ok {result : Unit ⊕ Unit}
    (run : declarationRound options () before = .ok result after) (clean : after.errors = 0) :
    (result = .inr () ∧ after = before) ∨
      result = .inl () ∧ declaration options before = .ok () after := by
  obtain ⟨_, _, peekRun, rest⟩ := bind_eq_ok.mp run
  cases peekRun
  split at rest
  · cases rest
    exact .inl ⟨rfl, rfl⟩
  · obtain ⟨_, read, readRun, ends⟩ := attempted rest (fun _ _ => (Spells.declaration Grammar.integerType).error)
      (.bind .recoverDeclaration fun _ => .pure _) clean
    cases ends
    exact .inr ⟨rfl, readRun⟩

end Single

end Parse

open Parse ParseState

/-- The words that a declaration may start with. -/
def definitionStarts : List TokenKind := [.bracketOpen, .enum, .struct, .union]

theorem DefinitionWords.head {arena : TypeArena} {node : TypeNode} {words : List Word}
    (spelled : DefinitionWords arena node words) :
    ∃ first others, words = first :: others ∧ first.1 ∈ definitionStarts := by
  have starts (attributes : Attributes) (keyword : Word) (later : List Word)
      (listed : keyword.1 ∈ definitionStarts) :
      ∃ first others, attributes.words ++ keyword :: later = first :: others ∧
        first.1 ∈ definitionStarts := by
    unfold Attributes.words
    split
    · exact ⟨_, _, rfl, by decide⟩
    · split
      · exact ⟨_, _, rfl, by decide⟩
      · exact ⟨_, _, rfl, listed⟩
  cases spelled <;> exact starts _ _ _ (by simp [definitionStarts])

/-- The words that declare types, one behind the other. -/
inductive DefinitionsWords (arena : TypeArena) : List TypeId → List Word → Prop where
  | nil : DefinitionsWords arena [] []
  | cons {id : TypeId} {ids : List TypeId} {words others : List Word} (inside : id < arena.size)
      (first : DefinitionWords arena (arena.node id) words) (later : DefinitionsWords arena ids others) :
      DefinitionsWords arena (id :: ids) (words ++ others)

namespace Parse

variable {before after : ParseState} {options : Options}

/-- The types that a file declares are declared again by their words. -/
theorem retells_declarationRounds {start : Unit}
    (went : Went (declarationRound options) () after before start) (orderly : before.Orderly)
    (tidy : after.Tidy) :
    ∃ ids words, after.unit.definitions = before.unit.definitions ++ ids ∧ Keeps before after ∧
      DefinitionsWords after.types ids words ∧
      Replays.Rounds before after words (· = []) (declarationRound options) start fun _ => True := by
  induction went with
  | @done before _ run =>
      rcases declarationRound_ok run tidy.clean with ⟨-, rfl⟩ | ⟨ends, -⟩
      · refine ⟨[], [], (List.append_nil _).symm, refl_of Keeps before, .nil, .done ?_⟩
        apply Replays.peekEnd fun _ nothing => nothing
        intro token isEnd
        rw [if_pos isEnd]
        exact .congr (.pure ⟨(), rfl, trivial⟩) (.counted before) (.refl _)
      · cases ends
  | @more before middle _ _ run later ih =>
      have rounds := Leads.of_went later Runs.declarationRound
      have clean := Nat.le_zero.mp (tidy.clean ▸ rounds.errors_le)
      rcases declarationRound_ok run clean with ⟨ends, -⟩ | ⟨-, declarationRun⟩
      · cases ends
      · have reads := (Leads.counted before).trans (.of_run declarationRun Runs.declaration)
        have orderlyMiddle := reads.orderly orderly
        obtain ⟨words, ⟨id, inside, definitions, spelled⟩, keeps, replays⟩ :=
          retells_declaration declarationRun ((Leads.counted before).orderly orderly)
            (rounds.tidy orderlyMiddle.coherent tidy)
        obtain ⟨ids, others, listed, keepsLater, spelledLater, roundsLater⟩ := ih orderlyMiddle
        have spelledThere : DefinitionWords after.types (after.types.node id) words := by
          rw [keepsLater.node_eq id inside]
          exact spelled.extend (rounds.types orderlyMiddle.coherent)
        obtain ⟨first, front, rfl, starts⟩ := spelled.head
        refine ⟨id :: ids, first :: front ++ others, by rw [listed, definitions, List.append_assoc]; rfl,
          trans_of Keeps keeps keepsLater,
          .cons (Nat.lt_of_lt_of_le inside keepsLater.size_le) spelledThere spelledLater, ?_⟩
        have notEnd : first.1 ≠ .eof := by
          rintro isEnd
          simp [isEnd, definitionStarts] at starts
        have round : Replays before middle (first :: front) ⊤ (declarationRound options ())
            fun result => ∃ next, result = .inl next ∧ True := by
          apply Replays.peekBind
          rintro token isWord
          rw [if_neg (by rw [show token.kind = first.1 from congrArg Prod.fst isWord]; exact notEnd)]
          apply (replays.congr (.counted before) (.refl _)).attempt.seqSilent
          rintro _ ⟨_, rfl, -⟩
          exact .pure ⟨(), rfl, trivial⟩
        exact .more (by simp) round fun _ _ => roundsLater

theorem retells_declarations (run : declarations options before = .ok () after)
    (orderly : before.Orderly) (tidy : after.Tidy) :
    ∃ ids words, after.unit.definitions = before.unit.definitions ++ ids ∧ Keeps before after ∧
      DefinitionsWords after.types ids words ∧
      Replays before after words (· = []) (declarations options) fun _ => True := by
  obtain ⟨ids, words, listed, keeps, spelled, rounds⟩ :=
    retells_declarationRounds (.of_loop run) orderly tidy
  exact ⟨ids, words, listed, keeps, spelled, .loop rounds⟩

end Parse

end DriverIdl
