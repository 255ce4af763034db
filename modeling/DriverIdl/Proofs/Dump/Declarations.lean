import DriverIdl.Proofs.Dump.Records

/-!
# Declarations that are read again

A declaration in which nothing was wrong is told by words: its attributes, its keyword, its name and its
body.  In front of them the same type is declared again, under the same number.
-/

namespace DriverIdl

/-- The words of the attributes of a declared type. -/
def Attributes.words (attributes : Attributes) : List Word :=
  if attributes.full then [(.bracketOpen, "["), (.full, "full"), (.bracketClose, "]")]
  else if attributes.lite then [(.bracketOpen, "["), (.lite, "lite"), (.bracketClose, "]")]
  else []

/-- Attributes that a declared type may have. -/
structure Attributes.OfType (attributes : Attributes) : Prop where
  oneway : attributes.oneway = false
  callback : attributes.callback = false
  exclusive : (attributes.full && attributes.lite) = false

/-- The words that declare a struct or a union. -/
def recordWords (keyword : Word) (record : RecordType) (members : List Word) : List Word :=
  record.attributes.words ++ keyword :: (.identifier, record.name) :: (.braceOpen, "\x7b") ::
    (members ++ [(.braceClose, "\x7d")] ++ [(.semicolon, ";")])

/-- The words that declare an enum. -/
def EnumType.words (declared : EnumType) : List Word :=
  declared.attributes.words ++ (.enum, "enum") :: (.identifier, declared.name) :: (.colon, ":") ::
    (declared.base.words ++ (.braceOpen, "\x7b") ::
      (declared.members.flatMap EnumMember.words ++ (.braceClose, "\x7d") :: [(.semicolon, ";")]))

/-- The words that declare a type. -/
inductive DefinitionWords (arena : TypeArena) : TypeNode → List Word → Prop where
  | enum {declared : EnumType} (attributes : declared.attributes.OfType)
      (isName : Text.IsName declared.name) (integral : declared.base.isIntegral = true)
      (members : WritableMembers declared.base declared.members) :
      DefinitionWords arena (.enum declared) declared.words
  | struct {record : RecordType} {members : List Word} (attributes : record.attributes.OfType)
      (isName : Text.IsName record.name) (spelled : MembersWords arena record.members members) :
      DefinitionWords arena (.struct record) (recordWords (.struct, "struct") record members)
  | union {record : RecordType} {members : List Word} (attributes : record.attributes.OfType)
      (isName : Text.IsName record.name) (spelled : MembersWords arena record.members members) :
      DefinitionWords arena (.union record) (recordWords (.union, "union") record members)

theorem DefinitionWords.extend {arena after : TypeArena} {node : TypeNode} {words : List Word}
    (spelled : DefinitionWords arena node words) (grown : arena.Extends after) :
    DefinitionWords after node words := by
  cases spelled with
  | enum attributes isName integral members => exact .enum attributes isName integral members
  | struct attributes isName spelled => exact .struct attributes isName (spelled.extend grown)
  | union attributes isName spelled => exact .union attributes isName (spelled.extend grown)

@[simp] theorem ParseState.types_withDefinition (state : ParseState) (name : String)
    (node : TypeNode) : (state.withDefinition name node).types = (state.types.alloc node).2 := rfl

/-- A type that is declared in both states has the same number in both. -/
theorem ParseState.Alike.withDefinition {first second : ParseState} (alike : Alike first second)
    (name : String) {node other : TypeNode} (same : other.unplaced = node.unplaced) :
    Alike (first.withDefinition name node) (second.withDefinition name other) := by
  have grown := alike.withType (.named first.unit.namespaceId name) same
  rw [ParseState.withDefinition, ParseState.withDefinition, alike.namespaceId]
  exact { grown with
    unit := by rw [grown.unit, alike.definitions, alike.size]
    visible := grown.visible }

namespace Parse

open ParseState

variable {before after : ParseState} {options : Options} {behind : List Word → Prop}

section Attributes

variable {attributes : Attributes}

theorem oneAttribute_ok {known : Attributes} (run : oneAttribute known before = .ok attributes after)
    (clean : after.errors = 0) : SameButTokens before after := by
  obtain ⟨token, taken, nextRun, rest⟩ := bind_eq_ok.mp run
  have same : SameButTokens before taken := (next_ok nextRun).2 ▸ rfl
  cases slot : attributeSlot? token.kind with
  | none => simp only [slot] at rest; cases rest
  | some known =>
      cases known with
      | none =>
          simp only [slot] at rest
          obtain ⟨_, _, reportRun, ends⟩ := bind_eq_ok.mp rest
          cases reportRun
          cases ends
          cases clean
      | some word =>
          simp only [slot] at rest
          obtain ⟨-, ends⟩ := unreported rest (.pure _) clean
          cases ends
          exact same

theorem attributeRound_ok {known : Attributes} {result : Attributes ⊕ Attributes}
    (run : attributeRound known before = .ok result after) (clean : after.errors = 0) :
    SameButTokens before after := by
  obtain ⟨extended, read, readRun, rest⟩ := bind_eq_ok.mp run
  obtain ⟨⟨kind, text, place⟩, taken, nextRun, rest⟩ := bind_eq_ok.mp rest
  have same : SameButTokens read taken := (next_ok nextRun).2 ▸ rfl
  have reads := oneAttribute_ok readRun
  cases kind <;> cases rest
  all_goals exact (reads (same.errors_eq ▸ clean)).trans same

theorem same_of_attributeRounds {known : Attributes}
    (went : Went attributeRound attributes after before known) (clean : after.errors = 0) :
    SameButTokens before after := by
  induction went with
  | done run => exact (SameButTokens.counted _).trans (attributeRound_ok run clean)
  | more run later ih =>
      have grown := (Leads.of_went later Runs.attributeRound).errors_le
      have reads := attributeRound_ok run (Nat.le_zero.mp (clean ▸ grown))
      exact ((SameButTokens.counted _).trans reads).trans ih

/-- Reading attributes changes nothing but the tokens ahead. -/
theorem optionalAttributes_ok {place : Position}
    (run : optionalAttributes before = .ok (attributes, place) after) (clean : after.errors = 0) :
    SameButTokens before after ∧ (attributes.full && attributes.lite) = false := by
  obtain ⟨token, _, peekRun, rest⟩ := bind_eq_ok.mp run
  cases peekRun
  split at rest
  · obtain ⟨opening, opened, openRun, readRun⟩ := bind_eq_ok.mp rest
    obtain ⟨found, read, loopRun, last⟩ := bind_eq_ok.mp readRun
    obtain ⟨exclusive, ends⟩ := unreported last (.pure _) clean
    cases ends
    have opens : SameButTokens before opened := (expect_ok (by decide) openRun).1.same
    refine ⟨opens.trans (same_of_attributeRounds (.of_loop loopRun) clean), ?_⟩
    simpa using exclusive
  · cases rest
    exact ⟨.refl before, rfl⟩

/-- One attribute in brackets. -/
theorem Replays.attributeWord {kind : TokenKind} {text : String} {isSet : Attributes → Bool}
    {set : Attributes → Attributes} (slot : attributeSlot? kind = some (some (isSet, set)))
    (unset : isSet {} = false) (alone : ((set {}).full && (set {}).lite) = false) :
    Replays before before [(.bracketOpen, "["), (kind, text), (.bracketClose, "]")] behind
      optionalAttributes fun found => found.1 = set {} := by
  have round : Replays before before [(kind, text), (.bracketClose, "]")] behind (attributeRound {})
      fun result => ∃ found, result = .inr found ∧ found = set {} := by
    have one : Replays before before [(kind, text)] ⊤ (oneAttribute {}) fun found => found = set {} := by
      apply Replays.next.seqSilent
      intro token isWord
      have isKind : token.kind = kind := congrArg Prod.fst isWord
      simp only [isKind, slot, unset]
      exact .pure rfl
    apply one.seq
    rintro _ rfl
    apply Replays.next.seqSilent
    intro token isWord
    have isKind : token.kind = .bracketClose := congrArg Prod.fst isWord
    simp only [isKind]
    exact .pure ⟨_, rfl, rfl⟩
  apply Replays.peekBind
  intro token isWord
  have isKind : token.kind = .bracketOpen := congrArg Prod.fst isWord
  rw [if_pos isKind]
  apply (Replays.expect rfl).seq
  intro opening _
  apply (Replays.loop (.done round)).seqSilent
  rintro _ rfl
  rw [if_neg (by simp [alone])]
  exact .pure rfl

theorem Replays.optionalAttributes (ofType : attributes.OfType) :
    Replays before before attributes.words (Apart [.bracketOpen]) Parse.optionalAttributes
      fun found => found.1 = attributes := by
  obtain ⟨oneway, callback, full, lite⟩ := attributes
  obtain ⟨rfl, rfl, exclusive⟩ := ofType
  cases full <;> cases lite
  · apply Replays.peekApart (by decide) fun _ apart => apart
    intro token different
    rw [if_neg different]
    exact .pure rfl
  · exact @attributeWord _ _ .lite "lite" _ _ rfl rfl rfl
  · exact @attributeWord _ _ .full "full" _ _ rfl rfl rfl
  · cases exclusive

end Attributes

section Declare

variable {name : String} {node other : TypeNode}

theorem checkNewName_cases {place : Position} {fresh : Bool}
    (run : checkNewName name place before = .ok fresh after) :
    (fresh = true ∧ after = before ∧
        before.unit.visibleType? (.named before.unit.namespaceId name) = none) ∨
      fresh = false ∧ after.errors = before.errors + 1 := by
  obtain ⟨state, _, getRun, rest⟩ := bind_eq_ok.mp run
  cases getRun
  split at rest
  · cases rest
    exact .inr ⟨rfl, rfl⟩
  · cases rest
    exact .inl ⟨rfl, rfl, Option.not_isSome_iff_eq_none.mp ‹_›⟩

theorem declare_run (hidden : before.unit.visibleType? (.named before.unit.namespaceId name) = none) :
    declare name node before = .ok before.types.size (before.withDefinition name node) := by
  have interned : intern (.named before.unit.namespaceId name) node before =
      .ok before.types.size (before.withType (.named before.unit.namespaceId name) node) := by
    rcases intern_cases (.named before.unit.namespaceId name) node before with
      ⟨_, visible, -⟩ | ⟨-, run⟩
    · rw [hidden] at visible
      cases visible
    · exact run
  exact bind_eq_ok.mpr ⟨before, before, rfl, bind_eq_ok.mpr ⟨_, _, interned, rfl⟩⟩

theorem checkTypeAttributes_cases {found : Attributes} {declaration : String} {place : Position}
    {result : Unit} (run : checkTypeAttributes declaration found place before = .ok result after) :
    (after = before ∧ found.oneway = false ∧ found.callback = false) ∨
      after.errors = before.errors + 1 := by
  unfold checkTypeAttributes at run
  split at run
  · cases run
    exact .inr rfl
  · rename_i plain
    cases run
    exact .inl ⟨rfl, by simpa using plain⟩

namespace Replays

theorem checkNewName {place : Position}
    (hidden : before.unit.visibleType? (.named before.unit.namespaceId name) = none) :
    Replays before before [] behind (Parse.checkNewName name place) fun fresh => fresh = true := by
  apply getBind
  intro second alike
  simp only [alike.visible, alike.namespaceId, hidden]
  exact .pure rfl

theorem declare (hidden : before.unit.visibleType? (.named before.unit.namespaceId name) = none)
    (same : other.unplaced = node.unplaced) :
    Replays before (before.withDefinition name node) [] behind (Parse.declare name other)
      fun id => id = before.types.size := by
  intro second rest alike tokens _
  have hiddenToo : second.unit.visibleType? (.named second.unit.namespaceId name) = none := by
    rw [alike.visible, alike.namespaceId, hidden]
  exact ⟨_, _, declare_run hiddenToo, alike.size, tokens, alike.withDefinition name same⟩

theorem map {α β : Type} {production : Parse α} {answer : α} {words : List Word} (change : α → β)
    (replays : Replays before after words behind production fun value => value = answer) :
    Replays before after words behind (change <$> production) fun value => value = change answer := by
  rw [map_eq_pure_bind]
  apply replays.seqSilent
  rintro _ rfl
  exact .pure rfl

theorem checkTypeAttributes {found : Attributes} (ofType : found.OfType) {declaration : String}
    {place : Position} :
    Replays before before [] behind (Parse.checkTypeAttributes declaration found place)
      fun _ => True := by
  rw [Parse.checkTypeAttributes, if_neg (by simp [ofType.oneway, ofType.callback])]
  exact .pure trivial

end Replays

end Declare

/-- A type was declared, and words tell it. -/
def DeclaresBy (before after : ParseState) (words : List Word) : Prop :=
  ∃ id < after.types.size, after.unit.definitions = before.unit.definitions ++ [id] ∧
    DefinitionWords after.types (after.types.node id) words

/-- What holds along all moves holds from a state to the one where a type is declared. -/
theorem admits_withDefinition {relation : ParseState → ParseState → Prop}
    [Admits SourceFault.OfBody relation] {name : String} {node : TypeNode}
    (hidden : before.unit.visibleType? (.named before.unit.namespaceId name) = none)
    (denotes : (TypeKey.named before.unit.namespaceId name).Denotes node) :
    relation before (before.withDefinition name node) := by
  have declares : relation before (stateAfter (declare name node) before) := Runs.declare denotes
  rwa [stateAfter_ok (declare_run hidden)] at declares

theorem declareSome_ok {name : String} {node : TypeNode} {result : Option TypeId}
    (hidden : before.unit.visibleType? (.named before.unit.namespaceId name) = none)
    (run : (some <$> declare name node : Parse (Option TypeId)) before = .ok result after) :
    result = some before.types.size ∧ after = before.withDefinition name node := by
  rw [map_eq_pure_bind] at run
  obtain ⟨id, declared, declareRun, ends⟩ := bind_eq_ok.mp run
  rw [declare_run hidden] at declareRun
  cases declareRun
  cases ends
  exact ⟨rfl, rfl⟩

section Records

variable {found : Attributes} {isUnion : Bool}

/-- A struct or a union. -/
def recordNode (isUnion : Bool) (record : RecordType) : TypeNode :=
  if isUnion then .union record else .struct record

/-- The struct or union of a name, before its members are read. -/
def newRecord (state : ParseState) (found : Attributes) (name : Token) : RecordType :=
  ⟨name.text, state.unit.namespaceId, state.unit.name, [], found, name.place⟩

theorem denotes_recordNode (isUnion : Bool) (state : ParseState) (found : Attributes) (name : Token) :
    (TypeKey.named state.unit.namespaceId name.text).Denotes
      (recordNode isUnion (newRecord state found name)) := by
  cases isUnion <;> exact ⟨rfl, rfl⟩

theorem setMembers_recordNode (members : List Member) (isUnion : Bool) (record : RecordType) :
    setMembers members (recordNode isUnion record) =
      recordNode isUnion { record with members := members } := by
  cases isUnion <;> rfl

theorem recordBehindName_ok {name : Token}
    (run : recordBehindName options found isUnion name before = .ok () after)
    (clean : after.errors = 0) :
    before.unit.visibleType? (.named before.unit.namespaceId name.text) = none ∧
      recordBody options (if isUnion then "union" else "struct") name (some before.types.size)
        (before.withDefinition name.text (recordNode isUnion (newRecord before found name))) =
          .ok () after := by
  obtain ⟨fresh, checked, freshRun, rest⟩ := bind_eq_ok.mp run
  obtain ⟨state, _, getRun, rest⟩ := bind_eq_ok.mp rest
  cases getRun
  rcases checkNewName_cases freshRun with ⟨rfl, rfl, hidden⟩ | ⟨rfl, counted⟩
  · obtain ⟨id, declared, declareRun, bodyRun⟩ := bind_eq_ok.mp rest
    obtain ⟨rfl, rfl⟩ := declareSome_ok hidden declareRun
    exact ⟨hidden, bodyRun⟩
  · obtain ⟨_, _, pureRun, bodyRun⟩ := bind_eq_ok.mp rest
    cases pureRun
    have grown := (Leads.of_run bodyRun (Runs.recordBody _ _ _)).errors_le
    omega

theorem retells_recordBehindName {name : Token}
    (run : recordBehindName options found isUnion name before = .ok () after)
    (orderly : before.Orderly) (tidy : after.Tidy) :
    ∃ members words, after.unit.definitions = before.unit.definitions ++ [before.types.size] ∧
      before.types.size < after.types.size ∧
      after.types.node before.types.size =
        recordNode isUnion { newRecord before found name with members := members } ∧
      MembersWords after.types members words ∧ Keeps before after ∧
      ∀ copied : Token, copied.text = name.text →
        Replays before after ((.braceOpen, "\x7b") ::
            (words ++ [(.braceClose, "\x7d")] ++ [(.semicolon, ";")])) ⊤
          (recordBehindName options found isUnion copied) fun _ => True := by
  obtain ⟨hidden, bodyRun⟩ := recordBehindName_ok run tidy.clean
  have denotes := denotes_recordNode isUnion before found name
  have declares := Leads.of_moves (admits_withDefinition hidden denotes)
  have declaresKeeps : Keeps before _ := admits_withDefinition hidden denotes
  obtain ⟨read, members, words, rfl, reads, keeps, keepsUnit, spelled, replays⟩ :=
    retells_recordBody bodyRun (declares.orderly orderly) tidy
  have listed : before.types.size <
      (before.withDefinition name.text (recordNode isUnion (newRecord before found name))).types.size := by
    simp
  have inside := Nat.lt_of_lt_of_le listed keeps.size_le
  have keepsAll := trans_of Keeps declaresKeeps keeps
  refine ⟨members, words, congrArg CompiledUnit.definitions keepsUnit.unit_eq, by simpa using inside, ?_,
    spelled.extend (.update _ _ (setMembers_outline members)), ⟨?_, ?_⟩, ?_⟩
  · rw [types_withMembers, TypeArena.node_update_self inside, keeps.node_eq _ listed,
      node_withDefinition, setMembers_recordNode]
  · simpa using keepsAll.size_le
  · intro id below
    rw [types_withMembers, TypeArena.node_update_of_ne (Nat.ne_of_lt below), keepsAll.node_eq id below]
  · rintro ⟨kind, text, place⟩ sameName
    obtain rfl : text = name.text := sameName
    apply (Replays.checkNewName hidden).silentSeq
    rintro _ rfl
    apply Replays.getBind
    intro second alike
    have same : (recordNode isUnion (newRecord second found ⟨kind, name.text, place⟩)).unplaced =
        (recordNode isUnion (newRecord before found name)).unplaced := by
      have sameRecord : (newRecord second found ⟨kind, name.text, place⟩).unplaced =
          (newRecord before found name).unplaced := by
        simp only [newRecord, RecordType.unplaced, alike.namespaceId, alike.name, List.map_nil]
      cases isUnion
      · exact congrArg TypeNode.struct sameRecord
      · exact congrArg TypeNode.union sameRecord
    apply ((Replays.declare hidden same).map Option.some).silentSeq
    rintro _ rfl
    exact replays _

/-- The word that declares a struct or a union. -/
def recordKeyword (isUnion : Bool) : Word :=
  if isUnion then (.union, "union") else (.struct, "struct")

theorem definitionWords_recordNode {arena : TypeArena} {record : RecordType} {members : List Word}
    (attributes : record.attributes.OfType) (isName : Text.IsName record.name)
    (spelled : MembersWords arena record.members members) :
    DefinitionWords arena (recordNode isUnion record)
      (recordWords (recordKeyword isUnion) record members) := by
  cases isUnion
  · exact .struct attributes isName spelled
  · exact .union attributes isName spelled

theorem retells_recordDeclaration {place : Position}
    (run : recordDeclaration options found place isUnion before = .ok () after)
    (exclusive : (found.full && found.lite) = false) (orderly : before.Orderly)
    (tidy : after.Tidy) :
    found.OfType ∧ ∃ words, DeclaresBy before after (found.words ++ recordKeyword isUnion :: words) ∧
      Keeps before after ∧ ∀ placeToo : Position,
        Replays before after (recordKeyword isUnion :: words) ⊤
          (recordDeclaration options found placeToo isUnion) fun _ => True := by
  obtain ⟨keyword, worded, wordRun, rest⟩ := bind_eq_ok.mp run
  obtain ⟨_, checked, checkRun, rest⟩ := bind_eq_ok.mp rest
  obtain ⟨name, named, nameRun, rest⟩ := bind_eq_ok.mp rest
  obtain ⟨supported, behindRun⟩ :=
    unreported rest (Runs.recordBehindName found isUnion name) tidy.clean
  have later := (Leads.of_run nameRun (Runs.expects _ _)).trans
    (.of_run behindRun (Runs.recordBehindName found isUnion name))
  have clean : checked.errors = 0 := Nat.le_zero.mp (tidy.clean ▸ later.errors_le)
  rcases checkTypeAttributes_cases checkRun with ⟨rfl, oneway, callback⟩ | counted
  swap
  · omega
  obtain ⟨takesName, isName⟩ := expect_ok (by decide) nameRun
  have starts := (Leads.of_run wordRun (Runs.expects _ _)).trans (.of_run nameRun (Runs.expects _ _))
  have same : SameButTokens before named := by
    refine SameButTokens.trans ?_ takesName.same
    cases isUnion <;> exact (expect_ok (by decide) wordRun).1.same
  have listed : name ∈ checked.tokens := by rw [takesName.tokens]; exact List.mem_cons_self
  have isWord := (Leads.of_run wordRun (Runs.expects _ _)).orderly orderly |>.named name listed isName
  obtain ⟨members, words, definitions, inside, node, spelled, keeps, replays⟩ :=
    retells_recordBehindName behindRun (starts.orderly orderly) tidy
  have ofType : found.OfType := ⟨oneway, callback, exclusive⟩
  rw [same.unit_eq] at definitions
  rw [Keeps, same.types_eq] at keeps
  have tells : DefinitionWords after.types (after.types.node named.types.size)
      (recordWords (recordKeyword isUnion) { newRecord named found name with members := members }
        words) := by
    rw [node]
    exact definitionWords_recordNode ofType isWord spelled
  refine ⟨ofType, _, ⟨_, inside, definitions, tells⟩, keeps, fun placeToo => ?_⟩
  have isKind : (recordKeyword isUnion).1 = if isUnion then .union else .struct := by
    cases isUnion <;> rfl
  apply (Replays.expect isKind).seq
  intro _ _
  apply (Replays.checkTypeAttributes ofType).silentSeq
  intro _ _
  apply (Replays.expect rfl).seq
  intro copied isCopy
  rw [if_neg supported]
  exact (replays copied (congrArg Prod.snd isCopy)).congr same (.refl _)

end Records

section Enums

theorem Replays.intType (options : Options) (orderly : before.Orderly) :
    Replays before before [(.int, "int")] (Apart typeStops) (typeExpression options)
      fun id => id = Primitive.int.id := by
  have node := node_primitive orderly .int
  have supported : supportFault? options before.types Primitive.int.id = none := by
    simp only [supportFault?, node]
    cases options.language with
    | none => rfl
    | some language => cases language <;> rfl
  have reads (depth : Nat) : Replays before before [(.int, "int")] (Apart typeStops)
      (typeWithin options (depth + 1)) fun id => id = Primitive.int.id := by
    apply Replays.next.seqSilent
    intro token isWord
    rw [@baseType_of_word _ .int _ _ rfl isWord]
    have ends : Replays before before [] (Apart typeStops) (arraySuffix Primitive.int.id token.place)
        fun id => id = Primitive.int.id := Replays.loop (.noBrackets (.refl before))
    apply Replays.silentSeq (.pure rfl)
    rintro _ rfl
    apply ends.seqSilent
    rintro _ rfl
    apply (Replays.checkSupport supported).seqSilent
    exact fun _ _ => .pure rfl
  exact fun second rest alike tokens follows => reads _ second rest alike tokens follows

theorem Replays.integralBase {type : TypeId} {base : Primitive} {place : Position} (integral :
    (before.types.primitive? type).filter Primitive.isIntegral = some base) :
    Replays before before [] behind
      (do
        let arena ← types
        match (arena.primitive? type).filter Primitive.isIntegral with
        | some base => return base
        | none =>
          report place (.enumBase (arena.spelling type))
          return .int)
      fun found => found = base := by
  apply Replays.typesBind
  intro arena same
  rw [← TypeArena.primitive?_unplaced, same, TypeArena.primitive?_unplaced, integral]
  exact .pure rfl

theorem retells_enumBase {base : Primitive} (run : enumBase options before = .ok base after)
    (orderly : before.Orderly) (tidy : after.Tidy) :
    base.isIntegral = true ∧
      Replays before after ((.colon, ":") :: base.words) (Apart typeStops) (enumBase options)
        fun found => found = base := by
  obtain ⟨taken, opened, eatRun, rest⟩ := bind_eq_ok.mp run
  rcases eat_ok (by decide) eatRun with ⟨rfl, token, takes, -⟩ | ⟨rfl, rfl, -⟩
  · obtain ⟨_, _, peekRun, typeRest⟩ := bind_eq_ok.mp rest
    cases peekRun
    obtain ⟨type, read, typeRun, chosen⟩ := bind_eq_ok.mp typeRest
    obtain ⟨_, _, typesRun, chosen⟩ := bind_eq_ok.mp chosen
    cases typesRun
    cases integral : (read.types.primitive? type).filter Primitive.isIntegral with
    | none =>
        simp only [integral] at chosen
        obtain ⟨_, _, reportRun, ends⟩ := bind_eq_ok.mp chosen
        cases reportRun
        cases ends
        cases tidy.clean
    | some known =>
        simp only [integral] at chosen
        cases chosen
        obtain ⟨isPrimitive, isIntegral⟩ := Option.filter_eq_some_iff.mp integral
        have opens := Leads.of_run eatRun (Runs.eat _)
        obtain ⟨words, spelled, replays⟩ :=
          retells_typeExpression options typeRun (opens.orderly orderly) tidy
        obtain rfl := spelled.eq_words (TypeArena.primitive?_eq_some.mp isPrimitive)
        refine ⟨isIntegral, ?_⟩
        apply (Replays.eat rfl).seq
        rintro _ rfl
        rw [if_pos rfl]
        apply Replays.peekAny
        intro ahead
        apply (replays.congr takes.same (.refl _)).seqSilent
        rintro _ rfl
        exact .integralBase integral
  · cases rest
    refine ⟨rfl, ?_⟩
    apply (Replays.eat rfl).seq
    rintro _ rfl
    rw [if_pos rfl]
    apply Replays.peekAny
    intro ahead
    apply (Replays.intType options orderly).seqSilent
    rintro _ rfl
    apply Replays.integralBase
    rw [TypeArena.primitive?_eq_some.mpr (node_primitive orderly .int)]
    rfl

variable {found : Attributes} {name : Token} {base : Primitive} {members : List EnumMember}

/-- The enum of a name. -/
def newEnum (state : ParseState) (found : Attributes) (name : Token) (base : Primitive)
    (members : List EnumMember) : EnumType :=
  ⟨name.text, state.unit.namespaceId, state.unit.name, base, members, found, name.place⟩

/-- Declares an enum whose name is new. -/
def declareEnum (found : Attributes) (name : Token) (base : Primitive) (members : List EnumMember)
    (fresh : Bool) : Parse Unit := do
  if fresh then
    let unit := (← get).unit
    let _ ← declare name.text
      (.enum ⟨name.text, unit.namespaceId, unit.name, base, members, found, name.place⟩)

theorem runs_declareEnum (fresh : Bool) :
    Runs (Moves SourceFault.OfBody) (declareEnum found name base members fresh) :=
  .ite (.getBind fun _ => Runs.bindAt (Runs.declare ⟨rfl, rfl⟩) fun _ => .pure _) (.pure _)

theorem declareEnum_run
    (hidden : before.unit.visibleType? (.named before.unit.namespaceId name.text) = none) :
    declareEnum found name base members true before =
      .ok () (before.withDefinition name.text (.enum (newEnum before found name base members))) :=
  bind_eq_ok.mpr ⟨_, _, rfl, bind_eq_ok.mpr ⟨_, _, declare_run hidden, rfl⟩⟩

theorem Replays.declareEnum
    (hidden : before.unit.visibleType? (.named before.unit.namespaceId name.text) = none)
    {copied : Token} (sameName : copied.text = name.text) {others : List EnumMember}
    (same : others.map EnumMember.unplaced = members.map EnumMember.unplaced) :
    Replays before
      (before.withDefinition name.text (.enum (newEnum before found name base members))) [] behind
      (declareEnum found copied base others true) fun _ => True := by
  intro second rest alike tokens _
  rw [← sameName] at hidden ⊢
  have hiddenToo : second.unit.visibleType? (.named second.unit.namespaceId copied.text) = none := by
    rw [alike.visible, alike.namespaceId, hidden]
  refine ⟨_, _, declareEnum_run hiddenToo, trivial, tokens, alike.withDefinition copied.text ?_⟩
  simp only [newEnum, TypeNode.unplaced, EnumType.unplaced, alike.namespaceId, alike.name, sameName, same]

/-- An enum in which nothing was wrong is declared under a new name. -/
theorem enumDeclaration_ok {place : Position}
    (run : enumDeclaration options found place before = .ok () after) (orderly : before.Orderly)
    (tidy : after.Tidy) :
    (found.oneway = false ∧ found.callback = false) ∧
      ∃ name members named base based ended,
        (SameButTokens before named ∧ named.Orderly ∧ Text.IsName name.text ∧
          named.unit.visibleType? (.named named.unit.namespaceId name.text) = none) ∧
        (enumBase options named = .ok base based ∧ based.Tidy) ∧
        (SameButTokens based ended ∧ WritableMembers base members ∧ members ≠ []) ∧
        declareEnum found name base members true ended = .ok () after := by
  obtain ⟨keyword, worded, wordRun, rest⟩ := bind_eq_ok.mp run
  obtain ⟨_, checked, checkRun, rest⟩ := bind_eq_ok.mp rest
  obtain ⟨name, named, nameRun, rest⟩ := bind_eq_ok.mp rest
  obtain ⟨fresh, tested, freshRun, rest⟩ := bind_eq_ok.mp rest
  obtain ⟨base, based, baseRun, rest⟩ := bind_eq_ok.mp rest
  obtain ⟨_, opened, openRun, rest⟩ := bind_eq_ok.mp rest
  obtain ⟨members, read, membersRun, rest⟩ := bind_eq_ok.mp rest
  obtain ⟨_, closed, closeRun, rest⟩ := bind_eq_ok.mp rest
  obtain ⟨_, ended, endRun, rest⟩ := bind_eq_ok.mp rest
  obtain ⟨someMember, declareRun⟩ := unreported rest (runs_declareEnum fresh) tidy.clean
  have starts := (Leads.of_run wordRun (Runs.expects _ _)).trans
    (.of_run checkRun (Runs.checkTypeAttributes _ _ _))
  have names := Leads.of_run nameRun (Runs.expects _ _)
  have baseReads := Leads.of_run baseRun Runs.enumBase
  have bodyOpens := Leads.of_run openRun (Runs.expects _ _)
  have bodyReads := ((bodyOpens.trans (.of_run membersRun (Runs.enumMembers base))).trans
    (.of_run closeRun (Runs.expects _ _))).trans (.of_run endRun (Runs.eat _))
  have declares := Leads.of_run declareRun (runs_declareEnum fresh)
  have clean : tested.errors = 0 :=
    Nat.le_zero.mp (tidy.clean ▸ ((baseReads.trans bodyReads).trans declares).errors_le)
  rcases checkNewName_cases freshRun with ⟨rfl, rfl, hidden⟩ | ⟨rfl, counted⟩
  swap
  · omega
  rcases checkTypeAttributes_cases checkRun with ⟨rfl, plain⟩ | counted
  swap
  · have counts := names.errors_le
    omega
  obtain ⟨takesName, isName⟩ := expect_ok (by decide) nameRun
  have listed : name ∈ checked.tokens := by rw [takesName.tokens]; exact List.mem_cons_self
  have orderlyNamed := (starts.trans names).orderly orderly
  have orderlyBased := baseReads.orderly orderlyNamed
  have tidyEnded := declares.tidy (bodyReads.orderly orderlyBased).coherent tidy
  have opens := (expect_ok (by decide) openRun).1.same
  have ends := (expect_ok (by decide) closeRun).1.same.trans (same_of_eat (by decide) endRun)
  obtain ⟨reads, writable⟩ := enumMembers_ok membersRun (ends.errors_eq ▸ tidyEnded.clean)
    (bodyOpens.orderly orderlyBased)
  exact ⟨plain, name, members, tested, base, based, ended,
    ⟨(expect_ok (by decide) wordRun).1.same.trans takesName.same, orderlyNamed,
      (starts.orderly orderly).named name listed isName, hidden⟩,
    ⟨baseRun, bodyReads.tidy orderlyBased.coherent tidyEnded⟩,
    ⟨opens.trans (reads.trans ends), writable, by simpa using someMember⟩, declareRun⟩

theorem retells_enumDeclaration {place : Position}
    (run : enumDeclaration options found place before = .ok () after)
    (exclusive : (found.full && found.lite) = false) (orderly : before.Orderly)
    (tidy : after.Tidy) :
    found.OfType ∧ ∃ words, DeclaresBy before after (found.words ++ (.enum, "enum") :: words) ∧
      Keeps before after ∧ ∀ placeToo : Position,
        Replays before after ((.enum, "enum") :: words) ⊤ (enumDeclaration options found placeToo)
          fun _ => True := by
  have keeps : Keeps before after := (Runs.enumDeclaration found place).ok run
  obtain ⟨⟨oneway, callback⟩, name, members, named, base, based, ended,
    ⟨starts, orderlyNamed, isName, hidden⟩, ⟨baseRun, tidyBased⟩, ⟨body, writable, nonempty⟩,
    declareRun⟩ := enumDeclaration_ok run orderly tidy
  obtain ⟨integral, replaysBase⟩ := retells_enumBase baseRun orderlyNamed tidyBased
  have keepsUnit : KeepsUnit named based := Runs.enumBase.ok baseRun
  have sameNamespace : ended.unit.namespaceId = named.unit.namespaceId := by
    rw [body.unit_eq, keepsUnit.unit_eq]
  have hiddenThere : ended.unit.visibleType? (.named ended.unit.namespaceId name.text) = none := by
    rw [sameNamespace, body.unit_eq, keepsUnit.named, hidden]
  rw [declareEnum_run hiddenThere] at declareRun
  cases declareRun
  have ofType : found.OfType := ⟨oneway, callback, exclusive⟩
  have definitions : ended.unit.definitions = before.unit.definitions := by
    rw [body.unit_eq, keepsUnit.unit_eq, starts.unit_eq]
  refine ⟨ofType, (.identifier, name.text) :: (.colon, ":") ::
      (base.words ++ (.braceOpen, "\x7b") ::
        (members.flatMap EnumMember.words ++ (.braceClose, "\x7d") :: [(.semicolon, ";")])),
    ⟨ended.types.size, by simp, congrArg (· ++ [ended.types.size]) definitions, ?_⟩, keeps,
    fun placeToo => ?_⟩
  · rw [node_withDefinition]
    exact @DefinitionWords.enum _ (newEnum ended found name base members) ofType isName integral writable
  · apply (Replays.expect rfl).seq
    intro _ _
    apply (Replays.checkTypeAttributes ofType).silentSeq
    intro _ _
    apply (Replays.expect rfl).seq
    intro copied isCopy
    have sameName : copied.text = name.text := congrArg Prod.snd isCopy
    refine Replays.congr ?_ starts (.refl _)
    rw [← sameName] at hidden
    apply (Replays.checkNewName hidden).silentSeq
    rintro _ rfl
    apply replaysBase.seqStop (fun _ => .cons (by decide))
    rintro _ rfl
    apply (Replays.expect rfl).seq
    intro _ _
    apply (Replays.enumMembers writable integral).seqStop fun _ => ⟨_, _, rfl, rfl⟩
    intro others same
    apply (Replays.expect rfl).seq
    intro _ _
    apply (Replays.eat rfl).seqSilent
    rintro _ rfl
    have nonemptyToo : others.isEmpty = false := by
      rw [← List.isEmpty_map, same, List.isEmpty_map]
      simpa using nonempty
    rw [if_neg (by simp [nonemptyToo])]
    exact (Replays.declareEnum hiddenThere sameName same).congr body (.refl _)

end Enums

end Parse

end DriverIdl
