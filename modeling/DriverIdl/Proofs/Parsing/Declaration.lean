import DriverIdl.Proofs.Parsing.Skipping
import DriverIdl.Proofs.Parsing.TypeExpression

/-!
# What a declaration builds

Attributes, enum members and the members of structs and unions stay inside a declaration.  The
declaration itself takes the word that introduces it and the name behind that word, and adds one
type of that name to the unit.
-/

namespace DriverIdl

/-- The state with a new declaration of the unit. -/
def ParseState.withDefinition (state : ParseState) (name : String) (node : TypeNode) : ParseState :=
  let grown := state.withType (.named state.unit.namespaceId name) node
  { grown with
    unit := { grown.unit with definitions := state.unit.definitions ++ [state.types.size] } }

theorem ParseState.node_withDefinition (state : ParseState) (name : String) (node : TypeNode) :
    (state.withDefinition name node).types.node state.types.size = node :=
  TypeArena.node_alloc_size

theorem ParseState.record?_withDefinition (state : ParseState) (name : String) (node : TypeNode) :
    (state.withDefinition name node).types.record? state.types.size = node.record? := by
  rw [TypeArena.record?_eq, node_withDefinition]

/-- A struct or union has a member, and no two members of one name. -/
def RecordType.Proper (record : RecordType) : Prop :=
  record.members ≠ [] ∧ (record.members.map Member.name).Nodup

namespace Parse

open ParseState

variable {mark : Nat} {known : Prop} {before : ParseState} {options : Options}

theorem Ensures.checkBodyGoesOn (token : Token) :
    Ensures mark known before (checkBodyGoesOn token) fun _ after => after = before := by
  unfold Parse.checkBodyGoesOn
  split
  · exact unexpected
  · exact pure fun _ _ => rfl

/-- The items of a body keep an invariant, and behind the last one stands the brace that closes the
body. -/
theorem Ensures.bodyItems {α : Type} {item : Parse α}
    {faultOf? : List α → α → Option (Position × SourceFault)}
    (invariant : List α → ParseState → Prop) (holds : known → before.Sound → invariant [] before)
    (counts : ∀ items state, invariant items state → invariant items state.counted)
    (reads : ∀ items state, Ensures mark (known ∧ invariant items state) state item
      fun found after =>
        invariant (items ++ [found]) after ∧ after.tokens.length < state.tokens.length) :
    Ensures mark known before (bodyItems item faultOf?) fun items after =>
      ∃ state closing, invariant items state ∧ Takes state closing after ∧
        closing.kind = .braceClose := by
  apply loop invariant holds counts
  intro items state _
  apply bind (eat (by decide))
  intro closed entered _ _
  apply ite
  · intro isClosed
    apply pure
    rintro ⟨⟨-, held⟩, ⟨-, closing, takes, isBrace⟩ | ⟨notClosed, -⟩⟩ -
    · exact ⟨state, closing, held, takes, isBrace⟩
    · simp [notClosed] at isClosed
  · intro notClosed
    apply bindOk (peek_run entered)
    apply bind (checkBodyGoesOn _)
    intro _ checked _ _
    apply under (checked = state ∧ known ∧ invariant items checked)
    · apply bind (attempt ((reads items checked).under _ And.right))
      intro result read _ _
      match result with
      | none =>
          -- A clean run never skips an item, so nothing needs to hold behind one.
          apply bind (recoverStatement _)
          · intro _ recovered _ _
            exact pure fun ⟨_, impossible⟩ => impossible.elim
          · rintro ⟨-, value, impossible, -⟩
            cases impossible
      | some next =>
          simp only
          split
          · exact bindReport fun _ => never
          · apply pure
            rintro ⟨⟨rfl, -⟩, _, ⟨⟩, held, shorter⟩ -
            exact ⟨held, shorter⟩
    · rintro ⟨⟨⟨assumed, held⟩, ⟨isClosed, -⟩ | ⟨-, rfl, -⟩⟩, rfl⟩
      · exact absurd isClosed notClosed
      · exact ⟨rfl, assumed, held⟩

/-- Takes an identifier, which is a word. -/
theorem Ensures.expectWord {expected : String} :
    Ensures mark known before (Parse.expect .identifier expected) fun token after =>
      Takes before token after ∧ token.kind = .identifier ∧ Text.IsWord token.text := by
  apply (expect (by decide)).fromSound.imp
  rintro token after - - ⟨sound, takes, isName⟩
  exact ⟨takes, isName, (sound.spelled token (by rw [takes.tokens]; simp)).word isName⟩

namespace Reading

/-- Words in brackets are plain. -/
theorem isPlain_of_attributeSlot? {kind : TokenKind} (slot : attributeSlot? kind ≠ none) :
    isPlain kind = true := by
  cases kind <;> simp_all [attributeSlot?, isPlain, TokenKind.startsDeclaration]

theorem oneAttribute (found : Attributes) :
    Reading options mark known before (oneAttribute found) fun _ after =>
      after.tokens.length < before.tokens.length := by
  apply bindNext
  intro token state _
  cases slot : attributeSlot? token.kind with
  | none => exact Ensures.unexpected
  | some setter =>
      have plain : isPlain token.kind = true := isPlain_of_attributeSlot? (by simp [slot])
      match setter with
      | none => exact Ensures.bindReport fun _ => Ensures.never
      | some (isSet, set) =>
          simp only
          split
          · exact Ensures.bindReport fun _ => Ensures.never
          · exact pure fun _ _ => ⟨plain, id⟩

theorem attributes : Reading options mark known before attributes fun _ _ => True := by
  apply bind (expect rfl)
  intro opening opened _ _
  apply bind
  · apply loop fun _ _ => True
    · exact fun _ _ => trivial
    · exact fun _ _ _ => trivial
    · intro found state _
      apply bind (oneAttribute found)
      intro extended read _ _
      apply bindNext
      intro token separated _
      cases token.kind
      case comma =>
        apply pure
        rintro ⟨-, -, shorter⟩ -
        exact ⟨rfl, fun takes => ⟨trivial, Nat.lt_trans takes shorter⟩⟩
      case bracketClose => exact pure fun _ _ => ⟨rfl, fun _ => trivial⟩
      all_goals exact Ensures.unexpected
  · intro found read _ _
    apply reportIf
    intro state _
    exact pure fun _ _ => trivial

theorem optionalAttributes :
    Reading options mark known before optionalAttributes fun _ _ => True := by
  apply Ensures.bindOk (peek_run before)
  split
  · exact attributes
  · exact pure fun _ _ => trivial

/-- What follows a clean run from a sound state may look back at both ends of it. -/
theorem lookBack {α : Type} {production : Parse α} {post : α → ParseState → Prop}
    (reading : Reading options mark known before production post) :
    Reading options mark known before production fun value after =>
      (before.Sound ∧ after.errors = 0) ∧ post value after := by
  apply reading.fromSound.toClean.imp
  rintro value after - - ⟨clean, sound, reads, holds⟩
  exact ⟨reads, ⟨sound, clean⟩, holds⟩

theorem enumBase : Reading options mark known before (enumBase options)
    fun base _ => base.isIntegral = true := by
  apply bind (eat rfl)
  intro taken state _ _
  split
  · apply Ensures.bindOk (peek_run state)
    apply bind typeExpression
    intro type read _ _
    apply Ensures.bindOk (types_run read)
    split
    · rename_i base found
      exact pure fun _ _ => (Option.filter_eq_some_iff.mp found).2
    · exact Ensures.bindReport fun _ => Ensures.never
  · exact pure fun _ _ => rfl

theorem enumValue (members : List EnumMember) :
    Reading options mark known before (enumValue members) fun _ _ => True := by
  apply bind (eat rfl)
  intro negative state _ _
  apply bindNext
  intro token taken _
  cases token.kind
  case number =>
    simp only
    split
    · exact pure fun _ _ => ⟨rfl, fun _ => trivial⟩
    · exact Ensures.fail _ _
  case identifier =>
    simp only
    split
    · exact Ensures.unexpected
    · split
      · exact pure fun _ _ => ⟨rfl, fun _ => trivial⟩
      · exact Ensures.fail _ _
  all_goals exact Ensures.unexpected

theorem checkBodyGoesOn (token : Token) :
    Reading options mark known before (checkBodyGoesOn token) fun _ after => after = before := by
  apply (Ensures.checkBodyGoesOn token).imp
  rintro _ after - - rfl
  exact ⟨.refl after, rfl⟩

theorem enumMember (base : Primitive) (members : List EnumMember) (following : Int) :
    Reading options mark known before (enumMember base members following) fun _ after =>
      after.tokens.length < before.tokens.length := by
  apply bind (expect rfl)
  intro name named _ _
  apply bind (eat rfl)
  intro assigned state _ _
  apply bindIf (fun _ => enumValue members) fun _ => pure fun _ _ => trivial
  intro value valued _
  apply reportIf
  intro checked _
  apply Ensures.ite
  · intro _
    apply Ensures.bindReport
    intro reported
    apply Ensures.bindOk rfl
    apply Ensures.bind (Ensures.eat (by decide))
    intro more after _ _
    exact Ensures.pure fun ⟨impossible, _⟩ => impossible.elim
  · intro _
    apply Ensures.bindOk rfl
    apply bind (eat rfl)
    intro more after _ _
    apply pure
    rintro ⟨⟨⟨⟨⟨-, -, shorter⟩, reads, -⟩, valueReads, -⟩, rfl, -⟩, commaReads, -⟩ -
    have whole := (reads.trans valueReads).trans commaReads
    exact Nat.lt_of_le_of_lt whole.length_le shorter

theorem enumMembers (base : Primitive) :
    Reading options mark known before (enumMembers base) fun _ _ => True := by
  apply loop fun _ _ => True
  · exact fun _ _ => trivial
  · exact fun _ _ _ => trivial
  · rintro ⟨members, following⟩ state _
    apply Ensures.bindOk (peek_run state)
    split
    · exact pure fun _ _ => trivial
    · apply bind (checkBodyGoesOn _)
      intro _ checked _ _
      apply bind (enumMember base members following)
      rintro ⟨extended, after, more⟩ read _ _
      simp only
      split
      · apply pure
        rintro ⟨⟨-, checks, -⟩, -, shorter⟩ -
        exact ⟨trivial, Nat.lt_of_lt_of_le shorter checks.length_le⟩
      · exact pure fun _ _ => trivial

/-- Takes an identifier, which is a word. -/
theorem expectWord {expected : String} :
    Reading options mark known before (Parse.expect .identifier expected) fun token after =>
      Text.IsWord token.text ∧ after.tokens.length < before.tokens.length := by
  apply Ensures.expectWord.imp
  rintro token after - - ⟨takes, isName, isWord⟩
  exact ⟨.of_takes takes (by rw [isName]; rfl), isWord, takes.length_lt⟩

theorem recordMember (declaration : String) :
    Reading options mark known before (recordMember options declaration) fun member after =>
      (Expresses options mark before.types member.type after ∧ Text.IsWord member.name) ∧
        after.tokens.length < before.tokens.length := by
  apply Ensures.bindOk (peek_run before)
  apply bind typeExpression
  intro type read _ _
  apply Ensures.bindOk (types_run read)
  split
  · exact Ensures.fail _ _
  · apply bind expectWord
    intro name named nameRun _
    apply bind (expect rfl)
    intro _ closed closeRun _
    have same := (expect_ok (by decide) nameRun).1.same.trans (expect_ok (by decide) closeRun).1.same
    apply pure
    rintro ⟨⟨⟨-, reads, expresses⟩, -, isWord, shorter⟩, closes, -⟩ -
    refine ⟨⟨expresses.of_same same, isWord⟩, ?_⟩
    exact Nat.lt_of_le_of_lt closes.length_le (Nat.lt_of_lt_of_le shorter reads.length_le)

/-- What holds of no items and is kept by every item holds of all items of a body. -/
theorem bodyItems {α : Type} {item : Parse α}
    {faultOf? : List α → α → Option (Position × SourceFault)}
    (kept : TypeArena → CompiledUnit → List α → Prop) (empty : known → kept before.types before.unit [])
    (reads : ∀ (items : List α) (state : ParseState),
      Reading options mark (known ∧ kept state.types state.unit items) state item fun found after =>
        kept after.types after.unit (items ++ [found]) ∧
          after.tokens.length < state.tokens.length) :
    Reading options mark known before (bodyItems item faultOf?) fun items after =>
      kept after.types after.unit items := by
  let readSoFar (items : List α) (state : ParseState) : Prop :=
    Reads options mark before state ∧ kept state.types state.unit items
  have item (items : List α) (state : ParseState) :
      Ensures mark (known ∧ readSoFar items state) state item fun found after =>
        readSoFar (items ++ [found]) after ∧ after.tokens.length < state.tokens.length := by
    apply ((reads items state).under (known ∧ kept state.types state.unit items) _).imp
    · rintro next after ⟨-, whole, -⟩ - ⟨reading, held, shorter⟩
      exact ⟨⟨whole.trans reading, held⟩, shorter⟩
    · exact fun ⟨assumed, _, held⟩ => ⟨assumed, held⟩
  have counts (items : List α) (state : ParseState) (soFar : readSoFar items state) :
      readSoFar items state.counted :=
    ⟨soFar.1.trans (.of_sameButTokens [] rfl rfl (by simp)), soFar.2⟩
  apply (Ensures.bodyItems readSoFar (fun assumed _ => ⟨.refl before, empty assumed⟩) counts item).imp
  rintro items after - - ⟨state, closing, ⟨whole, held⟩, takes, isBrace⟩
  have closes : Reads options mark state after := .of_takes takes (by rw [isBrace]; rfl)
  refine ⟨whole.trans closes, ?_⟩
  simpa only [takes.same.types_eq, takes.same.unit_eq] using held

/-- One more member.  Whatever was added to the arena stands in it, so a type that holds the struct or
union stands in a member as before. -/
theorem fillable_append {id : TypeId} {members : List Member} {member : Member}
    {after : ParseState} (fillable : before.types.Fillable options mark id members)
    (grows : Grows options mark before after)
    (expresses : Expresses options mark before.types member.type after)
    (isWord : Text.IsWord member.name) :
    after.types.Fillable options mark id (members ++ [member]) where
  unfilled := by rw [grows.records]; exact fillable.unfilled
  uncontained outer contains := by
    apply fillable.uncontained outer
    rwa [TypeArena.Contains, ← grows.records outer]
  held outer holds := by
    rcases Nat.lt_or_ge outer before.types.size with old | new
    · obtain ⟨known, isKnown, path⟩ :=
        fillable.held outer ((grows.types.holdsElement_iff old).mp holds)
      exact ⟨known, List.mem_append_left _ isKnown, grows.types.holdsElement_path path⟩
    · refine ⟨member, List.mem_append_right _ (List.mem_singleton_self member), ?_⟩
      exact expresses.encloses.added outer new holds.outer_lt_size
  own other listed := by
    rcases List.mem_append.mp listed with earlier | last
    · exact (fillable.own other earlier).extend grows.types
    · rw [List.mem_singleton.mp last]
      exact expresses.encloses.own
  usable other listed := by
    rcases List.mem_append.mp listed with earlier | last
    · exact (fillable.usable other earlier).extend grows.types
    · rw [List.mem_singleton.mp last]
      exact expresses.usable
  words other listed := by
    rcases List.mem_append.mp listed with earlier | last
    · exact fillable.words other earlier
    · rw [List.mem_singleton.mp last]
      exact isWord

theorem recordMembers {id : TypeId} (declaration : String) :
    Reading options mark (known ∧ before.types.Fillable options mark id []) before
      (recordMembers options declaration) fun members after =>
        after.types.Fillable options mark id members ∧
          ∀ member ∈ members, after.unit.Sees member.type := by
  apply bodyItems fun arena unit members =>
    arena.Fillable options mark id members ∧ ∀ member ∈ members, unit.Sees member.type
  · exact fun ⟨_, fillable⟩ => ⟨fillable, by simp⟩
  · intro members state
    apply (recordMember declaration).imp
    rintro member after ⟨-, fillable, sees⟩ - ⟨reads, ⟨expresses, isWord⟩, shorter⟩
    refine ⟨reads, ⟨fillable_append fillable reads.toGrows expresses isWord, ?_⟩, shorter⟩
    intro other listed
    rcases List.mem_append.mp listed with earlier | last
    · exact (sees other earlier).mono reads.table_subset
    · rw [List.mem_singleton.mp last]
      exact expresses.encloses.sees

end Reading

theorem bodyRound_ok {α : Type} {item : Parse α}
    {faultOf? : List α → α → Option (Position × SourceFault)} {items : List α}
    {result : List α ⊕ List α} {after : ParseState}
    (run : bodyRound item faultOf? items before = .ok result after) :
    result = .inr items ∨ result = .inl items ∨
      ∃ found, faultOf? items found = none ∧ result = .inl (items ++ [found]) := by
  obtain ⟨closed, entered, _, rest⟩ := bind_eq_ok.mp run
  cases closed with
  | true =>
      cases rest
      exact .inl rfl
  | false =>
      obtain ⟨_, checked, _, others⟩ := bind_eq_ok.mp rest
      obtain ⟨_, goesOn, _, last⟩ := bind_eq_ok.mp others
      obtain ⟨read, state, _, ends⟩ := bind_eq_ok.mp last
      cases read with
      | none =>
          obtain ⟨_, recovered, -, done⟩ := bind_eq_ok.mp ends
          cases done
          exact .inr (.inl rfl)
      | some found =>
          cases faulty : faultOf? items found with
          | some fault =>
              simp only [faulty] at ends
              cases ends
              exact .inr (.inl rfl)
          | none =>
              simp only [faulty] at ends
              cases ends
              exact .inr (.inr ⟨found, faulty, rfl⟩)

/-- What holds of no items and is kept by every item without a fault holds of all items of a body,
whatever was skipped between them. -/
theorem bodyItems_ok {α : Type} {item : Parse α}
    {faultOf? : List α → α → Option (Position × SourceFault)} {items : List α} {after : ParseState}
    (holds : List α → Prop) (empty : holds [])
    (adds : ∀ known found, holds known → faultOf? known found = none → holds (known ++ [found]))
    (run : bodyItems item faultOf? before = .ok items after) : holds items := by
  apply loop_ok (fun known _ => holds known) (fun known _ => holds known) empty
    (fun _ _ held => held) _ _ run
  · intro known state next later held step
    rcases bodyRound_ok step with impossible | same | ⟨found, faultless, grown⟩
    · cases impossible
    · cases same
      exact held
    · cases grown
      exact adds known found held faultless
  · intro known state value later held step
    rcases bodyRound_ok step with same | impossible | ⟨found, -, impossible⟩
    · cases same
      exact held
    · cases impossible
    · cases impossible

/-- A name that was not known yet keeps names distinct. -/
theorem nodup_map_append {α : Type} {name : α → String} {known : List α} {found : α}
    (distinct : (known.map name).Nodup)
    (new : ¬(known.any fun earlier => name earlier == name found) = true) :
    ((known ++ [found]).map name).Nodup := by
  rw [List.map_append, List.nodup_append]
  refine ⟨distinct, by simp, ?_⟩
  intro earlierName listed other isFound same
  obtain ⟨earlier, isEarlier, rfl⟩ := List.mem_map.mp listed
  obtain rfl := List.mem_singleton.mp isFound
  exact new (List.any_eq_true.mpr ⟨earlier, isEarlier, by simp [same]⟩)

theorem nodup_of_recordMembers {declaration : String} {members : List Member} {after : ParseState}
    (run : recordMembers options declaration before = .ok members after) :
    (members.map Member.name).Nodup := by
  apply bodyItems_ok (fun known => (known.map Member.name).Nodup) List.nodup_nil _ run
  intro known found distinct faultless
  apply nodup_map_append distinct
  intro repeated
  simp [repeated] at faultless

/-- Sequence behind a part that stays inside a declaration, with something that reading keeps. -/
theorem Ensures.readOn {α β : Type} {kept : ParseState → Prop} {first : Parse α}
    {second : α → Parse β} {middle : α → ParseState → Prop} {post : β → ParseState → Prop}
    (keeps : ∀ {state after : ParseState}, kept state → Reads options mark state after → kept after)
    (starts : Reading options mark (known ∧ kept before) before first middle)
    (goesOn : ∀ value state, first before = .ok value state → Advances mark before state →
      Ensures mark ((known ∧ middle value state) ∧ kept state) state (second value) post) :
    Ensures mark (known ∧ kept before) before (first >>= second) post := by
  apply bind starts
  intro value state run advanced
  apply (goesOn value state run advanced).under
  rintro ⟨⟨assumed, holds⟩, reads, ensured⟩
  exact ⟨⟨assumed, ensured⟩, keeps holds reads⟩

/-- The same behind a part whose result does not matter. -/
theorem Ensures.readPast {α β : Type} {kept : ParseState → Prop} {first : Parse α}
    {second : α → Parse β} {middle : α → ParseState → Prop} {post : β → ParseState → Prop}
    (keeps : ∀ {state after : ParseState}, kept state → Reads options mark state after → kept after)
    (starts : Reading options mark (known ∧ kept before) before first middle)
    (goesOn : ∀ value state, first before = .ok value state → Advances mark before state →
      Ensures mark (known ∧ kept state) state (second value) post) :
    Ensures mark (known ∧ kept before) before (first >>= second) post :=
  readOn keeps starts fun value state run advanced =>
    (goesOn value state run advanced).under _ fun ⟨⟨assumed, _⟩, holds⟩ => ⟨assumed, holds⟩

/-- A declared type is one that is visible by its name already, or a new one. -/
theorem Ensures.internNamed {key : TypeKey} {node : TypeNode} (denotes : known → key.Denotes node)
    (parts : known → before.Sound → ∀ part ∈ node.parts, part < before.types.size)
    (integral : known → ∀ declared, node = .enum declared → declared.base.isIntegral = true) :
    Ensures mark known before (intern key node) fun id after =>
      (before.unit.visibleType? key = some id ∧ after = before) ∨
      (before.unit.visibleType? key = none ∧ id = before.types.size ∧
        after = before.withType key node) := by
  intro since
  rcases intern_cases key node before with ⟨id, visible, run⟩ | ⟨hidden, run⟩
  · rw [run]
    exact ⟨.refl before, fun _ _ sound => ⟨sound, .inl ⟨visible, rfl⟩⟩⟩
  · rw [run]
    refine ⟨.withType since.inside key node, fun _ assumed sound => ⟨?_, .inr ⟨hidden, rfl, rfl⟩⟩⟩
    exact sound.withType (denotes assumed) (parts assumed sound) (integral assumed)

theorem Ensures.declare {name : String} {node : TypeNode}
    (fresh : known → before.unit.visibleType? (.named before.unit.namespaceId name) = none)
    (denotes : known → (TypeKey.named before.unit.namespaceId name).Denotes node)
    (parts : known → ∀ part ∈ node.parts, part < before.types.size)
    (integral : known → ∀ declared, node = .enum declared → declared.base.isIntegral = true) :
    Ensures mark known before (declare name node) fun id after =>
      id = before.types.size ∧ after = before.withDefinition name node := by
  apply bindOk (get_run before)
  apply bind (internNamed denotes (fun assumed _ => parts assumed) integral)
  intro id named _ _
  apply bind (modify (fun _ => .of_unit named (by rfl) (by rfl) (by rfl)) fun _ sound =>
    .of_unit sound (by exact sound.table) (by rfl) (by rfl))
  intro _ after _ _
  apply pure
  rintro ⟨⟨assumed, ⟨visible, -⟩ | ⟨-, rfl, rfl⟩⟩, rfl⟩ -
  · rw [fresh assumed] at visible
    cases visible
  · exact ⟨rfl, rfl⟩

theorem Ensures.checkNewName (name : String) (place : Position) :
    Ensures mark known before (checkNewName name place) fun fresh after =>
      after = before ∧ fresh = true ∧
        before.unit.visibleType? (.named before.unit.namespaceId name) = none := by
  apply bindOk (get_run before)
  apply ite
  · exact fun _ => bindReport fun _ => never
  · intro hidden
    exact pure fun _ _ => ⟨rfl, rfl, by simpa using hidden⟩

theorem Ensures.checkTypeAttributes (declaration : String) (found : Attributes) (place : Position) :
    Ensures mark known before (checkTypeAttributes declaration found place)
      fun _ after => after = before :=
  reportWhen.imp fun _ _ _ _ unchanged => unchanged.1

/-- What a clean declaration has built: under a word and a name that the tokens spell, one type is
visible by that name in the namespace of the unit. -/
structure Declares (options : Options) (mark : Nat) (keyword : TokenKind) (name : String) (before : ParseState)
    (id : TypeId) (after : ParseState) : Prop where
  tokens : after.tokens <:+ before.tokens
  spelled : spelledDeclarations before.tokens = (keyword, name) :: spelledDeclarations after.tokens
  shorter : after.tokens.length < before.tokens.length
  program : after.program = { before.program with types := after.types }
  sequenceables : after.sequenceables = before.sequenceables
  types : before.types.Extends after.types
  refers : before.Refers after
  builds : before.types.Builds options mark after.types
  table : ∃ added, after.unit.table = before.unit.table ++ added ∧
    ∀ entry ∈ added, entry.1.isNamed = true → entry = (.named before.unit.namespaceId name, id)
  visible : after.unit.visibleType? (.named before.unit.namespaceId name) = some id
  inside : id < after.types.size

/-- A type of the unit's own is declared. -/
structure DeclaresType (options : Options) (mark : Nat) (keyword : TokenKind) (name : String)
    (before : ParseState) (id : TypeId) (after : ParseState) : Prop extends
    Declares options mark keyword name before id after where
  notInterface : keyword ≠ .interface
  behind : before.types.size ≤ id
  unit : after.unit = { before.unit with
    table := after.unit.table, definitions := before.unit.definitions ++ [id] }
  node : (after.types.node id).declaration? = some (keyword, name)
  records : ∀ other, other ≠ id → after.types.record? other = before.types.record? other
  interfaces : ∀ other, after.types.unmarked? other = before.types.unmarked? other
  only : before.types.AddsDeclared after.types (· = id)

/-- An enum is what tokens spell: behind its word and its name, a run without an error reads its base
and, in braces, its members. -/
structure EnumWritten (options : Options) (tokens : List Token) (declared : EnumType)
    (named based opened read : ParseState) : Prop where
  head : ∃ early word,
    tokens = early ++ word :: ⟨.identifier, declared.name, declared.place⟩ :: named.tokens ∧
      word.kind = .enum
  sound : named.Sound
  base : enumBase options named = .ok declared.base based
  brace : ∃ token, Takes based token opened ∧ token.kind = .braceOpen
  soundInside : opened.Sound
  members : enumMembers declared.base opened = .ok declared.members read
  clean : read.errors = 0
  closed : ∃ token after, Takes read token after ∧ token.kind = .braceClose
  notEmpty : declared.members ≠ []

/-- An enum that tokens spell. -/
def EnumFromText (options : Options) (tokens : List Token) (declared : EnumType) : Prop :=
  ∃ named based opened read, EnumWritten options tokens declared named based opened read

theorem EnumFromText.mono {tokens more : List Token} {declared : EnumType}
    (fromText : EnumFromText options tokens declared) (suffix : tokens <:+ more) :
    EnumFromText options more declared := by
  obtain ⟨named, based, opened, read, written⟩ := fromText
  obtain ⟨early, word, split, isWord⟩ := written.head
  obtain ⟨first, rfl⟩ := suffix
  refine ⟨named, based, opened, read, { written with head := ?_ }⟩
  exact ⟨first ++ early, word, by rw [split, List.append_assoc], isWord⟩

/-- A type of the unit's own is declared with all of its members. -/
structure DeclaresWhole (options : Options) (mark : Nat) (keyword : TokenKind) (name : String)
    (before : ParseState) (id : TypeId) (after : ParseState) : Prop extends
    DeclaresType options mark keyword name before id after where
  proper : ∀ record, after.types.record? id = some record → record.Proper
  enums : ∀ declared, after.types.node id = .enum declared →
    EnumFromText options before.tokens declared

/-- A state inside a declaration, behind its word and its name. -/
structure Underway (options : Options) (mark : Nat) (keyword : TokenKind) (name : String)
    (before state : ParseState) : Prop extends Grows options mark before state where
  tokens : state.tokens <:+ before.tokens
  spelled : spelledDeclarations before.tokens = (keyword, name) :: spelledDeclarations state.tokens
  shorter : state.tokens.length < before.tokens.length

section Declares

variable {keyword : TokenKind} {name : String} {id : TypeId} {origin state after : ParseState}

/-- The word and the name that start a declaration. -/
theorem Underway.of_takes {word name : Token} {worded named : ParseState}
    (takesWord : Takes before word worded) (takesName : Takes worded name named)
    (declares : word.kind ∈ [TokenKind.enum, .struct, .union, .interface])
    (isName : name.kind = .identifier) : Underway options mark word.kind name.text before named where
  toGrows := .of_sameButTokens (takesWord.same.trans takesName.same)
  tokens := ⟨[word, name], by rw [takesWord.tokens, takesName.tokens]; rfl⟩
  spelled := by
    have plain : spelledDeclarations ([name] ++ named.tokens) = spelledDeclarations named.tokens :=
      spelledDeclarations_append (by simp [isName, TokenKind.startsDeclaration])
    rw [takesWord.tokens, takesName.tokens, spelledDeclarations, if_pos declares]
    simpa using plain
  shorter := Nat.lt_trans takesName.length_lt takesWord.length_lt

theorem Underway.read (underway : Underway options mark keyword name before state)
    (reads : Reads options mark state after) : Underway options mark keyword name before after where
  toGrows := underway.toGrows.trans reads.toGrows
  tokens := reads.suffix.trans underway.tokens
  spelled := by rw [underway.spelled, reads.spelledDeclarations_eq]
  shorter := Nat.lt_of_le_of_lt reads.length_le underway.shorter

/-- A declared type is a new one. -/
theorem Declares.of_withType {node : TypeNode}
    (underway : Underway options mark keyword name before state)
    (hidden : state.unit.visibleType? (.named state.unit.namespaceId name) = none)
    (addable : state.types.Addable options mark node)
    (sees : ∀ part ∈ node.parts, state.unit.Sees part) :
    Declares options mark keyword name before state.types.size
      (state.withType (.named state.unit.namespaceId name) node) where
  tokens := underway.tokens
  spelled := underway.spelled
  shorter := underway.shorter
  program := by rw [ParseState.withType, underway.program]
  sequenceables := underway.sequenceables
  types := underway.types.trans (.alloc _ node)
  refers := by
    have grown : state.unit.table ⊆
        (state.withType (.named state.unit.namespaceId name) node).unit.table :=
      List.subset_append_left _ _
    exact underway.refers.trans (.alloc rfl fun part listed => (sees part listed).mono grown) grown
  builds := underway.builds.tail (.add addable)
  table := by
    obtain ⟨added, table, keys⟩ := underway.table
    refine ⟨added ++ [(.named state.unit.namespaceId name, state.types.size)], ?_, ?_⟩
    · simp [ParseState.withType, table]
    · intro entry listed isNamed
      rcases List.mem_append.mp listed with earlier | last
      · rw [keys entry earlier] at isNamed
        cases isNamed
      · rw [List.mem_singleton.mp last, underway.namespaceId_eq]
  visible := by
    rw [← underway.namespaceId_eq, CompiledUnit.visibleType?, ParseState.withType,
      List.lookup_append]
    rw [CompiledUnit.visibleType?] at hidden
    simp [hidden]
  inside := by simp

/-- A type that is visible already stands in for a declared one. -/
theorem Declares.of_visible (underway : Underway options mark keyword name before state)
    (visible : state.unit.visibleType? (.named state.unit.namespaceId name) = some id)
    (inside : id < state.types.size) : Declares options mark keyword name before id state where
  tokens := underway.tokens
  spelled := underway.spelled
  shorter := underway.shorter
  program := underway.program
  sequenceables := underway.sequenceables
  types := underway.types
  refers := underway.refers
  builds := underway.builds
  table := by
    obtain ⟨added, table, keys⟩ := underway.table
    refine ⟨added, table, fun entry listed isNamed => ?_⟩
    rw [keys entry listed] at isNamed
    cases isNamed
  visible := by rw [← underway.namespaceId_eq, visible]
  inside := inside

/-- A body behind the type that it belongs to. -/
theorem Declares.read (declares : Declares options mark keyword name before id state)
    (reads : Reads options mark state after) : Declares options mark keyword name before id after where
  tokens := reads.suffix.trans declares.tokens
  spelled := by rw [declares.spelled, reads.spelledDeclarations_eq]
  shorter := Nat.lt_of_le_of_lt reads.length_le declares.shorter
  program := by rw [reads.program, declares.program]
  sequenceables := reads.sequenceables.trans declares.sequenceables
  types := declares.types.trans reads.types
  refers := declares.refers.trans reads.refers reads.table_subset
  builds := declares.builds.trans reads.builds
  table := by
    obtain ⟨early, earlyTable, earlyKeys⟩ := declares.table
    obtain ⟨late, lateTable, lateKeys⟩ := reads.table
    refine ⟨early ++ late, by rw [lateTable, earlyTable, List.append_assoc], ?_⟩
    intro entry listed isNamed
    rcases List.mem_append.mp listed with earlier | later
    · exact earlyKeys entry earlier isNamed
    · rw [lateKeys entry later] at isNamed
      cases isNamed
  visible := by rw [reads.visibleType?_named, declares.visible]
  inside := Nat.lt_of_lt_of_le declares.inside reads.types.size_le

/-- What a unit declares is no matter of its table. -/
theorem Declares.of_unit {unit : CompiledUnit}
    (declares : Declares options mark keyword name before id state)
    (table : unit.table = state.unit.table) :
    Declares options mark keyword name before id { state with unit := unit } :=
  { declares with
    refers := declares.refers.trans (.of_types rfl) (by simp [table])
    table := by simpa only [table] using declares.table
    visible := by simpa only [CompiledUnit.visibleType?, table] using declares.visible }

theorem DeclaresType.of_withDefinition {node : TypeNode}
    (underway : Underway options mark keyword name before state)
    (hidden : state.unit.visibleType? (.named state.unit.namespaceId name) = none)
    (addable : state.types.Addable options mark node) (leaf : node.parts = [])
    (notInterface : keyword ≠ .interface) (declared : node.declaration? = some (keyword, name)) :
    DeclaresType options mark keyword name before state.types.size (state.withDefinition name node) where
  toDeclares := (Declares.of_withType underway hidden addable (by simp [leaf])).of_unit (by rfl)
  notInterface := notInterface
  behind := underway.types.size_le
  unit := by
    simp only [ParseState.withDefinition, ParseState.withType]
    rw [underway.unit]
  node := by rw [node_withDefinition, declared]
  records other different :=
    (TypeArena.record?_alloc_of_ne different).trans (underway.records other)
  interfaces other := by
    have isNoInterface : node.unmarked? = none := by
      cases node <;> simp_all [TypeNode.declaration?, TypeNode.unmarked?]
    exact (TypeArena.unmarked?_alloc isNoInterface).trans (underway.interfaces other)
  only := underway.undeclared.trans (.alloc _ node) (fun _ => False.elim) fun _ => And.left

theorem DeclaresType.read (declares : DeclaresType options mark keyword name before id state)
    (reads : Reads options mark state after) :
    DeclaresType options mark keyword name before id after where
  toDeclares := declares.toDeclares.read reads
  notInterface := declares.notInterface
  behind := declares.behind
  unit := by rw [reads.unit, declares.unit]
  node := by
    rw [TypeNode.declaration?_congr (reads.types.outline_eq id declares.inside), declares.node]
  records other different := (reads.records other).trans (declares.records other different)
  interfaces other := (reads.interfaces other).trans (declares.interfaces other)
  only := declares.only.trans reads.undeclared (fun _ same => same) fun _ => False.elim

/-- The members of a declared type are filled in. -/
theorem DeclaresType.setMembers {members : List Member}
    (declares : DeclaresType options mark keyword name before id state)
    (fillable : state.types.Fillable options mark id members)
    (sees : ∀ member ∈ members, state.unit.Sees member.type) :
    DeclaresType options mark keyword name before id
      { state with program :=
        { state.program with types := state.types.update id (Parse.setMembers members) } } where
  tokens := declares.tokens
  spelled := declares.spelled
  shorter := declares.shorter
  program := by rw [declares.program]
  sequenceables := declares.sequenceables
  types := declares.types.trans (.update _ id (setMembers_outline members))
  refers := by
    refine declares.refers.trans (.update rfl fun part listed => ?_) (List.Subset.refl _)
    rcases mem_parts_setMembers listed with ⟨member, isMember, rfl⟩ | had
    · exact .inr (sees member isMember)
    · exact .inl had
  builds := declares.builds.tail (.fill fillable)
  table := declares.table
  visible := declares.visible
  inside := by
    rw [TypeArena.size_update]
    exact declares.inside
  notInterface := declares.notInterface
  behind := declares.behind
  unit := declares.unit
  node := by
    rw [TypeArena.node_update_self declares.inside,
      TypeNode.declaration?_congr (setMembers_outline members _), declares.node]
  records other different :=
    (TypeArena.record?_update_of_ne different _).trans (declares.records other different)
  interfaces other :=
    (TypeArena.unmarked?_update id (setMembers_outline members)).trans (declares.interfaces other)
  only := declares.only.trans (.update _ id (setMembers_outline members))
    (fun _ same => same) fun _ => False.elim

/-- Filling members in keeps the state sound. -/
theorem sound_setMembers {members : List Member} (sound : state.Sound)
    (fillable : state.types.Fillable options mark id members) :
    Sound { state with program :=
      { state.program with types := state.types.update id (setMembers members) } } where
  spelled := sound.spelled
  types := (TypeArena.Change.fill fillable).sound sound.types
  table := sound.table.extend (.update _ id (setMembers_outline members))
  units unit listed := (sound.units unit listed).extend (.update _ id (setMembers_outline members))
  namespaces := sound.namespaces
  package_inside := sound.package_inside
  package_name := sound.package_name

/-- The body of a struct or union, whose type is one of the file. -/
theorem Ensures.recordBody {declaration : String} {token : Token} (own : mark ≤ id)
    (notEnum : keyword ≠ .enum) :
    Ensures mark (before.types.Fillable options mark id [] ∧
        DeclaresType options mark keyword name origin id before) before
      (recordBody options declaration token (some id))
      fun _ after => DeclaresWhole options mark keyword name origin id after := by
  apply readPast DeclaresType.read (Reading.expect rfl)
  intro _ opened openRun _
  rw [← (expect_ok (by decide) openRun).1.same.types_eq]
  apply readOn DeclaresType.read
    ((Reading.recordMembers declaration).under (True ∧ _) fun ⟨fillable, _⟩ => ⟨trivial, fillable⟩)
  intro members read run _
  apply readPast DeclaresType.read (Reading.eat rfl)
  intro _ ended eatRun _
  have unchanged : SameButTokens read ended := by
    rcases eat_ok (by decide) eatRun with ⟨-, token, takes, -⟩ | ⟨-, rfl, -⟩
    · exact takes.same
    · rfl
  apply reportIf
  intro state _
  apply (modify _ _).imp
  · rintro _ after ⟨⟨⟨-, fillable, sees⟩, declares⟩, rfl, notEmpty⟩ - rfl
    rw [← unchanged.types_eq] at fillable
    rw [← unchanged.unit_eq] at sees
    have filled := declares.setMembers fillable sees
    refine ⟨filled, fun record found => ?_, fun declared isEnum => ?_⟩
    · rw [TypeArena.record?_eq, TypeArena.node_update_self declares.inside] at found
      rw [RecordType.Proper, members_of_setMembers found]
      exact ⟨by simpa using notEmpty, nodup_of_recordMembers run⟩
    · have isDeclared := filled.node
      rw [isEnum] at isDeclared
      cases isDeclared
      exact absurd rfl notEnum
  · intro _
    apply Advances.of_types
    · rw [TypeArena.size_update]
      exact fun inside => inside
    · exact fun _ listed _ => .inl listed
    · intro other below
      exact TypeArena.node_update_of_ne (Nat.ne_of_lt (Nat.lt_of_lt_of_le below own)) _
    · rfl
    · rfl
  · rintro ⟨⟨⟨-, fillable, -⟩, declares⟩, rfl, -⟩ sound
    rw [← unchanged.types_eq] at fillable
    exact sound_setMembers sound fillable

/-- A body whose declaration was refused. -/
theorem Ensures.recordBodyNone {declaration : String} {token : Token} :
    Ensures mark False before (Parse.recordBody options declaration token none)
      fun _ _ => False := by
  apply bind (expect (by decide))
  intro _ opened _ _
  apply bind ((@Reading.recordMembers mark True opened options 0 declaration).under _
    fun ⟨impossible, _⟩ => impossible.elim)
  intro members read _ _
  apply bind (eat (by decide))
  intro _ ended _ _
  apply reportIf
  intro state _
  exact pure fun ⟨⟨⟨⟨impossible, _⟩, _⟩, _⟩, _⟩ _ => impossible

theorem Ensures.enumDeclaration (found : Attributes) (place : Position) :
    Ensures mark known before (enumDeclaration options found place) fun _ after =>
      ∃ keyword name id, DeclaresWhole options mark keyword name before id after := by
  apply bind (expect (by decide))
  intro word worded _ _
  apply bind (checkTypeAttributes _ _ _)
  intro _ checked _ _
  apply bind expectWord
  intro name named _ _
  apply bind (checkNewName name.text name.place)
  intro fresh fresher _ _
  apply under ((((fresh = true ∧ Text.IsWord name.text) ∧
    before.unit.visibleType? (.named before.unit.namespaceId name.text) = none) ∧
      ∃ early word, before.tokens =
        early ++ word :: ⟨.identifier, name.text, name.place⟩ :: fresher.tokens ∧
          word.kind = .enum) ∧
      Underway options mark .enum name.text before fresher)
  · apply readOn Underway.read Reading.enumBase.lookBack
    intro base based baseRun _
    apply readPast Underway.read (Reading.expect rfl)
    intro _ opened openRun _
    apply readOn Underway.read (Reading.enumMembers base).lookBack
    intro members read membersRun _
    apply readPast Underway.read (Reading.expect rfl)
    intro _ closed closeRun _
    apply readPast Underway.read (Reading.eat rfl)
    intro _ ended _ _
    apply reportIf
    intro state _
    apply ite
    · intro _
      apply bindOk (get_run state)
      apply bind
      · apply declare
        · rintro ⟨⟨⟨⟨⟨⟨-, hidden⟩, -⟩, -⟩, -⟩, underway⟩, rfl, -⟩
          rw [underway.visibleType?_named, underway.namespaceId_eq]
          exact hidden
        · intro _
          exact ⟨rfl, rfl⟩
        · simp [TypeNode.parts]
        · rintro ⟨⟨⟨⟨-, -, integral⟩, -⟩, -⟩, -⟩ declared ⟨⟩
          exact integral
      · intro id after _ _
        apply pure
        rintro ⟨⟨⟨⟨⟨⟨⟨⟨-, isWord⟩, hidden⟩, head⟩, ⟨sound, -⟩, integral⟩, ⟨soundInside, clean⟩, -⟩,
          underway⟩, rfl, notEmpty⟩, rfl, rfl⟩ -
        refine ⟨.enum, name.text, _, .of_withDefinition underway ?_ ?_ rfl (by decide) rfl, ?_, ?_⟩
        · rw [underway.visibleType?_named, underway.namespaceId_eq]
          exact hidden
        · exact
            { made := by simp
              own := by simp [TypeNode.parts]
              integral := by rintro declared ⟨⟩; exact integral
              usable := by simp [TypeNode.checkedParts, TypeNode.parts]
              elements := by simp [TypeNode.elements]
              plain := by simp
              unfilled := by simp [TypeNode.record?]
              words := by simpa [TypeNode.names] using isWord }
        · intro record isRecord
          rw [record?_withDefinition] at isRecord
          cases isRecord
        · intro declared isEnum
          rw [node_withDefinition] at isEnum
          cases isEnum
          exact ⟨fresher, based, opened, read,
            { head := head
              sound := sound
              base := baseRun
              brace := ⟨_, expect_ok (by decide) openRun⟩
              soundInside := soundInside
              members := membersRun
              clean := clean
              closed := ⟨_, _, expect_ok (by decide) closeRun⟩
              notEmpty := by simpa using notEmpty }⟩
    · intro notFresh
      apply pure
      rintro ⟨⟨⟨⟨⟨⟨⟨isFresh, -⟩, -⟩, -⟩, -⟩, -⟩, -⟩, -⟩ -
      exact absurd isFresh notFresh
  · rintro ⟨⟨⟨⟨-, takesWord, isKeyword⟩, rfl⟩, takesName, isName, isWord⟩, rfl, isFresh, hidden⟩
    have underway : Underway options mark word.kind name.text before fresher :=
      .of_takes takesWord takesName (by simp [isKeyword]) isName
    rw [underway.visibleType?_named, underway.namespaceId_eq] at hidden
    refine ⟨⟨⟨⟨isFresh, isWord⟩, hidden⟩, [], word, ?_, isKeyword⟩, isKeyword ▸ underway⟩
    rw [takesWord.tokens, takesName.tokens, ← isName]
    rfl

/-- A name found new is new. -/
theorem visibleType?_of_checkNewName {name : String} {place : Position}
    (run : checkNewName name place state = .ok true after) :
    after.unit.visibleType? (.named after.unit.namespaceId name) = none := by
  simp only [checkNewName, Bind.bind, EStateM.bind, get_run] at run
  split at run
  · cases run
  · rename_i hidden
    cases run
    simpa using hidden

/-- The type declared under a new name is a new one, also in a run with errors. -/
theorem eq_size_of_declare {node : TypeNode} {result : Option TypeId}
    (hidden : state.unit.visibleType? (.named state.unit.namespaceId name) = none)
    (run : (some <$> declare name node : Parse (Option TypeId)) state = .ok result after) :
    result = some state.types.size := by
  rcases intern_cases (.named state.unit.namespaceId name) node state with ⟨id, visible, -⟩
    | ⟨-, new⟩
  · rw [hidden] at visible
    cases visible
  · simp only [declare, Functor.map, EStateM.map, Bind.bind, EStateM.bind, get_run, new] at run
    cases run
    rfl

theorem record?_ite {record : RecordType} (isUnion : Bool) :
    (if isUnion then TypeNode.union record else .struct record).record? = some record := by
  cases isUnion <;> rfl

/-- A struct or union that has just been declared. -/
theorem addable_record {arena : TypeArena} {record : RecordType} (isUnion : Bool)
    (isWord : Text.IsWord record.name) (empty : record.members = []) :
    arena.Addable options mark (if isUnion then .union record else .struct record) := by
  cases isUnion <;> exact
    { made := by simp
      own := by simp [TypeNode.parts, empty]
      integral := by simp
      usable := by simp [TypeNode.checkedParts, TypeNode.parts, empty]
      elements := by simp [TypeNode.elements]
      plain := by simp
      unfilled := by simp [TypeNode.record?, empty]
      words := by simpa [TypeNode.names, empty] using isWord }

theorem Ensures.recordDeclaration (found : Attributes) (place : Position) (isUnion : Bool) :
    Ensures mark known before (recordDeclaration options found place isUnion) fun _ after =>
      ∃ keyword name id, DeclaresWhole options mark keyword name before id after := by
  apply bind (expect (by cases isUnion <;> decide))
  intro word worded _ _
  apply bind (checkTypeAttributes _ _ _)
  intro _ checked _ _
  apply bind expectWord
  intro name named _ _
  apply reportIf
  intro accepted _
  apply bind (checkNewName name.text name.place)
  intro fresh fresher run _
  apply under ((fresh = true ∧ Text.IsWord name.text) ∧
    Underway options mark (if isUnion then .union else .struct) name.text before fresher)
  · apply bindOk (get_run fresher)
    apply ite
    · rintro rfl
      have hidden := visibleType?_of_checkNewName run
      apply assumeSince
      intro since
      apply bind (map some (declare _ _ _ _).fromSound)
      · intro id declared declareRun _
        obtain rfl := eq_size_of_declare hidden declareRun
        have body : Ensures mark (declared.types.Fillable options mark fresher.types.size [] ∧
              DeclaresType options mark (if isUnion then .union else .struct)
              name.text before fresher.types.size declared) declared
            (Parse.recordBody options (if isUnion then "union" else "struct") name
              (some fresher.types.size)) _ :=
          recordBody since.inside (by cases isUnion <;> decide)
        apply (body.imp fun _ after _ _ declares => ⟨_, _, _, declares⟩).under
        rintro ⟨⟨⟨-, isWord⟩, underway⟩, id, ⟨⟩, sound, -, rfl⟩
        refine ⟨sound.types.fillable_alloc (record?_ite isUnion) rfl,
          .of_withDefinition underway hidden ?_ ?_ ?_ ?_⟩
        · exact addable_record isUnion isWord rfl
        · cases isUnion <;> rfl
        · cases isUnion <;> decide
        · cases isUnion <;> rfl
      · intro _
        exact hidden
      · intro _
        cases isUnion <;> exact ⟨rfl, rfl⟩
      · cases isUnion <;> simp [TypeNode.parts]
      · cases isUnion <;> simp
    · intro notFresh
      apply bindOk rfl
      apply (recordBodyNone.under _ fun assumed => absurd assumed.1.1 notFresh).imp
      exact fun _ _ _ _ impossible => impossible.elim
  · rintro ⟨⟨⟨⟨⟨-, takesWord, isKeyword⟩, rfl⟩, takesName, isName, isWord⟩, rfl, -⟩, rfl, isFresh, -⟩
    have declares : word.kind ∈ [TokenKind.enum, .struct, .union, .interface] := by
      cases isUnion <;> simp [isKeyword]
    exact ⟨⟨isFresh, isWord⟩, isKeyword ▸ .of_takes takesWord takesName declares isName⟩

end Declares

end Parse

end DriverIdl
