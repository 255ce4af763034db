import DriverIdl.Proofs.Parsing.HeaderReading
import DriverIdl.Proofs.Parsing.Rounds

/-!
# Progress

Every loop of the parser ends by itself: a round takes a token or is the last one.  An error changes
nothing about that, because what goes on behind a broken part skips the token that the part stopped
at, or the part has taken one before.  A token is taken once, so all loops together go for a number
of rounds that is linear in the tokens of a file.
-/

namespace DriverIdl.Parse

open ParseState

variable {α : Type} {rate extra : Nat} {options : Options}

section Names

theorem spends_nameRound (name : String) : Spends rate 0 (nameRound name) := by
  apply Spends.bindFree (.eat _)
  intro taken
  exact .ite (.bind (.expect _ _) fun _ => .pure _) (.pure _)

theorem progresses_nameRound : Progresses nameRound :=
  fun _ => .bindEat 0 0 (by decide) (.bind (.expect _ _) fun _ => .pure _) (.pure (by simp))

theorem spends_dottedTail (first : String) : Spends 1 1 (dottedTail first) :=
  .loop 0 0 spends_nameRound progresses_nameRound

theorem spends_dottedName (expected : String) : Spends 1 0 (dottedName expected) := by
  apply Spends.bindExpect (by decide)
  intro first
  exact .bind (spends_dottedTail _) fun _ => .pure _

theorem starts_announcement {keyword : TokenKind} {word expected : String} :
    StartsWith keyword 1 0 (announcement keyword word expected) :=
  ⟨_, _, rfl, fun _ => .bind (spends_dottedName _) fun _ => .bind (.expect _ _) fun _ => .pure _⟩

end Names

section Skipping

theorem spends_skipStatementRound (current : Unit) : Spends rate 0 (skipStatementRound current) := by
  apply Spends.bindFree .get
  intro state
  split
  · exact .pure _
  · exact .ite (.pure _) (.bind .next fun _ => .ite (.pure _) (.pure _))

theorem progresses_skipStatementRound : Progresses skipStatementRound := by
  rintro ⟨⟩ before result after run more
  rw [skipStatementRound_run] at run
  split at run
  · cases run
    cases more
  · rename_i token rest tokens
    split at run
    · cases run
      cases more
    · split at run <;> cases run <;> simp [tokens]

theorem spends_recoverStatement : Spends 1 1 recoverStatement :=
  .loop 0 0 spends_skipStatementRound progresses_skipStatementRound

theorem spends_skipDeclarationRound (depth : Nat) :
    Spends rate 0 (skipDeclarationRound depth) := by
  apply Spends.bindFree .get
  intro state
  split
  · exact .pure _
  · apply Spends.ite (.pure _)
    apply Spends.bind .next
    intro _
    exact .ite (.pure _)
      (.ite (.ite (.bind (.eat _) fun _ => .pure _) (.pure _)) (.pure _))

theorem progresses_skipDeclarationRound : Progresses skipDeclarationRound := by
  intro depth before result after run more
  rw [skipDeclarationRound_run] at run
  split at run
  · cases run
    cases more
  · rename_i token rest tokens
    split at run
    · cases run
      cases more
    · split at run
      · cases run
        simp [tokens]
      · split at run
        · split at run
          · cases run
            cases more
          · cases run
            simp [tokens]
        · cases run
          simp [tokens]

theorem spends_recoverDeclaration : Spends 1 1 recoverDeclaration :=
  .loop 0 0 spends_skipDeclarationRound progresses_skipDeclarationRound

/-- A part that leaves has taken a token, or what is skipped behind it takes the one it stopped at. -/
theorem length_skipped_lt {token : Token} {rest middle last : List Token}
    (taken : middle <:+ token :: rest) (skips : last <:+ middle)
    (skipped : middle = token :: rest → last <:+ rest) : last.length < (token :: rest).length := by
  have inRest : last <:+ rest := by
    rcases List.suffix_cons_iff.mp taken with whole | inside
    · exact skipped whole
    · exact skips.trans inside
  exact Nat.lt_succ_of_le inRest.length_le

theorem afterStatement_suffix_rest {token : Token} {rest : List Token}
    (notBrace : token.kind ≠ .braceClose) (notWord : token.kind.startsDeclaration = false) :
    afterStatement (token :: rest) <:+ rest := by
  rw [afterStatement, if_neg (by simp [notBrace, notWord])]
  split
  · exact List.suffix_refl _
  · exact afterStatement_suffix rest

theorem afterDeclaration_suffix_rest {token : Token} {rest : List Token}
    (notWord : token.kind.startsDeclaration = false) (notBracket : token.kind ≠ .bracketOpen) :
    afterDeclaration 0 (token :: rest) <:+ rest := by
  rw [afterDeclaration.eq_def]
  simp only
  rw [if_neg (by simp [notWord, notBracket])]
  split
  · exact afterDeclaration_suffix 1 rest
  · split
    · split
      · cases rest with
        | nil => exact List.suffix_refl _
        | cons closing others =>
            simp only
            split
            · exact List.suffix_cons closing others
            · exact List.suffix_refl _
      · exact afterDeclaration_suffix _ rest
    · exact afterDeclaration_suffix 0 rest

end Skipping

section Types

theorem spends_checkElement (type : TypeId) (place : Position) :
    Spends rate 0 (checkElement type place) := by
  apply Spends.bindFree .types
  intro arena
  split
  · exact .fail _ _
  · exact .pure _

theorem spends_checkSupport (type : TypeId) (place : Position) :
    Spends rate 0 (checkSupport options type place) := by
  apply Spends.bindFree .types
  intro arena
  split
  · exact .fail _ _
  · exact .pure _

theorem spends_arrayRound (place : Position) (type : TypeId) :
    Spends rate 0 (arrayRound place type) := by
  apply Spends.bindFree (.eat _)
  intro taken
  apply Spends.ite _ (.pure _)
  exact .bind (.expect _ _) fun _ => .bind (spends_checkElement _ _) fun _ =>
    .bind (.intern _ _) fun _ => .pure _

theorem progresses_arrayRound (place : Position) : Progresses (arrayRound place) := by
  intro type
  apply TakesFor.bindEat 0 0 (by decide) _ (.pure (by simp))
  exact .bind (.expect _ _) fun _ => .bind (spends_checkElement _ _) fun _ =>
    .bind (.intern _ _) fun _ => .pure _

theorem spends_arraySuffix (base : TypeId) (place : Position) :
    Spends 1 1 (arraySuffix base place) :=
  .loop 0 0 (spends_arrayRound place) (progresses_arrayRound place)

theorem spends_elementType {typeExpression : Parse TypeId} (inner : Spends rate 0 typeExpression) :
    Spends rate 0 (elementType typeExpression) :=
  .bind .peek fun _ => .bind inner fun _ => .bind (spends_checkElement _ _) fun _ => .pure _

theorem spends_unsignedType : Spends rate 0 unsignedType := by
  apply Spends.bind .next
  intro token
  split
  all_goals first
    | exact .pure _
    | exact .unexpected _ _

theorem spends_namedType (first : Token) : Spends 1 1 (namedType first) := by
  apply Spends.bind (spends_dottedTail _)
  intro name
  apply Spends.bind .get
  intro state
  split
  · exact .pure _
  · exact .fail _ _

theorem spends_baseType {typeExpression : Parse TypeId} (inner : Spends 2 0 typeExpression)
    (token : Token) : Spends 2 1 (baseType typeExpression token) := by
  have free {production : Parse TypeId} (spends : Spends 2 0 production) : Spends 2 1 production :=
    spends.mono (by decide) (by decide)
  have element := spends_elementType inner
  unfold baseType
  split
  case h_11 => exact free spends_unsignedType
  case h_12 =>
    exact free (.bind (.expect _ _) fun _ => .bind element fun _ => .bind (.expect _ _) fun _ =>
      .intern _ _)
  case h_13 =>
    exact free (.bind (.expect _ _) fun _ => .bind element fun _ => .bind (.expect _ _) fun _ =>
      .bind element fun _ => .bind (.expect _ _) fun _ => .intern _ _)
  case h_14 =>
    apply free
    apply Spends.bind (.expect _ _)
    intro _
    apply Spends.bind element
    intro type
    apply Spends.bind (.expect _ _)
    intro _
    apply Spends.bind .types
    intro arena
    exact .ite (.bind (.fail _ _) fun _ => .intern _ _) (.intern _ _)
  case h_15 => exact (spends_namedType token).mono (by decide) (by decide)
  case h_16 => exact free (.unexpected _ _)
  all_goals exact free (.pure _)

/-- The first token of a type pays for the rounds over its name and its brackets. -/
theorem spends_typeWithin (depth : Nat) : Spends 2 0 (typeWithin options depth) := by
  induction depth with
  | zero => exact .leave
  | succ depth ih =>
      apply Spends.bindNext
      · intro token
        have suffix (base : TypeId) : Spends 2 1 (do
            let type ← arraySuffix base token.place
            checkSupport options type token.place
            return type) :=
          .bind ((spends_arraySuffix _ _).mono (by decide) (by decide)) fun _ =>
            .bind (spends_checkSupport _ _) fun _ => .pure _
        show Spends 2 (1 + 1) _
        exact .bindBoth (spends_baseType ih token) suffix
      · intro token atEnd before
        have refused : baseType (typeWithin options depth) token = unexpected token "a type" := by
          simp only [baseType, atEnd]
        rw [refused]
        exact Spends.fail token.place (unexpectedFault token "a type") before

theorem spends_typeExpression : Spends 2 0 (typeExpression options) :=
  .bindFree .get fun _ => spends_typeWithin _

end Types

section Declarations

theorem spends_oneAttribute (known : Attributes) : Spends rate 0 (oneAttribute known) := by
  apply Spends.bind .next
  intro token
  split
  · exact .unexpected _ _
  · exact .bind (.report _ _) fun _ => .pure _
  · exact .ite (.bind (.report _ _) fun _ => .pure _) (.pure _)

theorem spends_attributeRound (known : Attributes) : Spends rate 0 (attributeRound known) := by
  apply Spends.bind (spends_oneAttribute _)
  intro extended
  apply Spends.bind .next
  intro token
  split
  · exact .pure _
  · exact .pure _
  · exact .unexpected _ _

theorem progresses_attributeRound : Progresses attributeRound := by
  intro known
  apply TakesFor.bind 0 0 (spends_oneAttribute _)
  intro extended
  apply TakesFor.bindNext 0 0
  · intro token
    split
    · exact .pure _
    · exact .pure _
    · exact .unexpected _ _
  · intro token atEnd
    rw [atEnd]
    exact .unexpected _ _

theorem starts_attributes : StartsWith .bracketOpen 1 1 attributes := by
  refine ⟨_, _, rfl, fun opening => ?_⟩
  have items : Spends 1 1 (loop attributeRound {}) :=
    .loop 0 0 spends_attributeRound progresses_attributeRound
  apply Spends.bind items
  intro found
  exact .reportIf (.pure _)

theorem spends_optionalAttributes : Spends 1 0 optionalAttributes :=
  .bindFree .peek fun _ => .ite (starts_attributes.paid (by decide)) (.pure _)

theorem spends_checkNewName (name : String) (place : Position) :
    Spends rate 0 (checkNewName name place) :=
  .bind .get fun _ => .ite (.bind (.report _ _) fun _ => .pure _) (.pure _)

theorem spends_checkTypeAttributes (declaration : String) (found : Attributes)
    (place : Position) : Spends rate 0 (checkTypeAttributes declaration found place) :=
  .ite (.report _ _) (.pure _)

theorem spends_declare (name : String) (node : TypeNode) : Spends rate 0 (declare name node) :=
  .bind .get fun _ => .bind (.intern _ _) fun _ =>
    .bind (.modify (fun _ => rfl) fun _ => rfl) fun _ => .pure _

theorem spends_enumBase : Spends 2 0 (enumBase options) := by
  apply Spends.bind (.eat _)
  intro taken
  apply Spends.ite _ (.pure _)
  apply Spends.bind .peek
  intro token
  apply Spends.bind spends_typeExpression
  intro type
  apply Spends.bind .types
  intro arena
  split
  · exact .pure _
  · exact .bind (.report _ _) fun _ => .pure _

theorem spends_enumValue (members : List EnumMember) : Spends rate 0 (enumValue members) := by
  apply Spends.bind (.eat _)
  intro negative
  apply Spends.bind .next
  intro token
  split
  · split
    · exact .pure _
    · exact .fail _ _
  · apply Spends.ite (.unexpected _ _)
    split
    · exact .pure _
    · exact .fail _ _
  · exact .unexpected _ _

theorem spends_checkBodyGoesOn (token : Token) : Spends rate 0 (checkBodyGoesOn token) :=
  .ite (.unexpected _ _) (.pure _)

theorem spends_enumMember (base : Primitive) (members : List EnumMember) (following : Int) :
    Spends rate 0 (enumMember base members following) := by
  apply Spends.bind (.expect _ _)
  intro name
  apply Spends.bind (.eat _)
  intro assigned
  apply Spends.bindIf (spends_enumValue members) (.pure _)
  intro value
  apply Spends.reportIf
  exact .reportOr fun _ => .bind (.eat _) fun _ => .pure _

/-- A member is there only with its name. -/
theorem takes_enumMember (base : Primitive) (members : List EnumMember) (following : Int) :
    TakesFor (fun _ => True) (enumMember base members following) := by
  apply TakesFor.bindTaken 0 0 (.expect (by decide))
  intro name
  apply Spends.bind (.eat _)
  intro assigned
  apply Spends.bindIf (spends_enumValue members) (.pure _)
  intro value
  apply Spends.reportIf
  exact .reportOr fun _ => .bind (.eat _) fun _ => .pure _

theorem spends_enumRound (base : Primitive) (state : List EnumMember × Int) :
    Spends rate 0 (enumRound base state) := by
  apply Spends.bind .peek
  intro token
  apply Spends.ite (.pure _)
  apply Spends.bind (spends_checkBodyGoesOn _)
  intro _
  apply Spends.bind (spends_enumMember _ _ _)
  rintro ⟨extended, after, more⟩
  exact .ite (.pure _) (.pure _)

theorem progresses_enumRound (base : Primitive) : Progresses (enumRound base) := by
  rintro ⟨members, following⟩
  apply TakesFor.bind 0 0 .peek
  intro token
  apply TakesFor.ite (.pure (by simp))
  apply TakesFor.bind 0 0 (spends_checkBodyGoesOn _)
  intro _
  apply TakesFor.bindTaken 0 0 (takes_enumMember _ _ _)
  rintro ⟨extended, after, more⟩
  exact .ite (.pure _) (.pure _)

theorem spends_enumMembers (base : Primitive) : Spends 1 1 (enumMembers base) :=
  .loop 0 0 (spends_enumRound base) (progresses_enumRound base)

theorem starts_enumDeclaration (found : Attributes) (place : Position) :
    StartsWith .enum 2 0 (enumDeclaration options found place) := by
  refine ⟨_, _, rfl, fun _ => ?_⟩
  apply Spends.bindFree (spends_checkTypeAttributes _ _ _)
  intro _
  apply Spends.bindFree (.expect _ _)
  intro name
  apply Spends.bindFree (spends_checkNewName _ _)
  intro fresh
  apply Spends.bindFree spends_enumBase
  intro base
  apply Spends.bindExpect (by decide)
  intro _
  apply Spends.bind ((spends_enumMembers base).mono (by decide) (by decide))
  intro members
  apply Spends.bind (.expect _ _)
  intro _
  apply Spends.bind (.eat _)
  intro _
  apply Spends.reportIf
  exact .ite (.bind .get fun _ => .bind (spends_declare _ _) fun _ => .pure _) (.pure _)

theorem spends_recordMember (declaration : String) :
    Spends 2 0 (recordMember options declaration) := by
  apply Spends.bind .peek
  intro token
  apply Spends.bind spends_typeExpression
  intro type
  apply Spends.bind .types
  intro arena
  split
  · exact .fail _ _
  · exact .bind (.expect _ _) fun _ => .bind (.expect _ _) fun _ => .pure _

theorem takes_recordMember (declaration : String) :
    TakesFor (fun _ => True) (recordMember options declaration) := by
  apply TakesFor.bind 0 0 .peek
  intro token
  apply TakesFor.bind 2 0 spends_typeExpression
  intro type
  apply TakesFor.bind 0 0 .types
  intro arena
  split
  · exact .fail _ _
  · exact .bindTaken 0 0 (.expect (by decide)) fun _ => .bind (.expect _ _) fun _ => .pure _

section Bodies

variable {item : Parse α} {faultOf? : List α → α → Option (Position × SourceFault)}

theorem spends_bodyRound {rate : Nat} (paid : 1 ≤ rate) (spends : Spends rate 0 item)
    (items : List α) : Spends rate 1 (bodyRound item faultOf? items) := by
  have free {production : Parse (List α ⊕ List α)} (spends : Spends rate 0 production) :
      Spends rate 1 production :=
    spends.mono (Nat.le_refl _) (Nat.zero_le _)
  apply Spends.bindFree (.eat _)
  intro closed
  apply Spends.ite (free (.pure _))
  apply Spends.bindFree .peek
  intro token
  apply Spends.bindFree (spends_checkBodyGoesOn _)
  intro _
  apply Spends.bindFree spends.attempt
  intro result
  cases result with
  | none => exact .bind (spends_recoverStatement.mono paid (Nat.le_refl _)) fun _ => .pure _
  | some found =>
      cases checked : faultOf? items found with
      | none => simpa only [checked] using free (.pure _)
      | some reason =>
          obtain ⟨place, fault⟩ := reason
          simpa only [checked] using free (.bind (.report _ _) fun _ => .pure _)

theorem checkBodyGoesOn_ok {token : Token} {before after : ParseState} {value : Unit}
    (run : checkBodyGoesOn token before = .ok value after) :
    after = before ∧ token.kind ≠ .eof ∧ token.kind.startsDeclaration = false := by
  unfold checkBodyGoesOn at run
  split at run
  · cases run
  · rename_i goesOn
    cases run
    simpa using goesOn

theorem attempt_some {value : α} {before after : ParseState}
    (run : attempt item before = .ok (some value) after) : item before = .ok value after := by
  unfold attempt at run
  split at run <;> cases run
  assumption

/-- A round over a body takes the item, or what stands where the item should, or the item stopped
behind a token. -/
theorem progresses_bodyRound (spends : Spends rate extra item)
    (takes : TakesFor (fun _ => True) item) : Progresses (bodyRound item faultOf?) := by
  intro items before result after run more
  obtain ⟨closed, entered, eaten, rest⟩ := bind_eq_ok.mp run
  rcases eat_ok (by decide) eaten with ⟨rfl, -⟩ | ⟨rfl, rfl, notBrace⟩
  · cases rest
    cases more
  · obtain ⟨_, _, ⟨⟩, others⟩ := bind_eq_ok.mp rest
    obtain ⟨_, front, checked, last⟩ := bind_eq_ok.mp others
    obtain ⟨rfl, notEnd, notWord⟩ := checkBodyGoesOn_ok checked
    obtain ⟨read, state, attempted, ends⟩ := bind_eq_ok.mp last
    cases read with
    | none =>
        obtain ⟨_, _, recovered, ⟨⟩⟩ := bind_eq_ok.mp ends
        obtain ⟨rounds, skips⟩ := recoverStatement_run state
        cases recovered.symm.trans skips
        have suffix : state.tokens <:+ front.tokens := (spends.attempt.ok attempted).tokens
        cases tokens : front.tokens with
        | nil => simp [tokens] at notEnd
        | cons token rest =>
            rw [tokens, List.headD_cons] at notWord
            rw [ahead, tokens, List.headD_cons] at notBrace
            rw [tokens] at suffix
            apply length_skipped_lt suffix (afterStatement_suffix _)
            intro whole
            rw [whole]
            exact afterStatement_suffix_rest notBrace notWord
    | some found =>
        have shorter := takes _ _ _ (attempt_some attempted) trivial
        cases checked : faultOf? items found with
        | none =>
            simp only [checked] at ends
            cases ends
            exact shorter
        | some reason =>
            simp only [checked] at ends
            cases ends
            exact shorter

theorem spends_bodyItems {rate : Nat} (paid : 1 ≤ rate) (spends : Spends rate 0 item)
    (takes : TakesFor (fun _ => True) item) : Spends (rate + 2) 2 (bodyItems item faultOf?) :=
  .loop rate 1 (spends_bodyRound paid spends) (progresses_bodyRound spends takes)

end Bodies

theorem spends_recordBody (declaration : String) (name : Token) (id : Option TypeId) :
    Spends 4 0 (recordBody options declaration name id) := by
  apply Spends.bindExpect (by decide)
  intro _
  have members : Spends 4 2 (recordMembers options declaration) :=
    spends_bodyItems (by decide) (spends_recordMember _) (takes_recordMember _)
  apply Spends.bind (members.mono (by decide) (by decide))
  intro members
  apply Spends.bind (.eat _)
  intro _
  apply Spends.reportIf
  split
  · exact .modify (fun _ => rfl) fun _ => rfl
  · exact .pure _

theorem starts_recordDeclaration (found : Attributes) (place : Position) (isUnion : Bool) :
    StartsWith (if isUnion then .union else .struct) 4 0
      (recordDeclaration options found place isUnion) := by
  refine ⟨_, _, rfl, fun _ => ?_⟩
  apply Spends.bindFree (spends_checkTypeAttributes _ _ _)
  intro _
  apply Spends.bindFree (.expect _ _)
  intro name
  apply Spends.reportIf
  apply Spends.bindFree (spends_checkNewName _ _)
  intro fresh
  apply Spends.bindFree .get
  intro state
  apply Spends.ite
  · exact .bindFree (.map (spends_declare _ _)) fun _ => spends_recordBody _ _ _
  · exact .bindFree (.pure _) fun _ => spends_recordBody _ _ _

end Declarations

section Interfaces

theorem spends_direction : Spends rate 0 direction := by
  apply Spends.bind (.expect _ _)
  intro _
  apply Spends.bind .next
  intro token
  have closes {production : Parse Direction} (spends : Spends rate 0 production) :
      Spends rate 0 (production >>= fun found => do
        let _ ← expect .bracketClose "\"]\""
        return found) :=
    .bind spends fun _ => .bind (.expect _ _) fun _ => .pure _
  split
  · exact closes (.pure _)
  · exact closes (.pure _)
  · exact closes (.unexpected _ _)

theorem spends_checkInterfaceDirection (type : TypeId) (way : Direction) (place : Position) :
    Spends rate 0 (checkInterfaceDirection type way place) := by
  apply Spends.bind .types
  intro arena
  split
  · exact .pure _
  · split
    · exact .report _ _
    · exact .report _ _
    · exact .pure _

theorem spends_parameter : Spends 2 0 (parameter options) :=
  .bind spends_direction fun _ => .bind spends_typeExpression fun _ => .bind (.expect _ _) fun _ =>
    .bind (spends_checkInterfaceDirection _ _ _) fun _ => .pure _

theorem takes_parameter : TakesFor (fun _ => True) (parameter options) := by
  apply TakesFor.bind 0 0 spends_direction
  intro way
  apply TakesFor.bind 2 0 spends_typeExpression
  intro type
  apply TakesFor.bindTaken 0 0 (.expect (by decide))
  exact fun _ => .bind (spends_checkInterfaceDirection _ _ _) fun _ => .pure _

theorem spends_parameterEnd (extended : List Parameter) :
    Spends rate 0 (do
      let token ← next
      match token.kind with
      | .comma => return .inl extended
      | .parenClose => return .inr extended
      | _ => unexpected token "\",\" or \")\"" : Parse (List Parameter ⊕ List Parameter)) := by
  apply Spends.bind .next
  intro token
  split
  · exact .pure _
  · exact .pure _
  · exact .unexpected _ _

theorem spends_parameterRound (known : List Parameter) :
    Spends 2 0 (parameterRound options known) := by
  apply Spends.bind spends_parameter
  intro found
  exact .reportOr spends_parameterEnd

theorem progresses_parameterRound : Progresses (parameterRound options) := by
  intro known
  apply TakesFor.bindTaken 0 0 takes_parameter
  intro found
  exact .reportOr spends_parameterEnd

theorem spends_parameters : Spends 3 1 (parameters options) := by
  apply Spends.bindFree (.eat _)
  intro closed
  apply Spends.ite ((Spends.pure _).mono (Nat.le_refl _) (Nat.zero_le _))
  exact .loop 2 0 spends_parameterRound progresses_parameterRound

theorem spends_methodEnd (found : Attributes) (interfaceAttributes : Attributes) (name : Token)
    (all : List Parameter) :
    Spends rate 0 (do
      let _ ← expect .semicolon "\";\""
      if interfaceAttributes.oneway || found.oneway then
        if let some result := all.find? Parameter.isOut then
          report result.place (.onewayResult name.text result.name)
      return ⟨name.text, found, all, name.place, false⟩ : Parse Method) := by
  apply Spends.bind (.expect _ _)
  intro _
  apply Spends.ite _ (.pure _)
  split
  · exact .bind (.report _ _) fun _ => .pure _
  · exact .pure _

theorem spends_method (interfaceAttributes : Attributes) :
    Spends 3 0 (method options interfaceAttributes) := by
  apply Spends.bindFree (spends_optionalAttributes.mono (by decide) (by decide))
  rintro ⟨found, place⟩
  apply Spends.reportIf
  apply Spends.bindFree (.expect _ _)
  intro name
  apply Spends.bindExpect (by decide)
  intro _
  apply Spends.bind (spends_parameters.mono (by decide) (by decide))
  exact spends_methodEnd found interfaceAttributes name

theorem takes_method (interfaceAttributes : Attributes) :
    TakesFor (fun _ => True) (method options interfaceAttributes) := by
  apply TakesFor.bind 1 0 spends_optionalAttributes
  rintro ⟨found, place⟩
  have named : TakesFor (fun _ => True) (do
      let name ← expect .identifier "a method name"
      let _ ← expect .parenOpen "\"(\""
      let all ← parameters options
      let _ ← expect .semicolon "\";\""
      if interfaceAttributes.oneway || found.oneway then
        if let some result := all.find? Parameter.isOut then
          report result.place (.onewayResult name.text result.name)
      return ⟨name.text, found, all, name.place, false⟩ : Parse Method) := by
    apply TakesFor.bindTaken 3 1 (.expect (by decide))
    intro name
    apply Spends.bindFree (.expect _ _)
    intro _
    exact .bind spends_parameters (spends_methodEnd found interfaceAttributes name)
  exact .ite (.bind 0 0 (.report _ _) fun _ => named) named

theorem starts_interfaceDeclaration (found : Attributes) :
    StartsWith .interface 5 0 (interfaceDeclaration options found) := by
  refine ⟨_, _, rfl, fun keyword => ?_⟩
  apply Spends.bindFree (.expect _ _)
  intro name
  apply Spends.bindFree .get
  intro state
  apply Spends.reportIf
  apply Spends.reportIf
  apply Spends.reportIf
  apply Spends.bindExpect (by decide)
  intro _
  have body : Spends 5 2 (methods options found) :=
    spends_bodyItems (by decide) (spends_method _) (takes_method _)
  apply Spends.bind (body.mono (by decide) (by decide))
  intro declared
  apply Spends.bind (.eat _)
  intro _
  apply Spends.reportIf
  exact .ite (.bind (.intern _ _) fun _ => .modify (fun _ => rfl) fun _ => rfl) (.pure _)

end Interfaces

section Files

/-- A statement of the header that is refused, or takes its effect. -/
theorem spends_of_effect {statement : HeaderStatement} {perform : Parse Unit}
    (cases : ∀ state, (∃ place fault, perform state = report place fault state) ∨
      ∃ after, perform state = .ok () after ∧ TakesEffect state after statement) :
    Spends rate 0 perform := by
  intro before
  rcases cases before with ⟨place, fault, run⟩ | ⟨after, run, effect⟩
  · rw [stateAfter_ok run]
    exact .of_eq (List.suffix_refl _) rfl
  · rw [stateAfter_ok run]
    refine .of_eq (effect.silent.tokens ▸ List.suffix_refl _) ?_
    cases statement with
    | importing name =>
        obtain ⟨id, imports⟩ := effect
        rw [imports.state]
    | sequenceable full =>
        obtain ⟨package, name, outcome⟩ := effect
        obtain ⟨type, sees⟩ := exists_sees outcome
        rw [sees.state]

theorem spends_importUnit (fullName : String) (place : Position) :
    Spends rate 0 (importUnit fullName place) := by
  apply @spends_of_effect _ (.importing fullName)
  intro state
  rcases importUnit_cases fullName place state with ⟨fault, -, run⟩ | ⟨id, after, run, imports⟩
  · exact .inl ⟨place, fault, run⟩
  · exact .inr ⟨after, run, id, imports⟩

theorem spends_declareSequenceable (fullName : String) (place : Position) :
    Spends rate 0 (declareSequenceable fullName place) := by
  apply @spends_of_effect _ (.sequenceable fullName)
  intro state
  rcases declareSequenceable_cases fullName place state with
    ⟨fault, -, run⟩ | ⟨package, name, after, run, sees⟩
  · exact .inl ⟨place, fault, run⟩
  · exact .inr ⟨after, run, package, name, sees⟩

theorem spends_enterPackage (package : String) (place : Position) :
    Spends rate 0 (enterPackage options package place) := by
  intro before
  simp only [stateAfter, enterPackage, Bind.bind, EStateM.bind, get_run]
  cases options.checkPlacement package before.unit.path <;>
    exact .of_eq (List.suffix_refl _) rfl

theorem spends_packageStatement : Spends 1 0 (packageStatement options) := by
  apply Spends.bind starts_announcement.spends
  rintro ⟨package, place⟩
  simp only
  split
  · exact .bind (.modify (fun _ => rfl) fun _ => rfl) fun _ => spends_enterPackage _ _
  · exact .bind (.report _ _) fun _ => spends_enterPackage _ _

theorem spends_importStatement : Spends 1 0 importStatement :=
  .bind starts_announcement.spends fun ⟨_, _⟩ => spends_importUnit _ _

theorem spends_sequenceableStatement : Spends 1 0 sequenceableStatement :=
  .bind starts_announcement.spends fun ⟨_, _⟩ => spends_declareSequenceable _ _

/-- A statement of the header takes at least its first word. -/
theorem shrinks_statement {keyword : TokenKind} {word expected : String} {before : ParseState}
    {perform : String × Position → Parse Unit} (notEnd : keyword ≠ .eof)
    (performs : ∀ named, Spends 1 0 (perform named)) (isKeyword : (ahead before).kind = keyword) :
    Shrinks (announcement keyword word expected >>= perform) before :=
  .bind 1 0 (starts_announcement.shrinks notEnd isKeyword) performs

theorem spends_statementRound {production : Parse Unit} (spends : Spends 1 0 production) :
    Spends 1 1 (statementRound production) := by
  apply Spends.bindFree spends.attempt
  intro result
  have free {result : Unit ⊕ Unit} : Spends 1 1 (pure result : Parse (Unit ⊕ Unit)) :=
    (Spends.pure result).mono (Nat.le_refl _) (Nat.zero_le _)
  exact .ite (.bind spends_recoverStatement fun _ => .pure _) free

theorem spends_headerRound (current : Unit) : Spends 1 1 (headerRound current) := by
  apply Spends.bindFree .peek
  intro token
  split
  · exact spends_statementRound spends_importStatement
  · exact spends_statementRound spends_sequenceableStatement
  · exact (Spends.pure (.inr () : Unit ⊕ Unit)).mono (Nat.le_refl _) (Nat.zero_le _)

/-- A round over a statement takes what the statement takes. -/
theorem shrinks_statementRound {production : Parse Unit} {before : ParseState}
    (shrinks : Shrinks production before) : Shrinks (statementRound production) before := by
  have attempted : Shrinks (attempt production) before := by
    obtain ⟨result, run⟩ := attempt_eq production before
    rw [Shrinks, stateAfter_ok run]
    exact shrinks
  apply Shrinks.bind 1 1 attempted
  intro result
  have free {result : Unit ⊕ Unit} : Spends 1 1 (pure result : Parse (Unit ⊕ Unit)) :=
    (Spends.pure result).mono (Nat.le_refl _) (Nat.zero_le _)
  exact .ite (.bind spends_recoverStatement fun _ => .pure _) free

theorem progresses_headerRound : Progresses headerRound := by
  rintro ⟨⟩ before result after run more
  have opened := headerRound_eq before
  rw [run] at opened
  split at opened
  · rename_i isImport
    have shrinks : Shrinks (statementRound importStatement) before :=
      shrinks_statementRound
        (shrinks_statement (by decide) (fun _ => spends_importUnit _ _) isImport)
    rwa [Shrinks, stateAfter_ok opened.symm] at shrinks
  · rename_i isSequenceable
    have shrinks : Shrinks (statementRound sequenceableStatement) before :=
      shrinks_statementRound
        (shrinks_statement (by decide) (fun _ => spends_declareSequenceable _ _) isSequenceable)
    rwa [Shrinks, stateAfter_ok opened.symm] at shrinks
  · cases opened
    cases more

theorem spends_headerStatements : Spends 3 2 headerStatements :=
  .loop 1 1 spends_headerRound progresses_headerRound

theorem spends_declarationBehind (found : Attributes) (place : Position) :
    Spends 5 1 (do
      let token ← peek
      match token.kind with
      | .enum => enumDeclaration options found place
      | .struct => recordDeclaration options found place false
      | .union => recordDeclaration options found place true
      | .interface => interfaceDeclaration options found
      | .packageWord | .importWord | .sequenceable =>
        report token.place (.misplacedHeader token)
        let _ ← next
        recoverStatement
      | _ => unexpected token "a declaration") := by
  apply Spends.bindFree .peek
  intro token
  have misplaced : Spends 5 1 (do
      report token.place (.misplacedHeader token)
      let _ ← next
      recoverStatement) :=
    .bindFree (.report _ _) fun _ => .bindFree .next fun _ =>
      spends_recoverStatement.mono (by decide) (by decide)
  split
  · exact (starts_enumDeclaration _ _).spends.mono (by decide) (by decide)
  · exact (starts_recordDeclaration _ _ _).spends.mono (by decide) (by decide)
  · exact (starts_recordDeclaration _ _ _).spends.mono (by decide) (by decide)
  · exact (starts_interfaceDeclaration _).spends.mono (by decide) (by decide)
  · exact misplaced
  · exact misplaced
  · exact misplaced
  · exact (Spends.unexpected _ _).mono (Nat.le_refl _) (Nat.zero_le _)

theorem spends_declaration : Spends 5 1 (declaration options) :=
  .bindFree (spends_optionalAttributes.mono (by decide) (by decide)) fun ⟨found, place⟩ =>
    spends_declarationBehind found place

/-- What starts with a word of a declaration or a bracket takes that token. -/
theorem shrinks_declaration {before : ParseState}
    (starts : (ahead before).kind.startsDeclaration = true ∨ (ahead before).kind = .bracketOpen) :
    Shrinks (declaration options) before := by
  by_cases bracket : (ahead before).kind = .bracketOpen
  · have attributed : Shrinks optionalAttributes before := by
      apply Shrinks.bindSame (peek_run before) rfl
      rw [if_pos bracket]
      exact starts_attributes.shrinks (by decide) bracket
    exact .bind 5 1 attributed fun ⟨found, place⟩ => spends_declarationBehind found place
  · have none : optionalAttributes before = .ok ({}, (ahead before).place) before := by
      simp only [optionalAttributes, Bind.bind, EStateM.bind, peek_run, if_neg bracket]
      rfl
    apply Shrinks.bindSame none rfl
    apply Shrinks.bindSame (peek_run before) rfl
    have misplaced (notEnd : (ahead before).kind ≠ .eof) : Shrinks (do
        report (ahead before).place (.misplacedHeader (ahead before))
        let _ ← next
        recoverStatement) before := by
      apply Shrinks.bindSame (modify_run _ before) rfl
      exact .bind 1 1 (.next notEnd) fun _ => spends_recoverStatement
    split
    · rename_i isEnum
      exact (starts_enumDeclaration _ _).shrinks (by decide) isEnum
    · rename_i isStruct
      exact (starts_recordDeclaration _ _ false).shrinks (by decide) isStruct
    · rename_i isUnion
      exact (starts_recordDeclaration _ _ true).shrinks (by decide) isUnion
    · rename_i isInterface
      exact (starts_interfaceDeclaration _).shrinks (by decide) isInterface
    · exact misplaced (by simp [*])
    · exact misplaced (by simp [*])
    · exact misplaced (by simp [*])
    · rename_i others _ _ _ _ _ _
      rcases starts with isWord | isBracket
      · generalize (ahead before).kind = kind at *
        cases kind <;> simp_all [TokenKind.startsDeclaration]
      · exact absurd isBracket bracket

/-- Nothing else starts a declaration, and it stays ahead. -/
theorem declaration_refused {before : ParseState}
    (notWord : (ahead before).kind.startsDeclaration = false)
    (notBracket : (ahead before).kind ≠ .bracketOpen) :
    ∃ after, declaration options before = .error .resync after := by
  have none : optionalAttributes before = .ok ({}, (ahead before).place) before := by
    simp only [optionalAttributes, Bind.bind, EStateM.bind, peek_run, if_neg notBracket]
    rfl
  simp only [declaration, Bind.bind, EStateM.bind, none, peek_run]
  generalize (ahead before).kind = kind at *
  cases kind <;> first
    | exact absurd notWord (by decide)
    | exact ⟨_, rfl⟩

/-- What follows a declaration: a broken one is skipped. -/
theorem spends_behindDeclaration (read : Option Unit) :
    Spends 5 1 (do
      if read.isNone then recoverDeclaration
      return (.inl () : Unit ⊕ Unit)) :=
  .ite (.bind (spends_recoverDeclaration.mono (by decide) (by decide)) fun _ => .pure _)
    ((Spends.pure _).mono (Nat.le_refl _) (Nat.zero_le _))

theorem spends_declarationRound (current : Unit) :
    Spends 5 2 (declarationRound options current) := by
  apply Spends.bindFree .peek
  intro token
  apply Spends.ite ((Spends.pure _).mono (Nat.le_refl _) (Nat.zero_le _))
  show Spends 5 (1 + 1) _
  exact .bindBoth spends_declaration.attempt spends_behindDeclaration

/-- A declaration that leaves has taken a token, or what stands in its place is skipped. -/
theorem progresses_declarationRound : Progresses (declarationRound options) := by
  rintro ⟨⟩ before result after run more
  obtain ⟨_, _, ⟨⟩, rest⟩ := bind_eq_ok.mp run
  cases tokens : before.tokens with
  | nil =>
      rw [if_pos (by simp [tokens])] at rest
      cases rest
      cases more
  | cons token others =>
      rw [tokens, List.headD_cons] at rest
      split at rest
      · cases rest
        cases more
      · obtain ⟨read, state, attempted, ends⟩ := bind_eq_ok.mp rest
        by_cases starts : token.kind.startsDeclaration = true ∨ token.kind = .bracketOpen
        · have shrinks : Shrinks (declaration options) before :=
            shrinks_declaration (by simpa [ahead, tokens] using starts)
          rw [Shrinks, stateAfter_of_attempt attempted, tokens] at shrinks
          exact Nat.lt_of_le_of_lt ((spends_behindDeclaration read).ok ends).tokens.length_le shrinks
        · obtain ⟨notWord, notBracket⟩ := not_or.mp starts
          obtain ⟨stopped, refused⟩ := @declaration_refused options before
            (by simpa [ahead, tokens] using notWord) (by simpa [ahead, tokens] using notBracket)
          have suffix := (spends_declaration.error refused).tokens
          obtain rfl : state = stopped := by
            rw [← stateAfter_of_attempt attempted, stateAfter_error refused]
          obtain rfl : read = none := by
            simp only [attempt, refused] at attempted
            cases attempted
            rfl
          obtain ⟨_, _, recovered, ⟨⟩⟩ := bind_eq_ok.mp ends
          obtain ⟨rounds, skips⟩ := recoverDeclaration_run state
          cases recovered.symm.trans skips
          rw [tokens] at suffix
          apply length_skipped_lt suffix (afterDeclaration_suffix 0 _)
          intro whole
          rw [whole]
          exact afterDeclaration_suffix_rest (by simpa using notWord) notBracket

theorem spends_declarations : Spends 8 3 (declarations options) :=
  .loop 5 2 spends_declarationRound progresses_declarationRound

theorem spends_file : Spends 8 5 (file options) := by
  apply Spends.bindFree (spends_packageStatement.mono (by decide) (by decide))
  intro _
  show Spends 8 (2 + 3) _
  exact .bindBoth (spends_headerStatements.mono (by decide) (by decide)) fun _ => spends_declarations

theorem exists_headerStatements (before : ParseState) :
    ∃ value after, headerStatements before = .ok value after := by
  apply progresses_headerRound.exists_ok
  rintro ⟨⟩ state
  rcases headerRound_cases state with ⟨after, run, -⟩ | ⟨run, -⟩
  · exact ⟨_, _, run⟩
  · exact ⟨_, _, run⟩

theorem declarationRound_cases (state : ParseState) :
    (declarationRound options () state = .ok (.inr ()) state ∧ (ahead state).kind = .eof) ∨
      ∃ after, declarationRound options () state = .ok (.inl ()) after := by
  simp only [declarationRound, Bind.bind, EStateM.bind, peek_run]
  by_cases atEnd : (ahead state).kind = .eof
  · rw [if_pos atEnd]
    exact .inl ⟨rfl, atEnd⟩
  · rw [if_neg atEnd]
    obtain ⟨read, attempted⟩ := attempt_eq (declaration options) state
    simp only [EStateM.bind, attempted]
    cases read with
    | none =>
        obtain ⟨rounds, skips⟩ := recoverDeclaration_run (stateAfter (declaration options) state)
        simp only [Option.isNone_none, if_true, EStateM.bind, skips]
        exact .inr ⟨_, rfl⟩
    | some value => exact .inr ⟨_, rfl⟩

theorem exists_declarations (before : ParseState) :
    ∃ value after, declarations options before = .ok value after := by
  apply progresses_declarationRound.exists_ok
  rintro ⟨⟩ state
  rcases @declarationRound_cases options state with ⟨run, -⟩ | ⟨after, run⟩
  · exact ⟨_, _, run⟩
  · exact ⟨_, _, run⟩

theorem declarations_atEnd {before after : ParseState} {value : Unit}
    (run : declarations options before = .ok value after) : (ahead after).kind = .eof := by
  apply loop_ok (fun _ _ => True) (fun _ state => (ahead state).kind = .eof) trivial
    (fun _ _ _ => trivial) (fun _ _ _ _ _ _ => trivial) _ run
  rintro ⟨⟩ state ⟨⟩ later - step
  rcases @declarationRound_cases options state with ⟨run, atEnd⟩ | ⟨after, run⟩
  · cases step.symm.trans run
    exact atEnd
  · cases step.symm.trans run

/-- Behind a package everything is read, whatever is wrong with it. -/
theorem file_of_package {before entered : ParseState}
    (spelled : ∀ token ∈ before.tokens, token.WellSpelled)
    (run : packageStatement options before = .ok () entered) :
    ∃ after, file options before = .ok () after ∧ after.tokens = [] := by
  obtain ⟨⟨⟩, opened, header⟩ := exists_headerStatements entered
  obtain ⟨⟨⟩, after, declared⟩ := @exists_declarations options opened
  have whole : file options before = .ok () after := by
    simp only [file, Bind.bind, EStateM.bind, run, header, declared]
  refine ⟨after, whole, tokens_eq_nil (fun token listed => ?_) (declarations_atEnd declared)⟩
  exact spelled token ((spends_file.ok whole).tokens.subset listed)

end Files

section Levels

/-- Two productions run alike where at most so many tokens are ahead. -/
def AlikeWithin (most : Nat) (production other : Parse α) : Prop :=
  ∀ state : ParseState, state.tokens.length ≤ most → production state = other state

namespace AlikeWithin

variable {β : Type} {most : Nat}

theorem refl (production : Parse α) : AlikeWithin most production production := fun _ _ => rfl

theorem bind (rate extra : Nat) {first firstToo : Parse α} {second secondToo : α → Parse β}
    (spends : Spends rate extra firstToo) (starts : AlikeWithin most first firstToo)
    (goesOn : ∀ value, AlikeWithin most (second value) (secondToo value)) :
    AlikeWithin most (first >>= second) (firstToo >>= secondToo) := by
  intro state few
  simp only [Bind.bind, EStateM.bind, starts state few]
  cases run : firstToo state with
  | error fault after => rfl
  | ok value after =>
      exact goesOn value after (Nat.le_trans (spends.ok run).tokens.length_le few)

/-- What follows a part that both start with. -/
theorem bindSame (rate extra : Nat) {first : Parse α} {second secondToo : α → Parse β}
    (spends : Spends rate extra first)
    (goesOn : ∀ value, AlikeWithin most (second value) (secondToo value)) :
    AlikeWithin most (first >>= second) (first >>= secondToo) :=
  bind rate extra spends (refl first) goesOn

theorem baseType {element other : Parse TypeId} (spends : Spends 2 0 other)
    (alike : AlikeWithin most element other) (token : Token) :
    AlikeWithin most (baseType element token) (baseType other token) := by
  have inner : AlikeWithin most (elementType element) (elementType other) :=
    bindSame 0 0 .peek fun _ => bind 2 0 spends alike fun _ => refl _
  have elements := spends_elementType spends
  unfold Parse.baseType
  split
  case h_12 =>
    exact bindSame 0 0 (.expect _ _) fun _ => bind 2 0 elements inner fun _ => refl _
  case h_13 =>
    exact bindSame 0 0 (.expect _ _) fun _ => bind 2 0 elements inner fun _ =>
      bindSame 0 0 (.expect _ _) fun _ => bind 2 0 elements inner fun _ => refl _
  case h_14 =>
    exact bindSame 0 0 (.expect _ _) fun _ => bind 2 0 elements inner fun _ => refl _
  all_goals exact refl _

end AlikeWithin

/-- One level of a type expression, inside which types are read by some production. -/
def typeLevel (options : Options) (inner : Parse TypeId) : Parse TypeId := do
  let token ← next
  let base ← baseType inner token
  let type ← arraySuffix base token.place
  checkSupport options type token.place
  return type

theorem typeLevel_congr {inner other : Parse TypeId} {before : ParseState}
    (spends : Spends 2 0 other)
    (alike : ∀ state : ParseState, state.tokens.length < before.tokens.length →
      inner state = other state) :
    typeLevel options inner before = typeLevel options other before := by
  simp only [typeLevel, Bind.bind, EStateM.bind, next_run]
  by_cases atEnd : (ahead before).kind = .eof
  · simp only [baseType, atEnd]
  · have taken : before.tokens.tail.length < before.tokens.length := (takes_ahead atEnd).length_lt
    have within : AlikeWithin before.tokens.tail.length inner other := fun state few =>
      alike state (Nat.lt_of_le_of_lt few taken)
    rw [within.baseType spends (ahead before) _ (Nat.le_refl _)]

theorem typeWithin_eq {depth more : Nat} {before : ParseState}
    (enough : before.tokens.length < depth) (enoughToo : before.tokens.length < more) :
    typeWithin options depth before = typeWithin options more before := by
  induction depth generalizing more before with
  | zero => exact absurd enough (Nat.not_lt_zero _)
  | succ depth ih =>
      obtain ⟨more, rfl⟩ := Nat.exists_eq_succ_of_ne_zero
        (Nat.ne_of_gt (Nat.zero_lt_of_lt enoughToo))
      apply typeLevel_congr (spends_typeWithin more)
      exact fun state fewer => ih (by omega) (by omega)

/-- However deep a type is, it is read to its end. -/
theorem typeExpression_eq (before : ParseState) :
    typeExpression options before = typeLevel options (typeExpression options) before := by
  have opened : typeExpression options before =
      typeLevel options (typeWithin options before.tokens.length) before := rfl
  rw [opened]
  apply typeLevel_congr spends_typeExpression
  exact fun state fewer => typeWithin_eq fewer (Nat.lt_succ_self _)

end Levels

section Loops

/-- The rounds of the loops that read a file. -/
inductive IsRound (options : Options) : {σ α : Type} → (σ → Parse (σ ⊕ α)) → Prop where
  | name : IsRound options nameRound
  | skippedStatement : IsRound options skipStatementRound
  | skippedDeclaration : IsRound options skipDeclarationRound
  | brackets (place : Position) : IsRound options (arrayRound place)
  | attributes : IsRound options attributeRound
  | enumMembers (base : Primitive) : IsRound options (enumRound base)
  | recordMembers (declaration : String)
      (faultOf? : List Member → Member → Option (Position × SourceFault)) :
      IsRound options (bodyRound (recordMember options declaration) faultOf?)
  | methods (interfaceAttributes : Attributes)
      (faultOf? : List Method → Method → Option (Position × SourceFault)) :
      IsRound options (bodyRound (method options interfaceAttributes) faultOf?)
  | parameters : IsRound options (parameterRound options)
  | headerStatements : IsRound options headerRound
  | declarations : IsRound options (declarationRound options)

theorem IsRound.progresses {σ : Type} {step : σ → Parse (σ ⊕ α)} (isRound : IsRound options step) :
    Progresses step := by
  cases isRound with
  | name => exact progresses_nameRound
  | skippedStatement => exact progresses_skipStatementRound
  | skippedDeclaration => exact progresses_skipDeclarationRound
  | brackets place => exact progresses_arrayRound place
  | attributes => exact progresses_attributeRound
  | enumMembers base => exact progresses_enumRound base
  | recordMembers declaration faultOf? =>
      exact progresses_bodyRound (spends_recordMember _) (takes_recordMember _)
  | methods interfaceAttributes faultOf? =>
      exact progresses_bodyRound (spends_method _) (takes_method _)
  | parameters => exact progresses_parameterRound
  | headerStatements => exact progresses_headerRound
  | declarations => exact progresses_declarationRound

/-- Progress through a file that is read from a state.  Every loop ends by itself: a round takes a
token or is the last one.  Types are read as deep as they are, all rounds of all loops together are
linear in the tokens, and behind a package that was read the file is read to its end. -/
structure ReadsThrough (options : Options) (start : ParseState) : Prop where
  loops : ∀ {σ α : Type} (step : σ → Parse (σ ⊕ α)), IsRound options step → EndsByItself step
  types : ∀ before,
    typeExpression options before = typeLevel options (typeExpression options) before
  rounds : (stateAfter (file options) start).rounds ≤ 8 * start.tokens.length + 5
  toEnd : ∀ entered, packageStatement options start = .ok () entered →
    ∃ after, file options start = .ok () after ∧ after.tokens = []

/-- The parser always makes progress. -/
theorem parser_progresses (options : Options) (program : Program) (diagnostics : List Diagnostic)
    (path : Path) (source : String) :
    ReadsThrough options (.start program diagnostics path source) where
  loops _ isRound := isRound.progresses.endsByItself
  types := typeExpression_eq
  rounds := by
    have spent : Spent 8 5 _ _ :=
      @spends_file options (ParseState.start program diagnostics path source)
    have rounds := spent.rounds
    have none : (ParseState.start program diagnostics path source).rounds = 0 := rfl
    omega
  toEnd entered run := by
    apply file_of_package _ run
    intro token listed
    exact TokenStream.wellSpelled_ofSource source token (List.mem_filter.mp listed).1

end Loops

end DriverIdl.Parse
