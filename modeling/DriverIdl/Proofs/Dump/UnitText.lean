import DriverIdl.Proofs.Dump.Printing

/-!
# The words of a printed unit

Behind the comments in front of it, a printed unit of types has the words of its package, of its
imports and of its declarations.
-/

namespace DriverIdl

open Token Lexeme Dump

variable {arena : TypeArena} {words others : List Word} {rest : List Char}

section Plain

/-- None of the words is a comment. -/
def Plain (words : List Word) : Prop := ∀ word ∈ words, word.1.isComment = false

theorem Plain.append (first : Plain words) (second : Plain others) : Plain (words ++ others) :=
  fun word listed => (List.mem_append.mp listed).elim (first word) (second word)

theorem Plain.cons {word : Word} (first : word.1.isComment = false) (later : Plain words) :
    Plain (word :: words) := List.forall_mem_cons.mpr ⟨first, later⟩

theorem NameWords.plain {name : String} (spelled : NameWords name words) : Plain words := by
  induction spelled with
  | single _ => simp [Plain, TokenKind.isComment]
  | more _ _ ih => exact ih.append (by simp [Plain, TokenKind.isComment])

theorem TypeWords.plain {type : TypeId} (spelled : TypeWords arena type words) : Plain words := by
  induction spelled with
  | @primitive _ kind _ _ => cases kind <;> simp [Plain, Primitive.words, TokenKind.isComment]
  | named _ _ => simp [Plain, TokenKind.isComment]
  | array _ _ ih => exact ih.append (by simp [Plain, TokenKind.isComment])
  | list _ _ ih | queue _ _ ih =>
      exact .cons rfl (.cons rfl (ih.append (by simp [Plain, TokenKind.isComment])))
  | map _ _ _ ihKeys ihValues =>
      exact .cons rfl (.cons rfl (ihKeys.append (.cons rfl
        (ihValues.append (by simp [Plain, TokenKind.isComment])))))

theorem MembersWords.plain {members : List Member} (spelled : MembersWords arena members words) :
    Plain words := by
  induction spelled with
  | nil => simp [Plain]
  | cons type _ _ ih => exact type.plain.append (.cons rfl (.cons rfl ih))

theorem Attributes.plain_words (attributes : Attributes) : Plain attributes.words := by
  unfold Attributes.words
  split
  · simp [Plain, TokenKind.isComment]
  · split <;> simp [Plain, TokenKind.isComment]

theorem plain_recordWords {record : RecordType} {keyword : Word}
    (isWord : keyword.1.isComment = false) (members : Plain words) :
    Plain (recordWords keyword record words) :=
  record.attributes.plain_words.append (.cons isWord (.cons rfl (.cons rfl
    ((members.append (by simp [Plain, TokenKind.isComment])).append
      (by simp [Plain, TokenKind.isComment])))))

theorem plain_enumMember (member : EnumMember) : Plain member.words := by
  refine .cons rfl (.cons rfl (Plain.append ?_ (by simp [Plain, TokenKind.isComment])))
  cases member.value <;> simp [Plain, numberWords, TokenKind.isComment]

theorem EnumType.plain_words (declared : EnumType) : Plain declared.words := by
  have base : Plain declared.base.words := by
    cases isBase : declared.base <;> simp [Plain, Primitive.words, TokenKind.isComment]
  have members : Plain (declared.members.flatMap EnumMember.words) := by
    intro word listed
    obtain ⟨member, -, inside⟩ := List.mem_flatMap.mp listed
    exact plain_enumMember member word inside
  exact declared.attributes.plain_words.append (.cons rfl (.cons rfl (.cons rfl
    (base.append (.cons rfl (members.append (by simp [Plain, TokenKind.isComment])))))))

theorem DefinitionsWords.plain {ids : List TypeId} (spelled : DefinitionsWords arena ids words) :
    Plain words := by
  induction spelled with
  | nil => simp [Plain]
  | @cons id _ _ _ _ first _ ih =>
      refine Plain.append ?_ ih
      generalize arena.node id = node at first
      cases first with
      | @enum declared => exact declared.plain_words
      | struct _ _ members | union _ _ members => exact plain_recordWords rfl members.plain

end Plain

section Names

theorem wordsOf_dotted {name : String} (spelled : NameWords name words) (breaks : Breaks rest) :
    wordsOf (name.toList ++ rest) = words ++ wordsOf rest := by
  induction spelled generalizing rest with
  | single isName => exact wordsOf_name isName breaks
  | @more front name words _ isName ih =>
      simp only [String.toList_append, List.append_assoc, String.reduceToList, List.cons_append,
        List.nil_append]
      rw [ih (.cons rfl), wordsOf_delimiter _ rfl, wordsOf_name isName breaks]
      simp

/-- The words of a statement: what it announces, a name and a semicolon. -/
def statementWords (keyword : Word) (name : List Word) : List Word :=
  keyword :: (name ++ [(.semicolon, ";")])

theorem plain_statementWords (keyword : Word) (isWord : keyword.1.isComment = false)
    (name : Plain words) : Plain (statementWords keyword words) :=
  .cons isWord (name.append (by simp [Plain, TokenKind.isComment]))

theorem wordsOf_statement {keyword name : String} {kind : TokenKind}
    (reserved : TokenKind.keyword? keyword = some kind) (spelled : NameWords name words) :
    wordsOf ((keyword ++ " " ++ name ++ ";").toList ++ rest) =
      statementWords (kind, keyword) words ++ wordsOf rest := by
  simp only [String.toList_append, List.append_assoc, String.reduceToList, List.cons_append,
    List.nil_append]
  rw [wordsOf_keyword reserved (.cons rfl), wordsOf_space, wordsOf_dotted spelled (.cons rfl),
    wordsOf_delimiter _ rfl]
  simp [statementWords]

/-- The lines of statements, each given by what it announces and a name. -/
def statementLines (statements : List (Word × String)) : List String :=
  statements.map fun statement => statement.1.2 ++ " " ++ statement.2 ++ ";"

end Names

section Heads

/-- How a unit is imported: a sequenceable is announced as one. -/
def importKeyword (program : Program) (id : UnitId) : Word :=
  if (program.units[id]?).map CompiledUnit.kind = some .sequenceable then
    (.sequenceable, "sequenceable")
  else (.importWord, "import")

/-- The words of statements, each given by what it announces and a name. -/
inductive StatementsWords : List (Word × String) → List Word → Prop where
  | nil : StatementsWords [] []
  | cons {keyword : Word} {name : String} {statements : List (Word × String)}
      {words others : List Word} (spelled : NameWords name words)
      (later : StatementsWords statements others) :
      StatementsWords ((keyword, name) :: statements) (statementWords keyword words ++ others)

namespace StatementsWords

variable {statements : List (Word × String)}

theorem plain (spelled : StatementsWords statements words)
    (plain : ∀ statement ∈ statements, statement.1.1.isComment = false) : Plain words := by
  induction spelled with
  | nil => simp [Plain]
  | cons spelled _ ih =>
      obtain ⟨first, others⟩ := List.forall_mem_cons.mp plain
      exact (plain_statementWords _ first spelled.plain).append (ih others)

theorem exists_words (named : ∀ statement ∈ statements, ∃ words, NameWords statement.2 words) :
    ∃ words, StatementsWords statements words := by
  induction statements with
  | nil => exact ⟨[], .nil⟩
  | cons statement rest ih =>
      obtain ⟨⟨words, spelled⟩, others⟩ := List.forall_mem_cons.mp named
      obtain ⟨later, spelledLater⟩ := ih others
      exact ⟨_, .cons spelled spelledLater⟩

theorem linesWords (spelled : StatementsWords statements words)
    (reserved : ∀ statement ∈ statements,
      TokenKind.keyword? statement.1.2 = some statement.1.1) :
    LinesWords (statementLines statements) words := by
  induction spelled with
  | nil => exact .nil
  | cons spelled _ ih =>
      obtain ⟨first, others⟩ := List.forall_mem_cons.mp reserved
      exact .cons (.of_breaks fun _ _ => wordsOf_statement first spelled) (ih others)

end StatementsWords

/-- The statements by which a unit is printed to import others. -/
def importStatements (program : Program) (unit : CompiledUnit) : List (Word × String) :=
  unit.imports.map fun entry => (importKeyword program entry.2, entry.1)

variable {program : Program} {unit : CompiledUnit}

theorem plain_imports (spelled : StatementsWords (importStatements program unit) words) :
    Plain words := by
  apply spelled.plain
  intro statement listed
  obtain ⟨entry, -, rfl⟩ := List.mem_map.mp listed
  simp only [importKeyword]
  split <;> rfl

theorem reserved_importStatements : ∀ statement ∈ importStatements program unit,
    TokenKind.keyword? statement.1.2 = some statement.1.1 := by
  intro statement listed
  obtain ⟨entry, -, rfl⟩ := List.mem_map.mp listed
  simp only [importKeyword]
  split <;> rfl

theorem importLines_eq : importLines program unit =
    if unit.imports.isEmpty then [] else "" :: statementLines (importStatements program unit) := by
  rw [importLines, statementLines, importStatements, List.map_map]
  split
  · rfl
  · refine congrArg _ (List.map_congr_left fun entry _ => ?_)
    simp only [Function.comp_apply, importKeyword]
    split
    · rename_i isSequenceable
      rw [if_pos isSequenceable]
    · rename_i other
      rw [if_neg other]

theorem linesWords_imports (spelled : StatementsWords (importStatements program unit) words) :
    LinesWords (importLines program unit) words := by
  have lines := spelled.linesWords reserved_importStatements
  rw [importLines_eq]
  split
  · rename_i isEmpty
    rw [importStatements, List.isEmpty_iff.mp isEmpty] at lines
    exact lines
  · exact lines.blank

end Heads

section Comments

/-- A text that the lexer takes for a block comment. -/
def IsBlockComment (text : String) : Prop :=
  ∃ body, text.toList = '/' :: '*' :: (body ++ endMark) ∧ ¬endMark <:+: body ++ ['*']

theorem Lexeme.Spans.isBlockComment {kind : TokenKind} {text rest : List Char}
    (spans : Spans kind text rest) (isComment : kind = .blockComment) :
    IsBlockComment (String.ofList text) := by
  cases spans with
  | blockComment isFirst => exact ⟨_, String.toList_ofList, isFirst⟩
  | name _ _ =>
      unfold TokenKind.keyword? at isComment
      split at isComment <;> cases isComment
  | delimiter isKind =>
      subst isComment
      unfold TokenKind.delimiter? at isKind
      split at isKind <;> cases isKind
  | _ => cases isComment

theorem Token.isBlockComment_of_scanFrom (place : Position) (source : List Char) :
    ∀ token ∈ (scanFrom place source).1, token.kind = .blockComment → IsBlockComment token.text := by
  fun_induction scanFrom place source with
  | case1 place source blank => simp
  | case2 place source first rest found start lexeme tokens finish scanned ih =>
      rw [scanned] at ih
      exact List.forall_mem_cons.mpr ⟨(spans_take first rest).isBlockComment, ih⟩

/-- A license is a block comment of the text. -/
theorem isBlockComment_of_leadingLicense? {source text : String}
    (license : leadingLicense? (TokenStream.ofSource source).tokens = some text) :
    IsBlockComment text := by
  obtain ⟨token, found, rfl⟩ := Option.map_eq_some_iff.mp license
  have isComment := List.find?_some found
  have listed := (List.takeWhile_sublist _).subset (List.mem_of_find?_eq_some found)
  exact isBlockComment_of_scanFrom _ _ token listed (by simpa using isComment)

/-- The license among words. -/
def licenseOfWords (words : List Word) : Option String :=
  ((words.takeWhile fun word => word.1.isComment).find? fun word => word.1 == .blockComment).map
    Prod.snd

theorem leadingLicense?_eq (tokens : List Token) :
    leadingLicense? tokens = licenseOfWords (tokens.map word) := by
  rw [leadingLicense?, licenseOfWords, List.takeWhile_map, List.find?_map, Option.map_map]
  rfl

theorem map_word_filter (tokens : List Token) :
    (tokens.filter fun token => !token.isComment).map word =
      (tokens.map word).filter fun word => !word.1.isComment := by
  rw [List.filter_map]
  rfl

theorem lineWords_comment {line : String} (body : List Char)
    (opens : line.toList = '/' :: '/' :: body) (inside : '\n' ∉ body) :
    LineWords line [(.lineComment, line)] :=
  fun _ ends => wordsOf_lineComment body opens inside ends

end Comments

section Units

variable {program : Program} {unit : CompiledUnit} {package imports : List Word}

/-- What a unit needs to be printed as it is: whatever stands in line comments has no line feed, and
the license is a comment. -/
structure CompiledUnit.Printable (unit : CompiledUnit) : Prop where
  name : '\n' ∉ unit.fullName.toList
  path : '\n' ∉ unit.path.text.toList
  license : ∀ text, unit.license = some text → IsBlockComment text

theorem linesWords_head (printable : unit.Printable) (spelled : NameWords unit.package package) :
    ∃ first second version, LinesWords (headLines unit)
      ((.lineComment, first) :: (.lineComment, second) ::
        (unit.license.toList.map (.blockComment, ·) ++
          (statementWords (.packageWord, "package") package ++ [(.lineComment, version)]))) := by
  have digits : ∀ number : Nat, '\n' ∉ Nat.toDigits 10 number := by
    intro number inside
    have isDigit := Nat.isDigit_of_mem_toDigits (by decide) (by decide) inside
    cases isDigit
  have dot : '\n' ∉ (toString ".").toList := by decide
  have version : '\n' ∉ unit.version.text.toList := by
    simp [Version.text, String.toList_append, digits, dot]
  have kind : '\n' ∉ (kindText unit.kind).toList := by cases unit.kind <;> decide
  have license : LinesWords unit.license.toList (unit.license.toList.map (.blockComment, ·)) := by
    cases isLicense : unit.license with
    | none => exact .nil
    | some text =>
        obtain ⟨body, opens, isFirst⟩ := printable.license text isLicense
        exact .single fun rest _ => wordsOf_blockComment rest opens isFirst
  have title : LineWords ("// " ++ unit.fullName ++ " (" ++ kindText unit.kind ++ ")") _ :=
    lineWords_comment (' ' :: (unit.fullName.toList ++ " (".toList ++
      (kindText unit.kind).toList ++ ")".toList)) (by simp) (by simp [printable.name, kind])
  have file : LineWords ("// file: " ++ unit.path.text) _ :=
    lineWords_comment (" file: ".toList ++ unit.path.text.toList) (by simp)
      (by simp [printable.path])
  have statement : LineWords ("package " ++ unit.package ++ "; // version " ++ unit.version.text)
      (statementWords (.packageWord, "package") package ++
        [(.lineComment, "// version " ++ unit.version.text)]) := by
    intro rest ends
    have cut : ("package " ++ unit.package ++ "; // version " ++ unit.version.text).toList =
        ("package" ++ " " ++ unit.package ++ ";").toList ++
          ' ' :: ("// version " ++ unit.version.text).toList := by simp
    rw [cut, List.append_assoc, wordsOf_statement rfl spelled, List.cons_append, wordsOf_space,
      wordsOf_lineComment (" version ".toList ++ unit.version.text.toList) (by simp)
        (by simp [version]) ends]
    simp
  have whole := (LinesWords.single title).append
    ((LinesWords.single file).append (license.append (.single statement)))
  exact ⟨_, _, _, by simpa [headLines] using whole⟩

theorem wordsOf_unitText (printable : unit.Printable) (noInterface : unit.interface = none)
    (spelled : NameWords unit.package package)
    (imported : StatementsWords (importStatements program unit) imports)
    (defined : LinesWords (unit.definitions.flatMap (definitionLines program.types)) words) :
    ∃ first second version, wordsOf (unitText program unit).toList =
      (.lineComment, first) :: (.lineComment, second) ::
        (unit.license.toList.map (.blockComment, ·) ++
          (statementWords (.packageWord, "package") package ++
            (.lineComment, version) :: (imports ++ words))) := by
  obtain ⟨first, second, version, head⟩ := linesWords_head printable spelled
  have rest := ((head.append (linesWords_imports imported)).append defined).append
    (.single .blank)
  have lines : interfaceLines program unit = [] := by
    simp [interfaceLines, Program.interfaceOf?, noInterface]
  refine ⟨first, second, version, ?_⟩
  rw [unitText, lines, List.append_nil]
  simpa using rest.wordsOf_intercalate

/-- A printed unit of types is read with its license and in front of the words of its package,
imports and declarations. -/
theorem start_unitText (printable : unit.Printable) (noInterface : unit.interface = none)
    (spelled : NameWords unit.package package)
    (imported : StatementsWords (importStatements program unit) imports)
    (first : program.types.ElementsFirst)
    (defined : DefinitionsWords program.types unit.definitions words) (known : Program)
    (diagnostics : List Diagnostic) (path : Path) :
    (ParseState.start known diagnostics path (unitText program unit)).tokens.map word =
        statementWords (.packageWord, "package") package ++ (imports ++ words) ∧
      (ParseState.start known diagnostics path (unitText program unit)).unit.license =
        unit.license := by
  obtain ⟨title, file, version, whole⟩ := wordsOf_unitText printable noInterface spelled imported
    (linesWords_definitions first defined)
  have scanned : (TokenStream.ofSource (unitText program unit)).tokens.map word =
      wordsOf (unitText program unit).toList := rfl
  have keeps : ∀ {kept : List Word}, Plain kept →
      kept.filter (fun word => !word.1.isComment) = kept := by
    intro kept plain
    exact List.filter_eq_self.mpr fun word listed => by simp [plain word listed]
  constructor
  · have statement := keeps (plain_statementWords (.packageWord, "package") rfl
      spelled.plain)
    have line : TokenKind.lineComment.isComment = true := rfl
    have block : TokenKind.blockComment.isComment = true := rfl
    simp only [ParseState.start, map_word_filter, scanned, whole]
    cases unit.license <;>
      simp [statement, keeps (plain_imports imported), keeps defined.plain, line, block]
  · simp only [ParseState.start, leadingLicense?_eq, scanned, whole]
    cases unit.license <;> rfl

end Units

end DriverIdl
