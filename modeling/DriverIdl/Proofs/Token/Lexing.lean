import DriverIdl.Proofs.Text.Words
import DriverIdl.Proofs.Token.Lookahead

/-!
# Lexing

A text falls into blanks and the texts of its tokens, and nothing is left over.  `Spans` says what
the text of a token may be, and where it has to end; `Cuts` says that tokens and the blanks between
them make up a text, that each of them stands where it says that it does, and where a name or a
number may begin.  A name ends where its run of letters, digits and underscores ends, but it does
not always begin where the run does: a number in front of it takes the letters and digits, and
leaves what follows the next underscore to a name.
-/

namespace DriverIdl

namespace Position

/-- The place behind a text: one more than the line feeds in it, and one more than the characters
behind the last of them. -/
def behind (text : List Char) : Position :=
  ⟨text.count '\n' + 1, (text.reverse.takeWhile (· != '\n')).length + 1⟩

theorem after_behind (text : List Char) (character : Char) :
    (behind text).after character = behind (text ++ [character]) := by
  by_cases isLineFeed : character = '\n'
  · subst isLineFeed
    simp [after, behind]
  · have other : (character == '\n') = false := by simpa using isLineFeed
    simp [after, behind, other, isLineFeed]

theorem afterAll_behind (text more : List Char) :
    (behind text).afterAll more = behind (text ++ more) := by
  induction more generalizing text with
  | nil => rw [List.append_nil]; rfl
  | cons character rest ih =>
      have step : (behind text).afterAll (character :: rest) =
          ((behind text).after character).afterAll rest := rfl
      rw [step, after_behind, ih, List.append_assoc, List.singleton_append]

end Position

namespace Lexeme

section Comments

/-- The characters that end a block comment. -/
def endMark : List Char := ['*', '/']

theorem endMark_infix_cons {character : Char} {rest : List Char}
    (inner : ∀ others, character :: rest ≠ '*' :: '/' :: others) :
    endMark <:+: character :: rest ↔ endMark <:+: rest := by
  rw [List.infix_cons_iff]
  refine or_iff_right ?_
  rintro ⟨others, same⟩
  exact inner others same.symm

/-- A block comment ends with the first end mark. -/
theorem splitComment_eq_some {text body after : List Char}
    (split : splitComment text = some (body, after)) :
    text = body ++ after ∧ ∃ inner, body = inner ++ endMark ∧ ¬endMark <:+: inner ++ ['*'] := by
  fun_induction splitComment text generalizing body with
  | case1 => cases split
  | case2 rest =>
      cases split
      exact ⟨rfl, [], rfl, by decide⟩
  | case3 character rest other ih =>
      obtain ⟨⟨innerBody, innerAfter⟩, found, same⟩ := Option.map_eq_some_iff.mp split
      cases same
      obtain ⟨whole, inner, ends, first⟩ := ih found
      refine ⟨by rw [whole]; rfl, character :: inner, by rw [ends]; rfl, ?_⟩
      rw [List.cons_append, endMark_infix_cons]
      · exact first
      · intro others same
        -- The character behind a star is the first one of the text behind it.
        cases inner with
        | nil => simp at same
        | cons next more =>
            simp only [List.cons_append, List.cons.injEq] at same
            exact other (more ++ endMark ++ after) same.1
              (by rw [whole, ends, same.2.1]; simp)

theorem splitComment_eq_none {text : List Char} (split : splitComment text = none) :
    ¬endMark <:+: text := by
  fun_induction splitComment text with
  | case1 => decide
  | case2 rest => cases split
  | case3 character rest other ih =>
      rw [endMark_infix_cons fun others same => ?_]
      · exact ih (Option.map_eq_none_iff.mp split)
      · cases same
        exact other others rfl rfl

end Comments

/-- All characters of the text pass a test, and the first one behind it does not. -/
structure IsRun (test : Char → Bool) (text rest : List Char) : Prop where
  nonempty : text ≠ []
  inside : ∀ character ∈ text, test character = true
  maximal : ∀ character ∈ rest.head?, test character = false

theorem isRun_takeWhile {test : Char → Bool} {first : Char} (starts : test first = true)
    (rest : List Char) : IsRun test (first :: rest.takeWhile test) (rest.dropWhile test) where
  nonempty := by simp
  inside := by
    intro character inside
    rcases List.mem_cons.mp inside with rfl | later
    · exact starts
    · exact List.all_eq_true.mp List.all_takeWhile character later
  maximal := by
    intro character isHead
    have stops := List.head?_dropWhile_not test rest
    rw [Option.mem_def.mp isHead] at stops
    simpa using stops

/-- What a token of a kind may be in front of the rest of a text. -/
inductive Spans : TokenKind → List Char → List Char → Prop where
  | name {text rest : List Char} (run : IsRun continuesName text rest)
      (starts : ∀ first ∈ text.head?, first.isDigit = false) :
      Spans ((TokenKind.keyword? (String.ofList text)).getD .identifier) text rest
  | number {text rest : List Char} (run : IsRun Char.isAlphanum text rest)
      (starts : ∀ first ∈ text.head?, first.isDigit = true) : Spans .number text rest
  | lineComment {body rest : List Char} (inside : '\n' ∉ body)
      (ends : ∀ character ∈ rest.head?, character = '\n') :
      Spans .lineComment ('/' :: '/' :: body) rest
  | blockComment {body rest : List Char} (first : ¬endMark <:+: body ++ ['*']) :
      Spans .blockComment ('/' :: '*' :: (body ++ endMark)) rest
  | openComment {body : List Char} (unended : ¬endMark <:+: body) :
      Spans .unknown ('/' :: '*' :: body) []
  | delimiter {kind : TokenKind} {character : Char} {rest : List Char}
      (isKind : TokenKind.delimiter? character = some kind) : Spans kind [character] rest
  | unknown {character : Char} {rest : List Char} (inName : continuesName character = false)
      (delimits : TokenKind.delimiter? character = none)
      (comment : character = '/' → ∀ next ∈ rest.head?, next ≠ '/' ∧ next ≠ '*') :
      Spans .unknown [character] rest

theorem continuesName_of_startsName {character : Char} (starts : startsName character = true) :
    continuesName character = true ∧ character.isDigit = false := by
  refine ⟨Token.isWordChar_of_startsName starts, ?_⟩
  have ascii : character.toNat < 128 :=
    Text.toNat_lt_of_isWordChar (Token.isWordChar_of_startsName starts)
  have table : ∀ code < 128, startsName (Char.ofNat code) = true →
      (Char.ofNat code).isDigit = false := by decide +kernel
  have same := table character.toNat ascii
  rw [Char.ofNat_toNat] at same
  exact same starts

theorem continuesName_eq_false {character : Char} (name : startsName character = false)
    (digit : character.isDigit = false) : continuesName character = false := by
  simp only [startsName, Bool.or_eq_false_iff] at name
  simp [continuesName, Char.isAlphanum, name, digit]

theorem continuesName_of_isAlphanum {character : Char} (isAlphanum : character.isAlphanum = true) :
    continuesName character = true := by
  simp [continuesName, isAlphanum]

/-- A lexeme is the start of the text. -/
theorem take_append (first : Char) (rest : List Char) :
    (take first rest).2.1 ++ (take first rest).2.2 = first :: rest := by
  unfold take
  split
  · exact congrArg (first :: ·) List.takeWhile_append_dropWhile
  split
  · exact congrArg (first :: ·) List.takeWhile_append_dropWhile
  split
  · exact congrArg (first :: ·) List.takeWhile_append_dropWhile
  split
  · rename_i opens
    simp only [Bool.and_eq_true, beq_iff_eq] at opens
    obtain ⟨rfl, star⟩ := opens
    obtain ⟨others, rfl⟩ := List.head?_eq_some_iff.mp star
    split
    · rename_i body after found
      have whole : others = body ++ after := (splitComment_eq_some found).1
      rw [whole]
      rfl
    · exact List.append_nil _
  · rfl

/-- A lexeme is what its kind asks for. -/
theorem spans_take (first : Char) (rest : List Char) :
    Spans (take first rest).1 (take first rest).2.1 (take first rest).2.2 := by
  unfold take
  split
  · rename_i starts
    obtain ⟨continues, notDigit⟩ := continuesName_of_startsName starts
    exact .name (isRun_takeWhile continues rest) (by simpa using notDigit)
  rename_i noName
  split
  · rename_i digit
    have isAlphanum : first.isAlphanum = true := by simp [Char.isAlphanum, digit]
    exact .number (isRun_takeWhile isAlphanum rest) (by simpa using digit)
  rename_i noDigit
  split
  · rename_i opens
    simp only [Bool.and_eq_true, beq_iff_eq] at opens
    obtain ⟨rfl, slash⟩ := opens
    obtain ⟨others, rfl⟩ := List.head?_eq_some_iff.mp slash
    have run := @isRun_takeWhile (· != '\n') '/' rfl others
    refine .lineComment (fun inside => ?_) fun character isHead => ?_
    · exact absurd (run.inside '\n' (List.mem_cons_of_mem _ inside)) (by decide)
    · simpa using run.maximal character isHead
  rename_i noLine
  split
  · rename_i opens
    simp only [Bool.and_eq_true, beq_iff_eq] at opens
    obtain ⟨rfl, star⟩ := opens
    obtain ⟨others, rfl⟩ := List.head?_eq_some_iff.mp star
    split
    · rename_i body after found
      obtain ⟨-, inner, rfl, isFirst⟩ := splitComment_eq_some found
      exact .blockComment isFirst
    · rename_i unended
      exact .openComment (splitComment_eq_none unended)
  rename_i noBlock
  cases delimits : TokenKind.delimiter? first with
  | some kind => exact .delimiter delimits
  | none =>
      refine .unknown (continuesName_eq_false (by simpa using noName) (by simpa using noDigit))
        delimits ?_
      rintro rfl next isHead
      rw [Option.mem_def] at isHead
      simpa [isHead, and_comm] using And.intro noLine noBlock

namespace Spans

variable {kind : TokenKind} {text rest : List Char}

theorem nonempty (spans : Spans kind text rest) : text ≠ [] := by
  cases spans with
  | name run _ => exact run.nonempty
  | number run _ => exact run.nonempty
  | _ => simp

theorem kind_ne_eof (spans : Spans kind text rest) : kind ≠ .eof := by
  cases spans with
  | name run _ => exact Token.keyword?_getD_ne_eof _
  | @delimiter _ character _ isKind =>
      have other := (Token.delimiter?_getD_ne character).1
      rwa [isKind] at other
  | _ => simp

theorem continuesName_of_delimiter {character : Char} (isKind : TokenKind.delimiter? character = some kind) :
    continuesName character = false := by
  unfold TokenKind.delimiter? at isKind
  split at isKind <;> first | rfl | cases isKind

/-- If a token ends like a name and the text goes on like one behind it, then the token is a number
in front of an underscore. -/
theorem apart (spans : Spans kind text rest) {last next : Char} (isLast : last ∈ text.getLast?)
    (inName : continuesName last = true) (isNext : next ∈ rest.head?)
    (goesOn : continuesName next = true) : kind = .number ∧ next = '_' := by
  cases spans with
  | name run _ =>
      rw [run.maximal next isNext] at goesOn
      cases goesOn
  | number run _ =>
      simp only [continuesName, run.maximal next isNext, Bool.false_or, beq_iff_eq] at goesOn
      exact ⟨rfl, goesOn⟩
  | lineComment _ ends =>
      rw [ends next isNext] at goesOn
      cases goesOn
  | blockComment _ =>
      simp only [endMark, Option.mem_def, List.getLast?_cons, List.getLast?_append] at isLast
      cases isLast
      cases inName
  | openComment _ => cases isNext
  | delimiter isKind =>
      rw [List.getLast?_singleton, Option.mem_some_iff] at isLast
      rw [← isLast, continuesName_of_delimiter isKind] at inName
      cases inName
  | unknown other _ _ =>
      rw [List.getLast?_singleton, Option.mem_some_iff] at isLast
      rw [← isLast, other] at inName
      cases inName

end Spans

end Lexeme

/-- Behind what has been read, a text falls into blanks and the texts of tokens.  Each token stands
at its place, and a name or a number begins a run of letters, digits and underscores.  The one
exception is a name that starts with an underscore, which may stand directly behind a number:
`previous` is the kind of the token in front. -/
inductive Cuts : Option TokenKind → List Char → List Char → List Token → Prop where
  | blank {previous : Option TokenKind} {read gap : List Char}
      (blanks : ∀ character ∈ gap, Text.isBlank character = true) : Cuts previous read gap []
  | token {previous : Option TokenKind} {read gap text rest : List Char} {kind : TokenKind}
      {tokens : List Token} (blanks : ∀ character ∈ gap, Text.isBlank character = true)
      (spans : Lexeme.Spans kind text rest)
      (apart : ∀ last ∈ (read ++ gap).getLast?, Lexeme.continuesName last = true →
        ∀ first ∈ text.head?, Lexeme.continuesName first = true →
          previous = some .number ∧ first = '_')
      (others : Cuts (some kind) (read ++ gap ++ text) rest tokens) :
      Cuts previous read (gap ++ (text ++ rest))
        (⟨kind, String.ofList text, .behind (read ++ gap)⟩ :: tokens)

theorem Text.continuesName_of_isBlank {character : Char} (blank : isBlank character = true) :
    Lexeme.continuesName character = false := by
  by_contra inName
  have isWord : isWordChar character = true := Bool.not_eq_false _ ▸ inName
  have table : ∀ code < 128, isWordChar (Char.ofNat code) = true →
      isBlank (Char.ofNat code) = false := by decide +kernel
  have other := table character.toNat (toNat_lt_of_isWordChar isWord)
  rw [Char.ofNat_toNat, blank] at other
  cases other isWord

/-- The last character of a text with blanks behind it is one of a name only if there are none. -/
theorem getLast?_append_blanks {read gap : List Char} {last : Char}
    (blanks : ∀ character ∈ gap, Text.isBlank character = true)
    (isLast : last ∈ (read ++ gap).getLast?) (inName : Lexeme.continuesName last = true) :
    gap = [] ∧ last ∈ read.getLast? := by
  rw [List.getLast?_append] at isLast
  cases ends : gap.getLast? with
  | none =>
      rw [ends] at isLast
      exact ⟨List.getLast?_eq_none_iff.mp ends, isLast⟩
  | some character =>
      rw [ends, Option.mem_def, Option.some_or, Option.some_inj] at isLast
      have isBlank := blanks character (List.mem_of_getLast? ends)
      rw [← isLast, Text.continuesName_of_isBlank isBlank] at inName
      cases inName

/-- The tokens of a text cut it. -/
theorem cuts_scanFrom {place : Position} {previous : Option TokenKind} {read source : List Char}
    (placed : place = .behind read)
    (apart : ∀ last ∈ read.getLast?, Lexeme.continuesName last = true →
      ∀ first ∈ source.head?, Lexeme.continuesName first = true →
        previous = some .number ∧ first = '_') :
    Cuts previous read source (Token.scanFrom place source).1 := by
  fun_induction Token.scanFrom place source generalizing previous read with
  | case1 place source found =>
      have whole := List.takeWhile_append_dropWhile (p := Text.isBlank) (l := source)
      rw [found, List.append_nil] at whole
      exact .blank (List.all_eq_true.mp (whole ▸ List.all_takeWhile))
  | case2 place source first rest found start lexeme tokens finish =>
      rename_i scanned ih
      have blanks : ∀ character ∈ source.takeWhile Text.isBlank, Text.isBlank character = true :=
        List.all_eq_true.mp List.all_takeWhile
      have spans := Lexeme.spans_take first rest
      have split := Lexeme.take_append first rest
      have whole := List.takeWhile_append_dropWhile (p := Text.isBlank) (l := source)
      rw [found, ← split] at whole
      have start_eq : start = .behind (read ++ source.takeWhile Text.isBlank) := by
        simp only [start, placed, Position.afterAll_behind]
      rw [scanned] at ih
      nth_rewrite 1 [← whole]
      rw [start_eq]
      refine .token blanks spans ?_ (ih ?_ ?_)
      · intro last isLast inName next isNext goesOn
        obtain ⟨none, before⟩ := getLast?_append_blanks blanks isLast inName
        refine apart last before inName next ?_ goesOn
        rw [← whole, none, List.nil_append]
        exact List.mem_head?_append_of_mem_head? isNext
      · rw [start_eq, Position.afterAll_behind]
      · intro last isLast inName next isNext goesOn
        rw [List.getLast?_append_of_ne_nil _ spans.nonempty] at isLast
        obtain ⟨isNumber, underscore⟩ := spans.apart isLast inName isNext goesOn
        exact ⟨congrArg some isNumber, underscore⟩

/-- The end of a text stands behind all of it. -/
theorem scanFrom_finish (read source : List Char) :
    (Token.scanFrom (.behind read) source).2 = .behind (read ++ source) := by
  generalize placed : Position.behind read = place
  fun_induction Token.scanFrom place source generalizing read with
  | case1 place source _ => rw [← placed, Position.afterAll_behind]
  | case2 place source first rest found start lexeme tokens finish scanned =>
      rename_i ih
      have whole := List.takeWhile_append_dropWhile (p := Text.isBlank) (l := source)
      rw [found, ← Lexeme.take_append first rest] at whole
      have behind := ih (read ++ source.takeWhile Text.isBlank ++ lexeme.2.1) (by
        simp only [start, ← placed, Position.afterAll_behind])
      rw [scanned, List.append_assoc, List.append_assoc, whole] at behind
      exact behind

theorem Cuts.nonempty {previous : Option TokenKind} {read source : List Char} {tokens : List Token}
    (cuts : Cuts previous read source tokens) :
    ∀ token ∈ tokens, token.kind ≠ .eof ∧ token.text ≠ "" := by
  induction cuts with
  | blank _ => simp
  | token _ spans _ _ ih =>
      intro token listed
      rcases List.mem_cons.mp listed with rfl | later
      · refine ⟨spans.kind_ne_eof, fun empty => spans.nonempty ?_⟩
        have none := congrArg String.toList empty
        simpa using none
      · exact ih token later

/-- Taking one token after the other cuts the whole text into tokens, none of them empty, and blanks,
and gives the end of the text forever behind the last token.  Names and numbers are whole runs, but
for a name that an underscore begins directly behind a number. -/
theorem Lexer.tokens_cut_source (source : String) :
    ∃ tokens : List Token, Cuts none [] source.toList tokens ∧
      (∀ token ∈ tokens, token.kind ≠ .eof ∧ token.text ≠ "") ∧
      ∀ count, (ofSource source).taken (List.replicate count (.next false)) =
        tokens.take count ++
          List.replicate (count - tokens.length) ⟨.eof, "", .behind source.toList⟩ := by
  have cuts : Cuts none [] source.toList (TokenStream.ofSource source).tokens :=
    cuts_scanFrom rfl (by simp)
  refine ⟨_, cuts, cuts.nonempty, fun count => ?_⟩
  have finish : (TokenStream.ofSource source).finish = .behind source.toList :=
    scanFrom_finish [] source.toList
  rw [(follows_ofSource source).taken_next, TokenStream.first_eq, TokenStream.endToken, finish]

/-- A token of a text is a whole run of letters, digits and underscores: it stands behind some of
the text, and neither what is before it nor what is behind it goes on with the run. -/
def Token.IsWholeRun (source : String) (token : Token) : Prop :=
  ∃ before after : List Char, source.toList = before ++ token.text.toList ++ after ∧
    token.place = .behind before ∧ Lexeme.IsRun Lexeme.continuesName token.text.toList after ∧
    ∀ last ∈ before.getLast?, Lexeme.continuesName last = false

/-- The exception is met: in `1_a` the number ends at the underscore, and the name behind it is not a
whole run. -/
theorem Lexer.name_behind_number_is_cut :
    (ofSource "1_a").taken [.next false, .next false, .next false] =
        [⟨.number, "1", ⟨1, 1⟩⟩, ⟨.identifier, "_a", ⟨1, 2⟩⟩, ⟨.eof, "", ⟨1, 4⟩⟩] ∧
      ¬∀ token ∈ (ofSource "1_a").taken [.next false, .next false, .next false],
        token.kind = .identifier → token.IsWholeRun "1_a" := by
  have taken : (ofSource "1_a").taken [.next false, .next false, .next false] =
      [⟨.number, "1", ⟨1, 1⟩⟩, ⟨.identifier, "_a", ⟨1, 2⟩⟩, ⟨.eof, "", ⟨1, 4⟩⟩] := by
    decide +kernel
  refine ⟨taken, fun whole => ?_⟩
  obtain ⟨before, after, same, -, run, alone⟩ :=
    whole ⟨.identifier, "_a", ⟨1, 2⟩⟩ (by rw [taken]; simp) rfl
  change ['1', '_', 'a'] = before ++ ['_', 'a'] ++ after at same
  -- The name can only stand behind the digit.
  cases before with
  | nil => simp at same
  | cons first more =>
      cases more with
      | nil =>
          have digit : '1' = first := (List.cons.inj same).1
          have apart := alone first rfl
          rw [← digit] at apart
          cases apart
      | cons second others =>
          have lengths := congrArg List.length same
          simp only [List.length_append, List.length_cons, List.length_nil] at lengths
          omega

end DriverIdl
