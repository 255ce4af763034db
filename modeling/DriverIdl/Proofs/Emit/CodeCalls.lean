import DriverIdl.Proofs.Emit.Expressible
import DriverIdl.Proofs.Emit.WireCalls

/-!
# What pieces of code call

A piece of code calls the same parcel functions wherever it stands, but for the loops around it and
for blocks that are left out.  `Emits` says which ones, and is kept by all ways in which pieces of
code are put together.  What a single line calls is told from its lexemes: `Tells` is about lines
without string literals and blocks.
-/

namespace DriverIdl

namespace CodeLexeme

section Lexing

@[simp] theorem lexFrom_nil (quoted : Bool) : lexFrom quoted [] = [] := rfl

@[simp] theorem lexFrom_blank (rest : List Char) :
    lexFrom false (' ' :: rest) = .sign ' ' :: lexFrom false rest := rfl

@[simp] theorem lexFrom_opening (rest : List Char) :
    lexFrom false ('(' :: rest) = .sign '(' :: lexFrom false rest := rfl

@[simp] theorem lexFrom_closing (rest : List Char) :
    lexFrom false (')' :: rest) = .sign ')' :: lexFrom false rest := rfl

@[simp] theorem lexFrom_comma (rest : List Char) :
    lexFrom false (',' :: rest) = .sign ',' :: lexFrom false rest := rfl

@[simp] theorem lexFrom_semicolon (rest : List Char) :
    lexFrom false (';' :: rest) = .sign ';' :: lexFrom false rest := rfl

@[simp] theorem lexFrom_not (rest : List Char) :
    lexFrom false ('!' :: rest) = .sign '!' :: lexFrom false rest := rfl

@[simp] theorem lexFrom_opening_block (rest : List Char) :
    lexFrom false ('\x7b' :: rest) = .sign '\x7b' :: lexFrom false rest := rfl

@[simp] theorem lexFrom_closing_block (rest : List Char) :
    lexFrom false ('\x7d' :: rest) = .sign '\x7d' :: lexFrom false rest := rfl

@[simp] theorem lexFrom_quote (rest : List Char) :
    lexFrom false ('"' :: rest) = .sign '"' :: lexFrom true rest := rfl

@[simp] theorem lexFrom_of_not_separates {character : Char} (inside : ¬separates character)
    (rest : List Char) :
    lexFrom false (character :: rest) = extend [character] (lexFrom false rest) := by
  simp [lexFrom, inside]

theorem lexFrom_of_separates {character : Char} (apart : separates character) (rest : List Char) :
    lexFrom false (character :: rest) = .sign character :: lexFrom (character = '"') rest := by
  simp [lexFrom, apart]

@[simp] theorem extend_nil (characters : List Char) : extend characters [] = [.run characters] := rfl

@[simp] theorem extend_run (characters text : List Char) (rest : List CodeLexeme) :
    extend characters (.run text :: rest) = .run (characters ++ text) :: rest := rfl

@[simp] theorem extend_sign (characters : List Char) (sign : Char) (rest : List CodeLexeme) :
    extend characters (.sign sign :: rest) = .run characters :: .sign sign :: rest := rfl

theorem extend_extend (first second : List Char) (behind : List CodeLexeme) :
    extend first (extend second behind) = extend (first ++ second) behind := by
  rcases behind with _ | ⟨text | sign, rest⟩ <;> simp

theorem extend_append_sign (characters : List Char) (first : List CodeLexeme) (sign : Char)
    (rest : List CodeLexeme) :
    extend characters (first ++ .sign sign :: rest) = extend characters first ++ .sign sign :: rest := by
  rcases first with _ | ⟨text | sign, rest⟩ <;> simp

/-- A run in front of a text is its first run, together with the one that it is joined with. -/
theorem lexFrom_append_of_unbroken {run : List Char} (nonempty : run ≠ [])
    (unbroken : ∀ character ∈ run, ¬separates character) (rest : List Char) :
    lexFrom false (run ++ rest) = extend run (lexFrom false rest) := by
  induction run with
  | nil => exact absurd rfl nonempty
  | cons character others ih =>
      rw [List.cons_append, lexFrom_of_not_separates (unbroken character (by simp))]
      cases others with
      | nil => rfl
      | cons next more =>
          rw [ih (by simp) fun other listed => unbroken other (by simp [listed]), extend_extend,
            List.singleton_append]

/-- A sign ends what stands in front of it. -/
theorem lexFrom_append_sign {text : List Char} (unquoted : '"' ∉ text) {sign : Char}
    (apart : separates sign) (rest : List Char) :
    lexFrom false (text ++ sign :: rest) = lexFrom false text ++ lexFrom false (sign :: rest) := by
  induction text with
  | nil => rfl
  | cons character others ih =>
      simp only [List.mem_cons, not_or] at unquoted
      have notQuote : decide (character = '"') = false := by simpa using Ne.symm unquoted.1
      by_cases inside : separates character
      · rw [List.cons_append, lexFrom_of_separates inside, lexFrom_of_separates inside, notQuote,
          ih unquoted.2, List.cons_append]
      · rw [List.cons_append, lexFrom_of_not_separates inside, lexFrom_of_not_separates inside,
          ih unquoted.2, lexFrom_of_separates apart, extend_append_sign]

theorem lexFrom_append_closing {text : List Char} (unquoted : '"' ∉ text) (rest : List Char) :
    lexFrom false (text ++ ')' :: rest) = lexFrom false text ++ .sign ')' :: lexFrom false rest :=
  lexFrom_append_sign unquoted rfl rest

/-- A literal ends with the next quote. -/
theorem lexFrom_literal {text : List Char} (unquoted : '"' ∉ text) (rest : List Char) :
    lexFrom true (text ++ '"' :: rest) = .sign '"' :: lexFrom false rest := by
  induction text with
  | nil => rfl
  | cons character others ih =>
      simp only [List.mem_cons, not_or] at unquoted
      rw [List.cons_append, lexFrom, if_pos rfl, if_neg (Ne.symm unquoted.1), ih unquoted.2]

end Lexing

section Tame

/-- A character of a line that holds neither string literals nor blocks. -/
def tames (character : Char) : Bool :=
  character != '\n' && character != '"' && character != '\x7b' && character != '\x7d'

/-- A text of one line that holds neither string literals nor blocks. -/
def Tame (text : String) : Prop := text.toList.all tames = true

instance (text : String) : Decidable (Tame text) := inferInstanceAs (Decidable (_ = _))

@[simp] theorem tame_append (first second : String) :
    Tame (first ++ second) ↔ Tame first ∧ Tame second := by
  simp [Tame]

theorem Tame.not_mem {text : String} (tame : Tame text) {character : Char}
    (wild : tames character = false) : character ∉ text.toList := by
  intro inside
  have isTame := List.all_eq_true.mp tame character inside
  rw [wild] at isTame
  cases isTame

/-- A lexeme of such a line. -/
def calms : CodeLexeme → Bool
  | .run _ => true
  | .sign character => tames character

@[simp] theorem calms_run (text : List Char) : calms (.run text) = true := rfl

theorem separates_of_not_tames {character : Char} (wild : tames character = false) :
    separates character = true := by
  simp only [tames, Bool.and_eq_false_iff, bne_eq_false_iff_eq] at wild
  rcases wild with ((rfl | rfl) | rfl) | rfl <;> rfl

theorem calms_extend (characters : List Char) (behind : List CodeLexeme) :
    (extend characters behind).all calms = behind.all calms := by
  rcases behind with _ | ⟨text | sign, rest⟩ <;> rfl

/-- The lexemes of a tame text are calm, and calm lexemes come from a tame text. -/
theorem all_calms_lexFrom (text : List Char) : (lexFrom false text).all calms = text.all tames := by
  induction text with
  | nil => rfl
  | cons character rest ih =>
      by_cases inside : separates character
      · rw [lexFrom_of_separates inside, List.all_cons, List.all_cons]
        by_cases isQuote : character = '"'
        · subst isQuote
          rfl
        · rw [decide_eq_false isQuote, ih]
          rfl
      · have isTame : tames character = true := by
          by_contra wild
          exact inside (separates_of_not_tames (by simpa using wild))
        rw [lexFrom_of_not_separates inside, calms_extend, List.all_cons, isTame, Bool.true_and, ih]

/-- A tame line has no signs of other kinds. -/
theorem Tame.sign_not_mem_ofLine {text : String} (tame : Tame text) {sign : Char}
    (wild : tames sign = false) : CodeLexeme.sign sign ∉ ofLine text.toList := by
  intro listed
  have calm : (ofLine text.toList).all calms = true := by
    rw [ofLine, all_calms_lexFrom]
    apply List.all_eq_true.mpr
    intro character inside
    exact List.all_eq_true.mp tame character ((List.dropWhile_suffix _).subset inside)
  have isTame : tames sign = true := List.all_eq_true.mp calm _ listed
  rw [wild] at isTame
  cases isTame

end Tame

section Runs

/-- Characters of which each is looked at. -/
theorem unbroken_of_all {run : List Char} (checked : run.all (!separates ·) = true) :
    ∀ character ∈ run, ¬separates character := by
  simpa using checked

/-- A character inside of a run, but for the one between an object and its member. -/
def joins (character : Char) : Bool := !separates character && character != '.'

/-- A text that is one run, which is no member of an object. -/
def IsRun (text : String) : Prop := text.toList ≠ [] ∧ text.toList.all joins = true

instance (text : String) : Decidable (IsRun text) := inferInstanceAs (Decidable (_ ∧ _))

namespace IsRun

variable {text : String}

theorem append {first second : String} (isFirst : IsRun first) (isSecond : IsRun second) :
    IsRun (first ++ second) := by
  refine ⟨by simp [isFirst.1], ?_⟩
  rw [String.toList_append, List.all_append, isFirst.2, isSecond.2, Bool.and_self]

theorem unbroken (run : IsRun text) : ∀ character ∈ text.toList, ¬separates character := by
  intro character inside
  have joined := List.all_eq_true.mp run.2 character inside
  simp only [joins, Bool.and_eq_true, Bool.not_eq_true'] at joined
  simp [joined.1]

@[simp] theorem tame (run : IsRun text) : Tame text := by
  apply List.all_eq_true.mpr
  intro character inside
  by_contra wild
  exact run.unbroken character inside (separates_of_not_tames (by simpa using wild))

@[simp] theorem undotted (run : IsRun text) : '.' ∉ text.toList := by
  intro inside
  have joined := List.all_eq_true.mp run.2 _ inside
  simp [joins] at joined

@[simp] theorem ne_nil (run : IsRun text) : text.toList ≠ [] := run.1

@[simp] theorem lexFrom_append (run : IsRun text) (rest : List Char) :
    lexFrom false (text.toList ++ rest) = extend text.toList (lexFrom false rest) :=
  lexFrom_append_of_unbroken run.1 run.unbroken rest

@[simp] theorem lexFrom_self (run : IsRun text) :
    lexFrom false text.toList = [.run text.toList] := by
  have whole := run.lexFrom_append []
  rwa [List.append_nil] at whole

/-- A line that starts with a run has no indentation. -/
theorem ofLine_append (run : IsRun text) (rest : List Char) :
    ofLine (text.toList ++ rest) = lexFrom false (text.toList ++ rest) := by
  obtain ⟨character, others, spelled⟩ := List.exists_cons_of_ne_nil run.1
  have notBlank : ¬character = ' ' := by
    rintro rfl
    exact run.unbroken ' ' (by simp [spelled]) rfl
  rw [ofLine, spelled, List.cons_append, List.dropWhile_cons_of_neg (by simpa using notBlank)]

end IsRun

end Runs

end CodeLexeme

open CodeLexeme

section Calls

variable {parcel : List Char}

theorem Application.inRow_append_sign {sign : Char} (closed : sign ≠ '(')
    (first second : List CodeLexeme) :
    inRow (first ++ .sign sign :: second) = inRow first ++ inRow second := by
  induction first with
  | nil => rfl
  | cons lexeme rest ih =>
      cases lexeme with
      | sign other => exact ih
      | run text =>
          have same : argument? (rest ++ .sign sign :: second) = argument? rest := by
            rcases rest with _ | ⟨next | next, _ | ⟨after | after, others⟩⟩
            · cases second with
              | nil => rfl
              | cons after others => cases after <;> simp [argument?, closed]
            all_goals rfl
          rw [List.cons_append, inRow, inRow, ih, atRun, atRun, same, List.append_assoc]

/-- A call without arguments gets no parcel. -/
theorem Application.inRow_append_sign_sign (sign other : Char) (first second : List CodeLexeme) :
    inRow (first ++ .sign sign :: .sign other :: second) = inRow first ++ inRow second := by
  induction first with
  | nil => rfl
  | cons lexeme rest ih =>
      cases lexeme with
      | sign _ => exact ih
      | run text =>
          have same : argument? (rest ++ .sign sign :: .sign other :: second) = argument? rest := by
            rcases rest with _ | ⟨next | next, _ | ⟨after | after, others⟩⟩ <;> rfl
          rw [List.cons_append, inRow, inRow, ih, atRun, atRun, same, List.append_assoc]

namespace Callee

@[simp] theorem inRow_nil : inRow parcel [] = [] := rfl

@[simp] theorem inRow_sign (sign : Char) (rest : List CodeLexeme) :
    inRow parcel (.sign sign :: rest) = inRow parcel rest := rfl

theorem inRow_run {word : List Char} (undotted : '.' ∉ word) (rest : List CodeLexeme) :
    inRow parcel (.run word :: rest) = (match Application.argument? rest with
      | some first => if first = parcel then (ofFunction? word).toList else []
      | none => []) ++ inRow parcel rest := by
  cases found : Application.argument? rest <;>
    simp [inRow, Application.inRow, Application.atRun, undotted, found, Application.callees]

@[simp] theorem inRow_run_end {word : List Char} (undotted : '.' ∉ word) :
    inRow parcel [.run word] = [] := inRow_run undotted []

@[simp] theorem inRow_run_run {word : List Char} (undotted : '.' ∉ word) (next : List Char)
    (rest : List CodeLexeme) :
    inRow parcel (.run word :: .run next :: rest) = inRow parcel (.run next :: rest) :=
  inRow_run undotted _

@[simp] theorem inRow_run_sign {word : List Char} (undotted : '.' ∉ word) {sign : Char}
    (closed : sign ≠ '(') (rest : List CodeLexeme) :
    inRow parcel (.run word :: .sign sign :: rest) = inRow parcel rest := by
  rw [inRow_run undotted]
  rcases rest with _ | ⟨text | other, more⟩ <;> simp [Application.argument?, closed]

@[simp] theorem inRow_run_sign_sign {word : List Char} (undotted : '.' ∉ word) (sign other : Char)
    (rest : List CodeLexeme) :
    inRow parcel (.run word :: .sign sign :: .sign other :: rest) = inRow parcel rest :=
  inRow_run undotted _

@[simp] theorem inRow_call {word : List Char} (undotted : '.' ∉ word) (first : List Char)
    (rest : List CodeLexeme) :
    inRow parcel (.run word :: .sign '(' :: .run first :: rest) =
      (if first = parcel then (ofFunction? word).toList else []) ++
        inRow parcel (.run first :: rest) :=
  inRow_run undotted _

/-- A word calls nothing that is no parcel function. -/
@[simp high] theorem inRow_idle {word : List Char} (undotted : '.' ∉ word)
    (idle : ofFunction? word = none) (rest : List CodeLexeme) :
    inRow parcel (.run word :: rest) = inRow parcel rest := by
  rw [inRow_run undotted, idle]
  cases Application.argument? rest <;> simp

theorem inRow_append_sign {sign : Char} (closed : sign ≠ '(') (first second : List CodeLexeme) :
    inRow parcel (first ++ .sign sign :: second) = inRow parcel first ++ inRow parcel second := by
  simp only [inRow, Application.inRow_append_sign closed, List.flatMap_append]

theorem inRow_append_sign_sign (sign other : Char) (first second : List CodeLexeme) :
    inRow parcel (first ++ .sign sign :: .sign other :: second) =
      inRow parcel first ++ inRow parcel second := by
  simp only [inRow, Application.inRow_append_sign_sign, List.flatMap_append]

theorem inRow_method {object : List Char} (undotted : '.' ∉ object) (method : List Char)
    (rest : List CodeLexeme) :
    inRow parcel (.run (object ++ '.' :: method) :: rest) =
      (if object = parcel then (ofMethod? method).toList else []) ++ inRow parcel rest := by
  have apart : ∀ character ∈ object, (character != '.') = true := fun character inside =>
    bne_iff_ne.mpr fun same => undotted (same ▸ inside)
  have isObject : (object ++ '.' :: method).takeWhile (· != '.') = object := by
    rw [List.takeWhile_append_of_pos apart, List.takeWhile_cons_of_neg (by simp), List.append_nil]
  have isMethod : (object ++ '.' :: method).dropWhile (· != '.') = '.' :: method := by
    rw [List.dropWhile_append_of_pos apart, List.dropWhile_cons_of_neg (by simp)]
  have dotted : '.' ∈ object ++ '.' :: method := by simp
  simp only [inRow, Application.inRow, Application.atRun, if_pos dotted, isObject, isMethod,
    List.tail_cons, List.flatMap_append, List.flatMap_singleton, Application.callees]

/-- The indentation of a line calls nothing. -/
theorem inRow_ofLine (line : List Char) :
    inRow parcel (ofLine line) = inRow parcel (lexFrom false line) := by
  induction line with
  | nil => rfl
  | cons character rest ih =>
      by_cases isBlank : character = ' '
      · subst isBlank
        exact ih
      · rw [ofLine, List.dropWhile_cons_of_neg (by simpa using isBlank)]

end Callee

/-- A text without string literals and blocks calls these parcel functions. -/
structure Tells (parcel : List Char) (text : String) (callees : List Callee) : Prop where
  calm : (lexFrom false text.toList).all calms = true
  callees_eq : Callee.inRow parcel (lexFrom false text.toList) = callees

theorem tells_iff {text : String} {callees : List Callee} :
    Tells parcel text callees ↔ (lexFrom false text.toList).all calms = true ∧
      Callee.inRow parcel (lexFrom false text.toList) = callees :=
  ⟨fun told => ⟨told.calm, told.callees_eq⟩, fun told => ⟨told.1, told.2⟩⟩

theorem Tells.tame {text : String} {callees : List Callee} (told : Tells parcel text callees) :
    Tame text :=
  (all_calms_lexFrom text.toList).symm.trans told.calm

/-- A text that calls nothing in front of its last run, which may go on behind the text. -/
def IsPhrase (text : String) : Prop :=
  ∃ front last, '.' ∉ last ∧ front.all calms = true ∧
    (∀ parcel rest, Callee.inRow parcel (front ++ rest) = Callee.inRow parcel rest) ∧
    ∀ rest, lexFrom false (text.toList ++ rest) = front ++ extend last (lexFrom false rest)

namespace IsPhrase

theorem of_isRun {text : String} (isRun : IsRun text) : IsPhrase text :=
  ⟨[], text.toList, isRun.undotted, rfl, fun _ _ => rfl, isRun.lexFrom_append⟩

theorem tells {text : String} (phrase : IsPhrase text) : Tells parcel text [] := by
  obtain ⟨front, last, undotted, calm, quiet, lexed⟩ := phrase
  have whole := lexed []
  rw [List.append_nil] at whole
  refine tells_iff.mpr ?_
  rw [whole, quiet, List.all_append, calm]
  simp [undotted]

theorem tame {text : String} (phrase : IsPhrase text) : Tame text :=
  (@tells [] text phrase).tame

end IsPhrase

end Calls

section Emits

/-- The call inside of more loops. -/
def WireCall.inside (loops : Nat) (call : WireCall) : WireCall :=
  { call with loops := call.loops + loops }

/-- Calls that stand in no loop. -/
def WireCall.ofCallees (callees : List Callee) : List WireCall :=
  callees.map fun callee => ⟨callee, 0⟩

/-- What is left of calls inside of blocks. -/
def Block.within (blocks : List Block) (calls : List WireCall) : List WireCall :=
  if .skipped ∈ blocks then [] else calls.map (WireCall.inside (blocks.count .loop))

/-- The calls of a block seen from outside. -/
def Block.around : Block → List WireCall → List WireCall
  | .loop, calls => calls.map (WireCall.inside 1)
  | .skipped, _ => []
  | .plain, calls => calls

/-- Inside of any blocks, a piece of code makes these calls and leaves the blocks as they are. -/
def Emits (skip : Option (List Char)) (parcel : List Char) (code : Code) (calls : List WireCall) :
    Prop :=
  ∀ blocks ≠ [], ∀ rest, Block.calls skip parcel blocks (Code.rows code ++ rest) =
    Block.within blocks calls ++ Block.calls skip parcel blocks rest

/-- A head opens a block and calls parcel functions. -/
def Opens (skip : Option (List Char)) (parcel : List Char) (head : String) (block : Block)
    (callees : List Callee) : Prop :=
  ∃ row, rows (head ++ " \x7b").toList = [row] ∧ Block.closes row = false ∧
    Block.opened? skip row = some block ∧ Callee.inRow parcel row = callees

variable {skip : Option (List Char)} {parcel : List Char}

namespace Block

@[simp] theorem within_nil (blocks : List Block) : within blocks [] = [] := by
  simp [within]

theorem within_append (blocks : List Block) (first second : List WireCall) :
    within blocks (first ++ second) = within blocks first ++ within blocks second := by
  unfold within
  split
  · rfl
  · exact List.map_append

/-- One more block keeps what it keeps of calls. -/
theorem within_cons (block : Block) (blocks : List Block) (calls : List WireCall) :
    within (block :: blocks) calls = within blocks (around block calls) := by
  cases block with
  | loop =>
      have raised : WireCall.inside (blocks.count .loop) ∘ WireCall.inside 1 =
          WireCall.inside (blocks.count .loop + 1) :=
        funext fun call => by simp [WireCall.inside, Nat.add_assoc, Nat.add_comm 1]
      simp [within, around, raised]
  | skipped => simp [within, around]
  | plain => simp [within, around]

/-- What a row calls that stands inside of blocks. -/
theorem calls_of_row {blocks : List Block} (nonempty : blocks ≠ []) {row : List CodeLexeme}
    (open_ : closes row = false) (rest : List (List CodeLexeme)) :
    calls skip parcel blocks (row :: rest) =
      within blocks (WireCall.ofCallees (Callee.inRow parcel row)) ++
        calls skip parcel ((opened? skip row).toList ++ blocks) rest := by
  have raised : WireCall.inside (blocks.count .loop) ∘ (fun callee => (⟨callee, 0⟩ : WireCall)) =
      fun callee => ⟨callee, blocks.count .loop⟩ :=
    funext fun callee => by simp [WireCall.inside]
  simp only [calls, open_, Bool.false_eq_true, if_false, nonempty, false_or, within,
    WireCall.ofCallees, List.map_map, raised]

/-- The row that closes a block calls nothing. -/
theorem calls_of_closing (block : Block) (blocks : List Block) (rest : List (List CodeLexeme)) :
    calls skip parcel (block :: blocks) ([.sign '\x7d'] :: rest) =
      calls skip parcel blocks rest := by
  simp [calls, closes, opened?, Callee.inRow, Application.inRow]

end Block

namespace Emits

theorem nil : Emits skip parcel [] [] := by
  intro blocks _ rest
  simp [Code.rows]

theorem append {first second : Code} {early late : List WireCall}
    (isFirst : Emits skip parcel first early) (isSecond : Emits skip parcel second late) :
    Emits skip parcel (first ++ second) (early ++ late) := by
  intro blocks nonempty rest
  rw [Code.rows_append, List.append_assoc, isFirst blocks nonempty, isSecond blocks nonempty,
    Block.within_append, List.append_assoc]

/-- Code with the same rows makes the same calls. -/
theorem of_rows {code other : Code} {calls : List WireCall}
    (same : Code.rows code = Code.rows other) (emits : Emits skip parcel other calls) :
    Emits skip parcel code calls := by
  intro blocks nonempty rest
  rw [same]
  exact emits blocks nonempty rest

theorem flatMap {α : Type} {items : List α} {code : α → Code} {calls : α → List WireCall}
    (each : ∀ item ∈ items, Emits skip parcel (code item) (calls item)) :
    Emits skip parcel (items.flatMap code) (items.flatMap calls) := by
  induction items with
  | nil => exact nil
  | cons item rest ih =>
      simp only [List.flatMap_cons]
      exact (each item (by simp)).append (ih fun other listed => each other (by simp [listed]))

theorem when {condition : Bool} {code : Code} {calls : List WireCall}
    (emits : Emits skip parcel code calls) :
    Emits skip parcel (Code.when condition code) (if condition then calls else []) := by
  cases condition with
  | false => exact nil
  | true => exact emits

theorem blank : Emits skip parcel Code.blank [] := of_rows rfl nil

theorem append_quiet {first second : Code} {calls : List WireCall}
    (isFirst : Emits skip parcel first calls) (isSecond : Emits skip parcel second []) :
    Emits skip parcel (first ++ second) calls := by
  have both := isFirst.append isSecond
  rwa [List.append_nil] at both

theorem quiet_append {first second : Code} {calls : List WireCall}
    (isFirst : Emits skip parcel first []) (isSecond : Emits skip parcel second calls) :
    Emits skip parcel (first ++ second) calls :=
  isFirst.append isSecond

/-- The empty line behind a piece of code calls nothing. -/
theorem paragraphs_cons {piece : Code} {pieces : List Code} {own others : List WireCall}
    (isPiece : Emits skip parcel piece own)
    (isRest : Emits skip parcel (Code.paragraphs pieces) others) :
    Emits skip parcel (Code.paragraphs (piece :: pieces)) (own ++ others) := by
  rw [Code.paragraphs, List.flatMap_cons]
  refine append ?_ isRest
  cases piece with
  | nil => exact isPiece
  | cons step steps => exact isPiece.append_quiet blank

theorem paragraphs_singleton {piece : Code} {calls : List WireCall}
    (isPiece : Emits skip parcel piece calls) :
    Emits skip parcel (Code.paragraphs [piece]) calls := by
  have none : Emits skip parcel (Code.paragraphs []) [] := nil
  have all := paragraphs_cons isPiece none
  rwa [List.append_nil] at all

theorem paragraphs_quiet_cons {piece : Code} {pieces : List Code} {calls : List WireCall}
    (isPiece : Emits skip parcel piece [])
    (isRest : Emits skip parcel (Code.paragraphs pieces) calls) :
    Emits skip parcel (Code.paragraphs (piece :: pieces)) calls :=
  paragraphs_cons isPiece isRest

theorem paragraphs_append {first second : List Code} {early late : List WireCall}
    (isFirst : Emits skip parcel (Code.paragraphs first) early)
    (isSecond : Emits skip parcel (Code.paragraphs second) late) :
    Emits skip parcel (Code.paragraphs (first ++ second)) (early ++ late) := by
  rw [Code.paragraphs, List.flatMap_append]
  exact isFirst.append isSecond

theorem paragraphs_map {α : Type} {items : List α} {code : α → Code} {calls : α → List WireCall}
    (each : ∀ item ∈ items, Emits skip parcel (code item) (calls item)) :
    Emits skip parcel (Code.paragraphs (items.map code)) (items.flatMap calls) := by
  induction items with
  | nil => exact nil
  | cons item rest ih =>
      exact paragraphs_cons (each item (by simp)) (ih fun other listed => each other (by simp [listed]))

/-- Pieces of code that are rendered one by one. -/
theorem paragraphs_mapM {α : Type} {items : List α} {render : α → Emit Code} {pieces : List Code}
    {calls : α → List WireCall} (rendered : items.mapM render = .ok pieces)
    (each : ∀ item ∈ items, ∀ piece, render item = .ok piece →
      Emits skip parcel piece (calls item)) :
    Emits skip parcel (Code.paragraphs pieces) (items.flatMap calls) := by
  induction items generalizing pieces with
  | nil =>
      cases rendered
      exact nil
  | cons item rest ih =>
      rw [List.mapM_cons] at rendered
      obtain ⟨piece, isPiece, rendered⟩ := Emit.bind_eq_ok.mp rendered
      obtain ⟨others, areOthers, last⟩ := Emit.bind_eq_ok.mp rendered
      cases last
      exact paragraphs_cons (each item (by simp) piece isPiece)
        (ih areOthers fun other listed => each other (by simp [listed]))

/-- A row that neither opens nor closes a block. -/
theorem of_row {text : String} {row : List CodeLexeme} (single : rows text.toList = [row])
    (stays : Block.closes row = false) (opensNothing : Block.opened? skip row = none) :
    Emits skip parcel (Code.line text) (WireCall.ofCallees (Callee.inRow parcel row)) := by
  intro blocks nonempty rest
  simp only [Code.line, Code.rows, CodeStep.rows, single, List.append_nil, List.singleton_append,
    Block.calls_of_row nonempty stays, opensNothing]
  rfl

/-- A line without blocks calls what its text tells. -/
theorem line {text : String} {callees : List Callee} (told : Tells parcel text callees) :
    Emits skip parcel (Code.line text) (WireCall.ofCallees callees) := by
  have apart : ∀ sign, tames sign = false → CodeLexeme.sign sign ∉ ofLine text.toList :=
    fun sign wild => told.tame.sign_not_mem_ofLine wild
  have single := rows_of_oneLine (@Tame.not_mem _ told.tame '\n' rfl)
  rw [← told.callees_eq, ← Callee.inRow_ofLine]
  by_cases empty : ofLine text.toList = []
  · rw [empty]
    exact of_rows (by simp [Code.line, Code.rows, CodeStep.rows, single, empty]) nil
  · have stays : Block.closes (ofLine text.toList) = false := by
      simp only [Block.closes, beq_eq_false_iff_ne]
      exact fun first => apart '\x7d' rfl (List.mem_of_mem_head? first)
    have opensNothing : Block.opened? skip (ofLine text.toList) = none :=
      if_neg fun last => apart '\x7b' rfl (List.mem_of_getLast? last)
    refine of_row ?_ stays opensNothing
    rw [single, List.filter_cons_of_pos (by simpa using empty), List.filter_nil]

theorem lines {texts : List String} (each : ∀ text ∈ texts, Tells parcel text []) :
    Emits skip parcel (Code.lines texts) [] := by
  induction texts with
  | nil => exact nil
  | cons text rest ih =>
      exact (line (each text (by simp))).append (ih fun other listed => each other (by simp [listed]))

/-- A block makes the calls of its head, and the calls of its body as often as it runs. -/
theorem braced {head : String} {block : Block} {callees : List Callee} {body : Code}
    {calls : List WireCall} (opens : Opens skip parcel head block callees)
    (emits : Emits skip parcel body calls) :
    Emits skip parcel (Code.braced head body)
      (WireCall.ofCallees callees ++ Block.around block calls) := by
  obtain ⟨row, single, stays, opened, told⟩ := opens
  have closing : rows ("\x7d" ++ "").toList = [[.sign '\x7d']] := by decide
  intro blocks nonempty rest
  have listed : Code.rows (Code.braced head body) ++ rest =
      row :: (Code.rows body ++ ([.sign '\x7d'] :: rest)) := by
    simp only [Code.braced, Code.bracedWith, Code.rows_append, Code.rows, CodeStep.rows, single,
      closing]
    simp
  rw [listed, Block.calls_of_row nonempty stays, opened, told, Option.toList_some,
    List.singleton_append, emits _ (by simp), Block.calls_of_closing, Block.within_append,
    Block.within_cons, List.append_assoc]

/-- Code in the two branches of a condition. -/
theorem bracedElse {head : String} {callees : List Callee} {first second : Code}
    {early late : List WireCall} (opens : Opens skip parcel head .plain callees)
    (isFirst : Emits skip parcel first early) (isSecond : Emits skip parcel second late) :
    Emits skip parcel (Code.bracedTwice head first "else" second)
      (WireCall.ofCallees callees ++ early ++ late) := by
  obtain ⟨row, single, stays, opened, told⟩ := opens
  let middle : List CodeLexeme :=
    [.sign '\x7d', .sign ' ', .run ['e', 'l', 's', 'e'], .sign ' ', .sign '\x7b']
  have closing : rows "\x7d".toList = [[.sign '\x7d']] := by decide
  have reopening : rows ("\x7d " ++ "else" ++ " \x7b").toList = [middle] := by decide
  intro blocks nonempty rest
  have listed : Code.rows (Code.bracedTwice head first "else" second) ++ rest =
      row :: (Code.rows first ++ (middle :: (Code.rows second ++ ([.sign '\x7d'] :: rest)))) := by
    simp only [Code.bracedTwice, Code.rows_append, Code.rows, CodeStep.rows, single, closing,
      reopening]
    simp
  have between : ∀ others, Block.calls skip parcel (.plain :: blocks) (middle :: others) =
      Block.calls skip parcel (.plain :: blocks) others := by
    intro others
    simp [middle, Block.calls, Block.closes, Block.opened?, Callee.inRow, Application.inRow,
      Application.atRun, Application.argument?]
  rw [listed, Block.calls_of_row nonempty stays, opened, told, Option.toList_some,
    List.singleton_append, isFirst _ (by simp), between, isSecond _ (by simp),
    Block.calls_of_closing, Block.within_append, Block.within_append, Block.within_cons,
    Block.within_cons]
  simp [Block.around]

theorem label {name : String} (told : Tells parcel (name ++ ":") []) :
    Emits skip parcel (Code.label name) [] :=
  of_rows rfl (line told)

/-- Messages are string literals, so only what stands behind them can call something. -/
theorem logged {message arguments : String} (unquoted : '"' ∉ message.toList)
    (oneLine : '\n' ∉ message.toList) (told : Tells parcel arguments []) :
    Emits skip parcel (Code.line ("HDF_LOGE(\"" ++ message ++ "\", " ++ arguments ++ ");")) [] := by
  let row : List CodeLexeme := .run ['H', 'D', 'F', '_', 'L', 'O', 'G', 'E'] :: .sign '(' ::
    .sign '"' :: .sign '"' :: .sign ',' :: .sign ' ' ::
      (lexFrom false arguments.toList ++ .sign ')' :: [.sign ';'])
  have apart := @Tame.not_mem _ told.tame '"' rfl
  have single := @Tame.not_mem _ told.tame '\n' rfl
  have lexed : ofLine ("HDF_LOGE(\"" ++ message ++ "\", " ++ arguments ++ ");").toList = row := by
    simp +decide [ofLine, lexFrom_literal unquoted, lexFrom_append_closing apart, row]
  have rows_eq : rows ("HDF_LOGE(\"" ++ message ++ "\", " ++ arguments ++ ");").toList = [row] := by
    rw [rows_of_oneLine (by simp [oneLine, single]), lexed]
    rfl
  have calls : Callee.inRow parcel row = [] := by
    have behind : Callee.inRow parcel (lexFrom false arguments.toList ++ .sign ')' :: [.sign ';']) = [] := by
      rw [Callee.inRow_append_sign (by decide), told.callees_eq]
      rfl
    simp +decide [row, behind]
  have stays : Block.opened? skip row = none :=
    if_neg (by simp [row, List.getLast?_cons])
  have emits := @of_row skip parcel _ row rows_eq rfl stays
  rwa [calls] at emits

theorem logError {message : String} (tame : Tame message) :
    Emits skip parcel (Code.logError message) [] := by
  have told : Tells parcel "__func__" [] := tells_iff.mpr (by simp +decide)
  have spelled : "HDF_LOGE(\"%\x7bpublic\x7ds: " ++ message ++ "\", __func__);" =
      "HDF_LOGE(\"" ++ ("%\x7bpublic\x7ds: " ++ message) ++ "\", " ++ "__func__" ++ ");" := by
    apply String.toList_injective
    simp
  rw [Code.logError, spelled]
  exact logged (by simp [@Tame.not_mem _ tame '"' rfl]) (by simp [@Tame.not_mem _ tame '\n' rfl]) told

/-- A variable that is declared with its members. -/
theorem initialized {first declared members : String} (isRun : IsRun first)
    (phrase : IsPhrase declared) (isMembers : members = "" ∨ IsRun members) :
    Emits skip parcel
      (Code.line (first ++ " " ++ declared ++ " = \x7b" ++ members ++ "\x7d;")) [] := by
  have isDeclared := phrase.tame
  obtain ⟨front, last, undotted, calm, quiet, lexed⟩ := phrase
  let inner : List CodeLexeme := if members = "" then [] else [.run members.toList]
  let row : List CodeLexeme := .run first.toList :: .sign ' ' :: (front ++ .run last :: .sign ' ' ::
    .run ['='] :: .sign ' ' :: .sign '\x7b' :: (inner ++ [.sign '\x7d', .sign ';']))
  have tame : Tame (first ++ " " ++ declared ++ " = ") ∧ Tame members := by
    rcases isMembers with rfl | isMember
    · simp +decide [isRun, isDeclared]
    · simp +decide [isRun, isDeclared, isMember]
  have oneLine : '\n' ∉ (first ++ " " ++ declared ++ " = \x7b" ++ members ++ "\x7d;").toList := by
    have outside := @Tame.not_mem _ tame.1 '\n' rfl
    have inside := @Tame.not_mem _ tame.2 '\n' rfl
    simp_all
  have body : lexFrom false (members.toList ++ ['\x7d', ';']) =
      inner ++ [.sign '\x7d', .sign ';'] := by
    rcases isMembers with rfl | isMember
    · simp [inner]
    · have nonempty : members ≠ "" := by
        rintro rfl
        exact isMember.1 rfl
      simp [inner, nonempty, isMember]
  have spelled : (first ++ " " ++ declared ++ " = \x7b" ++ members ++ "\x7d;").toList =
      first.toList ++ ' ' :: (declared.toList ++ ' ' :: '=' :: ' ' :: '\x7b' ::
        (members.toList ++ ['\x7d', ';'])) := by
    simp
  have rows_eq : rows (first ++ " " ++ declared ++ " = \x7b" ++ members ++ "\x7d;").toList =
      [row] := by
    rw [rows_of_oneLine oneLine, spelled, isRun.ofLine_append]
    simp +decide [isRun, lexed, body, row]
  have calls : Callee.inRow parcel row = [] := by
    have ending : Callee.inRow parcel (inner ++ [.sign '\x7d', .sign ';']) = [] := by
      rcases isMembers with rfl | isMember
      · rfl
      · simp only [inner]
        split <;> simp +decide [isMember]
    simp +decide [row, isRun, quiet, undotted, ending]
  have stays : Block.opened? skip row = none :=
    if_neg (by simp [row, List.getLast?_cons, List.getLast?_append])
  have emits := @of_row skip parcel _ row rows_eq rfl stays
  rwa [calls] at emits

end Emits

section Heads

variable {condition : String} {callees : List Callee}

/-- The row of a head with a condition between parentheses. -/
def headRow (word : List Char) (condition : String) : List CodeLexeme :=
  .run word :: .sign ' ' :: .sign '(' ::
    (lexFrom false condition.toList ++ .sign ')' :: [.sign ' ', .sign '\x7b'])

/-- The condition of a block is the variable whose block is left out. -/
def Skips (skip : Option (List Char)) (condition : String) : Prop :=
  ∃ flag ∈ skip, [.run flag, .sign ')'] <+:
    lexFrom false condition.toList ++ .sign ')' :: [.sign ' ', .sign '\x7b']

instance (condition : String) : Decidable (Skips skip condition) :=
  inferInstanceAs (Decidable (∃ _, _))

theorem not_skips_none (condition : String) : ¬Skips none condition := by
  rintro ⟨flag, impossible, -⟩
  cases impossible

theorem getLast?_headRow (word : List Char) (condition : String) :
    (headRow word condition).getLast? = some (.sign '\x7b') := by
  simp [headRow, List.getLast?_cons]

theorem opens_of_headRow {head word : String} {block : Block} (isRun : IsRun word)
    (spelled : head.toList = word.toList ++ ' ' :: '(' :: (condition.toList ++ [')']))
    (told : Tells parcel condition callees)
    (opened : Block.opened? skip (headRow word.toList condition) = some block) :
    Opens skip parcel head block callees := by
  have unquoted := @Tame.not_mem _ told.tame '"' rfl
  have oneLine := @Tame.not_mem _ told.tame '\n' rfl
  have inWord := @Tame.not_mem _ isRun.tame '\n' rfl
  have lexed : ofLine (head ++ " \x7b").toList = headRow word.toList condition := by
    have wholeLine : (head ++ " \x7b").toList =
        word.toList ++ ' ' :: '(' :: (condition.toList ++ ')' :: [' ', '\x7b']) := by
      simp [spelled]
    rw [wholeLine, isRun.ofLine_append, isRun.lexFrom_append, lexFrom_blank, lexFrom_opening,
      lexFrom_append_sign unquoted rfl]
    rfl
  refine ⟨headRow word.toList condition, ?_, rfl, opened, ?_⟩
  · rw [rows_of_oneLine (by simp [spelled, oneLine, inWord]), lexed]
    rfl
  · have split : Callee.inRow parcel
        (lexFrom false condition.toList ++ .sign ')' :: [.sign ' ', .sign '\x7b']) =
          Callee.inRow parcel (lexFrom false condition.toList) ++ [] :=
      Callee.inRow_append_sign (by decide) _ _
    rw [headRow, Callee.inRow_run_sign isRun.undotted (by decide), Callee.inRow_sign, split,
      List.append_nil, told.callees_eq]

theorem opened?_headRow (word : List Char) (condition : String) :
    Block.opened? skip (headRow word condition) = some (
      if word = ['f', 'o', 'r'] then .loop
      else if word = ['i', 'f'] ∧ Skips skip condition then .skipped else .plain) :=
  if_pos (getLast?_headRow word condition)

theorem Opens.if_spelled {head : String} (told : Tells parcel condition callees)
    (unskipped : ¬Skips skip condition)
    (spelled : head.toList = 'i' :: 'f' :: ' ' :: '(' :: (condition.toList ++ [')'])) :
    Opens skip parcel head .plain callees := by
  apply opens_of_headRow (by decide : IsRun "if") (by simp [spelled]) told
  simp [opened?_headRow, unskipped]

theorem Opens.if (told : Tells parcel condition callees) (unskipped : ¬Skips skip condition) :
    Opens skip parcel s!"if ({condition})" .plain callees :=
  .if_spelled told unskipped (by simp [toString])

/-- The block of the variable whose block is left out. -/
theorem Opens.skipped {flag : String} (isRun : IsRun flag) :
    Opens (some flag.toList) parcel s!"if ({flag})" .skipped [] := by
  have told : Tells parcel flag [] := tells_iff.mpr (by simp [isRun])
  have skipped : Skips (some flag.toList) flag := by
    simp [Skips, isRun]
  apply opens_of_headRow (by decide : IsRun "if") (by simp [toString]) told
  simp [opened?_headRow, skipped]

theorem Opens.for {head : String}
    (spelled : head.toList = 'f' :: 'o' :: 'r' :: ' ' :: '(' :: (condition.toList ++ [')']))
    (told : Tells parcel condition callees) : Opens skip parcel head .loop callees := by
  apply opens_of_headRow (by decide : IsRun "for") (by simp [spelled]) told
  simp [opened?_headRow]

end Heads

namespace Emits

theorem branch {condition : String} {callees : List Callee} {statements : List String}
    (told : Tells parcel condition callees) (unskipped : ¬Skips skip condition)
    (quiet : ∀ statement ∈ statements, Tells parcel statement []) :
    Emits skip parcel (Code.branch condition statements) (WireCall.ofCallees callees) := by
  have both := braced (.if told unskipped) (lines quiet)
  rwa [Block.around, List.append_nil] at both

theorem refusal {condition message : String} {callees : List Callee} {statements : List String}
    (told : Tells parcel condition callees) (unskipped : ¬Skips skip condition)
    (tame : Tame message) (quiet : ∀ statement ∈ statements, Tells parcel statement []) :
    Emits skip parcel (Code.refusal condition message statements) (WireCall.ofCallees callees) := by
  have both := braced (.if told unskipped) ((logError tame).append (lines quiet))
  rwa [Block.around, List.append_nil, List.append_nil] at both

end Emits

/-- Rows in front of a function call nothing. -/
theorem calls_of_signature {signature : List String} (tame : ∀ text ∈ signature, Tame text)
    (rest : List (List CodeLexeme)) :
    Block.calls skip parcel [] (Code.rows (Code.lines signature) ++ rest) =
      Block.calls skip parcel [] rest := by
  induction signature with
  | nil => rfl
  | cons text others ih =>
      have isTame := tame text (by simp)
      have single := rows_of_oneLine (@Tame.not_mem _ isTame '\n' rfl)
      have opensNothing : Block.opened? skip (ofLine text.toList) = none := if_neg fun last =>
        @Tame.sign_not_mem_ofLine _ isTame '\x7b' rfl (List.mem_of_getLast? last)
      have shown : Code.rows (Code.lines (text :: others)) ++ rest =
          [ofLine text.toList].filter (· ≠ []) ++ (Code.rows (Code.lines others) ++ rest) := by
        simp only [Code.lines, List.map_cons, Code.rows, CodeStep.rows, single, List.append_assoc]
      rw [shown, ← ih fun other listed => tame other (by simp [listed])]
      by_cases empty : ofLine text.toList = []
      · simp [empty]
      · simp [empty, Block.calls, opensNothing]

/-- What the text of a function calls is what its body emits. -/
theorem wireCalls_function {skip : Option String} {parcel : String} {signature : List String}
    {body : Code} {calls : List WireCall} (tame : ∀ text ∈ signature, Tame text)
    (emits : Emits (skip.map String.toList) parcel.toList body calls) :
    wireCalls skip parcel (Code.text (Code.function signature body)) = calls := by
  have opening : rows "\x7b".toList = [[.sign '\x7b']] := by decide
  have closing : rows "\x7d".toList = [[.sign '\x7d']] := by decide
  have listed : Code.rows (Code.function signature body) = Code.rows (Code.lines signature) ++
      ([.sign '\x7b'] :: (Code.rows body ++ [[.sign '\x7d']])) := by
    simp only [Code.function, Code.rows_append, Code.rows, CodeStep.rows, opening, closing]
    simp
  have unraised : WireCall.inside 0 = id := rfl
  have opened : ∀ rest, Block.calls (skip.map String.toList) parcel.toList [] ([.sign '\x7b'] :: rest) =
      Block.calls (skip.map String.toList) parcel.toList [.plain] rest := by
    intro rest
    simp [Block.calls, Block.closes, Block.opened?]
  rw [wireCalls, Code.rows_text, listed, calls_of_signature tame, opened, emits _ (by simp),
    Block.calls_of_closing]
  simp [Block.within, unraised, Block.calls]

example : wireCalls none "data" (Code.text (Code.function ["bool F(struct HdfSBuf *data)"]
    (Code.braced "for (i = 0; i < n; i++)"
      (Code.branch "!HdfSbufWriteInt32(data, x[i])" ["return false;"])))) =
    [⟨.plain "Int32".toList, 1⟩] := by decide +kernel

end Emits

end DriverIdl
