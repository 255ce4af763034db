import DriverIdl.Proofs.Parsing.Names
import DriverIdl.Token.Lookahead

/-!
# Lookahead

A lexer reads its text as it is asked to, and a stream holds all tokens of a text from the start.
`Follows` relates the two: what is in the slot of the lexer is the head of the stream.  Every call
keeps the relation, so whatever calls are made, and in whatever order, no token is lost and none is
returned twice.
-/

namespace DriverIdl

namespace TokenStream

/-- The first tokens of a stream, where the end of the text repeats. -/
def first (stream : TokenStream) : Nat → List Token
  | 0 => []
  | count + 1 => stream.head :: stream.tail.first count

/-- The stream without its comments. -/
def uncommented (stream : TokenStream) : TokenStream :=
  { stream with tokens := stream.tokens.filter fun token => !token.isComment }

section Comments

variable {token : Token} {rest : List Token} {finish : Position}

theorem skipComments_comment (isComment : token.isComment = true) :
    skipComments ⟨token :: rest, finish⟩ = skipComments ⟨rest, finish⟩ := by
  simp [skipComments, isComment]

theorem skipComments_other (other : token.isComment = false) :
    skipComments ⟨token :: rest, finish⟩ = ⟨token :: rest, finish⟩ := by
  simp [skipComments, other]

theorem uncommented_comment (isComment : token.isComment = true) :
    uncommented ⟨token :: rest, finish⟩ = uncommented ⟨rest, finish⟩ := by
  simp [uncommented, isComment]

theorem uncommented_other (other : token.isComment = false) :
    uncommented ⟨token :: rest, finish⟩ = ⟨token :: (uncommented ⟨rest, finish⟩).tokens, finish⟩ := by
  simp [uncommented, other]

end Comments

section Skipping

variable {stream : TokenStream}

/-- The end of the text is no comment. -/
theorem skipComments_of_comment (isComment : stream.head.isComment = true) :
    stream.skipComments = stream.tail.skipComments := by
  obtain ⟨tokens, finish⟩ := stream
  cases tokens with
  | nil => cases isComment
  | cons token rest => exact skipComments_comment isComment

theorem skipComments_of_other (other : stream.head.isComment = false) :
    stream.skipComments = stream := by
  obtain ⟨tokens, finish⟩ := stream
  cases tokens with
  | nil => rfl
  | cons token rest => exact skipComments_other other

theorem isComment_head_skipComments (stream : TokenStream) :
    stream.skipComments.head.isComment = false := by
  obtain ⟨tokens, finish⟩ := stream
  induction tokens with
  | nil => rfl
  | cons token rest ih =>
      cases isComment : token.isComment with
      | true => rwa [skipComments_comment isComment]
      | false => rwa [skipComments_other isComment]

/-- Skipping comments leaves out comments at the start, and nothing else. -/
theorem exists_first_eq (stream : TokenStream) :
    ∃ dropped : List Token, (∀ token ∈ dropped, token.isComment = true) ∧
      ∀ count, stream.first (dropped.length + count) = dropped ++ stream.skipComments.first count := by
  obtain ⟨tokens, finish⟩ := stream
  induction tokens with
  | nil => exact ⟨[], by simp, fun count => by rw [List.length_nil, Nat.zero_add]; rfl⟩
  | cons token rest ih =>
      cases isComment : token.isComment with
      | true =>
          obtain ⟨dropped, comments, split⟩ := ih
          refine ⟨token :: dropped, by simpa [isComment] using comments, fun count => ?_⟩
          rw [List.length_cons, Nat.add_right_comm, first, skipComments_comment isComment]
          exact congrArg (token :: ·) (split count)
      | false =>
          refine ⟨[], by simp, fun count => ?_⟩
          rw [skipComments_other isComment, List.length_nil, Nat.zero_add, List.nil_append]

theorem uncommented_eq (stream : TokenStream) :
    stream.uncommented.head = stream.skipComments.head ∧
      stream.uncommented.tail = stream.skipComments.tail.uncommented := by
  obtain ⟨tokens, finish⟩ := stream
  induction tokens with
  | nil => exact ⟨rfl, rfl⟩
  | cons token rest ih =>
      cases isComment : token.isComment with
      | true => rwa [skipComments_comment isComment, uncommented_comment isComment]
      | false =>
          rw [skipComments_other isComment, uncommented_other isComment]
          exact ⟨rfl, rfl⟩

end Skipping

theorem first_of_nil {stream : TokenStream} (ended : stream.tokens = []) (count : Nat) :
    stream.first count = List.replicate count stream.endToken := by
  have stays : stream.tail = stream := by
    rw [tail, ended, List.tail_nil, ← ended]
  induction count with
  | zero => rfl
  | succ count ih => rw [first, stays, ih, head, ended, List.headD_nil, List.replicate_succ]

/-- Behind its tokens a stream goes on with the end of the text. -/
theorem first_eq (stream : TokenStream) (count : Nat) :
    stream.first count = stream.tokens.take count ++
      List.replicate (count - stream.tokens.length) stream.endToken := by
  obtain ⟨tokens, finish⟩ := stream
  induction tokens generalizing count with
  | nil => simp [first_of_nil]
  | cons token rest ih =>
      cases count with
      | zero => simp [first]
      | succ count =>
          rw [first, tail, List.tail_cons, ih]
          simp [head, endToken]

theorem first_uncommented (stream : TokenStream) (count : Nat) :
    ∃ all, stream.uncommented.first count = (stream.first all).filter fun token => !token.isComment := by
  induction count generalizing stream with
  | zero => exact ⟨0, rfl⟩
  | succ count ih =>
      obtain ⟨dropped, comments, split⟩ := exists_first_eq stream
      obtain ⟨all, behind⟩ := ih stream.skipComments.tail
      have kept := isComment_head_skipComments stream
      have none : dropped.filter (fun token => !token.isComment) = [] :=
        List.filter_eq_nil_iff.mpr fun token listed => by simp [comments token listed]
      refine ⟨dropped.length + (all + 1), ?_⟩
      rw [split, first, (uncommented_eq stream).2, behind, first, List.filter_append, none,
        (uncommented_eq stream).1, List.nil_append, List.filter_cons_of_pos (by simp [kept])]

end TokenStream

theorem Token.scanFrom_blank {place : Position} {source : List Char}
    (blank : source.dropWhile Text.isBlank = []) :
    scanFrom place source = ([], place.afterAll source) := by
  rw [scanFrom]
  split
  · rfl
  · rename_i found
    simp [blank] at found

theorem Token.scanFrom_lexeme {place : Position} {source rest : List Char} {first : Char}
    (found : source.dropWhile Text.isBlank = first :: rest) :
    scanFrom place source =
      (⟨(Lexeme.take first rest).1, String.ofList (Lexeme.take first rest).2.1,
          place.afterAll (source.takeWhile Text.isBlank)⟩ ::
        (scanFrom ((place.afterAll (source.takeWhile Text.isBlank)).afterAll
          (Lexeme.take first rest).2.1) (Lexeme.take first rest).2.2).1,
        (scanFrom ((place.afterAll (source.takeWhile Text.isBlank)).afterAll
          (Lexeme.take first rest).2.1) (Lexeme.take first rest).2.2).2) := by
  rw [scanFrom]
  split
  · rename_i blank
    simp [found] at blank
  · rename_i other others same
    obtain ⟨rfl, rfl⟩ : other = first ∧ others = rest := by simpa [found, eq_comm] using same
    rfl

/-- A call of a lexer: taking a token, or looking at it. -/
inductive LexerCall where
  | next (skippingComments : Bool)
  | peek (skippingComments : Bool)
  deriving DecidableEq

namespace Lexer

/-- Carries out a call. -/
def call (lexer : Lexer) : LexerCall → Token × Lexer
  | .next skippingComments => lexer.next skippingComments
  | .peek skippingComments => lexer.peek skippingComments

/-- The lexer behind calls. -/
def after (lexer : Lexer) (calls : List LexerCall) : Lexer :=
  calls.foldl (fun current made => (current.call made).2) lexer

/-- The tokens that calls take, in order. -/
def taken (lexer : Lexer) : List LexerCall → List Token
  | [] => []
  | .next skippingComments :: rest =>
    (lexer.next skippingComments).1 :: (lexer.next skippingComments).2.taken rest
  | .peek skippingComments :: rest => (lexer.peek skippingComments).2.taken rest

/-- All tokens of the text that is still to be read. -/
def unread (lexer : Lexer) : TokenStream :=
  ⟨(Token.scanFrom lexer.place lexer.ahead).1, (Token.scanFrom lexer.place lexer.ahead).2⟩

/-- The lexer goes on with the tokens of the stream.  The first one may be in its slot. -/
def Follows (lexer : Lexer) (stream : TokenStream) : Prop :=
  match lexer.slot with
  | none => lexer.unread = stream
  | some token => token = stream.head ∧ lexer.unread = stream.tail

theorem follows_ofSource (source : String) :
    (ofSource source).Follows (TokenStream.ofSource source) := rfl

/-- Reading a token takes the first one of all that are left. -/
theorem scan_eq (lexer : Lexer) :
    lexer.scan.1 = lexer.unread.head ∧ lexer.scan.2.unread = lexer.unread.tail ∧
      lexer.scan.2.slot = lexer.slot := by
  obtain ⟨ahead, place, slot⟩ := lexer
  cases found : ahead.dropWhile Text.isBlank with
  | nil =>
      have whole : ahead.takeWhile Text.isBlank = ahead := by
        have split := List.takeWhile_append_dropWhile (p := Text.isBlank) (l := ahead)
        rwa [found, List.append_nil] at split
      have unread_eq : unread ⟨ahead, place, slot⟩ = ⟨[], place.afterAll ahead⟩ := by
        rw [unread, Token.scanFrom_blank found]
      have ended : unread ⟨[], place.afterAll ahead, slot⟩ = ⟨[], place.afterAll ahead⟩ := by
        rw [unread, Token.scanFrom_blank rfl]
        rfl
      rw [unread_eq, scan]
      simp only [found, whole, ended]
      exact ⟨rfl, rfl, trivial⟩
  | cons first rest =>
      rw [unread, Token.scanFrom_lexeme found, scan]
      simp only [found]
      exact ⟨rfl, rfl, trivial⟩

section Calls

variable {lexer : Lexer} {stream : TokenStream}

theorem Follows.unread_eq (follows : lexer.Follows stream) (empty : lexer.slot = none) :
    lexer.unread = stream := by
  rwa [Follows, empty] at follows

/-- What is taken is the head of the stream, and the slot is empty behind it. -/
structure Steps (taken : Token × Lexer) (head : Token × TokenStream) : Prop where
  token : taken.1 = head.1
  unread : taken.2.unread = head.2
  empty : taken.2.slot = none

theorem Steps.behind {taken : Token × Lexer} {head : Token × TokenStream} (steps : Steps taken head) :
    taken.2.Follows head.2 := by
  rw [Follows, steps.empty]
  exact steps.unread

theorem Follows.take (follows : lexer.Follows stream) :
    Steps lexer.take (stream.head, stream.tail) := by
  unfold Lexer.take
  split
  · rename_i token full
    rw [Follows, full] at follows
    exact ⟨follows.1, follows.2, rfl⟩
  · rename_i empty
    obtain ⟨read, behind, kept⟩ := scan_eq lexer
    rw [follows.unread_eq empty] at read behind
    exact ⟨read, behind, kept.trans empty⟩

/-- Nothing is skipped in front of a token that is kept. -/
theorem Follows.ahead_of_kept (follows : lexer.Follows stream) {skippingComments : Bool}
    (kept : ¬(skippingComments = true ∧ lexer.take.1.isComment = true)) :
    (if skippingComments then stream.skipComments else stream) = stream := by
  cases skippingComments with
  | false => rfl
  | true =>
      rw [follows.take.token] at kept
      rw [if_pos rfl, TokenStream.skipComments_of_other (by simpa using kept)]

theorem Follows.next (follows : lexer.Follows stream) (skippingComments : Bool) :
    Steps (lexer.next skippingComments) (stream.next skippingComments) := by
  fun_induction Lexer.next lexer skippingComments generalizing stream with
  | case1 lexer dropped ih =>
      obtain ⟨skipping, isComment⟩ := dropped
      rw [follows.take.token] at isComment
      have same : stream.next skippingComments = stream.tail.next skippingComments := by
        rw [TokenStream.next, TokenStream.next, skipping, if_pos rfl, if_pos rfl,
          TokenStream.skipComments_of_comment isComment]
      rw [same]
      exact ih follows.take.behind
  | case2 lexer kept =>
      have same : stream.next skippingComments = (stream.head, stream.tail) := by
        rw [TokenStream.next, follows.ahead_of_kept kept]
      rw [same]
      exact follows.take

/-- Looking at a token puts it into the slot. -/
theorem Follows.peek (follows : lexer.Follows stream) (skippingComments : Bool) :
    (lexer.peek skippingComments).1 = (stream.peek skippingComments).1 ∧
      (lexer.peek skippingComments).2.Follows (stream.peek skippingComments).2 := by
  -- What is seen is what would be taken, and behind it the text is the same.
  have seen : ∀ {found : Token × Lexer},
      Steps found ((stream.peek skippingComments).1, (stream.peek skippingComments).2.tail) →
      found.1 = (stream.peek skippingComments).1 ∧
        ({ found.2 with slot := some found.1 } : Lexer).Follows (stream.peek skippingComments).2 :=
    fun steps => ⟨steps.token, steps.token, steps.unread⟩
  rw [Lexer.peek]
  by_cases dropped : skippingComments = true ∧ lexer.take.1.isComment = true
  · obtain ⟨rfl, isComment⟩ := dropped
    have again := follows.take.behind.next true
    simp only [isComment, Bool.and_self, if_true]
    apply seen
    rw [follows.take.token] at isComment
    rw [TokenStream.peek, if_pos rfl, TokenStream.skipComments_of_comment isComment]
    exact again
  · have same : stream.peek skippingComments = (stream.head, stream) := by
      rw [TokenStream.peek, follows.ahead_of_kept dropped]
    rw [← Bool.and_eq_true_iff] at dropped
    simp only [if_neg dropped]
    apply seen
    rw [same]
    exact follows.take

/-- Whatever calls are made, the lexer goes on with the tokens of a stream. -/
theorem Follows.after (follows : lexer.Follows stream) (calls : List LexerCall) :
    ∃ ahead, (lexer.after calls).Follows ahead := by
  induction calls generalizing lexer stream with
  | nil => exact ⟨stream, follows⟩
  | cons made rest ih =>
      cases made with
      | next skippingComments => exact ih (follows.next skippingComments).behind
      | peek skippingComments => exact ih (follows.peek skippingComments).2

/-- What is looked at is what is taken next. -/
theorem Follows.next_peek (follows : lexer.Follows stream) (skippingComments : Bool) :
    ((lexer.peek skippingComments).2.next skippingComments).1 =
      (lexer.peek skippingComments).1 := by
  obtain ⟨seen, behind⟩ := follows.peek skippingComments
  rw [(behind.next skippingComments).token, seen]
  cases skippingComments with
  | false => rfl
  | true =>
      have other := stream.isComment_head_skipComments
      change (stream.skipComments.skipComments).head = stream.skipComments.head
      rw [TokenStream.skipComments_of_other other]

theorem Follows.taken_next (follows : lexer.Follows stream) (count : Nat) :
    lexer.taken (List.replicate count (.next false)) = stream.first count := by
  induction count generalizing lexer stream with
  | zero => rfl
  | succ count ih =>
      have step := follows.next false
      rw [List.replicate_succ, taken, TokenStream.first, ih step.behind, step.token]
      rfl

theorem Follows.taken_next_skipping (follows : lexer.Follows stream) (count : Nat) :
    lexer.taken (List.replicate count (.next true)) = stream.uncommented.first count := by
  induction count generalizing lexer stream with
  | zero => rfl
  | succ count ih =>
      have step := follows.next true
      obtain ⟨head_eq, tail_eq⟩ := stream.uncommented_eq
      rw [List.replicate_succ, taken, TokenStream.first, ih step.behind, step.token, head_eq, tail_eq]
      rfl

end Calls

/-- Some of the tokens in order, of which only comments may be left out. -/
structure OmitsComments (kept all : List Token) : Prop where
  sublist : kept.Sublist all
  others : kept.filter (fun token => !token.isComment) = all.filter fun token => !token.isComment

theorem OmitsComments.cons {kept all : List Token} (omits : OmitsComments kept all) (token : Token) :
    OmitsComments (token :: kept) (token :: all) :=
  ⟨omits.sublist.cons_cons token, by rw [List.filter_cons, List.filter_cons, omits.others]⟩

/-- Dropping comments at the start of a stream is no loss. -/
theorem OmitsComments.of_ahead {kept : List Token} {stream : TokenStream} {count : Nat}
    (skippingComments : Bool)
    (omits : OmitsComments kept
      ((if skippingComments then stream.skipComments else stream).first count)) :
    ∃ all, OmitsComments kept (stream.first all) := by
  cases skippingComments with
  | false => exact ⟨count, omits⟩
  | true =>
      obtain ⟨dropped, comments, split⟩ := stream.exists_first_eq
      have none : dropped.filter (fun token => !token.isComment) = [] :=
        List.filter_eq_nil_iff.mpr fun token listed => by simp [comments token listed]
      refine ⟨dropped.length + count, ?_, ?_⟩
      · rw [split]
        exact omits.sublist.trans (List.sublist_append_right _ _)
      · rw [split, List.filter_append, none, List.nil_append]
        exact omits.others

/-- Calls take the tokens of the stream in order, up to some point, and leave out comments only. -/
theorem Follows.omitsComments {lexer : Lexer} {stream : TokenStream}
    (follows : lexer.Follows stream) (calls : List LexerCall) :
    ∃ count, OmitsComments (lexer.taken calls) (stream.first count) := by
  induction calls generalizing lexer stream with
  | nil => exact ⟨0, List.Sublist.refl [], rfl⟩
  | cons made rest ih =>
      cases made with
      | next skippingComments =>
          have step := follows.next skippingComments
          obtain ⟨count, omits⟩ := ih step.behind
          apply @OmitsComments.of_ahead _ _ (count + 1) skippingComments
          rw [taken, step.token]
          exact omits.cons _
      | peek skippingComments =>
          obtain ⟨count, omits⟩ := ih (follows.peek skippingComments).2
          exact omits.of_ahead skippingComments

/-- No call loses or repeats a token.  Taking one token after the other gives all tokens of the text
and then its end forever.  Whatever calls are made, the tokens that they take are these from the
start up to some point, less some comments; what is looked at is what is taken next; and taking past
comments gives all tokens but the comments. -/
theorem lookahead_keeps_tokens (source : String) :
    (∃ tokens : List Token, ∃ finish : Position, (∀ token ∈ tokens, token.kind ≠ .eof) ∧
      ∀ count, (ofSource source).taken (List.replicate count (.next false)) =
        tokens.take count ++ List.replicate (count - tokens.length) ⟨.eof, "", finish⟩) ∧
    (∀ calls, ∃ count, OmitsComments ((ofSource source).taken calls)
      ((ofSource source).taken (List.replicate count (.next false)))) ∧
    (∀ calls skippingComments,
      ((((ofSource source).after calls).peek skippingComments).2.next skippingComments).1 =
        (((ofSource source).after calls).peek skippingComments).1) ∧
    ∀ count, ∃ all, (ofSource source).taken (List.replicate count (.next true)) =
      ((ofSource source).taken (List.replicate all (.next false))).filter fun token =>
        !token.isComment := by
  have follows := follows_ofSource source
  refine ⟨⟨(TokenStream.ofSource source).tokens, (TokenStream.ofSource source).finish, ?_, ?_⟩, ?_, ?_, ?_⟩
  · exact fun token listed => (TokenStream.wellSpelled_ofSource source token listed).notEnd
  · intro count
    rw [follows.taken_next, TokenStream.first_eq]
    rfl
  · intro calls
    obtain ⟨count, omits⟩ := follows.omitsComments calls
    exact ⟨count, follows.taken_next count ▸ omits⟩
  · intro calls skippingComments
    obtain ⟨ahead, behind⟩ := follows.after calls
    exact behind.next_peek skippingComments
  · intro count
    obtain ⟨all, same⟩ := (TokenStream.ofSource source).first_uncommented count
    exact ⟨all, by rw [follows.taken_next_skipping, follows.taken_next, same]⟩

end Lexer

end DriverIdl
