import Mathlib.Data.List.TakeDrop
import PluginSandbox.Proofs.Language.Lexed
import PluginSandbox.Proofs.Language.Pieces

/-!
# The lexer loses nothing

`Content` lists what a stretch of a source text can be, and `Content.Stands` says, without the lexer, which characters
are such a stretch in front of which others: a run of white space that goes as far as it can, a comment up to the first
mark that closes it, a literal up to its closing quote, and so on.  Every piece that the lexer cuts is such a stretch
(`Lexer.exists_holds`), and the pieces are chained, each one beginning where the one in front of it ends
(`Lexer.Chained`).  A place in one piece therefore lies in no other, so that what is reported at the start of a piece
can be counted there.

`Lexed.accounts_ofSource` puts this together for the tokens and errors of a text.
-/

namespace PluginSandbox

/-! ## What a text consists of -/

/-- The characters of a string literal behind its opening quote, the text that they stand for if the literal is closed,
and the characters behind it. -/
inductive LiteralTail : List Char → Option (List Char) → List Char → Prop
  | closed (rest : List Char) : LiteralTail ['"'] (some []) rest
  | lineBreak (rest : List Char) : LiteralTail ['\n'] none rest
  | endOfText : LiteralTail [] none []
  | endInEscape : LiteralTail ['\\'] none []
  | plain {c : Char} {chars rest : List Char} {value : Option (List Char)} : c ≠ '"' → c ≠ '\\' → c ≠ '\n' →
      LiteralTail chars value rest → LiteralTail (c :: chars) (value.map (c :: ·)) rest
  | escape {c e : Char} {chars rest : List Char} {value : Option (List Char)} : (c, e) ∈ escapes →
      LiteralTail chars value rest → LiteralTail ('\\' :: c :: chars) (value.map (e :: ·)) rest
  | unknownEscape {c : Char} {chars rest : List Char} {value : Option (List Char)} : (∀ e, (c, e) ∉ escapes) →
      LiteralTail chars value rest → LiteralTail ('\\' :: c :: chars) value rest

/-- What a stretch of a text is: white space, a comment, a token, or what is wrong with it.  An integer is a token of
its own kind, given by its digits. -/
inductive Content where
  | space
  | comment
  | openComment
  | token (kind : TokenKind) (text : List Char)
  | integer (digits : List Char)
  | unexpected (c : Char)
  | openString

namespace Content

/-- The value of the digits of an integer, between which there may be underscores. -/
def value (digits : List Char) : Nat :=
  Nat.ofDigitChars 10 (digits.filter fun c => c != '_') 0

/-- The token of a stretch that begins at a place. -/
def token? (p : Position) : Content → Option Token
  | .token kind text => some ⟨kind, String.ofList text, p⟩
  | .integer digits =>
    some ⟨.integer (if value digits < 1 <<< 63 then Int64.ofNat (value digits) else 0), String.ofList digits, p⟩
  | _ => none

/-- What is wrong with a stretch as a whole. -/
def problem? : Content → Option SyntaxProblem
  | .openComment => some .unterminatedComment
  | .integer digits => if value digits < 1 <<< 63 then none else some (.integerOutOfRange (String.ofList digits))
  | .unexpected c => some (.unexpectedCharacter c)
  | .openString => some .unterminatedString
  | _ => none

/-- Some characters, and those behind them, are a stretch of a text: as long as it can be, unless it is closed. -/
inductive Stands : Content → List Char → List Char → Prop
  | space {c : Char} {chars rest : List Char} : (∀ d ∈ c :: chars, isBlank d = true) →
      (∀ d ∈ rest.head?, isBlank d = false) → Stands .space (c :: chars) rest
  | line {body rest : List Char} : '\n' ∉ body → (∀ d ∈ rest.head?, d = '\n') →
      Stands .comment ('/' :: '/' :: body) rest
  | block {body : List Char} (rest : List Char) : ¬ ['*', '/'] <:+: body →
      Stands .comment ('/' :: '*' :: (body ++ ['*', '/'])) rest
  | openBlock {body : List Char} : ¬ ['*', '/'] <:+: body → Stands .openComment ('/' :: '*' :: body) []
  | keyword {word rest : List Char} {kind : TokenKind} : (String.ofList word, kind) ∈ keywords →
      (∀ d ∈ rest.head?, isIdentifierRest d = false) → Stands (.token kind word) word rest
  | identifier {word rest : List Char} : isIdentifierChars word = true →
      (∀ k ∈ keywords, k.1 ≠ String.ofList word) → (∀ d ∈ rest.head?, isIdentifierRest d = false) →
      Stands (.token .identifier word) word rest
  | mark {text rest : List Char} {kind : TokenKind} : (text, kind) ∈ marks →
      (∀ other ∈ marks, other.1 <+: text ++ rest → other.1.length ≤ text.length) →
      ¬ ['/', '/'] <+: text ++ rest → ¬ ['/', '*'] <+: text ++ rest → Stands (.token kind text) text rest
  | string {chars value rest : List Char} : LiteralTail chars (some value) rest →
      Stands (.token .stringLiteral value) ('"' :: chars) rest
  | integer {c : Char} {digits rest : List Char} : c.isDigit = true →
      (∀ d ∈ digits, d.isDigit = true ∨ d = '_') → (∀ d ∈ rest.head?, d.isDigit = false ∧ d ≠ '_') →
      Stands (.integer (c :: digits)) (c :: digits) rest
  | unexpected {c : Char} {rest : List Char} : isBlank c = false → isIdentifierRest c = false → c ≠ '"' →
      (∀ mark ∈ marks, ¬ mark.1 <+: c :: rest) → Stands (.unexpected c) [c] rest
  | openString {chars rest : List Char} : LiteralTail chars none rest → Stands .openString ('"' :: chars) rest

end Content

/-! ## Places in order -/

namespace Position

/-- A place stands in front of another one. -/
def Before (p q : Position) : Prop :=
  p.line < q.line ∨ (p.line = q.line ∧ p.column < q.column)

theorem Before.trans {p q r : Position} (h : p.Before q) (h' : q.Before r) : p.Before r := by
  unfold Before at *
  omega

theorem Before.ne {p q : Position} (h : p.Before q) : p ≠ q := by
  rintro rfl
  unfold Before at h
  omega

theorem Before.trans_not {p q r : Position} (h : p.Before q) (h' : ¬ r.Before q) : p.Before r := by
  unfold Before at *
  omega

theorem not_before_self (p : Position) : ¬ p.Before p := by
  unfold Before
  omega

theorem before_next (p : Position) (c : Char) : p.Before (p.next c) := by
  rw [next]
  split
  · exact .inl (Nat.lt_succ_self _)
  · exact .inr ⟨rfl, Nat.lt_succ_self _⟩

theorem not_after_before (p : Position) (chars : List Char) : ¬ (p.after chars).Before p := by
  induction chars generalizing p with
  | nil => exact p.not_before_self
  | cons c chars ih =>
    intro h
    exact ih (p.next c) (h.trans (p.before_next c))

theorem before_after (p : Position) {chars : List Char} (h : chars ≠ []) : p.Before (p.after chars) := by
  cases chars with
  | nil => exact absurd rfl h
  | cons c chars => exact (p.before_next c).trans_not (not_after_before (p.next c) chars)

/-- One column back from behind two characters is not in front of the first of them. -/
theorem one_back (p : Position) (c : Char) :
    ¬ (⟨((p.next '\\').next c).line, ((p.next '\\').next c).column - 1⟩ : Position).Before p ∧
      (⟨((p.next '\\').next c).line, ((p.next '\\').next c).column - 1⟩ : Position).Before
        ((p.next '\\').next c) := by
  have hback : p.next '\\' = ⟨p.line, p.column + 1⟩ := rfl
  rw [hback, next]
  split <;> simp [Before]

theorem after_append (p : Position) (chars more : List Char) : p.after (chars ++ more) = (p.after chars).after more :=
  List.foldl_append

end Position

/-! ## What a piece is -/

/-- A piece holds some content, and what is wrong with it as a whole is reported at its start.  Anything else that is
reported in it is an unknown escape further inside. -/
structure Piece.Holds (piece : Piece) (content : Content) (rest : List Char) : Prop where
  stands : content.Stands piece.chars rest
  token : piece.token = content.token? piece.start
  reported : piece.errors.filter (fun e => e.position = piece.start) =
    content.problem?.toList.map (⟨·, piece.start⟩)
  inside : ∀ e ∈ piece.errors, e.position = piece.start ∨
    ((∃ c, e.problem = .unknownEscape c) ∧ piece.start.Before e.position ∧
      e.position.Before (piece.start.after piece.chars))

/-- A piece in which nothing is reported but what is wrong with it as a whole. -/
theorem Piece.holds_of_errors {piece : Piece} {content : Content} {rest : List Char}
    (hstands : content.Stands piece.chars rest) (htoken : piece.token = content.token? piece.start)
    (herrors : piece.errors = content.problem?.toList.map (⟨·, piece.start⟩)) : piece.Holds content rest := by
  have hposition : ∀ e ∈ piece.errors, e.position = piece.start := by
    rw [herrors]
    simp
  refine ⟨hstands, htoken, ?_, fun e he => .inl (hposition e he)⟩
  rw [List.filter_eq_self.2 fun e he => decide_eq_true (hposition e he), herrors]

namespace Lexer

theorem head?_dropWhile_eq {test : Char → Bool} {rest : List Char} {d : Char}
    (h : d ∈ (rest.dropWhile test).head?) : test d = false := by
  have hdrop := List.head?_dropWhile_not test rest
  rw [Option.mem_def.1 h] at hdrop
  simpa using hdrop

/-- A string literal that has been read ends in one of the ways in which literals end. -/
theorem literalTail_stringTail (p : Position) (input chars value : List Char) (errors : List SyntaxError) :
    ∃ read text, LiteralTail read text (stringTail p input chars value errors).rest ∧
      (stringTail p input chars value errors).chars = chars.reverse ++ read ∧
      (stringTail p input chars value errors).value = text.map (value.reverse ++ ·) ∧
      ∀ e ∈ (stringTail p input chars value errors).errors, e ∈ errors ∨
        ((∃ c, e.problem = .unknownEscape c) ∧ ¬ e.position.Before p ∧ e.position.Before (p.after read)) := by
  fun_induction stringTail p input chars value errors with
  | case1 p chars value errors =>
    exact ⟨[], none, .endOfText, by simp, rfl, fun e he => .inl (List.mem_reverse.1 he)⟩
  | case2 p rest chars value errors =>
    exact ⟨['"'], some [], .closed rest, by simp, by simp, fun e he => .inl (List.mem_reverse.1 he)⟩
  | case3 p rest chars value errors =>
    exact ⟨['\n'], none, .lineBreak rest, by simp, rfl, fun e he => .inl (List.mem_reverse.1 he)⟩
  | case4 p chars value errors =>
    exact ⟨['\\'], none, .endInEscape, by simp, rfl, fun e he => .inl (List.mem_reverse.1 he)⟩
  | case5 p c rest chars value errors p' e hescape ih =>
    obtain ⟨read, text, htail, hchars, hvalue, herrors⟩ := ih
    refine ⟨_, _, .escape (escape?_eq_some.1 hescape) htail, by simp [hchars], ?_, fun e he => ?_⟩
    · rw [hvalue]
      cases text <;> simp
    · refine (herrors e he).imp_right (And.imp_right (And.imp_left fun hp hbefore => hp ?_))
      exact (hbefore.trans (p.before_next _)).trans ((p.next _).before_next c)
  | case6 p c rest chars value errors p' hescape ih =>
    obtain ⟨read, text, htail, hchars, hvalue, herrors⟩ := ih
    have hnone : ∀ e, (c, e) ∉ escapes := fun e he => by simp [escape?_eq_some.2 he] at hescape
    have hp' : p.Before p' := (p.before_next _).trans ((p.next _).before_next c)
    refine ⟨_, _, .unknownEscape hnone htail, by simp [hchars], hvalue, fun e he => ?_⟩
    rcases herrors e he with he | ⟨hproblem, hbehind, hread⟩
    · rcases List.mem_cons.1 he with rfl | he
      · obtain ⟨hfront, hback⟩ := p.one_back c
        exact .inr ⟨⟨c, rfl⟩, hfront, hback.trans_not (p'.not_after_before read)⟩
      · exact .inl he
    · exact .inr ⟨hproblem, fun hbefore => hbehind (hbefore.trans hp'), hread⟩
  | case7 p c rest chars value errors hquote hbreak hlast hback ih =>
    obtain ⟨read, text, htail, hchars, hvalue, herrors⟩ := ih
    refine ⟨_, _, .plain hquote ?_ hbreak htail, by simp [hchars], ?_, fun e he => ?_⟩
    · rintro rfl
      cases rest with
      | nil => exact hlast rfl rfl
      | cons d rest => exact hback d rest rfl rfl
    · rw [hvalue]
      cases text <;> simp
    · exact (herrors e he).imp_right (And.imp_right (And.imp_left fun hp hbefore =>
        hp (hbefore.trans (p.before_next c))))

/-- A comment goes on to the first mark that closes it, or to the end of the text. -/
theorem commentTail_cases (input read : List Char) :
    (∃ body rest, ¬ ['*', '/'] <:+: body ∧ input = body ++ '*' :: '/' :: rest ∧
      commentTail input read = (read.reverse ++ (body ++ ['*', '/']), true, rest)) ∨
    (¬ ['*', '/'] <:+: input ∧ commentTail input read = (read.reverse ++ input, false, [])) := by
  fun_induction commentTail input read with
  | case1 read => exact .inr ⟨by simp, by simp⟩
  | case2 rest read => exact .inl ⟨[], rest, by simp, rfl, by simp⟩
  | case3 c rest read hclose ih =>
    -- a mark that closes the comment does not begin here
    have hcons : ∀ {body : List Char}, body <+: rest → ¬ ['*', '/'] <:+: body → ¬ ['*', '/'] <:+: c :: body := by
      rintro body ⟨more, rfl⟩ hinfix h
      rcases List.infix_cons_iff.1 h with h | h
      · obtain ⟨rfl, tail, rfl⟩ := List.cons_prefix_cons.1 h
        exact hclose (tail ++ more) rfl rfl
      · exact hinfix h
    obtain ⟨body, rest', hbody, hrest, htail⟩ | ⟨hrest, htail⟩ := ih
    · refine .inl ⟨c :: body, rest', hcons ⟨_, hrest.symm⟩ hbody, by rw [hrest, List.cons_append], ?_⟩
      rw [htail]
      simp
    · refine .inr ⟨hcons List.prefix_rfl hrest, ?_⟩
      rw [htail]
      simp

/-! ## Every piece -/

theorem exists_holds_quote (p : Position) (rest : List Char) :
    ∃ content, (pieceAt p '"' rest).1.Holds content (pieceAt p '"' rest).2 := by
  rw [pieceAt_quote]
  obtain ⟨read, text, htail, hchars, hvalue, herrors⟩ := literalTail_stringTail (p.next '"') rest [] [] []
  generalize stringTail (p.next '"') rest [] [] [] = tail at htail hchars hvalue herrors ⊢
  rw [List.reverse_nil, List.nil_append] at hchars
  -- everything that is reported inside stands behind the quote
  have hinside : ∀ e ∈ tail.errors, (∃ c, e.problem = .unknownEscape c) ∧ p.Before e.position ∧
      e.position.Before (p.after ('"' :: tail.chars)) := by
    intro e he
    obtain he | ⟨hproblem, hfront, hback⟩ := herrors e he
    · exact absurd he List.not_mem_nil
    · exact ⟨hproblem, (p.before_next _).trans_not hfront, hchars ▸ hback⟩
  have hnone : tail.errors.filter (fun e => e.position = p) = [] :=
    List.filter_eq_nil_iff.2 fun e he => by simpa using (hinside e he).2.1.ne.symm
  rw [stringPiece]
  cases text with
  | some text =>
    have hvalue' : tail.value = some text := by simpa using hvalue
    refine ⟨.token .stringLiteral text, ?_⟩
    rw [hvalue']
    exact ⟨.string (hchars ▸ htail), rfl, hnone, fun e he => .inr (hinside e he)⟩
  | none =>
    have hvalue' : tail.value = none := by simpa using hvalue
    refine ⟨.openString, ?_⟩
    rw [hvalue']
    refine ⟨.openString (hchars ▸ htail), rfl, ?_, fun e he => ?_⟩
    · rw [List.filter_append, hnone]
      simp [Content.problem?]
    · rcases List.mem_append.1 he with he | he
      · exact .inr (hinside e he)
      · obtain rfl := List.mem_singleton.1 he
        exact .inl rfl

/-- The marks that some characters may begin with. -/
theorem mem_marks_of_begins {mark : List Char × TokenKind} (hmark : mark ∈ marks) {c : Char} {rest : List Char}
    (h : mark.1 <+: c :: rest) :
    (mark.1 = [c] ∧ single? c = some mark.2) ∨ ∃ d ∈ rest.head?, mark.1 = [c, d] ∧ double? c d = some mark.2 := by
  obtain ⟨text, kind⟩ := mark
  obtain ⟨more, hmore⟩ := h
  obtain hlength | hlength := length_of_mem_marks _ hmark
  · obtain ⟨c', rfl⟩ := List.length_eq_one_iff.1 hlength
    obtain ⟨rfl, rfl⟩ := List.cons.inj hmore
    exact .inl ⟨rfl, single?_eq_some.2 hmark⟩
  · obtain ⟨c', d, rfl⟩ := List.length_eq_two.1 hlength
    obtain ⟨rfl, rfl⟩ := List.cons.inj hmore
    exact .inr ⟨d, rfl, rfl, double?_eq_some.2 hmark⟩

theorem exists_holds_mark (p : Position) {c : Char} {rest : List Char} (hblank : isBlank c = false) (hquote : c ≠ '"')
    (hword : isIdentifierRest c = false)
    (hcomment : c = '/' → rest.head? ≠ some '/' ∧ rest.head? ≠ some '*') :
    ∃ content, (pieceAt p c rest).1.Holds content (pieceAt p c rest).2 := by
  rw [pieceAt_mark p hblank hquote hword hcomment]
  have hline : ¬ ['/', '/'] <+: c :: rest := by
    rintro ⟨more, hmore⟩
    obtain ⟨rfl, rfl⟩ := List.cons.inj hmore
    exact (hcomment rfl).1 rfl
  have hblock : ¬ ['/', '*'] <+: c :: rest := by
    rintro ⟨more, hmore⟩
    obtain ⟨rfl, rfl⟩ := List.cons.inj hmore
    exact (hcomment rfl).2 rfl
  obtain ⟨d, more, kind, rfl, hdouble, hpiece⟩ | ⟨hnone, hpiece⟩ := markPiece_cases p c rest
  · rw [hpiece]
    refine ⟨.token kind [c, d], Piece.holds_of_errors (.mark (double?_eq_some.1 hdouble) ?_ hline hblock) rfl rfl⟩
    intro other hother _
    have hlength := length_of_mem_marks other hother
    show other.1.length ≤ 2
    omega
  · rw [hpiece]
    have hbegins : ∀ other ∈ marks, other.1 <+: c :: rest → other.1 = [c] ∧ single? c = some other.2 := by
      intro other hother h
      refine (mem_marks_of_begins hother h).resolve_right ?_
      rintro ⟨d, hd, _, hdouble⟩
      rw [hnone d hd] at hdouble
      exact absurd hdouble (by simp)
    cases hsingle : single? c with
    | some kind =>
      rw [oneMark_some p hsingle]
      refine ⟨.token kind [c], Piece.holds_of_errors (.mark (single?_eq_some.1 hsingle) ?_ hline hblock) rfl rfl⟩
      intro other hother h
      rw [(hbegins other hother h).1]
    | none =>
      rw [oneMark_none p hsingle]
      refine ⟨.unexpected c, Piece.holds_of_errors (.unexpected hblank hword hquote ?_) rfl rfl⟩
      intro other hother h
      have hsome := (hbegins other hother h).2
      rw [hsingle] at hsome
      exact absurd hsome (by simp)

theorem exists_holds_integer (p : Position) {c : Char} (h : c.isDigit = true) (rest : List Char) :
    ∃ content, (pieceAt p c rest).1.Holds content (pieceAt p c rest).2 := by
  rw [pieceAt_digit p h]
  have hstands : (Content.integer (c :: rest.takeWhile isIntegerRest)).Stands (c :: rest.takeWhile isIntegerRest)
      (rest.dropWhile isIntegerRest) := by
    refine .integer h (fun d hd => ?_) fun d hd => ?_
    · simpa [isIntegerRest] using List.mem_takeWhile_imp hd
    · simpa [isIntegerRest] using head?_dropWhile_eq hd
  generalize c :: rest.takeWhile isIntegerRest = digits at hstands ⊢
  have hvalue : digitsValue (digits.filter fun c => c != '_') = Content.value digits := rfl
  refine ⟨.integer digits, ?_⟩
  by_cases hfits : Content.value digits < 1 <<< 63
  · have hpiece : integerPiece p digits =
        tokenPiece p (.integer (Int64.ofNat (Content.value digits))) digits := by
      rw [integerPiece, hvalue]
      exact if_pos hfits
    rw [hpiece]
    refine Piece.holds_of_errors hstands ?_ ?_
    · rw [Content.token?, if_pos hfits]
      rfl
    · rw [Content.problem?, if_pos hfits]
      rfl
  · have hpiece : integerPiece p digits = { tokenPiece p (.integer 0) digits with
        errors := [⟨.integerOutOfRange (String.ofList digits), p⟩] } := by
      rw [integerPiece, hvalue]
      exact if_neg hfits
    rw [hpiece]
    refine Piece.holds_of_errors hstands ?_ ?_
    · rw [Content.token?, if_neg hfits]
      rfl
    · rw [Content.problem?, if_neg hfits]
      rfl

theorem exists_holds_word (p : Position) {c : Char} (h : isIdentifierStart c = true) (rest : List Char) :
    ∃ content, (pieceAt p c rest).1.Holds content (pieceAt p c rest).2 := by
  rw [pieceAt_word p h]
  have hrest : ∀ d ∈ (rest.dropWhile isIdentifierRest).head?, isIdentifierRest d = false :=
    fun d hd => head?_dropWhile_eq hd
  have hname : isIdentifierChars (c :: rest.takeWhile isIdentifierRest) = true := by
    rw [isIdentifierChars, h, List.all_takeWhile]
    rfl
  generalize c :: rest.takeWhile isIdentifierRest = word at hname ⊢
  rw [TokenKind.ofWord]
  cases hfind : keywords.find? fun k => k.1 = String.ofList word with
  | none =>
    refine ⟨.token .identifier word, Piece.holds_of_errors (.identifier hname (fun k hk hword => ?_) hrest) rfl rfl⟩
    simpa [hword] using List.find?_eq_none.1 hfind k hk
  | some k =>
    have hword : k.1 = String.ofList word := by simpa using List.find?_some hfind
    have hkeyword : (String.ofList word, k.2) ∈ keywords := hword ▸ List.mem_of_find?_eq_some hfind
    exact ⟨.token k.2 word, Piece.holds_of_errors (.keyword hkeyword hrest) rfl rfl⟩

/-- Every piece holds what its characters are. -/
theorem exists_holds (p : Position) (c : Char) (rest : List Char) :
    ∃ content, (pieceAt p c rest).1.Holds content (pieceAt p c rest).2 := by
  cases beginning c rest with
  | blank h =>
    rw [pieceAt_blank p h]
    refine ⟨.space, Piece.holds_of_errors (.space ?_ fun d hd => head?_dropWhile_eq hd) rfl rfl⟩
    exact List.forall_mem_cons.2 ⟨h, fun d hd => List.mem_takeWhile_imp hd⟩
  | line rest =>
    rw [pieceAt_line]
    refine ⟨.comment, Piece.holds_of_errors (.line ?_ fun d hd => ?_) rfl rfl⟩
    · intro hbreak
      exact absurd (List.mem_takeWhile_imp hbreak) (by decide)
    · simpa using head?_dropWhile_eq hd
  | block rest =>
    rw [pieceAt_block]
    obtain ⟨body, rest', hbody, hrest, htail⟩ | ⟨hrest, htail⟩ := commentTail_cases rest []
    · rw [htail]
      exact ⟨.comment, Piece.holds_of_errors (.block rest' hbody) rfl rfl⟩
    · rw [htail]
      exact ⟨.openComment, Piece.holds_of_errors (.openBlock hrest) rfl rfl⟩
  | quote rest => exact exists_holds_quote p rest
  | digit h => exact exists_holds_integer p h rest
  | word h => exact exists_holds_word p h rest
  | mark hblank hquote hword hcomment => exact exists_holds_mark p hblank hquote hword hcomment

/-! ## All pieces of a text -/

/-- Each piece begins where the one in front of it ends, the first one at a place. -/
def Chained : Position → List Piece → Prop
  | _, [] => True
  | p, piece :: pieces => piece.start = p ∧ piece.chars ≠ [] ∧ Chained (p.after piece.chars) pieces

theorem Cuts.chained {p : Position} {chars : List Char} {pieces : List Piece} (h : Cuts p chars pieces) :
    Chained p pieces := by
  induction h with
  | nil p => trivial
  | @cons p c rest pieces _ ih => exact ⟨start_pieceAt p c rest, chars_pieceAt_ne_nil p c rest, ih⟩

theorem chained_append {p : Position} {pieces more : List Piece} :
    Chained p (pieces ++ more) ↔ Chained p pieces ∧ Chained (p.after (pieces.flatMap Piece.chars)) more := by
  induction pieces generalizing p with
  | nil => simp [Chained]
  | cons piece pieces ih =>
    rw [List.cons_append, Chained, Chained, ih, List.flatMap_cons, Position.after_append, and_assoc, and_assoc]

/-- The pieces of some characters make them up. -/
theorem Cuts.flatMap_chars {p : Position} {chars : List Char} {pieces : List Piece} (h : Cuts p chars pieces) :
    pieces.flatMap Piece.chars = chars := by
  induction h with
  | nil p => rfl
  | @cons p c rest pieces _ ih => rw [List.flatMap_cons, ih, chars_pieceAt]

/-- Every piece holds some content in front of the pieces that follow. -/
theorem Cuts.exists_holds {p : Position} {chars : List Char} {before behind : List Piece} {piece : Piece}
    (h : Cuts p chars (before ++ piece :: behind)) :
    ∃ content : Content, piece.Holds content (behind.flatMap Piece.chars) := by
  induction before generalizing p chars with
  | nil =>
    cases h with
    | @cons p c rest _ hrest =>
      rw [hrest.flatMap_chars]
      exact Lexer.exists_holds p c rest
  | cons first before ih =>
    cases h with
    | cons hrest => exact ih hrest

/-- Places in a chain of pieces stand between its two ends. -/
theorem Chained.bounds {p : Position} {pieces : List Piece} (h : Chained p pieces) {piece : Piece}
    (hpiece : piece ∈ pieces) {q : Position} (hstart : ¬ q.Before piece.start)
    (hend : q.Before (piece.start.after piece.chars)) :
    ¬ q.Before p ∧ q.Before (p.after (pieces.flatMap Piece.chars)) := by
  induction pieces generalizing p with
  | nil => exact absurd hpiece List.not_mem_nil
  | cons first pieces ih =>
    obtain ⟨rfl, hne, hrest⟩ := h
    rw [List.flatMap_cons, Position.after_append]
    rcases List.mem_cons.1 hpiece with rfl | hpiece
    · exact ⟨hstart, hend.trans_not (Position.not_after_before _ _)⟩
    · obtain ⟨hfront, hback⟩ := ih hrest hpiece
      exact ⟨fun hbefore => hfront (hbefore.trans (Position.before_after _ hne)), hback⟩

theorem Chained.ne_nil {p : Position} {pieces : List Piece} (h : Chained p pieces) :
    ∀ piece ∈ pieces, piece.chars ≠ [] := by
  induction pieces generalizing p with
  | nil => exact fun _ h => absurd h List.not_mem_nil
  | cons first pieces ih => exact List.forall_mem_cons.2 ⟨h.2.1, ih h.2.2⟩

theorem Chained.bounds_start {p : Position} {pieces : List Piece} (h : Chained p pieces) {piece : Piece}
    (hpiece : piece ∈ pieces) :
    ¬ piece.start.Before p ∧ piece.start.Before (p.after (pieces.flatMap Piece.chars)) :=
  h.bounds hpiece (Position.not_before_self _) (Position.before_after _ (h.ne_nil piece hpiece))

/-- The tokens of a chain of pieces stand one behind the other. -/
theorem Chained.pairwise {p : Position} {pieces : List Piece} (h : Chained p pieces)
    (hstart : ∀ piece ∈ pieces, ∀ t, piece.token = some t → t.position = piece.start) :
    (pieces.filterMap Piece.token).Pairwise fun t u => t.position.Before u.position := by
  induction pieces generalizing p with
  | nil => exact List.Pairwise.nil
  | cons piece pieces ih =>
    obtain ⟨rfl, hne, hrest⟩ := h
    obtain ⟨hpiece, hmore⟩ := List.forall_mem_cons.1 hstart
    rw [List.filterMap_cons]
    cases htoken : piece.token with
    | none => exact ih hrest hmore
    | some t =>
      refine List.pairwise_cons.2 ⟨fun u hu => ?_, ih hrest hmore⟩
      obtain ⟨other, hother, hu⟩ := List.mem_filterMap.1 hu
      rw [hpiece t htoken, hmore other hother u hu]
      exact (Position.before_after _ hne).trans_not (hrest.bounds_start hother).1

end Lexer

namespace Content

variable {content : Content} {chars rest : List Char} {p : Position} {t : Token}

theorem position_token? (h : content.token? p = some t) : t.position = p := by
  cases content <;> simp only [token?, Option.some.injEq, reduceCtorEq] at h
  all_goals
    obtain rfl := h
    rfl

/-- The text of a token is what stands there, string literals apart. -/
theorem Stands.text_token? (h : content.Stands chars rest) (ht : content.token? p = some t)
    (hkind : t.kind ≠ .stringLiteral) : t.text.toList = chars := by
  cases h with
  | keyword | identifier | mark | integer =>
    obtain rfl := Option.some.inj ht
    exact String.toList_ofList
  | string =>
    obtain rfl := Option.some.inj ht
    exact absurd rfl hkind
  | _ => exact absurd ht (by simp [token?])

/-- Only an integer has the kind of integers. -/
theorem Stands.eq_integer (h : content.Stands chars rest) (ht : content.token? p = some t) {n : Int64}
    (hkind : t.kind = .integer n) : content = .integer chars := by
  have hkeywords : ∀ k ∈ keywords, k.2.text ≠ (TokenKind.integer 0).text := by decide
  have hmarks : ∀ mark ∈ marks, mark.2.text ≠ (TokenKind.integer 0).text := by decide
  cases h with
  | keyword hword =>
    obtain rfl := Option.some.inj ht
    exact absurd (congrArg TokenKind.text hkind) (hkeywords _ hword)
  | mark hmark =>
    obtain rfl := Option.some.inj ht
    exact absurd (congrArg TokenKind.text hkind) (hmarks _ hmark)
  | identifier | string =>
    obtain rfl := Option.some.inj ht
    exact absurd hkind (by simp)
  | integer => rfl
  | _ => exact absurd ht (by simp [token?])

end Content

/-! ## Source texts -/

/-- The tokens and errors that some pieces give account for every character of a text. -/
structure Lexed.Accounts (lexed : Lexed) (pieces : List Piece) (text : List Char) : Prop where
  /-- The pieces make up the text. -/
  chars : pieces.flatMap Piece.chars = text
  /-- Each piece starts at the place of its first character and holds some content.  What is wrong with it as a whole is
  reported at its start, once, and nothing else is reported there. -/
  piece : ∀ before piece behind, pieces = before ++ piece :: behind →
    piece.start = Position.behind (before.flatMap Piece.chars) ∧
      ∃ content : Content, content.Stands piece.chars (behind.flatMap Piece.chars) ∧
        piece.token = content.token? piece.start ∧
        lexed.errors.filter (fun e => e.position = piece.start) = content.problem?.toList.map (⟨·, piece.start⟩)
  /-- Only unknown escapes are reported elsewhere. -/
  elsewhere : ∀ e ∈ lexed.errors, (∀ piece ∈ pieces, e.position ≠ piece.start) → ∃ c, e.problem = .unknownEscape c
  /-- The tokens are those of the pieces, in order, and the end of the input behind them. -/
  stream : lexed.stream = pieces.filterMap Piece.token ++ [⟨.endOfInput, "", Position.behind text⟩]
  /-- The end of the input comes once. -/
  endOfInput : ∀ t ∈ lexed.tokens, t.kind ≠ .endOfInput
  /-- Each token stands behind the one in front of it. -/
  increasing : lexed.stream.Pairwise fun t u => t.position.Before u.position
  /-- A token stands at the place of its first character, and its text is what stands there, string literals apart. -/
  text : ∀ t ∈ lexed.stream, ∃ before rest, text = before ++ rest ∧ t.position = Position.behind before ∧
    (t.kind ≠ .stringLiteral → t.text.toList <+: rest)
  /-- An integer has the value of its digits, if that is not too great; else its value is zero, and that it is too great
  is reported at its place, once. -/
  integer : ∀ t ∈ lexed.tokens, ∀ n, t.kind = .integer n →
    if Content.value t.text.toList < 1 <<< 63 then
      n.toInt = Content.value t.text.toList ∧ lexed.errors.filter (fun e => e.position = t.position) = []
    else
      n = 0 ∧ lexed.errors.filter (fun e => e.position = t.position) =
        [⟨.integerOutOfRange t.text, t.position⟩]

namespace Lexer

variable {text : List Char} {pieces : List Piece}

theorem Cuts.holds_of_mem {p : Position} (h : Cuts p text pieces) {piece : Piece} (hpiece : piece ∈ pieces) :
    ∃ content rest, piece.Holds content rest := by
  obtain ⟨before, behind, rfl⟩ := List.append_of_mem hpiece
  obtain ⟨content, hholds⟩ := h.exists_holds
  exact ⟨content, _, hholds⟩

/-- What is reported in a piece lies in it. -/
theorem Cuts.bounds_error {p : Position} (h : Cuts p text pieces) {piece : Piece} (hpiece : piece ∈ pieces)
    {e : SyntaxError} (he : e ∈ piece.errors) :
    ¬ e.position.Before piece.start ∧ e.position.Before (piece.start.after piece.chars) := by
  obtain ⟨content, rest, hholds⟩ := h.holds_of_mem hpiece
  obtain hstart | ⟨_, hfront, hback⟩ := hholds.inside e he
  · rw [hstart]
    exact ⟨Position.not_before_self _, Position.before_after _ (h.chained.ne_nil piece hpiece)⟩
  · exact ⟨fun hbefore => (hbefore.trans hfront).ne rfl, hback⟩

/-- What is reported at the start of a piece is reported in that piece. -/
theorem Cuts.filter_errors {before behind : List Piece} {piece : Piece}
    (h : Cuts .first text (before ++ piece :: behind)) :
    ((before ++ piece :: behind).flatMap Piece.errors).filter (fun e => e.position = piece.start) =
      piece.errors.filter fun e => e.position = piece.start := by
  obtain ⟨hbefore, hstart, hne, hbehind⟩ := chained_append.1 h.chained
  have hfront : before.flatMap (fun other => other.errors.filter fun e => e.position = piece.start) = [] := by
    refine List.flatMap_eq_nil_iff.2 fun other hother => List.filter_eq_nil_iff.2 fun e he => ?_
    obtain ⟨hlow, hhigh⟩ := h.bounds_error (List.mem_append_left _ hother) he
    have hbound := (hbefore.bounds hother hlow hhigh).2
    rw [← hstart] at hbound
    simpa using hbound.ne
  have hback : behind.flatMap (fun other => other.errors.filter fun e => e.position = piece.start) = [] := by
    refine List.flatMap_eq_nil_iff.2 fun other hother => List.filter_eq_nil_iff.2 fun e he => ?_
    obtain ⟨hlow, hhigh⟩ := h.bounds_error (List.mem_append_right _ (List.mem_cons_of_mem _ hother)) he
    have hbound := (hbehind.bounds hother hlow hhigh).1
    rw [← hstart] at hbound
    simpa using ((Position.before_after _ hne).trans_not hbound).ne.symm
  rw [List.filter_flatMap, List.flatMap_append, List.flatMap_cons, hfront, hback, List.nil_append, List.append_nil]

end Lexer

namespace Lexed

variable (source : String)

/-- A token comes from a piece. -/
theorem exists_piece {t : Token} (ht : t ∈ (ofSource source).tokens) :
    ∃ before piece behind, Lexer.pieces source = before ++ piece :: behind ∧ piece.token = some t := by
  obtain ⟨piece, hpiece, htoken⟩ := List.mem_filterMap.1 ht
  obtain ⟨before, behind, hpieces⟩ := List.append_of_mem hpiece
  exact ⟨before, piece, behind, hpieces, htoken⟩

theorem stop_ofSource : (ofSource source).stop = Position.behind source.toList :=
  (Position.behind_append [] source.toList).symm

/-- What a piece is, where it starts, and what is reported there. -/
theorem piece_ofSource {before behind : List Piece} {piece : Piece}
    (hpieces : Lexer.pieces source = before ++ piece :: behind) :
    piece.start = Position.behind (before.flatMap Piece.chars) ∧
      ∃ content : Content, content.Stands piece.chars (behind.flatMap Piece.chars) ∧
        piece.token = content.token? piece.start ∧
        (ofSource source).errors.filter (fun e => e.position = piece.start) =
          content.problem?.toList.map (⟨·, piece.start⟩) := by
  have hcuts := Lexer.cuts_pieces source
  rw [hpieces] at hcuts
  obtain ⟨_, hstart, _⟩ := Lexer.chained_append.1 hcuts.chained
  obtain ⟨content, hholds⟩ := hcuts.exists_holds
  refine ⟨hstart.trans (Position.behind_append [] _).symm, content, hholds.stands, hholds.token, ?_⟩
  show ((Lexer.pieces source).flatMap Piece.errors).filter _ = _
  rw [hpieces, hcuts.filter_errors, hholds.reported]

theorem stream_ofSource : (ofSource source).stream =
    (Lexer.pieces source).filterMap Piece.token ++ [⟨.endOfInput, "", Position.behind source.toList⟩] := by
  rw [stream, endToken, stop_ofSource]
  rfl

theorem position_of_piece {piece : Piece} (hpiece : piece ∈ Lexer.pieces source) {t : Token}
    (ht : piece.token = some t) : t.position = piece.start := by
  obtain ⟨content, rest, hholds⟩ := (Lexer.cuts_pieces source).holds_of_mem hpiece
  exact Content.position_token? (hholds.token ▸ ht)

/-- Each token stands behind the one in front of it, and the end of the input behind all of them. -/
theorem pairwise_stream : (ofSource source).stream.Pairwise fun t u => t.position.Before u.position := by
  have hcuts := Lexer.cuts_pieces source
  have htokens := hcuts.chained.pairwise fun piece hpiece t ht => position_of_piece source hpiece ht
  rw [stream_ofSource]
  refine List.pairwise_append.2 ⟨htokens, List.pairwise_singleton _ _, fun t ht u hu => ?_⟩
  obtain rfl := List.mem_singleton.1 hu
  obtain ⟨piece, hpiece, htoken⟩ := List.mem_filterMap.1 ht
  have hbound := (hcuts.chained.bounds_start hpiece).2
  rw [hcuts.flatMap_chars] at hbound
  rw [position_of_piece source hpiece htoken, ← stop_ofSource]
  exact hbound

/-- A token stands where its text does. -/
theorem text_of_mem_stream {t : Token} (ht : t ∈ (ofSource source).stream) :
    ∃ before rest, source.toList = before ++ rest ∧ t.position = Position.behind before ∧
      (t.kind ≠ .stringLiteral → t.text.toList <+: rest) := by
  rw [stream_ofSource] at ht
  rcases List.mem_append.1 ht with ht | ht
  · obtain ⟨before, piece, behind, hpieces, htoken⟩ := exists_piece source ht
    obtain ⟨hstart, content, hstands, hcontent, _⟩ := piece_ofSource source hpieces
    rw [htoken] at hcontent
    refine ⟨before.flatMap Piece.chars, piece.chars ++ behind.flatMap Piece.chars, ?_, ?_, fun hkind => ?_⟩
    · rw [← (Lexer.cuts_pieces source).flatMap_chars, hpieces, List.flatMap_append, List.flatMap_cons]
    · rw [Content.position_token? hcontent.symm, hstart]
    · rw [hstands.text_token? hcontent.symm hkind]
      exact List.prefix_append _ _
  · obtain rfl := List.mem_singleton.1 ht
    exact ⟨source.toList, [], (List.append_nil _).symm, rfl, fun _ => List.nil_prefix⟩

/-- An integer has the value of its digits, or is too great, which is reported in its place. -/
theorem integer_of_mem_tokens {t : Token} (ht : t ∈ (ofSource source).tokens) {n : Int64}
    (hkind : t.kind = .integer n) :
    if Content.value t.text.toList < 1 <<< 63 then
      n.toInt = Content.value t.text.toList ∧
        (ofSource source).errors.filter (fun e => e.position = t.position) = []
    else
      n = 0 ∧ (ofSource source).errors.filter (fun e => e.position = t.position) =
        [⟨.integerOutOfRange t.text, t.position⟩] := by
  obtain ⟨before, piece, behind, hpieces, htoken⟩ := exists_piece source ht
  obtain ⟨_, content, hstands, hcontent, hreported⟩ := piece_ofSource source hpieces
  rw [htoken] at hcontent
  have hplace := Content.position_token? hcontent.symm
  have htext := hstands.text_token? hcontent.symm (by simp [hkind])
  obtain rfl := hstands.eq_integer hcontent.symm hkind
  rw [hplace, htext, hreported]
  obtain rfl := Option.some.inj hcontent
  obtain rfl := TokenKind.integer.inj hkind
  by_cases hfits : Content.value piece.chars < 1 <<< 63
  · rw [if_pos hfits, if_pos hfits, Content.problem?, if_pos hfits]
    exact ⟨Int64.toInt_ofNat_of_lt hfits, rfl⟩
  · rw [if_neg hfits, if_neg hfits, Content.problem?, if_neg hfits]
    exact ⟨rfl, rfl⟩

/-- **The lexer loses nothing.**  Whatever a text holds, its pieces are white space, comments, tokens and what is
rejected, and together they make up the text.  Each token stands where it should and says what stands there, and
everything that is rejected is reported once, where it begins. -/
theorem accounts_ofSource : (ofSource source).Accounts (Lexer.pieces source) source.toList := by
  have hcuts := Lexer.cuts_pieces source
  refine
    { chars := hcuts.flatMap_chars
      piece := fun before piece behind => piece_ofSource source
      elsewhere := fun e he hstarts => ?_
      stream := stream_ofSource source
      endOfInput := fun t ht => (names_tokens source t ht).1
      increasing := pairwise_stream source
      text := fun t => text_of_mem_stream source
      integer := fun t ht n => integer_of_mem_tokens source ht }
  obtain ⟨piece, hpiece, he⟩ := List.mem_flatMap.1 he
  obtain ⟨content, rest, hholds⟩ := hcuts.holds_of_mem hpiece
  exact ((hholds.inside e he).resolve_left (hstarts piece hpiece)).1

end Lexed
end PluginSandbox
