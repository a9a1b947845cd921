import Mathlib.Data.List.TakeDrop
import PluginSandbox.Proofs.Language.Positions

/-!
# How a text is cut into pieces

What a piece begins with decides what it is (`Lexer.Beginning`), and for each way to begin there is an equation that
says how far the piece goes and what it holds.

`Lexer.Cuts` is the way in which some characters are cut, piece after piece, without the bound on their number that the
lexer carries along: `cuts_pieces` says that the pieces of a text are cut in this way, and `Cuts.unique` that there is
no other way.
-/

namespace PluginSandbox
/-! ## Spelling -/

/-- Punctuation and operators. -/
def marks : List (List Char × TokenKind) :=
  [(['{'], .openBrace), (['}'], .closeBrace), (['('], .openParen), ([')'], .closeParen), ([','], .comma),
   ([';'], .semicolon), ([':'], .colon), (['.'], .dot), (['+'], .plus), (['-'], .minus), (['*'], .star),
   (['/'], .slash), (['%'], .percent), (['!'], .bang), (['='], .assign), (['<'], .less), (['>'], .greater),
   (['=', '='], .equal), (['!', '='], .notEqual), (['<', '='], .lessEqual), (['>', '='], .greaterEqual),
   (['&', '&'], .andAnd), (['|', '|'], .orOr)]

/-- The letters that stand for other characters behind a backslash. -/
def escapes : List (Char × Char) :=
  [('n', '\n'), ('t', '\t'), ('"', '"'), ('\\', '\\')]

namespace Lexer

theorem single?_eq_some {c : Char} {kind : TokenKind} : single? c = some kind ↔ ([c], kind) ∈ marks := by
  constructor
  · intro h
    rw [single?.eq_def] at h
    split at h <;> simp_all [marks]
  · intro h
    have hmarks : ∀ mark ∈ marks, mark.1.length = 1 → single? (mark.1.getD 0 ' ') = some mark.2 := by decide
    exact hmarks _ h rfl

theorem double?_eq_some {c d : Char} {kind : TokenKind} : double? c d = some kind ↔ ([c, d], kind) ∈ marks := by
  constructor
  · intro h
    rw [double?.eq_def] at h
    split at h <;> simp_all [marks]
  · intro h
    have hmarks : ∀ mark ∈ marks, mark.1.length = 2 →
      double? (mark.1.getD 0 ' ') (mark.1.getD 1 ' ') = some mark.2 := by decide
    exact hmarks _ h rfl

/-- A mark has one character or two. -/
theorem length_of_mem_marks : ∀ mark ∈ marks, mark.1.length = 1 ∨ mark.1.length = 2 := by
  decide

theorem escape?_eq_some {c e : Char} : escape? c = some e ↔ (c, e) ∈ escapes := by
  rw [escape?]
  split
  · simp_all [escapes, eq_comm]
  split
  · simp_all [escapes, eq_comm]
  split
  · simp_all [escapes, eq_comm]
  split
  · simp_all [escapes, eq_comm]
  · simp_all [escapes]

/-! ## Kinds of characters -/

theorem toNat_of_isDigit {c : Char} (h : c.isDigit = true) : 48 ≤ c.toNat ∧ c.toNat ≤ 57 := by
  simp only [Char.isDigit, Bool.and_eq_true, decide_eq_true_iff, ge_iff_le, UInt32.le_iff_toNat_le] at h
  exact h

theorem toNat_of_isIdentifierStart {c : Char} (h : isIdentifierStart c = true) :
    (65 ≤ c.toNat ∧ c.toNat ≤ 90) ∨ c.toNat = 95 ∨ (97 ≤ c.toNat ∧ c.toNat ≤ 122) := by
  rw [isIdentifierStart] at h
  delta Char.isAlpha Char.isUpper Char.isLower at h
  simp only [Bool.or_eq_true, Bool.and_eq_true, decide_eq_true_iff, beq_iff_eq, ge_iff_le,
    UInt32.le_iff_toNat_le] at h
  rcases h with (h | h) | rfl
  · exact .inl h
  · exact .inr (.inr h)
  · exact .inr (.inl rfl)

/-- Where blank characters lie in ASCII. -/
theorem toNat_of_isBlank {c : Char} (h : isBlank c = true) :
    (9 ≤ c.toNat ∧ c.toNat ≤ 13) ∨ c.toNat = 32 ∨ 128 ≤ c.toNat := by
  simp only [isBlank, blankRanges, List.any_cons, List.any_nil, Bool.or_eq_true, Bool.and_eq_true,
    decide_eq_true_iff, Bool.false_eq_true, or_false] at h
  omega

theorem isIdentifierRest_iff {c : Char} :
    isIdentifierRest c = true ↔ isIdentifierStart c = true ∨ c.isDigit = true := by
  rw [isIdentifierRest, isIdentifierStart, Char.isAlphanum]
  cases c.isAlpha <;> cases c.isDigit <;> simp

theorem isIdentifierRest_of_isBlank {d : Char} (h : isBlank d = true) : isIdentifierRest d = false := by
  rw [← Bool.not_eq_true, isIdentifierRest_iff]
  have hblank := toNat_of_isBlank h
  rintro (hstart | hdigit)
  · have := toNat_of_isIdentifierStart hstart
    omega
  · have := toNat_of_isDigit hdigit
    omega

/-- What a piece begins with decides what kind of piece it is. -/
inductive Beginning : Char → List Char → Prop
  | blank {c : Char} {rest : List Char} : isBlank c = true → Beginning c rest
  | line (rest : List Char) : Beginning '/' ('/' :: rest)
  | block (rest : List Char) : Beginning '/' ('*' :: rest)
  | quote (rest : List Char) : Beginning '"' rest
  | digit {c : Char} {rest : List Char} : c.isDigit = true → Beginning c rest
  | word {c : Char} {rest : List Char} : isIdentifierStart c = true → Beginning c rest
  | mark {c : Char} {rest : List Char} : isBlank c = false → c ≠ '"' → isIdentifierRest c = false →
      (c = '/' → rest.head? ≠ some '/' ∧ rest.head? ≠ some '*') → Beginning c rest

theorem beginning (c : Char) (rest : List Char) : Beginning c rest := by
  by_cases hblank : isBlank c = true
  · exact .blank hblank
  by_cases hquote : c = '"'
  · exact hquote ▸ .quote rest
  by_cases hrest : isIdentifierRest c = true
  · rcases isIdentifierRest_iff.1 hrest with h | h
    · exact .word h
    · exact .digit h
  by_cases hcomment : c = '/' → rest.head? ≠ some '/' ∧ rest.head? ≠ some '*'
  · exact .mark (Bool.not_eq_true _ ▸ hblank) hquote (Bool.not_eq_true _ ▸ hrest) hcomment
  · rw [Classical.not_imp, Classical.not_and_iff_not_or_not, not_not, not_not] at hcomment
    obtain ⟨rfl, h | h⟩ := hcomment
    · obtain ⟨more, rfl⟩ := List.head?_eq_some_iff.1 h
      exact .line more
    · obtain ⟨more, rfl⟩ := List.head?_eq_some_iff.1 h
      exact .block more

/-! ## Pieces -/

variable (p : Position) {c : Char} {rest : List Char}

theorem pieceAt_blank (h : isBlank c = true) (rest : List Char) :
    pieceAt p c rest = (⟨p, c :: rest.takeWhile isBlank, none, []⟩, rest.dropWhile isBlank) := by
  rw [pieceAt, if_pos h, List.span_eq_takeWhile_dropWhile]

theorem pieceAt_line (rest : List Char) :
    pieceAt p '/' ('/' :: rest) =
      (⟨p, '/' :: '/' :: rest.takeWhile (· != '\n'), none, []⟩, rest.dropWhile (· != '\n')) := by
  have hspan : ('/' :: rest).span (fun d => d != '\n') =
      ('/' :: rest.takeWhile (· != '\n'), rest.dropWhile (· != '\n')) := by
    rw [List.span_eq_takeWhile_dropWhile]
    simp
  rw [pieceAt, if_neg (by decide), if_pos (by simp), hspan]

theorem pieceAt_block (rest : List Char) :
    pieceAt p '/' ('*' :: rest) =
      (⟨p, '/' :: '*' :: (commentTail rest []).1, none,
        if (commentTail rest []).2.1 then [] else [⟨.unterminatedComment, p⟩]⟩,
        (commentTail rest []).2.2) := by
  rw [pieceAt, if_neg (by decide), if_neg (by simp), if_pos (by simp)]
  rfl

theorem pieceAt_quote (rest : List Char) :
    pieceAt p '"' rest =
      (stringPiece p (stringTail (p.next '"') rest [] [] []), (stringTail (p.next '"') rest [] [] []).rest) := by
  rw [pieceAt, if_neg (by decide), if_neg (by simp), if_neg (by simp), if_pos rfl]

theorem pieceAt_digit (h : c.isDigit = true) (rest : List Char) :
    pieceAt p c rest =
      (integerPiece p (c :: rest.takeWhile isIntegerRest), rest.dropWhile isIntegerRest) := by
  have hrange := toNat_of_isDigit h
  have hblank : ¬ isBlank c = true := fun h => by have := toNat_of_isBlank h; omega
  have hslash : c ≠ '/' := by rintro rfl; exact absurd hrange (by decide)
  have hquote : c ≠ '"' := by rintro rfl; exact absurd hrange (by decide)
  rw [pieceAt, if_neg hblank, if_neg (by simp [hslash]), if_neg (by simp [hslash]), if_neg hquote, if_pos h,
    List.span_eq_takeWhile_dropWhile]

theorem pieceAt_word (h : isIdentifierStart c = true) (rest : List Char) :
    pieceAt p c rest =
      (tokenPiece p (.ofWord (String.ofList (c :: rest.takeWhile isIdentifierRest)))
        (c :: rest.takeWhile isIdentifierRest), rest.dropWhile isIdentifierRest) := by
  have hrange := toNat_of_isIdentifierStart h
  have hblank : ¬ isBlank c = true := fun h => by have := toNat_of_isBlank h; omega
  have hslash : c ≠ '/' := by rintro rfl; exact absurd hrange (by decide)
  have hquote : c ≠ '"' := by rintro rfl; exact absurd hrange (by decide)
  have hdigit : ¬ c.isDigit = true := fun h => by have := toNat_of_isDigit h; omega
  rw [pieceAt, if_neg hblank, if_neg (by simp [hslash]), if_neg (by simp [hslash]), if_neg hquote, if_neg hdigit,
    if_pos h, List.span_eq_takeWhile_dropWhile]

theorem pieceAt_mark (hblank : isBlank c = false) (hquote : c ≠ '"') (hword : isIdentifierRest c = false)
    (hcomment : c = '/' → rest.head? ≠ some '/' ∧ rest.head? ≠ some '*') :
    pieceAt p c rest = markPiece p c rest := by
  have hstart : ¬ isIdentifierStart c = true := fun h => by simp [isIdentifierRest_iff.2 (.inl h)] at hword
  have hdigit : ¬ c.isDigit = true := fun h => by simp [isIdentifierRest_iff.2 (.inr h)] at hword
  have hline : ¬ (decide (c = '/') && decide (rest.head? = some '/')) = true := by
    simpa using fun h => (hcomment h).1
  have hblock : ¬ (decide (c = '/') && decide (rest.head? = some '*')) = true := by
    simpa using fun h => (hcomment h).2
  rw [pieceAt, if_neg (Bool.not_eq_true _ ▸ hblank), if_neg hline, if_neg hblock, if_neg hquote, if_neg hdigit,
    if_neg hstart]

/-- A piece stands at the place that the lexer has come to. -/
theorem start_pieceAt (c : Char) (rest : List Char) : (pieceAt p c rest).1.start = p := by
  cases beginning c rest with
  | blank h => rw [pieceAt_blank p h]
  | line rest => rw [pieceAt_line]
  | block rest => rw [pieceAt_block]
  | quote rest =>
    rw [pieceAt_quote, stringPiece]
    dsimp only
    split <;> rfl
  | digit h =>
    rw [pieceAt_digit p h, integerPiece]
    dsimp only
    split <;> rfl
  | word h => rw [pieceAt_word p h, tokenPiece]
  | mark hblank hquote hword hcomment =>
    rw [pieceAt_mark p hblank hquote hword hcomment, markPiece.eq_def]
    split
    · split
      · rfl
      · rw [markPiece.oneMark]
        split <;> rfl
    · rw [markPiece.oneMark]
      split <;> rfl

/-- Two characters make a mark together, or the first one stands alone. -/
theorem markPiece_cases (c : Char) (rest : List Char) :
    (∃ d more kind, rest = d :: more ∧ double? c d = some kind ∧
      markPiece p c rest = (tokenPiece p kind [c, d], more)) ∨
    ((∀ d ∈ rest.head?, double? c d = none) ∧ markPiece p c rest = (markPiece.oneMark p c, rest)) := by
  cases rest with
  | nil => exact .inr ⟨by simp, rfl⟩
  | cons d more =>
    rw [markPiece]
    cases hdouble : double? c d with
    | some kind => exact .inl ⟨d, more, kind, rfl, hdouble, rfl⟩
    | none => exact .inr ⟨by simpa using hdouble, rfl⟩

theorem oneMark_some {kind : TokenKind} (h : single? c = some kind) :
    markPiece.oneMark p c = tokenPiece p kind [c] := by
  rw [markPiece.oneMark, h]

theorem oneMark_none (h : single? c = none) :
    markPiece.oneMark p c = ⟨p, [c], none, [⟨.unexpectedCharacter c, p⟩]⟩ := by
  rw [markPiece.oneMark, h]

/-! ## Cutting -/

/-- Some characters, the first of which stands at a place, are cut into pieces. -/
inductive Cuts : Position → List Char → List Piece → Prop
  | nil (p : Position) : Cuts p [] []
  | cons {p : Position} {c : Char} {rest : List Char} {pieces : List Piece} :
      Cuts (p.after (pieceAt p c rest).1.chars) (pieceAt p c rest).2 pieces →
      Cuts p (c :: rest) ((pieceAt p c rest).1 :: pieces)

/-- A piece has a character at least. -/
theorem chars_pieceAt_ne_nil (c : Char) (rest : List Char) : (pieceAt p c rest).1.chars ≠ [] := by
  cases beginning c rest with
  | blank h =>
    rw [pieceAt_blank p h]
    exact List.cons_ne_nil _ _
  | line rest =>
    rw [pieceAt_line]
    exact List.cons_ne_nil _ _
  | block rest =>
    rw [pieceAt_block]
    exact List.cons_ne_nil _ _
  | quote rest =>
    rw [pieceAt_quote, chars_stringPiece]
    exact List.cons_ne_nil _ _
  | digit h =>
    rw [pieceAt_digit p h, chars_integerPiece]
    exact List.cons_ne_nil _ _
  | word h =>
    rw [pieceAt_word p h]
    exact List.cons_ne_nil _ _
  | mark hblank hquote hword hcomment =>
    rw [pieceAt_mark p hblank hquote hword hcomment]
    obtain ⟨d, more, kind, _, _, hpiece⟩ | ⟨_, hpiece⟩ := markPiece_cases p c rest
    · rw [hpiece]
      exact List.cons_ne_nil _ _
    · rw [hpiece, markPiece.oneMark]
      split <;> exact List.cons_ne_nil _ _

theorem length_pieceAt_lt (c : Char) (rest : List Char) : (pieceAt p c rest).2.length < (c :: rest).length := by
  have hchars := congrArg List.length (chars_pieceAt p c rest)
  have hpos := List.length_pos_iff.2 (chars_pieceAt_ne_nil p c rest)
  rw [List.length_append] at hchars
  omega

/-- Any characters are cut into pieces, into as many as there are characters at most. -/
theorem exists_cuts (p : Position) (chars : List Char) :
    ∃ pieces, Cuts p chars pieces ∧ pieces.length ≤ chars.length := by
  induction hn : chars.length using Nat.strongRecOn generalizing p chars with
  | ind n ih =>
    cases chars with
    | nil => exact ⟨[], .nil p, Nat.zero_le _⟩
    | cons c rest =>
      have hlt := length_pieceAt_lt p c rest
      obtain ⟨pieces, hpieces, hlength⟩ := ih _ (hn ▸ hlt) (p.after (pieceAt p c rest).1.chars) _ rfl
      refine ⟨_, .cons hpieces, ?_⟩
      rw [List.length_cons]
      omega

/-- The lexer cuts characters into these pieces, if its bound allows as many. -/
theorem Cuts.piecesFrom_eq {chars : List Char} {pieces : List Piece} (h : Cuts p chars pieces) {bound : Nat}
    (hbound : pieces.length ≤ bound) (read : List Piece) :
    piecesFrom bound p chars read = read.reverse ++ pieces := by
  induction h generalizing bound read with
  | nil p =>
    rw [List.append_nil, piecesFrom.eq_def]
    cases bound <;> rfl
  | @cons p c rest pieces _ ih =>
    obtain ⟨bound, rfl⟩ : ∃ n, bound = n + 1 := Nat.exists_eq_add_of_le' (Nat.le_trans (by simp) hbound)
    rw [piecesFrom]
    dsimp only
    rw [ih (Nat.le_of_succ_le_succ hbound), List.reverse_cons, List.append_assoc, List.singleton_append]

/-- The pieces of a text. -/
theorem cuts_pieces (source : String) : Cuts .first source.toList (pieces source) := by
  obtain ⟨found, hcuts, hlength⟩ := exists_cuts .first source.toList
  rw [pieces, hcuts.piecesFrom_eq .first hlength, List.reverse_nil, List.nil_append]
  exact hcuts

/-- There is one way to cut characters into pieces. -/
theorem Cuts.unique {chars : List Char} {pieces others : List Piece} (h : Cuts p chars pieces)
    (h' : Cuts p chars others) : pieces = others := by
  induction h generalizing others with
  | nil p =>
    cases h'
    rfl
  | cons _ ih =>
    cases h' with
    | cons hothers => rw [ih hothers]

end Lexer
end PluginSandbox
