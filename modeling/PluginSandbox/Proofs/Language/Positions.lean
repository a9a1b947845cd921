import Mathlib.Data.List.DropRight
import Mathlib.Data.List.TakeDrop
import PluginSandbox.Language.Lexer

/-!
# Where tokens stand

The lexer takes the place of the first character along through the text.  The place that it has come to is the one
that counting the characters in front of it gives (`Position.behind_append`), because every piece is made of the
characters that were read for it (`Lexer.chars_pieceAt`).  So every token stands at a character of the text, and the
end of the input stands behind the last one.

A lexical error points at a place of the text too, except for one: the place of an unknown escape is computed from
the place behind it, by going one column back, and behind an escaped line break no column is left to go back to
(`SyntaxError.Points`).
-/

namespace PluginSandbox

namespace Position

/-- The place behind some characters at the start of a text: its line is one more than there are line breaks among
them, its column one more than there are characters behind the last of these. -/
def behind (before : List Char) : Position :=
  ⟨before.count '\n' + 1, (before.rtakeWhile fun c => c != '\n').length + 1⟩

theorem behind_concat (before : List Char) (c : Char) : behind (before ++ [c]) = (behind before).next c := by
  by_cases hbreak : c = '\n'
  · subst hbreak
    simp [behind, next]
  · simp [behind, next, hbreak]

/-- The place behind more characters is reached from the one behind the first of them. -/
theorem behind_append (before more : List Char) : behind (before ++ more) = (behind before).after more := by
  induction more generalizing before with
  | nil => rw [List.append_nil, after_nil]
  | cons c more ih => rw [after_cons, ← behind_concat, ← ih, List.append_assoc, List.singleton_append]

/-- A place is that of a character of a text, or the one behind its last character. -/
structure IsIn (p : Position) (text : List Char) : Prop where
  line : 1 ≤ p.line
  column : 1 ≤ p.column
  stands : ∃ before, before <+: text ∧ p = behind before

theorem isIn_behind {before text : List Char} (h : before <+: text) : (behind before).IsIn text :=
  ⟨Nat.le_add_left 1 _, Nat.le_add_left 1 _, before, h, rfl⟩

theorem isIn_first (text : List Char) : first.IsIn text :=
  isIn_behind (List.nil_prefix)

end Position

open Position

/-- An error points at a place of the text, unless it is about an escaped line break.  Such an error points at column
zero of the line that begins behind the break. -/
def SyntaxError.Points (e : SyntaxError) (text : List Char) : Prop :=
  if e.problem = .unknownEscape '\n' then
    ∃ before, before ++ ['\\', '\n'] <+: text ∧ e.position = ⟨(behind before).line + 1, 0⟩
  else e.position.IsIn text

theorem SyntaxError.points_of_isIn {e : SyntaxError} {text : List Char} (h : e.position.IsIn text)
    (hproblem : e.problem ≠ .unknownEscape '\n') : e.Points text := by
  rw [Points, if_neg hproblem]
  exact h

namespace Lexer

/-! ## Characters -/

/-- A string literal is made of the characters that were read for it. -/
theorem chars_stringTail (p : Position) (input chars value : List Char) (errors : List SyntaxError) :
    (stringTail p input chars value errors).chars ++ (stringTail p input chars value errors).rest =
      chars.reverse ++ input := by
  fun_induction stringTail p input chars value errors with
  | case1 | case2 | case3 | case4 => simp
  | case5 p c rest chars value errors p' e hescape ih => simpa using ih
  | case6 p c rest chars value errors p' hescape ih => simpa using ih
  | case7 p c rest chars value errors _ _ _ _ ih => simpa using ih

theorem chars_commentTail (input chars : List Char) :
    (commentTail input chars).1 ++ (commentTail input chars).2.2 = chars.reverse ++ input := by
  fun_induction commentTail input chars with
  | case1 | case2 => simp
  | case3 c rest chars _ ih => simpa using ih

theorem chars_stringPiece (p : Position) (tail : StringTail) : (stringPiece p tail).chars = '"' :: tail.chars := by
  rw [stringPiece]
  split <;> rfl

theorem chars_integerPiece (p : Position) (chars : List Char) : (integerPiece p chars).chars = chars := by
  rw [integerPiece]
  dsimp only
  split <;> rfl

theorem chars_markPiece (p : Position) (c : Char) (rest : List Char) :
    (markPiece p c rest).1.chars ++ (markPiece p c rest).2 = c :: rest := by
  have hone : (markPiece.oneMark p c).chars = [c] := by
    rw [markPiece.oneMark]
    split <;> rfl
  cases rest with
  | nil => rw [markPiece, hone, List.append_nil]
  | cons d rest =>
    rw [markPiece]
    split
    · rfl
    · rw [hone, List.singleton_append]

/-- A piece is made of the characters that were read for it. -/
theorem chars_pieceAt (p : Position) (c : Char) (rest : List Char) :
    (pieceAt p c rest).1.chars ++ (pieceAt p c rest).2 = c :: rest := by
  have hspan : ∀ test : Char → Bool, (c :: (rest.span test).1) ++ (rest.span test).2 = c :: rest := by
    intro test
    rw [List.span_eq_takeWhile_dropWhile, List.cons_append, List.takeWhile_append_dropWhile]
  rw [pieceAt]
  split
  · exact hspan _
  split
  · exact hspan _
  split
  · next hmark =>
    rw [Bool.and_eq_true, decide_eq_true_iff, decide_eq_true_iff] at hmark
    obtain ⟨more, rfl⟩ := List.head?_eq_some_iff.1 hmark.2
    show c :: '*' :: ((commentTail more []).1 ++ (commentTail more []).2.2) = c :: '*' :: more
    rw [chars_commentTail, List.reverse_nil, List.nil_append]
  split
  · next hquote =>
    subst hquote
    show (stringPiece p _).chars ++ _ = _
    rw [chars_stringPiece, List.cons_append, chars_stringTail, List.reverse_nil, List.nil_append]
  split
  · show (integerPiece p _).chars ++ _ = _
    rw [chars_integerPiece]
    exact hspan _
  split
  · exact hspan _
  · exact chars_markPiece p c rest

/-! ## Places -/

variable {text : List Char}

/-- The unknown escapes of a string literal. -/
theorem points_stringTail (before : List Char) {p : Position} {input chars value : List Char}
    {errors : List SyntaxError} (hp : p = behind before) (htext : text = before ++ input)
    (herrors : ∀ e ∈ errors, e.Points text) :
    ∀ e ∈ (stringTail p input chars value errors).errors, e.Points text := by
  -- The characters in front of the place grow with what is read.
  fun_induction stringTail p input chars value errors generalizing before with
  | case1 | case2 | case3 | case4 => exact fun e he => herrors e (List.mem_reverse.1 he)
  | case5 p c rest chars value errors _ e hescape ih =>
    refine ih (before ++ ['\\', c]) ?_ (by simp [htext]) herrors
    rw [behind_append, ← hp]
    rfl
  | case6 p c rest chars value errors _ hescape ih =>
    refine ih (before ++ ['\\', c]) ?_ (by simp [htext]) (List.forall_mem_cons.2 ⟨?_, herrors⟩)
    · rw [behind_append, ← hp]
      rfl
    · by_cases hbreak : c = '\n'
      · subst hbreak
        rw [SyntaxError.Points, if_pos rfl]
        exact ⟨before, ⟨rest, by simp [htext]⟩, by rw [← hp]; rfl⟩
      · -- One column back from behind the character is the character itself.
        have hback : (⟨((p.next '\\').next c).line, ((p.next '\\').next c).column - 1⟩ : Position) =
            behind (before ++ ['\\']) := by
          rw [behind_concat, ← hp, next, if_neg hbreak]
          rfl
        refine SyntaxError.points_of_isIn ?_ (by simpa using hbreak)
        exact hback ▸ isIn_behind ⟨c :: rest, by simp [htext]⟩
  | case7 p c rest chars value errors _ _ _ _ ih =>
    exact ih (before ++ [c]) (by rw [behind_concat, hp]) (by simp [htext]) herrors

/-- The token of a piece stands at a place of the text, and its errors point at places of the text. -/
structure Placed (text : List Char) (piece : Piece) : Prop where
  token : ∀ t, piece.token = some t → t.position.IsIn text
  errors : ∀ e ∈ piece.errors, e.Points text

theorem placed_tokenPiece {p : Position} (hp : p.IsIn text) (kind : TokenKind) (chars : List Char) :
    Placed text (tokenPiece p kind chars) := by
  refine ⟨fun t ht => ?_, fun e he => absurd he List.not_mem_nil⟩
  obtain rfl := Option.some.inj ht
  exact hp

/-- A piece without a token that has at most one problem, which concerns the whole of it. -/
theorem placed_of_none {p : Position} (hp : p.IsIn text) {piece : Piece} (htoken : piece.token = none)
    (herrors : ∀ e ∈ piece.errors, e.position = p ∧ e.problem ≠ .unknownEscape '\n') : Placed text piece := by
  refine ⟨fun t ht => absurd (htoken.symm.trans ht) (by simp), fun e he => ?_⟩
  obtain ⟨hposition, hproblem⟩ := herrors e he
  exact SyntaxError.points_of_isIn (hposition ▸ hp) hproblem

theorem placed_stringPiece {p : Position} (hp : p.IsIn text) {tail : StringTail}
    (htail : ∀ e ∈ tail.errors, e.Points text) : Placed text (stringPiece p tail) := by
  rw [stringPiece]
  split
  · refine ⟨fun t ht => ?_, htail⟩
    obtain rfl := Option.some.inj ht
    exact hp
  · refine ⟨fun t ht => absurd ht (by simp), fun e he => ?_⟩
    rcases List.mem_append.1 he with he | he
    · exact htail e he
    · obtain rfl := List.mem_singleton.1 he
      exact SyntaxError.points_of_isIn hp (by simp)

theorem placed_integerPiece {p : Position} (hp : p.IsIn text) (chars : List Char) :
    Placed text (integerPiece p chars) := by
  rw [integerPiece]
  dsimp only
  split
  · exact placed_tokenPiece hp _ _
  · refine ⟨(placed_tokenPiece hp (.integer 0) chars).token, fun e he => ?_⟩
    obtain rfl := List.mem_singleton.1 he
    exact SyntaxError.points_of_isIn hp (by simp)

theorem placed_markPiece {p : Position} (hp : p.IsIn text) (c : Char) (rest : List Char) :
    Placed text (markPiece p c rest).1 := by
  have hone : Placed text (markPiece.oneMark p c) := by
    rw [markPiece.oneMark]
    split
    · exact placed_tokenPiece hp _ _
    · exact placed_of_none hp rfl (by simp)
  cases rest with
  | nil => exact hone
  | cons d rest =>
    rw [markPiece]
    split
    · exact placed_tokenPiece hp _ _
    · exact hone

theorem placed_pieceAt {before : List Char} {c : Char} {rest : List Char}
    (htext : text = before ++ c :: rest) :
    Placed text (pieceAt (behind before) c rest).1 := by
  have hp : (behind before).IsIn text := isIn_behind ⟨c :: rest, htext.symm⟩
  rw [pieceAt]
  split
  · exact placed_of_none hp rfl (by simp)
  split
  · exact placed_of_none hp rfl (by simp)
  split
  · refine placed_of_none hp rfl fun e he => ?_
    dsimp only at he
    split at he
    · exact absurd he List.not_mem_nil
    · obtain rfl := List.mem_singleton.1 he
      exact ⟨rfl, by simp⟩
  split
  · refine placed_stringPiece hp (points_stringTail (before ++ [c]) (behind_concat before c).symm ?_ (by simp))
    rw [htext, List.append_assoc, List.singleton_append]
  split
  · exact placed_integerPiece hp _
  split
  · exact placed_tokenPiece hp _ _
  · exact placed_markPiece hp c rest

/-- The pieces of what is left of a text. -/
theorem placed_piecesFrom (bound : Nat) (before : List Char) {chars : List Char} {read : List Piece}
    (htext : text = before ++ chars) (hread : ∀ piece ∈ read, Placed text piece) :
    ∀ piece ∈ piecesFrom bound (behind before) chars read, Placed text piece := by
  induction bound generalizing before chars read with
  | zero =>
    rw [piecesFrom]
    exact fun piece hpiece => hread piece (List.mem_reverse.1 hpiece)
  | succ bound ih =>
    cases chars with
    | nil =>
      rw [piecesFrom.eq_def]
      exact fun piece hpiece => hread piece (List.mem_reverse.1 hpiece)
    | cons c rest =>
      rw [piecesFrom]
      dsimp only
      rw [← behind_append]
      refine ih _ ?_ (List.forall_mem_cons.2 ⟨placed_pieceAt htext, hread⟩)
      rw [htext, List.append_assoc, chars_pieceAt]

theorem placed_pieces (source : String) : ∀ piece ∈ pieces source, Placed source.toList piece :=
  placed_piecesFrom _ [] rfl (fun _ h => absurd h List.not_mem_nil)

end Lexer

namespace Lexed

/-- Every token of a text stands at a place of it. -/
theorem isIn_tokens (source : String) : ∀ t ∈ (ofSource source).tokens, t.position.IsIn source.toList := by
  intro t ht
  obtain ⟨piece, hpiece, htoken⟩ := List.mem_filterMap.1 ht
  exact (Lexer.placed_pieces source piece hpiece).token t htoken

/-- The end of the input stands behind the last character. -/
theorem isIn_stop (source : String) : (ofSource source).stop.IsIn source.toList := by
  have hstop : (ofSource source).stop = behind source.toList := (behind_append [] source.toList).symm
  rw [hstop]
  exact isIn_behind (List.prefix_refl _)

/-- Every lexical error points at a place of the text, escaped line breaks apart. -/
theorem points_errors (source : String) : ∀ e ∈ (ofSource source).errors, e.Points source.toList := by
  intro e he
  obtain ⟨piece, hpiece, he⟩ := List.mem_flatMap.1 he
  exact (Lexer.placed_pieces source piece hpiece).errors e he

end Lexed
end PluginSandbox
