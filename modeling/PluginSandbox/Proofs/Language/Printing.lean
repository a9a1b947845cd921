import Mathlib.Data.List.TakeDrop
import PluginSandbox.Proofs.Language.Pieces

/-!
# Lexing undoes printing

A token can be written down (`Lexeme.chars`), and so can what stands between tokens (`Separator.chars`): white space,
comments up to the end of their line, and comments that are closed.  Each kind of lexeme is cut off in one piece, as
long as a blank follows it, and comments and blanks are cut off without a trace; so `ReadAs`, which says what some
characters are read as wherever they stand, goes from the end of a printed list of tokens to its beginning.
-/

namespace PluginSandbox

/-! ## Printing -/

/-- A token to be written down: a keyword, an identifier that is none, an integer that is not negative, a string
literal, or punctuation and operators. -/
inductive Lexeme where
  | keyword (word : String) (kind : TokenKind) (h : (word, kind) ∈ keywords)
  | identifier (name : String) (h : isIdentifier name = true) (hfree : ∀ k ∈ keywords, k.1 ≠ name)
  | integer (value : Int64) (h : 0 ≤ value.toInt)
  | string (value : String)
  | mark (text : List Char) (kind : TokenKind) (h : (text, kind) ∈ marks)

/-- A character as it is written in a string literal. -/
def escaped (c : Char) : List Char :=
  match escapes.find? fun e => e.2 = c with
  | some e => ['\\', e.1]
  | none => [c]

namespace Lexeme

/-- The kind of a token. -/
def kind : Lexeme → TokenKind
  | keyword _ kind _ => kind
  | identifier _ _ _ => .identifier
  | integer value _ => .integer value
  | string _ => .stringLiteral
  | mark _ kind _ => kind

/-- The characters of a token; those of a string literal are the ones that it stands for. -/
def content : Lexeme → List Char
  | keyword word _ _ => word.toList
  | identifier name _ _ => name.toList
  | integer value _ => Nat.toDigits 10 value.toInt.toNat
  | string value => value.toList
  | mark text _ _ => text

/-- A token as it is written down. -/
def chars : Lexeme → List Char
  | string value => '"' :: (value.toList.flatMap escaped ++ ['"'])
  | item => item.content

/-- The kind of a token and its text. -/
def word (item : Lexeme) : TokenKind × String :=
  (item.kind, String.ofList item.content)

end Lexeme

/-- What may stand between tokens: white space, a comment up to the end of its line with the line break, and a comment
that is closed. -/
inductive Filler where
  | blank (c : Char) (h : isBlank c = true)
  | line (body : List Char) (h : '\n' ∉ body)
  | block (body : List Char) (h : ¬ ['*', '/'] <:+: body)

/-- White space or a comment as it is written down. -/
def Filler.chars : Filler → List Char
  | blank c _ => [c]
  | line body _ => '/' :: '/' :: (body ++ ['\n'])
  | block body _ => '/' :: '*' :: (body ++ ['*', '/'])

/-- What separates tokens: white space and comments that begin with a blank. -/
structure Separator where
  first : Char
  blank : isBlank first = true
  more : List Filler

/-- A separator as it is written down. -/
def Separator.chars (separator : Separator) : List Char :=
  separator.first :: separator.more.flatMap Filler.chars

/-- Tokens as they are written down, each with what separates it from the next one. -/
def printed (front : List Filler) (items : List (Lexeme × Separator)) : List Char :=
  front.flatMap Filler.chars ++ items.flatMap fun item => item.1.chars ++ item.2.chars

/-- The kind of a token and its text. -/
def Token.word (t : Token) : TokenKind × String :=
  (t.kind, t.text)

namespace Lexer

/-- Wherever some characters stand, nothing in them is wrong, and the tokens in them have these kinds and texts. -/
def ReadAs (chars : List Char) (words : List (TokenKind × String)) : Prop :=
  ∀ p, ∃ pieces, Cuts p chars pieces ∧ pieces.flatMap Piece.errors = [] ∧
    (pieces.filterMap Piece.token).map Token.word = words

/-- The first mark that closes a comment does so. -/
theorem commentTail_append {body : List Char} (hbody : ¬ ['*', '/'] <:+: body) (rest read : List Char) :
    (commentTail (body ++ '*' :: '/' :: rest) read).2 = (true, rest) := by
  induction body generalizing read with
  | nil => rfl
  | cons c body ih =>
    have hinfix : ¬ ['*', '/'] <:+: body := fun h => hbody (List.infix_cons h)
    rw [List.cons_append, commentTail, ih hinfix]
    -- the mark that closes the comment does not begin here
    rintro more rfl hmore
    cases body with
    | nil => simp at hmore
    | cons d body =>
      obtain rfl := (List.cons.inj hmore).1
      exact hbody ⟨[], body, rfl⟩

namespace ReadAs

variable {c : Char} {rest more : List Char} {words : List (TokenKind × String)}

theorem nil : ReadAs [] [] := fun p => ⟨[], .nil p, rfl, rfl⟩

/-- One piece is cut off in front. -/
theorem cons (word : Option (TokenKind × String)) (h : ReadAs more words)
    (hpiece : ∀ p, ∃ piece, pieceAt p c rest = (piece, more) ∧ piece.errors = [] ∧
      piece.token.map Token.word = word) : ReadAs (c :: rest) (word.toList ++ words) := by
  intro p
  obtain ⟨piece, hcut, herrors, rfl⟩ := hpiece p
  obtain ⟨pieces, hcuts, hmore, rfl⟩ := h (p.after piece.chars)
  have hcons : Cuts p (c :: rest) ((pieceAt p c rest).1 :: pieces) := .cons (by rwa [hcut])
  rw [hcut] at hcons
  refine ⟨piece :: pieces, hcons, ?_, ?_⟩
  · rw [List.flatMap_cons, herrors, hmore, List.append_nil]
  · rw [List.filterMap_cons]
    cases piece.token <;> rfl

/-- A blank in front of anything joins the blanks that follow it. -/
theorem blank (hblank : isBlank c = true) (h : ReadAs rest words) : ReadAs (c :: rest) words := by
  by_cases hrest : ∀ d ∈ rest.head?, isBlank d = false
  · have hdrop : rest.dropWhile isBlank = rest := by
      cases rest with
      | nil => rfl
      | cons d more => exact List.dropWhile_cons_of_neg (by simpa using hrest d rfl)
    refine h.cons none fun p => ?_
    rw [pieceAt_blank p hblank, hdrop]
    exact ⟨_, rfl, rfl, rfl⟩
  · obtain ⟨d, more, rfl, hd⟩ : ∃ d more, rest = d :: more ∧ isBlank d = true := by
      cases rest with
      | nil => simp at hrest
      | cons d more => exact ⟨d, more, rfl, by simpa using hrest⟩
    -- the blanks behind this one are a piece of their own that starts one place further
    intro p
    obtain ⟨pieces, hcuts, herrors, hwords⟩ := h (p.next c)
    cases hcuts with
    | @cons _ _ _ pieces hcuts =>
      rw [pieceAt_blank _ hd] at hcuts herrors hwords
      have hpiece : pieceAt p c (d :: more) =
          (⟨p, c :: d :: more.takeWhile isBlank, none, []⟩, more.dropWhile isBlank) := by
        rw [pieceAt_blank p hblank, List.takeWhile_cons_of_pos hd, List.dropWhile_cons_of_pos hd]
      have hcons : Cuts p (c :: d :: more) ((pieceAt p c (d :: more)).1 :: pieces) := .cons (by rwa [hpiece])
      rw [hpiece] at hcons
      exact ⟨_, hcons, herrors, hwords⟩

/-- A comment up to the end of its line. -/
theorem line {body : List Char} (hbody : '\n' ∉ body) (h : ReadAs rest words) :
    ReadAs ('/' :: '/' :: (body ++ '\n' :: rest)) words := by
  have hne : ∀ d ∈ body, (d != '\n') = true := fun d hd => bne_iff_ne.2 fun heq => hbody (heq ▸ hd)
  refine (h.blank (c := '\n') (by decide)).cons none fun p => ?_
  rw [pieceAt_line, List.dropWhile_append_of_pos hne]
  exact ⟨_, rfl, rfl, rfl⟩

/-- A comment that is closed. -/
theorem block {body : List Char} (hbody : ¬ ['*', '/'] <:+: body) (h : ReadAs rest words) :
    ReadAs ('/' :: '*' :: (body ++ '*' :: '/' :: rest)) words := by
  refine h.cons none fun p => ?_
  rw [pieceAt_block, commentTail_append hbody]
  exact ⟨_, rfl, rfl, rfl⟩

/-- White space and comments hold no tokens. -/
theorem fillers (fillers : List Filler) (h : ReadAs rest words) :
    ReadAs (fillers.flatMap Filler.chars ++ rest) words := by
  induction fillers with
  | nil => exact h
  | cons filler fillers ih =>
    rw [List.flatMap_cons, List.append_assoc]
    cases filler with
    | blank c hblank => exact ih.blank hblank
    | line body hbody => simpa [Filler.chars] using ih.line hbody
    | block body hbody => simpa [Filler.chars] using ih.block hbody

end ReadAs

/-! ## Tokens in front of a blank -/

/-- What is no part of some characters ends them. -/
theorem span_eq {test : Char → Bool} {chars rest : List Char} (hchars : ∀ d ∈ chars, test d = true)
    (hend : ∀ d ∈ rest.head?, test d = false) :
    (chars ++ rest).takeWhile test = chars ∧ (chars ++ rest).dropWhile test = rest := by
  rw [List.takeWhile_append_of_pos hchars, List.dropWhile_append_of_pos hchars]
  cases rest with
  | nil => exact ⟨List.append_nil _, rfl⟩
  | cons d rest =>
    have hd : ¬ test d = true := by simp [hend d rfl]
    rw [List.takeWhile_cons_of_neg hd, List.dropWhile_cons_of_neg hd, List.append_nil]
    exact ⟨rfl, rfl⟩

theorem isIntegerRest_of_isBlank {d : Char} (h : isBlank d = true) : isIntegerRest d = false := by
  have hrest := isIdentifierRest_of_isBlank h
  rw [← Bool.not_eq_true, isIntegerRest, Bool.or_eq_true, beq_iff_eq]
  rintro (hdigit | rfl)
  · rw [isIdentifierRest_iff.2 (.inr hdigit)] at hrest
    exact absurd hrest (by decide)
  · exact absurd hrest (by decide)

/-- The characters of marks begin nothing else. -/
theorem of_mem_marks : ∀ mark ∈ marks, ∀ c ∈ mark.1, isBlank c = false ∧ c ≠ '"' ∧ isIdentifierRest c = false := by
  -- Over the Booleans, so that what is run is the list and not every character there is.
  have hall : (marks.all fun mark => mark.1.all fun c => !isBlank c && c != '"' && !isIdentifierRest c) = true := by
    decide
  simpa [and_assoc] using hall

/-- A mark of two characters does not begin like a comment. -/
theorem head?_of_mem_marks : ∀ mark ∈ marks, mark.1.length = 2 → mark.1.head? ≠ some '/' := by
  decide

/-- A character of a string literal is read back. -/
theorem stringTail_escaped (p : Position) (c : Char) (rest chars value : List Char) (errors : List SyntaxError) :
    ∃ p' read, stringTail p (escaped c ++ rest) chars value errors = stringTail p' rest read (c :: value) errors := by
  rw [escaped]
  split
  · next e hfind =>
    have hc : e.2 = c := by simpa using List.find?_some hfind
    have he : escape? e.1 = some c := escape?_eq_some.2 (hc ▸ List.mem_of_find?_eq_some hfind)
    refine ⟨(p.next '\\').next e.1, e.1 :: '\\' :: chars, ?_⟩
    rw [List.cons_append, List.singleton_append, stringTail, he]
  · next hfind =>
    have hne : ∀ e ∈ escapes, e.2 ≠ c := fun e he => by simpa using List.find?_eq_none.1 hfind e he
    have hquote : c ≠ '"' := fun h => hne ('"', '"') (by decide) h.symm
    have hbreak : c ≠ '\n' := fun h => hne ('n', '\n') (by decide) h.symm
    have hback : c ≠ '\\' := fun h => hne ('\\', '\\') (by decide) h.symm
    refine ⟨p.next c, c :: chars, ?_⟩
    rw [List.singleton_append, stringTail]
    · exact hquote
    · exact hbreak
    · exact fun h => absurd h hback
    · exact fun _ _ h => absurd h hback

/-- The characters of a string literal are read back. -/
theorem stringTail_flatMap_escaped (p : Position) (text rest chars value : List Char) (errors : List SyntaxError) :
    (stringTail p (text.flatMap escaped ++ '"' :: rest) chars value errors).value = some (value.reverse ++ text) ∧
      (stringTail p (text.flatMap escaped ++ '"' :: rest) chars value errors).errors = errors.reverse ∧
      (stringTail p (text.flatMap escaped ++ '"' :: rest) chars value errors).rest = rest := by
  induction text generalizing p chars value with
  | nil =>
    rw [List.flatMap_nil, List.nil_append, stringTail, List.append_nil]
    exact ⟨rfl, rfl, rfl⟩
  | cons c text ih =>
    obtain ⟨p', read, hread⟩ := stringTail_escaped p c (text.flatMap escaped ++ '"' :: rest) chars value errors
    rw [List.flatMap_cons, List.append_assoc, hread]
    simpa using ih p' read (c :: value)

namespace ReadAs

variable {rest : List Char} {words : List (TokenKind × String)}

/-- A string literal. -/
theorem string (value : String) (h : ReadAs rest words) :
    ReadAs ('"' :: (value.toList.flatMap escaped ++ '"' :: rest)) ((.stringLiteral, value) :: words) := by
  refine h.cons (some (.stringLiteral, value)) fun p => ?_
  obtain ⟨hvalue, herrors, hrest⟩ := stringTail_flatMap_escaped (p.next '"') value.toList rest [] [] []
  rw [pieceAt_quote, hrest, stringPiece, hvalue]
  refine ⟨_, rfl, herrors, ?_⟩
  show some (TokenKind.stringLiteral, String.ofList value.toList) = _
  rw [String.ofList_toList]

/-- A word that does not go on. -/
theorem ofWord {chars : List Char} (hchars : isIdentifierChars chars = true)
    (hend : ∀ d ∈ rest.head?, isIdentifierRest d = false) (h : ReadAs rest words) :
    ReadAs (chars ++ rest) ((.ofWord (String.ofList chars), String.ofList chars) :: words) := by
  cases chars with
  | nil => exact absurd hchars (by decide)
  | cons c letters =>
    obtain ⟨hc, hletters⟩ := Bool.and_eq_true_iff.1 hchars
    obtain ⟨htake, hdrop⟩ := span_eq (List.all_eq_true.1 hletters) hend
    rw [List.cons_append]
    refine h.cons (some (.ofWord (String.ofList (c :: letters)), String.ofList (c :: letters))) fun p => ?_
    rw [pieceAt_word p hc, htake, hdrop]
    exact ⟨_, rfl, rfl, rfl⟩

/-- An integer. -/
theorem integer {value : Int64} (hvalue : 0 ≤ value.toInt) (hblank : ∀ d ∈ rest.head?, isBlank d = true)
    (h : ReadAs rest words) :
    ReadAs (Nat.toDigits 10 value.toInt.toNat ++ rest)
      ((.integer value, String.ofList (Nat.toDigits 10 value.toInt.toNat)) :: words) := by
  have hdigits : ∀ d ∈ Nat.toDigits 10 value.toInt.toNat, d.isDigit = true :=
    fun d hd => Nat.isDigit_of_mem_toDigits (by decide) (by decide) hd
  have hinteger : ∀ d ∈ Nat.toDigits 10 value.toInt.toNat, isIntegerRest d = true :=
    fun d hd => by rw [isIntegerRest, hdigits d hd, Bool.true_or]
  have hfilter : (Nat.toDigits 10 value.toInt.toNat).filter (fun c => c != '_') =
      Nat.toDigits 10 value.toInt.toNat := by
    refine List.filter_eq_self.2 fun d hd => bne_iff_ne.2 ?_
    rintro rfl
    exact absurd (hdigits _ hd) (by decide)
  have hread : digitsValue (Nat.toDigits 10 value.toInt.toNat) = value.toInt.toNat :=
    Nat.ofDigitChars_toDigits (by decide) (by decide)
  have hfits : value.toInt.toNat < 1 <<< 63 := by
    have := value.toInt_lt
    omega
  have hback : Int64.ofNat value.toInt.toNat = value := by
    rw [← Int64.ofInt_eq_ofNat, Int.toNat_of_nonneg hvalue, Int64.ofInt_toInt]
  have hpiece : ∀ p, integerPiece p (Nat.toDigits 10 value.toInt.toNat) =
      tokenPiece p (.integer value) (Nat.toDigits 10 value.toInt.toNat) := by
    intro p
    rw [integerPiece, hfilter, hread, hback]
    exact if_pos hfits
  have hne : Nat.toDigits 10 value.toInt.toNat ≠ [] := List.length_pos_iff.1 Nat.length_toDigits_pos
  obtain ⟨htake, hdrop⟩ := span_eq hinteger fun d hd => isIntegerRest_of_isBlank (hblank d hd)
  generalize Nat.toDigits 10 value.toInt.toNat = chars at hdigits hpiece hne htake hdrop ⊢
  cases chars with
  | nil => exact absurd rfl hne
  | cons c digits =>
    have hc : c.isDigit = true := hdigits c List.mem_cons_self
    have hrest : isIntegerRest c = true := by rw [isIntegerRest, hc, Bool.true_or]
    rw [List.cons_append, List.takeWhile_cons_of_pos hrest] at htake
    rw [List.cons_append, List.dropWhile_cons_of_pos hrest] at hdrop
    rw [List.cons_append]
    refine h.cons (some (.integer value, String.ofList (c :: digits))) fun p => ?_
    rw [pieceAt_digit p hc, htake, hdrop, hpiece]
    exact ⟨_, rfl, rfl, rfl⟩

/-- Punctuation or an operator. -/
theorem mark {text : List Char} {kind : TokenKind} (hmark : (text, kind) ∈ marks)
    (hblank : ∀ d ∈ rest.head?, isBlank d = true) (h : ReadAs rest words) :
    ReadAs (text ++ rest) ((kind, String.ofList text) :: words) := by
  have hchars := of_mem_marks _ hmark
  obtain hlength | hlength := length_of_mem_marks _ hmark
  · obtain ⟨c, rfl⟩ := List.length_eq_one_iff.1 hlength
    obtain ⟨hc, hquote, hword⟩ := hchars c (List.mem_singleton_self c)
    have hcomment : c = '/' → rest.head? ≠ some '/' ∧ rest.head? ≠ some '*' :=
      fun _ => ⟨fun hd => absurd (hblank _ hd) (by decide), fun hd => absurd (hblank _ hd) (by decide)⟩
    rw [List.singleton_append]
    refine h.cons (some (kind, String.ofList [c])) fun p => ?_
    have hpiece : pieceAt p c rest = (tokenPiece p kind [c], rest) := by
      rw [pieceAt_mark p hc hquote hword hcomment]
      obtain ⟨d, more, _, rfl, hdouble, _⟩ | ⟨_, hone⟩ := markPiece_cases p c rest
      · have hd := (of_mem_marks _ (double?_eq_some.1 hdouble) d (by simp)).1
        rw [hblank d rfl] at hd
        exact absurd hd (by decide)
      · rw [hone, oneMark_some p (single?_eq_some.2 hmark)]
    exact ⟨_, hpiece, rfl, rfl⟩
  · obtain ⟨c, d, rfl⟩ := List.length_eq_two.1 hlength
    obtain ⟨hc, hquote, hword⟩ := hchars c (by simp)
    have hcomment : c = '/' → (d :: rest).head? ≠ some '/' ∧ (d :: rest).head? ≠ some '*' := by
      rintro rfl
      exact absurd rfl (head?_of_mem_marks _ hmark rfl)
    refine h.cons (some (kind, String.ofList [c, d])) fun p => ?_
    have hpiece : pieceAt p c (d :: rest) = (tokenPiece p kind [c, d], rest) := by
      rw [pieceAt_mark p hc hquote hword hcomment]
      obtain ⟨_, _, kind', hrest, hdouble, htwo⟩ | ⟨hnone, _⟩ := markPiece_cases p c (d :: rest)
      · obtain ⟨rfl, rfl⟩ := List.cons.inj hrest
        obtain rfl := Option.some.inj ((double?_eq_some.2 hmark).symm.trans hdouble)
        exact htwo
      · exact absurd ((double?_eq_some.2 hmark).symm.trans (hnone d rfl)) (by simp)
    exact ⟨_, hpiece, rfl, rfl⟩

/-- A token in front of a blank. -/
theorem lexeme (item : Lexeme) (hblank : ∀ d ∈ rest.head?, isBlank d = true) (h : ReadAs rest words) :
    ReadAs (item.chars ++ rest) (item.word :: words) := by
  have hend : ∀ d ∈ rest.head?, isIdentifierRest d = false := fun d hd => isIdentifierRest_of_isBlank (hblank d hd)
  cases item with
  | keyword word kind hword =>
    have hkeywords : ∀ k ∈ keywords, isIdentifierChars k.1.toList = true ∧ .ofWord k.1 = k.2 := by decide
    obtain ⟨hchars, hkind⟩ := hkeywords _ hword
    simpa [Lexeme.chars, Lexeme.word, Lexeme.content, Lexeme.kind, hkind] using h.ofWord hchars hend
  | identifier name hname hfree =>
    have hkind : TokenKind.ofWord name = .identifier := by
      rw [TokenKind.ofWord, List.find?_eq_none.2 fun k hk => by simpa using hfree k hk]
      rfl
    simpa [Lexeme.chars, Lexeme.word, Lexeme.content, Lexeme.kind, hkind] using h.ofWord hname hend
  | integer value hvalue => exact h.integer hvalue hblank
  | string value => simpa [Lexeme.chars, Lexeme.word, Lexeme.content, Lexeme.kind] using h.string value
  | mark text kind hmark => exact h.mark hmark hblank

/-- Tokens and what separates them. -/
theorem items (items : List (Lexeme × Separator)) :
    ReadAs (items.flatMap fun item => item.1.chars ++ item.2.chars) (items.map fun item => item.1.word) := by
  induction items with
  | nil => exact nil
  | cons item items ih =>
    rw [List.flatMap_cons, List.append_assoc, List.map_cons]
    refine lexeme item.1 ?_ ?_
    · rintro d hd
      obtain rfl := Option.some.inj hd
      exact item.2.blank
    · exact (fillers item.2.more ih).blank item.2.blank

end ReadAs
end Lexer

/-- **Lexing undoes printing.**  Whatever tokens are written down, and whatever separates them, the text that comes out
is read without an error, as these tokens and the end of the input. -/
theorem Lexed.ofSource_printed (front : List Filler) (items : List (Lexeme × Separator)) :
    (ofSource (String.ofList (printed front items))).errors = [] ∧
      (ofSource (String.ofList (printed front items))).stream.map Token.word =
        items.map (fun item => item.1.word) ++ [(.endOfInput, "")] := by
  obtain ⟨pieces, hcuts, herrors, hwords⟩ := Lexer.ReadAs.fillers front (Lexer.ReadAs.items items) .first
  have hpieces : Lexer.pieces (String.ofList (printed front items)) = pieces := by
    refine (Lexer.cuts_pieces _).unique .first ?_
    rwa [String.toList_ofList]
  refine ⟨?_, ?_⟩
  · rw [ofSource, hpieces]
    exact herrors
  · rw [stream, List.map_append, ofSource, hpieces, hwords]
    rfl

end PluginSandbox
