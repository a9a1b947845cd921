import Mathlib.Data.List.TakeDrop
import PluginSandbox.Program.Basic
import PluginSandbox.Proofs.Language.Parsed

/-!
# The tokens of source texts

A text has at most as many tokens as bytes, none of them is the end of the input, and its identifiers are
identifiers.  So the trees of a unit are
plain, and have at most as many nodes as its text has bytes (`ParsedUnit.functionsWithin`).
-/

namespace PluginSandbox

/-- Every character takes a byte at least. -/
theorem length_toList_le (s : String) : s.toList.length ≤ s.utf8ByteSize := by
  have hsize : ∀ chars : List Char, chars.length ≤ chars.utf8Encode.size := by
    intro chars
    induction chars with
    | nil => exact Nat.zero_le _
    | cons c chars ih =>
      have hpos : 0 < (String.utf8EncodeChar c).length :=
        List.length_pos_iff.2 String.utf8EncodeChar_ne_nil
      rw [List.utf8Encode_cons, ByteArray.size_append, List.utf8Encode_singleton,
        List.size_toByteArray, List.length_cons]
      omega
  have h := hsize s.toList
  rwa [String.utf8Encode_toList, String.size_toByteArray] at h

namespace Lexer

theorem length_piecesFrom_le (bound : Nat) (p : Position) (chars : List Char) (read : List Piece) :
    (piecesFrom bound p chars read).length ≤ read.length + bound := by
  induction bound generalizing p chars read with
  | zero =>
    rw [piecesFrom, List.length_reverse]
    exact Nat.le_refl _
  | succ bound ih =>
    cases chars with
    | nil =>
      rw [piecesFrom.eq_def]
      show read.reverse.length ≤ _
      rw [List.length_reverse]
      omega
    | cons c rest =>
      rw [piecesFrom]
      refine Nat.le_trans (ih _ _ _) ?_
      rw [List.length_cons]
      omega

/-- A piece does not hold the end of the input, and if it holds an identifier, that is one. -/
def Names (piece : Piece) : Prop :=
  ∀ t, piece.token = some t → t.kind ≠ .endOfInput ∧ (t.kind = .identifier → isIdentifier t.text = true)

theorem names_of_none {piece : Piece} (h : piece.token = none) : Names piece :=
  fun t ht => absurd (h.symm.trans ht) (by simp)

/-- A piece that holds a token of another kind. -/
theorem names_of_kind {piece : Piece} {t : Token} (h : piece.token = some t) (hend : t.kind ≠ .endOfInput)
    (hkind : t.kind ≠ .identifier) : Names piece := by
  intro t' ht'
  obtain rfl := Option.some.inj (h.symm.trans ht')
  exact ⟨hend, fun hidentifier => absurd hidentifier hkind⟩

theorem single?_ne {c : Char} {kind : TokenKind} (h : single? c = some kind) :
    kind ≠ .endOfInput ∧ kind ≠ .identifier := by
  rw [single?.eq_def] at h
  constructor <;> rintro rfl <;> split at h <;> simp at h

theorem double?_ne {c d : Char} {kind : TokenKind} (h : double? c d = some kind) :
    kind ≠ .endOfInput ∧ kind ≠ .identifier := by
  rw [double?.eq_def] at h
  constructor <;> rintro rfl <;> split at h <;> simp at h

theorem ofWord_ne_endOfInput (word : String) : TokenKind.ofWord word ≠ .endOfInput := by
  rw [TokenKind.ofWord]
  cases hfind : keywords.find? fun k => k.1 = word with
  | none => simp
  | some k =>
    have hkinds : ∀ k ∈ keywords, k.2 ≠ .endOfInput := by decide
    exact hkinds k (List.mem_of_find?_eq_some hfind)

theorem names_markPiece (p : Position) (c : Char) (rest : List Char) :
    Names (markPiece p c rest).1 := by
  have hone : Names (markPiece.oneMark p c) := by
    rw [markPiece.oneMark]
    split
    · next kind hkind => exact names_of_kind rfl (single?_ne hkind).1 (single?_ne hkind).2
    · exact names_of_none rfl
  cases rest with
  | nil => exact hone
  | cons d rest =>
    rw [markPiece]
    split
    · next kind hkind => exact names_of_kind rfl (double?_ne hkind).1 (double?_ne hkind).2
    · exact hone

theorem names_pieceAt (p : Position) (c : Char) (rest : List Char) : Names (pieceAt p c rest).1 := by
  rw [pieceAt]
  split
  · exact names_of_none rfl
  split
  · exact names_of_none rfl
  split
  · exact names_of_none rfl
  split
  · show Names (stringPiece p _)
    rw [stringPiece]
    split
    · exact names_of_kind rfl (by simp) (by simp)
    · exact names_of_none rfl
  split
  · show Names (integerPiece p _)
    rw [integerPiece]
    dsimp only
    split
    · exact names_of_kind rfl (by simp) (by simp)
    · exact names_of_kind rfl (by simp) (by simp)
  split
  · next hstart =>
    intro t ht
    obtain rfl := Option.some.inj ht
    refine ⟨ofWord_ne_endOfInput _, fun _ => ?_⟩
    show isIdentifier (String.ofList (c :: (rest.span isIdentifierRest).1)) = true
    rw [isIdentifier, String.toList_ofList, isIdentifierChars, hstart, List.span_eq_takeWhile_dropWhile,
      List.all_takeWhile]
    rfl
  · exact names_markPiece p c rest

theorem names_piecesFrom (bound : Nat) (p : Position) (chars : List Char) {read : List Piece}
    (hread : ∀ piece ∈ read, Names piece) :
    ∀ piece ∈ piecesFrom bound p chars read, Names piece := by
  induction bound generalizing p chars read with
  | zero =>
    intro piece hpiece
    rw [piecesFrom] at hpiece
    exact hread piece (List.mem_reverse.1 hpiece)
  | succ bound ih =>
    cases chars with
    | nil =>
      intro piece hpiece
      rw [piecesFrom.eq_def] at hpiece
      exact hread piece (List.mem_reverse.1 hpiece)
    | cons c rest =>
      rw [piecesFrom]
      exact ih _ _ (List.forall_mem_cons.2 ⟨names_pieceAt p c rest, hread⟩)

end Lexer

namespace Lexed

/-- A text has at most as many tokens as bytes. -/
theorem length_tokens_le (source : String) : (ofSource source).tokens.length ≤ source.utf8ByteSize := by
  have hpieces := Lexer.length_piecesFrom_le source.toList.length .first source.toList []
  rw [List.length_nil, Nat.zero_add] at hpieces
  exact Nat.le_trans (List.length_filterMap_le _ _) (Nat.le_trans hpieces (length_toList_le source))

theorem names_tokens (source : String) : ∀ t ∈ (ofSource source).tokens,
    t.kind ≠ .endOfInput ∧ (t.kind = .identifier → isIdentifier t.text = true) := by
  intro t ht
  obtain ⟨piece, hpiece, htoken⟩ := List.mem_filterMap.1 ht
  exact Lexer.names_piecesFrom _ _ _ (fun _ h => absurd h (by simp)) piece hpiece t htoken

/-- The state in which a text is read. -/
theorem sound_start (source : String) :
    ParserState.Sound
      { tokens := (ofSource source).tokens, endToken := (ofSource source).endToken, errors := [] } :=
  ⟨rfl, fun t ht => (names_tokens source t ht).2⟩

end Lexed

/-- The functions of a text are plain, and have at most as many nodes as the text has bytes. -/
theorem ParsedUnit.functionsWithin (source : String) :
    FunctionsWithin (ofSource source).1.functions source.utf8ByteSize := by
  have hnone : PluginWithin (⟨[], none⟩ : ParsedUnit).plugin 0 := fun _ h => absurd h (by simp)
  have hlength := Lexed.length_tokens_le source
  have hparsed : PluginWithin (ofSource source).1.plugin source.utf8ByteSize := by
    obtain ⟨n, hn, _, hparsed⟩ := Parser.reads_unit ((Lexed.ofSource source).tokens.length + 1) hnone _
      (Lexed.sound_start source)
    have hread : _ + n = (Lexed.ofSource source).tokens.length := hn
    rw [ofSource]
    dsimp only
    generalize Parser.unit _ _ _ = outcome at hparsed
    obtain ⟨result, state⟩ := outcome
    cases result with
    | none => exact fun _ h => absurd h (by simp)
    | some parsed => exact (hparsed parsed rfl).mono (by omega)
  rw [functions]
  cases hplugin : (ofSource source).1.plugin with
  | none => exact ⟨Nat.zero_le _, by simp⟩
  | some decl => exact hparsed decl hplugin

end PluginSandbox
