import PluginSandbox.Proofs.Language.Lexed
import PluginSandbox.Proofs.Language.Printing

/-!
# Names as words of the language

Identifiers are recognised in two places: a test on a whole text decides what may be a segment of a name of a unit, a
package or a contract, and the lexer cuts words out of source texts.  The two agree on what a word is, but the lexer
sets some words apart, the keywords, and the test does not.

* `Lexed.readsAs_name_iff`: a text is read as one word, which is the whole of it, exactly if it passes the test, and
  that word is an identifier exactly if it is, besides, no keyword.  A dotted name is read as its segments.
* `isIdentifier_while`: a name that passes the test and is not read as an identifier.
-/

namespace PluginSandbox

/-! ## Keywords -/

theorem TokenKind.ofWord_eq_identifier {word : String} :
    TokenKind.ofWord word = .identifier ↔ ∀ k ∈ keywords, k.1 ≠ word := by
  have hkinds : ∀ k ∈ keywords, k.2 ≠ .identifier := by decide
  rw [TokenKind.ofWord]
  cases hfind : keywords.find? fun k => k.1 = word with
  | none => simpa using fun a b hk => List.find?_eq_none.1 hfind (a, b) hk
  | some k =>
    have hmem := List.mem_of_find?_eq_some hfind
    have hword : k.1 = word := by simpa using List.find?_some hfind
    exact ⟨fun hkind => absurd hkind (hkinds k hmem), fun hfree => absurd hword (hfree k hmem)⟩

/-- Keywords pass the test for identifiers. -/
theorem isIdentifier_of_ofWord_ne {word : String} (h : TokenKind.ofWord word ≠ .identifier) :
    isIdentifier word = true := by
  have hkeywords : ∀ k ∈ keywords, isIdentifier k.1 = true := by decide
  rw [ne_eq, TokenKind.ofWord_eq_identifier] at h
  push Not at h
  obtain ⟨k, hk, rfl⟩ := h
  exact hkeywords k hk

/-! ## Segments -/

/-- The segments of a text, with full stops between them, make up the text. -/
theorem intercalate_splitSegments (chars : List Char) : ['.'].intercalate (splitSegments chars) = chars := by
  induction chars with
  | nil => rfl
  | cons c rest ih =>
    rw [splitSegments] at ih ⊢
    rw [splitSegmentsFrom]
    by_cases hc : c = '.'
    · subst hc
      simp only [if_pos]
      rw [List.intercalate_cons_cons, ih]
      rfl
    · simp only [if_neg hc]
      cases hothers : (splitSegmentsFrom rest).2 with
      | nil =>
        rw [hothers, List.intercalate_singleton] at ih
        rw [List.intercalate_singleton, ih]
      | cons next others =>
        rw [hothers, List.intercalate_cons_cons] at ih
        rw [List.intercalate_cons_cons, List.cons_append, List.cons_append, ih]

/-- The kinds and texts of some words with full stops between them. -/
def dottedWords (segments : List (List Char)) : List (TokenKind × String) :=
  (segments.map fun chars => (TokenKind.ofWord (String.ofList chars), String.ofList chars)).intersperse (.dot, ".")

namespace Lexer.ReadAs

variable {rest : List Char} {words : List (TokenKind × String)}

/-- A full stop stands alone, whatever follows it. -/
theorem dot (h : ReadAs rest words) : ReadAs ('.' :: rest) ((.dot, ".") :: words) := by
  refine h.cons (some (.dot, ".")) fun p => ⟨tokenPiece p .dot ['.'], ?_, rfl, rfl⟩
  rw [pieceAt_mark p (by decide) (by decide) (by decide) (fun hslash => absurd hslash (by decide))]
  cases rest with
  | nil => rfl
  | cons d more =>
    rw [markPiece]
    rfl

/-- Words with full stops between them. -/
theorem dotted {segments : List (List Char)} (h : ∀ chars ∈ segments, isIdentifierChars chars = true) :
    ReadAs (['.'].intercalate segments) (dottedWords segments) := by
  induction segments with
  | nil => exact nil
  | cons chars segments ih =>
    obtain ⟨hchars, hmore⟩ := List.forall_mem_cons.1 h
    cases segments with
    | nil => simpa [dottedWords] using nil.ofWord hchars (by simp)
    | cons next segments =>
      rw [List.intercalate_cons_cons, List.append_assoc]
      refine (ih hmore).dot.ofWord hchars fun d hd => ?_
      obtain rfl := Option.some.inj hd
      decide

end Lexer.ReadAs

/-! ## Texts that are names -/

namespace Lexed

/-- A text is read without an error, as tokens of these kinds with these texts and then the end of the input. -/
def ReadsAs (source : String) (words : List (TokenKind × String)) : Prop :=
  (ofSource source).errors = [] ∧ (ofSource source).stream.map Token.word = words ++ [(.endOfInput, "")]

instance (source : String) (words : List (TokenKind × String)) : Decidable (ReadsAs source words) :=
  inferInstanceAs (Decidable (_ ∧ _))

variable {source word : String} {words : List (TokenKind × String)}

/-- What the whole of a text is read as, wherever it stands. -/
theorem readsAs_of_readAs (h : Lexer.ReadAs source.toList words) : ReadsAs source words := by
  obtain ⟨pieces, hcuts, herrors, rfl⟩ := h .first
  have hpieces : Lexer.pieces source = pieces := (Lexer.cuts_pieces source).unique .first hcuts
  rw [ReadsAs, stream, List.map_append, ofSource, hpieces]
  exact ⟨herrors, rfl⟩

theorem ReadsAs.unique {others : List (TokenKind × String)} (h : ReadsAs source words)
    (h' : ReadsAs source others) : words = others :=
  List.append_cancel_right (h.2.symm.trans h'.2)

/-- What is read as an identifier passes the test for identifiers. -/
theorem ReadsAs.isIdentifier_of_mem (h : ReadsAs source words) (hword : (TokenKind.identifier, word) ∈ words) :
    isIdentifier word = true := by
  have hmem : (TokenKind.identifier, word) ∈ (ofSource source).stream.map Token.word :=
    h.2 ▸ List.mem_append_left _ hword
  obtain ⟨t, ht, heq⟩ := List.mem_map.1 hmem
  obtain ⟨hkind, rfl⟩ := Prod.mk.inj heq
  obtain htokens | hlast := List.mem_append.1 ht
  · exact (names_tokens source t htokens).2 hkind
  · obtain rfl := List.mem_singleton.1 hlast
    exact absurd hkind (by simp [endToken])

/-- What is read as a word passes the test for identifiers, keyword or not. -/
theorem ReadsAs.isIdentifier_of_word_mem (h : ReadsAs source words) (hword : (.ofWord word, word) ∈ words) :
    isIdentifier word = true := by
  by_cases hname : TokenKind.ofWord word = .identifier
  · exact h.isIdentifier_of_mem (hname ▸ hword)
  · exact isIdentifier_of_ofWord_ne hname

theorem mem_dottedWords {segments : List (List Char)} {chars : List Char} (h : chars ∈ segments) :
    (.ofWord (String.ofList chars), String.ofList chars) ∈ dottedWords segments := by
  induction segments with
  | nil => exact absurd h List.not_mem_nil
  | cons first segments ih =>
    cases segments with
    | nil =>
      obtain rfl := List.mem_singleton.1 h
      exact List.mem_cons_self
    | cons next segments =>
      have hwords : dottedWords (first :: next :: segments) =
          (.ofWord (String.ofList first), String.ofList first) :: (.dot, ".") :: dottedWords (next :: segments) := rfl
      rw [hwords]
      obtain rfl | hmore := List.mem_cons.1 h
      · exact List.mem_cons_self
      · exact List.mem_cons_of_mem _ (List.mem_cons_of_mem _ (ih hmore))

/-- **The test for identifiers and the lexer agree, but for keywords.**  A text is read as one word that is the whole
of it exactly if it passes the test, and as one identifier exactly if it is, besides, no keyword.  It is read as its
segments, with full stops between them, exactly if each of them passes the test. -/
theorem readsAs_name_iff (name : String) :
    (ReadsAs name [(.ofWord name, name)] ↔ isIdentifier name = true) ∧
      (ReadsAs name [(.identifier, name)] ↔ isIdentifier name = true ∧ ∀ k ∈ keywords, k.1 ≠ name) ∧
      (ReadsAs name (dottedWords (splitSegments name.toList)) ↔ isDottedName name = true) := by
  have hword : ReadsAs name [(.ofWord name, name)] ↔ isIdentifier name = true := by
    refine ⟨fun h => h.isIdentifier_of_word_mem List.mem_cons_self, fun h => readsAs_of_readAs ?_⟩
    have hread := Lexer.ReadAs.nil.ofWord h (by simp)
    rwa [List.append_nil, String.ofList_toList] at hread
  refine ⟨hword, ⟨fun h => ?_, fun ⟨hname, hfree⟩ => ?_⟩, ⟨fun h => ?_, fun h => readsAs_of_readAs ?_⟩⟩
  · have hname := h.isIdentifier_of_mem List.mem_cons_self
    refine ⟨hname, TokenKind.ofWord_eq_identifier.1 ?_⟩
    simpa using (hword.2 hname).unique h
  · rw [← TokenKind.ofWord_eq_identifier.2 hfree]
    exact hword.2 hname
  · refine List.all_eq_true.2 fun chars hchars => ?_
    simpa [isIdentifier] using h.isIdentifier_of_word_mem (mem_dottedWords hchars)
  · have hread := Lexer.ReadAs.dotted (List.all_eq_true.1 h)
    rwa [intercalate_splitSegments] at hread

/-- The keyword `while` passes the test for identifiers, and the lexer reads no identifier in it. -/
theorem isIdentifier_while :
    isIdentifier "while" = true ∧ (ofSource "while").errors = [] ∧ ¬ ReadsAs "while" [(.identifier, "while")] := by
  decide +kernel

end Lexed
end PluginSandbox
