import Mathlib.Data.List.TakeDrop
import PluginSandbox.Proofs.Json.Text

/-!
# Documents that are written and read back

A document in its compact form is read as the tree that it stands for (`Json.parsed`), if all its integers
have 64 bits (`Json.Fits`); `parse_compact` says so.

Reading stops at the first byte that cannot belong to the value.  A number has no closing mark of its own, so
it is read up to a comma, a closing bracket or brace, or the end (`Ends`).  The bound on the depth of reading
counts twice for each character, which is what `parse` allows.
-/

namespace PluginSandbox
namespace Json

/-! ## Digits -/

/-- The bytes of the digits of a number. -/
def digitBytes (n : Nat) : List UInt8 :=
  utf8 (Nat.toDigits 10 n)

theorem utf8EncodeChar_digitChar :
    ∀ d < 10, String.utf8EncodeChar (Nat.digitChar d) = [UInt8.ofNat (48 + d)] ∧
      isDigitByte (UInt8.ofNat (48 + d)) = true ∧ (UInt8.ofNat (48 + d)).toNat - 48 = d := by
  decide

theorem digitBytes_of_lt {n : Nat} (h : n < 10) : digitBytes n = [UInt8.ofNat (48 + n)] := by
  rw [digitBytes, Nat.toDigits_of_lt_base h, utf8_cons, utf8_nil, List.append_nil]
  exact (utf8EncodeChar_digitChar n h).1

theorem digitBytes_of_le {n : Nat} (h : 10 ≤ n) :
    digitBytes n = digitBytes (n / 10) ++ [UInt8.ofNat (48 + n % 10)] := by
  rw [digitBytes, Nat.toDigits_of_base_le (by omega) h, utf8_append, utf8_cons, utf8_nil,
    List.append_nil, (utf8EncodeChar_digitChar (n % 10) (by omega)).1]
  rfl

theorem isDigitByte_of_mem (n : Nat) : ∀ b ∈ digitBytes n, isDigitByte b = true := by
  induction n using Nat.strongRecOn with
  | _ n ih =>
    intro b hb
    rcases Nat.lt_or_ge n 10 with hsmall | hlarge
    · rw [digitBytes_of_lt hsmall] at hb
      obtain rfl := List.mem_singleton.1 hb
      exact (utf8EncodeChar_digitChar n hsmall).2.1
    · rw [digitBytes_of_le hlarge, List.mem_append, List.mem_singleton] at hb
      rcases hb with hb | rfl
      · exact ih (n / 10) (by omega) b hb
      · exact (utf8EncodeChar_digitChar (n % 10) (by omega)).2.1

/-- The digits of a number have its value. -/
theorem digitsValue_digitBytes (n : Nat) : digitsValue (digitBytes n) = n := by
  induction n using Nat.strongRecOn with
  | _ n ih =>
    rcases Nat.lt_or_ge n 10 with hsmall | hlarge
    · rw [digitBytes_of_lt hsmall]
      show 10 * 0 + ((UInt8.ofNat (48 + n)).toNat - 48) = n
      rw [(utf8EncodeChar_digitChar n hsmall).2.2]
      omega
    · have hfront := ih (n / 10) (by omega)
      rw [digitsValue] at hfront
      rw [digitBytes_of_le hlarge, digitsValue, List.foldl_append, hfront]
      show 10 * (n / 10) + ((UInt8.ofNat (48 + n % 10)).toNat - 48) = n
      rw [(utf8EncodeChar_digitChar (n % 10) (by omega)).2.2]
      omega

theorem digitBytes_ne_nil (n : Nat) : digitBytes n ≠ [] := by
  rcases Nat.lt_or_ge n 10 with hsmall | hlarge
  · rw [digitBytes_of_lt hsmall]
    exact List.cons_ne_nil _ _
  · rw [digitBytes_of_le hlarge]
    simp

/-- Only zero begins with a zero. -/
theorem head?_digitBytes {n : Nat} (h : (digitBytes n).head? = some 48) : n = 0 := by
  induction n using Nat.strongRecOn with
  | _ n ih =>
    rcases Nat.lt_or_ge n 10 with hsmall | hlarge
    · rw [digitBytes_of_lt hsmall, List.head?_cons] at h
      have hvalue := (utf8EncodeChar_digitChar n hsmall).2.2
      rw [Option.some.inj h] at hvalue
      exact hvalue.symm
    · obtain ⟨b, front, hfront⟩ := List.exists_cons_of_ne_nil (digitBytes_ne_nil (n / 10))
      rw [digitBytes_of_le hlarge, hfront, List.cons_append, List.head?_cons] at h
      have hzero := ih (n / 10) (by omega) (by rw [hfront, List.head?_cons, h])
      omega

/-! ## Numbers -/

/-- What follows a value: nothing, a comma, a closing bracket or a closing brace. -/
def Ends : List UInt8 → Prop
  | [] => True
  | b :: _ => b = 44 ∨ b = 93 ∨ b = 125

theorem ends_comma (rest : List UInt8) : Ends (44 :: rest) :=
  Or.inl rfl

theorem ends_bracket (rest : List UInt8) : Ends (93 :: rest) :=
  Or.inr (Or.inl rfl)

theorem ends_brace (rest : List UInt8) : Ends (125 :: rest) :=
  Or.inr (Or.inr rfl)

theorem span_digitBytes (n : Nat) {rest : List UInt8} (h : Ends rest) :
    (digitBytes n ++ rest).span isDigitByte = (digitBytes n, rest) := by
  have hrest : rest.takeWhile isDigitByte = [] ∧ rest.dropWhile isDigitByte = rest := by
    cases rest with
    | nil => exact ⟨rfl, rfl⟩
    | cons b rest =>
      have hb : isDigitByte b = false := by
        rcases h with rfl | rfl | rfl <;> rfl
      exact ⟨List.takeWhile_cons_of_neg (by simp [hb]), List.dropWhile_cons_of_neg (by simp [hb])⟩
  rw [List.span_eq_takeWhile_dropWhile, List.takeWhile_append_of_pos (isDigitByte_of_mem n),
    List.dropWhile_append_of_pos (isDigitByte_of_mem n), hrest.1, hrest.2, List.append_nil]

theorem skipFraction_of_ends {rest : List UInt8} (h : Ends rest) :
    skipFraction rest = some (false, rest) := by
  cases rest with
  | nil => rfl
  | cons b rest => rcases h with rfl | rfl | rfl <;> rfl

theorem skipExponent_of_ends {rest : List UInt8} (h : Ends rest) :
    skipExponent rest = some (false, rest) := by
  cases rest with
  | nil => rfl
  | cons b rest => rcases h with rfl | rfl | rfl <;> rfl

/-- An integer has 64 bits, with a sign or without. -/
def IntFits (n : Int) : Prop :=
  -(1 <<< 63) ≤ n ∧ n < 1 <<< 64

theorem integerValue?_ofNat {n : Nat} (h : n < 1 <<< 64) :
    integerValue? false (digitBytes n) = some (n : Int) := by
  simp only [integerValue?, digitsValue_digitBytes]
  exact if_pos h

theorem integerValue?_negSucc {n : Nat} (h : n + 1 ≤ 1 <<< 63) :
    integerValue? true (digitBytes (n + 1)) = some (Int.negSucc n) := by
  simp only [integerValue?, digitsValue_digitBytes]
  rw [if_pos trivial, if_neg (by simpa using h)]
  rfl

theorem leadingZero (n : Nat) :
    ((digitBytes n).isEmpty || ((digitBytes n).head? == some 48 && decide ((digitBytes n).length > 1)))
      = false := by
  have hempty : (digitBytes n).isEmpty = false := by
    rw [List.isEmpty_eq_false_iff]
    exact digitBytes_ne_nil n
  rw [hempty, Bool.false_or, Bool.and_eq_false_iff]
  by_cases hhead : (digitBytes n).head? = some 48
  · right
    obtain rfl := head?_digitBytes hhead
    rfl
  · left
    exact beq_eq_false_iff_ne.2 hhead

theorem readNumber_digits {input rest : List UInt8} {negative : Bool} {n : Nat} (hrest : Ends rest)
    (hsign : splitSign input = (negative, digitBytes n ++ rest)) :
    readNumber input = some (.number (integerValue? negative (digitBytes n)), rest) := by
  unfold readNumber
  rw [hsign]
  simp only [span_digitBytes n hrest, leadingZero, Bool.false_eq_true, if_false,
    skipFraction_of_ends hrest, Option.bind_eq_bind, Option.bind_some, skipExponent_of_ends hrest]
  rfl

theorem splitSign_digitBytes (n : Nat) (rest : List UInt8) :
    splitSign (digitBytes n ++ rest) = (false, digitBytes n ++ rest) := by
  rw [splitSign.eq_def]
  split
  · next more heq =>
    obtain ⟨b, front, hfront⟩ := List.exists_cons_of_ne_nil (digitBytes_ne_nil n)
    rw [hfront, List.cons_append] at heq
    obtain ⟨rfl, _⟩ := List.cons.inj heq
    have hdigit := isDigitByte_of_mem n 45 (by rw [hfront]; exact List.mem_cons_self)
    exact absurd hdigit (by decide)
  · rfl

/-- An integer that has 64 bits is read as itself. -/
theorem readNumber_intChars {n : Int} (h : IntFits n) {rest : List UInt8} (hrest : Ends rest) :
    readNumber (utf8 (intChars n) ++ rest) = some (.number (some n), rest) := by
  cases n with
  | ofNat n =>
    have hn : n < 1 <<< 64 := by
      obtain ⟨_, hhigh⟩ := h
      rw [Int.ofNat_eq_natCast] at hhigh
      omega
    show readNumber (digitBytes n ++ rest) = _
    rw [readNumber_digits hrest (splitSign_digitBytes n rest), integerValue?_ofNat hn]
    rfl
  | negSucc n =>
    have hn : n + 1 ≤ 1 <<< 63 := by
      obtain ⟨hlow, _⟩ := h
      omega
    show readNumber (45 :: (digitBytes (n + 1) ++ rest)) = _
    rw [readNumber_digits hrest rfl, integerValue?_negSucc hn]

/-! ## Trees -/

mutual

/-- The tree that a document is read as. -/
def parsed : Json → Parsed
  | .null => .null
  | .bool b => .bool b
  | .int n => .number (some n)
  | .str s => .text (rawText s)
  | .arr items => .list (parsedItems items)
  | .obj members => .object (parsedMembers members)

/-- The trees of the items of an array. -/
def parsedItems : List Json → List Parsed
  | [] => []
  | item :: rest => parsed item :: parsedItems rest

/-- The trees of the members of an object. -/
def parsedMembers : List (String × Json) → List (RawText × Parsed)
  | [] => []
  | (key, value) :: rest => (rawText key, parsed value) :: parsedMembers rest

end

mutual

/-- Every integer of a document has 64 bits. -/
def Fits : Json → Prop
  | .int n => IntFits n
  | .arr items => ItemsFit items
  | .obj members => MembersFit members
  | _ => True

/-- Every integer of the items of an array has 64 bits. -/
def ItemsFit : List Json → Prop
  | [] => True
  | item :: rest => Fits item ∧ ItemsFit rest

/-- Every integer of the members of an object has 64 bits. -/
def MembersFit : List (String × Json) → Prop
  | [] => True
  | (_, value) :: rest => Fits value ∧ MembersFit rest

end

theorem itemsFit_iff {items : List Json} : ItemsFit items ↔ ∀ item ∈ items, Fits item := by
  induction items with
  | nil => simp [ItemsFit]
  | cons item rest ih => rw [ItemsFit, ih, List.forall_mem_cons]

/-! ## Reading what was written -/

theorem skipBlanks_cons {b : UInt8} (h : isBlankByte b = false) (rest : List UInt8) :
    skipBlanks (b :: rest) = b :: rest :=
  List.dropWhile_cons_of_neg (by simp [h])

theorem utf8_arr (items : List Json) :
    utf8 (chars (.arr items)) = 91 :: (utf8 (itemChars items) ++ [93]) := by
  rw [chars, utf8_append, utf8_cons]
  rfl

theorem utf8_obj (members : List (String × Json)) :
    utf8 (chars (.obj members)) = 123 :: (utf8 (memberChars members) ++ [125]) := by
  rw [chars, utf8_append, utf8_cons]
  rfl

theorem utf8_moreItemChars (item : Json) (rest : List Json) :
    utf8 (moreItemChars (item :: rest)) = 44 :: utf8 (itemChars (item :: rest)) := by
  rw [moreItemChars, List.cons_append, utf8_cons]
  rfl

theorem utf8_moreMemberChars (member : String × Json) (rest : List (String × Json)) :
    utf8 (moreMemberChars (member :: rest)) = 44 :: utf8 (memberChars (member :: rest)) := by
  obtain ⟨key, value⟩ := member
  rw [moreMemberChars, memberChars]
  rfl

theorem exists_utf8_memberChars (key : String) (value : Json) (more : List (String × Json))
    (after : List UInt8) :
    ∃ text, utf8 (memberChars ((key, value) :: more)) ++ after = 34 :: text := by
  rw [memberChars, List.append_assoc, utf8_append, quoteChars, List.cons_append, utf8_cons]
  exact ⟨_, rfl⟩

/-- A number begins with a minus sign or a digit. -/
def StartsNumber (b : UInt8) : Prop :=
  b = 45 ∨ isDigitByte b = true

instance (b : UInt8) : Decidable (StartsNumber b) :=
  inferInstanceAs (Decidable (_ ∨ _))

theorem StartsNumber.ne {b c : UInt8} (h : StartsNumber b) (hc : ¬ StartsNumber c) : b ≠ c := by
  rintro rfl
  exact hc h

theorem StartsNumber.not_blank {b : UInt8} (h : StartsNumber b) : isBlankByte b = false := by
  rw [isBlankByte]
  simp only [Bool.or_eq_false_iff, beq_eq_false_iff_ne]
  exact ⟨⟨⟨h.ne (by decide), h.ne (by decide)⟩, h.ne (by decide)⟩, h.ne (by decide)⟩

theorem exists_utf8_intChars (n : Int) :
    ∃ b rest, utf8 (intChars n) = b :: rest ∧ StartsNumber b := by
  cases n with
  | ofNat n =>
    obtain ⟨b, rest, hb⟩ := List.exists_cons_of_ne_nil (digitBytes_ne_nil n)
    exact ⟨b, rest, hb, .inr (isDigitByte_of_mem n b (by rw [hb]; exact List.mem_cons_self))⟩
  | negSucc n => exact ⟨45, _, rfl, .inl rfl⟩

/-- A value begins with a byte that is neither a blank nor a closing bracket nor a closing brace. -/
theorem exists_utf8_chars (j : Json) :
    ∃ b rest, utf8 j.chars = b :: rest ∧ isBlankByte b = false ∧ b ≠ 93 ∧ b ≠ 125 := by
  cases j with
  | null => exact ⟨110, [117, 108, 108], rfl, rfl, by decide, by decide⟩
  | bool b =>
    cases b
    · exact ⟨102, [97, 108, 115, 101], rfl, rfl, by decide, by decide⟩
    · exact ⟨116, [114, 117, 101], rfl, rfl, by decide, by decide⟩
  | int n =>
    obtain ⟨b, rest, hb, hstart⟩ := exists_utf8_intChars n
    exact ⟨b, rest, hb, hstart.not_blank, hstart.ne (by decide), hstart.ne (by decide)⟩
  | str s => exact ⟨34, _, rfl, rfl, by decide, by decide⟩
  | arr items => exact ⟨91, _, utf8_arr items, rfl, by decide, by decide⟩
  | obj members => exact ⟨123, _, utf8_obj members, rfl, by decide, by decide⟩

theorem readValue_number {b : UInt8} (h : StartsNumber b) (rest : List UInt8) (bound : Nat) :
    readValue (bound + 1) (b :: rest) = readNumber (b :: rest) := by
  rw [readValue, skipBlanks_cons h.not_blank]
  split
  · next heq => exact absurd (List.cons.inj heq).1 (h.ne (by decide))
  · next heq => exact absurd (List.cons.inj heq).1 (h.ne (by decide))
  · next heq => exact absurd (List.cons.inj heq).1 (h.ne (by decide))
  · next heq => exact absurd (List.cons.inj heq).1 (h.ne (by decide))
  · next heq => exact absurd (List.cons.inj heq).1 (h.ne (by decide))
  · next heq => exact absurd (List.cons.inj heq).1 (h.ne (by decide))
  · rfl

theorem readValue_intChars {n : Int} (h : IntFits n) {rest : List UInt8} (hrest : Ends rest)
    (bound : Nat) :
    readValue (bound + 1) (utf8 (intChars n) ++ rest) = some (.number (some n), rest) := by
  obtain ⟨b, digits, hdigits, hb⟩ := exists_utf8_intChars n
  rw [← readNumber_intChars h hrest, hdigits, List.cons_append, readValue_number hb]

mutual

/-- A document is read as its tree, up to what follows it. -/
theorem readValue_chars : ∀ (j : Json), Fits j → ∀ (bound : Nat) (rest : List UInt8), Ends rest →
    2 * (utf8 j.chars).length ≤ bound →
    readValue bound (utf8 j.chars ++ rest) = some (parsed j, rest)
  | .null, _, bound + 1, rest, _, _ => rfl
  | .bool true, _, bound + 1, rest, _, _ => rfl
  | .bool false, _, bound + 1, rest, _, _ => rfl
  | .int n, hn, bound + 1, rest, hrest, _ => readValue_intChars hn hrest bound
  | .str s, _, bound + 1, rest, _, _ => by
    obtain ⟨text, htext, hread⟩ := readText_quoteChars s rest
    rw [chars, htext, readValue, skipBlanks_cons rfl]
    show (readText text []).map _ = _
    rw [hread]
    rfl
  | .arr [], _, bound + 1, rest, _, _ => rfl
  | .arr (item :: more), hj, bound + 1, rest, _, hbound => by
    rw [utf8_arr, List.length_cons, List.length_append, List.length_singleton] at hbound
    rw [utf8_arr, List.cons_append, List.append_assoc, List.singleton_append]
    obtain ⟨b, text, htext, hblank, hbracket, _⟩ := exists_utf8_chars item
    have hitems := readItems_chars (item :: more) hj (List.cons_ne_nil _ _) bound rest [] (by omega)
    rw [itemChars, utf8_append, htext, List.cons_append, List.cons_append] at hitems ⊢
    rw [readValue, skipBlanks_cons rfl]
    show (match skipBlanks (b :: (text ++ utf8 (moreItemChars more) ++ 93 :: rest)) with
      | 93 :: rest => some (Parsed.list [], rest)
      | rest => readItems bound rest []) = _
    rw [skipBlanks_cons hblank]
    split
    · next heq => exact absurd (List.cons.inj heq).1 hbracket
    · rw [hitems]
      rfl
  | .obj [], _, bound + 1, rest, _, _ => rfl
  | .obj (member :: more), hj, bound + 1, rest, _, hbound => by
    rw [utf8_obj, List.length_cons, List.length_append, List.length_singleton] at hbound
    rw [utf8_obj, List.cons_append, List.append_assoc, List.singleton_append]
    obtain ⟨key, value⟩ := member
    have hmembers :=
      readMembers_chars ((key, value) :: more) hj (List.cons_ne_nil _ _) bound rest [] (by omega)
    obtain ⟨text, htext⟩ := exists_utf8_memberChars key value more (125 :: rest)
    rw [htext] at hmembers ⊢
    rw [readValue, skipBlanks_cons rfl]
    show (match skipBlanks (34 :: text) with
      | 125 :: rest => some (Parsed.object [], rest)
      | rest => readMembers bound rest []) = _
    rw [skipBlanks_cons rfl]
    exact hmembers
  | j, _, 0, _, _, hbound => by
    obtain ⟨b, text, htext, _⟩ := exists_utf8_chars j
    rw [htext, List.length_cons] at hbound
    omega

/-- The items of an array are read up to its closing bracket. -/
theorem readItems_chars : ∀ (items : List Json), ItemsFit items → items ≠ [] →
    ∀ (bound : Nat) (rest : List UInt8) (read : List Parsed),
    2 * (utf8 (itemChars items)).length + 1 ≤ bound →
    readItems bound (utf8 (itemChars items) ++ 93 :: rest) read =
      some (.list (read.reverse ++ parsedItems items), rest)
  | [], _, hne, _, _, _, _ => absurd rfl hne
  | item :: more, hitems, _, bound + 1, rest, read, hbound => by
    obtain ⟨hitem, hmore⟩ := hitems
    rw [itemChars, utf8_append, List.length_append] at hbound
    rw [itemChars, utf8_append, List.append_assoc, readItems]
    cases more with
    | nil =>
      have hclosing : utf8 (moreItemChars []) ++ 93 :: rest = 93 :: rest := rfl
      rw [hclosing, readValue_chars item hitem bound _ (ends_bracket rest) (by omega)]
      show some (Parsed.list (parsed item :: read).reverse, rest) = _
      rw [List.reverse_cons]
      rfl
    | cons next more =>
      rw [utf8_moreItemChars, List.length_cons] at hbound
      rw [utf8_moreItemChars, List.cons_append,
        readValue_chars item hitem bound _ (ends_comma _) (by omega)]
      show readItems bound (utf8 (itemChars (next :: more)) ++ 93 :: rest) (parsed item :: read) = _
      rw [readItems_chars (next :: more) hmore (List.cons_ne_nil _ _) bound rest _ (by omega),
        List.reverse_cons, List.append_assoc]
      rfl

/-- The members of an object are read up to its closing brace. -/
theorem readMembers_chars : ∀ (members : List (String × Json)), MembersFit members → members ≠ [] →
    ∀ (bound : Nat) (rest : List UInt8) (read : List (RawText × Parsed)),
    2 * (utf8 (memberChars members)).length + 1 ≤ bound →
    readMembers bound (utf8 (memberChars members) ++ 125 :: rest) read =
      some (.object (read.reverse ++ parsedMembers members), rest)
  | [], _, hne, _, _, _, _ => absurd rfl hne
  | (key, value) :: more, hmembers, _, bound + 1, rest, read, hbound => by
    obtain ⟨hvalue, hmore⟩ := hmembers
    have hsplit : ∀ after, utf8 (memberChars ((key, value) :: more)) ++ after =
        utf8 (quoteChars key) ++ 58 :: (utf8 value.chars ++ (utf8 (moreMemberChars more) ++ after)) := by
      intro after
      rw [memberChars, List.append_assoc, utf8_append, List.cons_append, utf8_cons, utf8_append]
      simp only [List.append_assoc]
      rfl
    have hlength := congrArg List.length (hsplit [])
    simp only [List.append_nil, List.length_append, List.length_cons] at hlength
    obtain ⟨text, htext, hread⟩ := readText_quoteChars key
      (58 :: (utf8 value.chars ++ (utf8 (moreMemberChars more) ++ 125 :: rest)))
    rw [hsplit, htext, readMembers, skipBlanks_cons rfl]
    simp only [hread]
    rw [skipBlanks_cons rfl]
    cases more with
    | nil =>
      have hclosing : utf8 (moreMemberChars []) ++ 125 :: rest = 125 :: rest := rfl
      have hvalue' := readValue_chars value hvalue bound _ (ends_brace rest) (by omega)
      simp only [hclosing, hvalue']
      show some (Parsed.object ((rawText key, parsed value) :: read).reverse, rest) = _
      rw [List.reverse_cons]
      rfl
    | cons next more =>
      rw [utf8_moreMemberChars, List.length_cons] at hlength
      have hvalue' := readValue_chars value hvalue bound
        (44 :: (utf8 (memberChars (next :: more)) ++ 125 :: rest)) (ends_comma _) (by omega)
      simp only [utf8_moreMemberChars, List.cons_append, hvalue']
      show readMembers bound (utf8 (memberChars (next :: more)) ++ 125 :: rest)
        ((rawText key, parsed value) :: read) = _
      rw [readMembers_chars (next :: more) hmore (List.cons_ne_nil _ _) bound rest _ (by omega),
        List.reverse_cons, List.append_assoc]
      rfl

end

/-- A document in its compact form is read as its tree. -/
theorem parse_compact {j : Json} (h : Fits j) : parse j.compact.toUTF8.toList = some (parsed j) := by
  have hread := readValue_chars j h (2 * (utf8 j.chars).length + 2) [] trivial (by omega)
  rw [List.append_nil] at hread
  rw [parse, compact, toList_toUTF8, String.toList_ofList, hread]
  rfl

/-! ## Documents on one line -/

theorem le_toNat_hexDigit : ∀ n < 16, 32 ≤ (hexDigit n).toNat := by
  decide

/-- The texts of the format are tested character by character. -/
theorem le_toNat_of_all {cs : List Char} (h : cs.all (fun d => 32 ≤ d.toNat) = true) : ∀ d ∈ cs, 32 ≤ d.toNat := by
  simpa using h

/-- A control character is never written as itself. -/
theorem le_toNat_escapeChar (c : Char) : ∀ d ∈ escapeChar c, 32 ≤ d.toNat := by
  rw [escapeChar]
  split_ifs with hquote hback h8 h12 hline hreturn htab hcontrol
  iterate 7 exact le_toNat_of_all (by decide)
  · have hhigh := le_toNat_hexDigit (c.toNat / 16) (by omega)
    have hlow := le_toNat_hexDigit (c.toNat % 16) (by omega)
    simpa using ⟨hhigh, hlow⟩
  · simpa using Nat.le_of_not_lt hcontrol

theorem le_toNat_quoteChars (s : String) : ∀ d ∈ quoteChars s, 32 ≤ d.toNat := by
  intro d hd
  rw [quoteChars, List.cons_append, List.mem_cons, List.mem_append, List.mem_flatMap, List.mem_singleton] at hd
  obtain rfl | ⟨c, _, hd⟩ | rfl := hd
  · decide
  · exact le_toNat_escapeChar c d hd
  · decide

theorem le_toNat_intChars (n : Int) : ∀ d ∈ intChars n, 32 ≤ d.toNat := by
  have hdigits : ∀ m, ∀ d ∈ Nat.toDigits 10 m, 32 ≤ d.toNat := by
    intro m d hd
    have hdigit := Nat.isDigit_of_mem_toDigits (by decide) (by decide) hd
    simp only [Char.isDigit, Bool.and_eq_true, decide_eq_true_iff, ge_iff_le, UInt32.le_iff_toNat_le] at hdigit
    exact Nat.le_trans (by decide) hdigit.1
  cases n with
  | ofNat m => exact hdigits m
  | negSucc m => exact List.forall_mem_cons.2 ⟨by decide, hdigits (m + 1)⟩

mutual

/-- A document in its compact form holds no control character, whatever its strings hold. -/
theorem le_toNat_chars : ∀ j : Json, ∀ d ∈ j.chars, 32 ≤ d.toNat
  | .null => le_toNat_of_all (by decide)
  | .bool true => le_toNat_of_all (by decide)
  | .bool false => le_toNat_of_all (by decide)
  | .int n => le_toNat_intChars n
  | .str s => le_toNat_quoteChars s
  | .arr items => by
    rw [chars, List.cons_append, List.forall_mem_cons, List.forall_mem_append]
    exact ⟨by decide, le_toNat_itemChars items, le_toNat_of_all (by decide)⟩
  | .obj members => by
    rw [chars, List.cons_append, List.forall_mem_cons, List.forall_mem_append]
    exact ⟨by decide, le_toNat_memberChars members, le_toNat_of_all (by decide)⟩

theorem le_toNat_itemChars : ∀ items : List Json, ∀ d ∈ itemChars items, 32 ≤ d.toNat
  | [] => by simp [itemChars]
  | item :: rest => by
    rw [itemChars, List.forall_mem_append]
    exact ⟨le_toNat_chars item, le_toNat_moreItemChars rest⟩

theorem le_toNat_moreItemChars : ∀ items : List Json, ∀ d ∈ moreItemChars items, 32 ≤ d.toNat
  | [] => by simp [moreItemChars]
  | item :: rest => by
    rw [moreItemChars, List.cons_append, List.forall_mem_cons, List.forall_mem_append]
    exact ⟨by decide, le_toNat_chars item, le_toNat_moreItemChars rest⟩

theorem le_toNat_memberChars : ∀ members : List (String × Json), ∀ d ∈ memberChars members, 32 ≤ d.toNat
  | [] => by simp [memberChars]
  | (key, value) :: rest => by
    rw [memberChars, List.forall_mem_append, List.forall_mem_append, List.forall_mem_cons]
    exact ⟨⟨le_toNat_quoteChars key, by decide, le_toNat_chars value⟩, le_toNat_moreMemberChars rest⟩

theorem le_toNat_moreMemberChars : ∀ members : List (String × Json), ∀ d ∈ moreMemberChars members, 32 ≤ d.toNat
  | [] => by simp [moreMemberChars]
  | (key, value) :: rest => by
    rw [moreMemberChars, List.forall_mem_append, List.cons_append, List.forall_mem_cons, List.forall_mem_append,
      List.forall_mem_cons]
    exact ⟨⟨by decide, le_toNat_quoteChars key, by decide, le_toNat_chars value⟩, le_toNat_moreMemberChars rest⟩

end

end Json
end PluginSandbox
