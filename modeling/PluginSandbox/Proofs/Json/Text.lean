import Mathlib.Tactic.SplitIfs
import PluginSandbox.Json.Basic
import PluginSandbox.Json.Reader

/-!
# Strings that are written and read back

A string that is written in quotes is read as its raw text (`Json.rawText`), and the raw text is decoded to
the string (`decodeText_rawText`).

Reading and decoding go byte by byte, writing goes character by character.  So both directions say what
happens over the bytes of one written character, and the whole string is an induction on its characters.
The one place where a character is not read by itself is an escape by digits, which may turn out to be the
first half of a pair: `unescape_digits` looks one character ahead there.
-/

namespace PluginSandbox

/-! ## Bytes -/

theorem bytes_loop (b : ByteArray) (i : Nat) (read : List UInt8) :
    ByteArray.toList.loop b i read = read.reverse ++ b.data.toList.drop i := by
  rw [ByteArray.toList.loop]
  split
  · next h =>
    have hi : i < b.data.toList.length := by simpa using h
    have hget : b.get! i = b.data.toList[i] := by
      show b.data[i]! = b.data.toList[i]
      rw [getElem!_pos b.data i (by simpa using h)]
      rfl
    rw [bytes_loop b (i + 1), List.drop_eq_getElem_cons hi, hget, List.reverse_cons,
      List.append_assoc, List.singleton_append]
  · next h =>
    have hi : b.data.toList.length ≤ i := by simpa using h
    rw [List.drop_eq_nil_of_le hi, List.append_nil]
termination_by b.size - i

theorem bytes_toList (b : ByteArray) : b.toList = b.data.toList :=
  bytes_loop b 0 []

namespace Json

/-- The bytes of some characters in UTF-8. -/
def utf8 (chars : List Char) : List UInt8 :=
  chars.flatMap String.utf8EncodeChar

@[simp] theorem utf8_nil : utf8 [] = [] := rfl

@[simp] theorem utf8_cons (c : Char) (chars : List Char) :
    utf8 (c :: chars) = String.utf8EncodeChar c ++ utf8 chars := rfl

@[simp] theorem utf8_append (chars more : List Char) :
    utf8 (chars ++ more) = utf8 chars ++ utf8 more :=
  List.flatMap_append

theorem utf8_eq_utf8Encode (chars : List Char) : (utf8 chars).toArray = chars.utf8Encode.data := by
  rw [List.utf8Encode, utf8, List.data_toByteArray]

/-- The bytes of a string are those of its characters. -/
theorem toList_toUTF8 (s : String) : s.toUTF8.toList = utf8 s.toList := by
  have hdata : s.toUTF8.data = (utf8 s.toList).toArray := by
    rw [utf8_eq_utf8Encode, String.utf8Encode_toList]
    rfl
  rw [bytes_toList, hdata]

/-- The bytes of some characters stand for the string of them. -/
theorem fromUTF8?_utf8 (chars : List Char) :
    String.fromUTF8? ⟨(utf8 chars).toArray⟩ = some (String.ofList chars) := by
  have hbytes : (⟨(utf8 chars).toArray⟩ : ByteArray) = (String.ofList chars).toByteArray := by
    rw [utf8_eq_utf8Encode, String.toByteArray_ofList]
  have hvalid : (⟨(utf8 chars).toArray⟩ : ByteArray).IsValidUTF8 := by
    rw [hbytes]
    exact (String.ofList chars).isValidUTF8
  rw [String.fromUTF8?, dif_pos hvalid]
  congr 1
  exact String.toByteArray_inj.1 hbytes

/-- A byte of a character is the character itself, or lies outside ASCII. -/
theorem mem_utf8EncodeChar {c : Char} {b : UInt8} (h : b ∈ String.utf8EncodeChar c) :
    b.toNat = c.toNat ∨ 128 ≤ b.toNat := by
  rw [String.utf8EncodeChar] at h
  have hc : c.toNat = c.val.toNat := rfl
  split at h
  · next hsmall =>
    obtain rfl := List.mem_singleton.1 h
    left
    rw [UInt8.toNat_ofNat', hc]
    omega
  · split at h
    · simp only [List.mem_cons, List.not_mem_nil, or_false] at h
      rcases h with rfl | rfl <;> rw [UInt8.toNat_ofNat'] <;> omega
    · split at h
      · simp only [List.mem_cons, List.not_mem_nil, or_false] at h
        rcases h with rfl | rfl | rfl <;> rw [UInt8.toNat_ofNat'] <;> omega
      · simp only [List.mem_cons, List.not_mem_nil, or_false] at h
        rcases h with rfl | rfl | rfl | rfl <;> rw [UInt8.toNat_ofNat'] <;> omega

/-- A character of ASCII is one byte. -/
theorem utf8EncodeChar_of_lt {c : Char} (h : c.toNat < 128) :
    String.utf8EncodeChar c = [UInt8.ofNat c.toNat] := by
  have hc : c.val.toNat ≤ 0x7f := by
    have hval : c.toNat = c.val.toNat := rfl
    omega
  rw [String.utf8EncodeChar]
  exact if_pos hc

/-! ## Characters as they are written -/

/-- The raw text of some characters. -/
def rawChars (chars : List Char) : RawText :=
  utf8 (chars.flatMap escapeChar)

/-- The raw text of a string. -/
def rawText (s : String) : RawText :=
  rawChars s.toList

/-- How a character is written: as itself, as a letter behind a backslash, or as four digits. -/
inductive Written : Char → RawText → Prop
  | plain {c : Char} : 32 ≤ c.toNat → c ≠ '"' → c ≠ '\\' → Written c (String.utf8EncodeChar c)
  | letter {c : Char} {b : UInt8} : simpleEscape? b = some (UInt8.ofNat c.toNat) → b ≠ 117 →
      c.toNat < 128 → Written c [92, b]
  | digits {c : Char} {x y : UInt8} {m n : Nat} : hexValue? x = some m → hexValue? y = some n →
      m < 16 → n < 16 → c.toNat = 16 * m + n → c.toNat < 32 → Written c [92, 117, 48, 48, x, y]

theorem hexValue?_hexDigit :
    ∀ n < 16, (hexDigit n).toNat < 128 ∧ hexValue? (UInt8.ofNat (hexDigit n).toNat) = some n := by
  decide

theorem hexValue?_zero : hexValue? 48 = some 0 := rfl

/-- Every character is written in one of these ways. -/
theorem written_escapeChar (c : Char) : Written c (utf8 (escapeChar c)) := by
  rw [escapeChar]
  split_ifs with hquote hback h8 h12 hline hreturn htab hcontrol
  · subst hquote
    exact .letter (b := 34) (by decide) (by decide) (by decide)
  · subst hback
    exact .letter (b := 92) (by decide) (by decide) (by decide)
  · refine .letter (b := 98) ?_ (by decide) (by omega)
    rw [h8]
    rfl
  · refine .letter (b := 102) ?_ (by decide) (by omega)
    rw [h12]
    rfl
  · subst hline
    exact .letter (b := 110) (by decide) (by decide) (by decide)
  · subst hreturn
    exact .letter (b := 114) (by decide) (by decide) (by decide)
  · subst htab
    exact .letter (b := 116) (by decide) (by decide) (by decide)
  · obtain ⟨hx, hm⟩ := hexValue?_hexDigit (c.toNat / 16) (by omega)
    obtain ⟨hy, hn⟩ := hexValue?_hexDigit (c.toNat % 16) (by omega)
    have hbytes : utf8 ['\\', 'u', '0', '0', hexDigit (c.toNat / 16), hexDigit (c.toNat % 16)] =
        [92, 117, 48, 48, UInt8.ofNat (hexDigit (c.toNat / 16)).toNat,
          UInt8.ofNat (hexDigit (c.toNat % 16)).toNat] := by
      simp only [utf8_cons, utf8EncodeChar_of_lt hx, utf8EncodeChar_of_lt hy]
      rfl
    rw [hbytes]
    exact .digits hm hn (by omega) (by omega) (by omega) hcontrol
  · rw [utf8_cons, utf8_nil, List.append_nil]
    exact .plain (by omega) hquote hback

/-! ## Reading -/

theorem rawChars_cons (c : Char) (chars : List Char) :
    rawChars (c :: chars) = utf8 (escapeChar c) ++ rawChars chars := by
  rw [rawChars, List.flatMap_cons, utf8_append]
  rfl

theorem readText_plain {b : UInt8} (h : 32 ≤ b.toNat) (hquote : b ≠ 34) (hback : b ≠ 92)
    (input : List UInt8) (read : RawText) :
    readText (b :: input) read = readText input (b :: read) := by
  have hlt : ¬ b < 32 := by
    rw [UInt8.lt_iff_toNat_lt]
    exact Nat.not_lt.2 h
  rw [readText.eq_def]
  split
  · next heq => exact absurd heq (by simp)
  · next heq => exact absurd (List.cons.inj heq).1 hquote
  · next heq => exact absurd (List.cons.inj heq).1 hback
  · next heq => exact absurd (List.cons.inj heq).1 hback
  · next heq =>
    obtain ⟨rfl, rfl⟩ := List.cons.inj heq
    simp [hlt, hback]

theorem readText_plains {raw : RawText} (h : ∀ b ∈ raw, 32 ≤ b.toNat ∧ b ≠ 34 ∧ b ≠ 92)
    (input : List UInt8) (read : RawText) :
    readText (raw ++ input) read = readText input (raw.reverse ++ read) := by
  induction raw generalizing read with
  | nil => rfl
  | cons b raw ih =>
    obtain ⟨⟨hlow, hquote, hback⟩, hrest⟩ := List.forall_mem_cons.1 h
    rw [List.cons_append, readText_plain hlow hquote hback, ih hrest, List.reverse_cons,
      List.append_assoc, List.singleton_append]

/-- The bytes of a character that stands for itself. -/
theorem plain_bytes {c : Char} (hlow : 32 ≤ c.toNat) (hquote : c ≠ '"') (hback : c ≠ '\\') :
    ∀ b ∈ String.utf8EncodeChar c, 32 ≤ b.toNat ∧ b ≠ 34 ∧ b ≠ 92 := by
  intro b hb
  have hnotQuote : c.toNat ≠ 34 := fun heq => hquote (Char.toNat_inj.1 heq)
  have hnotBack : c.toNat ≠ 92 := fun heq => hback (Char.toNat_inj.1 heq)
  refine ⟨?_, ?_, ?_⟩
  · rcases mem_utf8EncodeChar hb with heq | hhigh <;> omega
  · rintro rfl
    rcases mem_utf8EncodeChar hb with heq | hhigh
    · exact hnotQuote heq.symm
    · exact absurd hhigh (by decide)
  · rintro rfl
    rcases mem_utf8EncodeChar hb with heq | hhigh
    · exact hnotBack heq.symm
    · exact absurd hhigh (by decide)

theorem readText_letter {b v : UInt8} (h : simpleEscape? b = some v) (hb : b ≠ 117)
    (input : List UInt8) (read : RawText) :
    readText (92 :: b :: input) read = readText input (b :: 92 :: read) := by
  rw [readText.eq_def]
  split
  · next heq => exact absurd heq (by simp)
  · next heq => exact absurd (List.cons.inj heq).1 (by decide)
  · next heq => exact absurd (List.cons.inj (List.cons.inj heq).2).1 hb
  · next heq =>
    obtain ⟨rfl, rfl⟩ := List.cons.inj (List.cons.inj heq).2
    simp [h]
  · next hnone heq =>
    obtain ⟨rfl, rfl⟩ := List.cons.inj heq
    exact absurd rfl (hnone b input rfl)

/-- The bytes that a character is written as are read as they are. -/
theorem readText_written {c : Char} {raw : RawText} (h : Written c raw) (input : List UInt8)
    (read : RawText) : readText (raw ++ input) read = readText input (raw.reverse ++ read) := by
  cases h with
  | plain hlow hquote hback => exact readText_plains (plain_bytes hlow hquote hback) input read
  | letter hb hne _ => exact readText_letter hb hne input read
  | digits hx hy _ _ _ _ =>
    show readText (92 :: 117 :: 48 :: 48 :: _ :: _ :: input) read = _
    rw [readText, if_pos]
    · rfl
    · simp [hx, hy, hexValue?_zero]

/-- A string that is written in quotes is read up to its closing quote. -/
theorem readText_rawChars (chars : List Char) (input : List UInt8) (read : RawText) :
    readText (rawChars chars ++ 34 :: input) read = some (read.reverse ++ rawChars chars, input) := by
  induction chars generalizing read with
  | nil =>
    show readText (34 :: input) read = _
    rw [readText, rawChars, List.flatMap_nil, utf8_nil, List.append_nil]
  | cons c chars ih =>
    rw [rawChars_cons, List.append_assoc, readText_written (written_escapeChar c), ih,
      List.reverse_append, List.reverse_reverse, List.append_assoc]

/-! ## Decoding -/

theorem unescape_plain {b : UInt8} (h : b ≠ 92) (rest read : List UInt8) :
    unescape (b :: rest) read = unescape rest (b :: read) := by
  rw [unescape.eq_def]
  split
  · next heq => exact absurd heq (by simp)
  · next heq => exact absurd (List.cons.inj heq).1 h
  · next heq => exact absurd (List.cons.inj heq).1 h
  · next heq => exact absurd (List.cons.inj heq).1 h
  · next heq =>
    obtain ⟨rfl, rfl⟩ := List.cons.inj heq
    rfl

theorem unescape_plains {raw : RawText} (h : ∀ b ∈ raw, b ≠ 92) (rest read : List UInt8) :
    unescape (raw ++ rest) read = unescape rest (raw.reverse ++ read) := by
  induction raw generalizing read with
  | nil => rfl
  | cons b raw ih =>
    obtain ⟨hb, hrest⟩ := List.forall_mem_cons.1 h
    rw [List.cons_append, unescape_plain hb, ih hrest, List.reverse_cons, List.append_assoc,
      List.singleton_append]

theorem unescape_letter {b v : UInt8} (h : simpleEscape? b = some v) (hb : b ≠ 117)
    (rest read : List UInt8) : unescape (92 :: b :: rest) read = unescape rest (v :: read) := by
  rw [unescape.eq_def]
  split
  · next heq => exact absurd heq (by simp)
  · next heq => exact absurd (List.cons.inj (List.cons.inj heq).2).1 hb
  · next heq => exact absurd (List.cons.inj (List.cons.inj heq).2).1 hb
  · next heq =>
    obtain ⟨rfl, rfl⟩ := List.cons.inj (List.cons.inj heq).2
    simp only [h]
  · next hnone heq =>
    obtain ⟨rfl, rfl⟩ := List.cons.inj heq
    exact absurd rfl (hnone b rest rfl)

theorem hexQuad?_eq {x y : UInt8} {m n : Nat} (hx : hexValue? x = some m) (hy : hexValue? y = some n) :
    hexQuad? 48 48 x y = some (16 * m + n) := by
  simp only [hexQuad?, hexValue?_zero, hx, hy, Option.bind_eq_bind, Option.bind_some, pure,
    Nat.zero_mul, Nat.zero_add, Nat.mul_comm m 16]

/-- An escape by digits that names no surrogate stands for its code point, also in front of another escape
by digits. -/
theorem unescape_digits {x y : UInt8} {m n : Nat} (hx : hexValue? x = some m)
    (hy : hexValue? y = some n) (hm : m < 16) (hn : n < 16) (rest read : List UInt8)
    (hrest : ∀ e f g h more, rest = 92 :: 117 :: e :: f :: g :: h :: more →
      ∃ low, hexQuad? e f g h = some low) :
    unescape (92 :: 117 :: 48 :: 48 :: x :: y :: rest) read =
      unescape rest (pushCodePoint (16 * m + n) read) := by
  have hquad := hexQuad?_eq hx hy
  have hhigh : (0xD800 ≤ 16 * m + n && decide (16 * m + n < 0xDC00)) = false := by
    rw [Bool.and_eq_false_iff]
    left
    exact decide_eq_false (by omega)
  have hlow : (0xDC00 ≤ 16 * m + n && decide (16 * m + n < 0xE000)) = false := by
    rw [Bool.and_eq_false_iff]
    left
    exact decide_eq_false (by omega)
  have hpair : (0xD800 ≤ 16 * m + n && decide (16 * m + n < 0xE000)) = false := by
    rw [Bool.and_eq_false_iff]
    left
    exact decide_eq_false (by omega)
  rw [unescape.eq_def]
  split
  · next heq => exact absurd heq (by simp)
  · next heq =>
    simp only [List.cons.injEq, true_and] at heq
    obtain ⟨rfl, rfl, rfl, rfl, rfl⟩ := heq
    obtain ⟨low, hlow?⟩ := hrest _ _ _ _ _ rfl
    simp [hquad, hlow?, hhigh, hlow]
  · next heq =>
    simp only [List.cons.injEq, true_and] at heq
    obtain ⟨rfl, rfl, rfl, rfl, rfl⟩ := heq
    simp [hquad, hpair]
  · next hnone heq =>
    simp only [List.cons.injEq, true_and] at heq
    obtain ⟨rfl, rfl⟩ := heq
    exact absurd rfl (hnone _ _ _ _ _ rfl)
  · next hnone heq =>
    obtain ⟨rfl, rfl⟩ := List.cons.inj heq
    exact absurd rfl (hnone _ _ rfl)

/-- An escape by digits among the bytes of written characters has digits that are hexadecimal. -/
theorem hexQuad?_of_rawChars {chars : List Char} {e f g h : UInt8} {more : List UInt8}
    (heq : rawChars chars = 92 :: 117 :: e :: f :: g :: h :: more) :
    ∃ low, hexQuad? e f g h = some low := by
  cases chars with
  | nil => exact absurd heq (by simp [rawChars])
  | cons c chars =>
    rw [rawChars_cons] at heq
    have hwritten := written_escapeChar c
    generalize utf8 (escapeChar c) = raw at heq hwritten
    cases hwritten with
    | plain hlow hquote hback =>
      have hbytes := plain_bytes hlow hquote hback
      obtain ⟨b, raw, hraw⟩ := List.exists_cons_of_ne_nil (String.utf8EncodeChar_ne_nil (c := c))
      rw [hraw, List.cons_append] at heq
      have hb := (hbytes b (by rw [hraw]; exact List.mem_cons_self)).2.2
      exact absurd (List.cons.inj heq).1 hb
    | letter hb hne _ => exact absurd (List.cons.inj (List.cons.inj heq).2).1 hne
    | digits hx hy _ _ _ _ =>
      simp only [List.cons_append, List.nil_append, List.cons.injEq, true_and] at heq
      obtain ⟨rfl, rfl, rfl, rfl, _⟩ := heq
      exact ⟨_, hexQuad?_eq hx hy⟩

/-- The bytes that characters are written as stand for their bytes in UTF-8. -/
theorem unescape_rawChars (chars : List Char) (read : List UInt8) :
    unescape (rawChars chars) read = some (read.reverse ++ utf8 chars) := by
  induction chars generalizing read with
  | nil =>
    show unescape [] read = _
    rw [unescape, utf8_nil, List.append_nil]
  | cons c chars ih =>
    have hwritten := written_escapeChar c
    rw [rawChars_cons, utf8_cons]
    generalize utf8 (escapeChar c) = raw at hwritten
    cases hwritten with
    | plain hlow hquote hback =>
      have hbytes : ∀ b ∈ String.utf8EncodeChar c, b ≠ 92 :=
        fun b hb => (plain_bytes hlow hquote hback b hb).2.2
      rw [unescape_plains hbytes, ih, List.reverse_append, List.reverse_reverse, List.append_assoc]
    | letter hb hne hc =>
      show unescape (92 :: _ :: rawChars chars) read = _
      rw [unescape_letter hb hne, ih, utf8EncodeChar_of_lt hc, List.reverse_cons, List.append_assoc]
    | @digits x y m n hx hy hm hn hc _ =>
      show unescape (92 :: 117 :: 48 :: 48 :: x :: y :: rawChars chars) read = _
      rw [unescape_digits hx hy hm hn _ _ fun _ _ _ _ _ heq => hexQuad?_of_rawChars heq, ih,
        pushCodePoint, ← hc, Char.ofNat_toNat, List.reverse_append, List.reverse_reverse,
        List.append_assoc]

/-- The raw text of a string is decoded to the string. -/
@[simp] theorem decodeText_rawText (s : String) : decodeText (rawText s) = some s := by
  rw [decodeText, rawText, unescape_rawChars, List.reverse_nil, List.nil_append]
  show String.fromUTF8? ⟨(utf8 s.toList).toArray⟩ = some s
  rw [fromUTF8?_utf8, String.ofList_toList]

/-- A string in quotes is read as its raw text. -/
theorem readText_quoteChars (s : String) (input : List UInt8) :
    ∃ rest, utf8 (quoteChars s) ++ input = 34 :: rest ∧
      readText rest [] = some (rawText s, input) := by
  refine ⟨rawText s ++ 34 :: input, ?_, readText_rawChars s.toList input []⟩
  rw [quoteChars, List.cons_append, utf8_cons, utf8_append]
  simp only [List.append_assoc]
  rfl

end Json
end PluginSandbox
