/-!
# Blank characters

The characters that count as white space: those with the Unicode property `White_Space`.  The
property has had the same 25 members since Unicode 6.3, so the table below is the whole of it.

The class is wider than core's `Char.isWhitespace`, which knows the space, the tab, the line feed
and the carriage return only.
-/

namespace PluginSandbox

/-- The ranges of code points with the property `White_Space`, both ends included. -/
def blankRanges : List (Nat × Nat) :=
  [(0x9, 0xD), (0x20, 0x20), (0x85, 0x85), (0xA0, 0xA0), (0x1680, 0x1680), (0x2000, 0x200A),
   (0x2028, 0x2029), (0x202F, 0x202F), (0x205F, 0x205F), (0x3000, 0x3000)]

/-- A character is blank when its code point lies in one of the ranges. -/
def isBlank (c : Char) : Bool :=
  blankRanges.any fun r => r.1 ≤ c.toNat && c.toNat ≤ r.2

/-- The table lists 25 code points. -/
example : blankRanges.foldl (fun n r => n + (r.2 + 1 - r.1)) 0 = 25 := rfl

/-- A text is blank when every character of it is; the empty text is. -/
def isBlankText (s : String) : Bool :=
  s.toList.all isBlank

end PluginSandbox
