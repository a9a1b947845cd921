import PluginSandbox.Text.Unprintable

/-!
# Quoted text for readers

A text between quotes in which everything can be seen: quotes and backslashes are escaped, the common
control characters by a letter, and what is not printable by its code point in hexadecimal digits.
-/

namespace PluginSandbox
namespace Quoted

/-- The hexadecimal digits of a code point, without leading zeros. -/
def codePoint (c : Char) : List Char :=
  Nat.toDigits 16 c.toNat

/-- A character inside quoted text. -/
def escapeChar (c : Char) : List Char :=
  if c = '"' then ['\\', '"']
  else if c = '\\' then ['\\', '\\']
  else if c = '\n' then ['\\', 'n']
  else if c = '\r' then ['\\', 'r']
  else if c = '\t' then ['\\', 't']
  else if c.toNat = 0 then ['\\', '0']
  else if isPrintable c then [c]
  else '\\' :: 'u' :: '{' :: codePoint c ++ ['}']

end Quoted

/-- A text between quotes in which everything can be seen. -/
def quoted (s : String) : String :=
  String.ofList ('"' :: s.toList.flatMap Quoted.escapeChar ++ ['"'])

end PluginSandbox
