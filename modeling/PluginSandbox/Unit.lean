import PluginSandbox.Text.Dotted

/-!
# Plugin units

A unit is one plugin's source text under a dotted name.  Nothing here touches a file: the text comes
from the host as a string, and the path of a unit only serves in log lines.

A text is held in memory while it is compiled, and so are its tokens, of which it has at most one for each
character.  That bounds the length of a text (`PluginUnit.mostBytes`).
-/

namespace PluginSandbox

/-- The greatest number of bytes of a source text: memory has fewer than 2^63 bytes, and a token takes 56
of them. -/
def PluginUnit.mostBytes : Nat :=
  ((1 <<< 63) - 1) / 56

/-- One plugin's source text with the dotted name it is known by, for example `contract.MyScript`. The parts of the name
are what stands behind and before its last full stop; a name without one has an empty package.  The text fits in
memory. -/
structure PluginUnit where
  qualifiedName : String
  shortName : String
  package : String
  source : String
  isDotted : isDottedName qualifiedName = true
  parts_eq : (splitLast? qualifiedName).getD ("", qualifiedName) = (package, shortName)
  source_le : source.utf8ByteSize ≤ PluginUnit.mostBytes
  deriving DecidableEq

namespace PluginUnit

/-- The unit of a dotted name and a text that fits in memory; anything else is refused. -/
def ofSource? (qualifiedName source : String) : Option PluginUnit :=
  if h : isDottedName qualifiedName ∧ source.utf8ByteSize ≤ mostBytes then
    let parts := (splitLast? qualifiedName).getD ("", qualifiedName)
    some
      { qualifiedName, shortName := parts.2, package := parts.1, source
        isDotted := h.1, parts_eq := rfl, source_le := h.2 }
  else none

instance : Inhabited PluginUnit :=
  ⟨{ qualifiedName := "unit", shortName := "unit", package := "", source := ""
     isDotted := rfl, parts_eq := rfl, source_le := Nat.zero_le _ }⟩

/-- The path that stands for a unit in log lines; it is never opened. -/
def virtualPath (u : PluginUnit) : String :=
  u.qualifiedName.map (fun c => if c = '.' then '/' else c) ++ ".plugin"

end PluginUnit
end PluginSandbox
