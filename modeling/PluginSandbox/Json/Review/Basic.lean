import PluginSandbox.Json.Complaint
import PluginSandbox.Json.Reader

/-!
# Readings that may end in a complaint

A review reads a text byte by byte from its start and keeps its place.  It stops at the first fault with a
complaint.

## Places

A complaint about a byte that should not be there points behind it (`failNext`), and one about what has been
read points behind that (`fail`).  Some complaints are made without a place (`failLater`); they get the place
where the reading of the surrounding array or object stops, which still looks for its end (`closing`,
`settle`).
-/

namespace PluginSandbox
namespace Json

/-- What is left of a text, and the place of its first byte. -/
structure Cursor where
  rest : List UInt8
  place : Place := {}
  deriving DecidableEq, Inhabited

/-- The cursor behind the bytes of a kind at its start. -/
def Cursor.skip (kind : UInt8 → Bool) (c : Cursor) : Cursor :=
  go c.rest c.place
where
  /-- The cursor behind the bytes of the kind at the start of some bytes. -/
  go : List UInt8 → Place → Cursor
    | [], place => { rest := [], place }
    | b :: rest, place => if kind b then go rest (place.after b) else { rest := b :: rest, place }

/-- The cursor behind the next byte, if there is one. -/
def Cursor.behind (c : Cursor) : Cursor :=
  match c.rest with
  | [] => c
  | b :: rest => { rest, place := c.place.after b }

/-- A reading of a text that may end in a complaint. -/
abbrev Review := EStateM Complaint Cursor

namespace Review

variable {α : Type}

/-- The next byte. -/
def look : Review (Option UInt8) := fun c =>
  .ok c.rest.head? c

/-- The next byte that is no blank. -/
def peek : Review (Option UInt8) := fun c =>
  let c := c.skip isBlankByte
  .ok c.rest.head? c

/-- Goes behind the next byte. -/
def eat : Review Unit := fun c =>
  .ok () c.behind

/-- The next byte, which is read. -/
def next : Review (Option UInt8) := fun c =>
  .ok c.rest.head? c.behind

/-- Complains about what has been read. -/
def fail (p : Problem) : Review α := fun c =>
  .error { problem := p, place := some c.place } c

/-- Complains about the next byte. -/
def failNext (p : Problem) : Review α := fun c =>
  .error { problem := p, place := some c.behind.place } c

/-- Complains without a place. -/
def failLater (p : Problem) : Review α := fun c =>
  .error { problem := p, place := none } c

/-- Gives a complaint without a place the one where the reading stopped. -/
def settle (read : Review α) : Review α := fun c =>
  match read c with
  | .error e c => .error { e with place := some (e.place.getD c.place) } c
  | result => result

/-- Reads to an end, also behind a complaint.  Of two complaints the first one counts. -/
def closing (read : Review α) (close : Review Unit) : Review α := fun c =>
  match read c with
  | .ok a c =>
    match close c with
    | .ok _ c => .ok a c
    | .error e c => .error e c
  | .error e c =>
    match close c with
    | .ok _ c => .error e c
    | .error _ c => .error e c

/-- Reads the rest of a word. -/
def word : List UInt8 → Review Unit
  | [] => return ()
  | b :: rest => do
    match ← next with
    | none => fail .endInValue
    | some found => if found = b then word rest else fail .noWord

/-- Reads the rest of the word for the null value. -/
def nullWord : Review Unit :=
  word [117, 108, 108]

/-- Reads the rest of the word for true. -/
def trueWord : Review Unit :=
  word [114, 117, 101]

/-- Reads the rest of the word for false. -/
def falseWord : Review Unit :=
  word [97, 108, 115, 101]

end Review
end Json
end PluginSandbox
