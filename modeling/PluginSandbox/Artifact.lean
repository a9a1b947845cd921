import PluginSandbox.Digest.Sha256
import Std.Data.TreeMap

/-!
# Artifacts

The compiled output of one session, by name.  An artifact can be written to until it is sealed, and a
sealed one never changes again.  `ArtifactStore` keeps exactly one artifact for each name, in the
order of the names; an artifact's identity is its place in the order of creation, so no two
artifacts of a store share one and none ever changes its own.
-/

namespace PluginSandbox

/-- Compiled output under one name.  Its identity is the number of artifacts of the store that were created before it,
and no more can be written to one that is sealed. -/
structure Artifact where
  id : Nat
  name : String
  bytes : ByteArray
  isSealed : Bool
  deriving Inhabited

namespace Artifact

/-- The digest of what has been written. -/
def digest (a : Artifact) : String :=
  sha256Hex a.bytes

/-- The artifact with more bytes at its end. -/
def append (a : Artifact) (data : ByteArray) : Artifact :=
  { a with bytes := a.bytes ++ data }

/-- The artifact, sealed. -/
def sealed (a : Artifact) : Artifact :=
  { a with isSealed := true }

end Artifact

/-- Writing to a sealed artifact of some name. -/
structure SealedArtifact where
  name : String
  deriving DecidableEq

/-- The text of a refused write. -/
def SealedArtifact.message (e : SealedArtifact) : String :=
  s!"artifact {e.name} is sealed"

/-- The artifacts of a session, one for each name. -/
structure ArtifactStore where
  byName : Std.TreeMap String Artifact

namespace ArtifactStore

/-- The store without artifacts. -/
def empty : ArtifactStore :=
  ⟨Std.TreeMap.empty⟩

instance : Inhabited ArtifactStore :=
  ⟨empty⟩

/-- The artifact of a name, if it exists. -/
def get? (s : ArtifactStore) (name : String) : Option Artifact :=
  s.byName[name]?

/-- Whether an artifact of a name exists. -/
def contains (s : ArtifactStore) (name : String) : Bool :=
  s.byName.contains name

/-- The names of all artifacts, in order. -/
def names (s : ArtifactStore) : List String :=
  s.byName.keys

/-- All artifacts, in the order of their names. -/
def toList (s : ArtifactStore) : List Artifact :=
  s.byName.values

/-- The number of artifacts. -/
def size (s : ArtifactStore) : Nat :=
  s.byName.size

/-- The artifact that a request for a name finds: the one in the store, else a new one. -/
def obtain (s : ArtifactStore) (name : String) : Artifact :=
  (s.get? name).getD { id := s.size, name, bytes := .empty, isSealed := false }

/-- The store with an artifact in place of the one of its name. -/
def put (s : ArtifactStore) (a : Artifact) : ArtifactStore :=
  ⟨s.byName.insert a.name a⟩

/-- The store in which an artifact of a name exists, created if it was absent. -/
def ensure (s : ArtifactStore) (name : String) : ArtifactStore :=
  if s.contains name then s else s.put (s.obtain name)

/-- Writing bytes to the artifact of a name, which is created if it is absent.  Writing no bytes
always succeeds; any other write to a sealed artifact is refused. -/
def write (s : ArtifactStore) (name : String) (data : ByteArray) :
    Except SealedArtifact Unit × ArtifactStore :=
  let a := s.obtain name
  if data.isEmpty then (.ok (), s.ensure name)
  else if a.isSealed then (.error ⟨name⟩, s.ensure name)
  else (.ok (), s.put (a.append data))

/-- Sealing the artifact of a name, which is created if it is absent. -/
def sealOne (s : ArtifactStore) (name : String) : ArtifactStore :=
  s.put (s.obtain name).sealed

/-- Sealing every artifact. -/
def sealAll (s : ArtifactStore) : ArtifactStore :=
  ⟨s.byName.map fun _ a => a.sealed⟩

end ArtifactStore
end PluginSandbox
