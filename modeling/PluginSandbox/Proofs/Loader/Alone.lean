import PluginSandbox.Proofs.Artifact
import PluginSandbox.Proofs.Bytecode.Encoding
import PluginSandbox.Proofs.Loader.Memory

/-!
# A module on its own

`LoadSource.alone` is a source that has nothing but the artifact of one module, which may be written by hand.
Where the module passes the loader's checks it is loaded as it was written (`LoadSource.load_alone`).
-/

namespace PluginSandbox

/-- The artifact of a module. -/
def Module.artifact (m : Module) : Artifact where
  id := 0
  name := m.name
  bytes := m.encode
  isSealed := true

namespace LoadSource

/-- A source that has nothing but a module, for the default policy and the standard platform. -/
def alone (m : Module) : LoadSource where
  artifacts := ArtifactStore.empty.put m.artifact
  policy := .ofConfiguration .default
  catalogue := .standard defaultContract
  correlation := default
  clock := .still default

/-- Whatever was tried before, a module on its own is loaded as it was written if it passes the checks. -/
theorem load_alone {m : Module} (hfits : m.Fits) (links : List Link)
    (hflaw : (alone m).flaw? m.name m = none) (hlink : (alone m).link m.nativeImports = .ok links)
    (names : List String) :
    (((alone m).afterLoading names).load m.name).1 =
      .ok { module := m, digest := m.artifact.digest, size := m.encode.size, links } := by
  have hartifact : (alone m).artifacts.get? m.name = some m.artifact := Std.TreeMap.getElem?_insert_self
  have hbytes : Module.decode? m.artifact.bytes = some m := Module.decode?_encode hfits
  rw [load_afterLoading]
  exact materialize_of_decode? hartifact hbytes hflaw hlink

/-- A module without references is loaded without links. -/
theorem load_alone_unlinked {m : Module} (hfits : m.Fits) (hflaw : (alone m).flaw? m.name m = none)
    (himports : m.nativeImports = []) (names : List String) :
    (((alone m).afterLoading names).load m.name).1 =
      .ok { module := m, digest := m.artifact.digest, size := m.encode.size, links := [] } :=
  load_alone hfits [] hflaw (by rw [himports]; rfl) names

/-- The link of a module that prints lines. -/
def printLink : Link :=
  ⟨.systemModule baseModule, "io.print", ⟨⟨"io", "print", 1⟩, .systemModule baseModule, .print⟩⟩

theorem linkable?_alone_print (m : Module) :
    (alone m).linkable? (.systemModule baseModule) "io.print" = some printLink.function := by
  have hsplit : splitLast? "io.print" = some ("io", "print") := by decide +kernel
  have hpackage : (alone m).catalogue.package (.systemModule baseModule) "io" = [printLink.function] := by
    with_unfolding_all rfl
  have hlookup : (alone m).catalogue.lookup? (.systemModule baseModule) "io.print" = some printLink.function := by
    simp only [Catalogue.lookup?, hsplit, Option.bind_eq_bind, Option.bind_some, hpackage]
    rfl
  have hvisible : (Policy.ofConfiguration .default).isVisible (Location.systemModule baseModule).realm "io" = true := by
    decide +kernel
  rw [linkable?, if_pos (show (Location.systemModule baseModule).isSystemModule = true from rfl), hlookup]
  exact (Option.filter_some).trans (if_pos hvisible)

/-- A module that refers to nothing but the function that prints lines is loaded with its link. -/
theorem load_alone_printing {m : Module} (hfits : m.Fits) (hflaw : (alone m).flaw? m.name m = none)
    (himports : m.nativeImports = [(.systemModule baseModule, "io.print")]) (names : List String) :
    (((alone m).afterLoading names).load m.name).1 =
      .ok { module := m, digest := m.artifact.digest, size := m.encode.size, links := [printLink] } := by
  refine load_alone hfits [printLink] hflaw ?_ names
  rw [himports, link, linkable?_alone_print]
  rfl

/-- No other name can be loaded beside a module on its own. -/
theorem load_alone_of_ne {m : Module} {name : String} (h : name ≠ m.name) (names : List String) :
    (((alone m).afterLoading names).load name).1 = .error (.notInSession name) := by
  have hnone : (alone m).artifacts.get? name = none := by
    rw [alone, ArtifactStore.get?_put, if_neg (show m.artifact.name ≠ name from Ne.symm h),
      ArtifactStore.get?_empty]
  rw [load_afterLoading, materialize, hnone]

end LoadSource
end PluginSandbox
