import PluginSandbox.Platform.Catalogue

/-!
# Look-ups in a catalogue

A look-up consults one package at one location.
-/

namespace PluginSandbox
namespace Catalogue

variable {c : Catalogue}

theorem mem_package {location : Location} {package : String} {f : NativeFunction} :
    f ∈ c.package location package ↔
      f ∈ c.functions ∧ f.location = location ∧ f.symbol.package = package := by
  rw [Catalogue.package, List.mem_filter, decide_eq_true_iff]

/-- A function that is found by a name is one of the catalogue, and at the location that was asked for. -/
theorem mem_of_lookup? {location : Location} {name : String} {f : NativeFunction}
    (h : c.lookup? location name = some f) : f ∈ c.functions ∧ f.location = location := by
  rw [lookup?] at h
  obtain ⟨parts, _, hfind⟩ := Option.bind_eq_some_iff.1 h
  obtain ⟨hmem, hlocation, _⟩ := mem_package.1 (List.mem_of_find?_eq_some hfind)
  exact ⟨hmem, hlocation⟩

end Catalogue
end PluginSandbox
