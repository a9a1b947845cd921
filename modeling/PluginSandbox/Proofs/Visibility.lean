import PluginSandbox.Compiler.Meaning
import PluginSandbox.Configuration.Validation
import PluginSandbox.Loader
import PluginSandbox.Proofs.Catalogue
import PluginSandbox.Proofs.Order

/-!
# What depends on the platform

What a session shows of the platform, and what its loader links, depends on the platform only through the
functions in the packages of platform modules that the policy makes visible.  Two catalogues that have the
same functions there (`Policy.Shows`) cannot be told apart by a listing of the class path or of a module, by
the meaning of a name, or by loading.

A valid configuration does not open the realm of the class path (`isVisible_classPath`), so of the class path
only the units and the contract type are shown.
-/

namespace PluginSandbox

/-! ## The order of locations -/

namespace Location

theorem le_systemModule {x y : String} : (systemModule x).le (systemModule y) = true ↔ x ≤ y := by
  rw [le, Bool.not_eq_true', decide_eq_false_iff_not]
  rfl

theorem le_trans (a b c : Location) (hab : a.le b = true) (hbc : b.le c = true) : a.le c = true := by
  cases a <;> cases b <;> cases c
  case systemModule.systemModule.systemModule =>
    exact le_systemModule.2 (Std.le_trans (le_systemModule.1 hab) (le_systemModule.1 hbc))
  all_goals simp_all [le, rank]

theorem le_total (a b : Location) : (a.le b || b.le a) = true := by
  cases a <;> cases b
  case systemModule.systemModule x y =>
    rw [Bool.or_eq_true, le_systemModule, le_systemModule]
    exact Std.le_total
  all_goals rfl

theorem le_antisymm (a b : Location) (hab : a.le b = true) (hba : b.le a = true) : a = b := by
  cases a <;> cases b
  case systemModule.systemModule =>
    exact congrArg _ (Std.le_antisymm (le_systemModule.1 hab) (le_systemModule.1 hba))
  all_goals simp_all [le, rank]

end Location

/-! ## The class path -/

/-- A valid configuration does not name the realm of the class path. -/
theorem Configuration.classPath_not_mem {c : Configuration} (h : c.IsValid) :
    c.allowlist[Location.classPath.realm]? = none := by
  by_contra hsome
  obtain ⟨packages, hpackages⟩ := Option.ne_none_iff_exists'.1 hsome
  have hlist : (Location.classPath.realm, packages) ∈ c.allowlist.toList :=
    Std.TreeMap.mem_toList_iff_getElem?_eq_some.2 hpackages
  have hnone := h
  rw [IsValid, errors] at hnone
  simp only [List.append_eq_nil_iff, List.flatMap_eq_nil_iff] at hnone
  have hrealm := hnone.1.1.2 _ hlist
  rw [realmErrors] at hrealm
  simp at hrealm

/-- On the class path only the package of the contract is visible. -/
theorem isVisible_classPath {c : Configuration} (h : c.IsValid) {package : String}
    (hvisible : (Policy.ofConfiguration c).isVisible Location.classPath.realm package = true) :
    package = c.contract.package := by
  rw [Policy.isVisible, Policy.ofConfiguration, Policy.ofAllowlist] at hvisible
  rw [Std.TreeMap.getElem?_insert_self, Configuration.classPath_not_mem h] at hvisible
  have hcontains : (Std.TreeSet.empty.insert c.contract.package).contains package = true := hvisible
  rw [Std.TreeSet.contains_insert, Bool.or_eq_true] at hcontains
  rcases hcontains with heq | hempty
  · exact (Std.LawfulEqCmp.compare_eq_iff_eq.1 (beq_iff_eq.1 heq)).symm
  · have hnone : (∅ : Std.TreeSet String).contains package = true := hempty
    rw [Std.TreeSet.contains_emptyc] at hnone
    exact absurd hnone (by simp)

/-! ## Catalogues that show the same -/

/-- Two catalogues have the same functions in every package of a platform module that a policy makes
visible. -/
def Policy.Shows (p : Policy) (c c' : Catalogue) : Prop :=
  ∀ name package, p.isVisible (Location.systemModuleRealm name) package = true →
    c.package (.systemModule name) package = c'.package (.systemModule name) package

/-- A function in a module of the platform adds no module. -/
theorem Catalogue.moduleLocations_define {c : Catalogue} {location : Location}
    (h : location ∈ c.functions.map NativeFunction.location) (package name : String) (arity : Nat)
    (implementation : Native) :
    (c.define location package name arity implementation).moduleLocations = c.moduleLocations := by
  refine inOrder_congr Location.le_trans Location.le_total Location.le_antisymm ?_
  intro other
  have hmem : other = location → other ∈ c.functions.map NativeFunction.location := fun heq => heq ▸ h
  rw [List.mem_filter, List.mem_filter, define, List.map_append, List.mem_append]
  simp only [List.map_cons, List.map_nil, List.mem_singleton]
  tauto

/-- The modules of the platform that comes with this library. -/
theorem Catalogue.moduleLocations_standard (contract : ContractType) :
    (standard contract).moduleLocations = [.systemModule baseModule, .systemModule loggingModule] := by
  have hsame : (standard contract).moduleLocations =
      inOrder Location.le [.systemModule baseModule, .systemModule loggingModule] := by
    refine inOrder_congr Location.le_trans Location.le_total Location.le_antisymm fun other => ?_
    rw [List.mem_filter]
    simp only [standard, define, empty, List.map_append, List.map_cons, List.map_nil, List.nil_append,
      List.mem_append, List.mem_cons, List.not_mem_nil, or_false]
    constructor
    · rintro ⟨hother, hmodule⟩
      rcases other with name | _ <;> simp_all [Location.isSystemModule]
    · rintro (rfl | rfl) <;> simp [Location.isSystemModule]
  rw [hsame, inOrder, List.mergeSort_of_pairwise (by decide +kernel)]
  decide +kernel

/-- A function in a hidden package changes nothing that is shown. -/
theorem Policy.Shows.define {p : Policy} {location : Location} {package : String}
    (h : p.isVisible location.realm package = false) (c : Catalogue) (name : String) (arity : Nat)
    (implementation : Native) :
    p.Shows c (c.define location package name arity implementation) := by
  intro m other hvisible
  rw [Catalogue.package, Catalogue.package, Catalogue.define, List.filter_append]
  have hhidden : ¬ (location = .systemModule m ∧ package = other) := by
    rintro ⟨rfl, rfl⟩
    rw [Location.realm, hvisible] at h
    exact Bool.noConfusion h
  simp [hhidden]

theorem isContractListing_systemModule (p : Policy) (name package : String) :
    p.isContractListing (.systemModule name) package = false := by
  have hne : Location.systemModuleRealm name ≠ Policy.userRealm := by
    intro heq
    have hfirst := congrArg (fun s : String => s.toList.head?) heq
    simp [Location.systemModuleRealm, Policy.userRealm, Location.realm] at hfirst
  rw [Policy.isContractListing, Location.realm, beq_eq_false_iff_ne.2 hne, Bool.false_and]

namespace Resolver

variable {r : Resolver} {c : Catalogue}

/-- A platform module is listed as the policy and the visible functions say. -/
theorem decide_systemModule (h : r.policy.Shows r.catalogue c) (name package : String)
    (kinds : List EntryKind) :
    { r with catalogue := c }.decide (.systemModule name) package kinds =
      r.decide (.systemModule name) package kinds := by
  simp only [decide, isContractListing_systemModule, Bool.false_eq_true, if_false]
  split
  · next hvisible =>
    have hsame := h name package hvisible
    simp only [Catalogue.list, Catalogue.symbols, hsame, reduceCtorEq, false_and, and_false, if_false]
  · rfl

/-- The class path is listed as the policy and the units say. -/
theorem decide_classPath {configuration : Configuration} (h : configuration.IsValid)
    (hp : r.policy = .ofConfiguration configuration) (package : String) (kinds : List EntryKind) :
    { r with catalogue := c }.decide .classPath package kinds = r.decide .classPath package kinds := by
  rw [decide, decide]
  split
  · rfl
  · next hcontract =>
    split
    · next hvisible =>
      refine absurd ?_ hcontract
      rw [hp] at hvisible ⊢
      have hpackage := isVisible_classPath h hvisible
      rw [Policy.isContractListing, hpackage]
      simp [Policy.userRealm, Policy.ofConfiguration, Policy.ofAllowlist]
    · rfl

theorem exists_of_foundAt_systemModule {name package symbol : String}
    (h : (r.foundAt package symbol (.systemModule name)).isSome = true) :
    r.policy.isVisible (Location.systemModuleRealm name) package = true ∧
      r.catalogue.package (.systemModule name) package ≠ [] := by
  rw [foundAt, decide, isContractListing_systemModule] at h
  simp only [Bool.false_eq_true, if_false] at h
  split at h
  · next hvisible =>
    refine ⟨hvisible, ?_⟩
    intro hnone
    simp [Catalogue.list, Catalogue.symbols, hnone] at h
  · simp at h

/-- What names mean depends on the platform only through what the policy shows of it. -/
theorem meaning_congr {configuration : Configuration} (hvalid : configuration.IsValid)
    (hp : r.policy = .ofConfiguration configuration) (h : r.policy.Shows r.catalogue c) :
    { r with catalogue := c }.meaning = r.meaning := by
  funext question
  cases question with
  | onClassPath package name =>
    show foundAt _ package name .classPath = foundAt r package name .classPath
    rw [foundAt, foundAt, decide_classPath hvalid hp]
  | inModules package name =>
    have hentry : ∀ location : Location, location.isSystemModule = true →
        { r with catalogue := c }.foundAt package name location = r.foundAt package name location := by
      intro location hlocation
      cases location with
      | systemModule m => rw [foundAt, foundAt, decide_systemModule h]
      | _ => exact absurd hlocation (by simp [Location.isSystemModule])
    have hmodules : c.moduleLocations.findSome? ({ r with catalogue := c }.foundAt package name) =
        c.moduleLocations.findSome? (r.foundAt package name) := by
      refine findSome?_congr fun location hlocation => hentry location ?_
      rw [Catalogue.moduleLocations, mem_inOrder] at hlocation
      exact (List.mem_filter.1 hlocation).2
    show c.moduleLocations.findSome? _ = r.catalogue.moduleLocations.findSome? _
    rw [hmodules]
    refine findSome?_inOrder_congr Location.le_trans Location.le_total Location.le_antisymm ?_
    intro location hsome
    cases location with
    | systemModule m =>
      obtain ⟨hvisible, hne⟩ := exists_of_foundAt_systemModule hsome
      have hmem : ∀ other : Catalogue, other.package (.systemModule m) package ≠ [] →
          Location.systemModule m ∈ (other.functions.map NativeFunction.location).filter
            Location.isSystemModule := by
        intro other hother
        obtain ⟨f, hf⟩ := List.exists_mem_of_ne_nil _ hother
        obtain ⟨hfunctions, hlocation, _⟩ := Catalogue.mem_package.1 hf
        exact List.mem_filter.2 ⟨List.mem_map.2 ⟨f, hfunctions, hlocation⟩, rfl⟩
      exact iff_of_true (hmem c (h m package hvisible ▸ hne)) (hmem r.catalogue hne)
    | _ => simp [Location.isSystemModule]

end Resolver

/-! ## Loading -/

namespace LoadSource

variable {s s' : LoadSource}

/-- What may be linked depends on the platform only through what the policy shows of it. -/
theorem linkable?_congr (hpolicy : s'.policy = s.policy) (h : s.policy.Shows s.catalogue s'.catalogue)
    (location : Location) (symbol : String) : s'.linkable? location symbol = s.linkable? location symbol := by
  cases location with
  | systemModule m =>
    simp only [linkable?, Location.isSystemModule, if_true, Catalogue.lookup?, hpolicy]
    cases splitLast? symbol with
    | none => rfl
    | some parts =>
      obtain ⟨package, name⟩ := parts
      simp only [Option.bind_eq_bind, Option.bind_some]
      by_cases hvisible : s.policy.isVisible (Location.systemModuleRealm m) package = true
      · rw [h m package hvisible]
      · have hnone : ∀ other : Catalogue,
            (((other.package (.systemModule m) package).find? fun f => f.symbol.name = name).filter
              fun f => s.policy.isVisible (Location.systemModule m).realm f.symbol.package) = none := by
          intro other
          rw [Option.filter_eq_none_iff]
          intro f hf
          obtain ⟨_, _, hpackage⟩ := Catalogue.mem_package.1 (List.mem_of_find?_eq_some hf)
          rw [hpackage]
          exact hvisible
        rw [hnone, hnone]
  | _ => rfl

theorem link_congr (hpolicy : s'.policy = s.policy) (h : s.policy.Shows s.catalogue s'.catalogue)
    (references : List (Location × String)) : s'.link references = s.link references := by
  induction references with
  | nil => rfl
  | cons first rest ih =>
    obtain ⟨location, symbol⟩ := first
    rw [link, link, linkable?_congr hpolicy h, ih]

/-- What a name is loaded as depends on the platform only through what the policy shows of it. -/
theorem materialize_congr (hartifacts : s'.artifacts = s.artifacts) (hpolicy : s'.policy = s.policy)
    (h : s.policy.Shows s.catalogue s'.catalogue) (name : String) : s'.materialize name = s.materialize name := by
  simp only [materialize, link_congr hpolicy h, flaw?, hartifacts, hpolicy]

end LoadSource
end PluginSandbox
