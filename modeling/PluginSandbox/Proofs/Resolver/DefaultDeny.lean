import PluginSandbox.Proofs.Resolver.Operations
import PluginSandbox.Proofs.Visibility

/-!
# Default deny

Whatever units were registered and whatever was listed or written before, a listing shows what the policy lets
it show and nothing else (`Resolver.default_deny`):

* the contract listing shows the units registered so far and one contract type, and no platform function;
* another listing shows platform functions only if its pair of realm and package is visible, and then it shows
  all of them that are defined at that very location, in the order of the catalogue;
* everything else shows nothing.

No two locations have the same realm (`Location.realm_injective`), so a pair of realm and package that is
visible opens one package at one location.
-/

namespace PluginSandbox

/-! ## Realms -/

/-- No two locations have the same realm. -/
theorem Location.realm_injective {a b : Location} (h : a.realm = b.realm) : a = b := by
  rw [← String.toList_inj] at h
  cases a <;> cases b
  case systemModule.systemModule => simpa [realm, systemModuleRealm, ← String.toList_inj] using h
  all_goals simp_all [realm, systemModuleRealm]

/-! ## Policies -/

namespace Policy

variable {p : Policy}

theorem isContractListing_iff {location : Location} {package : String} :
    p.isContractListing location package = true ↔
      location = .classPath ∧ package = p.contract.package := by
  rw [isContractListing, Bool.and_eq_true, beq_iff_eq, beq_iff_eq]
  exact and_congr_left fun _ => ⟨Location.realm_injective, congrArg Location.realm⟩

/-- How a listing has to be decided. -/
def verdict (p : Policy) (location : Location) (package : String) : Verdict :=
  if location = .classPath ∧ package = p.contract.package then .contract
  else if p.isVisible location.realm package then .allowed
  else .denied

/-- Outside of the contract listing, a configuration makes visible what its own allowlist names. -/
theorem isVisible_ofConfiguration {c : Configuration} {location : Location} {package : String}
    (hlocation : location ≠ .classPath)
    (h : (ofConfiguration c).isVisible location.realm package = true) :
    ∃ packages, c.allowlist[location.realm]? = some packages ∧ package ∈ packages := by
  have hrealm : Location.classPath.realm ≠ location.realm :=
    fun heq => hlocation (Location.realm_injective heq).symm
  rw [isVisible, ofConfiguration, ofAllowlist, Std.TreeMap.getElem?_insert,
    if_neg fun heq => hrealm (Std.LawfulEqCmp.compare_eq_iff_eq.1 heq)] at h
  cases hpackages : c.allowlist[location.realm]? with
  | none => rw [hpackages] at h; exact absurd h (by simp)
  | some packages =>
    rw [hpackages] at h
    exact ⟨packages, rfl, Std.TreeSet.mem_iff_contains.2 h⟩

end Policy

/-- The platform function of an entry. -/
def Entry.symbol? : Entry → Option LibrarySymbol
  | .library symbol => some symbol
  | _ => none

namespace Resolver

variable {r : Resolver}

/-! ## One listing -/

/-- What a listing shows of a platform and of some units under a policy. -/
structure Shows (policy : Policy) (catalogue : Catalogue) (units : List PluginUnit) (location : Location)
    (package : String) (kinds : List EntryKind) (entries : List Entry) : Prop where
  /-- The contract listing shows the units and one contract type, of the kinds that were asked for. -/
  contract : location = .classPath → package = policy.contract.package →
    entries = (units.map Entry.unit ++ [Entry.contract policy.contract]).filter fun e => e.kind ∈ kinds
  /-- A platform function is shown only where its package is visible, outside of the contract listing, if
  native entries were asked for, and from the very location and package that were asked for. -/
  library : ∀ symbol, Entry.library symbol ∈ entries →
    policy.isVisible location.realm package = true ∧
      ¬ (location = .classPath ∧ package = policy.contract.package) ∧ .native ∈ kinds ∧
        ∃ f ∈ catalogue.functions, f.location = location ∧ f.symbol.package = package ∧ f.symbol = symbol
  /-- Where platform functions are shown, all of them are, in the order of the catalogue. -/
  all : policy.isVisible location.realm package = true →
    ¬ (location = .classPath ∧ package = policy.contract.package) → .native ∈ kinds →
      entries.filterMap Entry.symbol? =
        (catalogue.functions.filter fun f => f.location = location ∧ f.symbol.package = package).map
          NativeFunction.symbol
  /-- What is neither visible nor the contract listing shows nothing. -/
  denied : ¬ (location = .classPath ∧ package = policy.contract.package) →
    policy.isVisible location.realm package = false → entries = []
  /-- Every entry that is shown has a name. -/
  named : ∀ e ∈ entries, (inferName? e).isSome = true

theorem symbols_list (c : Catalogue) (location : Location) (package : String) (kinds : List EntryKind) :
    (c.list location package kinds).filterMap Entry.symbol? =
      if .native ∈ kinds then c.symbols location package else [] := by
  have hcontract : ∀ P : Prop, [Decidable P] →
      (if P then [Entry.contract c.contract] else []).filterMap Entry.symbol? = [] := by
    intro P _
    split <;> rfl
  rw [Catalogue.list, List.filterMap_append, hcontract, List.append_nil]
  split
  · rw [List.filterMap_map]
    exact List.filterMap_some
  · rfl

theorem mem_filterMap_symbol? {symbol : LibrarySymbol} {entries : List Entry} :
    symbol ∈ entries.filterMap Entry.symbol? ↔ Entry.library symbol ∈ entries := by
  rw [List.mem_filterMap]
  constructor
  · rintro ⟨e, he, hsymbol⟩
    cases e with
    | library other => exact Option.some.inj hsymbol ▸ he
    | _ => exact absurd hsymbol (by simp [Entry.symbol?])
  · exact fun h => ⟨_, h, rfl⟩

/-- No platform function is shown by the contract listing. -/
theorem symbols_contractListing (r : Resolver) (kinds : List EntryKind) :
    (r.contractListing kinds).filterMap Entry.symbol? = [] := by
  refine List.filterMap_eq_nil_iff.2 fun e he => ?_
  rcases List.mem_append.1 (List.mem_filter.1 he).1 with hunit | hcontract
  · obtain ⟨u, _, rfl⟩ := List.mem_map.1 hunit
    rfl
  · obtain rfl := List.mem_singleton.1 hcontract
    rfl

theorem decide_verdict (r : Resolver) (location : Location) (package : String) (kinds : List EntryKind) :
    (r.decide location package kinds).1 = r.policy.verdict location package := by
  rw [Resolver.decide, Policy.verdict]
  by_cases hcontract : location = .classPath ∧ package = r.policy.contract.package
  · rw [if_pos (Policy.isContractListing_iff.2 hcontract), if_pos hcontract]
  · rw [if_neg (mt Policy.isContractListing_iff.1 hcontract), if_neg hcontract]
    split <;> rfl

theorem isSome_inferName? (e : Entry) : (inferName? e).isSome = true := by
  cases e <;> rfl

section
variable {location : Location} {package : String}

theorem shows_contractListing (r : Resolver) (kinds : List EntryKind)
    (h : location = .classPath ∧ package = r.policy.contract.package) :
    Shows r.policy r.catalogue r.units location package kinds (r.contractListing kinds) where
  contract _ _ := rfl
  library := by
    intro symbol hsymbol
    rw [← mem_filterMap_symbol?, symbols_contractListing] at hsymbol
    exact absurd hsymbol (by simp)
  all _ hother := absurd h hother
  denied hother := absurd h hother
  named e _ := isSome_inferName? e

theorem shows_platform (r : Resolver) (kinds : List EntryKind)
    (h : ¬ (location = .classPath ∧ package = r.policy.contract.package))
    (hvisible : r.policy.isVisible location.realm package = true) :
    Shows r.policy r.catalogue r.units location package kinds (r.catalogue.list location package kinds) where
  contract hlocation hpackage := absurd ⟨hlocation, hpackage⟩ h
  library := by
    intro symbol hsymbol
    rw [← mem_filterMap_symbol?, symbols_list] at hsymbol
    split at hsymbol
    · next hnative =>
      obtain ⟨f, hf, rfl⟩ := List.mem_map.1 hsymbol
      obtain ⟨hfunctions, hlocation, hpackage⟩ := Catalogue.mem_package.1 hf
      exact ⟨hvisible, h, hnative, f, hfunctions, hlocation, hpackage, rfl⟩
    · exact absurd hsymbol (by simp)
  all := by
    intro _ _ hnative
    rw [symbols_list, if_pos hnative]
    rfl
  denied _ hhidden := absurd hvisible (by simp [hhidden])
  named e _ := isSome_inferName? e

theorem shows_nothing (r : Resolver) (kinds : List EntryKind)
    (h : ¬ (location = .classPath ∧ package = r.policy.contract.package))
    (hhidden : ¬ r.policy.isVisible location.realm package = true) :
    Shows r.policy r.catalogue r.units location package kinds [] where
  contract hlocation hpackage := absurd ⟨hlocation, hpackage⟩ h
  library _ hsymbol := absurd hsymbol (by simp)
  all hvisible := absurd hvisible hhidden
  denied _ _ := rfl
  named e _ := isSome_inferName? e

end

/-- A listing shows what the policy lets it show. -/
theorem shows_list (r : Resolver) (location : Location) (package : String) (kinds : List EntryKind) :
    Shows r.policy r.catalogue r.units location package kinds (r.list location package kinds).1 := by
  show Shows r.policy r.catalogue r.units location package kinds (r.decide location package kinds).2
  rw [Resolver.decide]
  split
  · next hcontract => exact shows_contractListing r kinds (Policy.isContractListing_iff.1 hcontract)
  · next hother =>
    have h := mt Policy.isContractListing_iff.2 hother
    split
    · next hvisible => exact shows_platform r kinds h hvisible
    · next hhidden => exact shows_nothing r kinds h hhidden

/-! ## Any operations -/

/-- The record that a listing must leave, with the number of entries that it shows. -/
def recordOf? (r : Resolver) : Operation → Option Decision
  | .list location package kinds =>
    some
      { realm := location.realm, package, kinds
        verdict := r.policy.verdict location package
        entries := (r.list location package kinds).1.length }
  | _ => none

theorem decision?_eq_recordOf? (r : Resolver) (op : Operation) : r.decision? op = r.recordOf? op := by
  cases op with
  | list location package kinds =>
    rw [decision?, decisionOn, decide_verdict]
    rfl
  | _ => rfl

/-- **Default deny.** After any operations on a resolver of any platform and policy, a listing shows what the
policy lets it show of the platform and of the units registered so far.  The decisions are one record for each
listing, in order, with what it was asked and what it showed at that moment.  If the policy is that of a valid
configuration, no listing ever shows a platform function of the class path, or one of a package that the
allowlist of the configuration does not name for its realm. -/
theorem default_deny (catalogue : Catalogue) (policy : Policy) (correlation : Correlation) (clock : Clock)
    (ops : List Operation) :
    (∀ location package kinds,
      Shows policy catalogue (ops.filterMap Operation.unit?) location package kinds
        (((opened catalogue policy correlation clock).after ops).list location package kinds).1) ∧
    ((opened catalogue policy correlation clock).after ops).decisions.toList =
      ((opened catalogue policy correlation clock).moments ops).filterMap
        (fun moment => moment.1.recordOf? moment.2) ∧
    (∀ configuration : Configuration, configuration.IsValid → policy = .ofConfiguration configuration →
      ∀ location package kinds symbol,
        Entry.library symbol ∈
            (((opened catalogue policy correlation clock).after ops).list location package kinds).1 →
          location ≠ .classPath ∧
            ∃ packages, configuration.allowlist[location.realm]? = some packages ∧ package ∈ packages) := by
  have hshows : ∀ location package kinds,
      Shows policy catalogue (ops.filterMap Operation.unit?) location package kinds
        (((opened catalogue policy correlation clock).after ops).list location package kinds).1 := by
    intro location package kinds
    have hlist := shows_list ((opened catalogue policy correlation clock).after ops) location package kinds
    rwa [units_after, policy_after, catalogue_after] at hlist
  refine ⟨hshows, ?_, ?_⟩
  · rw [decisions_after]
    refine (List.nil_append _).trans (List.filterMap_congr fun moment _ => ?_)
    exact decision?_eq_recordOf? moment.1 moment.2
  · rintro configuration hvalid rfl location package kinds symbol hsymbol
    obtain ⟨hvisible, hother, _⟩ := (hshows location package kinds).library symbol hsymbol
    have hlocation : location ≠ .classPath := by
      rintro rfl
      exact hother ⟨rfl, isVisible_classPath hvalid hvisible⟩
    exact ⟨hlocation, Policy.isVisible_ofConfiguration hlocation hvisible⟩

/-- With the default configuration, all of the mathematics of the standard platform is shown, which the allowlist
names, and nothing of the configuration of the host. -/
theorem default_deny_standard :
    let r := (opened (.standard defaultContract) (.ofConfiguration .default) default (.still default)).after
      [.register default, .list .classPath "host.config" EntryKind.all]
    (r.list (.systemModule baseModule) "math" EntryKind.all).1.filterMap Entry.symbol? =
      [⟨"math", "abs", 1⟩, ⟨"math", "max", 2⟩, ⟨"math", "min", 2⟩, ⟨"math", "pow", 2⟩] ∧
    (∃ packages, Configuration.default.allowlist[(Location.systemModule baseModule).realm]? = some packages ∧
      "math" ∈ packages) ∧
    (r.list .classPath "host.config" EntryKind.all).1 = [] ∧
    r.decisions.toList = [⟨"class-path", "host.config", EntryKind.all, .denied, 0⟩] := by
  obtain ⟨hshows, hdecisions, hconfiguration⟩ := default_deny (.standard defaultContract)
    (.ofConfiguration .default) default (.still default)
    [.register default, .list .classPath "host.config" EntryKind.all]
  have hmath := (hshows (.systemModule baseModule) "math" EntryKind.all).all (by decide +kernel)
    (by simp) (by decide)
  have hvalid : Configuration.default.IsValid := by decide +kernel
  refine ⟨hmath, ?_, (hshows .classPath "host.config" EntryKind.all).denied (by decide +kernel)
    (by decide +kernel), hdecisions.trans (by decide +kernel)⟩
  refine (hconfiguration .default hvalid rfl _ _ EntryKind.all ⟨"math", "abs", 1⟩ ?_).2
  rw [← mem_filterMap_symbol?, hmath]
  decide +kernel

end Resolver
end PluginSandbox
