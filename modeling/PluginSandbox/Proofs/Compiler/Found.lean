import Mathlib.Data.List.Find
import PluginSandbox.Program.Basic
import PluginSandbox.Proofs.Catalogue
import PluginSandbox.Proofs.Compiler.Passes
import PluginSandbox.Proofs.Loader.Links
import PluginSandbox.Proofs.Visibility

/-!
# What names are found to mean

What an answer of a session says.  With a valid configuration the class path shows units and the contract type
only, so a function is found in a module of the platform, in a package that is visible there, and is the first
one of its name (`Resolver.linkable?_of_meaning`): the same one that a loader links by the qualified name, which
it cuts at the last full stop.
-/

namespace PluginSandbox

/-! ## Qualified names -/

/-- An identifier holds no full stop. -/
theorem splitLastChars?_of_identifier {chars : List Char} (h : ∀ c ∈ chars, c ≠ '.') :
    splitLastChars? chars = none := by
  induction chars with
  | nil => rfl
  | cons c chars ih =>
    obtain ⟨hc, hrest⟩ := List.forall_mem_cons.1 h
    rw [splitLastChars?, ih hrest]
    exact if_neg hc

theorem splitLastChars?_append {package name : List Char} (h : ∀ c ∈ name, c ≠ '.') :
    splitLastChars? (package ++ '.' :: name) = some (package, name) := by
  induction package with
  | nil =>
    rw [List.nil_append, splitLastChars?, splitLastChars?_of_identifier h]
    rfl
  | cons c package ih =>
    rw [List.cons_append, splitLastChars?, ih]

theorem ne_dot_of_isIdentifier {name : String} (h : isIdentifier name = true) :
    ∀ c ∈ name.toList, c ≠ '.' := by
  rw [isIdentifier] at h
  rintro c hc rfl
  cases hchars : name.toList with
  | nil => exact absurd hc (by simp [hchars])
  | cons first rest =>
    rw [hchars, isIdentifierChars, Bool.and_eq_true] at h
    rw [hchars] at hc
    rcases List.mem_cons.1 hc with rfl | hc
    · exact absurd h.1 (by decide)
    · exact absurd (List.all_eq_true.1 h.2 '.' hc) (by decide)

/-- A qualified name is cut in front of its simple name. -/
theorem splitLast?_qualify (package : String) {name : String} (h : isIdentifier name = true) :
    splitLast? (qualify package name) = some (package, name) := by
  have hchars : (qualify package name).toList = package.toList ++ '.' :: name.toList := by
    simp [qualify]
  rw [splitLast?, hchars, splitLastChars?_append (ne_dot_of_isIdentifier h)]
  simp

theorem qualify_inj {package name name' : String} :
    qualify package name = qualify package name' ↔ name = name' := by
  constructor
  · intro h
    have hchars := congrArg String.toList h
    simp only [qualify, String.toList_append, List.append_assoc, List.append_cancel_left_eq] at hchars
    exact String.toList_inj.1 hchars
  · rintro rfl
    rfl

/-! ## Functions of the platform -/

namespace Catalogue

variable {c : Catalogue} {location : Location} {package name : String}

/-- A look-up finds the first function of a name. -/
theorem lookup?_qualify (hname : isIdentifier name = true) :
    c.lookup? location (qualify package name) =
      (c.package location package).find? fun f => f.symbol.name = name := by
  rw [lookup?, splitLast?_qualify package hname]
  rfl

/-- The first function of a name is the first one of its symbol. -/
theorem function?_of_find? {f : NativeFunction}
    (h : ((c.package location package).find? fun f => f.symbol.name = name) = some f) :
    f.symbol.package = package ∧ f.symbol.name = name ∧ c.function? location f.symbol = some f := by
  obtain ⟨hname, before, after, hsplit, hbefore⟩ := List.find?_eq_some_iff_append.1 h
  have hname : f.symbol.name = name := of_decide_eq_true hname
  obtain ⟨_, _, hpackage⟩ := mem_package.1 (List.mem_of_find?_eq_some h)
  refine ⟨hpackage, hname, ?_⟩
  rw [function?, hpackage]
  refine List.find?_eq_some_iff_append.2 ⟨decide_eq_true rfl, before, after, hsplit, fun g hg => ?_⟩
  -- A function of the same symbol has the same name.
  have hne := hbefore g hg
  simp only [Bool.not_eq_true', decide_eq_false_iff_not] at hne ⊢
  rintro hsymbol
  exact hne (hsymbol ▸ hname)

end Catalogue

namespace Resolver

variable {r : Resolver} {configuration : Configuration} {package name : String}

/-- A name is found in a visible package of a module as the first function of that name. -/
theorem foundAt_systemModule (r : Resolver) (package name m : String) :
    r.foundAt package name (.systemModule m) =
      if r.policy.isVisible (Location.systemModule m).realm package then
        ((r.catalogue.package (.systemModule m) package).find? fun f => f.symbol.name = name).map
          fun f => (.systemModule m, .library f.symbol)
      else none := by
  rw [foundAt, Resolver.decide, isContractListing_systemModule, if_neg (by simp)]
  by_cases hvisible : r.policy.isVisible (Location.systemModule m).realm package = true
  · have hlist : r.catalogue.list (.systemModule m) package (Lookup.kindsAt (.systemModule m)) =
        (r.catalogue.package (.systemModule m) package).map fun f => Entry.library f.symbol := by
      simp [Catalogue.list, Lookup.kindsAt, Catalogue.symbols]
    rw [if_pos hvisible, if_pos hvisible, hlist, List.find?_map, Option.map_map]
    refine congrArg (Option.map _) (List.find?_congr fun f hf => ?_)
    -- The functions of a package are told apart by their simple names.
    obtain ⟨_, _, hpackage⟩ := Catalogue.mem_package.1 hf
    have hsame : f.symbol.qualifiedName = qualify package name ↔ f.symbol.name = name := by
      rw [LibrarySymbol.qualifiedName, hpackage]
      exact qualify_inj
    exact decide_eq_decide.2 hsame
  · rw [if_neg hvisible, if_neg hvisible]
    rfl

/-- The class path shows the units of the session and the contract type, and nothing else. -/
theorem foundAt_classPath (hvalid : configuration.IsValid)
    (hp : r.policy = .ofConfiguration configuration) {location : Location} {e : Entry}
    (h : r.foundAt package name .classPath = some (location, e)) :
    (∃ u ∈ r.units, e = .unit u) ∨ e = .contract configuration.contract := by
  rw [foundAt] at h
  obtain ⟨found, hfind, heq⟩ := Option.map_eq_some_iff.1 h
  obtain ⟨_, rfl⟩ := Prod.mk.inj heq
  have hmem := List.mem_of_find?_eq_some hfind
  rw [Resolver.decide] at hmem
  split at hmem
  · obtain ⟨hentries, _⟩ := List.mem_filter.1 hmem
    rcases List.mem_append.1 hentries with hunit | hcontract
    · obtain ⟨u, hu, rfl⟩ := List.mem_map.1 hunit
      exact .inl ⟨u, hu, rfl⟩
    · refine .inr ?_
      rw [List.mem_singleton.1 hcontract, hp]
      rfl
  · next hcontract =>
    split at hmem
    · next hvisible =>
      -- Only the package of the contract is visible there, and that one is listed by its units.
      refine absurd ?_ hcontract
      rw [hp] at hvisible ⊢
      rw [Policy.isContractListing, isVisible_classPath hvalid hvisible]
      simp [Policy.userRealm, Policy.ofConfiguration, Policy.ofAllowlist]
    · exact absurd hmem (by simp)

/-- What an answer of a session is: a unit, the contract type, or the first function of the name in a visible
package of a module of the platform. -/
inductive Answers (r : Resolver) (contract : ContractType) : Question → Location × Entry → Prop
  | unit {question : Question} {location : Location} {u : PluginUnit} : u ∈ r.units →
      Answers r contract question (location, .unit u)
  | contract {question : Question} {location : Location} :
      Answers r contract question (location, .contract contract)
  | function {m package name : String} {f : NativeFunction} :
      r.policy.isVisible (Location.systemModule m).realm package = true →
      ((r.catalogue.package (.systemModule m) package).find? fun f => f.symbol.name = name) = some f →
      Answers r contract (.inModules package name) (.systemModule m, .library f.symbol)

theorem answers_of_meaning (hvalid : configuration.IsValid)
    (hp : r.policy = .ofConfiguration configuration) {question : Question} {found : Location × Entry}
    (h : r.meaning question = some found) : r.Answers configuration.contract question found := by
  obtain ⟨location, e⟩ := found
  cases question with
  | onClassPath package name =>
    rcases foundAt_classPath hvalid hp h with ⟨u, hu, rfl⟩ | rfl
    · exact .unit hu
    · exact .contract
  | inModules package name =>
    obtain ⟨asked, hasked, hfound⟩ := List.exists_of_findSome?_eq_some h
    rw [moduleLocations, Catalogue.moduleLocations, mem_inOrder] at hasked
    cases asked with
    | systemModule m =>
      rw [foundAt_systemModule] at hfound
      split at hfound
      · next hvisible =>
        obtain ⟨f, hf, heq⟩ := Option.map_eq_some_iff.1 hfound
        rw [← heq]
        exact .function hvisible hf
      · exact absurd hfound (by simp)
    | _ => exact absurd (List.mem_filter.1 hasked).2 (by simp [Location.isSystemModule])

/-- The only contract type that a name means is that of the configuration. -/
theorem contract_of_meaning (hvalid : configuration.IsValid)
    (hp : r.policy = .ofConfiguration configuration) {question : Question} {location : Location}
    {c : ContractType} (h : r.meaning question = some (location, .contract c)) :
    c = configuration.contract := by
  cases answers_of_meaning hvalid hp h
  rfl

/-- A function that a name means may be linked by its qualified name, and is the one that is found. -/
theorem linkable?_of_meaning (hvalid : configuration.IsValid)
    (hp : r.policy = .ofConfiguration configuration) (hname : isIdentifier name = true)
    {unit : PluginUnit} {imports : List Import} {location : Location} {symbol : LibrarySymbol}
    (h : r.meaning.callee unit imports name = some (location, .library symbol)) {s : LoadSource}
    (hcatalogue : s.catalogue = r.catalogue) (hpolicy : s.policy = r.policy) :
    ∃ f, r.catalogue.function? location symbol = some f ∧ f.symbol = symbol ∧
      ((r.catalogue.package location symbol.package).find? fun f => f.symbol.name = name) = some f ∧
      s.linkable? location symbol.qualifiedName = some f := by
  obtain ⟨package, hon | hin⟩ := Meaning.callee_eq_some h
  · exact absurd (answers_of_meaning hvalid hp hon) (by rintro ⟨⟩)
  · cases answers_of_meaning hvalid hp hin with
    | @function m _ _ f hvisible hfind =>
      obtain ⟨hpackage, hsimple, hfirst⟩ := Catalogue.function?_of_find? hfind
      refine ⟨f, hfirst, rfl, hpackage ▸ hfind, ?_⟩
      rw [LoadSource.linkable?_eq_some, hcatalogue, hpolicy, LibrarySymbol.qualifiedName, hpackage, hsimple,
        Catalogue.lookup?_qualify hname]
      exact ⟨rfl, hfind, hvisible⟩

end Resolver
end PluginSandbox
