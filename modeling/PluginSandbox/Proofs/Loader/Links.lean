import PluginSandbox.Loader
import PluginSandbox.Proofs.Order

/-!
# The link table of a loaded module

A module that has been loaded under a name was decoded from the artifact of that name, has nothing wrong with
it, and is linked to exactly the functions that it refers to: `native?_of_materialize` says that its link
table answers with the function that the source allows (`LoadSource.linkable?`) for what the module refers
to, and with nothing else.
-/

namespace PluginSandbox

/-! ## References -/

/-- What a module refers to is what its operations refer to. -/
theorem Module.mem_nativeImports {m : Module} {location : Location} {symbol : String} :
    (location, symbol) ∈ m.nativeImports ↔
      ∃ f ∈ m.functions, ∃ argc, Op.callNative location symbol argc ∈ f.code := by
  rw [Module.nativeImports, mem_inOrder, List.mem_flatMap]
  constructor
  · rintro ⟨f, hf, h⟩
    obtain ⟨op, hop, href⟩ := List.mem_filterMap.1 h
    cases op <;> simp [Module.nativeReference?] at href
    obtain ⟨rfl, rfl⟩ := href
    exact ⟨f, Array.mem_toList_iff.1 hf, _, Array.mem_toList_iff.1 hop⟩
  · rintro ⟨f, hf, argc, hop⟩
    refine ⟨f, Array.mem_toList_iff.2 hf, List.mem_filterMap.2 ⟨_, Array.mem_toList_iff.2 hop, rfl⟩⟩

/-! ## Linking -/

namespace LoadSource

variable {s : LoadSource}

/-- A function that may be linked is found by its name at its location, which is a module of the platform,
and its package is visible there. -/
theorem linkable?_eq_some {location : Location} {symbol : String} {f : NativeFunction} :
    s.linkable? location symbol = some f ↔
      location.isSystemModule = true ∧ s.catalogue.lookup? location symbol = some f ∧
        s.policy.isVisible location.realm f.symbol.package = true := by
  rw [linkable?]
  split
  · next h => simp [h, Option.filter_eq_some_iff]
  · next h => simp [h]

theorem link_cons_ok {location : Location} {symbol : String} {rest : List (Location × String)}
    {links : List Link} :
    s.link ((location, symbol) :: rest) = .ok links ↔
      ∃ f more, s.linkable? location symbol = some f ∧ s.link rest = .ok more ∧
        links = ⟨location, symbol, f⟩ :: more := by
  rw [link]
  cases hf : s.linkable? location symbol with
  | none => simp
  | some f =>
    cases hr : s.link rest with
    | error e => simp [Except.map]
    | ok more => simp [Except.map, eq_comm]

/-- Linking succeeds if everything can be linked. -/
theorem exists_link_ok {refs : List (Location × String)}
    (h : ∀ r ∈ refs, (s.linkable? r.1 r.2).isSome = true) : ∃ links, s.link refs = .ok links := by
  induction refs with
  | nil => exact ⟨[], rfl⟩
  | cons r rest ih =>
    obtain ⟨location, symbol⟩ := r
    obtain ⟨f, hf⟩ := Option.isSome_iff_exists.1 (h (location, symbol) (by simp))
    obtain ⟨more, hmore⟩ := ih fun r hr => h r (List.mem_cons_of_mem _ hr)
    exact ⟨_, link_cons_ok.2 ⟨f, more, hf, hmore, rfl⟩⟩

/-- Where linking succeeds, everything can be linked. -/
theorem isSome_linkable?_of_link {refs : List (Location × String)} {links : List Link}
    (h : s.link refs = .ok links) : ∀ r ∈ refs, (s.linkable? r.1 r.2).isSome = true := by
  induction refs generalizing links with
  | nil => exact fun _ hr => absurd hr (by simp)
  | cons r rest ih =>
    obtain ⟨location, symbol⟩ := r
    obtain ⟨f, more, hf, hmore, _⟩ := link_cons_ok.1 h
    exact List.forall_mem_cons.2 ⟨Option.isSome_of_eq_some hf, ih hmore⟩

/-- A look-up among the links of some references gives what may be linked, for these references only. -/
theorem find?_of_link {refs : List (Location × String)} {links : List Link}
    (h : s.link refs = .ok links) (location : Location) (symbol : String) :
    (links.find? fun l => l.location = location ∧ l.symbol = symbol).map Link.function =
      if (location, symbol) ∈ refs then s.linkable? location symbol else none := by
  induction refs generalizing links with
  | nil =>
    obtain rfl : links = [] := by simpa [link, eq_comm] using h
    rfl
  | cons r rest ih =>
    obtain ⟨l, y⟩ := r
    obtain ⟨f, more, hf, hmore, rfl⟩ := link_cons_ok.1 h
    by_cases heq : l = location ∧ y = symbol
    · obtain ⟨rfl, rfl⟩ := heq
      simp [hf]
    · have hne : (location, symbol) ≠ (l, y) := by
        rintro ⟨⟩
        exact heq ⟨rfl, rfl⟩
      rw [List.find?_cons_of_neg (by simpa using heq), ih hmore]
      simp [hne]

/-! ## Loading from bytes -/

/-- Loading a name succeeds when its artifact stands for a module that has no flaw and whose references can
be linked. -/
theorem materialize_of_decode? {name : String} {a : Artifact} {m : Module} {links : List Link}
    (ha : s.artifacts.get? name = some a) (hm : Module.decode? a.bytes = some m)
    (hflaw : s.flaw? name m = none) (hlink : s.link m.nativeImports = .ok links) :
    s.materialize name = .ok { module := m, digest := a.digest, size := a.bytes.size, links } := by
  simp only [materialize, ha, hm, hflaw, hlink]

/-- Loading a name succeeds exactly with a module that its artifact stands for, that has no flaw, and whose
references can be linked. -/
theorem materialize_eq_ok {name : String} {m : LoadedModule} :
    s.materialize name = .ok m ↔
      ∃ a, s.artifacts.get? name = some a ∧ Module.decode? a.bytes = some m.module ∧
        s.flaw? name m.module = none ∧ s.link m.module.nativeImports = .ok m.links ∧
        m.digest = a.digest ∧ m.size = a.bytes.size := by
  constructor
  · intro h
    rw [materialize] at h
    split at h
    · simp at h
    · next a ha =>
      split at h
      · simp at h
      · next module hm =>
        split at h
        · simp at h
        · next hflaw =>
          split at h
          · simp at h
          · next links hlink =>
            obtain rfl := Except.ok.inj h
            exact ⟨a, ha, hm, hflaw, hlink, rfl, rfl⟩
  · rintro ⟨a, ha, hm, hflaw, hlink, hdigest, hsize⟩
    rw [materialize_of_decode? ha hm hflaw hlink, ← hdigest, ← hsize]

/-- The link table of a loaded module holds what may be linked of its references, and nothing else. -/
theorem native?_of_materialize {name : String} {m : LoadedModule} (h : s.materialize name = .ok m)
    (location : Location) (symbol : String) :
    m.native? location symbol =
      if (location, symbol) ∈ m.module.nativeImports then s.linkable? location symbol else none := by
  obtain ⟨_, _, _, _, hlink, _⟩ := materialize_eq_ok.1 h
  exact find?_of_link hlink location symbol

/-- A loaded module is linked to everything that its operations refer to. -/
theorem native?_ne_none {name : String} {m : LoadedModule} (h : s.materialize name = .ok m)
    {f : Function} (hf : f ∈ m.module.functions) {location : Location} {symbol : String} {argc : Nat}
    (hop : Op.callNative location symbol argc ∈ f.code) : m.native? location symbol ≠ none := by
  obtain ⟨_, _, _, _, hlink, _⟩ := materialize_eq_ok.1 h
  have hmem := Module.mem_nativeImports.2 ⟨f, hf, argc, hop⟩
  have hsome := isSome_linkable?_of_link hlink _ hmem
  rw [native?_of_materialize h, if_pos hmem]
  exact Option.isSome_iff_ne_none.1 hsome

/-- A loaded module passes the structural checks. -/
theorem firstFlaw?_of_materialize {name : String} {m : LoadedModule} (h : s.materialize name = .ok m) :
    m.module.firstFlaw? = none := by
  obtain ⟨_, _, _, hflaw, _, _⟩ := materialize_eq_ok.1 h
  rw [flaw?] at hflaw
  split at hflaw
  · exact absurd hflaw (by simp)
  split at hflaw
  · exact absurd hflaw (by simp)
  split at hflaw
  · exact absurd hflaw (by simp)
  exact Option.map_eq_none_iff.1 hflaw

/-- A module is what the source gives for some name. -/
def Gives (s : LoadSource) (m : LoadedModule) : Prop :=
  ∃ name, s.materialize name = .ok m

/-- Whatever a loaded module is linked to may be linked. -/
theorem linkable?_of_native? {name : String} {m : LoadedModule} (h : s.materialize name = .ok m)
    {location : Location} {symbol : String} {f : NativeFunction}
    (hf : m.native? location symbol = some f) : s.linkable? location symbol = some f := by
  rw [native?_of_materialize h] at hf
  split at hf
  · exact hf
  · exact absurd hf (by simp)

end LoadSource
end PluginSandbox
