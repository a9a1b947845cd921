import PluginSandbox.Proofs.Compiler.Apart
import PluginSandbox.Proofs.Compiler.Found
import PluginSandbox.Proofs.Compiler.Sought
import PluginSandbox.Proofs.Language.Derived
import PluginSandbox.Proofs.Language.Lexed

/-!
# Unused imports

The checker warns of an import that was found but whose name no construct of the unit looks up.  Such an import may be
left out: the unit compiles to the same module, and all that is reported is the same but for the warning
(`Builtin.unused_imports`).  An import that is bound and not warned of is looked up.

Both follow from what the checker makes of a unit (`Builtin.memberOutcome_eq`): it binds the imports, goes through
the plugin, where all that matters is what the names are bound to that the unit looks up, and warns of the bindings
that these names have not marked.
-/

namespace PluginSandbox

/-! ## Paths of imports -/

/-- The warning of an import of a unit that is never used. -/
def Import.warning (u : PluginUnit) (i : Import) : Diagnostic :=
  (CheckProblem.unusedImport i.qualifiedName).diagnostic u.qualifiedName i.position

/-- A path is a package and a symbol of it, and both consist of identifiers. -/
structure Import.WellFormed (i : Import) : Prop where
  two : 2 ≤ i.segments.length
  identifiers : ∀ segment ∈ i.segments, isIdentifier segment = true

theorem toList_joinPath_append {segments : List String} (h : segments ≠ []) (last : String) :
    (joinPath (segments ++ [last])).toList = (joinPath segments).toList ++ '.' :: last.toList := by
  rw [joinPath, joinPath, String.toList_intercalate, String.toList_intercalate, List.map_append]
  induction segments with
  | nil => exact absurd rfl h
  | cons first rest ih =>
    cases rest with
    | nil => simp [List.intercalate_cons_cons]
    | cons second rest =>
      have hrest := ih (List.cons_ne_nil _ _)
      simp only [List.map_cons, List.cons_append, List.intercalate_cons_cons] at hrest ⊢
      rw [hrest]
      simp

/-- The path of an import shows its name. -/
theorem Import.WellFormed.qualifiedName_eq {i : Import} (h : i.WellFormed) :
    i.qualifiedName = qualify i.package i.name ∧ isIdentifier i.name = true := by
  obtain ⟨hlength, hidentifiers⟩ := h
  obtain ⟨segments, position⟩ := i
  rcases List.eq_nil_or_concat segments with rfl | ⟨init, last, rfl⟩
  · exact absurd hlength (by simp)
  · have hinit : init ≠ [] := by
      rintro rfl
      exact absurd hlength (by simp)
    rw [qualifiedName, package, name]
    simp only [List.concat_eq_append, List.dropLast_concat, List.getLast?_concat, Option.getD_some]
    refine ⟨String.toList_inj.1 ?_, hidentifiers last (by simp)⟩
    rw [toList_joinPath_append hinit, qualify]
    simp

theorem Import.WellFormed.name_eq {i j : Import} (hi : i.WellFormed) (hj : j.WellFormed)
    (h : i.qualifiedName = j.qualifiedName) : i.name = j.name := by
  obtain ⟨hi, hname⟩ := hi.qualifiedName_eq
  obtain ⟨hj, hname'⟩ := hj.qualifiedName_eq
  have hsplit := congrArg splitLast? h
  rw [hi, hj, splitLast?_qualify _ hname, splitLast?_qualify _ hname'] at hsplit
  exact (Prod.mk.inj (Option.some.inj hsplit)).2

/-- A warning shows the path of the import. -/
theorem Import.qualifiedName_eq_of_warning {u : PluginUnit} {i j : Import} (h : i.warning u = j.warning u) :
    i.qualifiedName = j.qualifiedName := by
  have hmessage : "unused import `" ++ i.qualifiedName ++ "`" = "unused import `" ++ j.qualifiedName ++ "`" :=
    congrArg Diagnostic.message h
  have hchars := congrArg String.toList hmessage
  rw [String.toList_append, String.toList_append, String.toList_append, String.toList_append] at hchars
  exact String.toList_inj.1 (List.append_cancel_left (List.append_cancel_right hchars))

namespace Grammar

theorem IsSeparated.mem {separator : TokenKind} {ts words : List Token} (h : IsSeparated separator ts words) :
    ∀ t ∈ words, t ∈ ts ∧ t.kind = .identifier := by
  induction h with
  | one hkind =>
    intro t ht
    rw [List.mem_singleton.1 ht]
    exact ⟨List.mem_singleton_self _, hkind⟩
  | more hkind _ _ ih =>
    intro t ht
    rcases List.mem_cons.1 ht with rfl | ht
    · exact ⟨List.mem_cons_self, hkind⟩
    · exact ⟨List.mem_cons_of_mem _ (List.mem_cons_of_mem _ (ih t ht).1), (ih t ht).2⟩

/-- The imports of a unit that is derived from tokens of a text are well formed. -/
theorem IsUnit.wellFormed {ts : List Token} {u : ParsedUnit} {n : Nat} (h : IsUnit ts u n)
    (hts : ∀ t ∈ ts, t.kind = .identifier → isIdentifier t.text = true) : ∀ i ∈ u.imports, i.WellFormed := by
  induction h with
  | nil => exact fun _ hi => absurd hi List.not_mem_nil
  | addImport himport _ ih =>
    refine List.forall_mem_cons.2 ⟨?_, ih fun t ht => hts t (List.mem_append_right _ ht)⟩
    cases himport with
    | path _ hpath hlength _ =>
      obtain ⟨words, hwords, rfl⟩ := hpath
      refine ⟨hlength, fun segment hsegment => ?_⟩
      obtain ⟨t, ht, rfl⟩ := List.mem_map.1 hsegment
      obtain ⟨hmem, hkind⟩ := hwords.mem t ht
      exact hts t (by simp [hmem]) hkind
  | addPlugin _ _ _ ih => exact ih fun t ht => hts t (List.mem_append_right _ ht)

end Grammar

/-- The imports of a text without syntax errors are well formed. -/
theorem ParsedUnit.wellFormed_imports {source : String} (h : (ofSource source).2 = []) :
    ∀ i ∈ (ofSource source).1.imports, i.WellFormed := by
  let lexed := Lexed.ofSource source
  let start : ParserState := { tokens := lexed.tokens, endToken := lexed.endToken, errors := [] }
  have hnames : ∀ t ∈ start.tokens, t.kind ≠ .endOfInput ∧ (t.kind = .identifier → isIdentifier t.text = true) :=
    Lexed.names_tokens source
  obtain ⟨_, htakes⟩ := Parser.takes_unit (start.tokens.length + 1) ⟨[], none⟩ start rfl
  have herrors : (Parser.unit (start.tokens.length + 1) ⟨[], none⟩ start).2.errors = [] := by
    have hall := List.eq_nil_of_length_eq_zero ((List.length_mergeSort _).symm.trans (congrArg List.length h))
    exact List.reverse_eq_nil_iff.1 (List.append_eq_nil_iff.1 hall).2
  obtain ⟨read, ts, hread, _, htokens⟩ := htakes herrors
  obtain ⟨rfl, v, rfl, ⟨n, _, hv⟩, _⟩ := htokens (Nat.lt_succ_self _) fun t ht => (hnames t ht).1
  have hparsed : (ofSource source).1 = append ⟨[], none⟩ v := by
    show (Parser.unit (start.tokens.length + 1) ⟨[], none⟩ start).1.getD ⟨[], none⟩ = _
    rw [hread, Option.getD_some]
  rw [hparsed, empty_append]
  exact hv.wellFormed fun t ht => (hnames t ht).2

/-! ## Binding the imports -/

namespace Checker

variable {m : Meaning} {u : PluginUnit}

/-- The binding of an import whose name is not bound yet. -/
def fresh (m : Meaning) (i : Import) : Binding where
  decl := i
  target := m.anywhere i.package i.name
  used := false

/-- The bindings behind an import: a name that is bound already is not bound again. -/
def bindAlong (m : Meaning) (bs : List Binding) (i : Import) : List Binding :=
  if bs.any fun b => b.decl.name = i.name then bs else bs ++ [fresh m i]

/-- The bindings of some imports. -/
def bindings (m : Meaning) (imports : List Import) : List Binding :=
  imports.foldl (bindAlong m) []

/-- Binding an import reports errors only. -/
theorem under_bindImport (u : PluginUnit) (i : Import) (bs : List Binding) :
    ∃ ds, (∀ d ∈ ds, d.isError = true) ∧
      ((bindImport u i).run bs).under m = (((), bindAlong m bs i), ds) := by
  have hrun : (bindImport u i).run bs =
      (if bs.any fun b => b.decl.name = i.name then report u i.position (.duplicateImport i.name)
      else do
        let target ← findAnywhere i.package i.name
        if target.isNone then report u i.position (.unknownSymbol i.qualifiedName)
        modify fun bindings => bindings ++ [{ decl := i, target, used := false }]).run bs := rfl
  rw [hrun, bindAlong]
  by_cases hbound : (bs.any fun b => b.decl.name = i.name) = true
  · rw [if_pos hbound, if_pos hbound]
    exact ⟨_, List.forall_mem_singleton.2 (isError_diagnostic rfl _ _), rfl⟩
  · rw [if_neg hbound, if_neg hbound, StateT.run_bind, Query.under_bind, under_findAnywhere]
    dsimp only
    split
    · exact ⟨_, List.forall_mem_singleton.2 (isError_diagnostic rfl _ _), rfl⟩
    · exact ⟨[], fun _ hd => absurd hd List.not_mem_nil, rfl⟩

theorem under_bindImports (u : PluginUnit) (imports : List Import) (bs : List Binding) :
    ∃ ds, (∀ d ∈ ds, d.isError = true) ∧
      ((imports.forM (bindImport u)).run bs).under m = (((), imports.foldl (bindAlong m) bs), ds) := by
  induction imports generalizing bs with
  | nil => exact ⟨[], fun _ hd => absurd hd List.not_mem_nil, rfl⟩
  | cons i imports ih =>
    obtain ⟨ds, herrors, hfirst⟩ := under_bindImport (m := m) u i bs
    obtain ⟨ds', herrors', hrest⟩ := ih (bindAlong m bs i)
    have hcons : (i :: imports).forM (bindImport u) = bindImport u i >>= fun _ => imports.forM (bindImport u) := rfl
    refine ⟨ds ++ ds', fun d hd => (List.mem_append.1 hd).elim (herrors d) (herrors' d), ?_⟩
    rw [hcons, StateT.run_bind, Query.under_bind, hfirst, hrest, List.foldl_cons]

/-- Imports of different names are all bound. -/
theorem bindings_of_nodup {imports : List Import} (h : (imports.map Import.name).Nodup) :
    bindings m imports = imports.map (fresh m) := by
  suffices hbehind : ∀ bs : List Binding, (∀ i ∈ imports, ∀ b ∈ bs, b.decl.name ≠ i.name) →
      imports.foldl (bindAlong m) bs = bs ++ imports.map (fresh m) from
    hbehind [] fun _ _ _ hb => absurd hb List.not_mem_nil
  induction imports with
  | nil => exact fun bs _ => (List.append_nil bs).symm
  | cons i imports ih =>
    intro bs hbs
    obtain ⟨hi, hrest⟩ := List.nodup_cons.1 h
    obtain ⟨hnew, hbs⟩ := List.forall_mem_cons.1 hbs
    have hany : ¬ (bs.any fun b => b.decl.name = i.name) = true := by simpa using hnew
    rw [List.foldl_cons, bindAlong, if_neg hany, ih hrest, List.map_cons, List.append_assoc, List.singleton_append]
    intro j hj b hb
    rcases List.mem_append.1 hb with hb | hb
    · exact hbs j hj b hb
    · rw [List.mem_singleton.1 hb]
      exact fun heq => hi (List.mem_map.2 ⟨j, hj, heq.symm⟩)

/-- The first import of a name is bound. -/
theorem mem_bindings {imports : List Import} {i : Import} (h : imports.find? (fun j => j.name = i.name) = some i) :
    fresh m i ∈ bindings m imports := by
  have hkept : ∀ (imports : List Import) (bs : List Binding), ∀ b ∈ bs, b ∈ imports.foldl (bindAlong m) bs := by
    intro imports
    induction imports with
    | nil => exact fun bs b hb => hb
    | cons j imports ih =>
      intro bs b hb
      refine ih _ b ?_
      rw [bindAlong]
      split
      · exact hb
      · exact List.mem_append_left _ hb
  suffices hbehind : ∀ bs : List Binding, (∀ b ∈ bs, b.decl.name ≠ i.name) →
      fresh m i ∈ imports.foldl (bindAlong m) bs from
    hbehind [] fun _ hb => absurd hb List.not_mem_nil
  induction imports with
  | nil => exact absurd h (by simp)
  | cons j imports ih =>
    intro bs hbs
    rw [List.foldl_cons]
    by_cases hname : j.name = i.name
    · rw [List.find?_cons_of_pos (by simpa using hname)] at h
      obtain rfl := Option.some.inj h
      have hany : ¬ (bs.any fun b => b.decl.name = j.name) = true := by simpa using hbs
      refine hkept _ _ _ ?_
      rw [bindAlong, if_neg hany]
      exact List.mem_append_right _ (List.mem_singleton_self _)
    · rw [List.find?_cons_of_neg (by simpa using hname)] at h
      refine ih h _ fun b hb => ?_
      rw [bindAlong] at hb
      split at hb
      · exact hbs b hb
      · rcases List.mem_append.1 hb with hb | hb
        · exact hbs b hb
        · rw [List.mem_singleton.1 hb]
          exact hname

/-- An import of another name makes no difference to what a name is bound to. -/
theorem boundTo_without {first rest : List Import} {i : Import} {name : String} (h : i.name ≠ name) :
    boundTo ((first ++ rest).map (fresh m)) name = boundTo ((first ++ i :: rest).map (fresh m)) name := by
  have hbinds : bindsName name (fresh m i) = false := by simp [bindsName, fresh, h]
  rw [boundTo, boundTo, List.map_append, List.map_append, List.map_cons, List.find?_append, List.find?_append,
    List.find?_cons_of_neg (by simp [hbinds])]

/-! ## Warning of unused imports -/

/-- The warnings of some bindings that were found but never used. -/
def unusedAmong (u : PluginUnit) (bs : List Binding) : List Diagnostic :=
  (bs.filter fun b => b.target.isSome && !b.used).map fun b => b.decl.warning u

theorem under_warnUnused (u : PluginUnit) (bs : List Binding) :
    ((warnUnused u).run bs).under m = (((), bs), unusedAmong u bs) := by
  suffices hamong : ∀ some : List Binding,
      ((warnUnusedAmong u some).run bs).under m = (((), bs), unusedAmong u some) from hamong bs
  intro some
  induction some with
  | nil => rfl
  | cons b rest ih =>
    rw [warnUnusedAmong, unusedAmong, List.filter_cons]
    split
    · rw [StateT.run_bind, Query.under_bind]
      exact congrArg (fun outcome : (Unit × List Binding) × List Diagnostic =>
        (outcome.1, b.decl.warning u :: outcome.2)) ih
    · exact ih

/-- The warnings of those of some imports that are found and whose names are not looked up. -/
def warnings (m : Meaning) (u : PluginUnit) (names : List String) (imports : List Import) : List Diagnostic :=
  (imports.filter fun i => (m.anywhere i.package i.name).isSome && decide (i.name ∉ names)).map (Import.warning u)

theorem unusedAmong_marked (u : PluginUnit) (names : List String) (imports : List Import) :
    unusedAmong u (marked names (imports.map (fresh m))) = warnings m u names imports := by
  have hunused : ((fun b : Binding => b.target.isSome && !b.used) ∘ (mark names ∘ fresh m)) =
      fun i => (m.anywhere i.package i.name).isSome && decide (i.name ∉ names) := by
    funext i
    simp only [Function.comp_apply, mark_target, mark_used, fresh, Bool.false_or, decide_not]
    cases (m.anywhere i.package i.name).isSome <;> rfl
  have hwarning : ((fun b : Binding => b.decl.warning u) ∘ (mark names ∘ fresh m)) = Import.warning u := by
    funext i
    simp only [Function.comp_apply, mark_decl, fresh]
  rw [unusedAmong, marked, List.map_map, List.filter_map, List.map_map, hunused, hwarning, warnings]

theorem warnings_append {names : List String} (first rest : List Import) :
    warnings m u names (first ++ rest) = warnings m u names first ++ warnings m u names rest := by
  rw [warnings, List.filter_append, List.map_append]
  rfl

/-! ## One unit -/

/-- What the checker makes of a unit whose imports are bound, in front of the warnings. -/
def content (u : PluginUnit) (siblings : Signatures) (parsed : ParsedUnit) : Checker (Option Module) :=
  match parsed.plugin with
  | some decl => do
    if decl.name ≠ u.shortName then report u decl.position (.wrongName decl.name u.shortName)
    let contract ← supertype u decl.supertype decl.supertypePosition
    duplicateFunctions u [] decl.functions
    entryOperation u decl
    let functions ← decl.functions.mapM
      (Generator.function { unit := u, functions := parsed.signatures, siblings })
    return contract.map fun contract =>
      { formatVersion := Module.currentVersion, name := u.qualifiedName
        contract := contract.qualifiedName, functions := functions.toArray }
  | none => do
    report u ⟨0, 0⟩ (.noPlugin u.qualifiedName)
    return none

variable {siblings : Signatures} {parsed : ParsedUnit}

/-- A unit is checked in three parts. -/
theorem unit_eq (u : PluginUnit) (siblings : Signatures) (parsed : ParsedUnit) :
    unit u siblings parsed = (do
      set ([] : List Binding)
      parsed.imports.forM (bindImport u)
      let compiled ← content u siblings parsed
      warnUnused u
      return compiled) := by
  rw [unit, content]
  cases parsed.plugin with
  | none => simp only [bind_assoc, pure_bind]
  | some decl =>
    dsimp only
    rw [plugin]
    split <;> simp only [bind_assoc, pure_bind]

theorem seeks_content (u : PluginUnit) (siblings : Signatures) (parsed : ParsedUnit) :
    Seeks m (content u siblings parsed) parsed.sought fun _ => True := by
  rw [content, ParsedUnit.sought]
  cases parsed.plugin with
  | none => exact (seeks_error rfl).bind_pure fun _ _ => trivial
  | some decl =>
    refine seeks_report_if rfl ?_
    exact (seeks_supertype decl.supertype decl.supertypePosition).bind fun _ _ =>
      (seeks_duplicateFunctions decl.functions []).bind fun _ _ =>
        (seeks_entryOperation decl).bind fun _ _ =>
          (Generator.seeks_functions decl.functions).bind_pure fun _ _ => trivial

end Checker

namespace Builtin

open Checker

variable {m : Meaning} {u : PluginUnit} {siblings : Signatures} {p : ParsedUnit}

/-- What the checker makes of a unit: beside errors it reports the unused imports, and all that its imports matter for
is what they bind the names to that the unit looks up. -/
theorem memberOutcome_eq (m : Meaning) (u : PluginUnit) (siblings : Signatures) (p : ParsedUnit)
    (target : String → Found) :
    ∃ compiled ds, (∀ d ∈ ds, d.isError = true) ∧
      ∀ imports, (∀ name ∈ p.sought, boundTo (bindings m imports) name = target name) →
        ∃ ds', (∀ d ∈ ds', d.isError = true) ∧
          (ds' = [] ↔ (imports.map Import.name).Nodup ∧
            ∀ i ∈ imports, (m.anywhere i.package i.name).isSome = true) ∧
          memberOutcome m siblings (u, { p with imports }) =
            (compiled, ds' ++ (ds ++ unusedAmong u (marked p.sought (bindings m imports)))) := by
  obtain ⟨compiled, ds, _, herrors, hcontent⟩ := seeks_content (m := m) u siblings p target
  refine ⟨compiled, ds, herrors, fun imports htarget => ?_⟩
  obtain ⟨ds', herrors', hbind⟩ := under_bindImports (m := m) u imports []
  have hcontent := hcontent (bindings m imports) htarget
  refine ⟨ds', herrors', ?_, ?_⟩
  · -- Binding the imports passes exactly if it reports nothing, since all that it reports are errors.
    have hpasses : (∃ a bs', Passes m (imports.forM (bindImport u)) [] a bs') ↔ ds' = [] := by
      constructor
      · rintro ⟨a, bs', _, hquiet⟩
        rw [hbind] at hquiet
        refine List.eq_nil_iff_forall_not_mem.2 fun d hd => ?_
        exact absurd (hquiet d hd) (by rw [herrors' d hd]; simp)
      · rintro rfl
        exact ⟨_, _, congrArg Prod.fst hbind, by rw [hbind]; exact fun _ hd => absurd hd List.not_mem_nil⟩
    rw [← hpasses, (decides_bindImports u imports).passes_iff knows_nil]
    simp
  · have hunit : (unit u siblings { p with imports }).run [] = (do
        imports.forM (bindImport u)
        let compiled ← content u siblings p
        warnUnused u
        return compiled : Checker (Option Module)).run [] := by
      rw [unit_eq]
      rfl
    have hpure : ∀ a : Option Module × List Binding, (pure a : Query _).under m = (a, []) := fun _ => rfl
    rw [memberOutcome, hunit, StateT.run_bind, Query.under_bind, hbind, StateT.run_bind, Query.under_bind]
    rw [bindings] at hcontent
    rw [hcontent, StateT.run_bind, Query.under_bind, under_warnUnused, StateT.run_pure, hpure, List.append_nil]
    rfl

theorem eq_nil_of_quiet {ds : List Diagnostic} (herrors : ∀ d ∈ ds, d.isError = true)
    (hquiet : ∀ d ∈ ds, d.isError = false) : ds = [] :=
  List.eq_nil_iff_forall_not_mem.2 fun d hd => absurd (hquiet d hd) (by simp [herrors d hd])

/-- An import that is warned of may be left out of a unit without errors. -/
theorem memberOutcome_without {first rest : List Import} {i : Import} (himports : p.imports = first ++ i :: rest)
    (hwellFormed : ∀ j ∈ p.imports, j.WellFormed)
    (hquiet : ∀ d ∈ (memberOutcome m siblings (u, p)).2, d.isError = false)
    (hwarned : i.warning u ∈ (memberOutcome m siblings (u, p)).2) :
    (memberOutcome m siblings (u, { p with imports := first ++ rest })).1 =
        (memberOutcome m siblings (u, p)).1 ∧
      ∃ ds ds', (memberOutcome m siblings (u, p)).2 = ds ++ i.warning u :: ds' ∧
        (memberOutcome m siblings (u, { p with imports := first ++ rest })).2 = ds ++ ds' := by
  obtain ⟨compiled, ds, herrors, hunit⟩ :=
    memberOutcome_eq m u siblings p (boundTo (bindings m p.imports))
  obtain ⟨ds', herrors', hbound, houtcome⟩ := hunit p.imports fun _ _ => rfl
  have houtcome : memberOutcome m siblings (u, p) = _ := houtcome
  rw [houtcome] at hquiet hwarned ⊢
  -- Nothing but warnings was reported, so all imports are bound.
  obtain rfl := eq_nil_of_quiet herrors' fun d hd => hquiet d (List.mem_append_left _ hd)
  obtain rfl := eq_nil_of_quiet herrors fun d hd =>
    hquiet d (List.mem_append_right _ (List.mem_append_left _ hd))
  obtain ⟨hnodup, hfound⟩ := hbound.1 rfl
  rw [bindings_of_nodup hnodup, unusedAmong_marked] at hwarned ⊢
  rw [bindings_of_nodup hnodup] at hunit
  -- The warning shows the path of the import, so it is the warning of no other import.
  have hsought : i.name ∉ p.sought := by
    obtain ⟨j, hj, hwarning⟩ := List.mem_map.1 hwarned
    obtain ⟨hj, hunused⟩ := List.mem_filter.1 hj
    have hi : i ∈ p.imports := by simp [himports]
    rw [← (hwellFormed j hj).name_eq (hwellFormed i hi) (Import.qualifiedName_eq_of_warning hwarning)]
    simp only [Bool.and_eq_true, decide_eq_true_iff] at hunused
    exact hunused.2
  have hsub : (first ++ rest).Sublist p.imports := by
    rw [himports]
    exact (List.sublist_cons_self i rest).append_left first
  have hnodup' := hnodup.sublist (hsub.map Import.name)
  obtain ⟨ds', herrors', hbound', houtcome'⟩ := hunit (first ++ rest) fun name hname => by
    rw [bindings_of_nodup hnodup', himports]
    exact boundTo_without fun heq => hsought (heq ▸ hname)
  obtain rfl := hbound'.2 ⟨hnodup', fun j hj => hfound j (hsub.subset hj)⟩
  rw [houtcome', bindings_of_nodup hnodup', unusedAmong_marked]
  have hunused : warnings m u p.sought (i :: rest) = i.warning u :: warnings m u p.sought rest := by
    rw [warnings, warnings, List.filter_cons_of_pos, List.map_cons]
    rw [hfound i (by simp [himports]), decide_eq_true hsought]
    rfl
  refine ⟨rfl, warnings m u p.sought first, warnings m u p.sought rest, ?_, ?_⟩
  · show warnings m u p.sought p.imports = _
    rw [himports, warnings_append, hunused]
  · exact warnings_append first rest

end Builtin

/-- An import binds its name in a unit: it is the first one of that name, and what it names is found. -/
structure Import.Binds (m : Meaning) (imports : List Import) (i : Import) : Prop where
  first : imports.find? (fun j => j.name = i.name) = some i
  found : (m.anywhere i.package i.name).isSome = true

namespace Builtin

open Checker

variable {m : Meaning} {u : PluginUnit} {siblings : Signatures} {p : ParsedUnit}

/-- An import that is bound and not warned of is looked up, and means what it names. -/
theorem sought_of_not_warned {i : Import} (hbinds : i.Binds m p.imports)
    (hwarned : i.warning u ∉ (memberOutcome m siblings (u, p)).2) :
    i.name ∈ p.sought ∧ m.own u p.imports i.name = m.anywhere i.package i.name := by
  constructor
  · obtain ⟨compiled, ds, _, hunit⟩ :=
      memberOutcome_eq m u siblings p (boundTo (bindings m p.imports))
    obtain ⟨ds', _, _, houtcome⟩ := hunit p.imports fun _ _ => rfl
    have houtcome : memberOutcome m siblings (u, p) = _ := houtcome
    by_contra hsought
    refine hwarned ?_
    rw [houtcome]
    refine List.mem_append_right _ (List.mem_append_right _ ?_)
    have hmarked : mark p.sought (fresh m i) = fresh m i := by
      rw [mark, if_neg]
      simp [fresh, hsought]
    refine List.mem_map.2 ⟨fresh m i, List.mem_filter.2 ⟨?_, ?_⟩, rfl⟩
    · exact hmarked ▸ List.mem_map_of_mem (mem_bindings hbinds.first)
    · simp [fresh, hbinds.found]
  · obtain ⟨found, hfound⟩ := Option.isSome_iff_exists.1 hbinds.found
    rw [Meaning.own, Meaning.imported, hbinds.first, Option.bind_some, hfound, Option.some_or]

/-! ## Whole tasks -/

/-- Some units as they are parsed, but for one that has other imports. -/
def withImports (before : List PluginUnit) (u : PluginUnit) (imports : List Import) (after : List PluginUnit) :
    List (PluginUnit × ParsedUnit) :=
  parsed before ++ (u, { (ParsedUnit.ofSource u.source).1 with imports }) :: parsed after

theorem parsed_eq_withImports (before : List PluginUnit) (u : PluginUnit) (after : List PluginUnit) :
    parsed (before ++ u :: after) = withImports before u (ParsedUnit.ofSource u.source).1.imports after := by
  rw [parsed, List.map_append]
  rfl

/-- The imports of a unit are nothing to the others. -/
theorem declared_withImports (before : List PluginUnit) (u : PluginUnit) (imports : List Import)
    (after : List PluginUnit) :
    declared (withImports before u imports after) = signatures (before ++ u :: after) := by
  rw [signatures, parsed_eq_withImports, declared, withImports, withImports, List.map_append, List.map_append]
  rfl

/-- Leaving out an import that is warned of makes a difference to that warning only. -/
theorem lowered_without {before after : List PluginUnit} {first rest : List Import} {i : Import}
    (himports : (ParsedUnit.ofSource u.source).1.imports = first ++ i :: rest)
    (htext : (ParsedUnit.ofSource u.source).2 = [])
    (hquiet : ∀ d ∈ (outcome m (signatures (before ++ u :: after)) u).2, d.isError = false)
    (hwarned : i.warning u ∈ (outcome m (signatures (before ++ u :: after)) u).2) :
    (lowered m (withImports before u (first ++ rest) after)).1 = (lowered m (parsed (before ++ u :: after))).1 ∧
      ∃ ds ds', (lowered m (parsed (before ++ u :: after))).2 = ds ++ i.warning u :: ds' ∧
        (lowered m (withImports before u (first ++ rest) after)).2 = ds ++ ds' := by
  obtain ⟨hcompiled, ds, ds', hreported, hreported'⟩ :=
    memberOutcome_without himports (ParsedUnit.wellFormed_imports htext) hquiet hwarned
  rw [parsed_eq_withImports, lowered_eq, lowered_eq, declared_withImports, declared_withImports]
  generalize signatures (before ++ u :: after) = siblings at hcompiled hreported hreported' ⊢
  constructor
  · simp only [withImports, List.filterMap_append, List.filterMap_cons, hcompiled]
  · refine ⟨((parsed before).flatMap fun member => (memberOutcome m siblings member).2) ++ ds,
      ds' ++ (parsed after).flatMap fun member => (memberOutcome m siblings member).2, ?_, ?_⟩
    · simp [withImports, hreported]
    · simp [withImports, hreported']

/-- A task that succeeds has found no error. -/
theorem quiet_of_compiled {units : List PluginUnit} {w : Workspace} (h : ((compile units).run w).1 = .done true) :
    hasErrors (w.diagnostics ++ (findings w.resolver.meaning units).toArray) = false := by
  obtain ⟨decisions, trail, hrun⟩ := run_compile_eq units w
  rw [hrun, writeAll, Compilation.run_bind_of_done (run_anyErrors _)] at h
  cases herrors : hasErrors (w.diagnostics ++ (findings w.resolver.meaning units).toArray) with
  | false => rfl
  | true =>
    rw [herrors] at h
    exact absurd h (by simp)

/-- Parsing units without syntax errors leaves nothing behind. -/
theorem run_compile_of_parsed {units : List PluginUnit} (h : ∀ u ∈ units, (ParsedUnit.ofSource u.source).2 = [])
    (w : Workspace) : (compile units).run w = (lower (parsed units)).run w := by
  have hnone : syntaxDiagnostics units = [] := by
    refine List.flatMap_eq_nil_iff.2 fun u hu => ?_
    rw [h u hu, List.map_nil]
  rw [compile_eq, Compilation.run_bind_of_done (run_parses units w), hnone, Array.append_empty]

/-- Two tasks that have found no error and write the same modules end alike. -/
theorem lower_alike {members members' : List (PluginUnit × ParsedUnit)} {w : Workspace}
    (hmodules : (lowered w.resolver.meaning members').1 = (lowered w.resolver.meaning members).1)
    (hquiet : hasErrors (w.diagnostics ++ (lowered w.resolver.meaning members).2.toArray) = false)
    (hquiet' : hasErrors (w.diagnostics ++ (lowered w.resolver.meaning members').2.toArray) = false) :
    ((lower members').run w).1 = ((lower members).run w).1 ∧
      ((lower members').run w).2.resolver.artifacts = ((lower members).run w).2.resolver.artifacts ∧
      ∃ ds, ((lower members).run w).2.diagnostics =
          w.diagnostics ++ (lowered w.resolver.meaning members).2.toArray ++ ds ∧
        ((lower members').run w).2.diagnostics =
          w.diagnostics ++ (lowered w.resolver.meaning members').2.toArray ++ ds := by
  obtain ⟨decisions, trail, hrun⟩ := run_lower members w
  obtain ⟨decisions', trail', hrun'⟩ := run_lower members' w
  -- What writing comes to depends on the modules and the store alone.
  obtain ⟨s', ds, hwrite⟩ := exists_run_writeAll (lowered w.resolver.meaning members).1 w.resolver.artifacts
  obtain ⟨_, hwritten⟩ := hwrite
    { resolver := { w.resolver with decisions, trail }
      diagnostics := w.diagnostics ++ (lowered w.resolver.meaning members).2.toArray } rfl hquiet
  obtain ⟨_, hwritten'⟩ := hwrite
    { resolver := { w.resolver with decisions := decisions', trail := trail' }
      diagnostics := w.diagnostics ++ (lowered w.resolver.meaning members').2.toArray } rfl hquiet'
  rw [hrun, hrun', hmodules, hwritten, hwritten']
  exact ⟨rfl, rfl, ds, rfl, rfl⟩

/-- **Warnings of unused imports are sound.** Where a task succeeds, an import that is warned of may be left out of its
unit: the task still succeeds, leaves the same artifacts, and reports the same in the same order but for the warning.
An import that is bound and not warned of is looked up for the supertype, a call or the target of a member call of its
unit, and is what the name means there. -/
theorem unused_imports (units : List PluginUnit) (w : Workspace) :
    (∀ (before after : List PluginUnit) (u : PluginUnit) (first rest : List Import) (i : Import),
      units = before ++ u :: after → (ParsedUnit.ofSource u.source).1.imports = first ++ i :: rest →
      ((compile units).run w).1 = .done true →
      i.warning u ∈ (outcome w.resolver.meaning (signatures units) u).2 →
      ∃ ds ds', ((compile units).run w).2.diagnostics = ds ++ #[i.warning u] ++ ds' ∧
        let without := (lower (withImports before u (first ++ rest) after)).run w
        without.1 = .done true ∧ without.2.diagnostics = ds ++ ds' ∧
          without.2.resolver.artifacts = ((compile units).run w).2.resolver.artifacts) ∧
    ∀ u ∈ units, ∀ i : Import, i.Binds w.resolver.meaning (ParsedUnit.ofSource u.source).1.imports →
      i.warning u ∉ (outcome w.resolver.meaning (signatures units) u).2 →
      i.name ∈ (ParsedUnit.ofSource u.source).1.sought ∧
        w.resolver.meaning.own u (ParsedUnit.ofSource u.source).1.imports i.name =
          w.resolver.meaning.anywhere i.package i.name := by
  refine ⟨?_, fun u _ i hbinds hwarned => sought_of_not_warned hbinds hwarned⟩
  rintro before after u first rest i rfl himports hdone hwarned
  have hquiet := quiet_of_compiled hdone
  obtain ⟨hbefore, hfindings⟩ := Bool.or_eq_false_iff.1 ((hasErrors_append _ _).symm.trans hquiet)
  have hunits := (hasErrors_findings_eq_false w.resolver.meaning _).1 hfindings
  obtain ⟨htext, hpasses⟩ := hunits u (by simp)
  obtain ⟨hmodules, ds, ds', hreported, hreported'⟩ :=
    lowered_without himports htext (exists_passes_iff.1 hpasses) hwarned
  have hchecked : ∀ d ∈ ds ++ i.warning u :: ds', d.isError = false := by
    rw [← hreported]
    exact fun d hd => hasErrors_eq_false.1 hfindings d (List.mem_append_right _ hd)
  have hquiet : hasErrors (w.diagnostics ++ (ds ++ i.warning u :: ds').toArray) = false := by
    rw [hasErrors_append, hbefore, hasErrors_eq_false.2 hchecked, Bool.false_or]
  have hquiet' : hasErrors (w.diagnostics ++ (ds ++ ds').toArray) = false := by
    rw [hasErrors_append, hbefore, Bool.false_or, hasErrors_eq_false]
    exact fun d hd => hchecked d (((List.sublist_cons_self _ _).append_left ds).subset hd)
  rw [← hreported] at hquiet
  rw [← hreported'] at hquiet'
  obtain ⟨hended, hartifacts, es, hdiagnostics, hdiagnostics'⟩ := lower_alike hmodules hquiet hquiet'
  rw [run_compile_of_parsed fun u hu => (hunits u hu).1] at hdone ⊢
  rw [hreported] at hdiagnostics
  rw [hreported'] at hdiagnostics'
  refine ⟨w.diagnostics ++ ds.toArray, ds'.toArray ++ es, ?_, hended.trans hdone, ?_, hartifacts⟩
  · exact Array.toList_inj.1 (by simp [hdiagnostics])
  · exact Array.toList_inj.1 (by simp [hdiagnostics'])

end Builtin

/-! ## A unit that imports itself -/

/-- A unit that imports the contract type, which its plugin implements, and itself, of which it makes no use. -/
def PluginUnit.selfImporting : PluginUnit where
  qualifiedName := "contract.Mirror"
  shortName := "Mirror"
  package := "contract"
  source := "import contract.Plugin; import contract.Mirror; plugin Mirror: Plugin \x7b fn execute() \x7b \x7d \x7d"
  isDotted := by decide +kernel
  parts_eq := by decide +kernel
  source_le := by decide +kernel

namespace Builtin

/-- A workspace for that unit, where the platform has no functions. -/
def selfImportingWorkspace : Workspace where
  resolver :=
    { catalogue := .empty defaultContract, policy := .ofConfiguration .default, correlation := default
      clock := .still default, units := [.selfImporting] }

/-- The unit may go without importing itself, and the contract type is looked up. -/
theorem unused_imports_selfImporting :
    (∃ ds ds', ((compile [.selfImporting]).run selfImportingWorkspace).2.diagnostics =
      ds ++ #[Import.warning .selfImporting ⟨["contract", "Mirror"], ⟨1, 25⟩⟩] ++ ds' ∧
      let without := (lower (withImports [] .selfImporting [⟨["contract", "Plugin"], ⟨1, 1⟩⟩] [])).run
        selfImportingWorkspace
      without.1 = .done true ∧ without.2.diagnostics = ds ++ ds' ∧ without.2.resolver.artifacts =
        ((compile [.selfImporting]).run selfImportingWorkspace).2.resolver.artifacts) ∧
    "Plugin" ∈ (ParsedUnit.ofSource PluginUnit.selfImporting.source).1.sought := by
  have himports : (ParsedUnit.ofSource PluginUnit.selfImporting.source).1.imports =
      [⟨["contract", "Plugin"], ⟨1, 1⟩⟩] ++ ⟨["contract", "Mirror"], ⟨1, 25⟩⟩ :: [] := by decide +kernel
  have hdone : ((compile [.selfImporting]).run selfImportingWorkspace).1 = .done true := by
    obtain ⟨decisions, trail, hrun⟩ :=
      run_compile selfImportingWorkspace.resolver [.selfImporting] ArtifactStore.open_empty
    have hquiet : hasErrors (findings selfImportingWorkspace.resolver.meaning [.selfImporting]).toArray = false := by
      decide +kernel
    rw [hquiet] at hrun
    exact congrArg Prod.fst hrun
  have hwarned : Import.warning .selfImporting ⟨["contract", "Mirror"], ⟨1, 25⟩⟩ ∈
      (outcome selfImportingWorkspace.resolver.meaning (signatures [.selfImporting]) .selfImporting).2 := by
    decide +kernel
  obtain ⟨hwithout, hsought⟩ := unused_imports [.selfImporting] selfImportingWorkspace
  have hwithout := hwithout [] [] .selfImporting _ [] _ rfl himports hdone hwarned
  rw [List.append_nil] at hwithout
  refine ⟨hwithout, ?_⟩
  refine (hsought .selfImporting List.mem_cons_self ⟨["contract", "Plugin"], ⟨1, 1⟩⟩ ⟨?_, ?_⟩ ?_).1
  · decide +kernel
  · decide +kernel
  · decide +kernel

end Builtin
end PluginSandbox
