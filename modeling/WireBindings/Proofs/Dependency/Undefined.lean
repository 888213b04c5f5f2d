import WireBindings.Generate
import WireBindings.Proofs.Dependency.Resolve
import WireBindings.Proofs.Dependency.Restriction
import WireBindings.Proofs.Repetition

/-!
# Names without a definition

A name without a definition may be among the names to resolve, and declarations may mention it. It
is sorted with the others then, but has no effect on them: to resolve names and to leave out the
undefined ones can be done in either order (`resolve_defined`). This holds at each stage, for the
dependencies of a name, for the graph, whose undefined names lead nowhere, and for the visit of the
graph. Blocks are written for defined names only (`emit_defined`), so undefined names that are put
in between show neither in the fault nor in the text (`resolve_padded`).
-/

namespace WireBindings

namespace Container

variable {container : Container} {nominal names padded sorted : List String} {name : String}
  {graph : DependencyGraph}

/-! ### Defined names -/

/-- The name has a definition. -/
def defines (container : Container) (name : String) : Bool :=
  decide (name ∈ container.definitions.names)

/-- Those of the names that have definitions. -/
def defined (container : Container) (names : List String) : List String :=
  names.filter container.defines

/-- A name is defined if the table has it. -/
theorem defines_iff : container.defines name ↔ name ∈ container.definitions.names :=
  decide_eq_true_iff

theorem get?_eq_none_of_not_defines (h : ¬ container.defines name) :
    container.get? name = none :=
  Definitions.get?_eq_none_iff.mpr (mt defines_iff.mpr h)

theorem dependenciesOf_of_not_defines (h : ¬ container.defines name) :
    container.dependenciesOf nominal name = .ok [] := by
  rw [dependenciesOf, get?_eq_none_of_not_defines h]

theorem defined_cons_of_pos (h : container.defines name) :
    container.defined (name :: names) = name :: container.defined names :=
  List.filter_cons_of_pos h

theorem defined_cons_of_neg (h : ¬ container.defines name) :
    container.defined (name :: names) = container.defined names :=
  List.filter_cons_of_neg h

/-- The second list consists of the first one and of undefined names, put in at any places. -/
inductive Padded (container : Container) : List String → List String → Prop
  | nil : Padded container [] []
  | keep {name : String} {names padded : List String} (hrest : Padded container names padded) :
      Padded container (name :: names) (name :: padded)
  | insert {name : String} {names padded : List String}
      (hundefined : name ∉ container.definitions.names) (hrest : Padded container names padded) :
      Padded container names (name :: padded)

/-- Undefined names that are put in are left out again. -/
theorem Padded.defined_eq (h : container.Padded names padded) :
    container.defined padded = container.defined names := by
  induction h with
  | nil => rfl
  | @keep name names padded _ ih =>
    by_cases h : container.defines name
    · rw [defined_cons_of_pos h, defined_cons_of_pos h, ih]
    · rw [defined_cons_of_neg h, defined_cons_of_neg h, ih]
  | insert hundefined _ ih => rw [defined_cons_of_neg (mt defines_iff.mp hundefined), ih]

/-! ### The graph -/

/-- Among the defined names, a name depends on those of its dependencies that are defined. -/
theorem dependenciesOf_defined (nominal : List String) (name : String) :
    container.dependenciesOf (container.defined nominal) name =
      container.defined <$> container.dependenciesOf nominal name := by
  unfold dependenciesOf
  cases container.get? name with
  | none => rfl
  | some definition =>
    simp only [dependencies]
    cases (container.declarationsRead definition).mapM TypeExpr.parse with
    | error fault => rfl
    | ok types =>
      show Except.ok _ = Except.ok (List.filter _ _)
      rw [filter_eraseDups, List.filter_filter]
      -- on both sides those are left that are nominal and defined
      congr 2
      apply List.filter_congr
      intro other _
      rw [Bool.eq_iff_iff]
      simp [defined, and_comm]

/-- The graph of the dependencies among some names, with an entry for each of others. -/
def tabulate (container : Container) (nominal names : List String) :
    Except TypeFault DependencyGraph :=
  names.mapM fun name => do return (name, ← container.dependenciesOf nominal name)

/-- The graph has an entry for the first name, and the others are as they would be without it. -/
theorem tabulate_cons :
    container.tabulate nominal (name :: names) =
      (do
        let targets ← container.dependenciesOf nominal name
        let graph ← container.tabulate nominal names
        return (name, targets) :: graph) := by
  rw [tabulate, List.mapM_cons]
  cases container.dependenciesOf nominal name <;> rfl

/-- The graph of the defined names is what is left of the graph if undefined ones are left out. -/
theorem tabulate_defined (nominal names : List String) :
    container.tabulate (container.defined nominal) (container.defined names) =
      DependencyGraph.restrict container.defines <$> container.tabulate nominal names := by
  -- entry by entry; the first fault is the same, as undefined names have none
  induction names with
  | nil => rfl
  | cons name names ih =>
    by_cases h : container.defines name
    · rw [defined_cons_of_pos h, tabulate_cons, tabulate_cons, dependenciesOf_defined, ih]
      cases container.dependenciesOf nominal name with
      | error fault => rfl
      | ok targets =>
        cases container.tabulate nominal names with
        | error fault => rfl
        | ok graph => exact congrArg Except.ok (DependencyGraph.restrict_cons_of_pos h).symm
    · -- the entry of an undefined name is one without targets, and it is left out
      rw [defined_cons_of_neg h, tabulate_cons, dependenciesOf_of_not_defines h, ih]
      cases container.tabulate nominal names with
      | error fault => rfl
      | ok graph => exact congrArg Except.ok (DependencyGraph.restrict_cons_of_neg h).symm

/-- The graph of the dependencies among the defined names is what is left of the graph. -/
theorem dependencyGraph_defined (names : List String) :
    container.dependencyGraph (container.defined names) =
      DependencyGraph.restrict container.defines <$> container.dependencyGraph names :=
  tabulate_defined names names

/-- Undefined names depend on nothing. -/
theorem leavesOut_of_dependencyGraph (h : container.dependencyGraph names = .ok graph) :
    graph.LeavesOut container.defines := by
  intro name targets hundefined hlookup
  have hfound := ((tabulates_of_dependencyGraph h).lookup_eq_some_iff.mp hlookup).2
  rw [dependenciesOf_of_not_defines hundefined] at hfound
  exact (Except.ok.inj hfound).symm

/-! ### The order and the text -/

/-- **Undefined names can be left out before the names are resolved or afterwards**, with the same
fault if there is one. -/
theorem resolve_defined (nominal : List String) :
    container.resolve (container.defined nominal) =
      container.defined <$> container.resolve nominal := by
  have hnames : (container.defined nominal).eraseDups = container.defined nominal.eraseDups :=
    (filter_eraseDups _ nominal).symm
  have hrestrict : container.dependencyGraph (container.defined nominal.eraseDups) =
      DependencyGraph.restrict container.defines <$> container.dependencyGraph nominal.eraseDups :=
    dependencyGraph_defined _
  cases hgraph : container.dependencyGraph nominal.eraseDups with
  | error early =>
    -- nothing is read for undefined names, so the same declaration is to blame
    rw [hgraph, ← hnames] at hrestrict
    rw [resolve_of_graph_error hgraph, resolve_of_graph_error hrestrict]
    rfl
  | ok graph =>
    rw [hgraph, ← hnames] at hrestrict
    rw [resolve_of_graph hgraph, resolve_of_graph hrestrict, hnames]
    exact ((DependencyGraph.visit_restrict (leavesOut_of_dependencyGraph hgraph)).2 [] [] _
      (List.forall_mem_nil _)).symm

/-- Only defined names have blocks. -/
theorem bindings_defined (names : List String) :
    container.bindings (container.defined names) = container.bindings names := by
  -- the search for definitions passes undefined names over
  have hsame : (container.defined names).filterMap (fun name =>
        (container.get? name).map (name, ·)) =
      names.filterMap fun name => (container.get? name).map (name, ·) := by
    induction names with
    | nil => rfl
    | cons name names ih =>
      by_cases h : container.defines name
      · rw [defined_cons_of_pos h, List.filterMap_cons, List.filterMap_cons, ih]
      · rw [defined_cons_of_neg h, List.filterMap_cons, get?_eq_none_of_not_defines h, ih]
        rfl
  rw [bindings, bindings, hsame]

theorem emit_defined (options : Options) (names : List String) :
    container.emit options (container.defined names) = container.emit options names := by
  rw [emit, emit, bindings_defined]

/-- **Undefined names have no effect.** If undefined names are put in between the names to resolve,
at any places and whether or not anything mentions them, then resolving fails as before if it
failed before; otherwise it succeeds as before, with the same defined names in the same order, and
what is written for the outcome is the same, or fails in the same way, under all options. -/
theorem resolve_padded (h : container.Padded nominal padded) :
    (∀ fault, container.resolve padded = .error fault ↔ container.resolve nominal = .error fault) ∧
    ∀ sorted, container.resolve nominal = .ok sorted →
      ∃ sorted', container.resolve padded = .ok sorted' ∧
        container.defined sorted' = container.defined sorted ∧
        ∀ options, container.emit options sorted' = container.emit options sorted := by
  have hsame : container.defined <$> container.resolve padded =
      container.defined <$> container.resolve nominal := by
    rw [← resolve_defined, ← resolve_defined, h.defined_eq]
  refine ⟨fun fault => ?_, fun sorted hsorted => ?_⟩
  · rw [← map_eq_error_iff, hsame, map_eq_error_iff]
  · obtain ⟨sorted', hsorted', hdefined⟩ :=
      map_eq_ok_iff.mp (hsame.trans (map_eq_ok_iff.mpr ⟨sorted, hsorted, rfl⟩))
    refine ⟨sorted', hsorted', hdefined, fun options => ?_⟩
    rw [← emit_defined, hdefined, emit_defined]

/-- Items whose labels have a tone, of which there is no definition. -/
def tonedItems : Container :=
  linkedItems.insert "Label" (.struct (.named [⟨"text", "String"⟩, ⟨"tone", "Tone"⟩]))

/-- Among the names to resolve, the tone is drawn to the front by the labels, and the others keep
their order and their text. A family is circular with or without a pet in it. -/
theorem resolve_padded_tones :
    (tonedItems.resolve ["Order", "Item", "Label"] = .ok ["Label", "Item", "Order"] ∧
      tonedItems.resolve ["Order", "Nowhere", "Item", "Label", "Tone"] =
        .ok ["Tone", "Label", "Item", "Order", "Nowhere"] ∧
      tonedItems.defined ["Tone", "Label", "Item", "Order", "Nowhere"] =
        tonedItems.defined ["Label", "Item", "Order"] ∧
      ∀ options, tonedItems.emit options ["Tone", "Label", "Item", "Order", "Nowhere"] =
        tonedItems.emit options ["Label", "Item", "Order"]) ∧
    (family "Pet").resolve familyNames = .error (.circular "Parent") ∧
    (family "Pet").resolve ["Pet", "House", "Parent", "Ghost", "Child"] =
      .error (.circular "Parent") := by
  have hitems : tonedItems.resolve ["Order", "Item", "Label"] =
      .ok ["Label", "Item", "Order"] := by decide +kernel
  have hpadded : tonedItems.resolve ["Order", "Nowhere", "Item", "Label", "Tone"] =
      .ok ["Tone", "Label", "Item", "Order", "Nowhere"] := by decide +kernel
  have hfamily : (family "Pet").resolve familyNames = .error (.circular "Parent") := by
    decide +kernel
  have htones : tonedItems.Padded ["Order", "Item", "Label"]
      ["Order", "Nowhere", "Item", "Label", "Tone"] :=
    .keep (.insert (by decide) (.keep (.keep (.insert (by decide) .nil))))
  have hpets : (family "Pet").Padded familyNames ["Pet", "House", "Parent", "Ghost", "Child"] :=
    .insert (by decide) (.keep (.keep (.insert (by decide) (.keep .nil))))
  obtain ⟨sorted, hsorted, hdefined, hemit⟩ := (resolve_padded htones).2 _ hitems
  obtain rfl := Except.ok.inj (hpadded.symm.trans hsorted)
  exact ⟨⟨hitems, hpadded, hdefined, hemit⟩, hfamily, ((resolve_padded hpets).1 _).mpr hfamily⟩

end Container

end WireBindings
