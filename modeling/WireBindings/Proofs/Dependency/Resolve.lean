import WireBindings.Proofs.Dependency.Traversal

/-!
# The order of declaration

`Container.resolve` succeeds with the nominal names, each once and each after the names it depends
on (`resolve_topological`). It fails in two ways, and which of them it is does not depend on where
the visit begins (`resolve_fails_exactly`): as soon as a declaration that is read denotes no type,
by the fault of the first name that has such a declaration; otherwise exactly when there is a circle
among the dependencies, by a name on a circle.

A name may be given several times. It is visited where it is first given, so nothing that is said
here depends on the repetitions.
-/

namespace WireBindings

namespace Container

open Relation

variable {container : Container} {nominal sorted : List String} {name other : String}
  {graph : DependencyGraph} {fault : GenerationFault}

/-! ### Repeated names -/

theorem dependsOn_eraseDups_iff :
    container.DependsOn nominal.eraseDups name other ↔ container.DependsOn nominal name other := by
  rw [DependsOn, DependsOn, List.mem_eraseDups, List.mem_eraseDups]

/-- Leaving out repetitions keeps the first place of a name, with the same names before it. -/
theorem eraseDups_append_cons {before : List String} (hfirst : name ∉ before)
    (after : List String) :
    ∃ rest, (before ++ name :: after).eraseDups = before.eraseDups ++ name :: rest := by
  have hkept : (name :: after).removeAll before = name :: after.removeAll before := by
    rw [List.removeAll, List.filter_cons_of_pos, List.removeAll]
    rw [List.elem_eq_mem, decide_eq_false hfirst]
    rfl
  rw [List.eraseDups_append, hkept, List.eraseDups_cons]
  exact ⟨_, rfl⟩

/-! ### Stages -/

/-- Names are sorted once the graph is there, and by visiting them all. -/
theorem resolve_of_graph (h : container.dependencyGraph nominal.eraseDups = .ok graph) :
    container.resolve nominal = visitAll graph [] [] nominal.eraseDups := by
  rw [resolve, h]
  rfl

/-- Without the graph there is the fault for which there is none. -/
theorem resolve_of_graph_error {early : TypeFault}
    (h : container.dependencyGraph nominal.eraseDups = .error early) :
    container.resolve nominal = .error (.type early) := by
  rw [resolve, h]
  rfl

/-- What is resolved has a graph. -/
theorem exists_graph_of_resolve (h : container.resolve nominal = .ok sorted) :
    ∃ graph, container.dependencyGraph nominal.eraseDups = .ok graph := by
  cases hgraph : container.dependencyGraph nominal.eraseDups with
  | ok graph => exact ⟨graph, rfl⟩
  | error early =>
    rw [resolve_of_graph_error hgraph] at h
    cases h

/-- There is a graph if all names are readable. -/
theorem exists_graph_of_readable (h : ∀ name ∈ nominal, container.Readable name) :
    ∃ graph, container.dependencyGraph nominal.eraseDups = .ok graph := by
  cases hgraph : container.dependencyGraph nominal.eraseDups with
  | ok graph => exact ⟨graph, rfl⟩
  | error early =>
    obtain ⟨before, name, after, hsplit, -, hfails⟩ := dependencyGraph_eq_error_iff.mp hgraph
    have hmem : name ∈ nominal.eraseDups := by
      rw [hsplit]
      exact List.mem_append_right _ List.mem_cons_self
    obtain ⟨targets, hfound⟩ :=
      (readable_iff_exists_dependenciesOf _).mp (h name (List.mem_eraseDups.mp hmem))
    rw [hfails] at hfound
    cases hfound

/-- The edges of the graph, for the names as they were given. -/
theorem edge_eq_dependsOn (h : container.dependencyGraph nominal.eraseDups = .ok graph) :
    graph.Edge = container.DependsOn nominal := by
  ext name other
  rw [edge_iff_dependsOn h, dependsOn_eraseDups_iff]

/-! ### Success -/

/-- What has been resolved was visited from nothing, along the empty path. -/
theorem visited_of_resolve (hgraph : container.dependencyGraph nominal.eraseDups = .ok graph)
    (h : container.resolve nominal = .ok sorted) :
    graph.Visited [] [] nominal.eraseDups sorted := by
  rw [resolve_of_graph hgraph] at h
  exact (DependencyGraph.visited_of_visit graph).2 _ _ _ _ .nil h

/-- Nothing but nominal names can be reached from a nominal name. -/
theorem mem_of_reflTransGen_dependsOn (hname : name ∈ nominal)
    (h : ReflTransGen (container.DependsOn nominal) name other) : other ∈ nominal := by
  induction h with
  | refl => exact hname
  | tail _ hlast _ => exact hlast.2.1

/-- What is resolved is the nominal names. -/
theorem mem_of_resolve (h : container.resolve nominal = .ok sorted) :
    name ∈ sorted ↔ name ∈ nominal := by
  obtain ⟨graph, hgraph⟩ := exists_graph_of_resolve h
  have hvisited := visited_of_resolve hgraph h
  refine ⟨fun hname => ?_, fun hname => hvisited.found name (List.mem_eraseDups.mpr hname)⟩
  -- nothing was sorted before the visit, so every name has been reached from a nominal one
  rcases hvisited.reached name hname with hbefore | ⟨start, hstart, hpath⟩
  · exact absurd hbefore List.not_mem_nil
  · rw [edge_eq_dependsOn hgraph] at hpath
    exact mem_of_reflTransGen_dependsOn (List.mem_eraseDups.mp hstart) hpath

theorem nodup_of_resolve (h : container.resolve nominal = .ok sorted) : sorted.Nodup := by
  obtain ⟨graph, hgraph⟩ := exists_graph_of_resolve h
  exact (visited_of_resolve hgraph h).ordered.nodup

/-- A name stands behind those that it depends on. -/
theorem idxOf_lt_of_resolve (h : container.resolve nominal = .ok sorted)
    (hdepends : container.DependsOn nominal name other) :
    sorted.idxOf other < sorted.idxOf name := by
  obtain ⟨graph, hgraph⟩ := exists_graph_of_resolve h
  have hname : name ∈ sorted := (mem_of_resolve h).mpr hdepends.1
  rw [← edge_eq_dependsOn hgraph] at hdepends
  exact ((visited_of_resolve hgraph h).ordered.idxOf_lt_of_edge hname hdepends).2

/-- **What is resolved is the nominal names, each once, and each after its dependencies.** -/
theorem resolve_topological (h : container.resolve nominal = .ok sorted) :
    sorted.Nodup ∧ (∀ name, name ∈ sorted ↔ name ∈ nominal) ∧
      ∀ name other, container.DependsOn nominal name other →
        sorted.idxOf other < sorted.idxOf name :=
  ⟨nodup_of_resolve h, fun _ => mem_of_resolve h, fun _ _ => idxOf_lt_of_resolve h⟩

/-- Orders of items. A link is a payload: it is written inside the items and has no block. -/
def linkedItems : Container :=
  ofDeclaration "Order"
    |>.insert "Order" (.struct (.named [⟨"items", "Vec<Item>"⟩]))
    |>.insert "Item" (.enum 1 [⟨0, "Plain", "()"⟩, ⟨1, "Linked", "Link"⟩])
    |>.insert "Link" (.struct (.unnamed ["(u8, Label)"]))
    |>.insert "Label" (.struct (.named [⟨"text", "String"⟩]))

/-- Items refer to labels through the payload, so they stand after them. One name is given twice
and another has no definition. -/
theorem resolve_linkedItems :
    linkedItems.resolve ["Item", "Nowhere", "Item", "Label"] = .ok ["Label", "Item", "Nowhere"] ∧
      linkedItems.DependsOn ["Item", "Nowhere", "Item", "Label"] "Item" "Label" ∧
      ["Label", "Item", "Nowhere"].idxOf "Label" < ["Label", "Item", "Nowhere"].idxOf "Item" := by
  have h : linkedItems.resolve ["Item", "Nowhere", "Item", "Label"] =
      .ok ["Label", "Item", "Nowhere"] := by decide +kernel
  have hitem : linkedItems.get? "Item" =
      some (.enum 1 [⟨0, "Plain", "()"⟩, ⟨1, "Linked", "Link"⟩]) := by decide +kernel
  have hlink : linkedItems.get? "Link" = some (.struct (.unnamed ["(u8, Label)"])) := rfl
  have hparse : TypeExpr.parse "(u8, Label)" =
      .ok (.tuple [.numeric "u8", .named "Label"]) := by with_unfolding_all rfl
  have hdepends : linkedItems.DependsOn ["Item", "Nowhere", "Item", "Label"] "Item" "Label" := by
    refine ⟨List.mem_cons_self, by simp, "(u8, Label)", _, ⟨_, hitem, ?_⟩, hparse, ?_⟩
    · exact .payload (List.mem_cons_of_mem _ List.mem_cons_self) (by simp [Variant.isUnit,
        unitDeclaration]) hlink (.field List.mem_cons_self)
    · exact List.mem_singleton_self _
  exact ⟨h, hdepends, (resolve_topological h).2.2 "Item" "Label" hdepends⟩

/-! ### Failure -/

/-- With all declarations readable, resolving fails by a circle if it fails. -/
theorem circular_of_resolve (hreadable : ∀ name ∈ nominal, container.Readable name)
    (h : container.resolve nominal = .error fault) :
    ∃ name, fault = .circular name ∧ TransGen (container.DependsOn nominal) name name := by
  obtain ⟨graph, hgraph⟩ := exists_graph_of_readable hreadable
  rw [resolve_of_graph hgraph] at h
  rw [← edge_eq_dependsOn hgraph]
  exact (DependencyGraph.circular_of_visit graph).2 [] [] _ _ (List.forall_mem_nil _) h

/-- A circle is never resolved. Every name on it is nominal, so it would have been sorted. -/
theorem not_circular_of_resolve (h : container.resolve nominal = .ok sorted) :
    ¬ TransGen (container.DependsOn nominal) name name := by
  intro hcircle
  obtain ⟨graph, hgraph⟩ := exists_graph_of_resolve h
  obtain ⟨next, hfirst, -⟩ := TransGen.head'_iff.mp hcircle
  have hname : name ∈ sorted := (mem_of_resolve h).mpr hfirst.1
  rw [← edge_eq_dependsOn hgraph] at hcircle
  exact (visited_of_resolve hgraph h).ordered.not_circular hname hcircle

/-- If something that is read denotes no type, the first name with such a declaration is to blame,
and circles play no part. -/
theorem type_fault_of_resolve (h : ¬ ∀ name ∈ nominal, container.Readable name) :
    ∃ before name after, nominal = before ++ name :: after ∧
      (∀ early ∈ before, container.Readable early) ∧ ¬ container.Readable name ∧
      ∃ declaration fault, container.ReadFor name declaration ∧
        TypeExpr.parse declaration = .error fault ∧
        container.resolve nominal = .error (.type fault) := by
  obtain ⟨before, name, after, rfl, hbefore, hname⟩ := exists_first_of_not_forall h
  refine ⟨before, name, after, rfl, hbefore, hname, ?_⟩
  have hfirst : name ∉ before := fun hmem => hname (hbefore name hmem)
  obtain ⟨rest, hsplit⟩ := eraseDups_append_cons hfirst after
  -- the first name that is not readable is the first one whose dependencies are not found
  cases hfound : container.dependenciesOf (before ++ name :: after).eraseDups name with
  | ok targets => exact absurd ((readable_iff_exists_dependenciesOf _).mpr ⟨targets, hfound⟩) hname
  | error fault =>
    obtain ⟨declaration, hread, hparse⟩ := exists_readFor_of_error hfound
    refine ⟨declaration, fault, hread, hparse, resolve_of_graph_error ?_⟩
    rw [dependencyGraph_eq_error_iff]
    exact ⟨before.eraseDups, name, rest, hsplit,
      fun early hearly => hbefore early (List.mem_eraseDups.mp hearly), hfound⟩

/-- If no declaration is to blame, then all declarations that are read denote types. -/
theorem readable_of_no_type_fault
    (h : ∀ early, container.resolve nominal ≠ .error (.type early)) :
    ∀ name ∈ nominal, container.Readable name := by
  by_contra hunreadable
  obtain ⟨_, _, _, -, -, -, _, early, -, -, hfails⟩ := type_fault_of_resolve hunreadable
  exact h early hfails

/-- Names are resolved only if all declarations that are read for them denote types. -/
theorem readable_of_resolve (h : container.resolve nominal = .ok sorted) :
    ∀ name ∈ nominal, container.Readable name := by
  refine readable_of_no_type_fault fun early hfails => ?_
  rw [h] at hfails
  cases hfails

/-- **Resolving fails by the first unreadable name, and otherwise exactly by circles.** -/
theorem resolve_fails_exactly :
    ((∀ name ∈ nominal, container.Readable name) →
      ((∃ fault, container.resolve nominal = .error fault) ↔
        ∃ name, TransGen (container.DependsOn nominal) name name) ∧
      ∀ fault, container.resolve nominal = .error fault →
        ∃ name, fault = .circular name ∧ TransGen (container.DependsOn nominal) name name) ∧
    ((¬ ∀ name ∈ nominal, container.Readable name) →
      ∃ before name after, nominal = before ++ name :: after ∧
        (∀ early ∈ before, container.Readable early) ∧ ¬ container.Readable name ∧
        ∃ declaration fault, container.ReadFor name declaration ∧
          TypeExpr.parse declaration = .error fault ∧
          container.resolve nominal = .error (.type fault)) := by
  refine ⟨fun hreadable => ⟨⟨?_, ?_⟩, fun fault h => circular_of_resolve hreadable h⟩,
    type_fault_of_resolve⟩
  · rintro ⟨fault, h⟩
    obtain ⟨name, -, hcircle⟩ := circular_of_resolve hreadable h
    exact ⟨name, hcircle⟩
  · rintro ⟨name, hcircle⟩
    -- with a circle there is no order, so there has to be a fault
    cases h : container.resolve nominal with
    | error fault => exact ⟨fault, rfl⟩
    | ok sorted => exact absurd hcircle (not_circular_of_resolve h)

/-- A house with parents and children that hold each other; what else is said of the children is
left open. -/
def family (note : String) : Container :=
  ofDeclaration "House"
    |>.insert "House" (.struct (.named [⟨"owner", "Parent"⟩]))
    |>.insert "Parent" (.struct (.named [⟨"children", "Vec<Child>"⟩]))
    |>.insert "Child" (.struct (.named [⟨"parent", "Parent"⟩, ⟨"note", note⟩]))

/-- The names of a family. -/
def familyNames : List String := ["House", "Parent", "Child"]

/-- The house is not to blame for the circle that it leads to, and the circle is not blamed when a
declaration denotes no type. -/
theorem resolve_family :
    ((family "String").resolve familyNames = .error (.circular "Parent") ∧
      TransGen ((family "String").DependsOn familyNames) "Parent" "Parent") ∧
    ∃ fault, (family "Vec<").resolve familyNames = .error (.type fault) := by
  have hfails : (family "String").resolve familyNames = .error (.circular "Parent") := by
    decide +kernel
  have hreadable : ∀ name ∈ familyNames, (family "String").Readable name := by
    have hhouse : (family "String").dependenciesOf familyNames "House" = .ok ["Parent"] := by
      decide +kernel
    have hparent : (family "String").dependenciesOf familyNames "Parent" = .ok ["Child"] := by
      decide +kernel
    have hchild : (family "String").dependenciesOf familyNames "Child" = .ok ["Parent"] := by
      decide +kernel
    have hread {name : String} {targets : List String}
        (h : (family "String").dependenciesOf familyNames name = .ok targets) :
        (family "String").Readable name :=
      (readable_iff_exists_dependenciesOf familyNames).mpr ⟨targets, h⟩
    exact List.forall_mem_cons.mpr ⟨hread hhouse, List.forall_mem_cons.mpr
      ⟨hread hparent, List.forall_mem_singleton.mpr (hread hchild)⟩⟩
  have hunreadable : ¬ ∀ name ∈ familyNames, (family "Vec<").Readable name := by
    intro hall
    have hchild : (family "Vec<").dependenciesOf familyNames "Child" =
        .error (.malformed "Vec<" .unclosedArguments) := by decide +kernel
    have hread := hall "Child" (by simp [familyNames])
    obtain ⟨targets, hfound⟩ := (readable_iff_exists_dependenciesOf familyNames).mp hread
    rw [hchild] at hfound
    cases hfound
  refine ⟨⟨hfails, ?_⟩, ?_⟩
  · obtain ⟨name, hname, hcircle⟩ := (resolve_fails_exactly.1 hreadable).2 _ hfails
    cases hname
    exact hcircle
  · obtain ⟨_, _, _, -, -, -, _, fault, -, -, h⟩ := resolve_fails_exactly.2 hunreadable
    exact ⟨fault, h⟩

end Container

end WireBindings
