import Mathlib.Order.Lattice.Nat
import WireBindings.Proofs.Dependency.Resolve
import WireBindings.Proofs.Repetition

/-!
# The order of first demand

Names come out of `Container.resolve` in the order in which they are first asked for. The *roots*,
which are the nominal names without repetitions, are visited one after the other, and a name is
*demanded* at the place of the first root that is the name itself or depends on it (`FirstDemand`).
A name demanded earlier stands earlier, and of the names demanded at the same place the root, if it
is one of them, stands last (`resolve_by_first_demand`).

Visiting only appends (`isPrefix_of_visit`), so what is sorted after some of the roots, a *stage*,
is a front part of the outcome. A stage consists of just the names that its roots lead to
(`mem_stage_iff`). So a name demanded at some place is in the stage behind that place and not in the
one before, which decides between two names that are demanded at different places.

A list that is ordered already comes out as it went in (`visitAll_of_ordered`). As the outcome of a
visit is ordered, to resolve it once more changes nothing.
-/

namespace WireBindings

open Relation

/-- The name is demanded at the place of the first root that the relation leads from to the name. -/
def FirstDemand (leads : String → String → Prop) (roots : List String) (name : String)
    (place : ℕ) : Prop :=
  IsLeast {i | ∃ root, roots[i]? = some root ∧ ReflTransGen leads root name} place

section Places

variable {leads : String → String → Prop} {roots front sorted : List String}
  {name other root : String} {place : ℕ}

/-- Where a name is demanded there is a root that leads to it. -/
theorem FirstDemand.exists_root (h : FirstDemand leads roots name place) :
    ∃ root, roots[place]? = some root ∧ ReflTransGen leads root name :=
  h.1

/-- No root before the place leads to the name. -/
theorem FirstDemand.not_of_mem_take (h : FirstDemand leads roots name place)
    (hroot : root ∈ roots.take place) : ¬ ReflTransGen leads root name := by
  obtain ⟨i, hi, rfl⟩ := List.mem_take_iff_getElem.mp hroot
  intro hpath
  have hle : place ≤ i := h.2 ⟨_, List.getElem?_eq_getElem (by omega), hpath⟩
  omega

/-- Whatever some root leads to is demanded somewhere. -/
theorem exists_firstDemand (hroot : root ∈ roots) (hpath : ReflTransGen leads root name) :
    ∃ place, FirstDemand leads roots name place := by
  obtain ⟨i, hi⟩ := List.mem_iff_getElem?.mp hroot
  -- the least place of a root that leads there, of which there is one
  exact ⟨_, csInf_mem ⟨i, root, hi, hpath⟩, fun _ hplace => Nat.sInf_le hplace⟩

/-- What is in a front part of a list stands before what is not. -/
theorem idxOf_lt_of_isPrefix (hbegins : front <+: sorted) (hname : name ∈ front)
    (hother : other ∉ front) : sorted.idxOf name < sorted.idxOf other := by
  obtain ⟨back, rfl⟩ := hbegins
  calc (front ++ back).idxOf name
      = front.idxOf name := List.idxOf_append_of_mem hname
    _ < front.length := List.idxOf_lt_length_iff.mpr hname
    _ ≤ (front ++ back).idxOf other := by
        rw [List.idxOf_append_of_notMem hother]
        exact Nat.le_add_right _ _

end Places

namespace DependencyGraph

variable {graph : DependencyGraph} {path sorted names before rest targets : List String}
  {name other root : String} {place : ℕ}

/-! ### Visits only append -/

/-- **A visit leaves what is sorted where it is.** -/
theorem isPrefix_of_visit (graph : DependencyGraph) :
    (∀ path sorted name result, visit graph path sorted name = .ok result → sorted <+: result) ∧
    (∀ path sorted names result,
      visitAll graph path sorted names = .ok result → sorted <+: result) := by
  have hinduct := visit.mutual_induct graph
    (fun path sorted name => ∀ result,
      visit graph path sorted name = .ok result → sorted <+: result)
    (fun path sorted names => ∀ result,
      visitAll graph path sorted names = .ok result → sorted <+: result)
  refine hinduct ?_ ?_ ?_ ?_ ?_ ?_
  · intro path sorted name hpath result h
    rw [visit_of_mem_path hpath] at h
    cases h
  · intro path sorted name hpath hsorted result h
    rw [visit_of_mem_sorted hpath hsorted] at h
    cases h
    exact List.prefix_rfl
  · -- nothing but the name is appended
    intro path sorted name hpath hsorted hlookup result h
    rw [visit_of_lookup_eq_none hpath hsorted hlookup] at h
    cases h
    exact List.prefix_append _ _
  · -- the targets come in between, then the name
    intro path sorted name hpath hsorted targets hlookup ih result h
    rw [visit_of_lookup_eq_some hpath hsorted hlookup] at h
    obtain ⟨middle, hmiddle, h⟩ := bind_eq_ok_iff.mp h
    cases h
    exact (ih middle hmiddle).trans (List.prefix_append _ _)
  · intro path sorted result h
    rw [visitAll_nil] at h
    cases h
    exact List.prefix_rfl
  · intro path sorted name rest ihFirst ihRest result h
    rw [visitAll_cons] at h
    obtain ⟨middle, hmiddle, h⟩ := bind_eq_ok_iff.mp h
    exact (ihFirst middle hmiddle).trans (ihRest middle result h)

/-- Names are visited after those that stand before them. -/
theorem visitAll_append (before : List String) :
    visitAll graph path sorted (before ++ rest) =
      (visitAll graph path sorted before >>= fun sorted => visitAll graph path sorted rest) := by
  induction before generalizing sorted with
  | nil =>
    rw [List.nil_append, visitAll_nil]
    rfl
  | cons name before ih =>
    rw [List.cons_append, visitAll_cons, visitAll_cons, bind_assoc]
    exact congrArg _ (funext fun _ => ih)

/-- The last name is visited after all others. -/
theorem visitAll_concat :
    visitAll graph path sorted (before ++ [name]) =
      (visitAll graph path sorted before >>= fun sorted => visit graph path sorted name) := by
  rw [visitAll_append]
  refine congrArg _ (funext fun sorted => ?_)
  rw [visitAll_cons]
  exact (congrArg _ (funext fun _ => visitAll_nil)).trans (bind_pure _)

/-- A name that is new stands last of what is sorted when it has been visited. -/
theorem exists_concat_of_visit {result : List String} (hname : name ∉ sorted)
    (h : visit graph path sorted name = .ok result) : ∃ front, result = front ++ [name] := by
  -- it is appended either way, after its targets if it has any
  by_cases hpath : name ∈ path
  · rw [visit_of_mem_path hpath] at h
    cases h
  · cases hlookup : graph.lookup name with
    | none =>
      rw [visit_of_lookup_eq_none hpath hname hlookup] at h
      cases h
      exact ⟨sorted, rfl⟩
    | some targets =>
      rw [visit_of_lookup_eq_some hpath hname hlookup] at h
      obtain ⟨middle, -, h⟩ := bind_eq_ok_iff.mp h
      cases h
      exact ⟨middle, rfl⟩

/-! ### Stages -/

/-- What the graph leads to from a sorted name is sorted. -/
theorem Ordered.mem_of_reflTransGen (h : graph.Ordered sorted) (hname : name ∈ sorted)
    (hpath : ReflTransGen graph.Edge name other) : other ∈ sorted := by
  induction hpath with
  | refl => exact hname
  | tail _ hedge ih => exact (h.idxOf_lt_of_edge ih hedge).1

/-- **A stage consists of what its roots lead to.** -/
theorem mem_stage_iff (h : visitAll graph [] [] names = .ok sorted) :
    other ∈ sorted ↔ ∃ root ∈ names, ReflTransGen graph.Edge root other := by
  have hvisited := (visited_of_visit graph).2 _ _ _ _ .nil h
  refine ⟨fun hother => ?_, ?_⟩
  · exact (hvisited.reached other hother).resolve_left List.not_mem_nil
  · rintro ⟨root, hroot, hpath⟩
    exact hvisited.ordered.mem_of_reflTransGen (hvisited.found root hroot) hpath

/-- The stage before a place is a front part of the outcome. -/
theorem exists_stage (h : visitAll graph [] [] names = .ok sorted) (place : ℕ) :
    ∃ stage, visitAll graph [] [] (names.take place) = .ok stage ∧ stage <+: sorted := by
  -- the visit goes on from the stage and only appends
  rw [← List.take_append_drop place names, visitAll_append] at h
  obtain ⟨stage, hstage, hrest⟩ := bind_eq_ok_iff.mp h
  exact ⟨stage, hstage, (isPrefix_of_visit graph).2 _ _ _ _ hrest⟩

/-- What is demanded at a place is not in the stage before it. -/
theorem not_mem_stage {stage : List String} (hdemand : FirstDemand graph.Edge names name place)
    (hstage : visitAll graph [] [] (names.take place) = .ok stage) : name ∉ stage := by
  intro hname
  obtain ⟨root, hroot, hpath⟩ := (mem_stage_iff hstage).mp hname
  exact hdemand.not_of_mem_take hroot hpath

/-- **Names demanded at an earlier place stand earlier.** -/
theorem idxOf_lt_of_firstDemand {later : ℕ} (h : visitAll graph [] [] names = .ok sorted)
    (hname : FirstDemand graph.Edge names name place)
    (hother : FirstDemand graph.Edge names other later) (hlt : place < later) :
    sorted.idxOf name < sorted.idxOf other := by
  obtain ⟨stage, hstage, hbegins⟩ := exists_stage h later
  obtain ⟨root, hroot, hpath⟩ := hname.exists_root
  -- the root of the earlier place has been visited before the later place
  have hmem : root ∈ names.take later :=
    List.mem_of_getElem? ((List.getElem?_take_of_lt hlt).trans hroot)
  exact idxOf_lt_of_isPrefix hbegins ((mem_stage_iff hstage).mpr ⟨root, hmem, hpath⟩)
    (not_mem_stage hother hstage)

/-- **A root stands last of the names that are demanded at its place.** -/
theorem idxOf_lt_root (h : visitAll graph [] [] names = .ok sorted)
    (hroot : names[place]? = some root) (hdemand : FirstDemand graph.Edge names root place)
    (hname : FirstDemand graph.Edge names name place) (hne : name ≠ root) :
    sorted.idxOf name < sorted.idxOf root := by
  obtain ⟨stage, hstage, -⟩ := exists_stage h place
  obtain ⟨next, hnext, hbegins⟩ := exists_stage h (place + 1)
  -- the next stage comes from this one by visiting the root, which is new and so goes to the end
  have htake : names.take (place + 1) = names.take place ++ [root] := by
    rw [List.take_add_one, hroot]
    rfl
  have hvisit : visit graph [] stage root = .ok next := by
    rw [htake, visitAll_concat, hstage] at hnext
    exact hnext
  obtain ⟨front, rfl⟩ := exists_concat_of_visit (not_mem_stage hdemand hstage) hvisit
  have hmem : name ∈ front ++ [root] := by
    obtain ⟨start, hstart, hpath⟩ := hname.exists_root
    refine (mem_stage_iff hnext).mpr ⟨start, ?_, hpath⟩
    rw [htake, Option.some.inj (hstart.symm.trans hroot)]
    exact List.mem_append_right _ (List.mem_singleton_self _)
  have hfront : name ∈ front :=
    (List.mem_append.mp hmem).resolve_right fun hlast => hne (List.mem_singleton.mp hlast)
  have hnodup := ((visited_of_visit graph).2 _ _ _ _ .nil hnext).ordered.nodup
  have hfresh : root ∉ front := fun hearly =>
    (List.nodup_append.mp hnodup).2.2 root hearly root (List.mem_singleton_self _) rfl
  exact idxOf_lt_of_isPrefix ((List.prefix_append _ _).trans hbegins) hfront hfresh

/-! ### Lists that are ordered already -/

/-- Ordered lists are those without repetitions in which what a name leads to stands before it. -/
theorem ordered_iff :
    graph.Ordered names ↔ names.Nodup ∧ ∀ name ∈ names, ∀ other, graph.Edge name other →
      names.idxOf other < names.idxOf name := by
  refine ⟨fun h => ⟨h.nodup, fun name hname other hedge => (h.idxOf_lt_of_edge hname hedge).2⟩, ?_⟩
  induction names using List.reverseRecOn with
  | nil => exact fun _ => .nil
  | append_singleton names last ih =>
    rintro ⟨hnodup, hbefore⟩
    obtain ⟨hnames, -, hdisjoint⟩ := List.nodup_append.mp hnodup
    have hlast : last ∉ names := fun hmem =>
      hdisjoint last hmem last (List.mem_singleton_self _) rfl
    -- what stands before an element of the front part is in the front part
    have hmem {name other : String} (hname : name ∈ names ++ [last])
        (hedge : graph.Edge name other) : other ∈ names := by
      by_contra hother
      have hlt := hbefore name hname other hedge
      have hlength := List.idxOf_lt_length_iff.mpr hname
      rw [List.length_append, List.length_singleton] at hlength
      rw [List.idxOf_append_of_notMem hother] at hlt
      omega
    refine .concat (ih ⟨hnames, fun name hname other hedge => ?_⟩) hlast fun other =>
      hmem (List.mem_append_right _ (List.mem_singleton_self _))
    have hwhole : name ∈ names ++ [last] := List.mem_append_left _ hname
    have hlt := hbefore name hwhole other hedge
    rwa [List.idxOf_append_of_mem (hmem hwhole hedge), List.idxOf_append_of_mem hname] at hlt

/-- Names that are sorted already, and not under way, are visited without any effect. -/
theorem visitAll_of_sorted (hpath : ∀ target ∈ targets, target ∉ path)
    (hsorted : ∀ target ∈ targets, target ∈ sorted) :
    visitAll graph path sorted targets = .ok sorted := by
  induction targets with
  | nil => exact visitAll_nil
  | cons target targets ih =>
    rw [List.forall_mem_cons] at hpath hsorted
    rw [visitAll_cons, visit_of_mem_sorted hpath.1 hsorted.1]
    exact ih hpath.2 hsorted.2

/-- **An ordered list is left as it is.** -/
theorem visitAll_of_ordered (h : graph.Ordered names) : visitAll graph [] [] names = .ok names := by
  induction h with
  | nil => exact visitAll_nil
  | @concat sorted name _ hfresh hclosed ih =>
    rw [visitAll_concat, ih]
    show visit graph [] sorted name = _
    -- the targets stand before the name, so they are sorted when it is visited
    cases hlookup : graph.lookup name with
    | none => exact visit_of_lookup_eq_none List.not_mem_nil hfresh hlookup
    | some targets =>
      have htargets : ∀ target ∈ targets, target ∈ sorted := fun target htarget =>
        hclosed target ((edge_iff_mem_of_lookup hlookup).mpr htarget)
      rw [visit_of_lookup_eq_some List.not_mem_nil hfresh hlookup, visitAll_of_sorted _ htargets]
      · rfl
      · rintro target htarget hpath
        exact hfresh (List.mem_singleton.mp hpath ▸ htargets target htarget)

end DependencyGraph

namespace Container

variable {container : Container} {nominal sorted : List String} {name other : String}

/-! ### The resolved order -/

/-- **What resolving leaves as it is** are the lists of readable names, none repeated, in which each
name follows its dependencies. -/
theorem resolve_eq_self_iff :
    container.resolve nominal = .ok nominal ↔
      nominal.Nodup ∧ (∀ name ∈ nominal, container.Readable name) ∧
        ∀ name other, container.DependsOn nominal name other →
          nominal.idxOf other < nominal.idxOf name := by
  refine ⟨fun h => ?_, ?_⟩
  · exact ⟨nodup_of_resolve h, readable_of_resolve h, fun _ _ => idxOf_lt_of_resolve h⟩
  · rintro ⟨hnodup, hreadable, hbefore⟩
    obtain ⟨graph, hgraph⟩ := exists_graph_of_readable hreadable
    have hedges := edge_eq_dependsOn hgraph
    rw [resolve_of_graph hgraph, eraseDups_of_nodup hnodup]
    -- a list in which each name follows its dependencies is ordered
    refine DependencyGraph.visitAll_of_ordered (DependencyGraph.ordered_iff.mpr ⟨hnodup, ?_⟩)
    intro name _ other hedge
    rw [hedges] at hedge
    exact hbefore name other hedge

/-- The resolved names depend on each other as the nominal names do. -/
theorem dependsOn_iff_of_resolve (h : container.resolve nominal = .ok sorted) :
    container.DependsOn sorted name other ↔ container.DependsOn nominal name other := by
  rw [DependsOn, DependsOn, mem_of_resolve h, mem_of_resolve h]

/-- **To resolve what has been resolved changes nothing.** -/
theorem resolve_resolve (h : container.resolve nominal = .ok sorted) :
    container.resolve sorted = .ok sorted := by
  refine resolve_eq_self_iff.mpr ⟨nodup_of_resolve h, ?_, ?_⟩
  · intro name hname
    exact readable_of_resolve h name ((mem_of_resolve h).mp hname)
  · intro name other hdepends
    exact idxOf_lt_of_resolve h ((dependsOn_iff_of_resolve h).mp hdepends)

/-- **Names are resolved in the order of first demand.** The resolved names are those that are
demanded somewhere. If two names are demanded at different places, then the one demanded earlier
stands earlier, and a root that is demanded at its own place stands after all others demanded there.
What is in order already stays as it is, and this is so of everything that has been resolved. -/
theorem resolve_by_first_demand (container : Container) (nominal : List String) :
    (∀ sorted, container.resolve nominal = .ok sorted →
      (∀ name, name ∈ sorted ↔
        ∃ place, FirstDemand (container.DependsOn nominal) nominal.eraseDups name place) ∧
      (∀ name other place later,
        FirstDemand (container.DependsOn nominal) nominal.eraseDups name place →
        FirstDemand (container.DependsOn nominal) nominal.eraseDups other later →
        place < later → sorted.idxOf name < sorted.idxOf other) ∧
      (∀ place root, nominal.eraseDups[place]? = some root →
        FirstDemand (container.DependsOn nominal) nominal.eraseDups root place →
        ∀ name, FirstDemand (container.DependsOn nominal) nominal.eraseDups name place →
          name ≠ root → sorted.idxOf name < sorted.idxOf root) ∧
      container.resolve sorted = .ok sorted) ∧
    (container.resolve nominal = .ok nominal ↔
      nominal.Nodup ∧ (∀ name ∈ nominal, container.Readable name) ∧
        ∀ name other, container.DependsOn nominal name other →
          nominal.idxOf other < nominal.idxOf name) := by
  refine ⟨fun sorted h => ?_, resolve_eq_self_iff⟩
  obtain ⟨graph, hgraph⟩ := exists_graph_of_resolve h
  have hvisit := h
  rw [resolve_of_graph hgraph] at hvisit
  rw [← edge_eq_dependsOn hgraph]
  -- each law is one about the graph, whose edges are the dependencies
  refine ⟨fun name => ⟨fun hname => ?_, ?_⟩, fun name other place later =>
    DependencyGraph.idxOf_lt_of_firstDemand hvisit, fun place root hroot hdemand name hname hne =>
    DependencyGraph.idxOf_lt_root hvisit hroot hdemand hname hne, resolve_resolve h⟩
  · obtain ⟨root, hroot, hpath⟩ := (DependencyGraph.mem_stage_iff hvisit).mp hname
    exact exists_firstDemand hroot hpath
  · rintro ⟨place, hdemand⟩
    obtain ⟨root, hroot, hpath⟩ := hdemand.exists_root
    exact (DependencyGraph.mem_stage_iff hvisit).mpr ⟨root, List.mem_of_getElem? hroot, hpath⟩

/-- Items are asked for before labels, and between them a name that is not defined. -/
def askedNames : List String := ["Item", "Nowhere", "Label"]

/-- Items demand labels, so labels stand before a name that was asked for before them. -/
theorem resolve_askedNames :
    linkedItems.resolve askedNames = .ok ["Label", "Item", "Nowhere"] ∧
      FirstDemand (linkedItems.DependsOn askedNames) askedNames.eraseDups "Label" 0 ∧
      FirstDemand (linkedItems.DependsOn askedNames) askedNames.eraseDups "Nowhere" 1 ∧
      ["Label", "Item", "Nowhere"].idxOf "Label" < ["Label", "Item", "Nowhere"].idxOf "Nowhere" ∧
      linkedItems.resolve ["Label", "Item", "Nowhere"] = .ok ["Label", "Item", "Nowhere"] := by
  have h : linkedItems.resolve askedNames = .ok ["Label", "Item", "Nowhere"] := by decide +kernel
  have hitem : linkedItems.dependenciesOf askedNames "Item" = .ok ["Label"] := by decide +kernel
  have hlabel : linkedItems.dependenciesOf askedNames "Label" = .ok [] := by decide +kernel
  have hedge : linkedItems.DependsOn askedNames "Item" "Label" :=
    ⟨List.mem_cons_self, (mem_dependenciesOf_iff hitem).mp (List.mem_singleton_self _)⟩
  have hlabels : FirstDemand (linkedItems.DependsOn askedNames) askedNames.eraseDups "Label" 0 :=
    ⟨⟨"Item", rfl, .single hedge⟩, fun _ _ => Nat.zero_le _⟩
  -- nothing but labels can be reached from items, and nothing at all from labels
  have hreach {name : String}
      (hpath : ReflTransGen (linkedItems.DependsOn askedNames) "Item" name) :
      name = "Item" ∨ name = "Label" := by
    induction hpath with
    | refl => exact .inl rfl
    | tail _ hstep ih =>
      rcases ih with rfl | rfl
      · exact .inr (List.mem_singleton.mp ((mem_dependenciesOf_iff hitem).mpr hstep.2))
      · exact absurd ((mem_dependenciesOf_iff hlabel).mpr hstep.2) List.not_mem_nil
  have hnowhere : FirstDemand (linkedItems.DependsOn askedNames) askedNames.eraseDups
      "Nowhere" 1 := by
    refine ⟨⟨"Nowhere", rfl, .refl⟩, ?_⟩
    rintro (_ | place) ⟨root, hroot, hpath⟩
    · cases hroot
      exact absurd (hreach hpath) (by decide)
    · exact Nat.succ_le_succ (Nat.zero_le _)
  obtain ⟨-, hearlier, -, hagain⟩ := (resolve_by_first_demand linkedItems askedNames).1 _ h
  exact ⟨h, hlabels, hnowhere, hearlier _ _ _ _ hlabels hnowhere Nat.zero_lt_one, hagain⟩

end Container

end WireBindings
