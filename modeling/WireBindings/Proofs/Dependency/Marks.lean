import WireBindings.Dependency.Marking
import WireBindings.Proofs.Dependency.DemandOrder

/-!
# Marks and the path

The search with marks and the visit along a path are the same. At every visit that takes place, the
names marked as visiting are those of a path and the names marked as done are those sorted
(`marking`), so the marks need not be handed on: a visit ends in exactly one way, and this is the
outcome of `visit` (`search_visit_iff`).

On the other hand the marks are where mistakes would show. The path is an argument and comes back
by itself; a mark has to be taken back. What a visit has done to the marks and to the list when it
succeeds is `Advances`, and when it fails there is a visit inside it that has met its own name on
the way (`exists_again_of_search`).
-/

namespace WireBindings

namespace DependencyGraph

open Relation

variable {graph : DependencyGraph} {path sorted result names roots : List String}
  {name other : String} {call inner : Call}

/-- The edges from a name are its targets, none for a name without an entry. -/
theorem edge_iff_mem_targets : graph.Edge name other ↔ other ∈ graph.targets name := by
  unfold targets
  cases hlookup : graph.lookup name with
  | none => exact ⟨fun hedge => absurd hedge (not_edge_of_lookup hlookup), nofun⟩
  | some targets => exact edge_iff_mem_of_lookup hlookup

/-! ### The marks of a path -/

/-- The marks of the names under way and of those sorted. -/
def marking (path sorted : List String) : Marking where
  mark name := if name ∈ sorted then some .done else if name ∈ path then some .visiting else none
  sorted := sorted

/-- Done are the names that have been sorted. -/
theorem mark_eq_done_iff : (marking path sorted).mark name = some .done ↔ name ∈ sorted := by
  simp only [marking]
  split_ifs <;> simp_all

/-- Unmarked are those that are neither on the path nor sorted. -/
theorem mark_eq_none_iff :
    (marking path sorted).mark name = none ↔ name ∉ path ∧ name ∉ sorted := by
  simp only [marking]
  split_ifs <;> simp_all

/-- At first nothing is under way and nothing is sorted. -/
theorem start_eq_marking : Marking.start = marking [] [] := by
  simp [Marking.start, marking]

/-- To enter a name puts it on the path. -/
theorem enter_marking (hsorted : name ∉ sorted) :
    (marking path sorted).enter name = marking (name :: path) sorted := by
  simp only [marking, Marking.enter, Marking.mk.injEq, and_true]
  funext other
  by_cases hsame : other = name
  · rw [if_pos hsame, if_neg (hsame ▸ hsorted), if_pos (List.mem_cons.mpr (.inl hsame))]
  · simp only [hsame, if_false, List.mem_cons, false_or]

/-- To leave a name takes it from the path and sorts it. -/
theorem leave_marking :
    (marking (name :: path) sorted).leave name = marking path (sorted ++ [name]) := by
  simp only [marking, Marking.leave, Marking.mk.injEq, and_true]
  funext other
  by_cases hsame : other = name
  · rw [if_pos hsame, if_pos (List.mem_append_right _ (List.mem_singleton.mpr hsame))]
  · simp only [hsame, if_false, List.mem_append, List.mem_cons, List.not_mem_nil, or_false,
      false_or]

/-- What holds of a path and the names sorted whenever a visit begins. -/
structure Underway (graph : DependencyGraph) (path sorted : List String) : Prop where
  /-- What has been sorted is ordered. -/
  ordered : graph.Ordered sorted
  /-- A name of the path is not sorted. -/
  unsorted : ∀ early ∈ path, early ∉ sorted

/-- A name that is not sorted may go on the path. -/
theorem Underway.enter (h : graph.Underway path sorted) (hsorted : name ∉ sorted) :
    graph.Underway (name :: path) sorted where
  ordered := h.ordered
  unsorted := List.forall_mem_cons.mpr ⟨hsorted, h.unsorted⟩

/-- What has been visited with the path is ordered again, and the path is still unsorted. -/
theorem Underway.of_visited (h : graph.Underway path sorted)
    (hvisited : graph.Visited path sorted names result) : graph.Underway path result where
  ordered := hvisited.ordered
  unsorted early hearly hmem :=
    (hvisited.offPath early hmem).elim (h.unsorted early hearly) fun hoff => hoff hearly

/-- After the visit of a name the path is as it was, and what is sorted is ordered. -/
theorem Underway.of_visit (h : graph.Underway path sorted)
    (hvisit : visit graph path sorted name = .ok result) : graph.Underway path result :=
  h.of_visited ((visited_of_visit graph).1 _ _ _ _ h.ordered hvisit)

/-- After the visit of several names the path is as it was, and what is sorted is ordered. -/
theorem Underway.of_visitAll (h : graph.Underway path sorted)
    (hvisit : visitAll graph path sorted names = .ok result) : graph.Underway path result :=
  h.of_visited ((visited_of_visit graph).2 _ _ _ _ h.ordered hvisit)

/-- The names marked as visiting are those of the path, since none of them is sorted. -/
theorem Underway.mark_eq_visiting_iff (h : graph.Underway path sorted) :
    (marking path sorted).mark name = some .visiting ↔ name ∈ path := by
  have hunsorted := h.unsorted name
  simp only [marking]
  split_ifs <;> simp_all

/-! ### Every visit ends, in one way -/

/-- **The search with marks ends, and ends in one way**, for one name and for several. -/
theorem search_visit_iff (graph : DependencyGraph) :
    (∀ path sorted name, graph.Underway path sorted → ∀ outcome,
      graph.Search (marking path sorted) name outcome ↔
        outcome = marking path <$> visit graph path sorted name) ∧
    (∀ path sorted names, graph.Underway path sorted → ∀ outcome,
      graph.SearchAll (marking path sorted) names outcome ↔
        outcome = marking path <$> visitAll graph path sorted names) := by
  have hinduct := visit.mutual_induct graph
    (fun path sorted name => graph.Underway path sorted → ∀ outcome,
      graph.Search (marking path sorted) name outcome ↔
        outcome = marking path <$> visit graph path sorted name)
    (fun path sorted names => graph.Underway path sorted → ∀ outcome,
      graph.SearchAll (marking path sorted) names outcome ↔
        outcome = marking path <$> visitAll graph path sorted names)
  -- in each case the mark of the name says which rule of the search applies
  refine hinduct ?_ ?_ ?_ ?_ ?_ ?_
  · intro path sorted name hpath hunderway outcome
    rw [search_iff, hunderway.mark_eq_visiting_iff.mpr hpath, visit_of_mem_path hpath]
    rfl
  · intro path sorted name hpath hsorted _ outcome
    rw [search_iff, mark_eq_done_iff.mpr hsorted, visit_of_mem_sorted hpath hsorted]
    rfl
  · -- without targets the name is left as soon as it has been entered
    intro path sorted name hpath hsorted hlookup _ outcome
    have htargets : graph.targets name = [] := by rw [targets, hlookup, Option.getD_none]
    rw [search_iff, mark_eq_none_iff.mpr ⟨hpath, hsorted⟩,
      visit_of_lookup_eq_none hpath hsorted hlookup]
    simp only [htargets, searchAll_nil_iff, exists_eq_left, enter_marking hsorted]
    exact Eq.congr_right (congrArg Except.ok leave_marking)
  · -- the targets are visited with the name on the path
    intro path sorted name hpath hsorted targets hlookup ih hunderway outcome
    have htargets : graph.targets name = targets := by
      rw [DependencyGraph.targets, hlookup, Option.getD_some]
    rw [search_iff, mark_eq_none_iff.mpr ⟨hpath, hsorted⟩,
      visit_of_lookup_eq_some hpath hsorted hlookup]
    simp only [htargets, enter_marking hsorted, ih (hunderway.enter hsorted), exists_eq_left]
    cases visitAll graph (name :: path) sorted targets with
    | error fault => rfl
    | ok middle => exact Eq.congr_right (congrArg Except.ok leave_marking)
  · intro path sorted _ outcome
    rw [searchAll_nil_iff, visitAll_nil]
    rfl
  · -- the first visit leaves the marks of the same path behind
    intro path sorted name rest ihFirst ihRest hunderway outcome
    rw [searchAll_cons_iff, visitAll_cons]
    simp only [ihFirst hunderway, exists_eq_left]
    cases hfirst : visit graph path sorted name with
    | error fault => rfl
    | ok middle => exact ihRest middle (hunderway.of_visit hfirst) outcome

/-- A search that succeeds has left the marks of the path it was begun with. -/
theorem exists_marking_of_searchAll {after : Marking} (h : graph.Underway path sorted)
    (hsearch : graph.SearchAll (marking path sorted) names (.ok after)) :
    ∃ result, graph.Underway path result ∧ after = marking path result := by
  have houtcome := ((search_visit_iff graph).2 path sorted names h _).mp hsearch
  obtain ⟨result, hresult, hmarks⟩ := map_eq_ok_iff.mp houtcome.symm
  exact ⟨result, h.of_visitAll hresult, hmarks.symm⟩

/-! ### The visits that take place -/

/-- What holds of every visit, by the path along which its name has been met. -/
structure Along (graph : DependencyGraph) (path sorted : List String) (name : String) : Prop where
  underway : graph.Underway path sorted
  /-- The path leads to the name. -/
  leads : ∀ early ∈ path, TransGen graph.Edge early name

/-- A visit puts its name on the path of the visits that it starts. -/
theorem Along.of_calls (h : graph.Along path sorted name)
    (hcalls : graph.Calls ⟨marking path sorted, name⟩ inner) :
    ∃ result, inner.state = marking (name :: path) result ∧
      graph.Along (name :: path) result inner.name := by
  obtain ⟨hunmarked, hlisted, hearlier⟩ := hcalls
  obtain ⟨-, hsorted⟩ := mark_eq_none_iff.mp hunmarked
  rw [enter_marking hsorted] at hearlier
  -- the targets before this one have been visited along the same path, with the name on it
  obtain ⟨result, hresult, rfl⟩ :=
    exists_marking_of_searchAll (h.underway.enter hsorted) hearlier
  -- the name leads to its target, and what led to the name leads there as well
  refine ⟨result, rfl, hresult, ?_⟩
  have hedge : graph.Edge name _ := edge_iff_mem_targets.mpr <| by
    rw [hlisted]
    exact List.mem_append_right _ List.mem_cons_self
  exact List.forall_mem_cons.mpr
    ⟨.single hedge, fun early hearly => (h.leads early hearly).tail hedge⟩

/-- **Every visit that takes place finds the marks of a path to its name.** -/
theorem Reached.exists_along (h : graph.Reached roots call) :
    ∃ path sorted, call.state = marking path sorted ∧ graph.Along path sorted call.name := by
  -- the path begins with nothing at a root and is one name longer with each call
  induction h with
  | root _ hearlier =>
    rw [start_eq_marking] at hearlier
    obtain ⟨result, hresult, rfl⟩ :=
      exists_marking_of_searchAll ⟨.nil, List.forall_mem_nil _⟩ hearlier
    exact ⟨[], result, rfl, hresult, List.forall_mem_nil _⟩
  | @nested call inner _ hcalls ih =>
    obtain ⟨state, name⟩ := call
    obtain ⟨path, sorted, rfl, halong⟩ := ih
    obtain ⟨result, hmarks, hinner⟩ := halong.of_calls hcalls
    exact ⟨_, result, hmarks, hinner⟩

/-- The visits inside a visit that takes place take place. -/
theorem Reached.trans (h : graph.Reached roots call)
    (hcalls : ReflTransGen graph.Calls call inner) :
    graph.Reached roots inner := by
  induction hcalls with
  | refl => exact h
  | tail _ hcall ih => exact .nested ih hcall

/-! ### A visit that succeeds -/

/-- What a visit of the name has done to marks and list when it succeeds. -/
structure Advances (graph : DependencyGraph) (name : String) (before after : Marking) : Prop where
  /-- The same names are under way as before. -/
  visiting : ∀ other, after.mark other = some .visiting ↔ before.mark other = some .visiting
  /-- Besides the names done before, those are done that the name leads to. -/
  done : ∀ other, after.mark other = some .done ↔
    before.mark other = some .done ∨ ReflTransGen graph.Edge name other
  /-- The names newly done, and no others, have been appended, each once. -/
  appended : after.sorted.Nodup ∧ ∃ added, after.sorted = before.sorted ++ added ∧
    ∀ other, other ∈ added ↔ after.mark other = some .done ∧ before.mark other ≠ some .done
  /-- Each of them stands after its dependencies. -/
  placed : ∀ other target, after.mark other = some .done → before.mark other ≠ some .done →
    graph.Edge other target →
      target ∈ after.sorted ∧ after.sorted.idxOf target < after.sorted.idxOf other

/-- The names that are sorted by a visit and were not before. -/
theorem mem_iff_of_visit (hordered : graph.Ordered sorted)
    (h : visit graph path sorted name = .ok result) :
    other ∈ result ↔ other ∈ sorted ∨ ReflTransGen graph.Edge name other := by
  have hvisited := (visited_of_visit graph).1 _ _ _ _ hordered h
  constructor
  · intro hother
    refine (hvisited.reached other hother).imp_right ?_
    rintro ⟨start, hstart, hfrom⟩
    rwa [List.mem_singleton.mp hstart] at hfrom
  · rintro (hother | hfrom)
    · exact hvisited.kept other hother
    · -- an ordered list holds with a name all that the name leads to
      exact hvisited.ordered.mem_of_reflTransGen
        (hvisited.found name (List.mem_singleton_self _)) hfrom

/-- **A visit that succeeds has advanced by what its name leads to.** -/
theorem advances_of_visit (h : graph.Underway path sorted)
    (hvisit : visit graph path sorted name = .ok result) :
    graph.Advances name (marking path sorted) (marking path result) := by
  have hafter := h.of_visit hvisit
  obtain ⟨added, hadded⟩ := (isPrefix_of_visit graph).1 _ _ _ _ hvisit
  -- nothing that was there before has been appended again
  have hnodup : (sorted ++ added).Nodup := hadded ▸ hafter.ordered.nodup
  refine ⟨fun other => ?_, fun other => ?_, ⟨hafter.ordered.nodup, added, hadded.symm, ?_⟩, ?_⟩
  · rw [hafter.mark_eq_visiting_iff, h.mark_eq_visiting_iff]
  · rw [mark_eq_done_iff, mark_eq_done_iff, mem_iff_of_visit h.ordered hvisit]
  · intro other
    rw [ne_eq, mark_eq_done_iff, mark_eq_done_iff, ← hadded, List.mem_append]
    have hdisjoint : other ∈ sorted → other ∉ added := fun hearly hlate =>
      List.disjoint_of_nodup_append hnodup hearly hlate
    tauto
  · intro other target hother _ hedge
    exact hafter.ordered.idxOf_lt_of_edge (mark_eq_done_iff.mp hother) hedge

/-! ### A visit that fails -/

mutual

/-- **Inside a visit that fails, a name has been met while it was under way.** -/
theorem exists_again_of_search {state : Marking} {name : String}
    {outcome : Except GenerationFault Marking} :
    graph.Search state name outcome → ∀ fault, outcome = .error fault →
      ∃ again, ReflTransGen graph.Calls ⟨state, name⟩ again ∧ fault = .circular again.name ∧
        again.state.mark again.name = some .visiting
  | .again hvisiting, _, rfl => ⟨_, .refl, rfl, hvisiting⟩
  | .fail hunmarked hinside, fault, hfault => by
    -- the target that fails has been called by this visit, so the calls inside go on from here
    obtain ⟨before, target, after, middle, hlisted, hbefore, again, hcalls, hagain⟩ :=
      exists_again_of_searchAll hinside fault hfault
    exact ⟨again, .head (.target hunmarked hlisted hbefore) hcalls, hagain⟩

/-- If visiting several names fails, then one of them does, and those before it do not. -/
theorem exists_again_of_searchAll {state : Marking} {names : List String}
    {outcome : Except GenerationFault Marking} :
    graph.SearchAll state names outcome → ∀ fault, outcome = .error fault →
      ∃ before target after middle, names = before ++ target :: after ∧
        graph.SearchAll state before (.ok middle) ∧
        ∃ again, ReflTransGen graph.Calls ⟨middle, target⟩ again ∧ fault = .circular again.name ∧
          again.state.mark again.name = some .visiting
  | .cons hfirst hothers, fault, hfault => by
    obtain ⟨before, target, after, middle, hnames, hbefore, hagain⟩ :=
      exists_again_of_searchAll hothers fault hfault
    exact ⟨_ :: before, target, after, middle, congrArg _ hnames, .cons hfirst hbefore, hagain⟩
  | .fail hfirst, fault, hfault =>
    ⟨[], _, _, state, rfl, .nil, exists_again_of_search hfirst fault hfault⟩

end

/-! ### All visits -/

/-- **What a visit keeps.** Let a visit take place when names are visited one after the other in any
graph, circular or not. It ends, in one way, and this is the outcome of the visit along the path of
the names that are marked as visiting. If it succeeds, the marks and the list have advanced by what
its name leads to. If it fails, a name that lies on a circle is to blame: inside the visit it has
been met again while it was marked as visiting. -/
theorem search_of_reached (hreached : graph.Reached roots call) :
    (∃ path, (∀ other, other ∈ path ↔ call.state.mark other = some .visiting) ∧
      ∀ outcome, graph.Search call.state call.name outcome ↔
        outcome = marking path <$> visit graph path call.state.sorted call.name) ∧
    (∀ after, graph.Search call.state call.name (.ok after) →
      graph.Advances call.name call.state after) ∧
    ∀ fault, graph.Search call.state call.name (.error fault) →
      ∃ again, ReflTransGen graph.Calls call again ∧ fault = .circular again.name ∧
        again.state.mark again.name = some .visiting ∧
        TransGen graph.Edge again.name again.name := by
  obtain ⟨path, sorted, hmarks, halong⟩ := hreached.exists_along
  have hends : ∀ outcome, graph.Search call.state call.name outcome ↔
      outcome = marking path <$> visit graph path sorted call.name := by
    rw [hmarks]
    exact (search_visit_iff graph).1 path sorted call.name halong.underway
  refine ⟨⟨path, fun other => ?_, ?_⟩, fun after hsearch => ?_, fun fault hsearch => ?_⟩
  -- the marks of the statement are those of the path that the visit was met along
  · rw [hmarks, halong.underway.mark_eq_visiting_iff]
  · rw [hmarks] at hends ⊢
    exact hends
  · obtain ⟨result, hvisit, rfl⟩ := map_eq_ok_iff.mp ((hends _).mp hsearch).symm
    rw [hmarks]
    exact advances_of_visit halong.underway hvisit
  · obtain ⟨again, hcalls, hfault, hvisiting⟩ :=
      exists_again_of_search hsearch fault rfl
    refine ⟨again, hcalls, hfault, hvisiting, ?_⟩
    -- the visit of the name met again takes place too, so the name is on a path to itself
    obtain ⟨path, sorted, hagain, hinner⟩ := (hreached.trans hcalls).exists_along
    rw [hagain, hinner.underway.mark_eq_visiting_iff] at hvisiting
    exact hinner.leads _ hvisiting

/-- A house with a label, parents and children; what the children depend on at last is left open. -/
def household (last : String) : DependencyGraph :=
  [("House", ["Label", "Parent"]), ("Label", []), ("Parent", ["Child"]),
    ("Child", ["Label", last])]

/-- When the label has been sorted, only the house is under way. -/
theorem searchAll_household (last : String) :
    (household last).Underway ["House"] ["Label"] ∧
      (household last).SearchAll (Marking.start.enter "House") ["Label"]
        (.ok (marking ["House"] ["Label"])) := by
  have hhouse : (household last).Underway ["House"] [] := ⟨.nil, fun _ _ => List.not_mem_nil⟩
  have hlabel : visitAll (household last) ["House"] [] ["Label"] = .ok ["Label"] := by
    with_unfolding_all rfl
  refine ⟨hhouse.of_visitAll hlabel, ?_⟩
  rw [start_eq_marking, enter_marking List.not_mem_nil, (search_visit_iff _).2 _ _ _ hhouse, hlabel]
  rfl

/-- The parents are visited for the house, after the label. -/
theorem reached_household (last : String) :
    (household last).Reached ["House"] ⟨marking ["House"] ["Label"], "Parent"⟩ := by
  have hhouse : (household last).Reached ["House"] ⟨.start, "House"⟩ :=
    .root (List.nil_append _).symm .nil
  exact .nested hhouse (.target rfl rfl (searchAll_household last).2)

/-- If the children depend on the label alone, they come before their parents. If they depend on
the parents too, these are met again while they are under way. -/
theorem search_household :
    (household "Label").Reached ["House"] ⟨marking ["House"] ["Label"], "Parent"⟩ ∧
      (household "Label").Search (marking ["House"] ["Label"]) "Parent"
        (.ok (marking ["House"] ["Label", "Child", "Parent"])) ∧
      (household "Label").Advances "Parent" (marking ["House"] ["Label"])
        (marking ["House"] ["Label", "Child", "Parent"]) ∧
    (household "Parent").Reached ["House"] ⟨marking ["House"] ["Label"], "Parent"⟩ ∧
      (household "Parent").Search (marking ["House"] ["Label"]) "Parent"
        (.error (.circular "Parent")) ∧
      TransGen (household "Parent").Edge "Parent" "Parent" := by
  have hsorted : visit (household "Label") ["House"] ["Label"] "Parent" =
      .ok ["Label", "Child", "Parent"] := by decide +kernel
  have hcircular : visit (household "Parent") ["House"] ["Label"] "Parent" =
      .error (.circular "Parent") := by decide +kernel
  have hends : (household "Label").Search (marking ["House"] ["Label"]) "Parent"
      (.ok (marking ["House"] ["Label", "Child", "Parent"])) := by
    rw [(search_visit_iff _).1 _ _ _ (searchAll_household _).1, hsorted]
    rfl
  have hfails : (household "Parent").Search (marking ["House"] ["Label"]) "Parent"
      (.error (.circular "Parent")) := by
    rw [(search_visit_iff _).1 _ _ _ (searchAll_household _).1, hcircular]
    rfl
  refine ⟨reached_household _, hends, (search_of_reached (reached_household _)).2.1 _ hends,
    reached_household _, hfails, ?_⟩
  obtain ⟨⟨_, name⟩, -, hname, -, hcircle⟩ :=
    (search_of_reached (reached_household "Parent")).2.2 _ hfails
  cases hname
  exact hcircle

end DependencyGraph

/-- Names are resolved by the search with marks, once their graph is there. -/
theorem Container.searchAll_iff_resolve {container : Container} {nominal : List String}
    {graph : DependencyGraph} (h : container.dependencyGraph nominal.eraseDups = .ok graph)
    (outcome : Except GenerationFault Marking) :
    graph.SearchAll .start nominal.eraseDups outcome ↔
      outcome = DependencyGraph.marking [] <$> container.resolve nominal := by
  rw [resolve_of_graph h, DependencyGraph.start_eq_marking]
  exact (DependencyGraph.search_visit_iff graph).2 _ _ _ ⟨.nil, List.forall_mem_nil _⟩ outcome

end WireBindings
