import WireBindings.Proofs.Dependency.Traversal

/-!
# Visiting a part of a graph

Names of a kind can be left out of a graph, together with all edges to them
(`DependencyGraph.restrict`). If the names that are left out lead nowhere, then to visit one of them
does nothing but append it: the visit can neither fail nor go on (`visit_of_leavesOut`). So two
visits, one of the graph and one of what is left of it, go side by side, and what they have sorted
is the same up to the names left out (`visit_restrict`). The second visit has no step where the
first one meets such a name, which is why the two are compared after whole visits and not step by
step.
-/

namespace WireBindings

namespace DependencyGraph

variable {graph : DependencyGraph} {p : String → Bool} {path sorted : List String} {name : String}

/-- What is left of a graph if only the names of a kind are kept. -/
def restrict (p : String → Bool) (graph : DependencyGraph) : DependencyGraph :=
  (graph.filter fun entry => p entry.1).map fun entry => (entry.1, entry.2.filter p)

theorem restrict_cons_of_pos {targets : List String} (h : p name) :
    restrict p ((name, targets) :: graph) = (name, targets.filter p) :: restrict p graph := by
  simp [restrict, h]

theorem restrict_cons_of_neg {targets : List String} (h : ¬ p name) :
    restrict p ((name, targets) :: graph) = restrict p graph := by
  simp [restrict, h]

/-- A name that is kept leads to what is left of its targets. -/
theorem lookup_restrict (h : p name) :
    (restrict p graph).lookup name = (graph.lookup name).map (List.filter p) := by
  induction graph with
  | nil => rfl
  | cons entry graph ih =>
    obtain ⟨source, targets⟩ := entry
    by_cases hsame : name = source
    · subst hsame
      rw [restrict_cons_of_pos h, List.lookup_cons_self, List.lookup_cons_self, Option.map_some]
    · -- the entry of another name is passed over, be it kept or not
      have hother : (name == source) = false := beq_false_of_ne hsame
      rw [List.lookup_cons, hother]
      by_cases hsource : p source
      · rw [restrict_cons_of_pos hsource, List.lookup_cons, hother]
        exact ih
      · rw [restrict_cons_of_neg hsource]
        exact ih

/-- The names of the graph that are left out lead nowhere. -/
def LeavesOut (graph : DependencyGraph) (p : String → Bool) : Prop :=
  ∀ name targets, ¬ p name → graph.lookup name = some targets → targets = []

/-- **To visit a name that is left out changes nothing that is kept**, and it does not fail. -/
theorem visit_of_leavesOut (hgraph : graph.LeavesOut p) (hpath : ∀ early ∈ path, p early)
    (h : ¬ p name) :
    ∃ result, visit graph path sorted name = .ok result ∧ result.filter p = sorted.filter p := by
  have hoff : name ∉ path := fun hmem => h (hpath name hmem)
  have hdropped : (sorted ++ [name]).filter p = sorted.filter p := by
    rw [List.filter_append, List.filter_cons_of_neg h, List.filter_nil, List.append_nil]
  -- a name that is new is appended at once, since it leads nowhere
  by_cases hsorted : name ∈ sorted
  · exact ⟨sorted, visit_of_mem_sorted hoff hsorted, rfl⟩
  · refine ⟨sorted ++ [name], ?_, hdropped⟩
    cases hlookup : graph.lookup name with
    | none => exact visit_of_lookup_eq_none hoff hsorted hlookup
    | some targets =>
      obtain rfl : targets = [] := hgraph name targets h hlookup
      rw [visit_of_lookup_eq_some hoff hsorted hlookup, visitAll_nil]
      rfl

/-- **Visits of a graph and of what is left of it go side by side**, for one name that is kept and
for several names. -/
theorem visit_restrict (hgraph : graph.LeavesOut p) :
    (∀ path sorted name, (∀ early ∈ path, p early) → p name →
      List.filter p <$> visit graph path sorted name =
        visit (graph.restrict p) path (sorted.filter p) name) ∧
    (∀ path sorted names, (∀ early ∈ path, p early) →
      List.filter p <$> visitAll graph path sorted names =
        visitAll (graph.restrict p) path (sorted.filter p) (names.filter p)) := by
  have hinduct := visit.mutual_induct graph
    (fun path sorted name => (∀ early ∈ path, p early) → p name →
      List.filter p <$> visit graph path sorted name =
        visit (graph.restrict p) path (sorted.filter p) name)
    (fun path sorted names => (∀ early ∈ path, p early) →
      List.filter p <$> visitAll graph path sorted names =
        visitAll (graph.restrict p) path (sorted.filter p) (names.filter p))
  have hfresh {sorted : List String} {name : String} (h : name ∉ sorted) :
      name ∉ sorted.filter p := fun hmem => h (List.mem_filter.mp hmem).1
  have hconcat {sorted : List String} {name : String} (h : p name) :
      (sorted ++ [name]).filter p = sorted.filter p ++ [name] := by
    rw [List.filter_append, List.filter_cons_of_pos h, List.filter_nil]
  refine hinduct ?_ ?_ ?_ ?_ ?_ ?_
  · -- the same fault on both sides
    intro path sorted name hmem _ _
    rw [visit_of_mem_path hmem, visit_of_mem_path hmem]
    rfl
  · intro path sorted name hmem hsorted _ h
    rw [visit_of_mem_sorted hmem hsorted,
      visit_of_mem_sorted hmem (List.mem_filter.mpr ⟨hsorted, h⟩)]
    rfl
  · intro path sorted name hmem hsorted hlookup _ h
    have hnone : (graph.restrict p).lookup name = none := by rw [lookup_restrict h, hlookup]; rfl
    rw [visit_of_lookup_eq_none hmem hsorted hlookup,
      visit_of_lookup_eq_none hmem (hfresh hsorted) hnone, ← hconcat h]
    rfl
  · -- the path stays one of names that are kept
    intro path sorted name hmem hsorted targets hlookup ih hpath h
    have hsome : (graph.restrict p).lookup name = some (targets.filter p) := by
      rw [lookup_restrict h, hlookup]
      rfl
    rw [visit_of_lookup_eq_some hmem hsorted hlookup,
      visit_of_lookup_eq_some hmem (hfresh hsorted) hsome,
      ← ih (List.forall_mem_cons.mpr ⟨h, hpath⟩)]
    cases visitAll graph (name :: path) sorted targets with
    | error fault => rfl
    | ok middle =>
      show Except.ok ((middle ++ [name]).filter p) = Except.ok (middle.filter p ++ [name])
      rw [hconcat h]
  · intro path sorted _
    rw [visitAll_nil, List.filter_nil, visitAll_nil]
    rfl
  · intro path sorted name rest ihFirst ihRest hpath
    rw [visitAll_cons]
    by_cases h : p name
    · rw [List.filter_cons_of_pos h, visitAll_cons, ← ihFirst hpath h]
      cases visit graph path sorted name with
      | error fault => rfl
      | ok middle => exact ihRest middle hpath
    · -- the visit of the smaller graph waits
      obtain ⟨middle, hmiddle, hsame⟩ : ∃ result, visit graph path sorted name = .ok result ∧
          result.filter p = sorted.filter p := visit_of_leavesOut hgraph hpath h
      rw [hmiddle, List.filter_cons_of_neg h, ← hsame]
      exact ihRest middle hpath

end DependencyGraph

end WireBindings
