import Mathlib.Data.List.Nodup
import Mathlib.Logic.Relation
import WireBindings.Dependency.Order
import WireBindings.Proofs.Dependency.Graph
import WireBindings.Proofs.Outcome

/-!
# Visiting a graph depth first

What a visit leaves behind is *ordered*: no name occurs twice, and each stands after all the names
that the graph leads to from it (`Ordered`). This alone excludes circles among the sorted names
(`Ordered.not_circular`), so whether a circle is found does not depend on where the visit begins or
on what has been sorted before.

The two ways in which a visit may end are described separately, each by one invariant of the path:

* if it succeeds, then nothing on the path has been sorted meanwhile (`Visited`), and so a name that
  is appended at last is new;
* if it fails, then by a name that lies on a circle, since every name on the path leads to the
  current one (`circular_of_visit`).
-/

namespace WireBindings

namespace DependencyGraph

open Relation

variable {graph : DependencyGraph} {path sorted middle result names rest targets : List String}
  {name other : String} {fault : GenerationFault}

/-! ### Ordered lists -/

/-- Each name of the list stands after the names that the graph leads to from it, and stands there
once. -/
inductive Ordered (graph : DependencyGraph) : List String → Prop
  | nil : Ordered graph []
  | concat {sorted : List String} {name : String} (hbefore : Ordered graph sorted)
      (hfresh : name ∉ sorted) (hclosed : ∀ other, graph.Edge name other → other ∈ sorted) :
      Ordered graph (sorted ++ [name])

/-- No name stands in an ordered list twice. -/
theorem Ordered.nodup (h : graph.Ordered sorted) : sorted.Nodup := by
  induction h with
  | nil => exact List.nodup_nil
  | concat _ hfresh _ ih =>
    rw [List.nodup_append]
    refine ⟨ih, List.nodup_singleton _, ?_⟩
    rintro other hother name hname rfl
    rw [List.mem_singleton.mp hname] at hother
    exact hfresh hother

/-- What the graph leads to from a name of the list is in the list, and stands before it. -/
theorem Ordered.idxOf_lt_of_edge (h : graph.Ordered sorted) (hmem : name ∈ sorted)
    (hedge : graph.Edge name other) :
    other ∈ sorted ∧ sorted.idxOf other < sorted.idxOf name := by
  induction h with
  | nil => exact absurd hmem List.not_mem_nil
  | @concat sorted last _ hfresh hclosed ih =>
    -- the last name stands behind all others, and what it leads to is among these
    rcases List.mem_append.mp hmem with hmem | hlast
    · obtain ⟨hother, hlt⟩ := ih hmem
      rw [List.idxOf_append_of_mem hother, List.idxOf_append_of_mem hmem]
      exact ⟨List.mem_append_left _ hother, hlt⟩
    · rw [List.mem_singleton.mp hlast] at hedge ⊢
      have hother : other ∈ sorted := hclosed other hedge
      refine ⟨List.mem_append_left _ hother, ?_⟩
      calc (sorted ++ [last]).idxOf other
          = sorted.idxOf other := List.idxOf_append_of_mem hother
        _ < sorted.length := List.idxOf_lt_length_iff.mpr hother
        _ ≤ (sorted ++ [last]).idxOf last := by
            rw [List.idxOf_append_of_notMem hfresh]
            exact Nat.le_add_right _ _

/-- So does whatever the graph leads to in several steps. -/
theorem Ordered.idxOf_lt_of_transGen (h : graph.Ordered sorted) (hmem : name ∈ sorted)
    (hpath : TransGen graph.Edge name other) :
    other ∈ sorted ∧ sorted.idxOf other < sorted.idxOf name := by
  induction hpath with
  | single hedge => exact h.idxOf_lt_of_edge hmem hedge
  | tail _ hedge ih =>
    obtain ⟨hlast, hlt⟩ := h.idxOf_lt_of_edge ih.1 hedge
    exact ⟨hlast, Nat.lt_trans hlt ih.2⟩

/-- **No name of an ordered list lies on a circle.** -/
theorem Ordered.not_circular (h : graph.Ordered sorted) (hmem : name ∈ sorted) :
    ¬ TransGen graph.Edge name name := fun hcircle =>
  -- otherwise the name would stand before itself
  Nat.lt_irrefl _ (h.idxOf_lt_of_transGen hmem hcircle).2

/-! ### One step of a visit -/

/-- **A name that is under way closes a circle.** -/
theorem visit_of_mem_path (hpath : name ∈ path) :
    visit graph path sorted name = .error (.circular name) := by
  rw [visit, if_pos hpath]

theorem visit_of_mem_sorted (hpath : name ∉ path) (hsorted : name ∈ sorted) :
    visit graph path sorted name = .ok sorted := by
  rw [visit, if_neg hpath, if_pos hsorted]

/-- A name that the graph does not know is appended. -/
theorem visit_of_lookup_eq_none (hpath : name ∉ path) (hsorted : name ∉ sorted)
    (hlookup : graph.lookup name = none) :
    visit graph path sorted name = .ok (sorted ++ [name]) := by
  rw [visit, if_neg hpath, if_neg hsorted]
  split
  · rfl
  · next targets hsome =>
    rw [hlookup] at hsome
    cases hsome

/-- Any other name is appended when its targets have been visited, with the name on the path. -/
theorem visit_of_lookup_eq_some (hpath : name ∉ path) (hsorted : name ∉ sorted)
    (hlookup : graph.lookup name = some targets) :
    visit graph path sorted name =
      (visitAll graph (name :: path) sorted targets >>= fun sorted => pure (sorted ++ [name])) := by
  rw [visit, if_neg hpath, if_neg hsorted]
  split
  · next hnone =>
    rw [hlookup] at hnone
    cases hnone
  · next found hsome =>
    rw [hlookup] at hsome
    cases hsome
    rfl

theorem visitAll_nil : visitAll graph path sorted [] = .ok sorted := by
  rw [visitAll]

/-- Names are visited one after the other. -/
theorem visitAll_cons :
    visitAll graph path sorted (name :: rest) =
      (visit graph path sorted name >>= fun sorted => visitAll graph path sorted rest) := by
  rw [visitAll]

/-! ### A visit that succeeds -/

/-- What visiting the names has made of `sorted`, while the names of the path were under way. -/
structure Visited (graph : DependencyGraph) (path sorted names result : List String) : Prop where
  /-- The outcome is ordered. -/
  ordered : graph.Ordered result
  /-- What was there before has been kept. -/
  kept : ∀ other ∈ sorted, other ∈ result
  /-- The names asked for are there. -/
  found : ∀ name ∈ names, name ∈ result
  /-- A name of the path has not become sorted meanwhile. -/
  offPath : ∀ other ∈ result, other ∈ sorted ∨ other ∉ path
  /-- Whatever is new can be reached from a name asked for. -/
  reached : ∀ other ∈ result, other ∈ sorted ∨ ∃ name ∈ names, ReflTransGen graph.Edge name other

/-- Asking for names that are sorted already changes nothing. -/
theorem Visited.refl (hordered : graph.Ordered sorted) (hsorted : ∀ name ∈ names, name ∈ sorted) :
    graph.Visited path sorted names sorted where
  ordered := hordered
  kept _ hother := hother
  found := hsorted
  offPath _ hother := .inl hother
  reached _ hother := .inl hother

/-- **A name can be appended** once what it leads to has been visited with the name itself on the
path. -/
theorem Visited.concat (hpath : name ∉ path) (hsorted : name ∉ sorted)
    (htargets : ∀ other, graph.Edge name other ↔ other ∈ targets)
    (h : graph.Visited (name :: path) sorted targets middle) :
    graph.Visited path sorted [name] (middle ++ [name]) where
  ordered := by
    -- the name was on the path all the time, so it cannot have been sorted in between
    have hfresh : name ∉ middle := fun hmem =>
      (h.offPath name hmem).elim hsorted fun hoff => hoff List.mem_cons_self
    exact .concat h.ordered hfresh fun other hedge => h.found other ((htargets other).mp hedge)
  kept other hother := List.mem_append_left _ (h.kept other hother)
  found _ hname := List.mem_append_right _ hname
  offPath := by
    intro other hother
    rcases List.mem_append.mp hother with hmiddle | hlast
    · exact (h.offPath other hmiddle).imp_right fun hoff hmem =>
        hoff (List.mem_cons_of_mem _ hmem)
    · rw [List.mem_singleton.mp hlast]
      exact .inr hpath
  reached := by
    intro other hother
    rcases List.mem_append.mp hother with hmiddle | hlast
    · refine (h.reached other hmiddle).imp_right ?_
      rintro ⟨target, htarget, hfrom⟩
      exact ⟨name, List.mem_singleton_self _, hfrom.head ((htargets target).mpr htarget)⟩
    · rw [List.mem_singleton.mp hlast]
      exact .inr ⟨name, List.mem_singleton_self _, .refl⟩

/-- Two visits one after the other, along the same path. -/
theorem Visited.append (hfirst : graph.Visited path sorted [name] middle)
    (hrest : graph.Visited path middle rest result) :
    graph.Visited path sorted (name :: rest) result where
  ordered := hrest.ordered
  kept other hother := hrest.kept other (hfirst.kept other hother)
  found := by
    intro other hother
    rcases List.mem_cons.mp hother with rfl | hother
    · exact hrest.kept other (hfirst.found other (List.mem_singleton_self _))
    · exact hrest.found other hother
  offPath other hother := (hrest.offPath other hother).elim (hfirst.offPath other) .inr
  reached := by
    intro other hother
    rcases hrest.reached other hother with hmiddle | ⟨start, hstart, hfrom⟩
    · refine (hfirst.reached other hmiddle).imp_right ?_
      rintro ⟨start, hstart, hfrom⟩
      rw [List.mem_singleton.mp hstart] at hfrom
      exact ⟨name, List.mem_cons_self, hfrom⟩
    · exact .inr ⟨start, List.mem_cons_of_mem _ hstart, hfrom⟩

/-- The edges from a name are the targets of its entry. -/
theorem edge_iff_mem_of_lookup (hlookup : graph.lookup name = some targets) :
    graph.Edge name other ↔ other ∈ targets := by
  refine ⟨?_, fun hother => ⟨targets, hlookup, hother⟩⟩
  rintro ⟨found, hfound, hother⟩
  rw [hlookup] at hfound
  cases hfound
  exact hother

/-- From a name without an entry there are none. -/
theorem not_edge_of_lookup (hlookup : graph.lookup name = none) : ¬ graph.Edge name other := by
  rintro ⟨found, hfound, -⟩
  rw [hlookup] at hfound
  cases hfound

/-- **The invariant of visits that succeed**, for one name and for several. -/
theorem visited_of_visit (graph : DependencyGraph) :
    (∀ path sorted name result, graph.Ordered sorted →
      visit graph path sorted name = .ok result → graph.Visited path sorted [name] result) ∧
    (∀ path sorted names result, graph.Ordered sorted →
      visitAll graph path sorted names = .ok result →
        graph.Visited path sorted names result) := by
  have hinduct := visit.mutual_induct graph
    (fun path sorted name => ∀ result, graph.Ordered sorted →
      visit graph path sorted name = .ok result → graph.Visited path sorted [name] result)
    (fun path sorted names => ∀ result, graph.Ordered sorted →
      visitAll graph path sorted names = .ok result → graph.Visited path sorted names result)
  refine hinduct ?_ ?_ ?_ ?_ ?_ ?_
  · -- the name is under way: there is no success
    intro path sorted name hpath result _ h
    rw [visit_of_mem_path hpath] at h
    cases h
  · -- the name is sorted already
    intro path sorted name hpath hsorted result hordered h
    rw [visit_of_mem_sorted hpath hsorted] at h
    cases h
    exact .refl hordered fun other hother => List.mem_singleton.mp hother ▸ hsorted
  · -- the graph does not know the name
    intro path sorted name hpath hsorted hlookup result hordered h
    rw [visit_of_lookup_eq_none hpath hsorted hlookup] at h
    cases h
    have hnone (other : String) : graph.Edge name other ↔ other ∈ [] :=
      ⟨fun hedge => absurd hedge (not_edge_of_lookup hlookup), nofun⟩
    exact .concat hpath hsorted hnone (.refl hordered (List.forall_mem_nil _))
  · -- the name is appended after its targets
    intro path sorted name hpath hsorted targets hlookup ih result hordered h
    rw [visit_of_lookup_eq_some hpath hsorted hlookup] at h
    obtain ⟨middle, hmiddle, h⟩ := bind_eq_ok_iff.mp h
    cases h
    exact .concat hpath hsorted (fun _ => edge_iff_mem_of_lookup hlookup)
      (ih middle hordered hmiddle)
  · -- no more names
    intro path sorted result hordered h
    rw [visitAll_nil] at h
    cases h
    exact .refl hordered (List.forall_mem_nil _)
  · -- the further names start from what the first has left
    intro path sorted name rest ihFirst ihRest result hordered h
    rw [visitAll_cons] at h
    obtain ⟨middle, hmiddle, h⟩ := bind_eq_ok_iff.mp h
    have hfirst := ihFirst middle hordered hmiddle
    exact hfirst.append (ihRest middle result hfirst.ordered h)

/-! ### A visit that fails -/

/-- The fault names something that lies on a circle of the graph. -/
def BlamesCircle (graph : DependencyGraph) (fault : GenerationFault) : Prop :=
  ∃ name, fault = .circular name ∧ TransGen graph.Edge name name

/-- **The invariant of visits that fail**: as every name on the path leads to the one that is
visited, meeting a name of the path closes a circle through it. -/
theorem circular_of_visit (graph : DependencyGraph) :
    (∀ path sorted name fault, (∀ early ∈ path, TransGen graph.Edge early name) →
      visit graph path sorted name = .error fault → graph.BlamesCircle fault) ∧
    (∀ path sorted names fault,
      (∀ early ∈ path, ∀ name ∈ names, TransGen graph.Edge early name) →
      visitAll graph path sorted names = .error fault → graph.BlamesCircle fault) := by
  have hinduct := visit.mutual_induct graph
    (fun path sorted name => ∀ fault, (∀ early ∈ path, TransGen graph.Edge early name) →
      visit graph path sorted name = .error fault → graph.BlamesCircle fault)
    (fun path sorted names => ∀ fault,
      (∀ early ∈ path, ∀ name ∈ names, TransGen graph.Edge early name) →
      visitAll graph path sorted names = .error fault → graph.BlamesCircle fault)
  -- only two cases can fail: the name is under way, or one of its targets fails
  refine hinduct ?_ ?_ ?_ ?_ ?_ ?_
  · intro path sorted name hpath fault hleads h
    rw [visit_of_mem_path hpath] at h
    cases h
    -- the name leads to itself, since it is on the path
    exact ⟨name, rfl, hleads name hpath⟩
  · intro path sorted name hpath hsorted fault _ h
    rw [visit_of_mem_sorted hpath hsorted] at h
    cases h
  · intro path sorted name hpath hsorted hlookup fault _ h
    rw [visit_of_lookup_eq_none hpath hsorted hlookup] at h
    cases h
  · intro path sorted name hpath hsorted targets hlookup ih fault hleads h
    rw [visit_of_lookup_eq_some hpath hsorted hlookup] at h
    rcases bind_eq_error_iff.mp h with h | ⟨middle, -, h⟩
    · refine ih fault ?_ h
      -- the path is one edge longer for each target
      intro early hearly target htarget
      have hedge : graph.Edge name target := (edge_iff_mem_of_lookup hlookup).mpr htarget
      rcases List.mem_cons.mp hearly with rfl | hearly
      · exact .single hedge
      · exact (hleads early hearly).tail hedge
    · cases h
  · intro path sorted fault _ h
    rw [visitAll_nil] at h
    cases h
  · intro path sorted name rest ihFirst ihRest fault hleads h
    rw [visitAll_cons] at h
    rcases bind_eq_error_iff.mp h with h | ⟨middle, -, h⟩
    · exact ihFirst fault (fun early hearly => hleads early hearly name List.mem_cons_self) h
    · exact ihRest middle fault
        (fun early hearly other hother =>
          hleads early hearly other (List.mem_cons_of_mem _ hother)) h

end DependencyGraph

end WireBindings
