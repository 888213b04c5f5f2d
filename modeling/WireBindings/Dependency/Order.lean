import WireBindings.Dependency.Reads
import WireBindings.Fault

/-!
# Declare before use

`Container.resolve` puts names into an order in which each stands after its dependencies. The names
are visited depth first, in the order given: a name is appended once all its dependencies have been,
so names that do not depend on each other keep the order in which they are first asked for.

The names under way form the *path* from the name first asked for to the current one. To meet a name
of the path again means that it depends on itself, and then there is no such order.
-/

namespace WireBindings

/-- The dependencies of each name. -/
abbrev DependencyGraph := List (String × List String)

/-- The names whose dependencies a graph knows. -/
def DependencyGraph.names (graph : DependencyGraph) : List String := graph.map Prod.fst

/-- The number of targets, those of all names together. -/
def DependencyGraph.targetCount (graph : DependencyGraph) : Nat := (graph.flatMap Prod.snd).length

/-- What is looked up in a graph stands in it. -/
theorem DependencyGraph.mem_of_lookup {graph : DependencyGraph} {name : String}
    {targets : List String} (hlookup : graph.lookup name = some targets) :
    (name, targets) ∈ graph := by
  obtain ⟨before, after, hsplit, -⟩ := List.lookup_eq_some_iff.mp hlookup
  rw [hsplit]
  exact List.mem_append_right _ List.mem_cons_self

theorem DependencyGraph.mem_names_of_lookup {graph : DependencyGraph} {name : String}
    {targets : List String} (hlookup : graph.lookup name = some targets) : name ∈ graph.names :=
  List.mem_map_of_mem (DependencyGraph.mem_of_lookup hlookup)

mutual

/-- Appends `name` to `sorted`, with everything before it that it depends on. What is in `sorted`
already is left where it is; a name of the `path` must not be met. -/
def visit (graph : DependencyGraph) (path sorted : List String) (name : String) :
    Except GenerationFault (List String) :=
  -- a name is on the path or sorted, never both: it leaves the path when it is appended
  if name ∈ path then .error (.circular name)
  else if name ∈ sorted then .ok sorted
  else
    match _ : graph.lookup name with
    -- a name without an edge of its own depends on nothing
    | none => .ok (sorted ++ [name])
    | some targets => do
      let sorted ← visitAll graph (name :: path) sorted targets
      return sorted ++ [name]
termination_by remaining graph.names path * (graph.targetCount + 2)
decreasing_by
  -- the path has grown by a name of the graph, which counts for more than its targets
  have hcount := length_le_length_flatMap (f := Prod.snd) (DependencyGraph.mem_of_lookup ‹_›)
  exact remaining_cons_mul_lt (DependencyGraph.mem_names_of_lookup ‹_›) (by assumption)
    (Nat.succ_lt_succ (Nat.lt_succ_of_le hcount))

/-- Visits several names, one after the other. -/
def visitAll (graph : DependencyGraph) (path sorted : List String) :
    List String → Except GenerationFault (List String)
  | [] => .ok sorted
  | name :: rest => do
    let sorted ← visit graph path sorted name
    visitAll graph path sorted rest
termination_by names =>
  remaining graph.names path * (graph.targetCount + 2) + (names.length + 1)

end

namespace Container

/-- The graph of the dependencies between the names. The first name with a declaration that denotes
no type makes it fail. -/
def dependencyGraph (container : Container) (names : List String) :
    Except TypeFault DependencyGraph :=
  names.mapM fun name => do return (name, ← container.dependenciesOf names name)

/-- The names, each once, in an order in which each stands after its dependencies. -/
def resolve (container : Container) (nominal : List String) :
    Except GenerationFault (List String) := do
  let names := nominal.eraseDups
  -- all declarations are read before any name is visited, so they fail before any circle is found
  let graph ← (container.dependencyGraph names).mapError .type
  visitAll graph [] [] names

end Container

end WireBindings
