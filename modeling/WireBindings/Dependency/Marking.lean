import WireBindings.Dependency.Order

/-!
# The search with marks

A visit can be told without a path. Every name has a mark or none: it is *visiting* from when it is
met first until its dependencies have been sorted, and *done* once it stands in the list. Marks and
list are handed on from one visit to the next, so a visit finds there whatever earlier visits have
left, and it is not evident that it cleans up after itself.

`Search` and `SearchAll` say what such a search comes to, by its course: there is an outcome only if
the search ends. `Calls` relates a visit to those that it starts by itself, and `Reached` are the
visits that take place when the names of a list are visited one after the other.
-/

namespace WireBindings

/-- How far the search has come with a name. -/
inductive Mark
  /-- The dependencies of the name are being sorted. -/
  | visiting
  /-- The name is sorted. -/
  | done
  deriving DecidableEq

/-- What a search hands on from one visit to the next. -/
structure Marking where
  /-- The mark of each name, if it has one. -/
  mark : String → Option Mark
  /-- The names that are sorted, in their order. -/
  sorted : List String

namespace Marking

/-- There are no marks when the search begins. -/
def start : Marking := ⟨fun _ => none, []⟩

/-- The name is being visited from now on. -/
def enter (state : Marking) (name : String) : Marking where
  mark other := if other = name then some .visiting else state.mark other
  sorted := state.sorted

/-- The name is done with. -/
def leave (state : Marking) (name : String) : Marking where
  mark other := if other = name then some .done else state.mark other
  sorted := state.sorted ++ [name]

end Marking

/-- A visit that is about to begin. -/
structure Call where
  /-- The marks that it finds. -/
  state : Marking
  /-- The name to visit. -/
  name : String

namespace DependencyGraph

/-- The names that a name depends on by itself; a name the graph does not know has none. -/
def targets (graph : DependencyGraph) (name : String) : List String :=
  (graph.lookup name).getD []

mutual

/-- To visit the name ends with the outcome. -/
inductive Search (graph : DependencyGraph) :
    Marking → String → Except GenerationFault Marking → Prop
  -- the name is met among what it depends on itself
  | again {state : Marking} {name : String} (hvisiting : state.mark name = some .visiting) :
      Search graph state name (.error (.circular name))
  -- there is nothing left to do
  | known {state : Marking} {name : String} (hdone : state.mark name = some .done) :
      Search graph state name (.ok state)
  -- the mark is taken back by the visit that has set it
  | finish {state inner : Marking} {name : String} (hunmarked : state.mark name = none)
      (hinside : SearchAll graph (state.enter name) (graph.targets name) (.ok inner)) :
      Search graph state name (.ok (inner.leave name))
  | fail {state : Marking} {name : String} {fault : GenerationFault}
      (hunmarked : state.mark name = none)
      (hinside : SearchAll graph (state.enter name) (graph.targets name) (.error fault)) :
      Search graph state name (.error fault)

/-- To visit the names one after the other ends with the outcome. -/
inductive SearchAll (graph : DependencyGraph) :
    Marking → List String → Except GenerationFault Marking → Prop
  | nil {state : Marking} : SearchAll graph state [] (.ok state)
  | cons {state middle : Marking} {name : String} {rest : List String}
      {outcome : Except GenerationFault Marking} (hfirst : Search graph state name (.ok middle))
      (hothers : SearchAll graph middle rest outcome) : SearchAll graph state (name :: rest) outcome
  | fail {state : Marking} {name : String} {rest : List String} {fault : GenerationFault}
      (hfirst : Search graph state name (.error fault)) :
      SearchAll graph state (name :: rest) (.error fault)

end

/-- The first visit starts the second: to a target of its name, when those before it have been
visited. -/
inductive Calls (graph : DependencyGraph) : Call → Call → Prop
  | target {state middle : Marking} {name target : String} {before after : List String}
      (hunmarked : state.mark name = none)
      (hlisted : graph.targets name = before ++ target :: after)
      (hearlier : SearchAll graph (state.enter name) before (.ok middle)) :
      Calls graph ⟨state, name⟩ ⟨middle, target⟩

/-- The visit takes place when the roots are visited one after the other. -/
inductive Reached (graph : DependencyGraph) (roots : List String) : Call → Prop
  | root {state : Marking} {name : String} {before after : List String}
      (hlisted : roots = before ++ name :: after)
      (hearlier : SearchAll graph .start before (.ok state)) : Reached graph roots ⟨state, name⟩
  | nested {call inner : Call} (houter : Reached graph roots call)
      (hcalls : graph.Calls call inner) : Reached graph roots inner

variable {graph : DependencyGraph} {state : Marking} {name : String} {rest : List String}
  {outcome : Except GenerationFault Marking}

/-- All that a visit can come to, by the mark it finds. -/
theorem search_iff :
    graph.Search state name outcome ↔
      match state.mark name with
      | some .visiting => outcome = .error (.circular name)
      | some .done => outcome = .ok state
      | none => ∃ inside, graph.SearchAll (state.enter name) (graph.targets name) inside ∧
          outcome = (·.leave name) <$> inside := by
  refine ⟨fun h => ?_, fun h => ?_⟩
  · cases h with
    | again hvisiting => rw [hvisiting]
    | known hdone => rw [hdone]
    | finish hunmarked hinside => rw [hunmarked]; exact ⟨_, hinside, rfl⟩
    | fail hunmarked hinside => rw [hunmarked]; exact ⟨_, hinside, rfl⟩
  · split at h
    · next hvisiting =>
      subst h
      exact .again hvisiting
    · next hdone =>
      subst h
      exact .known hdone
    · next hunmarked =>
      obtain ⟨inside, hinside, rfl⟩ := h
      cases inside with
      | ok inner => exact .finish hunmarked hinside
      | error fault => exact .fail hunmarked hinside

/-- To visit nothing leaves the marks as they are. -/
theorem searchAll_nil_iff : graph.SearchAll state [] outcome ↔ outcome = .ok state := by
  refine ⟨fun h => ?_, ?_⟩
  · cases h with
    | nil => rfl
  · rintro rfl
    exact .nil

/-- The further names are visited only if the first visit succeeds. -/
theorem searchAll_cons_iff :
    graph.SearchAll state (name :: rest) outcome ↔ ∃ first, graph.Search state name first ∧
      match first with
      | .ok middle => graph.SearchAll middle rest outcome
      | .error fault => outcome = .error fault := by
  refine ⟨fun h => ?_, ?_⟩
  · cases h with
    | cons hfirst hothers => exact ⟨_, hfirst, hothers⟩
    | fail hfirst => exact ⟨_, hfirst, rfl⟩
  · rintro ⟨first, hfirst, hothers⟩
    cases first with
    | ok middle => exact .cons hfirst hothers
    | error fault =>
      subst hothers
      exact .fail hfirst

end DependencyGraph

end WireBindings
