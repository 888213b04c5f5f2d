import WireBindings.Dependency.Order
import WireBindings.Proofs.Dependency.Reads
import WireBindings.Proofs.Outcome

/-!
# The graph of dependencies

`Container.dependencyGraph` reads the declarations of every name and notes what they mention. Two
things are shown about it. The graph, where there is one, has an edge exactly where one name depends
on the other (`edge_iff_dependsOn`). And there is one unless some name has a declaration that
denotes no type; the fault is then that of the first such name (`dependencyGraph_eq_error_iff`).
-/

namespace WireBindings

/-- The graph leads from the first name to the second. -/
def DependencyGraph.Edge (graph : DependencyGraph) (name other : String) : Prop :=
  ∃ targets, graph.lookup name = some targets ∧ other ∈ targets

namespace Container

variable {container : Container} {nominal names targets : List String} {name other : String}
  {graph : DependencyGraph} {fault : TypeFault}

/-! ### The dependencies of a name -/

/-- The definition refers to the name, in a declaration that it contributes. -/
def RefersTo (container : Container) (definition : Definition) (other : String) : Prop :=
  ∃ declaration type, container.Contributes definition declaration ∧
    TypeExpr.parse declaration = .ok type ∧ other ∈ type.references

/-- A name mentions what its definition refers to. -/
theorem mentions_iff :
    container.Mentions name other ↔
      ∃ definition, container.get? name = some definition ∧
        container.RefersTo definition other := by
  refine ⟨?_, ?_⟩
  · rintro ⟨declaration, type, ⟨definition, hdefined, hread⟩, hparse, hother⟩
    exact ⟨definition, hdefined, declaration, type, hread, hparse, hother⟩
  · rintro ⟨definition, hdefined, declaration, type, hread, hparse, hother⟩
    exact ⟨declaration, type, ⟨definition, hdefined, hread⟩, hparse, hother⟩

/-- The dependencies of a definition are the nominal names that it refers to. -/
theorem mem_dependencies_iff {definition : Definition}
    (h : container.dependencies nominal definition = .ok targets) :
    other ∈ targets ↔ other ∈ nominal ∧ container.RefersTo definition other := by
  obtain ⟨types, hparsed, h⟩ := bind_eq_ok_iff.mp h
  have hparsed := mapM_eq_ok_iff.mp hparsed
  cases h
  rw [List.mem_eraseDups, List.mem_filter, List.contains_iff_mem, List.mem_flatMap, and_comm]
  -- the types are those of the declarations that are read, one by one
  refine and_congr_right fun _ => ⟨?_, ?_⟩
  · rintro ⟨type, htype, hother⟩
    obtain ⟨declaration, hread, hparse⟩ := exists_left_of_mem hparsed htype
    exact ⟨declaration, type, mem_declarationsRead_iff.mp hread, hparse, hother⟩
  · rintro ⟨declaration, type, hread, hparse, hother⟩
    obtain ⟨result, hresult, heq⟩ :=
      exists_right_of_mem hparsed (mem_declarationsRead_iff.mpr hread)
    rw [hparse] at heq
    cases heq
    exact ⟨type, hresult, hother⟩

/-- The dependencies found for a name are the nominal names that its definition mentions. -/
theorem mem_dependenciesOf_iff (h : container.dependenciesOf nominal name = .ok targets) :
    other ∈ targets ↔ other ∈ nominal ∧ container.Mentions name other := by
  rw [dependenciesOf] at h
  rw [mentions_iff]
  -- a name without a definition has no dependencies and mentions nothing
  split at h
  · next definition hdefined =>
    rw [mem_dependencies_iff h, hdefined]
    simp
  · next habsent =>
    cases h
    rw [habsent]
    simp

/-- The fault in finding dependencies is that of a declaration that is read. -/
theorem exists_readFor_of_error (h : container.dependenciesOf nominal name = .error fault) :
    ∃ declaration, container.ReadFor name declaration ∧
      TypeExpr.parse declaration = .error fault := by
  rw [dependenciesOf] at h
  -- without a definition there is nothing to fail, otherwise some declaration is no type
  split at h
  · next definition hdefined =>
    rcases bind_eq_error_iff.mp h with h | ⟨types, -, h⟩
    · obtain ⟨before, declaration, after, hsplit, -, hfails⟩ := mapM_eq_error_iff.mp h
      have hread : declaration ∈ container.declarationsRead definition := by
        rw [hsplit]
        exact List.mem_append_right _ List.mem_cons_self
      exact ⟨declaration, ⟨definition, hdefined, mem_declarationsRead_iff.mp hread⟩, hfails⟩
    · cases h
  · cases h

/-- Dependencies are found for a name exactly if all that is read for it denotes types. -/
theorem readable_iff_exists_dependenciesOf (nominal : List String) :
    container.Readable name ↔ ∃ targets, container.dependenciesOf nominal name = .ok targets := by
  refine ⟨fun hreadable => ?_, ?_⟩
  · cases hfound : container.dependenciesOf nominal name with
    | ok targets => exact ⟨targets, rfl⟩
    | error fault =>
      obtain ⟨declaration, hread, hfails⟩ := exists_readFor_of_error hfound
      obtain ⟨type, hparse⟩ := hreadable declaration hread
      rw [hfails] at hparse
      cases hparse
  · rintro ⟨targets, h⟩ declaration ⟨definition, hdefined, hread⟩
    rw [dependenciesOf, hdefined] at h
    obtain ⟨types, hparsed, -⟩ := bind_eq_ok_iff.mp h
    obtain ⟨type, -, hparse⟩ :=
      exists_right_of_mem (mapM_eq_ok_iff.mp hparsed) (mem_declarationsRead_iff.mpr hread)
    exact ⟨type, hparse⟩

/-! ### The graph of a list of names -/

/-- The graph has an entry for each name, in order, with the dependencies of the name. -/
def Tabulates (container : Container) (nominal names : List String) (graph : DependencyGraph) :
    Prop :=
  List.Forall₂ (fun name entry =>
    entry.1 = name ∧ container.dependenciesOf nominal name = .ok entry.2) names graph

/-- The graph that is made of a list of names has an entry for each. -/
theorem tabulates_of_dependencyGraph (h : container.dependencyGraph names = .ok graph) :
    container.Tabulates names names graph := by
  refine (mapM_eq_ok_iff.mp h).imp fun name entry hentry => ?_
  obtain ⟨targets, htargets, hentry⟩ := bind_eq_ok_iff.mp hentry
  cases hentry
  exact ⟨rfl, htargets⟩

/-- Looking a name up in the graph gives its dependencies: if there are several entries of the name,
then all say the same. -/
theorem Tabulates.lookup_eq_some_iff (h : container.Tabulates nominal names graph) :
    graph.lookup name = some targets ↔
      name ∈ names ∧ container.dependenciesOf nominal name = .ok targets := by
  induction h with
  | nil => exact ⟨nofun, fun h => absurd h.1 List.not_mem_nil⟩
  | @cons first entry names graph hentry _ ih =>
    obtain ⟨source, found⟩ := entry
    obtain ⟨rfl, hfound⟩ := hentry
    -- the first entry of the name decides; another one of the same name would say the same
    by_cases hsame : name = source
    · subst hsame
      rw [List.lookup_cons_self, hfound]
      exact ⟨fun h => ⟨List.mem_cons_self, congrArg _ (Option.some.inj h)⟩,
        fun h => congrArg _ (Except.ok.inj h.2)⟩
    · have hrest : name ∈ source :: names ↔ name ∈ names :=
        ⟨fun h => (List.mem_cons.mp h).resolve_left hsame, List.mem_cons_of_mem _⟩
      rw [List.lookup_cons, beq_false_of_ne hsame, hrest]
      exact ih

/-- **The edges of the graph are the dependencies.** -/
theorem edge_iff_dependsOn (h : container.dependencyGraph names = .ok graph) :
    graph.Edge name other ↔ container.DependsOn names name other := by
  have hentries := tabulates_of_dependencyGraph h
  -- an edge is an entry of the graph, and an entry is what has been found for its name
  refine ⟨?_, ?_⟩
  · rintro ⟨targets, hlookup, hother⟩
    obtain ⟨hname, hfound⟩ := hentries.lookup_eq_some_iff.mp hlookup
    obtain ⟨hnominal, hmentions⟩ := (mem_dependenciesOf_iff hfound).mp hother
    exact ⟨hname, hnominal, hmentions⟩
  · rintro ⟨hname, hnominal, hmentions⟩
    obtain ⟨⟨source, targets⟩, -, rfl, hfound⟩ := exists_right_of_mem hentries hname
    exact ⟨targets, hentries.lookup_eq_some_iff.mpr ⟨hname, hfound⟩,
      (mem_dependenciesOf_iff hfound).mpr ⟨hnominal, hmentions⟩⟩

/-- **The graph exists unless some name is not readable**, and then the first such name is to
blame. -/
theorem dependencyGraph_eq_error_iff :
    container.dependencyGraph names = .error fault ↔
      ∃ before name after, names = before ++ name :: after ∧
        (∀ early ∈ before, container.Readable early) ∧
        container.dependenciesOf names name = .error fault := by
  -- an entry is made of a name exactly if it is readable
  have hreadable {name : String} :
      (∃ entry, (do return (name, ← container.dependenciesOf names name) :
        Except TypeFault (String × List String)) = .ok entry) ↔ container.Readable name := by
    rw [readable_iff_exists_dependenciesOf names]
    refine ⟨?_, ?_⟩
    · rintro ⟨entry, hentry⟩
      obtain ⟨targets, htargets, -⟩ := bind_eq_ok_iff.mp hentry
      exact ⟨targets, htargets⟩
    · rintro ⟨targets, htargets⟩
      exact ⟨(name, targets), bind_eq_ok_iff.mpr ⟨targets, htargets, rfl⟩⟩
  -- and it fails as the search for the dependencies does
  have hfails {name : String} :
      (do return (name, ← container.dependenciesOf names name) :
        Except TypeFault (String × List String)) = .error fault ↔
      container.dependenciesOf names name = .error fault := by
    rw [bind_eq_error_iff]
    refine ⟨?_, .inl⟩
    rintro (h | ⟨targets, -, h⟩)
    · exact h
    · cases h
  rw [dependencyGraph, mapM_eq_error_iff]
  simp only [hreadable, hfails]

end Container

end WireBindings
