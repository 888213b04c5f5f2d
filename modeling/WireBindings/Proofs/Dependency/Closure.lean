import Mathlib.Algebra.Order.BigOperators.Group.List
import Mathlib.Algebra.Order.Ring.Nat
import WireBindings.Proofs.Dependency.Graph

/-!
# Looking through payloads

To find the dependencies of an enum, the payloads of its variants are looked through, enums among
them included, and these may carry each other in a circle. The search ends all the same, and it
finds what the definition contributes and nothing else (`dependencies_of_closure`).

`Walk` is the search as a run: it takes one declaration after the other from a list, and what the
run has looked up it does not look up again. A run is finite by its definition, so to have one is to
end. There is a run from every list, it reads what `payloadReads` says, and its length is bounded by
the variants of the schema (`exists_walk`): when a declaration is looked up, it is put in exchange
for the variants of its definition, and these are counted no more (`unseenVariants_cons_add_le`).
-/

namespace WireBindings

/-- The declarations of the fields of a struct; no other definition has any. -/
def Definition.fieldDeclarations : Definition → List String
  | .struct fields => fields.declarations
  | _ => []

namespace Container

variable {container : Container} {seen : List String} {declaration : String}
  {definition : Definition}

/-! ### Runs -/

/-- A run of the walk through payloads. With the declarations `seen` looked up before and `pending`
still to be taken, it reads `reads` and ends after `steps` declarations have been taken. -/
inductive Walk (container : Container) : List String → List String → List String → ℕ → Prop
  | done {seen : List String} : Walk container seen [] [] 0
  /-- What has been looked up before is left out. -/
  | skip {seen pending reads : List String} {declaration : String} {steps : ℕ}
      (hknown : declaration ∈ seen) (hrest : Walk container seen pending reads steps) :
      Walk container seen (declaration :: pending) reads (steps + 1)
  /-- A new declaration is read, and what it carries comes first among what is still to be taken. -/
  | look {seen pending reads : List String} {declaration : String} {steps : ℕ}
      (hfresh : declaration ∉ seen)
      (hrest : Walk container (declaration :: seen) (container.carriedBy declaration ++ pending)
        reads steps) :
      Walk container seen (declaration :: pending) (container.ownReads declaration ++ reads)
        (steps + 1)

/-- The number of variants that carry something, in those of the entries that have not been looked
up. -/
def unseenVariants (seen : List String) (entries : List (String × Definition)) : ℕ :=
  (entries.map fun entry =>
    if entry.1 ∈ seen then 0 else entry.2.carryingVariants.length).sum

/-- Nothing counts more when more has been looked up. -/
theorem unseenVariants_cons_le (entries : List (String × Definition)) :
    unseenVariants (declaration :: seen) entries ≤ unseenVariants seen entries := by
  -- an entry counts as before, or no more
  refine List.sum_le_sum fun entry _ => ?_
  by_cases hseen : entry.1 ∈ seen
  · rw [if_pos hseen, if_pos (List.mem_cons_of_mem _ hseen)]
  · rw [if_neg hseen]
    split <;> omega

/-- Looking a name up uses up the variants of its definition. -/
theorem unseenVariants_cons_add_le (container : Container) (hfresh : declaration ∉ seen) :
    unseenVariants (declaration :: seen) container.definitions.entries +
        (container.carriedBy declaration).length ≤
      unseenVariants seen container.definitions.entries := by
  rw [carriedBy]
  split
  · exact unseenVariants_cons_le _
  · next definition hdefined =>
    obtain ⟨front, back, hsplit⟩ :=
      List.append_of_mem (Definitions.get?_eq_some_iff.mp hdefined)
    have hfront : unseenVariants (declaration :: seen) front ≤ unseenVariants seen front :=
      unseenVariants_cons_le front
    have hback : unseenVariants (declaration :: seen) back ≤ unseenVariants seen back :=
      unseenVariants_cons_le back
    -- of the definition itself the variants are counted before, and not after
    have hsum (names : List String) :
        unseenVariants names container.definitions.entries = unseenVariants names front +
          ((if declaration ∈ names then 0 else definition.carryingVariants.length) +
            unseenVariants names back) := by
      rw [hsplit, unseenVariants, List.map_append, List.sum_append, List.map_cons, List.sum_cons]
      rfl
    rw [hsum, hsum, if_pos List.mem_cons_self, if_neg hfresh, List.length_map]
    omega

/-- **The walk ends** within as many steps as there are declarations pending and variants left. -/
theorem exists_walk (container : Container) (seen pending : List String) :
    ∃ steps ≤ pending.length + unseenVariants seen container.definitions.entries,
      container.Walk seen pending (container.payloadReads seen pending) steps := by
  -- the walk has the cases of the function it is a run of
  induction seen, pending using walk_induction container with
  | done seen =>
    rw [payloadReads]
    exact ⟨0, Nat.zero_le _, .done⟩
  | skip seen declaration pending hseen ih =>
    obtain ⟨steps, hsteps, hwalk⟩ := ih
    rw [payloadReads_cons_of_mem hseen]
    exact ⟨steps + 1, by rw [List.length_cons]; omega, .skip hseen hwalk⟩
  | look seen declaration pending hfresh ih =>
    obtain ⟨steps, hsteps, hwalk⟩ := ih
    have hless := unseenVariants_cons_add_le container hfresh
    rw [payloadReads_cons hfresh]
    refine ⟨steps + 1, ?_, .look hfresh hwalk⟩
    rw [List.length_append] at hsteps
    rw [List.length_cons]
    omega

/-- The walk for a definition starts from what its variants carry. -/
theorem declarationsRead_eq (definition : Definition) :
    container.declarationsRead definition =
      definition.fieldDeclarations ++
        container.payloadReads [] (definition.carryingVariants.map Variant.declaration) := by
  cases definition with
  | enum width variants => rfl
  | struct fields => simp [declarationsRead, Definition.fieldDeclarations,
      Definition.carryingVariants, payloadReads]
  | primitive _ | sequence _ _ _ | tuple _ => simp [declarationsRead,
      Definition.fieldDeclarations, Definition.carryingVariants, payloadReads]

/-! ### What is found -/

/-- Dependencies are found exactly if everything that is contributed denotes types. -/
theorem exists_dependencies_iff (nominal : List String) :
    (∃ targets, container.dependencies nominal definition = .ok targets) ↔
      ∀ declaration, container.Contributes definition declaration →
        ∃ type, TypeExpr.parse declaration = .ok type := by
  -- what is contributed is what is read, and all that is read is parsed
  refine ⟨?_, fun htypes => ?_⟩
  · rintro ⟨targets, h⟩ declaration hread
    obtain ⟨types, hparsed, -⟩ := bind_eq_ok_iff.mp h
    obtain ⟨type, -, hparse⟩ :=
      exists_right_of_mem (mapM_eq_ok_iff.mp hparsed) (mem_declarationsRead_iff.mpr hread)
    exact ⟨type, hparse⟩
  · obtain ⟨types, hparsed⟩ := exists_mapM_eq_ok fun declaration hmem =>
      htypes declaration (mem_declarationsRead_iff.mp hmem)
    exact ⟨_, bind_eq_ok_iff.mpr ⟨types, hparsed, rfl⟩⟩

/-- **Looking through payloads ends, and misses nothing.** The declarations that are read for a
definition are those of its fields and those of a run through its payloads, which takes no more
steps than there are variants to look at. The dependencies are found exactly if everything that the
definition contributes denotes types, and they are then the nominal names that it refers to. -/
theorem dependencies_of_closure (container : Container) (nominal : List String)
    (definition : Definition) :
    (∃ reads steps,
      container.Walk [] (definition.carryingVariants.map Variant.declaration) reads steps ∧
      steps ≤ definition.carryingVariants.length + unseenVariants [] container.definitions.entries ∧
      container.declarationsRead definition = definition.fieldDeclarations ++ reads) ∧
    ((∃ targets, container.dependencies nominal definition = .ok targets) ↔
      ∀ declaration, container.Contributes definition declaration →
        ∃ type, TypeExpr.parse declaration = .ok type) ∧
    ∀ targets, container.dependencies nominal definition = .ok targets →
      ∀ other, other ∈ targets ↔ other ∈ nominal ∧
        ∃ declaration type, container.Contributes definition declaration ∧
          TypeExpr.parse declaration = .ok type ∧ other ∈ type.references := by
  refine ⟨?_, exists_dependencies_iff nominal, fun targets h other => mem_dependencies_iff h⟩
  obtain ⟨steps, hsteps, hwalk⟩ :=
    container.exists_walk [] (definition.carryingVariants.map Variant.declaration)
  rw [List.length_map] at hsteps
  exact ⟨_, steps, hwalk, hsteps, declarationsRead_eq definition⟩

/-- The cases of a shape, of which one is a group of shapes. -/
def shapeVariants : List Variant :=
  [⟨0, "Dot", "()"⟩, ⟨1, "Group", "Group"⟩, ⟨2, "Tagged", "Tag"⟩]

/-- Shapes and groups carry each other. A group can carry a type without a definition besides. -/
def shapes : Container :=
  ofDeclaration "Shape"
    |>.insert "Shape" (.enum 1 shapeVariants)
    |>.insert "Group" (.enum 1 [⟨0, "Single", "Shape"⟩, ⟨1, "Named", "(Name, Shape)"⟩])
    |>.insert "Tag" (.struct (.unnamed ["Vec<Label>"]))

/-- The circle is left where it closes, and what lies beside it is found: labels by way of the
shapes in a group, names in the group itself. -/
theorem dependencies_shapes :
    shapes.dependencies ["Name", "Label", "Tag"] (.enum 1 shapeVariants) = .ok ["Label", "Name"] ∧
      shapes.RefersTo (.enum 1 shapeVariants) "Label" ∧
      shapes.RefersTo (.enum 1 shapeVariants) "Name" ∧
      ¬ shapes.RefersTo (.enum 1 shapeVariants) "Tag" := by
  have h : shapes.dependencies ["Name", "Label", "Tag"] (.enum 1 shapeVariants) =
      .ok ["Label", "Name"] := by decide +kernel
  have hfound (other : String) := (dependencies_of_closure shapes ["Name", "Label", "Tag"]
    (.enum 1 shapeVariants)).2.2 ["Label", "Name"] h other
  exact ⟨h, ((hfound "Label").mp (by simp)).2, ((hfound "Name").mp (by simp)).2,
    fun htag => absurd ((hfound "Tag").mpr ⟨by simp, htag⟩) (by decide)⟩

end Container

end WireBindings
