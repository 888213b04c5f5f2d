import WireBindings.Dependency.Remaining
import WireBindings.Schema.Container
import WireBindings.TypeExpr.Parse

/-!
# What a definition refers to

The declaration of a nominal type mentions other nominal types, and these are its *dependencies*. To
find them, certain declarations of the schema are read (`Container.declarationsRead`):

* for a struct, those of its fields;
* for an enum, what its variants carry is looked up. A struct contributes its fields, a further enum
  is looked through in the same way, any other definition contributes nothing. If there is no
  definition, the declaration itself is read, since it then denotes the type carried;
* for all other definitions, none.

Enums may carry each other in a circle, so what has been looked up once is not looked up again for
the same definition. The dependencies are the nominal names mentioned in what was read, in order of
first mention.
-/

namespace WireBindings

namespace Container

/-- The number of variants that carry something, in all enums together. -/
def carryingCount (container : Container) : Nat :=
  (container.definitions.entries.flatMap fun entry => entry.2.carryingVariants).length

/-- No definition has more of these variants than all together. -/
theorem length_carryingVariants_le {container : Container} {name : String}
    {definition : Definition} (hdefined : container.get? name = some definition) :
    definition.carryingVariants.length ≤ container.carryingCount := by
  have hentry : (name, definition) ∈ container.definitions.entries :=
    Definitions.get?_eq_some_iff.mp hdefined
  unfold carryingCount
  exact length_le_length_flatMap (f := fun entry => entry.2.carryingVariants) hentry

/-- The declarations read for variants that carry `pending`, when `seen` has been looked up before.
The variants of an enum that is looked through come before what was pending already. -/
def payloadReads (container : Container) (seen : List String) : List String → List String
  | [] => []
  | declaration :: pending =>
    if declaration ∈ seen then payloadReads container seen pending
    else
      match _ : container.get? declaration with
      -- no definition: the declaration is a type of its own
      | none => declaration :: payloadReads container (declaration :: seen) pending
      | some (.struct fields) =>
        fields.declarations ++ payloadReads container (declaration :: seen) pending
      -- an enum inside an enum: its variants take its place
      | some (.enum width variants) =>
        payloadReads container (declaration :: seen)
          ((Definition.enum width variants).carryingVariants.map Variant.declaration ++ pending)
      | some _ => payloadReads container (declaration :: seen) pending
-- a name that is looked up for the first time may leave all variants of an enum to be taken
termination_by pending =>
  remaining container.definitions.names seen * (container.carryingCount + 1) + pending.length
decreasing_by
  · exact Nat.lt_succ_self _
  all_goals
    have hfewer : remaining container.definitions.names (declaration :: seen) *
        (container.carryingCount + 1) ≤
          remaining container.definitions.names seen * (container.carryingCount + 1) :=
      remaining_cons_mul_le
    simp only [List.length_cons]
  · omega
  · omega
  · -- the pending declarations may become more, but a defined name has been used up
    have hcount : (Definition.enum width variants).carryingVariants.length <
        container.carryingCount + 1 := Nat.lt_add_one_of_le (length_carryingVariants_le ‹_›)
    have hlisted : declaration ∈ container.definitions.names :=
      List.mem_map.mpr ⟨_, Definitions.get?_eq_some_iff.mp ‹_›, rfl⟩
    have hless := remaining_cons_mul_lt hlisted (by assumption) hcount
    simp only [List.length_append, List.length_map]
    omega
  · omega

/-- The declarations that are read to find the dependencies of a definition, in order. -/
def declarationsRead (container : Container) : Definition → List String
  | .struct fields => fields.declarations
  | .enum width variants =>
    container.payloadReads []
      ((Definition.enum width variants).carryingVariants.map Variant.declaration)
  | .primitive _ | .sequence _ _ _ | .tuple _ => []

/-- The names from `nominal` that the definition refers to, each once, in order of first mention. -/
def dependencies (container : Container) (nominal : List String) (definition : Definition) :
    Except TypeFault (List String) := do
  let types ← (container.declarationsRead definition).mapM TypeExpr.parse
  return ((types.flatMap TypeExpr.references).filter nominal.contains).eraseDups

/-- The dependencies of the definition of a name; an undefined name has none. -/
def dependenciesOf (container : Container) (nominal : List String) (name : String) :
    Except TypeFault (List String) :=
  match container.get? name with
  | some definition => container.dependencies nominal definition
  | none => .ok []

end Container

end WireBindings
