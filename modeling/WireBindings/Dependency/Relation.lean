import WireBindings.Schema.Container
import WireBindings.TypeExpr.Parse

/-!
# Dependency as a relation

Which names a name depends on, said without an order of search. `Contributes` is the least relation
under which a struct contributes the declarations of its fields and an enum contributes, for each
variant that carries something, what the definition of the carried type contributes, or the
declaration itself if there is no such definition. Enums that carry each other in a circle are no
difficulty: the circle by itself contributes nothing.

On top of it, a name *mentions* the references in the declarations that its definition contributes,
and within a list of nominal names it *depends on* those of them that it mentions.
-/

namespace WireBindings

namespace Container

/-- Reading the definition includes reading the declaration. -/
inductive Contributes (container : Container) : Definition → String → Prop
  | field {fields : Fields} {declaration : String} (hmem : declaration ∈ fields.declarations) :
      Contributes container (.struct fields) declaration
  | undefined {tagWidth : UInt8} {variants : List Variant} {variant : Variant}
      (hmem : variant ∈ variants) (hcarries : ¬ variant.isUnit)
      (habsent : container.get? variant.declaration = none) :
      Contributes container (.enum tagWidth variants) variant.declaration
  | payload {tagWidth : UInt8} {variants : List Variant} {variant : Variant} {carried : Definition}
      {declaration : String} (hmem : variant ∈ variants) (hcarries : ¬ variant.isUnit)
      (hdefined : container.get? variant.declaration = some carried)
      (hinside : Contributes container carried declaration) :
      Contributes container (.enum tagWidth variants) declaration

/-- The declaration is among those that the definition of the name contributes. -/
def ReadFor (container : Container) (name declaration : String) : Prop :=
  ∃ definition, container.get? name = some definition ∧ container.Contributes definition declaration

/-- All declarations that the definition of the name contributes denote types. -/
def Readable (container : Container) (name : String) : Prop :=
  ∀ declaration, container.ReadFor name declaration →
    ∃ type, TypeExpr.parse declaration = .ok type

/-- The definition of the first name refers to the second. -/
def Mentions (container : Container) (name other : String) : Prop :=
  ∃ declaration type, container.ReadFor name declaration ∧
    TypeExpr.parse declaration = .ok type ∧ other ∈ type.references

/-- Both names are nominal, and the definition of the first refers to the second. -/
def DependsOn (container : Container) (nominal : List String) (name other : String) : Prop :=
  name ∈ nominal ∧ other ∈ nominal ∧ container.Mentions name other

variable {container : Container} {declaration : String}

/-- A struct contributes its fields and nothing else. -/
@[simp] theorem contributes_struct_iff {fields : Fields} :
    container.Contributes (.struct fields) declaration ↔ declaration ∈ fields.declarations := by
  refine ⟨?_, .field⟩
  rintro ⟨hmem⟩
  exact hmem

/-- An enum contributes what its variants do, each by itself. -/
theorem contributes_enum_iff {tagWidth : UInt8} {variants : List Variant} :
    container.Contributes (.enum tagWidth variants) declaration ↔
      ∃ variant ∈ variants, ¬ variant.isUnit ∧
        match container.get? variant.declaration with
        | none => declaration = variant.declaration
        | some carried => container.Contributes carried declaration := by
  refine ⟨fun h => ?_, ?_⟩
  · cases h with
    | undefined hmem hcarries habsent => exact ⟨_, hmem, hcarries, by rw [habsent]⟩
    | payload hmem hcarries hdefined hinside =>
      exact ⟨_, hmem, hcarries, by rw [hdefined]; exact hinside⟩
  · rintro ⟨variant, hmem, hcarries, hinside⟩
    split at hinside
    · next habsent =>
      subst hinside
      exact .undefined hmem hcarries habsent
    · next carried hdefined => exact .payload hmem hcarries hdefined hinside

/-- Only structs and enums contribute anything. -/
theorem Contributes.kind_eq {definition : Definition}
    (h : container.Contributes definition declaration) :
    definition.kind = .struct ∨ definition.kind = .enum := by
  cases h with
  | field => exact .inl rfl
  | undefined => exact .inr rfl
  | payload => exact .inr rfl

end Container

end WireBindings
