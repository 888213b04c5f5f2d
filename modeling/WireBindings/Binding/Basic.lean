import WireBindings.TypeExpr.Basic

/-!
# Bindings

A `Binding` is the declaration that a nominal definition gets in the generated module, before it is
written out. All declarations have been read by then, so nothing can fail any more: what is left is
printing.

A variant without anything to carry has the payload `unit`, by whichever of the several ways of
saying so the schema chose.
-/

namespace WireBindings

/-- A field with the type it has. -/
structure TypedField where
  /-- The name of the field. -/
  name : String
  /-- The type of the field. -/
  type : TypeExpr

/-- What a case of an enum carries. -/
inductive Payload where
  /-- A value of a type. -/
  | value (type : TypeExpr)
  /-- Fields of its own, written inside the enum. -/
  | struct (fields : List TypedField)

/-- A case of an enum. -/
structure Case where
  /-- The name of the case. -/
  name : String
  /-- What the case carries. -/
  payload : Payload

/-- The two forms of a declaration. -/
inductive BindingForm where
  /-- A struct with these fields. -/
  | struct (fields : List TypedField)
  /-- An enum with these cases. -/
  | enum (cases : List Case)

/-- The declaration of a nominal type. -/
structure Binding where
  /-- The name of the type. -/
  name : String
  /-- What the type is. -/
  form : BindingForm

/-! ### The types written inside a binding -/

/-- The types that a case is written with. -/
def Payload.types : Payload → List TypeExpr
  | value type => [type]
  | struct fields => fields.map TypedField.type

/-- The types that a declaration is written with, in order. -/
def BindingForm.types : BindingForm → List TypeExpr
  | struct fields => fields.map TypedField.type
  | enum cases => cases.flatMap fun case => case.payload.types

/-- The names of the declarations that a binding mentions, each as often as it does. -/
def Binding.references (binding : Binding) : List String :=
  binding.form.types.flatMap TypeExpr.references

end WireBindings
