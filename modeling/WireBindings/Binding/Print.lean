import WireBindings.Binding.Basic
import WireBindings.Text.Indentation

/-!
# The text of a module

The generated module opens with a fixed import line. Each binding follows as a block of its own: a
constant that holds the schema, and a type alias inferred from it. A blank line stands between
blocks, and the text ends in a line feed.

Fields and cases stand one to a line, indented by two blanks for each level of nesting.
-/

namespace WireBindings

open Text (indentation)

/-- Choices about the generated text. -/
structure Options where
  /-- Whether the constants and type aliases are exported. -/
  exports : Bool := true
deriving DecidableEq, Repr

/-- The first line of every module. -/
def preamble : String := "import \x7b b \x7d from \"@zorsh/zorsh\";"

/-- A field as a line, at some level of nesting. -/
def TypedField.print (depth : Nat) (field : TypedField) : String :=
  indentation depth ++ field.name ++ ": " ++ field.type.render

/-- A struct whose own lines begin at level `depth`. -/
def printStruct (depth : Nat) (fields : List TypedField) : String :=
  if fields.isEmpty then "b.struct(\x7b\x7d)"
  else
    "b.struct(\x7b\n" ++ ",\n".intercalate (fields.map (TypedField.print (depth + 1))) ++ "\n"
      ++ indentation depth ++ "\x7d)"

/-- What a case carries. -/
def Payload.print : Payload → String
  | value type => type.render
  | struct fields => printStruct 1 fields

/-- A case as a line. -/
def Case.print (case : Case) : String :=
  indentation 1 ++ case.name ++ ": " ++ case.payload.print

/-- An enum. -/
def printEnum (cases : List Case) : String :=
  if cases.isEmpty then "b.enum(\x7b\x7d)"
  else "b.enum(\x7b\n" ++ ",\n".intercalate (cases.map Case.print) ++ "\n\x7d)"

/-- The expression that a constant is bound to. -/
def BindingForm.print : BindingForm → String
  | struct fields => printStruct 0 fields
  | enum cases => printEnum cases

/-- The keyword in front of both lines of a block, if there is one. -/
def Options.keyword (options : Options) : String := if options.exports then "export " else ""

/-- The block of a binding: the constant, then the type alias. -/
def Binding.print (options : Options) (binding : Binding) : String :=
  options.keyword ++ "const " ++ constantName binding.name ++ " = " ++ binding.form.print ++ ";\n"
    ++ options.keyword ++ "type " ++ binding.name ++ " = b.infer<typeof "
    ++ constantName binding.name ++ ">;"

/-- The text of the module that declares the bindings, in their order. -/
def printModule (options : Options) (bindings : List Binding) : String :=
  "\n\n".intercalate (preamble :: bindings.map (Binding.print options)) ++ "\n"

end WireBindings
