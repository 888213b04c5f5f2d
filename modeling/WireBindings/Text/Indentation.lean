/-!
# Indentation

Both texts the library writes, modules and dumps, are indented by two blanks for each level of
nesting.
-/

namespace WireBindings.Text

/-- The blanks in front of a line at some level of nesting. -/
def indentation (depth : Nat) : String := String.ofList (List.replicate (2 * depth) ' ')

end WireBindings.Text
