import WireBindings.Text.Indentation
import WireBindings.Text.Quoted

/-!
# JSON

The part of JSON that a dump needs: whole numbers, text, lists, and objects whose members keep the
order they are given in. `Json.pretty` writes a value over several lines, with each item and each
member on a line of its own; an empty list or object stays on one line.
-/

namespace WireBindings

/-- A JSON value. -/
inductive Json where
  /-- A whole number. -/
  | number (value : Int)
  /-- A text. -/
  | text (value : String)
  /-- A list. -/
  | list (items : List Json)
  /-- An object; its members are written in this order. -/
  | object (members : List (String × Json))

namespace Json

open Text (indentation quote)

mutual

/-- The text of a value whose first line begins at level `depth`. -/
def pretty (depth : Nat) : Json → String
  | number value => toString value
  | text value => quote value
  | list [] => "[]"
  | list (item :: rest) =>
    "[\n" ++ prettyItems (depth + 1) (item :: rest) ++ "\n" ++ indentation depth ++ "]"
  | object [] => "\x7b\x7d"
  | object (member :: rest) =>
    "\x7b\n" ++ prettyMembers (depth + 1) (member :: rest) ++ "\n" ++ indentation depth ++ "\x7d"

/-- The lines of the items of a list. -/
def prettyItems (depth : Nat) : List Json → String
  | [] => ""
  | [item] => indentation depth ++ pretty depth item
  | item :: next :: rest =>
    indentation depth ++ pretty depth item ++ ",\n" ++ prettyItems depth (next :: rest)

/-- The lines of the members of an object. -/
def prettyMembers (depth : Nat) : List (String × Json) → String
  | [] => ""
  | [(name, value)] => indentation depth ++ quote name ++ ": " ++ pretty depth value
  | (name, value) :: next :: rest =>
    indentation depth ++ quote name ++ ": " ++ pretty depth value ++ ",\n"
      ++ prettyMembers depth (next :: rest)

end

end Json

end WireBindings
