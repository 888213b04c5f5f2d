/-!
# Cutting texts

A text is cut from its end: what has been cut so far is a list of pieces, and a further character is
put in front of the first of them.
-/

namespace WireBindings.Text

/-- Puts a character in front of the first piece. -/
def consFirst (c : Char) : List (List Char) → List (List Char)
  | [] => [[c]]
  | piece :: rest => (c :: piece) :: rest

/-- The pieces of a text between the characters that equal `delimiter`; there is always one more
than there are of these. -/
def splitAt (delimiter : Char) : List Char → List (List Char)
  | [] => [[]]
  | c :: rest =>
    if c = delimiter then [] :: splitAt delimiter rest else consFirst c (splitAt delimiter rest)

end WireBindings.Text
