import WireBindings.Text.Blank
import WireBindings.Text.Pieces
import WireBindings.TypeExpr.Fault

/-!
# The outermost form of a declaration

A declaration is read from the outside in. `outline` tells which form a trimmed text has at its
outermost level and hands over the text inside its brackets; `splitTop` cuts that text at the
delimiters that stand inside no further bracket.

Brackets are counted, not matched: `(`, `<` and `[` each open a level, and any of `)`, `>` and `]`
closes one. Whether the kinds of brackets agree is settled on the way down, since each piece has to
be a type on its own.

The depth is a natural number of any size. A counter with 32 bits and a sign agrees with it as long
as fewer than 2^31 levels are open, and no more are open than brackets have been read
(`depthAfter_le`).
-/

namespace WireBindings

open Text (consFirst trim)

/-- Whether a character opens a level of nesting. -/
def isOpener (c : Char) : Bool := c == '(' || c == '<' || c == '['

/-- Whether a character closes a level of nesting. -/
def isCloser (c : Char) : Bool := c == ')' || c == '>' || c == ']'

/-! ### Enclosed texts -/

/-- Whether the level `depth` that is open before the text is closed by its very last character and
not earlier. The depth has no bound, unlike that of a counter with 32 bits. -/
def closesAtEnd : Nat → List Char → Bool
  | _, [] => false
  | depth, c :: rest =>
    if isOpener c then closesAtEnd (depth + 1) rest
    else if isCloser c then
      -- the level in question is the last one open: nothing may follow this bracket
      if depth = 1 then rest.isEmpty else closesAtEnd (depth - 1) rest
    else closesAtEnd depth rest

/-- The text between `opener` and `closer` if these are the first and the last character and the
bracket opened by the first is closed by the last: `(a, b)` is enclosed, `(a), (b)` is not. -/
def enclosed? (opener closer : Char) : List Char → Option (List Char)
  | [] => none
  | c :: rest =>
    if c = opener ∧ rest.getLast? = some closer ∧ closesAtEnd 1 rest then some rest.dropLast
    else none

/-- What is enclosed is shorter than the whole. -/
theorem length_lt_of_enclosed? {opener closer : Char} {text body : List Char}
    (henclosed : enclosed? opener closer text = some body) : body.length < text.length := by
  unfold enclosed? at henclosed
  split at henclosed
  · contradiction
  · split at henclosed
    · cases henclosed
      simp only [List.length_dropLast, List.length_cons]
      omega
    · contradiction

/-! ### Pieces between delimiters -/

/-- The pieces of a text between the delimiters outside all brackets, where `depth` brackets are
open before the text. There is always one piece more than there are such delimiters. Here too the
depth has no bound. -/
def pieces (delimiter : Char) : Nat → List Char → Except Malformation (List (List Char))
  | depth, [] => if depth = 0 then .ok [[]] else .error .unclosedBrackets
  | depth, c :: rest =>
    if isOpener c then consFirst c <$> pieces delimiter (depth + 1) rest
    else if isCloser c then
      -- a bracket that closes nothing is noticed before whatever is wrong further on
      if depth = 0 then .error (.strayCloser c)
      else consFirst c <$> pieces delimiter (depth - 1) rest
    else if c = delimiter ∧ depth = 0 then ([] :: ·) <$> pieces delimiter 0 rest
    else consFirst c <$> pieces delimiter depth rest

/-- The pieces of a text between top-level delimiters, without the blanks around them. Empty pieces
are kept: whether one is allowed depends on the form around it. -/
def splitTop (delimiter : Char) (text : List Char) : Except Malformation (List (List Char)) :=
  List.map trim <$> pieces delimiter 0 text

/-- The number of characters of several texts together, with a delimiter behind each. -/
def totalLength : List (List Char) → Nat
  | [] => 0
  | text :: rest => text.length + 1 + totalLength rest

@[simp] theorem totalLength_nil : totalLength [] = 0 := rfl

@[simp] theorem totalLength_cons (text : List Char) (rest : List (List Char)) :
    totalLength (text :: rest) = text.length + 1 + totalLength rest := rfl

/-- A character more in the first piece is a character more in all. -/
theorem totalLength_consFirst (c : Char) {parts : List (List Char)} (hsome : parts ≠ []) :
    totalLength (consFirst c parts) = totalLength parts + 1 := by
  cases parts with
  | nil => exact absurd rfl hsome
  | cons piece rest => simp only [consFirst, totalLength_cons, List.length_cons]; omega

/-- Trimmed texts are no longer. -/
theorem totalLength_map_trim_le (parts : List (List Char)) :
    totalLength (parts.map trim) ≤ totalLength parts := by
  induction parts with
  | nil => exact Nat.le_refl _
  | cons piece rest ih =>
    have hshorter := Text.length_trim_le piece
    simp only [List.map_cons, totalLength_cons]
    omega

/-- No character is lost: each stands in a piece or is the delimiter behind one, and the last piece
has none. -/
theorem totalLength_pieces {delimiter : Char} {depth : Nat} {text : List Char}
    {parts : List (List Char)} (hcut : pieces delimiter depth text = .ok parts) :
    totalLength parts = text.length + 1 := by
  -- one character after the other is moved from the text into a piece or in between two
  induction text generalizing depth parts with
  | nil =>
    unfold pieces at hcut
    split at hcut
    · cases hcut; rfl
    · cases hcut
  | cons c rest ih =>
    -- every branch that succeeds cuts the rest first; all but one add `c` to the first piece
    have hadded {d : Nat} (htail : consFirst c <$> pieces delimiter d rest = .ok parts) :
        totalLength parts = (c :: rest).length + 1 := by
      match hrest : pieces delimiter d rest with
      | .error _ => rw [hrest] at htail; cases htail
      | .ok restParts =>
        rw [hrest] at htail
        cases htail
        have hlength := ih hrest
        have hsome : restParts ≠ [] := by
          rintro rfl
          rw [totalLength_nil] at hlength
          omega
        rw [totalLength_consFirst c hsome, hlength, List.length_cons]
    unfold pieces at hcut
    split at hcut
    · exact hadded hcut
    · split at hcut
      · split at hcut
        · cases hcut
        · exact hadded hcut
      · split at hcut
        · match hrest : pieces delimiter 0 rest with
          | .error _ => rw [hrest] at hcut; cases hcut
          | .ok restParts =>
            rw [hrest] at hcut
            cases hcut
            have hlength := ih hrest
            simp only [totalLength_cons, List.length_nil, List.length_cons]
            omega
        · exact hadded hcut

/-- The pieces and the delimiters between them are no longer than the text. -/
theorem totalLength_splitTop_le {delimiter : Char} {text : List Char} {parts : List (List Char)}
    (hcut : splitTop delimiter text = .ok parts) : totalLength parts ≤ text.length + 1 := by
  unfold splitTop at hcut
  match hraw : pieces delimiter 0 text with
  | .error _ => rw [hraw] at hcut; cases hcut
  | .ok raw =>
    rw [hraw] at hcut
    cases hcut
    exact Nat.le_trans (totalLength_map_trim_le raw) (Nat.le_of_eq (totalLength_pieces hraw))

/-- The pieces of a tuple: a single empty piece after the last comma is no element, which is how a
tuple of one element is spelled. -/
def dropTrailingEmpty (parts : List (List Char)) : List (List Char) :=
  if 1 < parts.length ∧ parts.getLast? = some [] then parts.dropLast else parts

/-- Without the last piece there is less. -/
theorem totalLength_dropLast_le (parts : List (List Char)) :
    totalLength parts.dropLast ≤ totalLength parts := by
  -- the last piece is dropped where the list ends, and the others stay as they are
  induction parts with
  | nil => exact Nat.le_refl _
  | cons piece rest ih =>
    cases rest with
    | nil => exact Nat.zero_le _
    | cons next rest =>
      rw [List.dropLast_cons_cons, totalLength_cons, totalLength_cons]
      exact Nat.add_le_add_left ih _

/-- The elements of a tuple are no longer than the pieces of its text. -/
theorem totalLength_dropTrailingEmpty_le (parts : List (List Char)) :
    totalLength (dropTrailingEmpty parts) ≤ totalLength parts := by
  unfold dropTrailingEmpty
  split
  · exact totalLength_dropLast_le parts
  · exact Nat.le_refl _

/-! ### The outline -/

/-- The outermost form of a text, with the texts inside it. -/
inductive Outline where
  /-- There is nothing. -/
  | blank
  /-- The text is `()`. -/
  | unit
  /-- Round brackets around `body`. -/
  | tuple (body : List Char)
  /-- Square brackets around `body`. -/
  | array (body : List Char)
  /-- The text `base`, and `arguments` between the first `<` and a final `>`. -/
  | generic (base arguments : List Char)
  /-- There is a `<`, but no `>` at the end. -/
  | unclosed
  /-- None of these: the text can only be a name. -/
  | word
deriving DecidableEq, Repr

/-- The outermost form of a trimmed text. -/
def outline (text : List Char) : Outline :=
  if text = [] then .blank
  -- only these two characters are the unit type; with a blank between them it is a tuple
  else if text = ['(', ')'] then .unit
  else
    match enclosed? '(' ')' text with
    | some body => .tuple body
    | none =>
      match enclosed? '[' ']' text with
      | some body => .array body
      | none =>
        -- generics are told by the first `<`, wherever it stands
        match text.dropWhile (· != '<') with
        | [] => .word
        | _ :: afterOpener =>
          if text.getLast? = some '>' then
            .generic (text.takeWhile (· != '<')) afterOpener.dropLast
          else .unclosed

/-- The body of a tuple is shorter than the text. -/
theorem length_lt_of_outline_eq_tuple {text body : List Char} (hform : outline text = .tuple body) :
    body.length < text.length := by
  unfold outline at hform
  repeat' split at hform
  all_goals first
    | contradiction
    | (cases hform; exact length_lt_of_enclosed? (by assumption))

/-- The body of an array is shorter than the text. -/
theorem length_lt_of_outline_eq_array {text body : List Char} (hform : outline text = .array body) :
    body.length < text.length := by
  unfold outline at hform
  repeat' split at hform
  all_goals first
    | contradiction
    | (cases hform; exact length_lt_of_enclosed? (by assumption))

/-- The arguments of a generic are shorter than the text. -/
theorem length_lt_of_outline_eq_generic {text base arguments : List Char}
    (hform : outline text = .generic base arguments) : arguments.length < text.length := by
  unfold outline at hform
  repeat' split at hform
  all_goals try contradiction
  rename_i opener afterOpener hfound _
  cases hform
  have hshorter := Text.length_dropWhile_le (· != '<') text
  rw [hfound] at hshorter
  simp only [List.length_cons, List.length_dropLast] at *
  omega

end WireBindings
