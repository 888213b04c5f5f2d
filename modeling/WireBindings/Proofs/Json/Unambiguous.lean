import WireBindings.Json.Basic
import WireBindings.Proofs.Text.Numerals
import WireBindings.Proofs.Text.Quoted

/-!
# Printed JSON reads back

The text of a JSON value determines the value (`unambiguous_pretty`). The first character tells the
form: a quotation mark, a square bracket and a brace begin texts, lists and objects, and nothing
else begins with any of them (`opening?_eq_of_pretty`). Behind it, texts are quoted and numbers end
where their digits do; and the items of a list or the members of an object stand on lines of their
own between brackets, so that they are told apart by the same argument, one level further in.
-/

namespace WireBindings.Json

open Text (Unambiguous Anything EndsLine EndsNumeral Separates enclosed listed indentation quote)

variable {value other : Json} {depth : ℕ} {rest rest' : List Char}

/-- What lists and objects have as soon as everything in them has it, all values have. -/
@[elab_as_elim] theorem induction {motive : Json → Prop} (number : ∀ value, motive (.number value))
    (text : ∀ value, motive (.text value))
    (list : ∀ items, (∀ item ∈ items, motive item) → motive (.list items))
    (object : ∀ members, (∀ member ∈ members, motive member.2) → motive (.object members)) :
    ∀ value, motive value
  | .number value => number value
  | .text value => text value
  | .list items => list items fun item _ => induction number text list object item
  | .object members =>
    object members fun member _ => induction number text list object member.2
termination_by value => sizeOf value
decreasing_by
  · rename_i hitem
    calc sizeOf item < sizeOf items := List.sizeOf_lt_of_mem hitem
      _ < sizeOf (Json.list items) := by simp
  · rename_i hmember
    calc sizeOf member.2 < sizeOf member := by
          obtain ⟨name, value⟩ := member
          show sizeOf value < 1 + sizeOf name + sizeOf value
          omega
      _ < sizeOf members := List.sizeOf_lt_of_mem hmember
      _ < sizeOf (Json.object members) := by simp

/-! ### Lines -/

/-- The line of an item. -/
def printItem (depth : ℕ) (item : Json) : String := indentation depth ++ pretty depth item

/-- The line of a member. -/
def printMember (depth : ℕ) (member : String × Json) : String :=
  indentation depth ++ quote member.1 ++ ": " ++ pretty depth member.2

/-- Items are printed with a comma and a line feed between any two. -/
theorem prettyItems_eq_listed (depth : ℕ) (items : List Json) :
    prettyItems depth items = listed ",\n" (printItem depth) items :=
  Text.eq_listed rfl (fun _ => rfl) (fun _ _ _ => rfl) items

theorem prettyMembers_eq_listed (depth : ℕ) (members : List (String × Json)) :
    prettyMembers depth members = listed ",\n" (printMember depth) members :=
  Text.eq_listed rfl (fun _ => rfl) (fun _ _ _ => rfl) members

/-- A list is its items on lines of their own. -/
theorem pretty_list (depth : ℕ) (items : List Json) :
    pretty depth (.list items) =
      enclosed "[" "]" (indentation depth ++ "]") (printItem (depth + 1)) items := by
  cases items with
  | nil => simp [pretty, enclosed]
  | cons item items => simp [pretty, enclosed, prettyItems_eq_listed, String.append_assoc]

/-- An object is its members on lines of their own. -/
theorem pretty_object (depth : ℕ) (members : List (String × Json)) :
    pretty depth (.object members) =
      enclosed "\x7b" "\x7d" (indentation depth ++ "\x7d") (printMember (depth + 1)) members := by
  cases members with
  | nil => simp [pretty, enclosed]
  | cons member members => simp [pretty, enclosed, prettyMembers_eq_listed, String.append_assoc]

/-! ### The first character -/

/-- The character that all values of the same form begin with; numbers have none in common. -/
def opening? : Json → Option Char
  | number _ => none
  | text _ => some '"'
  | list _ => some '['
  | object _ => some '\x7b'

/-- A value begins as its form does, and a number with what belongs to a numeral. -/
theorem pretty_begins (value : Json) (depth : ℕ) :
    ∃ c body, (pretty depth value).toList = c :: body ∧
      value.opening? = if Text.isNumeralChar c then none else some c := by
  -- three of the forms begin with a character of their own, a number with a digit or a sign
  cases value with
  | number value =>
    obtain ⟨c, digits, hdigits⟩ := Text.exists_toString_eq_cons value
    have hc : Text.isNumeralChar c :=
      Text.isNumeralChar_toString value c (hdigits ▸ List.mem_cons_self)
    exact ⟨c, digits, by rw [pretty, hdigits], by rw [if_pos hc, opening?]⟩
  | text value => exact ⟨'"', _, by rw [pretty, quote, String.toList_ofList]; rfl, rfl⟩
  | list items =>
    obtain ⟨body, hbody⟩ := Text.toList_enclosed_eq "[" "]" (indentation depth ++ "]")
      (printItem (depth + 1)) items
    exact ⟨'[', body, by rw [pretty_list, hbody]; rfl, rfl⟩
  | object members =>
    obtain ⟨body, hbody⟩ := Text.toList_enclosed_eq "\x7b" "\x7d" (indentation depth ++ "\x7d")
      (printMember (depth + 1)) members
    exact ⟨'\x7b', body, by rw [pretty_object, hbody]; rfl, rfl⟩

/-- **Texts that begin alike are those of values of the same form.** -/
theorem opening?_eq_of_pretty
    (htext : (pretty depth value).toList ++ rest = (pretty depth other).toList ++ rest') :
    value.opening? = other.opening? := by
  -- the first character is the same, and it tells the form
  obtain ⟨c, body, hbody, hc⟩ := pretty_begins value depth
  obtain ⟨c', body', hbody', hc'⟩ := pretty_begins other depth
  rw [hbody, hbody'] at htext
  obtain ⟨rfl, -⟩ := List.cons.inj htext
  rw [hc, hc']

/-! ### Values -/

/-- Neither a comma nor a line feed belongs to a numeral. -/
theorem separates_commaLine : Separates ",\n" EndsNumeral EndsLine :=
  Text.separates_lines (Text.endsNumeral_cons (by decide)) (Text.endsNumeral_cons (by decide))

/-- The line of an item tells the item if its text does, since the indentation is the same. -/
theorem unambiguous_printItem {item : Json}
    (h : Unambiguous (pretty depth) (fun _ => True) EndsNumeral item) :
    Unambiguous (printItem depth) (fun _ => True) EndsNumeral item := by
  intro other hother rest rest' hrest hrest' htext
  simp only [printItem, String.toList_append, List.append_assoc] at htext
  exact h other hother rest rest' hrest hrest' (List.append_cancel_left htext)

/-- The line of a member tells the name, which is quoted, and the value if its text does. -/
theorem unambiguous_printMember {member : String × Json}
    (h : Unambiguous (pretty depth) (fun _ => True) EndsNumeral member.2) :
    Unambiguous (printMember depth) (fun _ => True) EndsNumeral member := by
  intro other _ rest rest' hrest hrest' htext
  simp only [printMember, String.toList_append, List.append_assoc] at htext
  have hquoted := List.append_cancel_left htext
  -- the name ends with its quotation mark, and the value stands behind a colon
  have hname : member.1 = other.1 :=
    Text.unambiguous_quote member.1 other.1 trivial _ _ trivial trivial hquoted
  rw [hname] at hquoted
  have hvalue : member.2 = other.2 :=
    h other.2 trivial rest rest' hrest hrest'
      (List.append_cancel_left (List.append_cancel_left hquoted))
  exact Prod.ext hname hvalue

/-- **A value is told from any other by its text**, up to where its digits end if it is a number.
The induction is over the first value; at each step the texts agree in the form. -/
theorem unambiguous_pretty (value : Json) :
    ∀ depth, Unambiguous (pretty depth) (fun _ => True) EndsNumeral value := by
  induction value using induction with
  | number value =>
    intro depth other _ rest rest' hrest hrest' htext
    have hform := opening?_eq_of_pretty htext
    cases other with
    | number value' =>
      simp only [pretty] at htext
      rw [Text.unambiguous_toString value value' trivial rest rest' hrest hrest' htext]
    | _ => cases hform
  | text value =>
    intro depth other _ rest rest' _ _ htext
    have hform := opening?_eq_of_pretty htext
    cases other with
    | text value' =>
      simp only [pretty] at htext
      rw [Text.unambiguous_quote value value' trivial rest rest' trivial trivial htext]
    | _ => cases hform
  | list items ih =>
    intro depth other _ rest rest' _ _ htext
    -- from here on the other value has the form of the first, or there is nothing to show
    have hform := opening?_eq_of_pretty htext
    cases other with
    | list items' =>
      rw [pretty_list, pretty_list] at htext
      -- the items are printed one level further in, where they are told apart
      have hlines : Unambiguous
          (enclosed "[" "]" (indentation depth ++ "]") (printItem (depth + 1)))
          (fun others => ∀ other ∈ others, True) Anything items :=
        separates_commaLine.unambiguous_enclosed (Text.not_endsLine_cons (by decide))
          fun item hitem => unambiguous_printItem (ih item hitem (depth + 1))
      rw [hlines items' (fun _ _ => trivial) rest rest' trivial trivial htext]
    | _ => cases hform
  | object members ih =>
    intro depth other _ rest rest' _ _ htext
    have hform := opening?_eq_of_pretty htext
    cases other with
    | object members' =>
      rw [pretty_object, pretty_object] at htext
      have hlines : Unambiguous
          (enclosed "\x7b" "\x7d" (indentation depth ++ "\x7d") (printMember (depth + 1)))
          (fun others => ∀ other ∈ others, True) Anything members :=
        separates_commaLine.unambiguous_enclosed (Text.not_endsLine_cons (by decide))
          fun member hmember => unambiguous_printMember (ih member hmember (depth + 1))
      rw [hlines members' (fun _ _ => trivial) rest rest' trivial trivial htext]
    | _ => cases hform

/-- The text of a value determines the value. -/
theorem pretty_injective (depth : ℕ) : Function.Injective (pretty depth) := by
  intro value other h
  -- nothing follows either text
  refine unambiguous_pretty value depth other trivial [] [] nofun nofun ?_
  rw [h]

end WireBindings.Json
