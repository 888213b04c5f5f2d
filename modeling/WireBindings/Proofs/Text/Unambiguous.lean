import Mathlib.Data.List.Basic

/-!
# Texts that can be told apart

A printer is *unambiguous* at a value when no other value has a text that begins alike. The end of a
text is rarely marked by the text itself: a word ends where no further letter comes, and the last of
several items where no separator comes. So each statement is relative to what may follow, the rests
that *stop* what is printed (`Unambiguous`). Two printed texts in front of such rests are equal only
if the values are, and then the rests are equal as well (`Unambiguous.rest_eq`).

Items with a separator between any two are unambiguous if each item is, in front of a separator and
in front of the end, and if the end does not begin with a separator
(`Separates.unambiguous_listed`). Modules and dumps write such items one to a line between brackets,
and close the brackets at once if there are none (`Separates.unambiguous_enclosed`).
-/

namespace WireBindings.Text

variable {α : Type} {print : α → String} {valid : α → Prop} {stops ends : List Char → Prop}
  {separator : String} {value first second : α} {values : List α} {rest rest' : List Char}

/-- The text printed for the value, in front of a rest that stops it, does not agree with that of
another valid value. -/
def Unambiguous (print : α → String) (valid : α → Prop) (stops : List Char → Prop) (value : α) :
    Prop :=
  ∀ other, valid other → ∀ rest rest', stops rest → stops rest' →
    (print value).toList ++ rest = (print other).toList ++ rest' → value = other

/-- Where the texts agree, so does what follows them. -/
theorem Unambiguous.rest_eq {other : α} (h : Unambiguous print valid stops value)
    (hother : valid other) (hrest : stops rest) (hrest' : stops rest')
    (htext : (print value).toList ++ rest = (print other).toList ++ rest') : rest = rest' := by
  obtain rfl := h other hother rest rest' hrest hrest' htext
  exact List.append_cancel_left htext

/-! ### Runs of characters -/

/-- A run ends with the first character that is not of its class. -/
theorem takeWhile_run {p : Char → Bool} {run : List Char} (hrun : ∀ c ∈ run, p c)
    (hrest : ∀ c ∈ rest.head?, ¬ p c) : (run ++ rest).takeWhile p = run := by
  rw [List.takeWhile_append_of_pos hrun]
  cases rest with
  | nil => exact List.append_nil run
  | cons c rest => rw [List.takeWhile_cons_of_neg (hrest c rfl), List.append_nil]

/-- Runs of characters of a class are equal if both end where the class does. -/
theorem eq_of_runs {p : Char → Bool} {run run' : List Char} (hrun : ∀ c ∈ run, p c)
    (hrun' : ∀ c ∈ run', p c) (hrest : ∀ c ∈ rest.head?, ¬ p c) (hrest' : ∀ c ∈ rest'.head?, ¬ p c)
    (h : run ++ rest = run' ++ rest') : run = run' := by
  rw [← takeWhile_run hrun hrest, h, takeWhile_run hrun' hrest']

/-! ### Items between separators -/

/-- The texts of the values with a separator between any two. -/
def listed (separator : String) (print : α → String) (values : List α) : String :=
  separator.intercalate (values.map print)

theorem toList_listed_singleton :
    (listed separator print [first]).toList = (print first).toList := by
  rw [listed, List.map_singleton, String.intercalate_singleton]

/-- Of several values the first one has a separator behind it. -/
theorem toList_listed_cons_cons :
    (listed separator print (first :: second :: values)).toList =
      (print first).toList ++
        (separator.toList ++ (listed separator print (second :: values)).toList) := by
  simp only [listed, List.map_cons, String.intercalate_cons_cons, String.toList_append,
    List.append_assoc]

/-- What prints one value, and a value in front of a separator and the others, prints a list. -/
theorem eq_listed {printAll : List α → String} (hnil : printAll [] = "")
    (hsingle : ∀ value, printAll [value] = print value)
    (hmore : ∀ first second values, printAll (first :: second :: values) =
      print first ++ separator ++ printAll (second :: values)) (values : List α) :
    printAll values = listed separator print values := by
  -- the three equations are those of `listed`, with none, one and more values
  induction values with
  | nil => exact hnil
  | cons first values ih =>
    cases values with
    | nil => rw [hsingle, listed, List.map_singleton, String.intercalate_singleton]
    | cons second values =>
      rw [hmore, ih, listed, listed, List.map_cons, List.map_cons, List.map_cons,
        String.intercalate_cons_cons]

/-- Both the separator and the end stop an item, and the end does not begin with a separator. -/
structure Separates (separator : String) (stops ends : List Char → Prop) : Prop where
  stops_separator : ∀ rest, stops (separator.toList ++ rest)
  stops_end : ∀ rest, ends rest → stops rest
  distinct : ∀ rest more, ends rest → rest ≠ separator.toList ++ more

/-- **Items that are unambiguous make an unambiguous list**, if there are any. -/
theorem Separates.unambiguous_listed (h : Separates separator stops ends) (hne : values ≠ [])
    (hvalues : ∀ value ∈ values, Unambiguous print valid stops value) :
    Unambiguous (listed separator print) (fun others => others ≠ [] ∧ ∀ other ∈ others, valid other)
      ends values := by
  rintro others ⟨hothers, hvalid⟩ rest rest' hrest hrest' htext
  -- the induction is on the values of the one list, the other one is any valid list
  induction values generalizing others with
  | nil => exact absurd rfl hne
  | cons first values ih =>
    obtain ⟨other, others, rfl⟩ := List.exists_cons_of_ne_nil hothers
    obtain ⟨hother, hvalid⟩ := List.forall_mem_cons.mp hvalid
    obtain ⟨hfirst, hvalues⟩ := List.forall_mem_cons.mp hvalues
    -- the first items agree, and what follows them says whether there are more
    cases values with
    | nil =>
      cases others with
      | nil =>
        rw [toList_listed_singleton, toList_listed_singleton] at htext
        rw [hfirst other hother rest rest' (h.stops_end _ hrest) (h.stops_end _ hrest') htext]
      -- here the one list ends where the other one has a separator
      | cons next others =>
        rw [toList_listed_singleton, toList_listed_cons_cons, List.append_assoc,
          List.append_assoc] at htext
        exact absurd (hfirst.rest_eq hother (h.stops_end _ hrest) (h.stops_separator _) htext)
          (h.distinct _ _ hrest)
    | cons second values =>
      cases others with
      | nil =>
        rw [toList_listed_singleton, toList_listed_cons_cons, List.append_assoc,
          List.append_assoc] at htext
        exact absurd (hfirst.rest_eq hother (h.stops_separator _) (h.stops_end _ hrest') htext).symm
          (h.distinct _ _ hrest')
      | cons next others =>
        simp only [toList_listed_cons_cons, List.append_assoc] at htext
        -- both go on, and what is left behind the separators is a list again
        have hmore := hfirst.rest_eq hother (h.stops_separator _) (h.stops_separator _) htext
        rw [hfirst other hother _ _ (h.stops_separator _) (h.stops_separator _) htext,
          ih (List.cons_ne_nil _ _) hvalues (next :: others) (List.cons_ne_nil _ _) hvalid
            (List.append_cancel_left hmore)]

/-! ### Items on lines of their own -/

/-- Anything may follow. -/
def Anything (_ : List Char) : Prop := True

/-- A line feed stands at the beginning of the rest. -/
def EndsLine (rest : List Char) : Prop := ∃ more, rest = '\n' :: more

/-- Only a line feed ends a line. -/
theorem not_endsLine_cons {c : Char} (h : c ≠ '\n') (rest : List Char) :
    ¬ EndsLine (c :: rest) := by
  rintro ⟨more, heq⟩
  exact h (List.head_eq_of_cons_eq heq)

/-- Commas at the ends of lines separate what a comma stops, and a line feed. -/
theorem separates_lines (hcomma : ∀ rest, stops (',' :: rest))
    (hline : ∀ rest, stops ('\n' :: rest)) : Separates ",\n" stops EndsLine where
  stops_separator rest := hcomma ('\n' :: rest)
  stops_end := by
    rintro _ ⟨more, rfl⟩
    exact hline more
  distinct := by
    rintro _ more ⟨rest, rfl⟩
    simp

/-- The texts of the values, one to a line, between an opening and a closing text. Without values
the opening text is followed by `empty` at once. -/
def enclosed (opening empty closing : String) (print : α → String) (values : List α) : String :=
  if values.isEmpty then opening ++ empty
  else opening ++ "\n" ++ listed ",\n" print values ++ "\n" ++ closing

/-- Without values there are two texts and the rest. -/
theorem toList_enclosed_nil {opening empty closing : String} :
    (enclosed opening empty closing print []).toList ++ rest =
      opening.toList ++ (empty.toList ++ rest) := by
  simp [enclosed]

/-- With values there are line feeds around them. -/
theorem toList_enclosed_cons {opening empty closing : String} :
    (enclosed opening empty closing print (first :: values)).toList ++ rest =
      opening.toList ++ ('\n' :: ((listed ",\n" print (first :: values)).toList ++
        ('\n' :: (closing.toList ++ rest)))) := by
  simp [enclosed]

/-- In any case the opening text comes first. -/
theorem toList_enclosed_eq (opening empty closing : String) (print : α → String)
    (values : List α) :
    ∃ body, (enclosed opening empty closing print values).toList = opening.toList ++ body := by
  unfold enclosed
  split
  · exact ⟨empty.toList, String.toList_append⟩
  · exact ⟨_, by rw [String.append_assoc, String.append_assoc, String.append_assoc,
      String.toList_append]⟩

/-- **Items on lines of their own are told apart if each of them is**, whatever follows. -/
theorem Separates.unambiguous_enclosed (h : Separates ",\n" stops EndsLine)
    {opening empty closing : String} (hempty : ∀ rest, ¬ EndsLine (empty.toList ++ rest))
    (hvalues : ∀ value ∈ values, Unambiguous print valid stops value) :
    Unambiguous (enclosed opening empty closing print)
      (fun others => ∀ other ∈ others, valid other) Anything values := by
  intro others hothers rest rest' _ _ htext
  -- what follows the opening says whether there are any items
  cases values with
  | nil =>
    cases others with
    | nil => rfl
    | cons other others =>
      rw [toList_enclosed_nil, toList_enclosed_cons] at htext
      exact absurd ⟨_, List.append_cancel_left htext⟩ (hempty rest)
  | cons value values =>
    cases others with
    | nil =>
      rw [toList_enclosed_nil, toList_enclosed_cons] at htext
      exact absurd ⟨_, (List.append_cancel_left htext).symm⟩ (hempty rest')
    | cons other others =>
      rw [toList_enclosed_cons, toList_enclosed_cons] at htext
      have hitems := List.tail_eq_of_cons_eq (List.append_cancel_left htext)
      exact h.unambiguous_listed (List.cons_ne_nil _ _) hvalues _ ⟨List.cons_ne_nil _ _, hothers⟩
        _ _ ⟨_, rfl⟩ ⟨_, rfl⟩ hitems

end WireBindings.Text
