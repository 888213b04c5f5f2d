import Mathlib.Data.List.TakeWhile
import WireBindings.Proofs.TypeExpr.Nesting

/-!
# The outermost forms

Each form that `outline` reports determines the text it is the form of: the lemmas `eq_of_outline_*`
put the brackets back around what the outline hands over. Conversely a text built in one of these
ways has that form, provided that what stands inside round or square brackets is balanced
(`outline_tuple`, `outline_array`), or that no bracket stands before the first `<`
(`outline_generic`).
-/

namespace WireBindings

variable {opener closer : Char} {text body base inner : List Char}

/-! ### Enclosed texts -/

/-- What is enclosed lies between the two brackets. -/
theorem eq_of_enclosed? (h : enclosed? opener closer text = some body) :
    text = opener :: body ++ [closer] := by
  unfold enclosed? at h
  -- the test asks for the first and the last character by name
  split at h
  · cases h
  · next c rest =>
    split at h
    · next hends =>
      obtain ⟨rfl, hlast, -⟩ := hends
      cases h
      rw [List.cons_append, List.dropLast_append_getLast? closer hlast]
    · cases h

/-- Brackets around a balanced text enclose it. -/
theorem BracketPair.enclosed?_eq (hpair : BracketPair opener closer) (h : Balanced body) :
    enclosed? opener closer (opener :: body ++ [closer]) = some body := by
  -- the level that the opener opens is the one that is left at the end
  have hcloses : closesAtEnd 1 (body ++ [closer]) := by
    rw [closesAtEnd_append h, closesAtEnd, if_neg hpair.distinct, if_pos hpair.closes]
    rfl
  rw [List.cons_append, enclosed?, if_pos ⟨rfl, List.getLast?_concat, hcloses⟩,
    List.dropLast_concat]

/-- A text that begins with something else is not enclosed. -/
theorem enclosed?_eq_none (h : text.head? ≠ some opener) : enclosed? opener closer text = none := by
  cases text with
  | nil => rfl
  | cons c rest => exact if_neg fun hends => h (congrArg some hends.1)

/-! ### What a form says about the text -/

/-- The unit is written in one way. -/
theorem eq_of_outline_unit (h : outline text = .unit) : text = ['(', ')'] := by
  -- here and below, a single branch of the outline reports the form
  unfold outline at h
  repeat' split at h
  all_goals first
    | contradiction
    | assumption

/-- A tuple is what it encloses between round brackets. -/
theorem eq_of_outline_tuple (h : outline text = .tuple body) : text = '(' :: body ++ [')'] := by
  unfold outline at h
  repeat' split at h
  all_goals first
    | contradiction
    | (cases h; exact eq_of_enclosed? ‹_›)

/-- An array is what it encloses between square brackets. -/
theorem eq_of_outline_array (h : outline text = .array body) : text = '[' :: body ++ [']'] := by
  unfold outline at h
  repeat' split at h
  all_goals first
    | contradiction
    | (cases h; exact eq_of_enclosed? ‹_›)

/-- A generic is its base, and what stands inside between angle brackets. -/
theorem eq_of_outline_generic (h : outline text = .generic base inner) :
    text = base ++ '<' :: inner ++ ['>'] := by
  unfold outline at h
  repeat' split at h
  all_goals try contradiction
  rename_i c rest hrest hlast
  cases h
  -- the first character that is not passed over is the `<`
  have hopener : c = '<' := by
    have hstop := List.head?_dropWhile_not (· != '<') text
    simpa [hrest] using hstop
  subst hopener
  have hsplit : text = text.takeWhile (· != '<') ++ '<' :: rest := by
    rw [← hrest, List.takeWhile_append_dropWhile]
  -- and the `>` at the end is another character than this one
  have hend : rest.getLast? = some '>' := by
    rw [hsplit, List.getLast?_append, List.getLast?_cons] at hlast
    cases hl : rest.getLast? with
    | none => rw [hl] at hlast; cases hlast
    | some last => rw [hl] at hlast; exact hlast
  calc text = text.takeWhile (· != '<') ++ '<' :: rest := hsplit
    _ = text.takeWhile (· != '<') ++ '<' :: (rest.dropLast ++ ['>']) := by
        rw [List.dropLast_append_getLast? '>' hend]
    _ = text.takeWhile (· != '<') ++ '<' :: rest.dropLast ++ ['>'] := by
        rw [List.append_assoc, List.cons_append]

/-! ### The form of a text -/

/-- **Round brackets around a balanced text make a tuple**, if there is something between them. -/
theorem outline_tuple (h : Balanced body) (hne : body ≠ []) :
    outline ('(' :: body ++ [')']) = .tuple body := by
  -- the unit would have nothing between its brackets
  have hunit : '(' :: body ++ [')'] ≠ ['(', ')'] := by
    intro heq
    exact hne (by simpa using heq)
  rw [outline, if_neg (by simp), if_neg hunit, bracketPair_round.enclosed?_eq h]

/-- **Square brackets around a balanced text make an array.** -/
theorem outline_array (h : Balanced body) : outline ('[' :: body ++ [']']) = .array body := by
  rw [outline, if_neg (by simp), if_neg (by simp),
    enclosed?_eq_none (by simp), bracketPair_square.enclosed?_eq h]

/-- **Angle brackets behind a text without brackets make a generic**, whatever stands between them.
-/
theorem outline_generic (hbase : ∀ c ∈ base, Plain c) :
    outline (base ++ '<' :: inner ++ ['>']) = .generic base inner := by
  have hopener : ∀ c ∈ base, (c != '<') = true := by
    rintro c hc
    rw [bne_iff_ne]
    rintro rfl
    exact (hbase _ hc).1 rfl
  have hhead : ∀ c, (base ++ '<' :: inner ++ ['>']).head? = some c → c = '<' ∨ c ∈ base := by
    intro c hc
    cases base with
    | nil =>
      cases hc
      exact .inl rfl
    | cons first rest =>
      cases hc
      exact .inr List.mem_cons_self
  -- the outline asks for the other forms first, and the first character rules them out
  have hround : (base ++ '<' :: inner ++ ['>']).head? ≠ some '(' := fun hc =>
    (hhead _ hc).elim (by decide) fun hmem => (hbase _ hmem).1 rfl
  have hsquare : (base ++ '<' :: inner ++ ['>']).head? ≠ some '[' := fun hc =>
    (hhead _ hc).elim (by decide) fun hmem => (hbase _ hmem).1 rfl
  have hunit : base ++ '<' :: inner ++ ['>'] ≠ ['(', ')'] := by
    intro heq
    rw [heq] at hround
    exact hround rfl
  -- the base has no bracket, so the first `<` is the one behind it
  have hdrop : (base ++ '<' :: inner ++ ['>']).dropWhile (· != '<') = '<' :: (inner ++ ['>']) := by
    rw [List.append_assoc, List.dropWhile_append_of_pos hopener]
    rfl
  have htake : (base ++ '<' :: inner ++ ['>']).takeWhile (· != '<') = base := by
    rw [List.append_assoc, List.takeWhile_append_of_pos hopener]
    simp
  rw [outline, if_neg (by simp), if_neg hunit, enclosed?_eq_none hround, enclosed?_eq_none hsquare]
  simp only [hdrop, htake, List.getLast?_concat, if_true, List.dropLast_concat]

/-- A text without brackets can only be a word. -/
theorem outline_word (hne : text ≠ []) (h : ∀ c ∈ text, Plain c) : outline text = .word := by
  -- no form but the word does without brackets
  have hhead : ∀ c, isOpener c → text.head? ≠ some c := fun c hc heq =>
    (h c (List.mem_of_head? heq)).1 hc
  have hunit : text ≠ ['(', ')'] := by
    rintro rfl
    exact hhead '(' rfl rfl
  have hdrop : text.dropWhile (· != '<') = [] := by
    rw [List.dropWhile_eq_nil_iff]
    intro c hc
    rw [bne_iff_ne]
    rintro rfl
    exact (h _ hc).1 rfl
  rw [outline, if_neg hne, if_neg hunit, enclosed?_eq_none (hhead '(' rfl),
    enclosed?_eq_none (hhead '[' rfl)]
  simp only [hdrop]

end WireBindings
