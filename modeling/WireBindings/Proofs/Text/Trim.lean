import Mathlib.Data.List.DropRight
import WireBindings.Text.Blank

/-!
# Blanks at the ends of a text

What `trim` removes is a run of blanks at either end (`exists_eq_append_trim`), and blanks added at
the ends make no difference to it (`trim_append_of_blank`). A text that neither begins nor ends with
a blank is left alone (`trim_eq_self`).
-/

namespace WireBindings.Text

/-- Blanks are removed in front first and then behind. -/
theorem trim_eq_rdropWhile (text : List Char) :
    trim text = (text.dropWhile isBlank).rdropWhile isBlank := rfl

/-- A text is its trimmed form with blanks around it. -/
theorem exists_eq_append_trim (text : List Char) :
    ∃ before after, (∀ c ∈ before, isBlank c) ∧ (∀ c ∈ after, isBlank c) ∧
      text = before ++ trim text ++ after := by
  -- the two blank parts are those that the two removals take away
  refine ⟨text.takeWhile isBlank, (text.dropWhile isBlank).rtakeWhile isBlank,
    fun c hc => List.mem_takeWhile_imp hc, fun c hc => List.mem_rtakeWhile_imp hc, ?_⟩
  rw [trim_eq_rdropWhile, List.append_assoc, List.rdropWhile_append_rtakeWhile,
    List.takeWhile_append_dropWhile]

theorem isInfix_trim (text : List Char) : trim text <:+: text := by
  obtain ⟨before, after, -, -, hsplit⟩ := exists_eq_append_trim text
  exact ⟨before, after, hsplit.symm⟩

/-- Blanks at the end do not matter where blanks are removed at the end. -/
theorem rdropWhile_append_of_blank {text after : List Char} (hafter : ∀ c ∈ after, isBlank c) :
    (text ++ after).rdropWhile isBlank = text.rdropWhile isBlank := by
  have hreverse : ∀ c ∈ after.reverse, isBlank c := fun c hc => hafter c (List.mem_reverse.mp hc)
  rw [List.rdropWhile, List.rdropWhile, List.reverse_append, List.dropWhile_append_of_pos hreverse]

/-- Blanks around a text do not matter. -/
theorem trim_append_of_blank {before text after : List Char} (hbefore : ∀ c ∈ before, isBlank c)
    (hafter : ∀ c ∈ after, isBlank c) : trim (before ++ text ++ after) = trim text := by
  rw [trim_eq_rdropWhile, trim_eq_rdropWhile, List.append_assoc,
    List.dropWhile_append_of_pos hbefore, List.dropWhile_append]
  split
  · -- the whole text is blank, so the blanks behind it are removed from the front
    next hblank =>
    rw [List.isEmpty_iff.mp hblank, List.dropWhile_eq_nil_iff.mpr hafter]
  · exact rdropWhile_append_of_blank hafter

theorem trim_trim (text : List Char) : trim (trim text) = trim text := by
  obtain ⟨before, after, hbefore, hafter, hsplit⟩ := exists_eq_append_trim text
  conv_rhs => rw [hsplit, trim_append_of_blank hbefore hafter]

/-- Nothing is left of a text that is blank throughout, and of no other. -/
theorem trim_eq_nil_iff {text : List Char} : trim text = [] ↔ ∀ c ∈ text, isBlank c := by
  refine ⟨?_, ?_⟩
  · intro h
    -- if nothing is left, the text is what has been removed on both sides
    obtain ⟨before, after, hbefore, hafter, hsplit⟩ := exists_eq_append_trim text
    rw [h, List.append_nil] at hsplit
    rw [hsplit]
    intro c hc
    exact (List.mem_append.mp hc).elim (hbefore c) (hafter c)
  · intro hblank
    rw [trim_eq_rdropWhile, List.dropWhile_eq_nil_iff.mpr hblank, List.rdropWhile_nil]

/-- A text with nothing blank at its ends is trimmed already. -/
theorem trim_eq_self {text : List Char} (hfirst : ∀ c, text.head? = some c → ¬ isBlank c)
    (hlast : ∀ c, text.getLast? = some c → ¬ isBlank c) : trim text = text := by
  -- there is nothing to remove in front, and then nothing behind
  have hfront : text.dropWhile isBlank = text := by
    cases text with
    | nil => rfl
    | cons c rest => exact List.dropWhile_cons_of_neg (hfirst c rfl)
  rw [trim_eq_rdropWhile, hfront, List.rdropWhile_eq_self_iff]
  intro hne
  exact hlast _ (List.getLast?_eq_getLast_of_ne_nil hne)

/-- The two ends of a bracketed text are brackets, so there is nothing to trim. -/
theorem trim_bracketed {opener closer : Char} {inner : List Char} (hopener : ¬ isBlank opener)
    (hcloser : ¬ isBlank closer) :
    trim (opener :: inner ++ [closer]) = opener :: inner ++ [closer] := by
  apply trim_eq_self
  · rintro c hc
    cases hc
    exact hopener
  · intro c hc
    rw [List.getLast?_concat] at hc
    cases hc
    exact hcloser

/-- What is left of a text does not begin with a blank. -/
theorem not_isBlank_of_trim_eq_cons {text rest : List Char} {c : Char} (h : trim text = c :: rest) :
    ¬ isBlank c := by
  intro hblank
  -- otherwise it could be trimmed once more
  have hmore : trim ([c] ++ rest ++ []) = trim rest :=
    trim_append_of_blank (by simpa using hblank) (List.forall_mem_nil _)
  have hsame : trim rest = c :: rest := by
    rw [← hmore, List.append_nil, List.singleton_append, ← h, trim_trim]
  have hlength := length_trim_le rest
  rw [hsame, List.length_cons] at hlength
  omega

/-- In front of a trimmed text there are no blanks to be trimmed, only behind a part of it. -/
theorem exists_eq_trim_append {text base rest : List Char} (h : trim text = base ++ rest) :
    ∃ gap, (∀ c ∈ gap, isBlank c) ∧ base = trim base ++ gap := by
  obtain ⟨before, gap, hbefore, hgap, hbase⟩ := exists_eq_append_trim base
  -- a blank in front of the part would be the first character of a trimmed text
  cases before with
  | nil => exact ⟨gap, hgap, hbase⟩
  | cons c before =>
    rw [hbase] at h
    exact absurd (hbefore c List.mem_cons_self) (not_isBlank_of_trim_eq_cons h)

/-- A text without blanks has none at its ends. -/
theorem trim_eq_self_of_forall {text : List Char} (hnone : ∀ c ∈ text, ¬ isBlank c) :
    trim text = text :=
  trim_eq_self (fun c hc => hnone c (List.mem_of_head? hc))
    (fun c hc => hnone c (List.mem_of_getLast? hc))

end WireBindings.Text
