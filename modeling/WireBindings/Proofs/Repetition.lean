import Mathlib.Data.List.Induction
import Mathlib.Data.List.Nodup

/-!
# Leaving out repetitions

`List.eraseDups` keeps each element where it first occurs. All that is said of it here follows from
what it does with one more element at the end (`eraseDups_concat`): the element is kept exactly if
it is new. So nothing is left twice (`nodup_eraseDups`), to leave out repetitions commutes with
leaving out elements of a kind (`filter_eraseDups`), and it is what adding elements one after the
other comes to, each unless it is there already (`foldl_addNew`).
-/

namespace WireBindings

variable {α : Type} [DecidableEq α] {elements : List α} {element : α}

/-- **One more element at the end** is kept if it is new. -/
theorem eraseDups_concat :
    (elements ++ [element]).eraseDups =
      if element ∈ elements then elements.eraseDups else elements.eraseDups ++ [element] := by
  rw [List.eraseDups_append, List.removeAll, List.filter_singleton, List.elem_eq_mem]
  -- the element stays behind the others, less what occurs among these already
  split_ifs with hmem
  · simp [hmem]
  · simp [hmem, List.eraseDups_cons]

/-- Nothing is left twice. -/
theorem nodup_eraseDups (elements : List α) : elements.eraseDups.Nodup := by
  -- from the end, since an element is kept or not by what stands before it
  induction elements using List.reverseRecOn with
  | nil => exact List.nodup_nil
  | append_singleton elements element ih =>
    rw [eraseDups_concat]
    split_ifs with hmem
    · exact ih
    · have hfresh : element ∉ elements.eraseDups := fun h => hmem (List.mem_eraseDups.mp h)
      rw [← List.concat_eq_append]
      exact ih.concat hfresh

/-- A list without repetitions stays as it is. -/
theorem eraseDups_of_nodup (h : elements.Nodup) : elements.eraseDups = elements := by
  induction elements using List.reverseRecOn with
  | nil => rfl
  | append_singleton elements element ih =>
    obtain ⟨hinit, -, hdisjoint⟩ := List.nodup_append.mp h
    have hfresh : element ∉ elements := fun hmem =>
      hdisjoint element hmem element (List.mem_singleton_self _) rfl
    rw [eraseDups_concat, if_neg hfresh, ih hinit]

/-- Elements can be left out before repetitions or after them. -/
theorem filter_eraseDups (p : α → Bool) (elements : List α) :
    elements.eraseDups.filter p = (elements.filter p).eraseDups := by
  induction elements using List.reverseRecOn with
  | nil => rfl
  | append_singleton elements element ih =>
    rw [eraseDups_concat, List.filter_append]
    by_cases hp : p element
    · -- the element is kept, and it is new after the filter exactly if it was new before
      have hnew : element ∈ elements.filter p ↔ element ∈ elements :=
        ⟨fun h => (List.mem_filter.mp h).1, fun h => List.mem_filter.mpr ⟨h, hp⟩⟩
      have hkept : [element].filter p = [element] := List.filter_cons_of_pos hp
      rw [hkept, eraseDups_concat]
      simp only [hnew]
      split_ifs with hmem
      · exact ih
      · rw [List.filter_append, ih, hkept]
    · have hnone : [element].filter p = [] := List.filter_cons_of_neg hp
      rw [hnone, List.append_nil]
      split_ifs with hmem
      · exact ih
      · rw [List.filter_append, ih, hnone, List.append_nil]

/-- Adds an element at the end unless it is there already. -/
def addNew (found : List α) (element : α) : List α :=
  if element ∈ found then found else found ++ [element]

/-- **To add elements one after the other, each if it is new, is to leave out repetitions.** -/
theorem foldl_addNew (elements : List α) : elements.foldl addNew [] = elements.eraseDups := by
  -- what has been added before the last element has no repetitions by the hypothesis, and the same
  -- elements
  induction elements using List.reverseRecOn with
  | nil => rfl
  | append_singleton elements element ih =>
    rw [List.foldl_concat, ih, addNew, eraseDups_concat]
    simp only [List.mem_eraseDups]

end WireBindings
