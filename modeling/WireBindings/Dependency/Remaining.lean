/-!
# What remains of a finite list of names

Both walks over a schema, through the payloads of an enum and through the graph of dependencies,
mark names as they meet them and never enter a marked name again. They end because the number of
names still unmarked, `remaining`, goes down. A name that is entered may leave further names to be
taken, but never more than a bound; so each name counts for more than the bound, and the names to be
taken for one each (`remaining_cons_mul_lt`).
-/

namespace WireBindings

/-- The number of entries of `names` that are not marked. -/
def remaining (names marked : List String) : Nat :=
  names.countP fun name => !marked.contains name

variable {names marked : List String} {name : String} {bound count : Nat}

/-- Marking a name leaves no more. -/
theorem remaining_cons_le : remaining names (name :: marked) ≤ remaining names marked := by
  refine List.countP_mono_left fun other _ hunmarked => ?_
  simp only [List.contains_cons, Bool.not_or, Bool.and_eq_true] at hunmarked
  exact hunmarked.2

/-- Marking a name of the list for the first time leaves fewer. -/
theorem remaining_cons_lt (hlisted : name ∈ names) (hfresh : name ∉ marked) :
    remaining names (name :: marked) < remaining names marked := by
  induction names with
  | nil => cases hlisted
  | cons head tail ih =>
    have htail : remaining tail (name :: marked) ≤ remaining tail marked := remaining_cons_le
    by_cases hsame : head = name
    · -- the head counts before the marking and not after it
      subst hsame
      simpa [remaining, hfresh] using Nat.lt_succ_of_le htail
    · have hsmaller := ih ((List.mem_cons.mp hlisted).resolve_left (Ne.symm hsame))
      simp only [remaining] at hsmaller
      simp only [remaining, List.countP_cons, List.contains_cons, beq_false_of_ne hsame,
        Bool.false_or] at hsmaller ⊢
      omega

/-- If each name counts for the bound, marking any makes it no more. -/
theorem remaining_cons_mul_le :
    remaining names (name :: marked) * bound ≤ remaining names marked * bound :=
  Nat.mul_le_mul_right bound remaining_cons_le

/-- If each name counts for the bound, marking one for the first time makes up for anything below
the bound. -/
theorem remaining_cons_mul_lt (hlisted : name ∈ names) (hfresh : name ∉ marked)
    (hcount : count < bound) :
    remaining names (name :: marked) * bound + count < remaining names marked * bound := by
  calc remaining names (name :: marked) * bound + count
      < remaining names (name :: marked) * bound + bound := Nat.add_lt_add_left hcount _
    _ = (remaining names (name :: marked) + 1) * bound := (Nat.succ_mul _ _).symm
    _ ≤ remaining names marked * bound :=
        Nat.mul_le_mul_right bound (remaining_cons_lt hlisted hfresh)

/-- One of several lists is no longer than all of them together. -/
theorem length_le_length_flatMap {α β : Type} {f : α → List β} {elements : List α} {element : α}
    (hmem : element ∈ elements) : (f element).length ≤ (elements.flatMap f).length := by
  obtain ⟨before, after, rfl⟩ := List.append_of_mem hmem
  rw [List.flatMap_append, List.flatMap_cons, List.length_append, List.length_append]
  omega

end WireBindings
