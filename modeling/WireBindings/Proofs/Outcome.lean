import Mathlib.Data.List.Perm.Basic

/-!
# Outcomes of computations that may fail

Everything that reads a schema either succeeds or fails with the first fault that it meets. The
lemmas here say when a composite of such computations succeeds, and with what: a sequence of two
(`bind_eq_ok_iff`), a change of the result (`map_eq_ok_iff`) or of the fault
(`mapError_eq_ok_iff`), and one computation for each element of a list (`mapM_eq_ok_iff`). A list
fails by its first element that does (`mapM_eq_error_iff`), and if there is none it has results
(`exists_mapM_eq_ok`). The order of the list is the order of the results (`perm_of_mapM`), and lists
with the same outcomes one by one have the same outcome (`mapM_eq_of_forall₂`).
-/

namespace WireBindings

variable {ε ε' α β γ : Type}

/-- **Two computations in a row** succeed if the second does with what the first has found. -/
theorem bind_eq_ok_iff {first : Except ε α} {next : α → Except ε β} {result : β} :
    first >>= next = .ok result ↔ ∃ value, first = .ok value ∧ next value = .ok result := by
  cases first with
  | error fault => simp [bind, Except.bind]
  | ok value => simp [bind, Except.bind]

/-- They fail by the first, or by the second if the first has found something. -/
theorem bind_eq_error_iff {first : Except ε α} {next : α → Except ε β} {fault : ε} :
    first >>= next = .error fault ↔
      first = .error fault ∨ ∃ value, first = .ok value ∧ next value = .error fault := by
  cases first with
  | error early => simp [bind, Except.bind]
  | ok value => simp [bind, Except.bind]

theorem map_eq_ok_iff {outcome : Except ε α} {f : α → β} {result : β} :
    f <$> outcome = .ok result ↔ ∃ value, outcome = .ok value ∧ f value = result := by
  cases outcome <;> simp [Functor.map, Except.map]

theorem mapError_eq_ok_iff {outcome : Except ε α} {f : ε → ε'} {result : α} :
    outcome.mapError f = .ok result ↔ outcome = .ok result := by
  cases outcome <;> simp [Except.mapError]

theorem mapError_eq_error_iff {outcome : Except ε α} {f : ε → ε'} {fault : ε'} :
    outcome.mapError f = .error fault ↔ ∃ why, outcome = .error why ∧ f why = fault := by
  cases outcome <;> simp [Except.mapError]

theorem map_eq_error_iff {outcome : Except ε α} {f : α → β} {fault : ε} :
    f <$> outcome = .error fault ↔ outcome = .error fault := by
  cases outcome <;> simp [Functor.map, Except.map]

/-- Each input of corresponding lists has a result. -/
theorem exists_right_of_mem {R : α → β → Prop} {inputs : List α} {results : List β} {input : α}
    (h : List.Forall₂ R inputs results) (hmem : input ∈ inputs) :
    ∃ result ∈ results, R input result := by
  induction h with
  | nil => cases hmem
  | cons hfirst _ ih =>
    rcases List.mem_cons.mp hmem with rfl | hmem
    · exact ⟨_, List.mem_cons_self, hfirst⟩
    · obtain ⟨result, hresult, hrel⟩ := ih hmem
      exact ⟨result, List.mem_cons_of_mem _ hresult, hrel⟩

/-- Each result of corresponding lists comes from an input. -/
theorem exists_left_of_mem {R : α → β → Prop} {inputs : List α} {results : List β} {result : β}
    (h : List.Forall₂ R inputs results) (hmem : result ∈ results) :
    ∃ input ∈ inputs, R input result :=
  exists_right_of_mem h.flip hmem

/-- A list of computations succeeds when each of them does. -/
theorem mapM_eq_ok_iff {f : α → Except ε β} {inputs : List α} {results : List β} :
    inputs.mapM f = .ok results ↔
      List.Forall₂ (fun input result => f input = .ok result) inputs results := by
  induction inputs generalizing results with
  | nil => simp [pure, Except.pure, eq_comm]
  | cons input rest ih =>
    -- a list is one computation and then the others, and it succeeds if both of these do
    rw [List.mapM_cons]
    refine ⟨?_, ?_⟩
    · intro h
      obtain ⟨value, hvalue, h⟩ := bind_eq_ok_iff.mp h
      obtain ⟨values, hvalues, h⟩ := bind_eq_ok_iff.mp h
      cases h
      exact .cons hvalue (ih.mp hvalues)
    · rintro (_ | ⟨hvalue, hvalues⟩)
      exact bind_eq_ok_iff.mpr ⟨_, hvalue, bind_eq_ok_iff.mpr ⟨_, ih.mpr hvalues, rfl⟩⟩

/-- Of the elements that do not have a property, one is the first. -/
theorem exists_first_of_not_forall {P : α → Prop} {elements : List α}
    (h : ¬ ∀ element ∈ elements, P element) :
    ∃ before element after, elements = before ++ element :: after ∧
      (∀ early ∈ before, P early) ∧ ¬ P element := by
  induction elements with
  | nil => exact absurd (List.forall_mem_nil _) h
  | cons head tail ih =>
    -- if the head has the property, the first element without it is that of the tail
    by_cases hhead : P head
    · have htail : ¬ ∀ element ∈ tail, P element := fun hall =>
        h (List.forall_mem_cons.mpr ⟨hhead, hall⟩)
      obtain ⟨before, element, after, rfl, hbefore, helement⟩ := ih htail
      exact ⟨head :: before, element, after, rfl, List.forall_mem_cons.mpr ⟨hhead, hbefore⟩,
        helement⟩
    · exact ⟨[], head, tail, rfl, List.forall_mem_nil _, hhead⟩

/-- A list of computations fails by the first of them that does. -/
theorem mapM_eq_error_iff {f : α → Except ε β} {inputs : List α} {fault : ε} :
    inputs.mapM f = .error fault ↔
      ∃ before input after, inputs = before ++ input :: after ∧
        (∀ early ∈ before, ∃ result, f early = .ok result) ∧ f input = .error fault := by
  induction inputs with
  | nil => simp [pure, Except.pure]
  | cons head rest ih =>
    -- either the head fails and nothing stands before it, or it succeeds and the tail fails
    rw [List.mapM_cons]
    refine ⟨?_, ?_⟩
    · intro h
      rcases bind_eq_error_iff.mp h with h | ⟨value, hvalue, h⟩
      · exact ⟨[], head, rest, rfl, by simp, h⟩
      · rcases bind_eq_error_iff.mp h with h | ⟨values, -, h⟩
        · obtain ⟨before, input, after, rfl, hbefore, hinput⟩ := ih.mp h
          refine ⟨head :: before, input, after, rfl, ?_, hinput⟩
          intro early hearly
          rcases List.mem_cons.mp hearly with rfl | hearly
          · exact ⟨value, hvalue⟩
          · exact hbefore early hearly
        · cases h
    · rintro ⟨before, input, after, hsplit, hbefore, hinput⟩
      -- if nothing stands before the failing element it is the head, otherwise the head succeeds
      cases before with
      | nil =>
        obtain ⟨rfl, rfl⟩ := List.cons.inj hsplit
        rw [hinput]
        rfl
      | cons early before =>
        obtain ⟨rfl, rfl⟩ := List.cons.inj hsplit
        obtain ⟨value, hvalue⟩ := hbefore head List.mem_cons_self
        have hrest := ih.mpr ⟨before, input, after, rfl,
          fun other hother => hbefore other (List.mem_cons_of_mem _ hother), hinput⟩
        exact bind_eq_error_iff.mpr
          (.inr ⟨value, hvalue, bind_eq_error_iff.mpr (.inl hrest)⟩)

/-- If none of the computations fails, then there are results. -/
theorem exists_mapM_eq_ok {f : α → Except ε β} {inputs : List α}
    (h : ∀ input ∈ inputs, ∃ result, f input = .ok result) :
    ∃ results, inputs.mapM f = .ok results := by
  -- a fault would be that of some element, and none of them has any
  cases hresults : inputs.mapM f with
  | ok results => exact ⟨results, rfl⟩
  | error fault =>
    obtain ⟨before, input, after, rfl, -, hfails⟩ := mapM_eq_error_iff.mp hresults
    obtain ⟨result, hresult⟩ := h input (List.mem_append_right _ List.mem_cons_self)
    rw [hresult] at hfails
    cases hfails

/-- Two lists of computations that come to the same one by one come to the same as a whole. -/
theorem mapM_eq_of_forall₂ {f : α → Except ε γ} {g : β → Except ε γ} {inputs : List α}
    {inputs' : List β} (h : List.Forall₂ (fun input input' => f input = g input') inputs inputs') :
    inputs.mapM f = inputs'.mapM g := by
  induction h with
  | nil => rfl
  | cons hfirst _ ih => rw [List.mapM_cons, List.mapM_cons, hfirst, ih]

/-- Inputs in another order have the same results in another order. -/
theorem perm_of_mapM {f : α → Except ε β} {inputs inputs' : List α} {results results' : List β}
    (hperm : inputs.Perm inputs') (h : inputs.mapM f = .ok results)
    (h' : inputs'.mapM f = .ok results') : results.Perm results' := by
  -- the results of the second list in the order of the first are the results of the first
  obtain ⟨reordered, hreordered, hresults⟩ :=
    List.perm_comp_forall₂ hperm (mapM_eq_ok_iff.mp h')
  have hsame : reordered = results := Except.ok.inj ((mapM_eq_ok_iff.mpr hreordered).symm.trans h)
  rwa [hsame] at hresults

end WireBindings
