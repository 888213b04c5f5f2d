/-!
# Tables as lists

A table that remembers the order in which its keys arrived is a list of pairs in which no key occurs
twice. `assign` gives a key a value: a known key keeps its place, a new one goes to the end.
-/

namespace WireBindings

variable {α β : Type} [DecidableEq α]

/-- The entries after `key` is given `value`: in its old place, or else at the end. -/
def assign (key : α) (value : β) : List (α × β) → List (α × β)
  | [] => [(key, value)]
  | (known, old) :: rest =>
    if known = key then (key, value) :: rest else (known, old) :: assign key value rest

variable {key : α} {value : β} {entries : List (α × β)}

/-- A known key keeps its place. -/
theorem keys_assign_of_mem (h : key ∈ entries.map Prod.fst) :
    (assign key value entries).map Prod.fst = entries.map Prod.fst := by
  induction entries with
  | nil => simp at h
  | cons entry rest ih =>
    obtain ⟨first, old⟩ := entry
    by_cases hsame : first = key
    · simp [assign, hsame]
    · simp only [List.map_cons, List.mem_cons] at h
      simp [assign, hsame, ih (h.resolve_left fun hkey => hsame hkey.symm)]

/-- A new key goes to the end. -/
theorem keys_assign_of_not_mem (h : key ∉ entries.map Prod.fst) :
    (assign key value entries).map Prod.fst = entries.map Prod.fst ++ [key] := by
  induction entries with
  | nil => rfl
  | cons entry rest ih =>
    obtain ⟨first, old⟩ := entry
    simp only [List.map_cons, List.mem_cons, not_or] at h
    simp [assign, Ne.symm h.1, ih h.2]

/-- No key occurs twice afterwards if none did before. -/
theorem nodup_assign (h : (entries.map Prod.fst).Nodup) :
    ((assign key value entries).map Prod.fst).Nodup := by
  by_cases hkey : key ∈ entries.map Prod.fst
  · rw [keys_assign_of_mem hkey]
    exact h
  · rw [keys_assign_of_not_mem hkey, List.nodup_append]
    refine ⟨h, by simp, ?_⟩
    rintro other hother last hlast rfl
    exact hkey (List.mem_singleton.mp hlast ▸ hother)

/-- The value given is found. -/
theorem lookup_assign_self : (assign key value entries).lookup key = some value := by
  induction entries with
  | nil => simp [assign]
  | cons entry rest ih =>
    obtain ⟨first, old⟩ := entry
    by_cases hsame : first = key
    · simp [assign, hsame]
    · have hdiffers : (key == first) = false := by simpa using Ne.symm hsame
      simp [assign, hsame, List.lookup_cons, hdiffers, ih]

/-- Every other key has the value it had before. -/
theorem lookup_assign_of_ne {other : α} (h : other ≠ key) :
    (assign key value entries).lookup other = entries.lookup other := by
  have hdiffers : (other == key) = false := by simpa using h
  induction entries with
  | nil => simp [assign, List.lookup_cons, hdiffers]
  | cons entry rest ih =>
    obtain ⟨first, old⟩ := entry
    by_cases hsame : first = key
    · simp [assign, hsame, List.lookup_cons, hdiffers]
    · simp [assign, hsame, List.lookup_cons, ih]

end WireBindings
