import Mathlib.Data.List.Induction
import Mathlib.Data.List.Nodup
import Mathlib.Data.List.Perm.Basic
import WireBindings.Proofs.Text.Utf8
import WireBindings.Schema.Container

/-!
# Tables in whatever order

Two tables define the same names in the same way exactly if their entries agree up to order
(`perm_entries_iff`). Among all orders one is distinguished, that in which the octets of the names
strictly ascend (`Ascending`): a table has at most one such order (`Ascending.eq_of_perm`), and
sorting brings it about (`ascending_sorted`).

A table made from a list of entries contains only such entries (`mem_of_mem_ofEntries`), and all of
them in their order if no name is repeated (`entries_ofEntries`).
-/

namespace WireBindings

open Text

section Assign

variable {α β : Type} [DecidableEq α] {key : α} {value : β} {entries : List (α × β)}

/-- A new key is added at the end. -/
theorem assign_of_not_mem (hunknown : key ∉ entries.map Prod.fst) :
    assign key value entries = entries ++ [(key, value)] := by
  induction entries with
  | nil => rfl
  | cons entry rest ih =>
    obtain ⟨hne, hrest⟩ := List.ne_and_not_mem_of_not_mem_cons hunknown
    rw [assign, if_neg (Ne.symm hne), ih hrest, List.cons_append]

/-- An assignment brings in no entry but its own. -/
theorem mem_of_mem_assign {entry : α × β} (h : entry ∈ assign key value entries) :
    entry = (key, value) ∨ entry ∈ entries := by
  -- the search for the key stops at the entry that is replaced
  induction entries with
  | nil => exact .inl (List.mem_singleton.mp h)
  | cons first rest ih =>
    rw [assign] at h
    split at h
    · exact (List.mem_cons.mp h).imp_right (List.mem_cons_of_mem _)
    · rcases List.mem_cons.mp h with rfl | h
      · exact .inr List.mem_cons_self
      · exact (ih h).imp_right (List.mem_cons_of_mem _)

end Assign

/-- The octets of the names strictly ascend. -/
def Ascending (entries : List (String × Definition)) : Prop :=
  entries.Pairwise fun a b => Utf8.encode a.1 < Utf8.encode b.1

instance (entries : List (String × Definition)) : Decidable (Ascending entries) :=
  inferInstanceAs (Decidable (entries.Pairwise _))

namespace Ascending

variable {entries others : List (String × Definition)}

/-- No name occurs twice where they strictly ascend. -/
theorem nodup_names (h : Ascending entries) : (entries.map Prod.fst).Nodup := by
  refine List.pairwise_map.mpr (h.imp fun {a b} hlt heq => ?_)
  rw [heq] at hlt
  exact List.lt_irrefl _ hlt

/-- There is only one ascending order. -/
theorem eq_of_perm (h : Ascending entries) (hothers : Ascending others)
    (hperm : entries.Perm others) : entries = others :=
  -- two orders of the same entries could only differ by names that precede each other
  hperm.eq_of_pairwise (fun _ _ _ _ hab hba => absurd hba (List.lt_asymm hab)) h hothers

end Ascending

namespace Definitions

variable {table : Definitions} {entries : List (String × Definition)}

theorem nodup_entries (table : Definitions) : table.entries.Nodup :=
  List.Nodup.of_map Prod.fst table.nodup

/-- The same names are defined in the same way exactly if the entries agree up to order. -/
theorem perm_entries_iff {a b : Definitions} :
    a.entries.Perm b.entries ↔ ∀ name, a.get? name = b.get? name := by
  -- without repetitions only membership counts, and an entry is a definition of its name
  rw [List.perm_ext_iff_of_nodup a.nodup_entries b.nodup_entries, Prod.forall]
  refine forall_congr' fun name => ?_
  rw [Option.ext_iff]
  refine forall_congr' fun definition => ?_
  rw [get?_eq_some_iff, get?_eq_some_iff]

/-! ### Sorting -/

theorem perm_sorted (table : Definitions) : table.sorted.entries.Perm table.entries :=
  List.mergeSort_perm table.entries precedes

/-- A sorted table ascends strictly, as no name occurs twice. -/
theorem ascending_sorted (table : Definitions) : Ascending table.sorted.entries := by
  have hnames : table.sorted.entries.Pairwise fun a b => a.1 ≠ b.1 :=
    List.pairwise_map.mp table.sorted.nodup
  refine (table.pairwise_sorted.and hnames).imp fun {a b} h => ?_
  -- names with the same octets are the same, and no name occurs twice
  refine Std.lt_of_le_of_ne (of_decide_eq_true h.1) fun heq => h.2 ?_
  exact Utf8.encode_injective heq

theorem sorted_eq_of_ascending (h : Ascending table.entries) : table.sorted = table := by
  ext1
  exact table.ascending_sorted.eq_of_perm h table.perm_sorted

/-! ### Entry by entry -/

/-- Entries are inserted one after the other. -/
theorem ofEntries_concat (entries : List (String × Definition)) (entry : String × Definition) :
    ofEntries (entries ++ [entry]) = (ofEntries entries).insert entry.1 entry.2 := by
  rw [ofEntries, List.foldl_append]
  rfl

/-- The table has no entries but those it was made from. -/
theorem mem_of_mem_ofEntries {entry : String × Definition}
    (h : entry ∈ (ofEntries entries).entries) : entry ∈ entries := by
  -- entries are inserted from the front on, so the last one is taken off first
  induction entries using List.reverseRecOn with
  | nil => exact h
  | append_singleton entries last ih =>
    rw [ofEntries_concat] at h
    rcases mem_of_mem_assign h with rfl | h
    · exact List.mem_append_right _ List.mem_cons_self
    · exact List.mem_append_left _ (ih h)

/-- If no name is repeated, then the table has just the entries it was made from. -/
theorem entries_ofEntries (h : (entries.map Prod.fst).Nodup) :
    (ofEntries entries).entries = entries := by
  -- the last entry is inserted last, and its name is new by then
  induction entries using List.reverseRecOn with
  | nil => rfl
  | append_singleton entries last ih =>
    rw [List.map_append, List.nodup_append] at h
    obtain ⟨hnodup, -, hapart⟩ := h
    have hnew : last.1 ∉ entries.map Prod.fst := fun hmem =>
      hapart last.1 hmem last.1 List.mem_cons_self rfl
    rw [ofEntries_concat, insert]
    show assign last.1 last.2 (ofEntries entries).entries = _
    rw [ih hnodup, assign_of_not_mem hnew]

/-- A table made from ascending entries is in order already. -/
theorem sorted_ofEntries (h : Ascending entries) :
    (ofEntries entries).sorted = ofEntries entries := by
  have htable : (ofEntries entries).entries = entries := entries_ofEntries h.nodup_names
  exact sorted_eq_of_ascending (htable.symm ▸ h)

end Definitions

namespace Container

/-- The container is the other one with its definitions in ascending order of their names. -/
structure SortedFrom (container other : Container) : Prop where
  declaration : container.declaration = other.declaration
  perm : container.definitions.entries.Perm other.definitions.entries
  ascending : Ascending container.definitions.entries

/-- There is one container in ascending order, and sorting makes it. -/
theorem sortedFrom_iff {container other : Container} :
    container.SortedFrom other ↔ container = ⟨other.declaration, other.definitions.sorted⟩ := by
  constructor
  · rintro ⟨hdeclaration, hperm, hascending⟩
    ext1
    · exact hdeclaration
    · ext1
      -- two ascending orders of the same entries
      exact hascending.eq_of_perm other.definitions.ascending_sorted
        (hperm.trans other.definitions.perm_sorted.symm)
  · rintro rfl
    exact ⟨rfl, other.definitions.perm_sorted, other.definitions.ascending_sorted⟩

/-- Entry by entry, a container is made as its table is. -/
theorem foldl_insert (declaration : String) (entries : List (String × Definition)) :
    entries.foldl (fun container entry => container.insert entry.1 entry.2)
      (ofDeclaration declaration) = ⟨declaration, Definitions.ofEntries entries⟩ := by
  induction entries using List.reverseRecOn with
  | nil => rfl
  | append_singleton entries last ih =>
    rw [List.foldl_append, ih, Definitions.ofEntries_concat]
    rfl

end Container

end WireBindings
