import WireBindings.Assign
import WireBindings.Schema.Basic
import WireBindings.Text.Utf8

/-!
# Tables of definitions

`Definitions` is a table from names to definitions that remembers the order in which the names first
arrived. The order is observable (it decides the order of the generated blocks), so it is part of
the data: a table is the list of its entries, in which no name occurs twice.

## Main definitions

* `Definitions.insert`: a new name goes to the end, a known name keeps its place and gets the new
  definition.
* `Definitions.get?`: the definition of a name.
* `Definitions.sorted`: the same entries in ascending order of the names' octets.
* `Definitions.sameEntries`: equality that disregards the order.

## Main statements

Sorting changes no definition (`get?_sorted`), puts the names into ascending order
(`pairwise_sorted`) and leaves a sorted table as it is (`sorted_sorted`).
-/

namespace WireBindings

/-- A table of definitions in order of arrival. -/
@[ext] structure Definitions where
  /-- The names with their definitions. -/
  entries : List (String × Definition)
  /-- No name occurs twice. -/
  nodup : (entries.map Prod.fst).Nodup
deriving DecidableEq, Repr

namespace Definitions

/-- The table without entries. -/
def empty : Definitions := ⟨[], List.nodup_nil⟩

instance : EmptyCollection Definitions := ⟨empty⟩

instance : Inhabited Definitions := ⟨empty⟩

/-- Gives a name a definition. A new name goes to the end; a known one keeps its place. -/
def insert (table : Definitions) (name : String) (definition : Definition) : Definitions where
  entries := assign name definition table.entries
  nodup := nodup_assign table.nodup

/-- The table into which the entries are inserted one after the other. -/
def ofEntries (entries : List (String × Definition)) : Definitions :=
  entries.foldl (fun table (name, definition) => table.insert name definition) ∅

/-- The names, in order. -/
def names (table : Definitions) : List String := table.entries.map Prod.fst

/-- The definition of a name. -/
def get? (table : Definitions) (name : String) : Option Definition := table.entries.lookup name

/-- Whether the octets of the first name come before those of the second, or are the same. -/
def precedes (a b : String × Definition) : Bool :=
  decide (Text.Utf8.encode a.1 ≤ Text.Utf8.encode b.1)

/-- The entries in ascending order of the names' octets. -/
def sorted (table : Definitions) : Definitions where
  entries := table.entries.mergeSort precedes
  nodup := ((List.mergeSort_perm table.entries precedes).map Prod.fst).nodup_iff.mpr table.nodup

/-- Whether two tables define the same names in the same way, in whatever order. -/
def sameEntries (a b : Definitions) : Bool :=
  a.entries.length == b.entries.length &&
    a.entries.all fun (name, definition) => b.get? name == some definition

/-! ### Looking up -/

/-- A definition is found exactly if it stands in the table under the name. -/
theorem get?_eq_some_iff {table : Definitions} {name : String} {definition : Definition} :
    table.get? name = some definition ↔ (name, definition) ∈ table.entries := by
  obtain ⟨entries, hnodup⟩ := table
  show entries.lookup name = some definition ↔ (name, definition) ∈ entries
  induction entries with
  | nil => simp
  | cons entry rest ih =>
    obtain ⟨first, old⟩ := entry
    simp only [List.map_cons, List.nodup_cons] at hnodup
    by_cases hsame : name = first
    · subst hsame
      -- the name occurs nowhere else, so only the first entry can be the one
      have habsent : (name, definition) ∉ rest := fun hmem =>
        hnodup.1 (List.mem_map.mpr ⟨_, hmem, rfl⟩)
      simp [habsent, eq_comm]
    · have hdiffers : (name == first) = false := by simpa using hsame
      simp [List.lookup_cons, hdiffers, ih hnodup.2, hsame]

/-- Nothing is found exactly for the names that are not in the table. -/
theorem get?_eq_none_iff {table : Definitions} {name : String} :
    table.get? name = none ↔ name ∉ table.names := by
  refine ⟨fun habsent hmem => ?_, fun habsent => ?_⟩
  · obtain ⟨⟨_, definition⟩, hentry, rfl⟩ := List.mem_map.mp hmem
    rw [get?_eq_some_iff.mpr hentry] at habsent
    cases habsent
  · match hfound : table.get? name with
    | none => rfl
    | some definition =>
      exact absurd (List.mem_map.mpr ⟨_, get?_eq_some_iff.mp hfound, rfl⟩) habsent

/-! ### Inserting and sorting -/

variable {table : Definitions} {name : String}

@[simp] theorem get?_insert_self {definition : Definition} :
    (table.insert name definition).get? name = some definition :=
  lookup_assign_self

theorem get?_insert_of_ne {other : String} {definition : Definition} (h : other ≠ name) :
    (table.insert name definition).get? other = table.get? other :=
  lookup_assign_of_ne h

/-- Sorting does not change what is defined. -/
@[simp] theorem get?_sorted : table.sorted.get? name = table.get? name := by
  apply Option.ext
  intro definition
  rw [get?_eq_some_iff, get?_eq_some_iff]
  exact (List.mergeSort_perm table.entries precedes).mem_iff

/-- The order of octets is transitive. -/
theorem precedes_trans (a b c : String × Definition) (hab : precedes a b) (hbc : precedes b c) :
    precedes a c := by
  simp only [precedes, decide_eq_true_eq] at *
  exact List.le_trans hab hbc

theorem precedes_total (a b : String × Definition) : precedes a b || precedes b a := by
  simp only [precedes, Bool.or_eq_true, decide_eq_true_eq]
  exact List.le_total _ _

theorem pairwise_sorted : table.sorted.entries.Pairwise fun a b => precedes a b :=
  List.pairwise_mergeSort precedes_trans precedes_total table.entries

/-- What is sorted stays as it is, so a container that was read is written in the order read. -/
theorem sorted_sorted : table.sorted.sorted = table.sorted := by
  ext1
  exact List.mergeSort_of_pairwise pairwise_sorted

end Definitions

end WireBindings
