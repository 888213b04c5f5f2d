import Mathlib.Tactic.Tauto
import WireBindings.Proofs.Schema.Tables
import WireBindings.Schema.Nominal
import WireBindings.TypeExpr.Spelling

/-!
# Which definitions are nominal

Three things keep a definition from being nominal: a variant carries it (`Carries`), its name
belongs to a type that is spelled out (`SpelledOut`), or it is no struct, enum or tuple. For names
that are identifiers, little is left of the second (`spelledOut_iff_of_identifier`).

None of this depends on where the definition stands, or the enum that carries it, so a name is
nominal or not whatever the order of the definitions. The order decides about that of the nominal
names only (`nominalNames_exact`).
-/

namespace WireBindings

variable {name : String} {definition : Definition}

/-! ### Names of types that are spelled out -/

/-- A small letter, then digits. -/
def NumberName (name : String) : Prop :=
  ∃ first digits, name.toList = first :: digits ∧ ('a' ≤ first ∧ first ≤ 'z') ∧
    ∀ c ∈ digits, '0' ≤ c ∧ c ≤ '9'

/-- The decision whether a name is that of a number, with the letters and digits written out. -/
theorem isNumberName_iff : isNumberName name ↔ NumberName name := by
  have hletter (c : Char) : c.isLower ↔ 'a' ≤ c ∧ c ≤ 'z' :=
    Bool.and_eq_true_iff.trans (and_congr decide_eq_true_iff decide_eq_true_iff)
  have hdigit (c : Char) : c.isDigit ↔ '0' ≤ c ∧ c ≤ '9' :=
    Bool.and_eq_true_iff.trans (and_congr decide_eq_true_iff decide_eq_true_iff)
  rw [isNumberName, NumberName]
  cases name.toList with
  | nil => simp
  | cons first digits => simp [hletter, hdigit, and_assoc]

/-- The name belongs to a type that is spelled out where it is used: a generic, a tuple, a number or
text. -/
def SpelledOut (name : String) : Prop :=
  '<' ∈ name.toList ∨ name.toList.head? = some '(' ∨ isNumberName name ∨ name = "String"

/-- The name of an option is that of a generic. -/
theorem mem_of_isOptionName (h : isOptionName name) : '<' ∈ name.toList :=
  (List.isPrefixOf_iff_prefix.mp h).subset (by decide)

/-- The table of synthetic definitions, without the options, which are generics like any other. -/
theorem isSynthetic_iff :
    isSynthetic name definition ↔
      SpelledOut name ∨ definition.kind = .sequence ∨ definition.kind = .primitive := by
  have hoption : isOptionName name → '<' ∈ name.toList := mem_of_isOptionName
  simp only [isSynthetic, SpelledOut, Bool.or_eq_true, List.contains_iff_mem, beq_iff_eq]
  tauto

/-- An identifier names a number or text, or else nothing that is spelled out. -/
theorem spelledOut_iff_of_identifier (h : Identifier name.toList) :
    SpelledOut name ↔ isNumberName name ∨ name = "String" := by
  obtain ⟨first, rest, hname, hfirst, hrest⟩ := h
  -- there are no brackets in an identifier, so the first two cases are left out
  have hgeneric : '<' ∉ name.toList := by
    rw [hname]
    rintro (_ | ⟨_, hmem⟩)
    · cases hfirst
    · cases hrest _ hmem
  have htuple : name.toList.head? ≠ some '(' := by
    rw [hname]
    rintro ⟨⟩
    cases hfirst
  simp only [SpelledOut, hgeneric, htuple, false_or]

namespace Container

variable {container : Container} {parent child : String}

/-! ### What variants carry -/

/-- Some variant of the parent carries the child. An option carries nothing in this sense. -/
def Carries (container : Container) (parent child : String) : Prop :=
  ∃ definition, container.get? parent = some definition ∧ ¬ isOptionName parent ∧
    ∃ variant ∈ definition.carryingVariants, variant.declaration = child

/-- What carries something is an enum, and one of its variants is no unit variant. -/
theorem carries_iff :
    container.Carries parent child ↔
      ∃ width variants, container.get? parent = some (.enum width variants) ∧
        ¬ isOptionName parent ∧
        ∃ variant ∈ variants, ¬ variant.isUnit ∧ variant.declaration = child := by
  refine ⟨?_, ?_⟩
  · rintro ⟨definition, hdefined, hoption, variant, hvariant, hchild⟩
    -- only an enum has variants, and those that carry are the ones that are no unit
    cases definition with
    | enum width variants =>
      obtain ⟨hvariant, hcarries⟩ := List.mem_filter.mp hvariant
      exact ⟨width, variants, hdefined, hoption, variant, hvariant, by simpa using hcarries, hchild⟩
    | primitive _ | sequence _ _ _ | tuple _ | struct _ => cases hvariant
  · rintro ⟨width, variants, hdefined, hoption, variant, hvariant, hcarries, hchild⟩
    exact ⟨_, hdefined, hoption, variant,
      List.mem_filter.mpr ⟨hvariant, by simpa using hcarries⟩, hchild⟩

/-- The payloads are what the definitions carry. -/
theorem mem_payloadNames_iff :
    child ∈ container.payloadNames ↔ ∃ parent, container.Carries parent child := by
  rw [payloadNames, List.mem_flatMap]
  refine ⟨?_, ?_⟩
  -- an option is passed over in the search
  · rintro ⟨⟨parent, definition⟩, hentry, hchild⟩
    dsimp only at hchild
    split at hchild
    · cases hchild
    · next hoption =>
      exact ⟨parent, definition, Definitions.get?_eq_some_iff.mpr hentry, hoption,
        List.mem_map.mp hchild⟩
  · rintro ⟨parent, definition, hdefined, hoption, hchild⟩
    refine ⟨(parent, definition), Definitions.get?_eq_some_iff.mp hdefined, ?_⟩
    dsimp only
    rw [if_neg hoption]
    exact List.mem_map.mpr hchild

/-- A name is nominal if it is defined, no variant carries it, and it is not synthetic. -/
theorem mem_nominalNames_iff :
    name ∈ container.nominalNames ↔
      ∃ definition, container.get? name = some definition ∧
        (∀ parent, ¬ container.Carries parent name) ∧ ¬ isSynthetic name definition := by
  -- the two conditions of the search are the two of the statement, with the entry as a definition
  rw [← not_exists, ← mem_payloadNames_iff]
  simp only [nominalNames, List.mem_map, List.mem_filter, Bool.and_eq_true, Bool.not_eq_true',
    List.contains_eq_mem, decide_eq_false_iff_not, Bool.not_eq_true, Prod.exists,
    get?, Definitions.get?_eq_some_iff]
  refine ⟨?_, ?_⟩
  · rintro ⟨_, definition, hentry, rfl⟩
    exact ⟨definition, hentry⟩
  · rintro ⟨definition, hentry⟩
    exact ⟨_, definition, hentry, rfl⟩

/-- The nominal names are some of the names, in their order. -/
theorem sublist_nominalNames (container : Container) :
    container.nominalNames.Sublist container.definitions.names :=
  List.filter_sublist.map Prod.fst

theorem nodup_nominalNames (container : Container) : container.nominalNames.Nodup :=
  container.definitions.nodup.sublist container.sublist_nominalNames

/-! ### The order of the definitions -/

section Reordered

variable {a b : Container} (hperm : a.definitions.entries.Perm b.definitions.entries)

include hperm

/-- A payload is one wherever the enum that carries it stands. -/
theorem contains_payloadNames_of_perm :
    a.payloadNames.contains name = b.payloadNames.contains name := by
  have hpayloads : a.payloadNames.Perm b.payloadNames := hperm.flatMap_right _
  rw [Bool.eq_iff_iff, List.contains_iff_mem, List.contains_iff_mem]
  exact hpayloads.mem_iff

/-- **The same names are nominal**, in another order. -/
theorem perm_nominalNames : a.nominalNames.Perm b.nominalNames := by
  -- the two searches keep the same entries, and go through them in different orders
  simp only [nominalNames, contains_payloadNames_of_perm hperm]
  exact (hperm.filter _).map Prod.fst

end Reordered

/-- **Which names are nominal.** The nominal names are some of the defined names, in their order and
each once. A name is among them exactly if no enum, wherever it stands, carries it in a variant
that is no unit variant, options left aside; if it has no `<` in it and no `(` in front; if it is
neither `String` nor a small letter and digits; and if it is defined as neither a sequence nor a
primitive. The definitions in another order have the same nominal names. -/
theorem nominalNames_exact (container : Container) :
    container.nominalNames.Sublist container.definitions.names ∧ container.nominalNames.Nodup ∧
    (∀ name, name ∈ container.nominalNames ↔
      ∃ definition, container.get? name = some definition ∧
        (∀ parent width variants, container.get? parent = some (.enum width variants) →
          ¬ "Option<".toList <+: parent.toList →
          ∀ variant ∈ variants, ¬ variant.isUnit → variant.declaration ≠ name) ∧
        '<' ∉ name.toList ∧ name.toList.head? ≠ some '(' ∧ name ≠ "String" ∧ ¬ NumberName name ∧
        definition.kind ≠ .sequence ∧ definition.kind ≠ .primitive) ∧
    ∀ other : Container, container.definitions.entries.Perm other.definitions.entries →
      container.nominalNames.Perm other.nominalNames := by
  refine ⟨container.sublist_nominalNames, container.nodup_nominalNames, fun name => ?_,
    fun other hperm => perm_nominalNames hperm⟩
  rw [mem_nominalNames_iff]
  refine exists_congr fun definition => and_congr_right fun _ => and_congr ?_ ?_
  · -- whoever carries the name is an enum, and not an option
    simp only [carries_iff, isOptionName, List.isPrefixOf_iff_prefix]
    refine ⟨fun h parent width variants hdefined hoption variant hvariant hcarries hname => ?_, ?_⟩
    · exact h parent ⟨width, variants, hdefined, hoption, variant, hvariant, hcarries, hname⟩
    · rintro h parent ⟨width, variants, hdefined, hoption, variant, hvariant, hcarries, hname⟩
      exact h parent width variants hdefined hoption variant hvariant hcarries hname
  · -- an option has a `<` in its name, so it needs no mention of its own
    rw [isSynthetic_iff, SpelledOut, isNumberName_iff]
    tauto

/-- Items with their definitions in no particular order: the link stands before the enum that
carries it, and the option of labels after the labels. -/
def scatteredItems : Container where
  declaration := "Item"
  definitions := Definitions.ofEntries [
    ("u8", .primitive 1),
    ("Link", .struct (.unnamed ["u8"])),
    ("Label", .struct (.named [⟨"text", "String"⟩])),
    ("Option<Label>", .simpleEnum [("None", "()"), ("Some", "Label")]),
    ("Item", .simpleEnum [("Plain", "()"), ("Linked", "Link")]),
    ("String", .unboundedSequence "u8")]

/-- The link is not nominal, although the enum that carries it comes later, and the labels are,
although an option carries them. In ascending order there are the same nominal names. -/
theorem nominalNames_scatteredItems :
    scatteredItems.nominalNames = ["Label", "Item"] ∧ "Link" ∉ scatteredItems.nominalNames ∧
    scatteredItems.nominalNames.Perm
      (Container.mk "Item" scatteredItems.definitions.sorted).nominalNames := by
  obtain ⟨-, -, hmem, hperm⟩ := nominalNames_exact scatteredItems
  refine ⟨by decide, fun hlink => ?_, hperm _ scatteredItems.definitions.perm_sorted.symm⟩
  obtain ⟨_, -, hcarried, -⟩ := (hmem "Link").mp hlink
  exact hcarried "Item" 1 [⟨0, "Plain", "()"⟩, ⟨1, "Linked", "Link"⟩] (by decide) (by decide)
    ⟨1, "Linked", "Link"⟩ (by decide) (by decide) rfl

end Container

end WireBindings
