import WireBindings.Proofs.Binding.Reordered

/-!
# Synthetic definitions make no difference

A schema defines every type that occurs in it, also those that declarations spell out: numbers,
text, collections, tuples, options. The bindings are the same without these definitions. One that is
put in between the others, wherever it is put, changes neither which names are nominal nor their
order nor the text, and no fault either (`generate_insertAt`).

Two things have to be excluded. A definition under a name that some variant declares would be
looked up in place of the type that the declaration spells, and an enum would make what it carries
into payloads, unless it is an option. With these aside, the schemas with and without the definition
agree on all names but the new one (`agreesOn_insertAt`), and this one is not nominal.
-/

namespace WireBindings

/-- The variants of an enum; no other definition has any. -/
def Definition.variants : Definition → List Variant
  | enum _ variants => variants
  | _ => []

theorem Definition.mem_variants_of_mem_carryingVariants {definition : Definition}
    {variant : Variant} (h : variant ∈ definition.carryingVariants) :
    variant ∈ definition.variants := by
  cases definition with
  | enum width variants => exact (List.mem_filter.mp h).1
  | primitive _ | sequence _ _ _ | tuple _ | struct _ => cases h

namespace Container

variable {container : Container} {place : ℕ} {name other : String} {definition : Definition}

/-- The container with a definition of a new name at the place, in front of the definitions that
were there and behind it. A place beyond the end is the end. -/
def insertAt (container : Container) (place : ℕ) (name : String) (definition : Definition)
    (hfresh : name ∉ container.definitions.names) : Container where
  declaration := container.declaration
  definitions :=
    { entries := container.definitions.entries.take place ++
        (name, definition) :: container.definitions.entries.drop place
      nodup := by
        rw [List.map_append, List.map_cons, List.nodup_middle, ← List.map_append,
          List.take_append_drop]
        exact List.nodup_cons.mpr ⟨hfresh, container.definitions.nodup⟩ }

/-- No variant declares the name, be it a unit variant or not. -/
def NeverDeclared (container : Container) (name : String) : Prop :=
  ∀ entry ∈ container.definitions.entries, ∀ variant ∈ entry.2.variants,
    variant.declaration ≠ name

instance : Decidable (container.NeverDeclared name) :=
  inferInstanceAs (Decidable (∀ entry ∈ container.definitions.entries, _))

variable {hfresh : name ∉ container.definitions.names}

/-- Any other name is defined as it was. -/
theorem get?_insertAt_of_ne (h : other ≠ name) :
    (container.insertAt place name definition hfresh).get? other = container.get? other := by
  show List.lookup other (container.definitions.entries.take place ++
      (name, definition) :: container.definitions.entries.drop place) =
    List.lookup other container.definitions.entries
  -- the new entry is passed over, and the entries around it are those that were there
  rw [List.lookup_append, List.lookup_cons, beq_false_of_ne h, ← List.lookup_append,
    List.take_append_drop]

/-- The schemas with and without the definition agree on all other names: no look-up that starts
with one of these comes upon the new one. -/
theorem agreesOn_insertAt (h : container.NeverDeclared name) :
    AgreesOn (· ≠ name) container (container.insertAt place name definition hfresh) := by
  refine .of_get?_eq (fun other hother => (get?_insertAt_of_ne hother).symm) ?_
  intro other _ child hchild
  -- what is carried is declared by a variant, and none declares the new name
  rw [carriedBy] at hchild
  split at hchild
  · cases hchild
  · next found hfound =>
    obtain ⟨variant, hvariant, rfl⟩ := List.mem_map.mp hchild
    exact h _ (Definitions.get?_eq_some_iff.mp hfound) variant
      (Definition.mem_variants_of_mem_carryingVariants hvariant)

/-- Payloads are made by enums, and not by options. -/
theorem payloadNames_insertAt (h : definition.kind = .enum → isOptionName name) :
    (container.insertAt place name definition hfresh).payloadNames = container.payloadNames := by
  -- an option is passed over, and a definition that is no enum has no variants
  have hnone : (if isOptionName name then []
      else definition.carryingVariants.map Variant.declaration) = [] := by
    split
    · rfl
    · next hoption =>
      cases definition with
      | enum width variants => exact absurd (h rfl) hoption
      | primitive _ | sequence _ _ _ | tuple _ | struct _ => rfl
  rw [payloadNames, payloadNames, insertAt, List.flatMap_append, List.flatMap_cons]
  -- the new entry adds nothing between what the entries on both sides of it have
  dsimp only
  rw [hnone, List.nil_append, ← List.flatMap_append, List.take_append_drop]

/-- A synthetic definition is not nominal, and it makes no other name a payload. -/
theorem nominalNames_insertAt (hsynthetic : isSynthetic name definition)
    (h : definition.kind = .enum → isOptionName name) :
    (container.insertAt place name definition hfresh).nominalNames = container.nominalNames := by
  rw [nominalNames, nominalNames, payloadNames_insertAt h, insertAt, List.filter_append,
    List.filter_cons_of_neg (by simp [hsynthetic]), ← List.filter_append, List.take_append_drop]

/-- A new name is not among the nominal ones. -/
theorem ne_of_mem_nominalNames (hfresh : name ∉ container.definitions.names)
    (h : other ∈ container.nominalNames) : other ≠ name := by
  rintro rfl
  exact hfresh (container.sublist_nominalNames.subset h)

/-- **Synthetic definitions make no difference.** Put a definition of a new name at any place among
those of a schema. If the name is that of a type that is spelled out, or the definition that of a
sequence or a primitive, then the nominal names and their order stay as they are, and so does the
text or the fault, under all options. No variant may declare the name for this, and the definition
may be an enum only if the name is that of an option. -/
theorem generate_insertAt (hfresh : name ∉ container.definitions.names)
    (hdeclared : container.NeverDeclared name)
    (hsynthetic : SpelledOut name ∨ definition.kind = .sequence ∨ definition.kind = .primitive)
    (henum : definition.kind = .enum → isOptionName name) (place : ℕ) :
    (container.insertAt place name definition hfresh).nominalNames = container.nominalNames ∧
      (container.insertAt place name definition hfresh).resolve
          (container.insertAt place name definition hfresh).nominalNames =
        container.resolve container.nominalNames ∧
      ∀ options, (container.insertAt place name definition hfresh).generate options =
        container.generate options := by
  have hagrees : AgreesOn (· ≠ name) container (container.insertAt place name definition hfresh) :=
    agreesOn_insertAt hdeclared
  have hsame : (container.insertAt place name definition hfresh).nominalNames =
      container.nominalNames := nominalNames_insertAt (isSynthetic_iff.mpr hsynthetic) henum
  -- the new name is the only one that the two do not agree on, and it is not nominal
  have hnominal : ∀ other ∈ container.nominalNames, other ≠ name :=
    fun _ => ne_of_mem_nominalNames hfresh
  refine ⟨hsame, ?_, fun options => (hagrees.generate_eq options hsame.symm hnominal).symm⟩
  rw [hsame, hagrees.resolve_eq hnominal]

/-- The items have the same text with an option of links between them, though the option carries
what an enum carries, too; and the circle in a family is found with a definition of text in
front. -/
theorem generate_insertAt_option :
    (linkedItems.insertAt 2 "Option<Link>" (.simpleEnum [("None", "()"), ("Some", "Link")])
        (by decide)).generate ⟨true⟩ =
      .ok (printModule ⟨true⟩ [labelBinding, itemBinding, orderBinding]) ∧
    ((family "String").insertAt 0 "String" (.unboundedSequence "u8") (by decide)).generate ⟨false⟩ =
      .error (.circular "Parent") := by
  constructor
  · rw [(generate_insertAt (by decide) (by decide) (.inl (.inl (by decide))) (by decide) 2).2.2]
    exact hasBlocks_linkedItems.generate_eq ⟨true⟩
  · rw [(generate_insertAt (by decide) (by decide) (.inr (.inl rfl)) (by decide) 0).2.2]
    exact generate_of_resolve_error resolve_nominalNames_family

end Container

end WireBindings
