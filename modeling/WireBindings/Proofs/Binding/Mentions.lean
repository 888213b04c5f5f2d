import WireBindings.Proofs.Binding.Denotation
import WireBindings.Proofs.Dependency.Closure

/-!
# A block mentions its dependencies

What a definition is made to wait for and what its block mentions are found by two walks that know
nothing of each other: one collects the declarations that the definition contributes and looks only
at these, the other writes types, case by case, with payloads where they are carried. For every
definition that gets a block the nominal names that they find are the same
(`dependencies_eq_mentions`).

That a block mentions nothing else is `refersTo_of_bindingForm`. For the other half the walk over
declarations is followed along the ways in which a variant can say what it carries: whatever is
contributed, its type is written in the block (`HasForm.exists_type`). This fails for definitions
without a block, as those of payloads that are enums: the enums inside are looked through, but they
cannot be written.
-/

namespace WireBindings

variable {fields : List NamedField} {typed : List TypedField} {declaration : String}

/-- The declaration of a field has its type among those of the fields. -/
theorem HasFields.exists_type (h : HasFields fields typed)
    (hread : declaration ∈ (Fields.named fields).declarations) :
    ∃ type ∈ typed.map TypedField.type, TypeExpr.parse declaration = .ok type := by
  obtain ⟨field, hfield, rfl⟩ := List.mem_map.mp hread
  obtain ⟨entry, hentry, -, hparse⟩ := exists_right_of_mem h hfield
  exact ⟨entry.type, List.mem_map_of_mem hentry, hparse⟩

namespace Container

variable {container : Container} {name other : String} {definition : Definition}
  {variant : Variant} {payload : Payload} {form : BindingForm} {options : Options} {text : String}

/-! ### What is contributed is written -/

/-- What a variant contributes has its type among those that the case is written with. -/
theorem HasPayload.exists_type (h : container.HasPayload variant payload)
    (hcarries : ¬ variant.isUnit)
    (hread : match container.get? variant.declaration with
      | none => declaration = variant.declaration
      | some carried => container.Contributes carried declaration) :
    ∃ type ∈ payload.types, TypeExpr.parse declaration = .ok type := by
  -- the ways to carry something; what is looked up is read in one of them
  cases h with
  | unit hunit => exact absurd hunit hcarries
  | @undefined type _ habsent hparse =>
    rw [habsent] at hread
    exact ⟨type, List.mem_singleton_self _, hread ▸ hparse⟩
  | empty _ hdefined | noneUnnamed _ hdefined =>
    rw [hdefined] at hread
    exact absurd (contributes_struct_iff.mp hread) List.not_mem_nil
  | @oneUnnamed only type _ hdefined hparse =>
    rw [hdefined] at hread
    obtain rfl := List.mem_singleton.mp (contributes_struct_iff.mp hread)
    exact ⟨type, List.mem_singleton_self _, hparse⟩
  | named _ hdefined hfields =>
    rw [hdefined] at hread
    exact hfields.exists_type (contributes_struct_iff.mp hread)

/-- **What a definition contributes is written in its block.** -/
theorem HasForm.exists_type (h : container.HasForm definition form)
    (hread : container.Contributes definition declaration) :
    ∃ type ∈ form.types, TypeExpr.parse declaration = .ok type := by
  cases h with
  | struct hfields => exact hfields.exists_type (contributes_struct_iff.mp hread)
  | enum hcases =>
    obtain ⟨variant, hvariant, hcarries, hread⟩ := contributes_enum_iff.mp hread
    obtain ⟨case, hcase, -, hpayload⟩ := exists_right_of_mem hcases hvariant
    obtain ⟨type, htype, hparse⟩ := hpayload.exists_type hcarries hread
    exact ⟨type, List.mem_flatMap.mpr ⟨case, hcase, htype⟩, hparse⟩

/-! ### Two walks, one result -/

/-- The names that a definition refers to are those that its block mentions. -/
theorem refersTo_iff_of_bindingForm (h : container.bindingForm name definition = .ok form) :
    container.RefersTo definition other ↔ other ∈ (Binding.mk name form).references := by
  -- what is read is written, and nothing else is
  refine ⟨?_, ?_⟩
  · rintro ⟨declaration, type, hread, hparse, hother⟩
    obtain ⟨written, hwritten, hparse'⟩ := (bindingForm_eq_ok_iff.mp h).exists_type hread
    obtain rfl : written = type := Except.ok.inj (hparse'.symm.trans hparse)
    exact List.mem_flatMap.mpr ⟨written, hwritten, hother⟩
  · intro hother
    obtain ⟨type, htype, hother⟩ := List.mem_flatMap.mp hother
    exact refersTo_of_bindingForm h htype hother

/-- A name that is emitted by itself has a block. -/
theorem emit_singleton_eq_ok_iff (hdefined : container.get? name = some definition) :
    container.emit options [name] = .ok text ↔
      ∃ form, container.bindingForm name definition = .ok form ∧
        printModule options [⟨name, form⟩] = text := by
  rw [emit, map_eq_ok_iff]
  refine ⟨?_, ?_⟩
  · rintro ⟨blocks, hblocks, htext⟩
    obtain ⟨form, others, hform, hothers, rfl⟩ := (bindings_cons_of_some hdefined).mp hblocks
    cases hothers
    exact ⟨form, hform, htext⟩
  · rintro ⟨form, hform, htext⟩
    exact ⟨_, (bindings_cons_of_some hdefined).mpr ⟨form, [], hform, rfl, rfl⟩, htext⟩

/-- **Dependencies are mentions.** If a defined name gets a block, then its dependencies are found,
in whatever list of nominal names, and they are the nominal names among the references of the types
in that block, neither more nor less. -/
theorem dependencies_eq_mentions (nominal : List String)
    (hdefined : container.get? name = some definition)
    (h : container.emit options [name] = .ok text) :
    ∃ form targets, container.bindingForm name definition = .ok form ∧
      text = printModule options [⟨name, form⟩] ∧
      container.dependencies nominal definition = .ok targets ∧
      ∀ other, other ∈ targets ↔
        other ∈ nominal ∧ other ∈ (Binding.mk name form).references := by
  obtain ⟨form, hform, rfl⟩ := (emit_singleton_eq_ok_iff hdefined).mp h
  have htypes (declaration : String) (hread : container.Contributes definition declaration) :
      ∃ type, TypeExpr.parse declaration = .ok type :=
    ((bindingForm_eq_ok_iff.mp hform).exists_type hread).imp fun _ => And.right
  obtain ⟨targets, htargets⟩ := (exists_dependencies_iff nominal).mpr htypes
  refine ⟨form, targets, hform, rfl, htargets, fun other => ?_⟩
  rw [mem_dependencies_iff htargets]
  exact and_congr_right fun _ => refersTo_iff_of_bindingForm hform

/-- The cases of a figure: two of them carry the same struct, one a type without a definition. -/
def figureVariants : List Variant :=
  [⟨0, "Dot", "()"⟩, ⟨1, "Disc", "Circle"⟩, ⟨2, "Ring", "Circle"⟩, ⟨3, "Note", "(Label, Point)"⟩]

/-- The struct that is carried is a nominal type of its own. -/
def figures : Container :=
  ofDeclaration "Figure"
    |>.insert "Figure" (.enum 1 figureVariants)
    |>.insert "Circle" (.struct (.named [⟨"center", "Point"⟩, ⟨"radius", "u32"⟩]))

/-- The block of figures. -/
def figureBinding : Binding :=
  ⟨"Figure", .enum [⟨"Dot", .value .unit⟩,
    ⟨"Disc", .struct [⟨"center", .named "Point"⟩, ⟨"radius", .numeric "u32"⟩]⟩,
    ⟨"Ring", .struct [⟨"center", .named "Point"⟩, ⟨"radius", .numeric "u32"⟩]⟩,
    ⟨"Note", .value (.tuple [.named "Label", .named "Point"])⟩]⟩

/-- The circle itself is no dependency of a figure: its fields are written in the block. -/
theorem dependencies_figures :
    figures.get? "Figure" = some (.enum 1 figureVariants) ∧
      figures.emit ⟨true⟩ ["Figure"] = .ok (printModule ⟨true⟩ [figureBinding]) ∧
      figures.dependencies ["Label", "Circle", "Point", "Figure"] (.enum 1 figureVariants) =
        .ok ["Point", "Label"] ∧
      "Circle" ∉ figureBinding.references := by
  have hdefined : figures.get? "Figure" = some (.enum 1 figureVariants) := rfl
  have hform : figures.bindingForm "Figure" (.enum 1 figureVariants) =
      .ok figureBinding.form := by with_unfolding_all rfl
  have hemit : figures.emit ⟨true⟩ ["Figure"] = .ok (printModule ⟨true⟩ [figureBinding]) :=
    (emit_singleton_eq_ok_iff hdefined).mpr ⟨_, hform, rfl⟩
  have htargets : figures.dependencies ["Label", "Circle", "Point", "Figure"]
      (.enum 1 figureVariants) = .ok ["Point", "Label"] := by decide +kernel
  refine ⟨hdefined, hemit, htargets, fun hcircle => ?_⟩
  obtain ⟨form, targets, hform', -, htargets', hmem⟩ :=
    dependencies_eq_mentions ["Label", "Circle", "Point", "Figure"] hdefined hemit
  obtain rfl := Except.ok.inj (hform'.symm.trans hform)
  obtain rfl := Except.ok.inj (htargets'.symm.trans htargets)
  exact absurd ((hmem "Circle").mpr ⟨by simp, hcircle⟩) (by decide)

end Container

end WireBindings
