import WireBindings.Generate
import WireBindings.Proofs.Dependency.Resolve

/-!
# Declare before use

The text of a module can be read from top to bottom: wherever a block mentions the constant of a
nominal type, the block that introduces this constant has come before
(`generate_declares_before_use`).

Three parts have to fit for this. The order of the names is such that each stands after those it
depends on. The dependencies are found by reading what definitions contribute, while the blocks are
made by another walk, which writes payloads where they are carried; everything that this walk writes
down has been read by the other (`refersTo_of_bindingForm`). Finally the blocks are printed in the
order of the names, with none left out (`map_name_of_bindings`, `standsBefore_printModule`).
-/

namespace WireBindings

/-! ### Names and constants -/

/-- Different names have different constants. -/
theorem constantName_injective : Function.Injective constantName := by
  intro name other h
  rw [constantName, constantName, ← String.toList_inj, String.toList_append,
    String.toList_append] at h
  exact String.toList_inj.mp (List.append_cancel_right h)

/-! ### Places in a text -/

/-- The second text comes after the first in the whole text, and they do not overlap. -/
def StandsBefore (earlier later text : String) : Prop :=
  ∃ front middle back, text = front ++ earlier ++ middle ++ later ++ back

/-- The first of several texts stands in front. -/
theorem exists_intercalate_cons_eq (separator first : String) (rest : List String) :
    ∃ back, separator.intercalate (first :: rest) = first ++ back := by
  cases rest with
  | nil =>
    refine ⟨"", ?_⟩
    rw [String.intercalate_singleton, String.append_empty]
  | cons next rest =>
    refine ⟨separator ++ separator.intercalate (next :: rest), ?_⟩
    rw [String.intercalate_cons_cons, String.append_assoc]

/-- The blocks are printed in the order of the bindings. -/
theorem standsBefore_printModule {options : Options} {before after : List Binding}
    {earlier binding : Binding} (h : earlier ∈ before) :
    StandsBefore (earlier.print options) (binding.print options)
      (printModule options (before ++ binding :: after)) := by
  obtain ⟨front, between, rfl⟩ := List.append_of_mem h
  let block := Binding.print options
  obtain ⟨middle, hmiddle⟩ :=
    exists_intercalate_cons_eq "\n\n" (block earlier) (between.map block)
  obtain ⟨back, hback⟩ := exists_intercalate_cons_eq "\n\n" (block binding) (after.map block)
  -- the text is cut in front of the earlier block and in front of the later one
  have hblocks : preamble :: (front ++ earlier :: between ++ binding :: after).map block =
      (preamble :: front.map block) ++
        ((block earlier :: between.map block) ++ (block binding :: after.map block)) := by
    simp only [List.map_append, List.map_cons, List.append_assoc, List.cons_append]
  refine ⟨"\n\n".intercalate (preamble :: front.map block) ++ "\n\n", middle ++ "\n\n",
    back ++ "\n", ?_⟩
  show "\n\n".intercalate (preamble :: List.map block _) ++ "\n" = _
  rw [hblocks, String.intercalate_append_of_ne_nil (List.cons_ne_nil _ _) (by simp),
    String.intercalate_append_of_ne_nil (List.cons_ne_nil _ _) (List.cons_ne_nil _ _),
    hmiddle, hback]
  simp only [String.append_assoc]
  rfl

/-- What is found before the place of a later element is one of the elements before it. -/
theorem mem_of_idxOf_lt {before after : List String} {name other : String}
    (hfresh : name ∉ before)
    (h : (before ++ name :: after).idxOf other < (before ++ name :: after).idxOf name) :
    other ∈ before := by
  by_contra hother
  rw [List.idxOf_append_of_notMem hother, List.idxOf_append_of_notMem hfresh,
    List.idxOf_cons_self] at h
  exact Nat.not_lt.mpr (Nat.le_add_right _ _) h

namespace Container

variable {container : Container} {names : List String} {name other declaration : String}
  {type : TypeExpr}

/-! ### What a block mentions -/

/-- The emitter reads what declarations denote. -/
theorem readType_eq_ok_iff :
    readType declaration = .ok type ↔ TypeExpr.parse declaration = .ok type :=
  mapError_eq_ok_iff

/-- The types of fields are those that their declarations denote. -/
theorem exists_field_of_readFields {fields : List NamedField} {typed : List TypedField}
    (h : readFields fields = .ok typed) (hmem : type ∈ typed.map TypedField.type) :
    ∃ declaration ∈ (Fields.named fields).declarations,
      TypeExpr.parse declaration = .ok type := by
  obtain ⟨entry, hentry, rfl⟩ := List.mem_map.mp hmem
  obtain ⟨field, hfield, h⟩ := exists_left_of_mem (mapM_eq_ok_iff.mp h) hentry
  obtain ⟨value, hvalue, h⟩ := bind_eq_ok_iff.mp h
  cases h
  exact ⟨field.declaration, List.mem_map_of_mem hfield, readType_eq_ok_iff.mp hvalue⟩

/-- A case of an enum mentions nothing that the enum does not refer to. The cases are the rows of
the table of payloads. -/
theorem refersTo_of_payload {parent : String} {width : UInt8} {variants : List Variant}
    {variant : Variant} {payload : Payload} (hvariant : variant ∈ variants)
    (h : container.payload parent variant = .ok payload)
    (hmem : type ∈ payload.types) (hother : other ∈ type.references) :
    container.RefersTo (.enum width variants) other := by
  -- the unit type mentions nothing, wherever it comes from
  have hunit (h : Except.ok (Payload.value .unit) = (.ok payload : Except GenerationFault _)) :
      container.RefersTo (.enum width variants) other := by
    cases h
    rw [List.mem_singleton.mp hmem] at hother
    exact absurd hother List.not_mem_nil
  rw [Container.payload] at h
  split at h
  · exact hunit h
  · next hcarries =>
    split at h
    · next habsent =>
      obtain ⟨value, hvalue, rfl⟩ := map_eq_ok_iff.mp h
      rw [List.mem_singleton.mp hmem] at hother
      exact ⟨_, value, .undefined hvariant hcarries habsent, readType_eq_ok_iff.mp hvalue, hother⟩
    · exact hunit h
    · next only hdefined =>
      obtain ⟨value, hvalue, rfl⟩ := map_eq_ok_iff.mp h
      rw [List.mem_singleton.mp hmem] at hother
      exact ⟨only, value, .payload hvariant hcarries hdefined (.field List.mem_cons_self),
        readType_eq_ok_iff.mp hvalue, hother⟩
    · cases h
    · exact hunit h
    · next fields hdefined =>
      obtain ⟨typed, htyped, rfl⟩ := map_eq_ok_iff.mp h
      obtain ⟨declaration, hread, hparse⟩ := exists_field_of_readFields htyped hmem
      exact ⟨declaration, type, .payload hvariant hcarries hdefined (.field hread), hparse, hother⟩
    · cases h

/-- **A block mentions nothing that its definition does not refer to.** -/
theorem refersTo_of_bindingForm {definition : Definition} {form : BindingForm}
    (h : container.bindingForm name definition = .ok form)
    (hmem : type ∈ form.types) (hother : other ∈ type.references) :
    container.RefersTo definition other := by
  rw [bindingForm.eq_def] at h
  -- a struct with named fields, any other struct, an enum, and what has no block
  split at h
  · next fields =>
    obtain ⟨typed, htyped, rfl⟩ := map_eq_ok_iff.mp h
    obtain ⟨declaration, hread, hparse⟩ := exists_field_of_readFields htyped hmem
    exact ⟨declaration, type, .field hread, hparse, hother⟩
  · cases h
  · next width variants =>
    obtain ⟨cases, hcases, rfl⟩ := map_eq_ok_iff.mp h
    obtain ⟨entry, hentry, htype⟩ := List.mem_flatMap.mp hmem
    obtain ⟨variant, hvariant, hcase⟩ := exists_left_of_mem (mapM_eq_ok_iff.mp hcases) hentry
    obtain ⟨payload, hpayload, hcase⟩ := bind_eq_ok_iff.mp hcase
    cases hcase
    exact refersTo_of_payload hvariant hpayload htype hother
  · cases h

/-! ### The blocks of a list of names -/

/-- The defined names correspond to the bindings, one by one. -/
theorem forall₂_of_bindings {bindings : List Binding}
    (h : container.bindings names = .ok bindings) :
    List.Forall₂ (fun name binding => binding.name = name ∧
        ∃ definition, container.get? name = some definition ∧
          container.bindingForm name definition = .ok binding.form)
      (names.filter fun name => (container.get? name).isSome) bindings := by
  have hentries := mapM_eq_ok_iff.mp h
  clear h
  -- the names that are looked up in vain are left out on both sides
  induction names generalizing bindings with
  | nil =>
    rw [List.filterMap_nil, List.forall₂_nil_left_iff] at hentries
    subst hentries
    exact .nil
  | cons name names ih =>
    cases hfound : container.get? name with
    | none =>
      rw [List.filterMap_cons_none (by rw [hfound]; rfl)] at hentries
      rw [List.filter_cons_of_neg (by rw [hfound]; exact Bool.false_ne_true)]
      exact ih hentries
    | some definition =>
      rw [List.filterMap_cons_some (by rw [hfound]; rfl), List.forall₂_cons_left_iff] at hentries
      obtain ⟨binding, rest, hbinding, hrest, rfl⟩ := hentries
      obtain ⟨form, hform, hbinding⟩ := bind_eq_ok_iff.mp hbinding
      cases hbinding
      rw [List.filter_cons_of_pos (by rw [hfound]; rfl)]
      exact .cons ⟨rfl, definition, hfound, hform⟩ (ih hrest)

/-- The bindings are those of the defined names, in their order. -/
theorem map_name_eq_filter {bindings : List Binding} (h : container.bindings names = .ok bindings) :
    bindings.map Binding.name = names.filter fun name => (container.get? name).isSome := by
  -- names that correspond one by one are the same list
  rw [← List.forall₂_eq_eq_eq, List.forall₂_map_left_iff]
  exact ((forall₂_of_bindings h).imp fun _ _ hentry => hentry.1).flip

/-- If all names are defined, then none is left out. -/
theorem filter_eq_self_of_defined
    (hdefined : ∀ name ∈ names, ∃ definition, container.get? name = some definition) :
    (names.filter fun name => (container.get? name).isSome) = names :=
  List.filter_eq_self.mpr fun name hname => Option.isSome_iff_exists.mpr (hdefined name hname)

/-- If all names are defined, then the bindings are theirs, in their order. -/
theorem map_name_of_bindings {bindings : List Binding}
    (hdefined : ∀ name ∈ names, ∃ definition, container.get? name = some definition)
    (h : container.bindings names = .ok bindings) : bindings.map Binding.name = names := by
  rw [map_name_eq_filter h, filter_eq_self_of_defined hdefined]

/-- What a binding mentions is what its name mentions. -/
theorem mentions_of_mem_references {bindings : List Binding} {binding : Binding}
    (h : container.bindings names = .ok bindings) (hmem : binding ∈ bindings)
    (hother : other ∈ binding.references) : container.Mentions binding.name other := by
  obtain ⟨name, -, rfl, definition, hdefined, hform⟩ :=
    exists_left_of_mem (forall₂_of_bindings h) hmem
  obtain ⟨type, htype, hother⟩ := List.mem_flatMap.mp hother
  exact mentions_iff.mpr ⟨definition, hdefined, refersTo_of_bindingForm hform htype hother⟩

/-- Only what is defined is nominal. -/
theorem exists_definition_of_mem_nominalNames (h : name ∈ container.nominalNames) :
    ∃ definition, container.get? name = some definition := by
  obtain ⟨⟨_, definition⟩, hentry, rfl⟩ := List.mem_map.mp h
  exact ⟨definition, Definitions.get?_eq_some_iff.mpr (List.mem_filter.mp hentry).1⟩

/-! ### The order of the blocks -/

/-- A text is generated if the names can be put in order and all have blocks. -/
theorem generate_eq_ok_iff {options : Options} {text : String} :
    container.generate options = .ok text ↔
      ∃ names bindings, container.resolve container.nominalNames = .ok names ∧
        container.bindings names = .ok bindings ∧ printModule options bindings = text := by
  rw [generate, bind_eq_ok_iff]
  refine exists_congr fun names => ?_
  rw [emit, map_eq_ok_iff]
  exact ⟨fun ⟨h, bindings, hbindings⟩ => ⟨bindings, h, hbindings⟩,
    fun ⟨bindings, h, hbindings⟩ => ⟨h, bindings, hbindings⟩⟩

/-- **Declare before use.** In a text that is generated, each constant is introduced by one block,
and a block that mentions the constant of a nominal type comes after the one that introduces it. -/
theorem generate_declares_before_use {options : Options} {text : String}
    (h : container.generate options = .ok text) :
    ∃ names bindings, container.resolve container.nominalNames = .ok names ∧
      container.bindings names = .ok bindings ∧ text = printModule options bindings ∧
      (bindings.map fun binding => constantName binding.name).Nodup ∧
      ∀ before binding after, bindings = before ++ binding :: after →
        ∀ other ∈ binding.references, other ∈ container.nominalNames →
          ∃ earlier ∈ before, earlier.name = other ∧
            StandsBefore (earlier.print options) (binding.print options) text := by
  obtain ⟨names, bindings, hresolve, hbindings, rfl⟩ := generate_eq_ok_iff.mp h
  have hnodup := nodup_of_resolve hresolve
  have hnames : bindings.map Binding.name = names :=
    map_name_of_bindings
      (fun name hname =>
        exists_definition_of_mem_nominalNames ((mem_of_resolve hresolve).mp hname)) hbindings
  refine ⟨names, bindings, hresolve, hbindings, rfl, ?_, ?_⟩
  · rw [← hnames] at hnodup
    have hconstants := hnodup.map constantName_injective
    rwa [List.map_map] at hconstants
  · rintro before binding after rfl other hother hmem
    rw [List.map_append, List.map_cons] at hnames
    have hbinding : binding.name ∈ names := by
      rw [← hnames]
      exact List.mem_append_right _ List.mem_cons_self
    have hmentions : container.Mentions binding.name other :=
      mentions_of_mem_references hbindings (List.mem_append_right _ List.mem_cons_self) hother
    -- what is mentioned is a dependency, so it stands earlier among the names
    have hlt : names.idxOf other < names.idxOf binding.name :=
      idxOf_lt_of_resolve hresolve ⟨(mem_of_resolve hresolve).mp hbinding, hmem, hmentions⟩
    rw [← hnames] at hlt hnodup
    -- no name has two blocks, so the place of the block is that of its name
    have hfresh : binding.name ∉ before.map Binding.name := fun hname =>
      (List.nodup_append.mp hnodup).2.2 _ hname _ List.mem_cons_self rfl
    obtain ⟨earlier, hearlier, hname⟩ := List.mem_map.mp (mem_of_idxOf_lt hfresh hlt)
    exact ⟨earlier, hearlier, hname, standsBefore_printModule hearlier⟩

/-- The block of labels. -/
def labelBinding : Binding := ⟨"Label", .struct [⟨"text", .string⟩]⟩

/-- The block of items, with what a link carries. -/
def itemBinding : Binding :=
  ⟨"Item", .enum [⟨"Plain", .value .unit⟩,
    ⟨"Linked", .value (.tuple [.numeric "u8", .named "Label"])⟩]⟩

/-- The block of orders. -/
def orderBinding : Binding := ⟨"Order", .struct [⟨"items", .generic .vec [.named "Item"]⟩]⟩

/-- The items mention labels inside a payload, and their block comes after that of the labels. -/
theorem generate_linkedItems :
    linkedItems.generate ⟨true⟩ =
        .ok (printModule ⟨true⟩ [labelBinding, itemBinding, orderBinding]) ∧
      "Label" ∈ itemBinding.references ∧
      StandsBefore (labelBinding.print ⟨true⟩) (itemBinding.print ⟨true⟩)
        (printModule ⟨true⟩ [labelBinding, itemBinding, orderBinding]) := by
  have hnames : linkedItems.nominalNames = ["Order", "Item", "Label"] := rfl
  have hresolve : linkedItems.resolve linkedItems.nominalNames =
      .ok ["Label", "Item", "Order"] := by
    rw [hnames]
    decide +kernel
  have hbindings : linkedItems.bindings ["Label", "Item", "Order"] =
      .ok [labelBinding, itemBinding, orderBinding] := by with_unfolding_all rfl
  have hgenerate : linkedItems.generate ⟨true⟩ =
      .ok (printModule ⟨true⟩ [labelBinding, itemBinding, orderBinding]) :=
    generate_eq_ok_iff.mpr ⟨_, _, hresolve, hbindings, rfl⟩
  have hmem : "Label" ∈ itemBinding.references := List.mem_singleton_self _
  have hnominal : "Label" ∈ linkedItems.nominalNames :=
    (mem_of_resolve hresolve).mp List.mem_cons_self
  refine ⟨hgenerate, hmem, ?_⟩
  obtain ⟨names, bindings, hsorted, hblocks, -, -, hbefore⟩ :=
    generate_declares_before_use hgenerate
  obtain rfl := Except.ok.inj (hsorted.symm.trans hresolve)
  obtain rfl := Except.ok.inj (hblocks.symm.trans hbindings)
  obtain ⟨earlier, hearlier, -, hplace⟩ :=
    hbefore [labelBinding] itemBinding [orderBinding] rfl "Label" hmem hnominal
  rwa [List.mem_singleton.mp hearlier] at hplace

end Container

end WireBindings
