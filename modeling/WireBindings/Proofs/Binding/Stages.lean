import Mathlib.Data.List.Perm.Basic
import WireBindings.Proofs.Binding.Shape
import WireBindings.Proofs.Schema.Nominal

/-!
# Generation goes by stages

Whether bindings are generated for a schema, and by which fault if not, is decided in three stages
that are gone through for the whole schema one after the other (`generate_by_stages`):

* *reading*: some declaration that is read for a nominal name denotes no type;
* *ordering*: some nominal name depends on itself;
* *shaping*: some nominal name has a definition that cannot be declared, and the first such name in
  the resolved order is to blame.

If no stage fails, there is one block for each nominal name. The stages do not interfere: what is
emitted after the names have been resolved has been read before, so no declaration is at fault
any more (`type_fault_ne_of_emit`), and no name is passed over, because every nominal name is
defined.
-/

namespace WireBindings

namespace Container

open Relation

variable {container : Container} {names sorted : List String} {name : String}
  {options : Options} {fault : GenerationFault}

/-! ### Names that can be declared -/

/-- The name has a definition that can be declared. -/
def Declares (container : Container) (name : String) : Prop :=
  ∃ definition, container.get? name = some definition ∧ container.Declarable definition

/-- What a readable name contributes denotes types. -/
theorem contributesTypes_of_readable {definition : Definition}
    (hdefined : container.get? name = some definition) (h : container.Readable name) :
    container.ContributesTypes definition :=
  fun declaration hread => h declaration ⟨definition, hdefined, hread⟩

/-- A defined name can be declared, or there is a reason why not. -/
theorem exists_refuses_of_not_declares {definition : Definition}
    (hdefined : container.get? name = some definition) (h : ¬ container.Declares name) :
    ∃ fault, container.Refuses name definition fault := by
  refine (declarable_or_refuses container name definition).resolve_left fun hdeclarable => ?_
  exact h ⟨definition, hdefined, hdeclarable⟩

/-- What a block is made for is defined and can be declared. -/
theorem exists_entry {entry : String × Definition}
    (h : entry ∈ names.filterMap fun name => (container.get? name).map (name, ·)) :
    entry.1 ∈ names ∧ container.get? entry.1 = some entry.2 := by
  obtain ⟨name, hname, hentry⟩ := List.mem_filterMap.mp h
  obtain ⟨definition, hdefined, rfl⟩ := Option.map_eq_some_iff.mp hentry
  exact ⟨hname, hdefined⟩

/-- A readable name that can be declared gets its block. -/
theorem exists_block_of_declares {definition : Definition}
    (hdefined : container.get? name = some definition) (hreadable : container.Readable name)
    (h : container.Declares name) :
    ∃ binding, (do return ⟨name, ← container.bindingForm name definition⟩ :
      Except GenerationFault Binding) = .ok binding := by
  obtain ⟨found, hfound, hdeclarable⟩ := h
  obtain rfl : found = definition := Option.some.inj (hfound.symm.trans hdefined)
  obtain ⟨form, hform⟩ := exists_bindingForm_of_declarable name
    (contributesTypes_of_readable hdefined hreadable) hdeclarable
  exact ⟨⟨name, form⟩, by rw [hform]; rfl⟩

/-! ### The blocks of a list of names -/

/-- If all names can be declared, then all blocks are there. -/
theorem exists_bindings_of_declares (hreadable : ∀ name ∈ names, container.Readable name)
    (h : ∀ name ∈ names, container.Declares name) :
    ∃ bindings, container.bindings names = .ok bindings := by
  refine exists_mapM_eq_ok fun entry hentry => ?_
  obtain ⟨hname, hdefined⟩ := exists_entry hentry
  exact exists_block_of_declares hdefined (hreadable entry.1 hname) (h entry.1 hname)

/-- The first name that cannot be declared is to blame. -/
theorem bindings_eq_error_of_refuses {before after : List String} {definition : Definition}
    (hreadable : ∀ other ∈ before ++ name :: after, container.Readable other)
    (hbefore : ∀ early ∈ before, container.Declares early)
    (hdefined : container.get? name = some definition)
    (hrefused : container.Refuses name definition fault) :
    container.bindings (before ++ name :: after) = .error fault := by
  have htypes : container.ContributesTypes definition :=
    contributesTypes_of_readable hdefined
      (hreadable name (List.mem_append_right _ List.mem_cons_self))
  rw [bindings, List.filterMap_append, List.filterMap_cons_some (by rw [hdefined]; rfl)]
  -- the names before have blocks, and this one has a reason not to
  refine mapM_eq_error_iff.mpr ⟨_, _, _, rfl, fun early hearly => ?_, ?_⟩
  · obtain ⟨hname, hearlier⟩ := exists_entry hearly
    exact exists_block_of_declares hearlier
      (hreadable early.1 (List.mem_append_left _ hname)) (hbefore early.1 hname)
  · exact bind_eq_error_iff.mpr (.inl (hrefused.bindingForm_eq htypes))

/-! ### Nominal names -/

/-- The resolved names are the nominal names in another order. -/
theorem perm_nominalNames_of_resolve
    (h : container.resolve container.nominalNames = .ok sorted) :
    sorted.Perm container.nominalNames :=
  (List.perm_ext_iff_of_nodup (nodup_of_resolve h) container.nodup_nominalNames).mpr
    fun _ => mem_of_resolve h

/-- Sequences and primitives are synthetic, so a nominal name that has no form in the bindings for
its kind is that of a tuple. -/
theorem kind_eq_tuple_of_refuses {definition : Definition} {other : String} {kind : Kind}
    (hname : name ∈ container.nominalNames) (hdefined : container.get? name = some definition)
    (h : container.Refuses name definition (.undeclarable other kind)) : kind = .tuple := by
  obtain ⟨⟨_, found⟩, hentry, rfl⟩ := List.mem_map.mp hname
  obtain ⟨hmem, hnominal⟩ := List.mem_filter.mp hentry
  obtain rfl : found = definition :=
    Option.some.inj ((Definitions.get?_eq_some_iff.mpr hmem).symm.trans hdefined)
  -- of all conditions on a nominal name, those on the kind of its definition are the last two
  simp only [isSynthetic, Bool.and_eq_true, Bool.not_eq_true', Bool.or_eq_false_iff] at hnominal
  obtain ⟨-, ⟨-, hsequence⟩, hprimitive⟩ := hnominal
  cases h with
  | kind hstruct henum =>
    cases found with
    | tuple elements => rfl
    | struct fields => exact absurd rfl hstruct
    | enum width variants => exact absurd rfl henum
    | primitive size => cases hprimitive
    | sequence width lengths elements => cases hsequence

/-! ### Stages -/

/-- What has been resolved has no circle. -/
theorem no_circle_of_resolve (h : container.resolve names = .ok sorted) :
    ¬ ∃ name, TransGen (container.DependsOn names) name name := by
  rintro ⟨name, hcircle⟩
  exact not_circular_of_resolve h hcircle

/-- If no name depends on itself, readable names are resolved. -/
theorem exists_resolve_of_not_circular (hreadable : ∀ name ∈ names, container.Readable name)
    (hcircle : ¬ ∃ name, TransGen (container.DependsOn names) name name) :
    ∃ sorted, container.resolve names = .ok sorted := by
  -- readable names fail by a circle only
  cases h : container.resolve names with
  | ok sorted => exact ⟨sorted, rfl⟩
  | error fault =>
    obtain ⟨name, -, hname⟩ := circular_of_resolve hreadable h
    exact absurd ⟨name, hname⟩ hcircle

/-- What is generated is emitted for the resolved names. -/
theorem generate_of_resolve (h : container.resolve container.nominalNames = .ok sorted) :
    container.generate options = container.emit options sorted := by
  rw [generate, h]
  rfl

/-- Without an order there is no text. -/
theorem generate_of_resolve_error (h : container.resolve container.nominalNames = .error fault) :
    container.generate options = .error fault := by
  rw [generate, h]
  rfl

/-- All that is read for resolved names denotes types. -/
theorem readable_of_mem_resolve (h : container.resolve names = .ok sorted) :
    ∀ name ∈ sorted, container.Readable name :=
  fun name hname => readable_of_resolve h name ((mem_of_resolve h).mp hname)

/-- **Shaping, if it fails**: the first resolved name that cannot be declared is to blame. -/
theorem emit_eq_error_of_not_declares (options : Options)
    (h : container.resolve container.nominalNames = .ok sorted)
    (hshape : ¬ ∀ name ∈ sorted, container.Declares name) :
    ∃ before name after definition fault, sorted = before ++ name :: after ∧
      (∀ early ∈ before, container.Declares early) ∧ ¬ container.Declares name ∧
      container.get? name = some definition ∧ container.Refuses name definition fault ∧
      container.emit options sorted = .error fault := by
  obtain ⟨before, name, after, rfl, hbefore, hname⟩ := exists_first_of_not_forall hshape
  have hnominal : name ∈ container.nominalNames :=
    (mem_of_resolve h).mp (List.mem_append_right _ List.mem_cons_self)
  obtain ⟨definition, hdefined⟩ := exists_definition_of_mem_nominalNames hnominal
  obtain ⟨fault, hrefused⟩ := exists_refuses_of_not_declares hdefined hname
  refine ⟨before, name, after, definition, fault, rfl, hbefore, hname, hdefined, hrefused, ?_⟩
  rw [emit, bindings_eq_error_of_refuses (readable_of_mem_resolve h) hbefore hdefined hrefused]
  rfl

/-- **Shaping, if it succeeds**: there is one block for each resolved name, in order. -/
theorem emit_eq_ok_of_declares (options : Options)
    (h : container.resolve container.nominalNames = .ok sorted)
    (hshape : ∀ name ∈ sorted, container.Declares name) :
    ∃ bindings, container.bindings sorted = .ok bindings ∧
      bindings.map Binding.name = sorted ∧
      container.emit options sorted = .ok (printModule options bindings) := by
  obtain ⟨bindings, hbindings⟩ := exists_bindings_of_declares (readable_of_mem_resolve h) hshape
  have hnames : bindings.map Binding.name = sorted :=
    map_name_of_bindings
      (fun name hname => (hshape name hname).imp fun definition hdefinition => hdefinition.1)
      hbindings
  refine ⟨bindings, hbindings, hnames, ?_⟩
  rw [emit, hbindings]
  rfl

/-- **No declaration is at fault once the names are resolved.** -/
theorem type_fault_ne_of_emit {early : TypeFault}
    (h : container.resolve container.nominalNames = .ok sorted) :
    container.emit options sorted ≠ .error (.type early) := by
  intro hfails
  -- either all names have blocks, or the fault is that of a refusal
  by_cases hshape : ∀ name ∈ sorted, container.Declares name
  · obtain ⟨_, -, -, hemit⟩ := emit_eq_ok_of_declares options h hshape
    rw [hemit] at hfails
    cases hfails
  · obtain ⟨_, _, _, _, _, -, -, -, -, hrefused, hemit⟩ :=
      emit_eq_error_of_not_declares options h hshape
    rw [hemit] at hfails
    cases hfails
    cases hrefused

/-- **Reading, if it fails**: a declaration is to blame. -/
theorem generate_of_not_readable (options : Options)
    (h : ¬ ∀ name ∈ container.nominalNames, container.Readable name) :
    ∃ fault, container.generate options = .error (.type fault) := by
  obtain ⟨_, _, _, -, -, -, _, fault, -, -, hfails⟩ := type_fault_of_resolve h
  exact ⟨fault, generate_of_resolve_error hfails⟩

/-- **Ordering, if it fails**: a circle is to blame. -/
theorem generate_of_circular (options : Options)
    (hreadable : ∀ name ∈ container.nominalNames, container.Readable name)
    (hcircle : ∃ name, TransGen (container.DependsOn container.nominalNames) name name) :
    ∃ name, container.generate options = .error (.circular name) := by
  obtain ⟨name, hcircle⟩ := hcircle
  -- what is on a circle is never resolved
  cases h : container.resolve container.nominalNames with
  | ok sorted => exact absurd hcircle (not_circular_of_resolve h)
  | error fault =>
    obtain ⟨other, rfl, -⟩ := circular_of_resolve hreadable h
    exact ⟨other, generate_of_resolve_error h⟩

/-- What holds of all nominal names holds of all resolved names, and the other way round. -/
theorem forall_mem_nominalNames_iff (h : container.resolve container.nominalNames = .ok sorted)
    {P : String → Prop} : (∀ name ∈ container.nominalNames, P name) ↔ ∀ name ∈ sorted, P name :=
  forall_congr' fun _ => imp_congr_left (mem_of_resolve h).symm

/-- **Generation goes by stages.** It fails in reading if some declaration that is read for a
nominal name denotes no type; else in ordering if there is a circle among the nominal names; else in
shaping if some nominal name cannot be declared, by the fault of the first such name in the resolved
order; and else the text is the preamble and one block for each nominal name. Once the names are
resolved, no declaration is at fault any more. -/
theorem generate_by_stages (container : Container) (options : Options) :
    ((¬ ∀ name ∈ container.nominalNames, container.Readable name) →
      ∃ fault, container.generate options = .error (.type fault)) ∧
    ((∀ name ∈ container.nominalNames, container.Readable name) →
      ((∃ name, TransGen (container.DependsOn container.nominalNames) name name) →
        ∃ name, container.generate options = .error (.circular name)) ∧
      ((¬ ∃ name, TransGen (container.DependsOn container.nominalNames) name name) →
        ∃ sorted, container.resolve container.nominalNames = .ok sorted ∧
          ((¬ ∀ name ∈ container.nominalNames, container.Declares name) →
            ∃ before name after definition fault, sorted = before ++ name :: after ∧
              (∀ early ∈ before, container.Declares early) ∧ ¬ container.Declares name ∧
              container.get? name = some definition ∧ container.Refuses name definition fault ∧
              (∀ other kind, fault = .undeclarable other kind → kind = .tuple) ∧
              container.generate options = .error fault) ∧
          ((∀ name ∈ container.nominalNames, container.Declares name) →
            ∃ bindings, container.bindings sorted = .ok bindings ∧
              bindings.map Binding.name = sorted ∧ sorted.Nodup ∧
              sorted.Perm container.nominalNames ∧ container.generate options =
                .ok ("\n\n".intercalate (preamble :: bindings.map (Binding.print options))
                  ++ "\n")))) ∧
    ∀ sorted fault, container.resolve container.nominalNames = .ok sorted →
      container.emit options sorted ≠ .error (.type fault) := by
  refine ⟨generate_of_not_readable options, fun hreadable =>
    ⟨generate_of_circular options hreadable, fun hcircle => ?_⟩,
    fun sorted fault h => type_fault_ne_of_emit h⟩
  -- everything is read and there is no circle: the names come out in order, and blocks are left
  obtain ⟨sorted, h⟩ := exists_resolve_of_not_circular hreadable hcircle
  rw [forall_mem_nominalNames_iff h]
  refine ⟨sorted, h, fun hshape => ?_, fun hshape => ?_⟩
  · obtain ⟨before, name, after, definition, fault, hsplit, hbefore, hname, hdefined, hrefused,
      hemit⟩ := emit_eq_error_of_not_declares options h hshape
    refine ⟨before, name, after, definition, fault, hsplit, hbefore, hname, hdefined, hrefused, ?_,
      (generate_of_resolve h).trans hemit⟩
    rintro other kind rfl
    -- a resolved name is nominal, so its kind is not that of a sequence or a primitive
    have hmem : name ∈ sorted := by
      rw [hsplit]
      exact List.mem_append_right _ List.mem_cons_self
    exact kind_eq_tuple_of_refuses ((mem_of_resolve h).mp hmem) hdefined hrefused
  · obtain ⟨bindings, hbindings, hnames, hemit⟩ := emit_eq_ok_of_declares options h hshape
    exact ⟨bindings, hbindings, hnames, nodup_of_resolve h, perm_nominalNames_of_resolve h,
      (generate_of_resolve h).trans hemit⟩

/-- Orders, items and labels are nominal, and each stands after what it mentions. -/
theorem resolve_nominalNames_linkedItems :
    linkedItems.resolve linkedItems.nominalNames = .ok ["Label", "Item", "Order"] := by
  show linkedItems.resolve ["Order", "Item", "Label"] = _
  decide +kernel

/-- Orders of items, with a definition of labels to be filled in. -/
def labelledItems (label : Definition) : Container := linkedItems.insert "Label" label

/-- Everything that has a block among the orders can be declared: a link carries a single field. -/
theorem declares_linkedItems (h : name ∈ linkedItems.nominalNames) : linkedItems.Declares name := by
  have horder : linkedItems.get? "Order" = some (.struct (.named [⟨"items", "Vec<Item>"⟩])) := rfl
  have hitem : linkedItems.get? "Item" =
      some (.enum 1 [⟨0, "Plain", "()"⟩, ⟨1, "Linked", "Link"⟩]) := by decide +kernel
  have hlink : linkedItems.get? "Link" = some (.struct (.unnamed ["(u8, Label)"])) := rfl
  have hlabel : linkedItems.get? "Label" = some (.struct (.named [⟨"text", "String"⟩])) := rfl
  have hcases : ∀ variant ∈ [(⟨0, "Plain", "()"⟩ : Variant), ⟨1, "Linked", "Link"⟩],
      linkedItems.Writable variant :=
    List.forall_mem_cons.mpr ⟨.inl rfl, List.forall_mem_singleton.mpr
      (.inr (.inr ⟨_, hlink, Nat.le_refl 1⟩))⟩
  have hnames : ∀ name ∈ ["Order", "Item", "Label"], linkedItems.Declares name :=
    List.forall_mem_cons.mpr ⟨⟨_, horder, trivial⟩, List.forall_mem_cons.mpr
      ⟨⟨_, hitem, hcases⟩, List.forall_mem_singleton.mpr ⟨_, hlabel, trivial⟩⟩⟩
  exact hnames name h

/-- Labels that no declaration spells, that hold items in turn, and that are pairs: each of them
makes another stage fail. The last stage blames the labels, which come first in the resolved order,
although the items that mention them were asked for before. With labels that are structs there is
a block for each name. -/
theorem generate_labelledItems :
    (∃ fault, (labelledItems (.struct (.named [⟨"text", "Vec<"⟩]))).generate ⟨true⟩ =
      .error (.type fault)) ∧
    (∃ name, (labelledItems (.struct (.named [⟨"item", "Item"⟩]))).generate ⟨true⟩ =
      .error (.circular name)) ∧
    (∃ fault, (labelledItems (.tuple ["u8", "u8"])).Refuses "Label" (.tuple ["u8", "u8"]) fault ∧
      (labelledItems (.tuple ["u8", "u8"])).generate ⟨true⟩ = .error fault) ∧
    ∃ bindings : List Binding, bindings.map Binding.name = ["Label", "Item", "Order"] ∧
      linkedItems.generate ⟨true⟩ = .ok ("\n\n".intercalate
        (preamble :: bindings.map (Binding.print ⟨true⟩)) ++ "\n") := by
  refine ⟨?_, ?_, ?_, ?_⟩
  · refine (generate_by_stages _ _).1 fun hreadable => ?_
    have h : (labelledItems (.struct (.named [⟨"text", "Vec<"⟩]))).resolve
        ["Order", "Item", "Label"] = .error (.type (.malformed "Vec<" .unclosedArguments)) := by
          decide +kernel
    obtain ⟨name, hname, -⟩ := circular_of_resolve hreadable h
    cases hname
  · have h : (labelledItems (.struct (.named [⟨"item", "Item"⟩]))).resolve
        ["Order", "Item", "Label"] = .error (.circular "Item") := by decide +kernel
    have hreadable : ∀ name ∈ ["Order", "Item", "Label"],
        (labelledItems (.struct (.named [⟨"item", "Item"⟩]))).Readable name := by
      refine readable_of_no_type_fault fun early hfails => ?_
      rw [h] at hfails
      cases hfails
    obtain ⟨name, -, hcircle⟩ := circular_of_resolve hreadable h
    exact ((generate_by_stages (labelledItems (.struct (.named [⟨"item", "Item"⟩]))) ⟨true⟩).2.1
      hreadable).1 ⟨name, hcircle⟩
  · have h : (labelledItems (.tuple ["u8", "u8"])).resolve ["Order", "Item", "Label"] =
        .ok ["Label", "Item", "Order"] := by decide +kernel
    have hlabel : (labelledItems (.tuple ["u8", "u8"])).get? "Label" =
        some (.tuple ["u8", "u8"]) := by decide +kernel
    have hrefused : ¬ (labelledItems (.tuple ["u8", "u8"])).Declares "Label" := by
      rintro ⟨definition, hdefined, hdeclarable⟩
      cases hlabel.symm.trans hdefined
      exact hdeclarable
    obtain ⟨sorted, hsorted, hshape, -⟩ :=
      ((generate_by_stages (labelledItems (.tuple ["u8", "u8"])) ⟨true⟩).2.1
        (readable_of_resolve h)).2 (no_circle_of_resolve h)
    obtain rfl := Except.ok.inj (h.symm.trans hsorted)
    obtain ⟨before, name, after, definition, fault, hsplit, hbefore, -, hdefined, hfault, -,
      hgenerate⟩ := hshape fun hall => hrefused (hall "Label" (by decide))
    -- the labels stand first and cannot be declared, so nothing comes before them
    cases before with
    | cons early before =>
      obtain ⟨rfl, -⟩ := List.cons.inj hsplit
      exact absurd (hbefore "Label" List.mem_cons_self) hrefused
    | nil =>
      obtain ⟨rfl, -⟩ := List.cons.inj hsplit
      cases hlabel.symm.trans hdefined
      exact ⟨fault, hfault, hgenerate⟩
  · have h := resolve_nominalNames_linkedItems
    obtain ⟨sorted, hsorted, -, hshape⟩ :=
      ((generate_by_stages linkedItems ⟨true⟩).2.1 (readable_of_resolve h)).2
        (no_circle_of_resolve h)
    obtain rfl := Except.ok.inj (h.symm.trans hsorted)
    obtain ⟨bindings, -, hnames, -, -, hgenerate⟩ := hshape fun _ => declares_linkedItems
    exact ⟨bindings, hnames, hgenerate⟩

end Container

end WireBindings
