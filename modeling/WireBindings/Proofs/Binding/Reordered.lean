import WireBindings.Proofs.Binding.Alike
import WireBindings.Proofs.Wire.Canonical

/-!
# The order of definitions

Two schemas that define the same names in the same way, in whatever order, have the same bindings up
to the order of the blocks, or both have none and fail in the same stage
(`generate_regardless_of_order`). A schema that travels as octets arrives in ascending order, so
making the bindings before or after the travel is the same in this sense.

Nearly all that decides about the bindings looks definitions up by name: what a definition
contributes, what depends on what, what can be declared and what its block is. None of this sees the
order. What does go through the definitions in order is the search for nominal names, and there the
order shows in the order of the names only (`perm_nominalNames`).
-/

namespace WireBindings

/-- The stages of generation. -/
inductive Stage where
  /-- Declarations are read. -/
  | reading
  /-- Names are put in order. -/
  | ordering
  /-- Definitions get the form of a block. -/
  | shaping
deriving DecidableEq, Repr

/-- The stage in which a fault arises. -/
def GenerationFault.stage : GenerationFault → Stage
  | type _ => .reading
  | circular _ => .ordering
  | unsupportedShape _ _ _ => .shaping
  | undeclarable _ _ => .shaping

namespace Container

open Relation

variable {container a b : Container} {stage : Stage} {name other declaration : String}
  {definition : Definition} {nominal nominal' : List String} {blocks blocks' : List Binding}

/-! ### Blocks, or a stage that fails -/

/-- These are the blocks that the schema gets, in their order. -/
def HasBlocks (container : Container) (blocks : List Binding) : Prop :=
  ∃ sorted, container.resolve container.nominalNames = .ok sorted ∧
    container.bindings sorted = .ok blocks

/-- Generation fails in the stage, and in none before. -/
inductive FailsIn (container : Container) : Stage → Prop
  | reading (hunreadable : ¬ ∀ name ∈ container.nominalNames, container.Readable name) :
      FailsIn container .reading
  | ordering (hreadable : ∀ name ∈ container.nominalNames, container.Readable name)
      (hcircle : ∃ name, TransGen (container.DependsOn container.nominalNames) name name) :
      FailsIn container .ordering
  | shaping (hreadable : ∀ name ∈ container.nominalNames, container.Readable name)
      (hnone : ¬ ∃ name, TransGen (container.DependsOn container.nominalNames) name name)
      (hrefused : ¬ ∀ name ∈ container.nominalNames, container.Declares name) :
      FailsIn container .shaping

/-- The text of a schema is that of its blocks. -/
theorem HasBlocks.generate_eq (h : container.HasBlocks blocks) (options : Options) :
    container.generate options = .ok (printModule options blocks) := by
  obtain ⟨sorted, hsorted, hblocks⟩ := h
  exact generate_eq_ok_iff.mpr ⟨sorted, blocks, hsorted, hblocks, rfl⟩

/-- There is one list of blocks. -/
theorem HasBlocks.unique (h : container.HasBlocks blocks) (h' : container.HasBlocks blocks') :
    blocks = blocks' := by
  obtain ⟨sorted, hsorted, hblocks⟩ := h
  obtain ⟨sorted', hsorted', hblocks'⟩ := h'
  obtain rfl := Except.ok.inj (hsorted.symm.trans hsorted')
  exact Except.ok.inj (hblocks.symm.trans hblocks')

/-- The blocks stand in the resolved order, with none left out. -/
theorem HasBlocks.resolve_eq (h : container.HasBlocks blocks) :
    container.resolve container.nominalNames = .ok (blocks.map Binding.name) := by
  obtain ⟨sorted, hsorted, hblocks⟩ := h
  rw [hsorted, map_name_of_bindings (fun name hname =>
    exists_definition_of_mem_nominalNames ((mem_of_resolve hsorted).mp hname)) hblocks]

/-- Exactly the nominal names have a block. -/
theorem HasBlocks.mem_map_name_iff (h : container.HasBlocks blocks) :
    name ∈ blocks.map Binding.name ↔ name ∈ container.nominalNames :=
  mem_of_resolve h.resolve_eq

/-- Refusals belong to the last stage. -/
theorem Refuses.stage_eq {fault : GenerationFault} (h : container.Refuses name definition fault) :
    fault.stage = .shaping := by
  cases h with
  | fields => rfl
  | variant => rfl
  | kind => rfl

/-- A stage that fails has a fault of its own. -/
theorem FailsIn.generate_eq (h : container.FailsIn stage) (options : Options) :
    ∃ fault, container.generate options = .error fault ∧ fault.stage = stage := by
  -- each stage finds that those before it have succeeded
  cases h with
  | reading hunreadable =>
    obtain ⟨fault, hfails⟩ := generate_of_not_readable options hunreadable
    exact ⟨_, hfails, rfl⟩
  | ordering hreadable hcircle =>
    obtain ⟨name, hfails⟩ := generate_of_circular options hreadable hcircle
    exact ⟨_, hfails, rfl⟩
  | shaping hreadable hcircle hshape =>
    obtain ⟨sorted, h⟩ := exists_resolve_of_not_circular hreadable hcircle
    rw [forall_mem_nominalNames_iff h] at hshape
    obtain ⟨_, _, _, _, fault, -, -, -, -, hrefused, hemit⟩ :=
      emit_eq_error_of_not_declares options h hshape
    exact ⟨fault, (generate_of_resolve h).trans hemit, hrefused.stage_eq⟩

/-- **There is a stage that fails, or there are blocks.** -/
theorem failsIn_or_hasBlocks (container : Container) :
    (∃ stage, container.FailsIn stage) ∨ ∃ blocks, container.HasBlocks blocks := by
  -- the stages are tried in their order, and the first that fails is the one
  by_cases hreadable : ∀ name ∈ container.nominalNames, container.Readable name
  · by_cases hcircle : ∃ name, TransGen (container.DependsOn container.nominalNames) name name
    · exact .inl ⟨_, .ordering hreadable hcircle⟩
    · by_cases hshape : ∀ name ∈ container.nominalNames, container.Declares name
      · obtain ⟨sorted, h⟩ := exists_resolve_of_not_circular hreadable hcircle
        rw [forall_mem_nominalNames_iff h] at hshape
        obtain ⟨blocks, hblocks⟩ := exists_bindings_of_declares (readable_of_mem_resolve h) hshape
        exact .inr ⟨blocks, sorted, h, hblocks⟩
      · exact .inl ⟨_, .shaping hreadable hcircle hshape⟩
  · exact .inl ⟨_, .reading hreadable⟩

/-! ### What looks definitions up does not see their order -/

section SameDefinitions

variable (hsame : ∀ name, a.get? name = b.get? name)

include hsame

/-- With the same look-ups, the two schemas agree on all names there are. -/
theorem agreesOn_of_same : AgreesOn (fun _ => True) a b :=
  .of_get?_eq (fun name _ => hsame name) fun _ _ _ _ => trivial

/-- The same is read for each name. -/
theorem readFor_iff_of_same : a.ReadFor name declaration ↔ b.ReadFor name declaration := by
  rw [ReadFor, ReadFor, hsame name]
  refine exists_congr fun definition => and_congr_right fun _ => ?_
  -- what contributes to a definition is what the walk reads for it, and the walks are the same
  rw [← mem_declarationsRead_iff, ← mem_declarationsRead_iff,
    (agreesOn_of_same hsame).declarationsRead_eq (.refl definition) fun _ _ => trivial]

theorem readable_iff_of_same : a.Readable name ↔ b.Readable name :=
  forall_congr' fun _ => imp_congr_left (readFor_iff_of_same hsame)

theorem mentions_iff_of_same : a.Mentions name other ↔ b.Mentions name other :=
  exists_congr fun _ => exists_congr fun _ => and_congr_left' (readFor_iff_of_same hsame)

theorem writable_iff_of_same {variant : Variant} : a.Writable variant ↔ b.Writable variant := by
  rw [Writable, Writable, hsame]

/-- The same definitions can be declared. -/
theorem declarable_iff_of_same : a.Declarable definition ↔ b.Declarable definition := by
  cases definition with
  | enum width variants =>
    exact forall_congr' fun _ => forall_congr' fun _ => writable_iff_of_same hsame
  | struct fields => cases fields <;> exact Iff.rfl
  | primitive size => exact Iff.rfl
  | sequence width lengths elements => exact Iff.rfl
  | tuple elements => exact Iff.rfl

theorem declares_iff_of_same : a.Declares name ↔ b.Declares name := by
  rw [Declares, Declares, hsame name]
  exact exists_congr fun _ => and_congr_right fun _ => declarable_iff_of_same hsame

theorem bindings_eq_of_same : a.bindings = b.bindings :=
  funext fun _ => (agreesOn_of_same hsame).bindings_eq fun _ _ => trivial

/-! ### What goes through the definitions in order -/

/-- The nominal names are the same, in another order. -/
theorem perm_nominalNames_of_same : a.nominalNames.Perm b.nominalNames :=
  perm_nominalNames (Definitions.perm_entries_iff.mpr hsame)

/-- What is so of all nominal names of the one schema is so of those of the other. -/
theorem forall_mem_nominalNames_iff_of_same {P Q : String → Prop} (h : ∀ name, P name ↔ Q name) :
    (∀ name ∈ a.nominalNames, P name) ↔ ∀ name ∈ b.nominalNames, Q name :=
  forall_congr' fun name => imp_congr (perm_nominalNames_of_same hsame).mem_iff (h name)

/-- The dependencies among the nominal names are the same. -/
theorem dependsOn_eq_of_same : a.DependsOn a.nominalNames = b.DependsOn b.nominalNames := by
  have hmem {name : String} : name ∈ a.nominalNames ↔ name ∈ b.nominalNames :=
    (perm_nominalNames_of_same hsame).mem_iff
  ext name other
  exact and_congr hmem (and_congr hmem (mentions_iff_of_same hsame))

/-! ### The outcome -/

/-- **The same stage fails.** -/
theorem FailsIn.of_same (h : a.FailsIn stage) : b.FailsIn stage := by
  have hreadable : (∀ name ∈ a.nominalNames, a.Readable name) ↔
      ∀ name ∈ b.nominalNames, b.Readable name :=
    forall_mem_nominalNames_iff_of_same hsame fun _ => readable_iff_of_same hsame
  have hdeclares : (∀ name ∈ a.nominalNames, a.Declares name) ↔
      ∀ name ∈ b.nominalNames, b.Declares name :=
    forall_mem_nominalNames_iff_of_same hsame fun _ => declares_iff_of_same hsame
  have hdepends := dependsOn_eq_of_same hsame
  -- what has succeeded in the one schema succeeds in the other, and what fails fails
  cases h with
  | reading hunreadable => exact .reading (hreadable.not.mp hunreadable)
  | ordering hread hcircle => exact .ordering (hreadable.mp hread) (hdepends ▸ hcircle)
  | shaping hread hcircle hshape =>
    exact .shaping (hreadable.mp hread) (hdepends ▸ hcircle) (hdeclares.not.mp hshape)

/-- The resolved names are the nominal names, so their blocks are the same, in another order. -/
theorem HasBlocks.perm_of_same (h : a.HasBlocks blocks) (h' : b.HasBlocks blocks') :
    blocks.Perm blocks' := by
  obtain ⟨sorted, hsorted, hblocks⟩ := h
  obtain ⟨sorted', hsorted', hblocks'⟩ := h'
  have hperm : sorted.Perm sorted' := (perm_nominalNames_of_resolve hsorted).trans
    ((perm_nominalNames_of_same hsame).trans (perm_nominalNames_of_resolve hsorted').symm)
  -- both lists of blocks are made by one and the same function, from the same names
  rw [bindings_eq_of_same hsame] at hblocks
  exact perm_of_mapM (hperm.filterMap _) hblocks hblocks'

/-- Both have blocks, the same up to their order, or both fail in the same stage. -/
theorem generate_of_same (options : Options) :
    (∃ blocks blocks', a.HasBlocks blocks ∧ b.HasBlocks blocks' ∧ blocks.Perm blocks' ∧
      a.generate options = .ok (printModule options blocks) ∧
      b.generate options = .ok (printModule options blocks')) ∨
    ∃ fault fault', a.generate options = .error fault ∧ b.generate options = .error fault' ∧
      fault.stage = fault'.stage := by
  rcases failsIn_or_hasBlocks a with ⟨stage, hfails⟩ | ⟨blocks, hblocks⟩
  · obtain ⟨fault, hfault, hstage⟩ := hfails.generate_eq options
    obtain ⟨fault', hfault', hstage'⟩ := (hfails.of_same hsame).generate_eq options
    exact .inr ⟨fault, fault', hfault, hfault', hstage.trans hstage'.symm⟩
  · rcases failsIn_or_hasBlocks b with ⟨stage, hfails⟩ | ⟨blocks', hblocks'⟩
    · -- then the first schema would fail as well, but it has blocks
      obtain ⟨fault, hfault, -⟩ :=
        (hfails.of_same fun name => (hsame name).symm).generate_eq options
      rw [hblocks.generate_eq options] at hfault
      cases hfault
    · exact .inl ⟨blocks, blocks', hblocks, hblocks', hblocks.perm_of_same hsame hblocks',
        hblocks.generate_eq options, hblocks'.generate_eq options⟩

end SameDefinitions

/-! ### Schemas as octets -/

/-- A schema that travels as octets gets the bindings of the schema in ascending order. -/
theorem compile_encode (h : Wire.ContainerFits container) (options : Options) :
    compile options (Wire.encode container) = (Container.generate
      ⟨container.declaration, container.definitions.sorted⟩ options).mapError .generation := by
  rw [compile, decodeContainer_eq_ok_iff.mpr (Wire.decode_encode h)]
  rfl

/-- **The order of definitions affects only the order of blocks.** Schemas that define the same
names in the same way have texts with the same blocks, up to their order, or both have none and fail
in the same stage. So do a schema and what arrives when it travels as octets. -/
theorem generate_regardless_of_order (options : Options) :
    (∀ a b : Container, (∀ name, a.get? name = b.get? name) →
      (∃ blocks blocks', a.HasBlocks blocks ∧ b.HasBlocks blocks' ∧ blocks.Perm blocks' ∧
        a.generate options = .ok (printModule options blocks) ∧
        b.generate options = .ok (printModule options blocks')) ∨
      ∃ fault fault', a.generate options = .error fault ∧ b.generate options = .error fault' ∧
        fault.stage = fault'.stage) ∧
    ∀ container : Container, Wire.ContainerFits container →
      (∃ blocks blocks', container.HasBlocks blocks ∧ blocks.Perm blocks' ∧
        container.generate options = .ok (printModule options blocks) ∧
        compile options (Wire.encode container) = .ok (printModule options blocks')) ∨
      ∃ fault fault', container.generate options = .error fault ∧
        compile options (Wire.encode container) = .error (.generation fault') ∧
        fault.stage = fault'.stage := by
  refine ⟨fun a b hsame => generate_of_same hsame options, fun container hfits => ?_⟩
  -- on its way a schema changes nothing but the order of its definitions
  have hsorted (name : String) : container.get? name =
      Container.get? ⟨container.declaration, container.definitions.sorted⟩ name :=
    Definitions.get?_sorted.symm
  rw [compile_encode hfits]
  rcases generate_of_same hsorted options with
    ⟨blocks, blocks', hblocks, -, hperm, hgenerate, hgenerate'⟩ |
    ⟨fault, fault', hfault, hfault', hstage⟩
  · exact .inl ⟨blocks, blocks', hblocks, hperm, hgenerate, by rw [hgenerate']; rfl⟩
  · exact .inr ⟨fault, fault', hfault, by rw [hfault']; rfl, hstage⟩

/-- The blocks of the orders of items, in the order of declaration. -/
theorem hasBlocks_linkedItems :
    linkedItems.HasBlocks [labelBinding, itemBinding, orderBinding] :=
  ⟨_, resolve_nominalNames_linkedItems, by with_unfolding_all rfl⟩

/-- A family is circular. -/
theorem resolve_nominalNames_family :
    (family "String").resolve (family "String").nominalNames = .error (.circular "Parent") := by
  show (family "String").resolve ["House", "Parent", "Child"] = _
  decide +kernel

/-- The orders of items with the definitions the other way round. -/
def reversedItems : Container :=
  { linkedItems with
    definitions := Definitions.ofEntries linkedItems.definitions.entries.reverse }

/-- The items get the same blocks either way. A circle is found either way, too. -/
theorem generate_reversedItems :
    (∃ blocks, reversedItems.HasBlocks blocks ∧
      [labelBinding, itemBinding, orderBinding].Perm blocks ∧
      reversedItems.generate ⟨true⟩ = .ok (printModule ⟨true⟩ blocks)) ∧
    ∃ fault, compile ⟨true⟩ (Wire.encode (family "String")) = .error (.generation fault) ∧
      fault.stage = .ordering := by
  constructor
  · have hsame : ∀ name, linkedItems.get? name = reversedItems.get? name :=
      Definitions.perm_entries_iff.mp (by decide)
    rcases (generate_regardless_of_order ⟨true⟩).1 _ _ hsame with
      ⟨blocks, blocks', hblocks, hblocks', hperm, -, hgenerate⟩ | ⟨fault, _, hfault, -, -⟩
    · obtain rfl := hasBlocks_linkedItems.unique hblocks
      exact ⟨blocks', hblocks', hperm, hgenerate⟩
    · rw [hasBlocks_linkedItems.generate_eq] at hfault
      cases hfault
  · rcases (generate_regardless_of_order ⟨true⟩).2 (family "String") (by decide) with
      ⟨_, _, ⟨sorted, hsorted, -⟩, -⟩ | ⟨fault, fault', hfault, hcompile, hstage⟩
    · rw [resolve_nominalNames_family] at hsorted
      cases hsorted
    · rw [generate_of_resolve_error resolve_nominalNames_family] at hfault
      cases hfault
      exact ⟨fault', hcompile, hstage.symm⟩

end Container

end WireBindings
