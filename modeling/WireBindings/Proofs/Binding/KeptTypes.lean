import Mathlib.Data.Fintype.Card
import Mathlib.Data.Set.Finite.Basic
import Mathlib.Order.WellFounded
import WireBindings.Proofs.Binding.Denotation
import WireBindings.Proofs.Binding.Reordered
import WireBindings.Proofs.Schema.Nominal

/-!
# What becomes of user types

A struct or enum with a name of its own is meant to be found in the module: as a block, or, where a
variant carries it, inside the block of that enum (`InlinedIn`). The search for nominal names leaves
out whatever a variant carries, and takes for granted that the enum with this variant is emitted. It
need not be. The enum may have a generic name such as `Result<…>`, or be carried itself.

If an enum carries another enum, generation fails, so a chain of enums that carry each other has to
come to an end in what is not emitted either. Hence there are two ways to get lost, and no other
(`kept_or_lost`): below an enum whose name is spelled out, and below enums that carry each other in
a circle.
-/

namespace WireBindings

open Relation

/-- If finitely many points lead to a point, and none of them lies on a circle, then one of them is
led to from nowhere. -/
theorem exists_source {α : Type} {R : α → α → Prop} {point : α}
    (hfinite : {early | TransGen R early point}.Finite) (hled : ∃ early, R early point)
    (hcircle : ∀ early, TransGen R early point → ¬ TransGen R early early) :
    ∃ source, TransGen R source point ∧ ∀ early, ¬ R early source := by
  -- the relation between the points that lead there is well-founded, as there are finitely many
  let Early := {early // TransGen R early point}
  have : Finite Early := hfinite
  have : IsTrans Early fun a b => TransGen R a.1 b.1 := ⟨fun _ _ _ => TransGen.trans⟩
  have : Std.Irrefl fun a b : Early => TransGen R a.1 b.1 := ⟨fun a => hcircle a.1 a.2⟩
  obtain ⟨early, hearly⟩ := hled
  obtain ⟨source, -, hsource⟩ :=
    (Finite.wellFounded_of_trans_of_irrefl fun a b : Early => TransGen R a.1 b.1).has_min Set.univ
      ⟨⟨early, .single hearly⟩, trivial⟩
  exact ⟨source.1, source.2, fun before hbefore =>
    hsource ⟨before, .head hbefore source.2⟩ trivial (.single hbefore)⟩

namespace Container

variable {container : Container} {name parent child : String} {definition : Definition}
  {options : Options} {text : String} {blocks : List Binding} {block : Binding}

/-! ### Enums that carry something -/

/-- Only enums carry anything. -/
theorem Carries.exists_enum (h : container.Carries parent child) :
    ∃ tagWidth variants, container.get? parent = some (.enum tagWidth variants) ∧
      ∃ variant ∈ variants, ¬ variant.isUnit ∧ variant.declaration = child := by
  obtain ⟨tagWidth, variants, hdefined, -, hcarries⟩ := carries_iff.mp h
  exact ⟨tagWidth, variants, hdefined, hcarries⟩

/-- Only defined names carry anything, and there are finitely many of them. -/
theorem finite_ancestors : {ancestor | TransGen container.Carries ancestor name}.Finite := by
  refine container.definitions.names.finite_toSet.subset fun ancestor hancestor => ?_
  obtain ⟨_, ⟨definition, hdefined, -⟩, -⟩ := TransGen.head'_iff.mp hancestor
  exact List.mem_map.mpr ⟨_, Definitions.get?_eq_some_iff.mp hdefined, rfl⟩

/-- What has a payload is not an enum that carries something. -/
theorem HasPayload.not_carries {variant : Variant} {payload : Payload}
    (h : container.HasPayload variant payload) (hcarries : ¬ variant.isUnit) :
    ¬ container.Carries variant.declaration child := by
  intro hchild
  obtain ⟨_, _, hdefined, -⟩ := hchild.exists_enum
  -- only enums carry anything, and no payload is made of an enum
  cases h with
  | unit hunit => exact hcarries hunit
  | undefined _ hfound | empty _ hfound | noneUnnamed _ hfound | oneUnnamed _ hfound
  | named _ hfound =>
    rw [hdefined] at hfound
    cases hfound

/-! ### Types inside blocks -/

/-- The block is that of an enum, and the case for one of the variants has the payload that the name
stands for. -/
def InlinedIn (container : Container) (name : String) (block : Binding) : Prop :=
  ∃ tagWidth variants cases, container.get? block.name = some (.enum tagWidth variants) ∧
    block.form = .enum cases ∧ ∃ variant ∈ variants, variant.declaration = name ∧
      ∃ case ∈ cases, case.name = variant.name ∧ container.HasPayload variant case.payload

/-- A nominal name has a block of the form that its definition asks for. -/
theorem HasBlocks.exists_block (h : container.HasBlocks blocks)
    (hname : name ∈ container.nominalNames) (hdefined : container.get? name = some definition) :
    ∃ block ∈ blocks, block.name = name ∧ container.HasForm definition block.form := by
  obtain ⟨block, hblock, rfl⟩ := List.mem_map.mp (h.mem_map_name_iff.mpr hname)
  obtain ⟨sorted, -, hbindings⟩ := h
  obtain ⟨_, -, rfl, found, hfound, hform⟩ :=
    exists_left_of_mem (forall₂_of_bindings hbindings) hblock
  obtain rfl := Option.some.inj (hfound.symm.trans hdefined)
  exact ⟨block, hblock, rfl, bindingForm_eq_ok_iff.mp hform⟩

/-- What a nominal enum leads to is inlined in its block: the chain goes no further than one step,
since the block could not have been made if the enum carried another enum. -/
theorem HasBlocks.inlined_of_transGen (h : container.HasBlocks blocks)
    (hparent : parent ∈ container.nominalNames) (hchain : TransGen container.Carries parent name) :
    ∃ block ∈ blocks, container.InlinedIn name block := by
  obtain ⟨child, hfirst, hmore⟩ := TransGen.head'_iff.mp hchain
  obtain ⟨tagWidth, variants, hdefined, variant, hvariant, hcarries, rfl⟩ := hfirst.exists_enum
  obtain ⟨block, hblock, rfl, hform⟩ := h.exists_block hparent hdefined
  obtain ⟨cases, hcases, hread⟩ : ∃ cases, block.form = .enum cases ∧
      List.Forall₂ (fun variant case => case.name = variant.name ∧
        container.HasPayload variant case.payload) variants cases := by
    generalize block.form = form at hform ⊢
    cases hform with
    | enum hread => exact ⟨_, rfl, hread⟩
  obtain ⟨case, hcase, hname, hpayload⟩ := exists_right_of_mem hread hvariant
  -- the chain ends with its first step, or the payload would be an enum
  rcases hmore.cases_head with rfl | ⟨_, hsecond, -⟩
  · exact ⟨block, hblock, tagWidth, variants, cases, hdefined, hcases, variant, hvariant, rfl, case,
      hcase, hname, hpayload⟩
  · exact absurd hsecond (hpayload.not_carries hcarries)

/-! ### Kept or lost -/

/-- The type is carried, at some remove, by what is never declared: something with a name that is
spelled out, or something that carries itself. -/
def Lost (container : Container) (name : String) : Prop :=
  ∃ source, TransGen container.Carries source name ∧
    (SpelledOut source ∨ TransGen container.Carries source source)

/-- Structs and enums are synthetic by their names only. -/
theorem not_isSynthetic_of_not_spelledOut (h : ¬ SpelledOut name)
    (hkind : definition.kind = .struct ∨ definition.kind = .enum) :
    ¬ isSynthetic name definition := by
  rw [isSynthetic_iff]
  rcases hkind with hkind | hkind <;> simp [h, hkind]

/-- **A user type is kept unless it is lost.** In every module that is generated, a struct or enum
whose name is an identifier, and neither a number nor text, has a block, or is inlined in the block
of an enum, or is carried by what is never declared. -/
theorem kept_or_lost (h : container.generate options = .ok text) :
    ∃ blocks, container.HasBlocks blocks ∧ text = printModule options blocks ∧
      ∀ name definition, container.get? name = some definition →
        definition.kind = .struct ∨ definition.kind = .enum →
        Identifier name.toList → name ≠ "String" → ¬ isNumberName name →
        (∃ block ∈ blocks, block.name = name) ∨
          (∃ block ∈ blocks, container.InlinedIn name block) ∨ container.Lost name := by
  obtain ⟨sorted, blocks, hsorted, hbindings, rfl⟩ := generate_eq_ok_iff.mp h
  have hblocks : container.HasBlocks blocks := ⟨sorted, hsorted, hbindings⟩
  refine ⟨blocks, hblocks, rfl, fun name definition hdefined hkind hword hstring hnumber => ?_⟩
  by_cases hcarried : ∃ parent, container.Carries parent name
  -- if nothing on the way is lost, the chain begins at a nominal enum
  · by_cases hlost : container.Lost name
    · exact .inr (.inr hlost)
    · obtain ⟨source, hchain, hsource⟩ := exists_source finite_ancestors hcarried
        fun ancestor hancestor hcircle => hlost ⟨ancestor, hancestor, .inr hcircle⟩
      obtain ⟨_, hfirst, -⟩ := TransGen.head'_iff.mp hchain
      obtain ⟨tagWidth, variants, hfound, -⟩ := hfirst.exists_enum
      have hspelled : ¬ SpelledOut source := fun hspelled => hlost ⟨source, hchain, .inl hspelled⟩
      have hnominal : source ∈ container.nominalNames :=
        mem_nominalNames_iff.mpr
          ⟨_, hfound, hsource, not_isSynthetic_of_not_spelledOut hspelled (.inr rfl)⟩
      exact .inr (.inl (hblocks.inlined_of_transGen hnominal hchain))
  -- what nothing carries is nominal, since its name is not spelled out
  · have hspelled : ¬ SpelledOut name := by
      rw [spelledOut_iff_of_identifier hword]
      exact not_or.mpr ⟨hnumber, hstring⟩
    have hnominal : name ∈ container.nominalNames :=
      mem_nominalNames_iff.mpr ⟨definition, hdefined, not_exists.mp hcarried,
        not_isSynthetic_of_not_spelledOut hspelled hkind⟩
    obtain ⟨block, hblock, hname, -⟩ := hblocks.exists_block hnominal hdefined
    exact .inl ⟨block, hblock, hname⟩

/-- Reports, and what may come instead of them. -/
def reports : Container :=
  (ofDeclaration "Result<Report, String>").insert "Result<Report, String>"
      (.simpleEnum [("Ok", "Report"), ("Err", "String")])
    |>.insert "Report" (.struct (.named [⟨"total", "u32"⟩]))

/-- There are no nominal names, and so no blocks. -/
theorem hasBlocks_reports : reports.HasBlocks [] := by
  refine ⟨[], ?_, rfl⟩
  show reports.resolve [] = _
  decide +kernel

/-- The module for reports has no blocks, although the schema defines reports. -/
theorem reports_lost :
    reports.generate ⟨true⟩ = .ok (printModule ⟨true⟩ []) ∧ reports.HasBlocks [] ∧
      reports.get? "Report" = some (.struct (.named [⟨"total", "u32"⟩])) ∧
      Identifier "Report".toList ∧ "Report" ≠ "String" ∧ ¬ isNumberName "Report" :=
  ⟨hasBlocks_reports.generate_eq _, hasBlocks_reports, rfl, isIdentifier_iff.mp rfl, by decide,
    by decide⟩

/-- Reports are carried by a result, which is spelled out. -/
theorem kept_or_lost_reports :
    reports.generate ⟨true⟩ = .ok (printModule ⟨true⟩ []) ∧ reports.Lost "Report" := by
  have hgenerate := hasBlocks_reports.generate_eq ⟨true⟩
  obtain ⟨blocks, hblocks, -, hkept⟩ := kept_or_lost hgenerate
  obtain rfl := hblocks.unique hasBlocks_reports
  refine ⟨hgenerate, ?_⟩
  rcases hkept "Report" _ rfl (.inl rfl) (isIdentifier_iff.mp rfl) (by decide) (by decide) with
    ⟨_, hblock, -⟩ | ⟨_, hblock, -⟩ | hlost
  · cases hblock
  · cases hblock
  · exact hlost

end Container

end WireBindings
