import WireBindings.Proofs.Binding.Reordered
import WireBindings.Proofs.Schema.Nominal
import WireBindings.Proofs.TypeExpr.Rendering

/-!
# What a module refers to

Two parts of the generator sort names, each by its own rules. The search for nominal names decides
by definitions and their use what gets a block; a declaration is read without looking at definitions
and decides by its words alone what becomes a reference. This module compares the two, for schemas
that define all names they refer to (`Closed`).

The rules differ in three points. Names of numbers and definitions by octets are never declared,
although most of their names, such as `bool`, are words like any other: these are `Elementary`, and
whoever refers to them has to bring the constant along. The third point is a gap. What a variant
carries is written inside its enum and has no block, also if a field elsewhere has the same type
(`HasBlocks.name_ne_of_carries`); that field then refers to a constant nobody introduces. All other
references are declared by an earlier block (`references_declared_or_elementary`).
-/

namespace WireBindings

variable {type : TypeExpr} {name other declaration : String}

/-- A reference is a word that could be a declaration by itself. -/
theorem TypeExpr.Denotable.named_of_mem_references (h : type.Denotable)
    (hname : name ∈ type.references) : (TypeExpr.named name).Denotable := by
  -- the references of a type are the words at its leaves
  induction h with
  | string | unit | numeric =>
    rw [references] at hname
    cases hname
  | generic _ _ ih | tuple _ _ ih =>
    rw [references, referencesAll_eq_flatMap] at hname
    obtain ⟨part, hpart, hname⟩ := List.mem_flatMap.mp hname
    exact ih part hpart hname
  | array _ ih =>
    rw [references] at hname
    exact ih hname
  | named hword hnumeric hstring =>
    rw [references] at hname
    rw [List.mem_singleton.mp hname]
    exact .named hword hnumeric hstring

/-- The declarations of the fields or of the variants. -/
def Definition.declarations : Definition → List String
  | struct fields => fields.declarations
  | enum _ variants => variants.map Variant.declaration
  | _ => []

/-- The names that the declarations of the fields or of the variants refer to. -/
def Definition.mentioned (definition : Definition) : List String :=
  definition.declarations.flatMap fun declaration =>
    match TypeExpr.parse declaration with
    | .ok type => type.references
    | .error _ => []

namespace Container

variable {container : Container} {definition : Definition} {options : Options} {text : String}
  {binding : Binding} {before after : List Binding}

/-! ### Closed schemas -/

/-- Every name that the declaration of a field or variant refers to is defined. -/
def Closed (container : Container) : Prop :=
  ∀ entry ∈ container.definitions.entries, ∀ other ∈ entry.2.mentioned,
    (container.get? other).isSome

/-- Whether a schema is closed can be checked entry by entry. -/
instance (container : Container) : Decidable container.Closed :=
  inferInstanceAs (Decidable (∀ entry ∈ container.definitions.entries,
    ∀ other ∈ entry.2.mentioned, (container.get? other).isSome))

/-- What a definition contributes stands in some definition as the declaration of a field or
variant. -/
theorem Contributes.exists_owner (h : container.Contributes definition declaration)
    (hdefined : container.get? name = some definition) :
    ∃ owner inside, container.get? owner = some inside ∧ declaration ∈ inside.declarations := by
  -- a payload is looked up, and its definition is the owner of what it contributes
  induction h generalizing name with
  | field hmem => exact ⟨name, _, hdefined, hmem⟩
  | undefined hmem => exact ⟨name, _, hdefined, List.mem_map_of_mem hmem⟩
  | payload _ _ hcarried _ ih => exact ih hcarried

/-- In a closed schema everything that is mentioned is defined. -/
theorem Closed.exists_definition (h : container.Closed)
    (hmentions : container.Mentions name other) :
    ∃ definition, container.get? other = some definition := by
  obtain ⟨declaration, type, ⟨_, hdefined, hcontributes⟩, hparse, hother⟩ := hmentions
  obtain ⟨owner, inside, howner, hmem⟩ := hcontributes.exists_owner hdefined
  refine Option.isSome_iff_exists.mp
    (h (owner, inside) (Definitions.get?_eq_some_iff.mp howner) other ?_)
  exact List.mem_flatMap.mpr ⟨declaration, hmem, by rwa [hparse]⟩

/-! ### Names without a block -/

/-- Names that stand for numbers or octets. They get no block even if declarations refer to them. -/
inductive Elementary (container : Container) (name : String) : Prop
  /-- A small letter, then digits. -/
  | number (hname : isNumberName name) : Elementary container name
  /-- Sequences and primitives are never declared. -/
  | octets {definition : Definition} (hdefined : container.get? name = some definition)
      (hkind : definition.kind = .sequence ∨ definition.kind = .primitive) :
      Elementary container name

/-- A defined name that can be referred to is nominal unless it is elementary or some variant
carries it. -/
theorem mem_nominalNames_iff_of_denotable (hword : (TypeExpr.named name).Denotable)
    (hdefined : container.get? name = some definition) :
    name ∈ container.nominalNames ↔
      ¬ container.Elementary name ∧ ∀ parent, ¬ container.Carries parent name := by
  obtain ⟨hidentifier, hstring⟩ : Identifier name.toList ∧ name ≠ "String" := by
    cases hword with
    | named hidentifier _ hstring => exact ⟨hidentifier, hstring⟩
  rw [mem_nominalNames_iff]
  refine ⟨?_, ?_⟩
  · rintro ⟨_, hfound, hcarried, hsynthetic⟩
    refine ⟨?_, hcarried⟩
    rintro (hnumber | ⟨helementary, hkind⟩)
    · exact hsynthetic (isSynthetic_iff.mpr (.inl (.inr (.inr (.inl hnumber)))))
    · obtain rfl := Option.some.inj (hfound.symm.trans helementary)
      exact hsynthetic (isSynthetic_iff.mpr (.inr hkind))
  · rintro ⟨helementary, hcarried⟩
    refine ⟨definition, hdefined, hcarried, fun hsynthetic => helementary ?_⟩
    -- of all that is spelled out, only numbers are words besides `String`
    rcases isSynthetic_iff.mp hsynthetic with hspelled | hkind
    · rcases (spelledOut_iff_of_identifier hidentifier).mp hspelled with hnumber | hname
      · exact .number hnumber
      · exact absurd hname hstring
    · exact .octets hdefined hkind

/-! ### References and blocks -/

/-- What a block refers to is mentioned by its name. -/
theorem HasBlocks.mentions (h : container.HasBlocks (before ++ binding :: after))
    (hother : other ∈ binding.references) : container.Mentions binding.name other := by
  obtain ⟨_, -, hblocks⟩ := h
  exact mentions_of_mem_references hblocks (List.mem_append_right _ List.mem_cons_self) hother

/-- What a block refers to can be a declaration by itself. -/
theorem denotable_of_mentions (h : container.Mentions name other) :
    (TypeExpr.named other).Denotable := by
  obtain ⟨_, _, -, hparse, hother⟩ := h
  exact (denotable_of_parse hparse).named_of_mem_references hother

/-- The nominal names that a block refers to have blocks before it. -/
theorem HasBlocks.mem_before (h : container.HasBlocks (before ++ binding :: after))
    (hother : other ∈ binding.references) (hnominal : other ∈ container.nominalNames) :
    other ∈ before.map Binding.name := by
  have hresolve := h.resolve_eq
  rw [List.map_append, List.map_cons] at hresolve
  -- no name has two blocks, so the place of the block is that of its name
  have hfresh : binding.name ∉ before.map Binding.name := fun hmem =>
    (List.nodup_append.mp (nodup_of_resolve hresolve)).2.2 _ hmem _ List.mem_cons_self rfl
  have hbinding : binding.name ∈ container.nominalNames :=
    (mem_of_resolve hresolve).mp (List.mem_append_right _ List.mem_cons_self)
  exact mem_of_idxOf_lt hfresh
    (idxOf_lt_of_resolve hresolve ⟨hbinding, hnominal, h.mentions hother⟩)

/-- **References are declared, except to what is elementary.** In the module of a closed schema, a
constant that a block mentions is introduced by an earlier block, unless its name is elementary, and
then no block introduces it. Nothing is said here of what a variant carries. -/
theorem references_declared_or_elementary (hclosed : container.Closed)
    (h : container.generate options = .ok text) :
    ∃ blocks, container.HasBlocks blocks ∧ text = printModule options blocks ∧
      ∀ before binding after, blocks = before ++ binding :: after →
        ∀ other ∈ binding.references,
          (container.Elementary other → ∀ block ∈ blocks, block.name ≠ other) ∧
          (¬ container.Elementary other → (∀ parent, ¬ container.Carries parent other) →
            ∃ earlier ∈ before, earlier.name = other ∧
              StandsBefore (earlier.print options) (binding.print options) text) := by
  obtain ⟨sorted, blocks, hsorted, hbindings, rfl⟩ := generate_eq_ok_iff.mp h
  have hblocks : container.HasBlocks blocks := ⟨sorted, hsorted, hbindings⟩
  refine ⟨blocks, hblocks, rfl, ?_⟩
  -- a reference is mentioned, so it has a definition that tells whether it is nominal
  rintro before binding after rfl other hother
  have hmentions := hblocks.mentions hother
  obtain ⟨definition, hdefined⟩ := hclosed.exists_definition hmentions
  have hnominal := mem_nominalNames_iff_of_denotable (denotable_of_mentions hmentions) hdefined
  -- what has a block is nominal, and what is nominal and mentioned has an earlier block
  refine ⟨fun helementary block hblock hname => ?_, fun helementary hcarried => ?_⟩
  · have hmem : other ∈ container.nominalNames :=
      hblocks.mem_map_name_iff.mp (List.mem_map.mpr ⟨block, hblock, hname⟩)
    exact (hnominal.mp hmem).1 helementary
  · obtain ⟨earlier, hearlier, hname⟩ :=
      List.mem_map.mp (hblocks.mem_before hother (hnominal.mpr ⟨helementary, hcarried⟩))
    exact ⟨earlier, hearlier, hname, standsBefore_printModule hearlier⟩

/-- Views with a label of their own, and with fields of four elementary types. -/
def views : Container :=
  (ofDeclaration "View").insert "View"
      (.struct (.named [⟨"label", "Label"⟩, ⟨"shown", "bool"⟩, ⟨"digest", "Bytes32"⟩,
        ⟨"trail", "Trail"⟩, ⟨"grade", "p2"⟩]))
    |>.insert "Label" (.struct (.named [⟨"text", "String"⟩]))
    |>.insert "bool" (.primitive 1)
    |>.insert "Bytes32" (.primitive 32)
    |>.insert "Trail" (.unboundedSequence "u32")
    |>.insert "p2" (.struct (.named [⟨"value", "u32"⟩]))
    |>.insert "u32" (.primitive 4)

/-- The blocks of labels and views. -/
def viewBlocks : List Binding :=
  [⟨"Label", .struct [⟨"text", .string⟩]⟩,
    ⟨"View", .struct [⟨"label", .named "Label"⟩, ⟨"shown", .named "bool"⟩,
      ⟨"digest", .named "Bytes32"⟩, ⟨"trail", .named "Trail"⟩, ⟨"grade", .named "p2"⟩]⟩]

/-- Every name that a view mentions is defined, that of truth values included. -/
theorem closed_views : views.Closed := by decide +kernel

/-- The module for views has two blocks. -/
theorem hasBlocks_views : views.HasBlocks viewBlocks :=
  ⟨["Label", "View"], by decide +kernel, by with_unfolding_all rfl⟩

/-- The module for views refers to four types without a block. -/
theorem references_views :
    views.Closed ∧ views.generate ⟨true⟩ = .ok (printModule ⟨true⟩ viewBlocks) ∧
      viewBlocks[1].references = ["Label", "bool", "Bytes32", "Trail", "p2"] ∧
      viewBlocks.map Binding.name = ["Label", "View"] :=
  ⟨closed_views, hasBlocks_views.generate_eq _, rfl, rfl⟩

/-- The block of views comes after that of labels, and truth values have none. -/
theorem references_declared_views :
    views.Closed ∧ views.generate ⟨true⟩ = .ok (printModule ⟨true⟩ viewBlocks) ∧
      StandsBefore (viewBlocks[0].print ⟨true⟩) (viewBlocks[1].print ⟨true⟩)
        (printModule ⟨true⟩ viewBlocks) ∧
      ∀ block ∈ viewBlocks, block.name ≠ "bool" := by
  have hgenerate := hasBlocks_views.generate_eq ⟨true⟩
  obtain ⟨blocks, hblocks, -, hreferences⟩ :=
    references_declared_or_elementary closed_views hgenerate
  obtain rfl := hblocks.unique hasBlocks_views
  have hview := hreferences [viewBlocks[0]] viewBlocks[1] [] rfl
  -- labels are neither elementary nor carried, as they have a block
  have hlabel : "Label" ∈ viewBlocks[1].references := by decide
  have hparse : TypeExpr.parse "Label" = .ok (.named "Label") := by with_unfolding_all rfl
  obtain ⟨helementary, hcarried⟩ :=
    (mem_nominalNames_iff_of_denotable (denotable_of_parse hparse) rfl).mp
      (show "Label" ∈ views.nominalNames by decide)
  obtain ⟨earlier, hearlier, -, hplace⟩ := (hview "Label" hlabel).2 helementary hcarried
  rw [List.mem_singleton.mp hearlier] at hplace
  exact ⟨closed_views, hgenerate, hplace, (hview "bool" (by decide)).1 (.octets rfl (.inr rfl))⟩

/-! ### The gap -/

/-- **What a variant carries has no block**, even if a declaration elsewhere refers to it. The
reference is then to a constant that the module does not introduce, although nothing about the name
says so: it would have a block if no variant carried it. -/
theorem HasBlocks.name_ne_of_carries {blocks : List Binding} {parent : String}
    (h : container.HasBlocks blocks) (hcarries : container.Carries parent name) :
    ∀ block ∈ blocks, block.name ≠ name := by
  intro block hblock hname
  obtain ⟨_, -, hcarried, -⟩ := mem_nominalNames_iff.mp
    (h.mem_map_name_iff.mp (List.mem_map.mpr ⟨block, hblock, hname⟩))
  exact hcarried parent hcarries

/-- Scenes of shapes. A circle is one of the shapes, and a scene has a circle of its own. -/
def scenes : Container :=
  (ofDeclaration "Scene").insert "Scene"
      (.struct (.named [⟨"focus", "Circle"⟩, ⟨"shape", "Shape"⟩]))
    |>.insert "Shape" (.simpleEnum [("Dot", "()"), ("Circle", "Circle")])
    |>.insert "Circle" (.struct (.named [⟨"radius", "u32"⟩]))
    |>.insert "u32" (.primitive 4)

/-- The blocks of shapes and scenes. -/
def sceneBlocks : List Binding :=
  [⟨"Shape", .enum [⟨"Dot", .value .unit⟩, ⟨"Circle", .struct [⟨"radius", .numeric "u32"⟩]⟩]⟩,
    ⟨"Scene", .struct [⟨"focus", .named "Circle"⟩, ⟨"shape", .named "Shape"⟩]⟩]

/-- The scene refers to circles, which are in the module only as a shape. -/
theorem references_circle :
    scenes.HasBlocks sceneBlocks ∧ "Circle" ∈ sceneBlocks[1].references ∧
      ∀ block ∈ sceneBlocks, block.name ≠ "Circle" := by
  have hblocks : scenes.HasBlocks sceneBlocks :=
    ⟨["Shape", "Scene"], by decide +kernel, by with_unfolding_all rfl⟩
  have hcarries : scenes.Carries "Shape" "Circle" :=
    ⟨.simpleEnum [("Dot", "()"), ("Circle", "Circle")], rfl, by decide,
      ⟨1, "Circle", "Circle"⟩, by decide, rfl⟩
  exact ⟨hblocks, by decide, hblocks.name_ne_of_carries hcarries⟩

end Container

end WireBindings
