import WireBindings.Proofs.Binding.DeclareBeforeUse

/-!
# Shapes that can be declared

Not every definition has a form in the bindings. A struct needs named fields, and a variant must
carry something that can be written inside the enum: the unit type, a type without definition, or a
struct whose fields are named or number at most one (`Declarable`). Everything else is refused, and
`Refuses` says by which fault; of the variants of an enum it is the first that has no form.

Once all declarations that are read for a definition denote types, its shape alone decides: what can
be declared is (`exists_bindingForm_of_declarable`), and what is refused fails by the fault of the
refusal (`Refuses.bindingForm_eq`). For this the emitter must not read any declaration that has not
been read before (`exists_of_readType`).
-/

namespace WireBindings

/-- The fields can be written where a variant carries the struct. -/
def Fields.Inlinable : Fields → Prop
  | .named _ => True
  | .unnamed declarations => declarations.length ≤ 1
  | .empty => True

namespace Container

variable {container : Container} {name parent : String} {variant : Variant}
  {definition : Definition}

/-- The variant can be written as a case of an enum. -/
def Writable (container : Container) (variant : Variant) : Prop :=
  variant.isUnit ∨ container.get? variant.declaration = none ∨
    ∃ fields, container.get? variant.declaration = some (.struct fields) ∧ fields.Inlinable

/-- The definition can be declared under its own name. -/
def Declarable (container : Container) : Definition → Prop
  | .struct (.named _) => True
  | .enum _ variants => ∀ variant ∈ variants, container.Writable variant
  | _ => False

/-- Why a variant cannot be written as a case of an enum. -/
inductive RefusesVariant (container : Container) (variant : Variant) : ShapeFault → Prop
  | several {declarations : List String} (hcarries : ¬ variant.isUnit)
      (hdefined : container.get? variant.declaration = some (.struct (.unnamed declarations)))
      (hmany : 1 < declarations.length) :
      RefusesVariant container variant (.severalUnnamedFields declarations.length)
  | kind {carried : Definition} (hcarries : ¬ variant.isUnit)
      (hdefined : container.get? variant.declaration = some carried)
      (hother : carried.kind ≠ .struct) :
      RefusesVariant container variant (.payloadKind carried.kind)

/-- Why a definition cannot be declared under its own name. Of the variants of an enum the first
one without a form is to blame. -/
inductive Refuses (container : Container) (name : String) : Definition → GenerationFault → Prop
  | fields {fields : Fields} (hnotNamed : ∀ named, fields ≠ .named named) :
      Refuses container name (.struct fields) (.unsupportedShape name name .fieldsNotNamed)
  | variant {width : UInt8} {before after : List Variant} {variant : Variant} {why : ShapeFault}
      (hwritable : ∀ early ∈ before, container.Writable early)
      (hrefused : container.RefusesVariant variant why) :
      Refuses container name (.enum width (before ++ variant :: after))
        (.unsupportedShape name variant.name why)
  | kind {definition : Definition} (hnotStruct : definition.kind ≠ .struct)
      (hnotEnum : definition.kind ≠ .enum) :
      Refuses container name definition (.undeclarable name definition.kind)

/-! ### What has been read can be read again -/

/-- All declarations that the definition contributes denote types. -/
def ContributesTypes (container : Container) (definition : Definition) : Prop :=
  ∀ declaration, container.Contributes definition declaration →
    ∃ type, TypeExpr.parse declaration = .ok type

/-- A declaration that is contributed denotes a type for the emitter as well. -/
theorem exists_of_readType {declaration : String} (htypes : container.ContributesTypes definition)
    (hread : container.Contributes definition declaration) :
    ∃ type, readType declaration = .ok type := by
  obtain ⟨type, hparse⟩ := htypes declaration hread
  exact ⟨type, readType_eq_ok_iff.mpr hparse⟩

/-- So do all fields of a struct that are contributed. -/
theorem exists_of_readFields {fields : List NamedField}
    (htypes : container.ContributesTypes definition)
    (hread : ∀ field ∈ fields, container.Contributes definition field.declaration) :
    ∃ typed, readFields fields = .ok typed := by
  refine exists_mapM_eq_ok fun field hfield => ?_
  obtain ⟨type, htype⟩ := exists_of_readType htypes (hread field hfield)
  exact ⟨⟨field.name, type⟩, by rw [htype]; rfl⟩

/-! ### Variants -/

/-- Each variant has a form, or there is a reason why not. -/
theorem writable_or_refusesVariant (container : Container) (variant : Variant) :
    container.Writable variant ∨ ∃ why, container.RefusesVariant variant why := by
  -- the cases of the emitter: the unit, no definition, a struct by its fields, another definition
  by_cases hunit : variant.isUnit
  · exact .inl (.inl hunit)
  · cases hdefined : container.get? variant.declaration with
    | none => exact .inl (.inr (.inl hdefined))
    | some carried =>
      cases carried with
      | struct fields =>
        have hwritable (hinline : fields.Inlinable) : container.Writable variant :=
          .inr (.inr ⟨fields, hdefined, hinline⟩)
        cases fields with
        | named fields => exact .inl (hwritable trivial)
        | empty => exact .inl (hwritable trivial)
        | unnamed declarations =>
          by_cases hfew : declarations.length ≤ 1
          · exact .inl (hwritable hfew)
          · exact .inr ⟨_, .several hunit hdefined (Nat.lt_of_not_le hfew)⟩
      | primitive size => exact .inr ⟨_, .kind hunit hdefined nofun⟩
      | sequence width lengths elements => exact .inr ⟨_, .kind hunit hdefined nofun⟩
      | tuple elements => exact .inr ⟨_, .kind hunit hdefined nofun⟩
      | enum width variants => exact .inr ⟨_, .kind hunit hdefined nofun⟩

/-- A variant that is refused makes the enum fail, for the reason given. -/
theorem RefusesVariant.payload_eq {why : ShapeFault} (h : container.RefusesVariant variant why) :
    container.payload parent variant = .error (.unsupportedShape parent variant.name why) := by
  cases h with
  | @several declarations hcarries hdefined hmany =>
    rw [payload, if_neg hcarries, hdefined]
    -- none and one field are written, from two on it is refused
    rcases declarations with _ | ⟨first, _ | ⟨second, rest⟩⟩
    · cases hmany
    · exact absurd hmany (Nat.lt_irrefl 1)
    · rfl
  | @kind carried hcarries hdefined hother =>
    rw [payload, if_neg hcarries, hdefined]
    cases carried with
    | struct fields => exact absurd rfl hother
    | primitive size => rfl
    | sequence width lengths elements => rfl
    | tuple elements => rfl
    | enum width variants => rfl

/-- A variant that has a form gets it, since the enum contributes all declarations that are read
for it. -/
theorem exists_payload_of_writable (parent : String) {width : UInt8} {variants : List Variant}
    (htypes : container.ContributesTypes (.enum width variants)) (hmem : variant ∈ variants)
    (h : container.Writable variant) :
    ∃ payload, container.payload parent variant = .ok payload := by
  by_cases hunit : variant.isUnit
  · exact ⟨_, by rw [payload, if_pos hunit]⟩
  · rw [payload, if_neg hunit]
    -- whatever the payload is made of, the enum contributes it, so it denotes types
    rcases h.resolve_left hunit with habsent | ⟨fields, hdefined, hinline⟩
    · obtain ⟨type, htype⟩ := exists_of_readType htypes (.undefined hmem hunit habsent)
      rw [habsent]
      exact ⟨.value type, map_eq_ok_iff.mpr ⟨type, htype, rfl⟩⟩
    · rw [hdefined]
      have hread {declaration : String} (h : declaration ∈ fields.declarations) :
          container.Contributes (.enum width variants) declaration :=
        .payload hmem hunit hdefined (.field h)
      cases fields with
      | empty => exact ⟨_, rfl⟩
      | named fields =>
        obtain ⟨typed, htyped⟩ :=
          exists_of_readFields htypes fun field hfield => hread (List.mem_map_of_mem hfield)
        exact ⟨.struct typed, map_eq_ok_iff.mpr ⟨typed, htyped, rfl⟩⟩
      | unnamed declarations =>
        rcases declarations with _ | ⟨only, _ | ⟨second, rest⟩⟩
        · exact ⟨_, rfl⟩
        · obtain ⟨type, htype⟩ := exists_of_readType htypes (hread List.mem_cons_self)
          exact ⟨.value type, map_eq_ok_iff.mpr ⟨type, htype, rfl⟩⟩
        · exact absurd hinline (by simp [Fields.Inlinable])

/-! ### Definitions -/

/-- Each definition can be declared, or there is a reason why not. -/
theorem declarable_or_refuses (container : Container) (name : String) (definition : Definition) :
    container.Declarable definition ∨ ∃ fault, container.Refuses name definition fault := by
  cases definition with
  | struct fields =>
    cases fields with
    | named fields => exact .inl trivial
    | unnamed declarations => exact .inr ⟨_, .fields nofun⟩
    | empty => exact .inr ⟨_, .fields nofun⟩
  | enum width variants =>
    -- either all variants are written or one is the first that is not
    by_cases hall : ∀ variant ∈ variants, container.Writable variant
    · exact .inl hall
    · obtain ⟨before, variant, after, rfl, hbefore, hvariant⟩ := exists_first_of_not_forall hall
      obtain ⟨why, hwhy⟩ := (writable_or_refusesVariant container variant).resolve_left hvariant
      exact .inr ⟨_, .variant hbefore hwhy⟩
  | primitive size => exact .inr ⟨_, .kind nofun nofun⟩
  | sequence width lengths elements => exact .inr ⟨_, .kind nofun nofun⟩
  | tuple elements => exact .inr ⟨_, .kind nofun nofun⟩

/-- A variant that has a form becomes a case. -/
theorem exists_case_of_writable (parent : String) {width : UInt8} {variants : List Variant}
    (htypes : container.ContributesTypes (.enum width variants)) (hmem : variant ∈ variants)
    (h : container.Writable variant) :
    ∃ case, (do return ⟨variant.name, ← container.payload parent variant⟩ :
      Except GenerationFault Case) = .ok case := by
  obtain ⟨payload, hpayload⟩ := exists_payload_of_writable parent htypes hmem h
  exact ⟨⟨variant.name, payload⟩, by rw [hpayload]; rfl⟩

/-- A definition that can be declared is. -/
theorem exists_bindingForm_of_declarable (name : String)
    (htypes : container.ContributesTypes definition) (h : container.Declarable definition) :
    ∃ form, container.bindingForm name definition = .ok form := by
  -- the two kinds of definitions that have blocks
  match definition with
  | .struct (.named _) =>
    obtain ⟨typed, htyped⟩ :=
      exists_of_readFields htypes fun field hfield => .field (List.mem_map_of_mem hfield)
    exact ⟨.struct typed, map_eq_ok_iff.mpr ⟨typed, htyped, rfl⟩⟩
  | .enum _ _ =>
    obtain ⟨cases, hcases⟩ := exists_mapM_eq_ok fun variant hmem =>
      exists_case_of_writable name htypes hmem (h variant hmem)
    exact ⟨.enum cases, map_eq_ok_iff.mpr ⟨cases, hcases, rfl⟩⟩
  | .struct (.unnamed _) | .struct .empty | .primitive _ | .sequence _ _ _ | .tuple _ => cases h

/-- A definition that is refused fails, by the fault given. -/
theorem Refuses.bindingForm_eq {fault : GenerationFault}
    (htypes : container.ContributesTypes definition)
    (h : container.Refuses name definition fault) :
    container.bindingForm name definition = .error fault := by
  -- the three reasons are faults of the branches of the emitter
  cases h with
  | @fields fields hnamed =>
    cases fields with
    | named fields => exact absurd rfl (hnamed fields)
    | unnamed declarations => rfl
    | empty => rfl
  | @variant _ before after variant why hwritable hrefused =>
    -- the cases before the one that is refused do not fail
    have hcases := mapM_eq_error_iff.mpr ⟨before, variant, after, rfl,
      fun early hearly => exists_case_of_writable name htypes
        (List.mem_append_left _ hearly) (hwritable early hearly),
      bind_eq_error_iff.mpr (.inl hrefused.payload_eq)⟩
    rw [bindingForm, hcases]
    rfl
  | kind hstruct henum =>
    cases definition with
    | struct fields => exact absurd rfl hstruct
    | enum width variants => exact absurd rfl henum
    | primitive size => rfl
    | sequence width lengths elements => rfl
    | tuple elements => rfl

end Container

end WireBindings
