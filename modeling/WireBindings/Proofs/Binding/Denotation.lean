import Mathlib.Data.List.Forall2
import WireBindings.Proofs.Binding.DeclareBeforeUse

/-!
# What a list of names denotes

A schema and a list of names denote a list of declarations, whatever text may be made of it. Here
this is said as a relation, with one constructor for each way in which a schema can say what a
variant carries (`HasPayload`), so that it can be seen which ways come to the same. The relation
leaves no choice (`Denotes.unique`), and the bindings are what it says (`bindings_eq_ok_iff`).
-/

namespace WireBindings

variable {fields : List NamedField} {typed : List TypedField}

/-- The fields have these names and types, in this order. -/
def HasFields (fields : List NamedField) (typed : List TypedField) : Prop :=
  List.Forall₂ (fun field entry => entry.name = field.name ∧
    TypeExpr.parse field.declaration = .ok entry.type) fields typed

namespace Container

/-- The variant carries this. -/
inductive HasPayload (container : Container) (variant : Variant) : Payload → Prop
  | unit (hunit : variant.isUnit) : HasPayload container variant (.value .unit)
  /-- Without a definition, the declaration says by itself what is carried. -/
  | undefined {type : TypeExpr} (hcarries : ¬ variant.isUnit)
      (habsent : container.get? variant.declaration = none)
      (hread : TypeExpr.parse variant.declaration = .ok type) :
      HasPayload container variant (.value type)
  /-- A struct without fields carries nothing. -/
  | empty (hcarries : ¬ variant.isUnit)
      (hdefined : container.get? variant.declaration = some (.struct .empty)) :
      HasPayload container variant (.value .unit)
  /-- Neither does an empty list of unnamed fields. -/
  | noneUnnamed (hcarries : ¬ variant.isUnit)
      (hdefined : container.get? variant.declaration = some (.struct (.unnamed []))) :
      HasPayload container variant (.value .unit)
  /-- A single unnamed field stands for its type. -/
  | oneUnnamed {only : String} {type : TypeExpr} (hcarries : ¬ variant.isUnit)
      (hdefined : container.get? variant.declaration = some (.struct (.unnamed [only])))
      (hread : TypeExpr.parse only = .ok type) : HasPayload container variant (.value type)
  /-- Named fields are kept. -/
  | named {fields : List NamedField} {typed : List TypedField} (hcarries : ¬ variant.isUnit)
      (hdefined : container.get? variant.declaration = some (.struct (.named fields)))
      (hread : HasFields fields typed) : HasPayload container variant (.struct typed)

/-- The definition is that of a declaration of this form. -/
inductive HasForm (container : Container) : Definition → BindingForm → Prop
  | struct {fields : List NamedField} {typed : List TypedField} (hread : HasFields fields typed) :
      HasForm container (.struct (.named fields)) (.struct typed)
  | enum {tagWidth : UInt8} {variants : List Variant} {cases : List Case}
      (hread : List.Forall₂ (fun variant case => case.name = variant.name ∧
        container.HasPayload variant case.payload) variants cases) :
      HasForm container (.enum tagWidth variants) (.enum cases)

/-- The names denote these declarations; a name without a definition denotes nothing. -/
inductive Denotes (container : Container) : List String → List Binding → Prop
  | nil : Denotes container [] []
  | undefined {name : String} {names : List String} {declarations : List Binding}
      (habsent : container.get? name = none) (hothers : Denotes container names declarations) :
      Denotes container (name :: names) declarations
  | cons {name : String} {names : List String} {definition : Definition} {form : BindingForm}
      {declarations : List Binding} (hdefined : container.get? name = some definition)
      (hfirst : container.HasForm definition form)
      (hothers : Denotes container names declarations) :
      Denotes container (name :: names) (⟨name, form⟩ :: declarations)

variable {container : Container} {names : List String} {name : String} {definition : Definition}
  {variant : Variant} {payload : Payload} {form : BindingForm} {declarations others : List Binding}

/-! ### The bindings are what is denoted -/

/-- Fields are read if each of their declarations denotes a type. -/
theorem readFields_eq_ok_iff : readFields fields = .ok typed ↔ HasFields fields typed := by
  have hfield (field : NamedField) (entry : TypedField) :
      (do return ⟨field.name, ← readType field.declaration⟩ : Except GenerationFault TypedField) =
          .ok entry ↔
        entry.name = field.name ∧ TypeExpr.parse field.declaration = .ok entry.type := by
    rw [← readType_eq_ok_iff, bind_eq_ok_iff]
    refine ⟨?_, ?_⟩
    · rintro ⟨type, htype, h⟩
      cases h
      exact ⟨rfl, htype⟩
    · rintro ⟨hname, htype⟩
      exact ⟨entry.type, htype, by rw [← hname]; rfl⟩
  rw [readFields, mapM_eq_ok_iff, HasFields]
  exact ⟨fun h => h.imp fun _ _ => (hfield _ _).mp, fun h => h.imp fun _ _ => (hfield _ _).mpr⟩

/-- What the emitter writes for a variant is carried by it. -/
theorem hasPayload_of_payload {parent : String}
    (h : container.payload parent variant = .ok payload) :
    container.HasPayload variant payload := by
  rw [Container.payload] at h
  -- the branches of the emitter are the rules of what is carried, but for two that fail
  split at h
  · next hunit =>
    cases h
    exact .unit hunit
  · next hcarries =>
    split at h
    · next habsent =>
      obtain ⟨type, htype, rfl⟩ := map_eq_ok_iff.mp h
      exact .undefined hcarries habsent (readType_eq_ok_iff.mp htype)
    · next hdefined =>
      cases h
      exact .noneUnnamed hcarries hdefined
    · next only hdefined =>
      obtain ⟨type, htype, rfl⟩ := map_eq_ok_iff.mp h
      exact .oneUnnamed hcarries hdefined (readType_eq_ok_iff.mp htype)
    · cases h
    · next hdefined =>
      cases h
      exact .empty hcarries hdefined
    · next fields hdefined =>
      obtain ⟨typed, htyped, rfl⟩ := map_eq_ok_iff.mp h
      exact .named hcarries hdefined (readFields_eq_ok_iff.mp htyped)
    · cases h

/-- What a variant carries is what the emitter writes for it. -/
theorem HasPayload.payload_eq (h : container.HasPayload variant payload) (parent : String) :
    container.payload parent variant = .ok payload := by
  rw [Container.payload]
  cases h with
  | unit hunit => rw [if_pos hunit]
  | undefined hcarries habsent hread =>
    rw [if_neg hcarries, habsent]
    exact map_eq_ok_iff.mpr ⟨_, readType_eq_ok_iff.mpr hread, rfl⟩
  | empty hcarries hdefined => rw [if_neg hcarries, hdefined]
  | noneUnnamed hcarries hdefined => rw [if_neg hcarries, hdefined]
  | oneUnnamed hcarries hdefined hread =>
    rw [if_neg hcarries, hdefined]
    exact map_eq_ok_iff.mpr ⟨_, readType_eq_ok_iff.mpr hread, rfl⟩
  | named hcarries hdefined hread =>
    rw [if_neg hcarries, hdefined]
    exact map_eq_ok_iff.mpr ⟨_, readFields_eq_ok_iff.mpr hread, rfl⟩

/-- **The form of a block is that of its definition.** -/
theorem bindingForm_eq_ok_iff :
    container.bindingForm name definition = .ok form ↔ container.HasForm definition form := by
  -- a case has the name of its variant
  have hcase (variant : Variant) (case : Case) :
      (do return ⟨variant.name, ← container.payload name variant⟩ : Except GenerationFault Case) =
          .ok case ↔
        case.name = variant.name ∧ container.HasPayload variant case.payload := by
    rw [bind_eq_ok_iff]
    refine ⟨?_, ?_⟩
    · rintro ⟨payload, hpayload, h⟩
      cases h
      exact ⟨rfl, hasPayload_of_payload hpayload⟩
    · rintro ⟨hname, hpayload⟩
      exact ⟨case.payload, hpayload.payload_eq name, by rw [← hname]; rfl⟩
  refine ⟨?_, ?_⟩
  · intro h
    rw [bindingForm.eq_def] at h
    split at h
    · obtain ⟨typed, htyped, rfl⟩ := map_eq_ok_iff.mp h
      exact .struct (readFields_eq_ok_iff.mp htyped)
    · cases h
    · obtain ⟨cases, hcases, rfl⟩ := map_eq_ok_iff.mp h
      exact .enum ((mapM_eq_ok_iff.mp hcases).imp fun _ _ => (hcase _ _).mp)
    · cases h
  · rintro (hread | hread)
    · exact map_eq_ok_iff.mpr ⟨_, readFields_eq_ok_iff.mpr hread, rfl⟩
    · exact map_eq_ok_iff.mpr
        ⟨_, mapM_eq_ok_iff.mpr (hread.imp fun _ _ => (hcase _ _).mpr), rfl⟩

/-- A name without a definition has no block. -/
theorem bindings_cons_of_none (h : container.get? name = none) :
    container.bindings (name :: names) = container.bindings names := by
  rw [bindings, List.filterMap_cons_none (by rw [h]; rfl)]
  rfl

/-- A defined name has its block in front of the others. -/
theorem bindings_cons_of_some (h : container.get? name = some definition) :
    container.bindings (name :: names) = .ok declarations ↔
      ∃ form others, container.bindingForm name definition = .ok form ∧
        container.bindings names = .ok others ∧ declarations = ⟨name, form⟩ :: others := by
  rw [bindings, List.filterMap_cons_some (by rw [h]; rfl), mapM_eq_ok_iff,
    List.forall₂_cons_left_iff]
  refine ⟨?_, ?_⟩
  · rintro ⟨binding, others, hbinding, hothers, rfl⟩
    obtain ⟨form, hform, hbinding⟩ := bind_eq_ok_iff.mp hbinding
    cases hbinding
    exact ⟨form, others, hform, mapM_eq_ok_iff.mpr hothers, rfl⟩
  · rintro ⟨form, others, hform, hothers, rfl⟩
    exact ⟨_, others, bind_eq_ok_iff.mpr ⟨form, hform, rfl⟩, mapM_eq_ok_iff.mp hothers, rfl⟩

/-- **The bindings of a list of names are the declarations that it denotes.** -/
theorem bindings_eq_ok_iff :
    container.bindings names = .ok declarations ↔ container.Denotes names declarations := by
  induction names generalizing declarations with
  | nil =>
    refine ⟨fun h => ?_, fun h => ?_⟩
    · cases h
      exact .nil
    · cases h
      rfl
  | cons name names ih =>
    -- each of the two rules for a first name excludes the other
    cases hdefined : container.get? name with
    | none =>
      rw [bindings_cons_of_none hdefined, ih]
      refine ⟨.undefined hdefined, ?_⟩
      rintro (_ | ⟨-, hothers⟩ | ⟨hfound, -, -⟩)
      · exact hothers
      · rw [hdefined] at hfound
        cases hfound
    | some definition =>
      rw [bindings_cons_of_some hdefined]
      refine ⟨?_, ?_⟩
      · rintro ⟨form, others, hform, hothers, rfl⟩
        exact .cons hdefined (bindingForm_eq_ok_iff.mp hform) (ih.mp hothers)
      · rintro (_ | ⟨habsent, -⟩ | ⟨hfound, hform, hothers⟩)
        · rw [hdefined] at habsent
          cases habsent
        · obtain rfl := Option.some.inj (hfound.symm.trans hdefined)
          exact ⟨_, _, bindingForm_eq_ok_iff.mpr hform, ih.mpr hothers, rfl⟩

/-- **Names denote one list of declarations**, since bindings are computed. -/
theorem Denotes.unique (h : container.Denotes names declarations)
    (h' : container.Denotes names others) : others = declarations :=
  Except.ok.inj ((bindings_eq_ok_iff.mpr h').symm.trans (bindings_eq_ok_iff.mpr h))

end Container

end WireBindings
