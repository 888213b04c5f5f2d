import Mathlib.Data.List.Forall2
import WireBindings.Proofs.Binding.Stages
import WireBindings.Proofs.Dependency.Closure

/-!
# What bindings show of a definition

Much of what a definition says about the wire has no place in the bindings: sizes, widths, bounds,
the elements of sequences and tuples, the numbers that tell variants apart. Definitions that differ
in nothing else look alike (`Definition.LooksLike`), and if all definitions of two schemas do, one
by one, then the bindings are the same, or fail in the same way (`generate_of_alike`).

The argument is local. Two schemas agree on names of a kind if these names are defined alike in both
and nothing is carried by them that is not of the kind again (`AgreesOn`). A walk that starts at
such a name then never leaves them, so what is read for it (`AgreesOn.declarationsRead_eq`), the
order it is put in (`AgreesOn.resolve_eq`) and the block it gets (`AgreesOn.emit_eq`) are the same
in both, whatever else the two schemas may hold.
-/

namespace WireBindings

/-- The variants have the same name and declare the same type. -/
def Variant.LooksLike (variant other : Variant) : Prop :=
  variant.name = other.name ∧ variant.declaration = other.declaration

/-- The definitions differ in nothing that bindings can show. They are of the same kind, structs
have the same fields, and enums have variants that look alike, in the same order. -/
inductive Definition.LooksLike : Definition → Definition → Prop
  | primitive {size size' : UInt8} : LooksLike (.primitive size) (.primitive size')
  | sequence {width width' : UInt8} {lengths lengths' : LengthRange} {elements elements' : String} :
      LooksLike (.sequence width lengths elements) (.sequence width' lengths' elements')
  | tuple {elements elements' : List String} : LooksLike (.tuple elements) (.tuple elements')
  | enum {width width' : UInt8} {variants variants' : List Variant}
      (halike : List.Forall₂ Variant.LooksLike variants variants') :
      LooksLike (.enum width variants) (.enum width' variants')
  | struct {fields : Fields} : LooksLike (.struct fields) (.struct fields)

/-! ### Definitions that look alike -/

/-- Whether a variant is a unit variant can be seen from its declaration. -/
theorem Variant.LooksLike.isUnit_eq {variant other : Variant} (h : variant.LooksLike other) :
    variant.isUnit = other.isUnit := by
  rw [isUnit, isUnit, h.2]

namespace Definition

variable {definition other : Definition}

/-- Every definition looks like itself. -/
theorem LooksLike.refl (definition : Definition) : definition.LooksLike definition := by
  cases definition with
  | primitive size => exact .primitive
  | sequence width lengths elements => exact .sequence
  | tuple elements => exact .tuple
  | enum width variants => exact .enum (List.forall₂_same.mpr fun _ _ => ⟨rfl, rfl⟩)
  | struct fields => exact .struct

theorem LooksLike.kind_eq (h : definition.LooksLike other) : definition.kind = other.kind := by
  cases h <;> rfl

theorem LooksLike.fieldDeclarations_eq (h : definition.LooksLike other) :
    definition.fieldDeclarations = other.fieldDeclarations := by
  cases h <;> rfl

/-- What looks alike carries the same. -/
theorem LooksLike.carried_eq (h : definition.LooksLike other) :
    definition.carryingVariants.map Variant.declaration =
      other.carryingVariants.map Variant.declaration := by
  cases h with
  | @enum _ _ variants variants' hvariants =>
    show (variants.filter fun variant => !variant.isUnit).map Variant.declaration =
      (variants'.filter fun variant => !variant.isUnit).map Variant.declaration
    induction hvariants with
    | nil => rfl
    | @cons variant other variants variants' hfirst _ ih =>
      -- a unit variant is one by its declaration, so both are kept or neither is
      rw [List.filter_cons, List.filter_cons, hfirst.isUnit_eq]
      split
      · rw [List.map_cons, List.map_cons, hfirst.2, ih]
      · exact ih
  | primitive | sequence | tuple | struct => rfl

end Definition

/-! ### Corresponding entries -/

section Related

variable {α β γ : Type} {R : β → γ → Prop}

/-- What is related is missing on both sides or on neither. -/
theorem rel_iff {first : Option β} {second : Option γ} :
    Option.Rel R first second ↔
      first = none ∧ second = none ∨
        ∃ value value', first = some value ∧ second = some value' ∧ R value value' := by
  refine ⟨?_, ?_⟩
  · rintro (hrel | _)
    · exact .inr ⟨_, _, rfl, rfl, hrel⟩
    · exact .inl ⟨rfl, rfl⟩
  · rintro (⟨rfl, rfl⟩ | ⟨value, value', rfl, rfl, hrel⟩)
    · exact .none
    · exact .some hrel

/-- Corresponding entries are found under the same keys. -/
theorem rel_lookup [BEq α] {entries : List (α × β)} {entries' : List (α × γ)} (key : α)
    (h : List.Forall₂ (fun entry entry' => entry.1 = entry'.1 ∧ R entry.2 entry'.2)
      entries entries') : Option.Rel R (entries.lookup key) (entries'.lookup key) := by
  induction h with
  | nil => exact .none
  | cons hfirst _ ih =>
    rw [List.lookup_cons, List.lookup_cons, ← hfirst.1]
    -- the key is that of the first entries of both, or of neither
    split
    · exact .some hfirst.2
    · exact ih

end Related

namespace Container

variable {a b : Container} {among : String → Prop} {seen pending nominal names : List String}
  {name parent : String} {definition other : Definition} {variant variant' : Variant}

/-! ### Schemas that agree on some names -/

/-- The two schemas define the names of a kind alike, and what these carry is of the kind. -/
structure AgreesOn (among : String → Prop) (a b : Container) : Prop where
  alike : ∀ name, among name → Option.Rel Definition.LooksLike (a.get? name) (b.get? name)
  carried : ∀ name, among name → ∀ child ∈ a.carriedBy name, among child

/-- What the definition carries is of the kind. -/
def CarriesOnly (among : String → Prop) (definition : Definition) : Prop :=
  ∀ child ∈ definition.carryingVariants.map Variant.declaration, among child

namespace AgreesOn

/-- A name of the kind is defined in neither of the schemas, or in both of them. -/
theorem undefined_or_alike (h : AgreesOn among a b) (hname : among name) :
    a.get? name = none ∧ b.get? name = none ∨
      ∃ definition other, a.get? name = some definition ∧ b.get? name = some other ∧
        definition.LooksLike other ∧ CarriesOnly among definition := by
  rcases rel_iff.mp (h.alike name hname) with habsent | ⟨definition, other, ha, hb, halike⟩
  · exact .inl habsent
  · have hcarries := h.carried name hname
    rw [carriedBy, ha] at hcarries
    exact .inr ⟨definition, other, ha, hb, halike, hcarries⟩

/-- Definitions that are the same look alike. -/
theorem of_get?_eq (hsame : ∀ name, among name → a.get? name = b.get? name)
    (hcarried : ∀ name, among name → ∀ child ∈ a.carriedBy name, among child) :
    AgreesOn among a b where
  alike name hname := by
    rw [hsame name hname]
    cases b.get? name with
    | none => exact .none
    | some definition => exact .some (.refl definition)
  carried := hcarried

/-! ### What is read -/

/-- What is read for a name itself is the same in both. -/
theorem ownReads_eq (h : AgreesOn among a b) (hname : among name) :
    a.ownReads name = b.ownReads name := by
  rw [ownReads, ownReads]
  rcases h.undefined_or_alike hname with ⟨ha, hb⟩ | ⟨_, _, ha, hb, halike, -⟩
  · rw [ha, hb]
  · rw [ha, hb]
    cases halike <;> rfl

/-- What is carried by a name is the same in both. -/
theorem carriedBy_eq (h : AgreesOn among a b) (hname : among name) :
    a.carriedBy name = b.carriedBy name := by
  rw [carriedBy, carriedBy]
  rcases h.undefined_or_alike hname with ⟨ha, hb⟩ | ⟨_, _, ha, hb, halike, -⟩
  · rw [ha, hb]
  · rw [ha, hb]
    exact halike.carried_eq

/-- **The walk through payloads** reads the same in both: it never leaves the names of the kind. -/
theorem payloadReads_eq (h : AgreesOn among a b) (hpending : ∀ child ∈ pending, among child) :
    a.payloadReads seen pending = b.payloadReads seen pending := by
  -- the walk through the first schema is followed, and the other one looks up the same names:
  -- as long as they are of the kind, they carry the same in both
  induction seen, pending using walk_induction a with
  | done seen => rw [payloadReads, payloadReads]
  | skip seen declaration pending hseen ih =>
    rw [payloadReads_cons_of_mem hseen, payloadReads_cons_of_mem hseen]
    exact ih fun child hchild => hpending child (List.mem_cons_of_mem _ hchild)
  | look seen declaration pending hfresh ih =>
    obtain ⟨hdeclaration, hpending⟩ := List.forall_mem_cons.mp hpending
    rw [payloadReads_cons hfresh, payloadReads_cons hfresh, ← h.ownReads_eq hdeclaration,
      ← h.carriedBy_eq hdeclaration,
      ih (List.forall_mem_append.mpr ⟨h.carried declaration hdeclaration, hpending⟩)]

/-- What is read for a definition of the kind is the same in both. -/
theorem declarationsRead_eq (h : AgreesOn among a b) (halike : definition.LooksLike other)
    (hcarries : CarriesOnly among definition) :
    a.declarationsRead definition = b.declarationsRead other := by
  rw [Container.declarationsRead_eq, Container.declarationsRead_eq, ← halike.fieldDeclarations_eq,
    ← halike.carried_eq, h.payloadReads_eq hcarries]

/-- A name of the kind has the same dependencies in both. -/
theorem dependenciesOf_eq (h : AgreesOn among a b) (hname : among name) :
    a.dependenciesOf nominal name = b.dependenciesOf nominal name := by
  rw [dependenciesOf, dependenciesOf]
  rcases h.undefined_or_alike hname with ⟨ha, hb⟩ | ⟨_, _, ha, hb, halike, hcarries⟩
  · rw [ha, hb]
  · rw [ha, hb]
    show a.dependencies nominal _ = b.dependencies nominal _
    rw [dependencies, dependencies, h.declarationsRead_eq halike hcarries]

/-! ### The order -/

/-- Names of the kind have the same graph in both. -/
theorem dependencyGraph_eq (h : AgreesOn among a b) (hnames : ∀ name ∈ names, among name) :
    a.dependencyGraph names = b.dependencyGraph names := by
  refine mapM_eq_of_forall₂ (List.forall₂_same.mpr fun name hname => ?_)
  rw [h.dependenciesOf_eq (hnames name hname)]

/-- **Names of the kind are put in the same order**, or fail to be by the same fault. -/
theorem resolve_eq (h : AgreesOn among a b) (hnominal : ∀ name ∈ nominal, among name) :
    a.resolve nominal = b.resolve nominal := by
  have hgraph : a.dependencyGraph nominal.eraseDups = b.dependencyGraph nominal.eraseDups :=
    h.dependencyGraph_eq fun name hname => hnominal name (List.mem_eraseDups.mp hname)
  rw [resolve, resolve, hgraph]

/-! ### The blocks -/

/-- Variants that look alike carry the same payload, or are refused alike. -/
theorem payload_eq (h : AgreesOn among a b) (halike : variant.LooksLike variant')
    (hcarries : ¬ variant.isUnit → among variant.declaration) :
    a.payload parent variant = b.payload parent variant' := by
  rw [payload, payload, ← halike.isUnit_eq, ← halike.1, ← halike.2]
  split
  · rfl
  · next hunit =>
    -- only now the declaration is looked up, so nothing need be known of that of a unit variant
    rcases h.undefined_or_alike (hcarries hunit) with ⟨ha, hb⟩ | ⟨_, _, ha, hb, hfound, -⟩
    · rw [ha, hb]
    · rw [ha, hb]
      cases hfound <;> rfl

/-- Definitions that look alike get blocks of the same form, or are refused alike. -/
theorem bindingForm_eq (h : AgreesOn among a b) (halike : definition.LooksLike other)
    (hcarries : CarriesOnly among definition) :
    a.bindingForm name definition = b.bindingForm name other := by
  cases halike with
  | @enum width _ variants _ hvariants =>
    have hvariants := (List.forall₂_and_left variants _).mpr ⟨fun _ hmem => hmem, hvariants⟩
    -- the cases are made one by one, from variants that correspond
    refine congrArg (BindingForm.enum <$> ·) (mapM_eq_of_forall₂ (hvariants.imp ?_))
    rintro variant variant' ⟨hmem, halike⟩
    have hpayload : a.payload name variant = b.payload name variant' := by
      refine h.payload_eq halike fun hunit => hcarries _ (List.mem_map_of_mem ?_)
      exact mem_carryingVariants_iff.mpr ⟨hmem, hunit⟩
    rw [hpayload, halike.1]
  | @struct fields => cases fields <;> rfl
  | primitive | sequence | tuple => rfl

/-- **Names of the kind get the same blocks**, or fail to by the same fault. -/
theorem bindings_eq (h : AgreesOn among a b) (hnames : ∀ name ∈ names, among name) :
    a.bindings names = b.bindings names := by
  have hentries : List.Forall₂ (fun entry entry' : String × Definition => entry.1 = entry'.1 ∧
        a.bindingForm entry.1 entry.2 = b.bindingForm entry'.1 entry'.2)
      (names.filterMap fun name => (a.get? name).map (name, ·))
      (names.filterMap fun name => (b.get? name).map (name, ·)) := by
    -- the same names are passed over in both, so those that are left correspond
    induction names with
    | nil => exact .nil
    | cons name names ih =>
      obtain ⟨hname, hnames⟩ := List.forall_mem_cons.mp hnames
      rcases h.undefined_or_alike hname with ⟨ha, hb⟩ | ⟨_, _, ha, hb, halike, hcarries⟩
      · rw [List.filterMap_cons_none (by rw [ha]; rfl), List.filterMap_cons_none (by rw [hb]; rfl)]
        exact ih hnames
      · rw [List.filterMap_cons_some (by rw [ha]; rfl), List.filterMap_cons_some (by rw [hb]; rfl)]
        exact .cons ⟨rfl, h.bindingForm_eq halike hcarries⟩ (ih hnames)
  refine mapM_eq_of_forall₂ (hentries.imp ?_)
  rintro ⟨name, definition⟩ ⟨_, other⟩ ⟨rfl, hform⟩
  dsimp only at hform ⊢
  rw [hform]

/-- The texts of modules for names of the kind are the same. -/
theorem emit_eq (h : AgreesOn among a b) (options : Options)
    (hnames : ∀ name ∈ names, among name) : a.emit options names = b.emit options names := by
  rw [emit, emit, h.bindings_eq hnames]

/-- **Schemas with the same nominal names that agree on them have the same bindings**, or fail by
the same fault. -/
theorem generate_eq (h : AgreesOn among a b) (options : Options)
    (hsame : a.nominalNames = b.nominalNames) (hnominal : ∀ name ∈ a.nominalNames, among name) :
    a.generate options = b.generate options := by
  have hresolve : a.resolve a.nominalNames = b.resolve b.nominalNames := by
    rw [← hsame, h.resolve_eq hnominal]
  -- the order is the same, or there is none by the same fault
  cases hsorted : a.resolve a.nominalNames with
  | error fault =>
    rw [generate_of_resolve_error hsorted, generate_of_resolve_error (hresolve.symm.trans hsorted)]
  | ok sorted =>
    rw [generate_of_resolve hsorted, generate_of_resolve (hresolve.symm.trans hsorted)]
    -- what has been resolved is the nominal names, so it is of the kind
    exact h.emit_eq options fun name hname => hnominal name ((mem_of_resolve hsorted).mp hname)

end AgreesOn

/-! ### Entry by entry -/

/-- The schemas define the same names in the same order, and the definitions look alike one by
one. -/
def LooksLike (a b : Container) : Prop :=
  List.Forall₂ (fun entry entry' => entry.1 = entry'.1 ∧ entry.2.LooksLike entry'.2)
    a.definitions.entries b.definitions.entries

/-- Schemas that look alike agree on all names. -/
theorem LooksLike.agreesOn (h : a.LooksLike b) : AgreesOn (fun _ => True) a b where
  alike name _ := rel_lookup name h
  carried _ _ _ _ := trivial

/-- Schemas that look alike have the same payloads. -/
theorem LooksLike.payloadNames_eq (h : a.LooksLike b) : a.payloadNames = b.payloadNames := by
  rw [← List.forall₂_eq_eq_eq]
  -- entry by entry the same name decides, and then the same is carried
  refine List.rel_flatMap h ?_
  rintro ⟨name, definition⟩ ⟨_, other⟩ ⟨rfl, halike⟩
  rw [List.forall₂_eq_eq_eq]
  dsimp only at halike ⊢
  rw [halike.carried_eq]

/-- Schemas that look alike have the same nominal names. -/
theorem LooksLike.nominalNames_eq (h : a.LooksLike b) : a.nominalNames = b.nominalNames := by
  -- with the same payloads, an entry is kept for its name and its kind
  rw [nominalNames, nominalNames, h.payloadNames_eq, ← List.forall₂_eq_eq_eq]
  refine List.rel_map (fun _ _ hentry => hentry.1) (List.rel_filter ?_ h)
  rintro ⟨name, definition⟩ ⟨_, other⟩ ⟨rfl, halike⟩
  dsimp only at halike ⊢
  rw [isSynthetic, isSynthetic, halike.kind_eq]

/-- **Bindings show names, kinds, fields and variants, and nothing else.** Schemas that define the
same names in the same order, by definitions that look alike one by one, have the same text under
all options, or fail by the same fault. -/
theorem generate_of_alike (h : a.LooksLike b) (options : Options) :
    a.generate options = b.generate options :=
  h.agreesOn.generate_eq options h.nominalNames_eq fun _ _ => trivial

/-- Items that may hold octets. Left open are the root, a size, the bounds of a sequence, and a
definition of pairs. -/
def measuredItems (root : String) (size : UInt8) (lengths : LengthRange) (pair : Definition) :
    Container where
  declaration := root
  definitions :=
    { entries := [
        ("Pair", pair),
        ("Item", .enum size [⟨0, "Empty", "()"⟩, ⟨lengths.first.toInt64, "Full", "Octets"⟩]),
        ("Octets", .struct (.unnamed ["Vec<u8>"])),
        ("Vec<u8>", .sequence size lengths root),
        ("u8", .primitive size)]
      nodup := by
        show ["Pair", "Item", "Octets", "Vec<u8>", "u8"].Nodup
        decide }

/-- Whatever is left open, the items look alike. -/
theorem looksLike_measuredItems {root root' : String} {size size' : UInt8}
    {lengths lengths' : LengthRange} (h : definition.LooksLike other) :
    (measuredItems root size lengths definition).LooksLike
      (measuredItems root' size' lengths' other) := by
  have hvariants : List.Forall₂ Variant.LooksLike
      [⟨0, "Empty", "()"⟩, ⟨lengths.first.toInt64, "Full", "Octets"⟩]
      [⟨0, "Empty", "()"⟩, ⟨lengths'.first.toInt64, "Full", "Octets"⟩] :=
    .cons ⟨rfl, rfl⟩ (.cons ⟨rfl, rfl⟩ .nil)
  exact .cons ⟨rfl, h⟩ (.cons ⟨rfl, .enum hvariants⟩ (.cons ⟨rfl, .struct⟩
    (.cons ⟨rfl, .sequence⟩ (.cons ⟨rfl, .primitive⟩ .nil))))

/-- The block of items that may hold octets. -/
def measuredBinding : Binding :=
  ⟨"Item", .enum [⟨"Empty", .value .unit⟩, ⟨"Full", .value (.generic .vec [.numeric "u8"])⟩]⟩

/-- Neither the sizes nor the bounds show in the block of items. Pairs have no block if they are
tuples, of whatever elements. -/
theorem generate_measuredItems :
    (measuredItems "u8" 2 ⟨9, 2⟩ (.primitive 8)).generate ⟨true⟩ =
        .ok (printModule ⟨true⟩ [measuredBinding]) ∧
      (measuredItems "u8" 2 ⟨9, 2⟩ (.tuple ["Item", "Item"])).generate ⟨true⟩ =
        .error (.undeclarable "Pair" .tuple) := by
  have hitems : (measuredItems "Item" 1 ⟨0, 4294967295⟩ (.primitive 0)).generate ⟨true⟩ =
      .ok (printModule ⟨true⟩ [measuredBinding]) := by
    refine generate_eq_ok_iff.mpr ⟨["Item"], [measuredBinding], ?_, by with_unfolding_all rfl, rfl⟩
    show (measuredItems "Item" 1 ⟨0, 4294967295⟩ (.primitive 0)).resolve ["Item"] = _
    decide +kernel
  have hpairs : (measuredItems "Item" 1 ⟨0, 4294967295⟩ (.tuple ["u8"])).generate ⟨true⟩ =
      .error (.undeclarable "Pair" .tuple) := by
    have hresolve : (measuredItems "Item" 1 ⟨0, 4294967295⟩ (.tuple ["u8"])).resolve
        (measuredItems "Item" 1 ⟨0, 4294967295⟩ (.tuple ["u8"])).nominalNames =
        .ok ["Pair", "Item"] := by
      show (measuredItems "Item" 1 ⟨0, 4294967295⟩ (.tuple ["u8"])).resolve ["Pair", "Item"] = _
      decide +kernel
    rw [generate_of_resolve hresolve, emit]
    refine map_eq_error_iff.mpr ?_
    with_unfolding_all rfl
  -- the items that have been computed with look like those of the statement
  rw [generate_of_alike (looksLike_measuredItems .primitive)] at hitems
  rw [generate_of_alike (looksLike_measuredItems .tuple)] at hpairs
  exact ⟨hitems, hpairs⟩

end Container

end WireBindings
