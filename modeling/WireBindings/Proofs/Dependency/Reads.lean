import Mathlib.Logic.Relation
import WireBindings.Dependency.Reads
import WireBindings.Dependency.Relation

/-!
# What is read is what is contributed

The walk through payloads looks nothing up twice, and still reads every declaration that a
definition contributes: `mem_declarationsRead_iff`.

Both sides are compared with paths. A carried declaration *leads to* another when it is the name of
an enum with a variant that carries the other, and it is a definition at the end of such a path, or
the lack of one, that has declarations to read. The walk with a list of names `seen` reads what lies
at the end of paths that meet no name of the list (`mem_payloadReads_iff`). When it looks up a
further name, a path through that name can be cut at the last place where it meets it, so nothing
is lost by not entering the name again (`reflTransGen_cut`).
-/

namespace WireBindings

open Relation

namespace Container

variable {container : Container} {seen pending : List String} {declaration other read : String}

/-! ### One payload -/

/-- The declarations that are read for a carried declaration itself, other payloads left aside. -/
def ownReads (container : Container) (declaration : String) : List String :=
  match container.get? declaration with
  | none => [declaration]
  | some (.struct fields) => fields.declarations
  | some _ => []

/-- The declarations that the variants of a carried declaration carry in turn. -/
def carriedBy (container : Container) (declaration : String) : List String :=
  match container.get? declaration with
  | none => []
  | some definition => definition.carryingVariants.map Variant.declaration

/-- The walk looks a new declaration up, reads what it has to itself and goes on with what it
carries. -/
theorem payloadReads_cons (hfresh : declaration ∉ seen) :
    container.payloadReads seen (declaration :: pending) =
      container.ownReads declaration ++
        container.payloadReads (declaration :: seen)
          (container.carriedBy declaration ++ pending) := by
  rw [payloadReads, if_neg hfresh, ownReads, carriedBy]
  -- nothing, a struct, an enum or another definition is found; each gives the two parts in its way
  split
  · next habsent =>
    rw [habsent]
    rfl
  · next fields hdefined =>
    rw [hdefined]
    rfl
  · next width variants hdefined =>
    rw [hdefined]
    rfl
  · next definition hstruct henum hdefined =>
    rw [hdefined]
    cases definition with
    | struct fields => exact absurd rfl (hstruct fields)
    | enum width variants => exact absurd rfl (henum width variants)
    | primitive _ => rfl
    | sequence _ _ _ => rfl
    | tuple _ => rfl

theorem payloadReads_cons_of_mem (hseen : declaration ∈ seen) :
    container.payloadReads seen (declaration :: pending) = container.payloadReads seen pending := by
  rw [payloadReads, if_pos hseen]

/-- **Induction along the walk.** It ends since a name that carries something is looked up only
once; here all kinds of what is looked up are one case. -/
@[elab_as_elim]
theorem walk_induction (container : Container) {motive : List String → List String → Prop}
    (done : ∀ seen, motive seen [])
    (skip : ∀ seen declaration pending, declaration ∈ seen → motive seen pending →
      motive seen (declaration :: pending))
    (look : ∀ seen declaration pending, declaration ∉ seen →
      motive (declaration :: seen) (container.carriedBy declaration ++ pending) →
      motive seen (declaration :: pending))
    (seen pending : List String) : motive seen pending := by
  induction seen, pending using payloadReads.induct container with
  | case1 seen => exact done seen
  | case2 seen declaration pending hseen ih => exact skip seen declaration pending hseen ih
  | case3 seen declaration pending hfresh habsent ih =>
    refine look seen declaration pending hfresh ?_
    rwa [carriedBy, habsent, List.nil_append]
  | case4 seen declaration pending hfresh fields hdefined ih =>
    refine look seen declaration pending hfresh ?_
    rwa [carriedBy, hdefined]
  | case5 seen declaration pending hfresh width variants hdefined ih =>
    refine look seen declaration pending hfresh ?_
    rwa [carriedBy, hdefined]
  | case6 seen declaration pending hfresh definition hstruct henum hdefined ih =>
    refine look seen declaration pending hfresh ?_
    rw [carriedBy, hdefined]
    cases definition with
    | struct fields => exact absurd rfl (hstruct fields)
    | enum width variants => exact absurd rfl (henum width variants)
    | primitive _ => exact ih
    | sequence _ _ _ => exact ih
    | tuple _ => exact ih

/-! ### Paths through payloads -/

/-- The first declaration names an enum of which a variant carries the second, and the second has
not been seen. -/
def LeadsOutside (container : Container) (seen : List String) (declaration other : String) : Prop :=
  other ∈ container.carriedBy declaration ∧ other ∉ seen

/-- The declaration is read at the end of a path from a pending one that meets nothing seen. -/
def ReadOutside (container : Container) (seen pending : List String) (read : String) : Prop :=
  ∃ start ∈ pending, start ∉ seen ∧
    ∃ last, ReflTransGen (container.LeadsOutside seen) start last ∧ read ∈ container.ownReads last

/-- What has not been seen among more names has not been seen among fewer. -/
theorem LeadsOutside.of_cons (h : container.LeadsOutside (read :: seen) declaration other) :
    container.LeadsOutside seen declaration other :=
  ⟨h.1, fun hseen => h.2 (List.mem_cons_of_mem _ hseen)⟩

/-- A path that meets a name can be cut at the last place where it does. -/
theorem reflTransGen_cut {start last : String} (name : String)
    (h : ReflTransGen (container.LeadsOutside seen) start last) :
    ReflTransGen (container.LeadsOutside (name :: seen)) start last ∨
      ReflTransGen (container.LeadsOutside (name :: seen)) name last := by
  -- the path is followed to its end; a step to the name starts it anew
  induction h with
  | refl => exact .inl .refl
  | @tail middle last _ hstep ih =>
    by_cases hname : last = name
    · subst hname
      exact .inr .refl
    · have hoff : container.LeadsOutside (name :: seen) middle last :=
        ⟨hstep.1, fun hmem => (List.mem_cons.mp hmem).elim hname hstep.2⟩
      exact ih.imp (·.tail hoff) (·.tail hoff)

/-- What lies at the end of paths from a name is read for the name itself, or lies at the end of
paths from what it carries that do not meet the name again. -/
theorem readOutside_of_path
    (h : ReflTransGen (container.LeadsOutside (declaration :: seen)) declaration other)
    (hread : read ∈ container.ownReads other) :
    read ∈ container.ownReads declaration ∨
      container.ReadOutside (declaration :: seen) (container.carriedBy declaration) read := by
  -- the path is empty, or its first step is to something carried
  rcases h.cases_head with rfl | ⟨next, hnext, hrest⟩
  · exact .inl hread
  · exact .inr ⟨next, hnext.1, hnext.2, other, hrest, hread⟩

/-- No path begins at something that has been seen. -/
theorem readOutside_cons_of_mem (hseen : declaration ∈ seen) :
    container.ReadOutside seen (declaration :: pending) read ↔
      container.ReadOutside seen pending read := by
  refine ⟨?_, ?_⟩
  · rintro ⟨start, hstart, hfresh, hpath⟩
    rcases List.mem_cons.mp hstart with rfl | hstart
    · exact absurd hseen hfresh
    · exact ⟨start, hstart, hfresh, hpath⟩
  · rintro ⟨start, hstart, hfresh, hpath⟩
    exact ⟨start, List.mem_cons_of_mem _ hstart, hfresh, hpath⟩

/-- Paths from a new declaration and from what else is pending, in terms of paths that do not meet
this declaration. -/
theorem readOutside_cons (hfresh : declaration ∉ seen) :
    container.ReadOutside seen (declaration :: pending) read ↔
      read ∈ container.ownReads declaration ∨
        container.ReadOutside (declaration :: seen) (container.carriedBy declaration ++ pending)
          read := by
  -- what begins at something carried begins at something that is pending next
  have hlift {start : String} (hstart : start ∈ container.carriedBy declaration) :
      start ∈ container.carriedBy declaration ++ pending := List.mem_append_left _ hstart
  refine ⟨?_, ?_⟩
  · rintro ⟨start, hstart, hunseen, last, hpath, hread⟩
    by_cases hsame : start = declaration
    · -- cut at the last return to the declaration: both cases are a path that leaves it for good
      subst hsame
      rcases readOutside_of_path ((reflTransGen_cut start hpath).elim id id) hread with hown | h
      · exact .inl hown
      · obtain ⟨next, hnext, hrest⟩ := h
        exact .inr ⟨next, hlift hnext, hrest⟩
    · have hpending : start ∈ pending := (List.mem_cons.mp hstart).resolve_left hsame
      rcases reflTransGen_cut declaration hpath with hoff | hthrough
      · exact .inr ⟨start, List.mem_append_right _ hpending,
          fun hmem => (List.mem_cons.mp hmem).elim hsame hunseen, last, hoff, hread⟩
      · rcases readOutside_of_path hthrough hread with hown | h
        · exact .inl hown
        · obtain ⟨next, hnext, hrest⟩ := h
          exact .inr ⟨next, hlift hnext, hrest⟩
  · rintro (hown | ⟨start, hstart, hunseen, last, hpath, hread⟩)
    · exact ⟨declaration, List.mem_cons_self, hfresh, declaration, .refl, hown⟩
    · have hpath' : ReflTransGen (container.LeadsOutside seen) start last :=
        ReflTransGen.mono (fun _ _ h => LeadsOutside.of_cons h) _ _ hpath
      have hunseen' : start ∉ seen := fun hseen => hunseen (List.mem_cons_of_mem _ hseen)
      rcases List.mem_append.mp hstart with hcarried | hpending
      · exact ⟨declaration, List.mem_cons_self, hfresh, last, hpath'.head ⟨hcarried, hunseen'⟩,
          hread⟩
      · exact ⟨start, List.mem_cons_of_mem _ hpending, hunseen', last, hpath', hread⟩

/-- **The walk reads what lies at the end of paths**, and nothing else. -/
theorem mem_payloadReads_iff :
    read ∈ container.payloadReads seen pending ↔ container.ReadOutside seen pending read := by
  -- each case of the walk has its lemma about paths
  induction seen, pending using walk_induction container with
  | done seen => simp [payloadReads, ReadOutside]
  | skip seen declaration pending hseen ih =>
    rw [payloadReads_cons_of_mem hseen, readOutside_cons_of_mem hseen]
    exact ih
  | look seen declaration pending hfresh ih =>
    rw [payloadReads_cons hfresh, List.mem_append, ih, readOutside_cons hfresh]

/-! ### Contributions -/

/-- The declaration is read at the end of a path of payloads. -/
def ReadBeyond (container : Container) (declaration read : String) : Prop :=
  ∃ last, ReflTransGen (container.LeadsOutside []) declaration last ∧ read ∈ container.ownReads last

/-- The variants that carry something are those that are no unit. -/
theorem mem_carryingVariants_iff {width : UInt8} {variants : List Variant} {variant : Variant} :
    variant ∈ (Definition.enum width variants).carryingVariants ↔
      variant ∈ variants ∧ ¬ variant.isUnit := by
  rw [Definition.carryingVariants, List.mem_filter, Bool.not_eq_true', Bool.not_eq_true]

/-- A variant that carries something leads from the name of its enum to it. -/
theorem leadsOutside_nil {width : UInt8} {variants : List Variant} {variant : Variant}
    (hdefined : container.get? declaration = some (.enum width variants))
    (hmem : variant ∈ variants) (hcarries : ¬ variant.isUnit) :
    container.LeadsOutside [] declaration variant.declaration := by
  refine ⟨?_, List.not_mem_nil⟩
  rw [carriedBy, hdefined]
  exact List.mem_map_of_mem (mem_carryingVariants_iff.mpr ⟨hmem, hcarries⟩)

/-- What the definition of a carried declaration contributes is read beyond that declaration. -/
theorem Contributes.readBeyond {definition : Definition}
    (h : container.Contributes definition read) :
    ∀ declaration, container.get? declaration = some definition →
      container.ReadBeyond declaration read := by
  -- the rules of contribution are the ways in which a path of payloads can begin
  induction h with
  | field hmem =>
    intro declaration hdefined
    refine ⟨declaration, .refl, ?_⟩
    rw [ownReads, hdefined]
    exact hmem
  | @undefined width variants variant hmem hcarries habsent =>
    intro declaration hdefined
    refine ⟨variant.declaration, .single (leadsOutside_nil hdefined hmem hcarries), ?_⟩
    rw [ownReads, habsent]
    exact List.mem_singleton_self _
  | payload hmem hcarries hcarried _ ih =>
    intro declaration hdefined
    obtain ⟨last, hpath, hread⟩ := ih _ hcarried
    exact ⟨last, hpath.head (leadsOutside_nil hdefined hmem hcarries), hread⟩

/-- The variant of an enum that carries the declaration contributes what is read beyond it. -/
theorem contributes_of_readBeyond {width : UInt8} {variants : List Variant} {variant : Variant}
    (hmem : variant ∈ variants) (hcarries : ¬ variant.isUnit)
    (h : container.ReadBeyond variant.declaration read) :
    container.Contributes (.enum width variants) read := by
  obtain ⟨last, hpath, hread⟩ := h
  -- the induction goes along the path, so the enum and its variant change from step to step
  generalize hstart : variant.declaration = start at hpath
  induction hpath using ReflTransGen.head_induction_on generalizing width variants variant with
  | refl =>
    subst hstart
    -- at the end of the path stands a name without a definition or that of a struct
    rw [ownReads] at hread
    split at hread
    · next habsent =>
      rw [List.mem_singleton.mp hread]
      exact .undefined hmem hcarries habsent
    · next fields hdefined => exact .payload hmem hcarries hdefined (.field hread)
    · cases hread
  | head hstep _ ih =>
    subst hstart
    have hcarried := hstep.1
    rw [carriedBy] at hcarried
    split at hcarried
    · cases hcarried
    · next definition hdefined =>
      obtain ⟨inner, hinner, hnext⟩ := List.mem_map.mp hcarried
      cases definition with
      | enum innerWidth innerVariants =>
        obtain ⟨hinnerMem, hinnerCarries⟩ := mem_carryingVariants_iff.mp hinner
        exact .payload hmem hcarries hdefined (ih hinnerMem hinnerCarries hnext)
      | primitive _ => cases hinner
      | sequence _ _ _ => cases hinner
      | tuple _ => cases hinner
      | struct _ => cases hinner

/-- An enum contributes what is read beyond the declarations that its variants carry. -/
theorem contributes_enum_iff_readBeyond {width : UInt8} {variants : List Variant} :
    container.Contributes (.enum width variants) read ↔
      ∃ variant ∈ variants, ¬ variant.isUnit ∧ container.ReadBeyond variant.declaration read := by
  refine ⟨?_, ?_⟩
  · intro h
    cases h with
    | @undefined _ _ variant hmem hcarries habsent =>
      refine ⟨variant, hmem, hcarries, variant.declaration, .refl, ?_⟩
      rw [ownReads, habsent]
      exact List.mem_singleton_self _
    | payload hmem hcarries hcarried hinside =>
      exact ⟨_, hmem, hcarries, hinside.readBeyond _ hcarried⟩
  · rintro ⟨variant, hmem, hcarries, h⟩
    exact contributes_of_readBeyond hmem hcarries h

/-- **What is read is what is contributed**: for every definition, also where enums carry each other
in a circle. -/
theorem mem_declarationsRead_iff {definition : Definition} :
    read ∈ container.declarationsRead definition ↔ container.Contributes definition read := by
  -- only structs and enums contribute anything
  have hnone (hkind : definition.kind ≠ .struct ∧ definition.kind ≠ .enum) :
      ¬ container.Contributes definition read := fun h =>
    h.kind_eq.elim hkind.1 hkind.2
  cases definition with
  | struct fields => rw [declarationsRead, contributes_struct_iff]
  | enum width variants =>
    rw [declarationsRead, mem_payloadReads_iff, contributes_enum_iff_readBeyond]
    refine ⟨?_, ?_⟩
    · rintro ⟨start, hstart, -, last, hpath, hread⟩
      obtain ⟨variant, hvariant, rfl⟩ := List.mem_map.mp hstart
      obtain ⟨hmem, hcarries⟩ := mem_carryingVariants_iff.mp hvariant
      exact ⟨variant, hmem, hcarries, last, hpath, hread⟩
    · rintro ⟨variant, hmem, hcarries, last, hpath, hread⟩
      exact ⟨variant.declaration,
        List.mem_map_of_mem (mem_carryingVariants_iff.mpr ⟨hmem, hcarries⟩),
        List.not_mem_nil, last, hpath, hread⟩
  | primitive _ => exact ⟨nofun, fun h => absurd h (hnone ⟨nofun, nofun⟩)⟩
  | sequence _ _ _ => exact ⟨nofun, fun h => absurd h (hnone ⟨nofun, nofun⟩)⟩
  | tuple _ => exact ⟨nofun, fun h => absurd h (hnone ⟨nofun, nofun⟩)⟩

end Container

end WireBindings
