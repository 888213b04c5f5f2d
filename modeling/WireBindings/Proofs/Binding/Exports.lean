import WireBindings.Proofs.Binding.Stages

/-!
# Exports

Whether the declarations are exported is the only choice that is left open about the text of a
module. It decides about a keyword and about nothing else (`exports_add_keyword`): with and without
exports there is the same fault, or there are blocks for the same names in the same order, and a
block that is exported is the block that is not with the keyword put in twice (`KeywordAdded`).

The choice is made in the very last step. Names are found, sorted and given their bindings without a
look at it, and of a binding it meets only the lines around its form (`Binding.print_eq`). That no
block is missing in one of the texts and there in the other follows, since both texts are printed
from the same bindings (`exportOf_printModule`).
-/

namespace WireBindings

/-- The alias of a type, with which its block ends. -/
def aliasText (name : String) : String :=
  "type " ++ name ++ " = b.infer<typeof " ++ constantName name ++ ">;"

/-- The second block of the name is the first with the keyword put in at two places, in front of the
`const` with which the block begins and in front of the `type` with which its alias begins. -/
inductive KeywordAdded (name : String) : String → String → Prop
  -- the value stands in both blocks, so nothing that is nested in it can differ
  | mk (value : String) :
      KeywordAdded name
        ("const " ++ constantName name ++ " = " ++ value ++ ";\n" ++ aliasText name)
        ("export " ++ ("const " ++ constantName name ++ " = " ++ value ++ ";\n") ++
          ("export " ++ aliasText name))

/-- The text of a module with these blocks. -/
def moduleText (blocks : List String) : String := "\n\n".intercalate (preamble :: blocks) ++ "\n"

/-- The texts are those of two modules with one block for each of the names, in their order. Each
block of the second is the block of the first for the same name, with the keyword added. -/
def ExportOf (names : List String) (plain exported : String) : Prop :=
  ∃ blocks : List (String × String),
    List.Forall₂ (fun name block => KeywordAdded name block.1 block.2) names blocks ∧
      plain = moduleText (blocks.map Prod.fst) ∧ exported = moduleText (blocks.map Prod.snd)

/-! ### Blocks -/

/-- The keyword stands in front of the two declarations of a block, and nowhere else. -/
theorem Binding.print_eq (options : Options) (binding : Binding) :
    binding.print options =
      options.keyword ++
          ("const " ++ constantName binding.name ++ " = " ++ binding.form.print ++ ";\n") ++
        (options.keyword ++ aliasText binding.name) := by
  simp only [Binding.print, aliasText, String.append_assoc]

/-- The block of a binding is exported by adding the keyword. -/
theorem keywordAdded_print (binding : Binding) :
    KeywordAdded binding.name (binding.print ⟨false⟩) (binding.print ⟨true⟩) := by
  have hplain : Options.keyword ⟨false⟩ = "" := rfl
  have hexported : Options.keyword ⟨true⟩ = "export " := rfl
  rw [Binding.print_eq, Binding.print_eq, hplain, hexported, String.empty_append,
    String.empty_append]
  exact .mk binding.form.print

/-- The texts of the same bindings, with exports and without. -/
theorem exportOf_printModule (bindings : List Binding) :
    ExportOf (bindings.map Binding.name) (printModule ⟨false⟩ bindings)
      (printModule ⟨true⟩ bindings) := by
  refine ⟨bindings.map fun binding => (binding.print ⟨false⟩, binding.print ⟨true⟩), ?_, ?_, ?_⟩
  · -- names and pairs of blocks run through the same bindings
    rw [List.forall₂_map_left_iff, List.forall₂_map_right_iff]
    exact List.forall₂_same.mpr fun binding _ => keywordAdded_print binding
  · rw [List.map_map]
    rfl
  · rw [List.map_map]
    rfl

namespace Container

variable {container : Container}

/-! ### Modules -/

/-- The blocks for some names, with exports and without. -/
theorem emit_exports (container : Container) (names : List String) :
    (∃ fault, container.emit ⟨true⟩ names = .error fault ∧
      container.emit ⟨false⟩ names = .error fault) ∨
    ∃ plain exported, container.emit ⟨false⟩ names = .ok plain ∧
      container.emit ⟨true⟩ names = .ok exported ∧
      ExportOf (names.filter fun name => (container.get? name).isSome) plain exported := by
  -- the bindings are made before the options are looked at
  cases h : container.bindings names with
  | error fault => exact .inl ⟨fault, map_eq_error_iff.mpr h, map_eq_error_iff.mpr h⟩
  | ok bindings =>
    refine .inr ⟨_, _, map_eq_ok_iff.mpr ⟨_, h, rfl⟩, map_eq_ok_iff.mpr ⟨_, h, rfl⟩, ?_⟩
    rw [← map_name_eq_filter h]
    exact exportOf_printModule bindings

/-- **Exports add a keyword, and nothing else.** With and without exports, whatever names are given
to be emitted, there is the same fault, or there are blocks for the same names, namely for those
that have a definition, in the given order; and a block that is exported is the one that is not with
the keyword in front of its `const` and in front of the `type` of its alias. The same holds of what
is generated for a whole schema, with blocks for the resolved names. -/
theorem exports_add_keyword (container : Container) :
    (∀ names,
      (∃ fault, container.emit ⟨true⟩ names = .error fault ∧
        container.emit ⟨false⟩ names = .error fault) ∨
      ∃ plain exported, container.emit ⟨false⟩ names = .ok plain ∧
        container.emit ⟨true⟩ names = .ok exported ∧
        ExportOf (names.filter fun name => (container.get? name).isSome) plain exported) ∧
    ((∃ fault, container.generate ⟨true⟩ = .error fault ∧
        container.generate ⟨false⟩ = .error fault) ∨
      ∃ names plain exported, container.resolve container.nominalNames = .ok names ∧
        container.generate ⟨false⟩ = .ok plain ∧ container.generate ⟨true⟩ = .ok exported ∧
        ExportOf names plain exported) := by
  refine ⟨container.emit_exports, ?_⟩
  cases hsorted : container.resolve container.nominalNames with
  | error fault =>
    exact .inl ⟨fault, generate_of_resolve_error hsorted, generate_of_resolve_error hsorted⟩
  | ok sorted =>
    rw [generate_of_resolve hsorted, generate_of_resolve hsorted]
    -- every resolved name has a definition, so none of them is passed over
    have hdefined : (sorted.filter fun name => (container.get? name).isSome) = sorted :=
      filter_eq_self_of_defined fun name hname =>
        exists_definition_of_mem_nominalNames ((mem_of_resolve hsorted).mp hname)
    have hemitted := container.emit_exports sorted
    rw [hdefined] at hemitted
    exact hemitted.imp_right fun ⟨plain, exported, htexts⟩ => ⟨sorted, plain, exported, rfl, htexts⟩

end Container

end WireBindings
