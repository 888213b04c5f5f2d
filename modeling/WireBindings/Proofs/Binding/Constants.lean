import WireBindings.Proofs.Binding.DeclareBeforeUse
import WireBindings.Proofs.Schema.Nominal
import WireBindings.Proofs.TypeExpr.Rendering

/-!
# The constants of nominal types

A nominal type whose name is an identifier is known under that name in all parts of a module. Its
block introduces a constant, and this is the constant that the builder expressions refer to: a
declaration is rendered by it exactly if it is the name, with blanks around it at most
(`nominal_constants`).

What could go wrong is that a declaration means a built-in type where the schema means a definition
of that name. Numbers and text are told apart from other names twice, by the classification of the
definitions and by the reader of declarations, and the two do not draw the same line: what counts as
a number for the first may be a mere name for the second. One direction is enough. Whatever the
reader takes for built in is no nominal name (`not_builtIn_of_mem_nominalNames`).
-/

namespace WireBindings

open Text (trim)

variable {name constant : String} {options : Options} {binding : Binding}

/-! ### The constant of a block -/

/-- The block introduces the constant: an identifier that stands between `const`, with the keyword
before it, and an equals sign. -/
def Introduces (options : Options) (block constant : String) : Prop :=
  Identifier constant.toList ∧
    ∃ value, block = options.keyword ++ "const " ++ constant ++ " = " ++ value

/-- The constant of an identifier is one. -/
theorem identifier_constantName (h : Identifier name.toList) :
    Identifier (constantName name).toList := by
  obtain ⟨first, rest, hname, hfirst, hrest⟩ := h
  refine ⟨first, rest ++ "Schema".toList, ?_, hfirst, ?_⟩
  · rw [constantName, String.toList_append, hname, List.cons_append]
  · exact List.forall_mem_append.mpr ⟨hrest, List.all_eq_true.mp (by decide)⟩

/-- Every block begins with the constant of its name. -/
theorem exists_print_eq (options : Options) (binding : Binding) :
    ∃ value, binding.print options =
      options.keyword ++ "const " ++ constantName binding.name ++ " = " ++ value := by
  unfold Binding.print
  simp only [String.append_assoc]
  exact ⟨_, rfl⟩

/-- **A block introduces one constant**, and it can be read off the text: as the name is an
identifier, the constant ends where the first blank stands. -/
theorem introduces_print_iff (h : Identifier binding.name.toList) :
    Introduces options (binding.print options) constant ↔ constant = constantName binding.name := by
  obtain ⟨value, hprint⟩ := exists_print_eq options binding
  refine ⟨?_, ?_⟩
  · rintro ⟨hword, other, hother⟩
    -- keyword and `const` are the same, so what is left are two words and what follows them
    have htext : constant.toList ++ (" = ".toList ++ other.toList) =
        (constantName binding.name).toList ++ (" = ".toList ++ value.toList) := by
      have hsame := congrArg String.toList (hother.symm.trans hprint)
      simpa only [String.toList_append, List.append_assoc, List.append_cancel_left_eq] using hsame
    have hends (rest : List Char) : EndsWord (" = ".toList ++ rest) := endsWord_cons (by decide) _
    exact String.toList_inj.mp
      (eq_of_words hword.isWordChar (isWordChar_constantName h) (hends _) (hends _) htext)
  · rintro rfl
    exact ⟨identifier_constantName h, value, hprint⟩

/-! ### Names that are built in -/

/-- A number of fixed width is named by a small letter and digits. -/
theorem isNumberName_of_numericName (h : NumericName name.toList) : isNumberName name := by
  obtain ⟨first, digits, hname, hfirst, -, hdigits⟩ := h
  have hletter : first.isLower := by
    simp only [List.mem_cons, List.not_mem_nil, or_false] at hfirst
    rcases hfirst with rfl | rfl | rfl <;> decide
  unfold isNumberName
  rw [hname]
  exact Bool.and_eq_true_iff.mpr ⟨hletter, List.all_eq_true.mpr hdigits⟩

/-- **What the reader takes for built in is not nominal.** -/
theorem not_builtIn_of_mem_nominalNames {container : Container}
    (h : name ∈ container.nominalNames) : ¬ NumericName name.toList ∧ name ≠ "String" := by
  obtain ⟨definition, -, -, hsynthetic⟩ := Container.mem_nominalNames_iff.mp h
  -- what is spelled out is synthetic, whatever its definition
  have hspelled : ¬ SpelledOut name := fun hspelled =>
    hsynthetic (isSynthetic_iff.mpr (.inl hspelled))
  refine ⟨?_, ?_⟩
  · intro hnumeric
    exact hspelled (.inr (.inr (.inl (isNumberName_of_numericName hnumeric))))
  · intro hstring
    exact hspelled (.inr (.inr (.inr hstring)))

/-! ### Declarations that refer to a name -/

/-- Only a word denotes a reference, and the name referred to is the word itself. -/
theorem trim_eq_of_reads_named {text : List Char} (h : Reads text (.named name)) :
    trim text = name.toList := by
  have hform := reads_iff.mp h
  generalize outline (trim text) = form at hform
  cases hform with
  | word hdenotes =>
    -- text and the numbers are words too, and they are tried before references
    unfold TypeExpr.ofWord? at hdenotes
    split at hdenotes
    · cases hdenotes
    · split at hdenotes
      · cases hdenotes
      · split at hdenotes
        · cases hdenotes
          exact String.toList_ofList.symm
        · cases hdenotes

/-- An identifier that is not built in is referred to by itself, with blanks around it or not. -/
theorem parse_eq_named_iff (h : Identifier name.toList) (hnumeric : ¬ NumericName name.toList)
    (hstring : name ≠ "String") (declaration : String) :
    TypeExpr.parse declaration = .ok (.named name) ↔ trim declaration.toList = name.toList := by
  refine ⟨?_, ?_⟩
  · exact trim_eq_of_reads_named
  · intro htrim
    have hstring' : name.toList ≠ ['S', 't', 'r', 'i', 'n', 'g'] := fun heq =>
      hstring (String.toList_inj.mp heq)
    -- the name by itself is read as a reference, and blanks around it do not matter
    have hreads := (readsWhole_named h hnumeric hstring').reads
    rw [String.ofList_toList, ← htrim] at hreads
    exact reads_trim_iff.mp hreads

/-- The constant of a name renders the references to the name and nothing else. -/
theorem render_eq_constantName_iff (h : (TypeExpr.named name).Denotable) (declaration : String) :
    TypeExpr.render <$> TypeExpr.parse declaration = .ok (constantName name) ↔
      TypeExpr.parse declaration = .ok (.named name) := by
  refine ⟨?_, ?_⟩
  · intro hrendered
    obtain ⟨type, hparse, htext⟩ := map_eq_ok_iff.mp hrendered
    rw [hparse, (denotable_of_parse hparse).eq_of_render h htext]
  · intro hparse
    rw [hparse]
    rfl

namespace Container

variable {container : Container}

/-- A nominal name that is among those emitted has a block in the module. -/
theorem exists_block_of_emit {names : List String} {text : String}
    (h : container.emit options names = .ok text) (hnominal : name ∈ container.nominalNames)
    (hname : name ∈ names) :
    ∃ bindings, container.bindings names = .ok bindings ∧ text = printModule options bindings ∧
      ∃ binding ∈ bindings, binding.name = name := by
  obtain ⟨bindings, hbindings, htext⟩ := map_eq_ok_iff.mp h
  refine ⟨bindings, hbindings, htext.symm, ?_⟩
  have hdefined : (container.get? name).isSome :=
    Option.isSome_iff_exists.mpr (exists_definition_of_mem_nominalNames hnominal)
  -- a nominal name has a definition, so it is not passed over
  obtain ⟨binding, hbinding, hsame, -⟩ :=
    exists_right_of_mem (forall₂_of_bindings hbindings) (List.mem_filter.mpr ⟨hname, hdefined⟩)
  exact ⟨binding, hbinding, hsame⟩

/-- **The constant of a nominal type is what references to it are rendered by.** Let a nominal name
be an identifier. Wherever it is emitted it has a block, which introduces a single constant, and a
declaration is rendered by this constant exactly if it is the name up to blanks around it. The
declaration then denotes the reference to the name, so the type is never taken for a number, for
text or for anything else that is built in. Different nominal names have different constants. -/
theorem nominal_constants (container : Container) :
    (∀ name ∈ container.nominalNames, Identifier name.toList →
      (∀ options names text, container.emit options names = .ok text → name ∈ names →
        ∃ bindings, container.bindings names = .ok bindings ∧ text = printModule options bindings ∧
          (∃ binding ∈ bindings, binding.name = name) ∧
          ∀ binding ∈ bindings, binding.name = name →
            ∃ constant, (∀ other, Introduces options (binding.print options) other ↔
                other = constant) ∧
              ∀ declaration : String,
                TypeExpr.render <$> TypeExpr.parse declaration = .ok constant ↔
                  trim declaration.toList = name.toList) ∧
      TypeExpr.parse name = .ok (.named name) ∧
      ∀ declaration : String, trim declaration.toList = name.toList →
        TypeExpr.parse declaration = .ok (.named name)) ∧
    ∀ name ∈ container.nominalNames, ∀ other ∈ container.nominalNames, name ≠ other →
      constantName name ≠ constantName other := by
  refine ⟨fun name hnominal hword => ?_, fun name _ other _ hne hsame =>
    hne (constantName_injective hsame)⟩
  -- nothing that is built in is nominal, so the name is read as a reference
  obtain ⟨hnumeric, hstring⟩ := not_builtIn_of_mem_nominalNames hnominal
  have hnamed : ∀ declaration : String, TypeExpr.parse declaration = .ok (.named name) ↔
      trim declaration.toList = name.toList := parse_eq_named_iff hword hnumeric hstring
  refine ⟨fun options names text hemit hname => ?_, ?_, fun declaration => (hnamed declaration).mpr⟩
  · obtain ⟨bindings, hbindings, htext, hblock⟩ := exists_block_of_emit hemit hnominal hname
    refine ⟨bindings, hbindings, htext, hblock, ?_⟩
    rintro binding - rfl
    refine ⟨constantName binding.name, fun other => introduces_print_iff hword,
      fun declaration => ?_⟩
    rw [render_eq_constantName_iff (.named hword hnumeric hstring), hnamed]
  · rw [hnamed]
    exact Text.trim_eq_self_of_forall fun c hc => not_isBlank_of_isWordChar (hword.isWordChar c hc)

/-- Definitions whose names look like built-in types. -/
def namesakes : Container :=
  ofDeclaration "Vec"
    |>.insert "Vec" (.struct (.named [⟨"items", "Vec<u8x>"⟩]))
    |>.insert "u8x" (.struct (.named [⟨"text", "String"⟩]))

/-- The block of the type that is nearly a number. -/
def nearNumber : Binding := ⟨"u8x", .struct [⟨"text", .string⟩]⟩

/-- The blocks of both. -/
def namesakeBlocks : List Binding :=
  [nearNumber, ⟨"Vec", .struct [⟨"items", .generic .vec [.named "u8x"]⟩]⟩]

/-- What is nearly a number is rendered by the constant of its block, with blanks around it too; the
number itself is not. -/
theorem nominal_constants_namesakes :
    "u8x" ∈ namesakes.nominalNames ∧ Identifier "u8x".toList ∧
      namesakes.emit ⟨true⟩ ["u8x", "Vec"] = .ok (printModule ⟨true⟩ namesakeBlocks) ∧
      Introduces ⟨true⟩ (nearNumber.print ⟨true⟩) "u8xSchema" ∧
      TypeExpr.render <$> TypeExpr.parse "\tu8x " = .ok "u8xSchema" ∧
      TypeExpr.render <$> TypeExpr.parse "u8" ≠ .ok "u8xSchema" ∧
      TypeExpr.parse "Vec" = .ok (.named "Vec") ∧ constantName "u8x" ≠ constantName "Vec" := by
  have hnames : namesakes.nominalNames = ["Vec", "u8x"] := rfl
  have hvec : "Vec" ∈ namesakes.nominalNames := by
    rw [hnames]
    exact List.mem_cons_self
  have hnear : "u8x" ∈ namesakes.nominalNames := by
    rw [hnames]
    exact List.mem_cons_of_mem _ List.mem_cons_self
  have hnearWord : Identifier "u8x".toList := isIdentifier_iff.mp rfl
  have hvecWord : Identifier "Vec".toList := isIdentifier_iff.mp rfl
  have hbindings : namesakes.bindings ["u8x", "Vec"] = .ok namesakeBlocks := by
    with_unfolding_all rfl
  have hemit : namesakes.emit ⟨true⟩ ["u8x", "Vec"] = .ok (printModule ⟨true⟩ namesakeBlocks) :=
    map_eq_ok_iff.mpr ⟨_, hbindings, rfl⟩
  obtain ⟨hconstants, hdiffer⟩ := nominal_constants namesakes
  obtain ⟨hblocks, -, -⟩ := hconstants "u8x" hnear hnearWord
  obtain ⟨bindings, hsame, -, -, hblock⟩ := hblocks ⟨true⟩ _ _ hemit List.mem_cons_self
  obtain rfl := Except.ok.inj (hsame.symm.trans hbindings)
  obtain ⟨constant, hintroduces, hrendered⟩ := hblock nearNumber List.mem_cons_self rfl
  have hconstant : Introduces ⟨true⟩ (nearNumber.print ⟨true⟩) "u8xSchema" :=
    (introduces_print_iff hnearWord).mpr rfl
  obtain rfl := (hintroduces "u8xSchema").mp hconstant
  refine ⟨hnear, hnearWord, hemit, hconstant, (hrendered "\tu8x ").mpr (by decide), ?_,
    (hconstants "Vec" hvec hvecWord).2.1, hdiffer _ hnear _ hvec (by decide)⟩
  intro hnumber
  exact absurd ((hrendered "u8").mp hnumber) (by decide)

end Container

end WireBindings
