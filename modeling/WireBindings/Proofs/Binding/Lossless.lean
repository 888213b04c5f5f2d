import WireBindings.Generate
import WireBindings.Proofs.Binding.Denotation
import WireBindings.Proofs.TypeExpr.Rendering

/-!
# Nothing is lost in print

The text of a module determines the declarations it was printed for: their names and their order,
which of them are structs and which are enums, and all fields and cases with their names, types and
order (`eq_of_printModule`). So schemas that have the same text denote the same declarations
(`emit_loses_nothing`), however differently they may have been written.

All names have to be identifiers; a field called `a: b.u8(),` would print like two lines. The
argument follows the printers from the inside out: fields, structs, payloads, cases, enums, blocks.
Braced lists are settled once for structs and enums (`unambiguous_braced`).
-/

namespace WireBindings

open Text (Unambiguous Separates Anything EndsLine listed enclosed indentation)

variable {rest rest' : List Char}

/-! ### Names that are identifiers -/

/-- The field has an identifier for its name, and a type that a declaration denotes. -/
structure TypedField.Legible (field : TypedField) : Prop where
  name : Identifier field.name.toList
  type : field.type.Denotable

/-- All types are denoted by declarations, and all fields have identifiers for their names. -/
def Payload.Legible : Payload → Prop
  | value type => type.Denotable
  | struct fields => ∀ field ∈ fields, field.Legible

/-- The case has an identifier for its name, and so have the fields in it. -/
structure Case.Legible (case : Case) : Prop where
  name : Identifier case.name.toList
  payload : case.payload.Legible

/-- All fields and cases have identifiers for their names. -/
def BindingForm.Legible : BindingForm → Prop
  | struct fields => ∀ field ∈ fields, field.Legible
  | enum cases => ∀ case ∈ cases, case.Legible

/-- The declaration has an identifier for its name, and so has everything in it. -/
structure Binding.Legible (binding : Binding) : Prop where
  name : Identifier binding.name.toList
  form : binding.form.Legible

/-! ### Lines -/

/-- Neither a comma nor a line feed belongs to a word. -/
theorem separates_commaLine : Separates ",\n" EndsWord EndsLine :=
  Text.separates_lines (endsWord_cons (by decide)) (endsWord_cons (by decide))

/-- A name in front of a colon is told from any other. -/
theorem eq_of_label {name name' : String} (h : Identifier name.toList)
    (h' : Identifier name'.toList)
    (htext : name.toList ++ (": ".toList ++ rest) = name'.toList ++ (": ".toList ++ rest')) :
    name = name' ∧ rest = rest' := by
  have hname : name.toList = name'.toList :=
    eq_of_words h.isWordChar h'.isWordChar (endsWord_cons (by decide) _)
      (endsWord_cons (by decide) _) htext
  rw [hname] at htext
  exact ⟨String.toList_inj.mp hname, List.append_cancel_left (List.append_cancel_left htext)⟩

/-- **A field** is told by its name and by its type, which ends where no word goes on. -/
theorem unambiguous_printField {field : TypedField} (depth : ℕ) (h : field.Legible) :
    Unambiguous (TypedField.print depth) TypedField.Legible EndsWord field := by
  intro other hother rest rest' hrest hrest' htext
  simp only [TypedField.print, String.toList_append, List.append_assoc] at htext
  obtain ⟨hname, htype⟩ := eq_of_label h.name hother.name (List.append_cancel_left htext)
  have hsame := unambiguous_render h.type other.type hother.type rest rest' hrest hrest' htype
  -- two fields with the same parts are the same
  cases field
  cases other
  cases hname
  cases hsame
  rfl

/-! ### Items in braces -/

/-- Items, one to a line, in braces; without items the braces are closed at once. -/
def braced {α : Type} (opening closing : String) (print : α → String) (values : List α) : String :=
  if values.isEmpty then opening ++ "\x7d)"
  else opening ++ "\n" ++ listed ",\n" print values ++ "\n" ++ closing

/-- A struct is its fields in braces. -/
theorem printStruct_eq_braced (depth : ℕ) :
    printStruct depth =
      braced "b.struct(\x7b" (indentation depth ++ "\x7d)") (TypedField.print (depth + 1)) := by
  funext fields
  apply String.toList_inj.mp
  cases fields <;> simp [printStruct, braced, listed]

/-- An enum is its cases in braces. -/
theorem printEnum_eq_braced : printEnum = braced "b.enum(\x7b" "\x7d)" Case.print := by
  funext cases
  apply String.toList_inj.mp
  cases cases <;> simp [printEnum, braced, listed]

/-- **Items in braces are told apart if each of them is**, whatever follows. -/
theorem unambiguous_braced {α : Type} {print : α → String} {valid : α → Prop} {values : List α}
    (opening closing : String)
    (hvalues : ∀ value ∈ values, Unambiguous print valid EndsWord value) :
    Unambiguous (braced opening closing print) (fun others => ∀ other ∈ others, valid other)
      Anything values := by
  have hempty (rest : List Char) : ¬ EndsLine ("\x7d)".toList ++ rest) :=
    Text.not_endsLine_cons (c := '\x7d') (by decide) _
  show Unambiguous (enclosed opening "\x7d)" closing print) _ Anything values
  exact separates_commaLine.unambiguous_enclosed hempty hvalues

/-- **A struct** is told by its fields. -/
theorem unambiguous_printStruct {fields : List TypedField} (depth : ℕ)
    (h : ∀ field ∈ fields, field.Legible) :
    Unambiguous (printStruct depth) (fun others => ∀ other ∈ others, other.Legible) Anything
      fields := by
  rw [printStruct_eq_braced]
  exact unambiguous_braced _ _ fun field hfield => unambiguous_printField _ (h field hfield)

/-! ### Cases and forms -/

/-- No type is rendered like a struct: the builder has no type of that method. -/
theorem render_ne_printStruct {type : TypeExpr} {fields : List TypedField} {depth : ℕ}
    (h : type.Denotable) (hrest : EndsWord rest) :
    type.render.toList ++ rest ≠ (printStruct depth fields).toList ++ rest' := by
  intro htext
  obtain ⟨body, hbody⟩ : ∃ body,
      (printStruct depth fields).toList = 'b' :: '.' :: ("struct".toList ++ '(' :: body) := by
    rw [printStruct_eq_braced, braced]
    split
    · exact ⟨['\x7b', '\x7d', ')'], by simp⟩
    · exact ⟨'\x7b' :: '\n' :: (listed ",\n" (TypedField.print (depth + 1)) fields ++ "\n" ++
        (indentation depth ++ "\x7d)")).toList, by simp⟩
  rw [hbody] at htext
  -- a reference has no dot behind its first letter, and any other type has the method of its form
  cases hbuilder : type.builder? with
  | none =>
    cases h with
    | named hword => exact constantName_ne hword hrest htext
    | _ => cases hbuilder
  | some builder =>
    have hproper := h.proper hbuilder
    rw [toList_render_of_builder? hbuilder] at htext
    have hwords : builder.method.toList ++ '(' :: (type.operands.toList ++ ')' :: rest) =
        "struct".toList ++ '(' :: (body ++ rest') := by
      simpa using htext
    have hstruct : ∀ c ∈ "struct".toList, isWordChar c := List.all_eq_true.mp (by decide)
    have hmethod : builder.method.toList = "struct".toList :=
      eq_of_words (Builder.isWordChar_method hproper) hstruct (endsWord_cons (by decide) _)
        (endsWord_cons (by decide) _) hwords
    -- as the method of a number the word would be out of place
    have hnumeric : builder = .numeric "struct" := by
      rw [← Builder.ofMethod_method hproper, String.toList_inj.mp hmethod]
      rfl
    have hword : isNumeric "struct".toList := isNumeric_iff.mpr (hproper _ hnumeric)
    cases hword

/-- **A payload** is told by its type or by its fields. -/
theorem unambiguous_printPayload {payload : Payload} (h : payload.Legible) :
    Unambiguous Payload.print Payload.Legible EndsWord payload := by
  intro other hother rest rest' hrest hrest' htext
  -- a type is not rendered like a struct, so both payloads are of one kind
  cases payload with
  | value type =>
    cases other with
    | value type' => rw [unambiguous_render h type' hother rest rest' hrest hrest' htext]
    | struct fields' => exact absurd htext (render_ne_printStruct h hrest)
  | struct fields =>
    cases other with
    | value type' => exact absurd htext.symm (render_ne_printStruct hother hrest')
    | struct fields' =>
      rw [unambiguous_printStruct 1 h fields' hother rest rest' trivial trivial htext]

/-- **A case** is told by its name and its payload. -/
theorem unambiguous_printCase {case : Case} (h : case.Legible) :
    Unambiguous Case.print Case.Legible EndsWord case := by
  intro other hother rest rest' hrest hrest' htext
  simp only [Case.print, String.toList_append, List.append_assoc] at htext
  obtain ⟨hname, hpayload⟩ := eq_of_label h.name hother.name (List.append_cancel_left htext)
  have hsame :=
    unambiguous_printPayload h.payload other.payload hother.payload rest rest' hrest hrest' hpayload
  cases case
  cases other
  cases hname
  cases hsame
  rfl

/-- **The form of a block** is told by its keyword, and then by what stands in braces. -/
theorem unambiguous_printForm {form : BindingForm} (h : form.Legible) :
    Unambiguous BindingForm.print BindingForm.Legible Anything form := by
  intro other hother rest rest' hrest hrest' htext
  -- the keyword behind `b.` is different for the two forms
  have hkeyword {fields : List TypedField} {cases : List Case} {rest rest' : List Char} :
      (printStruct 0 fields).toList ++ rest ≠ (printEnum cases).toList ++ rest' := by
    rw [printStruct_eq_braced, printEnum_eq_braced, braced, braced]
    split <;> split <;> simp
  cases form with
  | struct fields =>
    cases other with
    | struct fields' =>
      rw [unambiguous_printStruct 0 h fields' hother rest rest' hrest hrest' htext]
    | enum cases' => exact absurd htext hkeyword
  | enum cases =>
    cases other with
    | struct fields' => exact absurd htext.symm hkeyword
    | enum cases' =>
      simp only [BindingForm.print, printEnum_eq_braced] at htext
      rw [unambiguous_braced _ _ (fun case hcase => unambiguous_printCase (h case hcase)) cases'
        hother rest rest' hrest hrest' htext]

/-! ### Blocks -/

/-- **A block** is told by the constant that it introduces and by its form. -/
theorem unambiguous_printBinding {options : Options} {binding : Binding} (h : binding.Legible) :
    Unambiguous (Binding.print options) Binding.Legible Anything binding := by
  intro other hother rest rest' hrest hrest' htext
  simp only [Binding.print, String.toList_append, List.append_assoc] at htext
  -- keyword and `const` are the same in both blocks, and then the constants end at a blank
  have hline := List.append_cancel_left (List.append_cancel_left htext)
  have hconstant : (constantName binding.name).toList = (constantName other.name).toList :=
    eq_of_words (isWordChar_constantName h.name) (isWordChar_constantName hother.name)
      (endsWord_cons (by decide) _) (endsWord_cons (by decide) _) hline
  rw [hconstant] at hline
  have hform := unambiguous_printForm h.form other.form hother.form _ _ trivial trivial
    (List.append_cancel_left (List.append_cancel_left hline))
  have hname := constantName_injective (String.toList_inj.mp hconstant)
  cases binding
  cases other
  cases hname
  cases hform
  rfl

/-- Blocks have an empty line between them, and the module ends with a single line feed. -/
theorem separates_blankLine : Separates "\n\n" Anything (fun rest => rest = ['\n']) where
  stops_separator _ := trivial
  stops_end _ _ := trivial
  distinct := by
    rintro _ more rfl
    simp

/-- Behind the import the blocks are listed. -/
theorem printModule_cons (options : Options) (binding : Binding) (bindings : List Binding) :
    printModule options (binding :: bindings) =
      preamble ++ "\n\n" ++ listed "\n\n" (Binding.print options) (binding :: bindings) ++
        "\n" := by
  rw [printModule, List.map_cons, String.intercalate_cons_cons]
  rfl

/-- **The text of a module determines its declarations.** -/
theorem eq_of_printModule {options : Options} {bindings others : List Binding}
    (h : ∀ binding ∈ bindings, binding.Legible) (hothers : ∀ other ∈ others, other.Legible)
    (htext : printModule options bindings = printModule options others) : bindings = others := by
  rw [← String.toList_inj] at htext
  -- without blocks the text ends behind the import
  cases bindings with
  | nil =>
    cases others with
    | nil => rfl
    | cons other others => simp [printModule] at htext
  | cons binding bindings =>
    cases others with
    | nil => simp [printModule] at htext
    | cons other others =>
      simp only [printModule_cons, String.toList_append, List.append_assoc] at htext
      exact separates_blankLine.unambiguous_listed (List.cons_ne_nil _ _)
        (fun value hvalue => unambiguous_printBinding (h value hvalue)) _
        ⟨List.cons_ne_nil _ _, hothers⟩ _ _ rfl rfl
        (List.append_cancel_left (List.append_cancel_left htext))

/-! ### Schemas with the same text -/

/-- The names inside a definition, those of fields or of variants. -/
def Definition.labels : Definition → List String
  | struct (.named fields) => fields.map NamedField.name
  | enum _ variants => variants.map Variant.name
  | _ => []

namespace Container

/-- The names of the fields that the variants of a definition carry. -/
def carriedLabels (container : Container) (definition : Definition) : List String :=
  definition.carryingVariants.flatMap fun variant =>
    match container.get? variant.declaration with
    | some carried => carried.labels
    | none => []

/-- The names of all declarations for the given names, and of the fields and variants in them. -/
def labels (container : Container) (names : List String) : List String :=
  names.flatMap fun name =>
    match container.get? name with
    | some definition => name :: (definition.labels ++ container.carriedLabels definition)
    | none => []

variable {container other : Container} {names names' : List String} {name : String}
  {definition : Definition} {variant : Variant} {payload : Payload} {form : BindingForm}
  {declarations : List Binding}

/-- A defined name contributes itself, the labels of its definition, and those of what it carries.
-/
theorem labels_cons_of_some (h : container.get? name = some definition) :
    container.labels (name :: names) =
      (name :: (definition.labels ++ container.carriedLabels definition)) ++
        container.labels names := by
  rw [labels, List.flatMap_cons, h]
  rfl

/-- Fields are legible if their names are identifiers, since their types are read. -/
theorem legible_of_hasFields {fields : List NamedField} {typed : List TypedField}
    (h : HasFields fields typed) (hlabels : ∀ field ∈ fields, Identifier field.name.toList) :
    ∀ entry ∈ typed, entry.Legible := by
  intro entry hentry
  obtain ⟨field, hfield, hname, htype⟩ := exists_left_of_mem h hentry
  exact ⟨by rw [hname]; exact hlabels field hfield, denotable_of_parse htype⟩

/-- A payload is legible if the names of the fields in it are identifiers. -/
theorem HasPayload.legible (h : container.HasPayload variant payload)
    (hlabels : ∀ carried, container.get? variant.declaration = some carried →
      ¬ variant.isUnit → ∀ label ∈ carried.labels, Identifier label.toList) :
    payload.Legible := by
  cases h with
  | unit | empty | noneUnnamed => exact TypeExpr.Denotable.unit
  | undefined _ _ hread => exact denotable_of_parse hread
  | oneUnnamed _ _ hread => exact denotable_of_parse hread
  | named hcarries hdefined hread =>
    exact legible_of_hasFields hread fun field hfield =>
      hlabels _ hdefined hcarries field.name (List.mem_map_of_mem hfield)

/-- A form is legible if all labels of its definition are identifiers. -/
theorem HasForm.legible (h : container.HasForm definition form)
    (hlabels : ∀ label ∈ definition.labels ++ container.carriedLabels definition,
      Identifier label.toList) : form.Legible := by
  obtain ⟨hown, hcarried⟩ := List.forall_mem_append.mp hlabels
  cases h with
  | struct hread =>
    exact legible_of_hasFields hread fun field hfield => hown _ (List.mem_map_of_mem hfield)
  | @enum tagWidth variants cases hread =>
    intro case hcase
    obtain ⟨variant, hvariant, hname, hpayload⟩ := exists_left_of_mem hread hcase
    refine ⟨by rw [hname]; exact hown _ (List.mem_map_of_mem hvariant), hpayload.legible ?_⟩
    -- what a variant carries has labels only if it is looked up
    intro carried hdefined hcarries label hlabel
    have hcarrying : variant ∈ (Definition.enum tagWidth variants).carryingVariants :=
      List.mem_filter.mpr ⟨hvariant, by simpa using hcarries⟩
    exact hcarried label (List.mem_flatMap.mpr ⟨variant, hcarrying, by rwa [hdefined]⟩)

/-- Declarations are legible if all names in them are identifiers. -/
theorem Denotes.legible (h : container.Denotes names declarations)
    (hlabels : ∀ label ∈ container.labels names, Identifier label.toList) :
    ∀ declaration ∈ declarations, declaration.Legible := by
  induction h with
  | nil => exact List.forall_mem_nil _
  | undefined _ _ ih => exact ih (List.forall_mem_append.mp hlabels).2
  | cons hdefined hfirst _ ih =>
    rw [labels_cons_of_some hdefined] at hlabels
    obtain ⟨hfirstLabels, hlabels⟩ := List.forall_mem_append.mp hlabels
    obtain ⟨hname, hinside⟩ := List.forall_mem_cons.mp hfirstLabels
    exact List.forall_mem_cons.mpr ⟨⟨hname, hfirst.legible hinside⟩, ih hlabels⟩

/-- **The emitted text loses nothing.** If all names that occur are identifiers, then schemas with
the same text denote the same declarations, in the same order, and they denote no others. -/
theorem emit_loses_nothing {options : Options} {text : String}
    (hlabels : ∀ label ∈ container.labels names, Identifier label.toList)
    (hlabels' : ∀ label ∈ other.labels names', Identifier label.toList)
    (hemit : container.emit options names = .ok text)
    (hemit' : other.emit options names' = .ok text) :
    ∃ declarations, (∀ others, container.Denotes names others ↔ others = declarations) ∧
      ∀ others, other.Denotes names' others ↔ others = declarations := by
  obtain ⟨declarations, hbindings, htext⟩ := map_eq_ok_iff.mp hemit
  obtain ⟨declarations', hbindings', htext'⟩ := map_eq_ok_iff.mp hemit'
  have hdenotes := bindings_eq_ok_iff.mp hbindings
  have hdenotes' := bindings_eq_ok_iff.mp hbindings'
  -- both lists are printed as the one text, and both are legible
  obtain rfl : declarations = declarations' :=
    eq_of_printModule (hdenotes.legible hlabels) (hdenotes'.legible hlabels')
      (htext.trans htext'.symm)
  exact ⟨declarations, fun _ => ⟨hdenotes.unique, fun h => h ▸ hdenotes⟩,
    fun _ => ⟨hdenotes'.unique, fun h => h ▸ hdenotes'⟩⟩

/-- Amounts, with the number in the variant. -/
def plainAmounts : Container :=
  (ofDeclaration "Entry").insert "Amount" (.simpleEnum [("Nothing", "()"), ("Exact", "u32")])
    |>.insert "Entry" (.struct (.named [⟨"amount", "Amount"⟩]))

/-- The same amounts, with a struct for each variant and other blanks. -/
def wrappedAmounts : Container :=
  (ofDeclaration "Entry").insert "Entry" (.struct (.named [⟨"amount", " Amount"⟩]))
    |>.insert "Amount" (.simpleEnum [("Nothing", "Nothing"), ("Exact", "Exact")])
    |>.insert "Nothing" (.struct .empty)
    |>.insert "Exact" (.struct (.unnamed ["u32 "]))

/-- The declarations of amounts and entries. -/
def amountDeclarations : List Binding :=
  [⟨"Amount", .enum [⟨"Nothing", .value .unit⟩, ⟨"Exact", .value (.numeric "u32")⟩]⟩,
    ⟨"Entry", .struct [⟨"amount", .named "Amount"⟩]⟩]

/-- The amounts have the same text either way, and so they denote the same. -/
theorem emit_amounts :
    plainAmounts.emit ⟨true⟩ ["Amount", "Entry"] = wrappedAmounts.emit ⟨true⟩ ["Amount", "Entry"] ∧
    ∃ declarations,
      (∀ others, plainAmounts.Denotes ["Amount", "Entry"] others ↔ others = declarations) ∧
      ∀ others, wrappedAmounts.Denotes ["Amount", "Entry"] others ↔ others = declarations := by
  have hidentifiers : ∀ label ∈ ["Amount", "Nothing", "Exact", "Entry", "amount"],
      Identifier label.toList := fun label hlabel =>
    isIdentifier_iff.mp
      (List.all_eq_true (p := fun label : String => isIdentifier label.toList).mp rfl label hlabel)
  have hbindings : plainAmounts.bindings ["Amount", "Entry"] = .ok amountDeclarations := by
    with_unfolding_all rfl
  have hbindings' : wrappedAmounts.bindings ["Amount", "Entry"] = .ok amountDeclarations := by
    with_unfolding_all rfl
  have hemit : plainAmounts.emit ⟨true⟩ ["Amount", "Entry"] =
      .ok (printModule ⟨true⟩ amountDeclarations) := map_eq_ok_iff.mpr ⟨_, hbindings, rfl⟩
  have hemit' : wrappedAmounts.emit ⟨true⟩ ["Amount", "Entry"] =
      .ok (printModule ⟨true⟩ amountDeclarations) := map_eq_ok_iff.mpr ⟨_, hbindings', rfl⟩
  exact ⟨hemit.trans hemit'.symm, emit_loses_nothing hidentifiers hidentifiers hemit hemit'⟩

end Container

end WireBindings
