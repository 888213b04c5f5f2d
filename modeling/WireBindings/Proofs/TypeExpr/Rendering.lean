import WireBindings.Proofs.Text.Numerals
import WireBindings.Proofs.TypeExpr.Grammar

/-!
# Reading builder expressions back

The text of a builder expression determines the type it was rendered for. A reference is a single
word. Every other expression begins with `b.`, and the word that follows, the method of the builder,
tells the outermost form of the type (`Builder.ofMethod_method`); its operands stand between
brackets and are told apart by the same argument, one level further in (`unambiguous_render`). So
two declarations have the same builder expression exactly if they denote the same type
(`render_eq_iff_of_parse`).

This needs the words at the leaves to be such as declarations have there: a number called `unit`
would be rendered like the unit type. What a declaration denotes is `Denotable`.
-/

namespace WireBindings

open Text (Unambiguous Separates listed)

variable {type other : TypeExpr} {rest rest' : List Char}

/-! ### Types that declarations denote -/

/-- The words at the leaves are such as a declaration has there, and every generic has the arguments
that it takes. -/
inductive TypeExpr.Denotable : TypeExpr → Prop
  | string : Denotable .string
  | unit : Denotable .unit
  | numeric {name : String} (hword : NumericName name.toList) : Denotable (.numeric name)
  | generic {head : Generic} {arguments : List TypeExpr}
      (hcomplete : arguments.length = head.arity)
      (hparts : ∀ argument ∈ arguments, Denotable argument) : Denotable (.generic head arguments)
  | tuple {elements : List TypeExpr} (hnonempty : elements ≠ [])
      (hparts : ∀ element ∈ elements, Denotable element) : Denotable (.tuple elements)
  | array {element : TypeExpr} {length : ℕ} (hpart : Denotable element) :
      Denotable (.array element length)
  | named {name : String} (hword : Identifier name.toList) (hnotNumeric : ¬ NumericName name.toList)
      (hnotString : name ≠ "String") : Denotable (.named name)

mutual

/-- A spelling is that of a type which can be denoted; the words at its leaves are those that the
grammar asks for. -/
theorem denotable_of_spells : ∀ {text : List Char} {type : TypeExpr},
    Spells text type → type.Denotable
  | _, _, .unit => .unit
  | _, _, .string => .string
  | _, _, .numeric hname => .numeric (by rwa [String.toList_ofList])
  | _, _, .named hname hnumeric hstring =>
    .named (by rwa [String.toList_ofList]) (by rwa [String.toList_ofList])
      fun heq => hstring (String.toList_ofList.symm.trans (congrArg String.toList heq))
  | _, _, .generic _ hspelled hcomplete => .generic hcomplete (denotable_of_spellsAll hspelled)
  | _, _, .tuple hspelled => .tuple hspelled.ne_nil (denotable_of_spellsAll hspelled)
  | _, _, .tupleWithComma hspelled _ => .tuple hspelled.ne_nil (denotable_of_spellsAll hspelled)
  | _, _, .array hspelled _ _ _ _ => .array (denotable_of_spells hspelled)
  | _, _, .padded _ hspelled _ => denotable_of_spells hspelled

/-- So are several spellings with commas between them. -/
theorem denotable_of_spellsAll : ∀ {text : List Char} {types : List TypeExpr},
    SpellsAll text types → ∀ type ∈ types, type.Denotable
  | _, _, .last hspelled => List.forall_mem_singleton.mpr (denotable_of_spells hspelled)
  | _, _, .more hfirst hothers =>
    List.forall_mem_cons.mpr ⟨denotable_of_spells hfirst, denotable_of_spellsAll hothers⟩

end

theorem denotable_of_parse {declaration : String} (h : TypeExpr.parse declaration = .ok type) :
    type.Denotable :=
  denotable_of_spells (spells_of_reads h)

/-! ### Methods of the builder -/

/-- The methods of the builder. -/
inductive Builder where
  | string
  | unit
  | numeric (name : String)
  | generic (head : Generic)
  | tuple
  | array
deriving DecidableEq

/-- The name of a method. -/
def Builder.method : Builder → String
  | string => "string"
  | unit => "unit"
  | numeric name => name
  | generic head => head.builder
  | tuple => "tuple"
  | array => "array"

/-- The method of that name; what is no other method is that of a number. -/
def Builder.ofMethod : String → Builder
  | "string" => string
  | "unit" => unit
  | "vec" => generic .vec
  | "hashMap" => generic .hashMap
  | "hashSet" => generic .hashSet
  | "option" => generic .option
  | "tuple" => tuple
  | "array" => array
  | name => numeric name

/-- The method that renders a type; a reference is rendered without. -/
def TypeExpr.builder? : TypeExpr → Option Builder
  | string => some .string
  | unit => some .unit
  | numeric name => some (.numeric name)
  | generic head _ => some (.generic head)
  | tuple _ => some .tuple
  | array _ _ => some .array
  | named _ => none

/-- What stands between the round brackets behind the method. -/
def TypeExpr.operands : TypeExpr → String
  | generic _ arguments => renderAll arguments
  | tuple elements => "[" ++ renderAll elements ++ "]"
  | array element length => render element ++ ", " ++ toString length
  | _ => ""

/-- The method is used for numbers with proper names only. -/
def Builder.Proper (builder : Builder) : Prop :=
  ∀ name, builder = .numeric name → NumericName name.toList

/-- Where a number is denoted, it has a proper name. -/
theorem TypeExpr.Denotable.proper (h : type.Denotable) {builder : Builder}
    (hbuilder : type.builder? = some builder) : builder.Proper := by
  rintro name rfl
  cases h with
  | numeric hword =>
    cases hbuilder
    exact hword
  | _ => cases hbuilder

/-- **The word behind `b.` tells the method**, and so the outermost form of the type. -/
theorem Builder.ofMethod_method {builder : Builder} (h : builder.Proper) :
    ofMethod builder.method = builder := by
  cases builder with
  | numeric name =>
    have hword : isNumeric name.toList := isNumeric_iff.mpr (h name rfl)
    rw [method]
    unfold ofMethod
    -- none of the other names is `i`, `u` or `f` followed by digits
    split <;> first | rfl | cases hword
  | generic head => cases head <;> rfl
  | _ => rfl

/-- A method is a word. -/
theorem Builder.isWordChar_method {builder : Builder} (h : builder.Proper) :
    ∀ c ∈ builder.method.toList, isWordChar c := by
  cases builder with
  | numeric name => exact (h name rfl).isWordChar
  | generic head => cases head <;> exact List.all_eq_true.mp (by decide)
  | _ => exact List.all_eq_true.mp (by decide)

/-- What the builder makes is `b.`, the method, and the operands in round brackets. -/
theorem toList_render_of_builder? {builder : Builder} (h : type.builder? = some builder) :
    type.render.toList =
      'b' :: '.' :: (builder.method.toList ++ '(' :: (type.operands.toList ++ [')'])) := by
  cases type with
  | named name => cases h
  | _ =>
    cases h
    simp [TypeExpr.render, TypeExpr.operands, Builder.method]

/-! ### Where a type ends -/

/-- No word goes on at the beginning of the rest. -/
def EndsWord (rest : List Char) : Prop := ∀ c ∈ rest.head?, ¬ isWordChar c

/-- It is the first character of the rest that ends a word. -/
theorem endsWord_cons {c : Char} (h : ¬ isWordChar c) (rest : List Char) :
    EndsWord (c :: rest) := by
  rintro _ ⟨⟩
  exact h

/-- Words in front of rests that end them are equal if the texts are. -/
theorem eq_of_words {word word' : List Char} (hword : ∀ c ∈ word, isWordChar c)
    (hword' : ∀ c ∈ word', isWordChar c) (hrest : EndsWord rest) (hrest' : EndsWord rest')
    (h : word ++ rest = word' ++ rest') : word = word' :=
  Text.eq_of_runs hword hword' hrest hrest' h

/-- The constant of an identifier is a word. -/
theorem isWordChar_constantName {name : String} (h : Identifier name.toList) :
    ∀ c ∈ (constantName name).toList, isWordChar c := by
  rw [constantName, String.toList_append]
  exact List.forall_mem_append.mpr ⟨h.isWordChar, List.all_eq_true.mp (by decide)⟩

/-- A reference is one word, and whatever the builder makes has a dot behind its first letter. -/
theorem constantName_ne {name : String} (h : Identifier name.toList) (hrest : EndsWord rest) :
    (constantName name).toList ++ rest ≠ 'b' :: '.' :: rest' := by
  intro htext
  have hword : (constantName name).toList = ['b'] :=
    eq_of_words (isWordChar_constantName h) (List.all_eq_true.mp (by decide)) hrest
      (endsWord_cons (c := '.') (by decide) _) htext
  -- the constant has the ending `Schema`, so it is longer than the one letter
  have hlength := congrArg List.length hword
  rw [constantName, String.toList_append, List.length_append] at hlength
  exact absurd hlength (by simp)

/-- **The texts agree in the outermost form.** -/
theorem builder?_eq_of_render (h : type.Denotable) (hother : other.Denotable)
    (hrest : EndsWord rest) (hrest' : EndsWord rest')
    (htext : type.render.toList ++ rest = other.render.toList ++ rest') :
    type.builder? = other.builder? := by
  -- a dot stands behind the first letter exactly if the builder makes the type
  cases hbuilder : type.builder? with
  | none =>
    cases hbuilder' : other.builder? with
    | none => rfl
    | some builder' =>
      cases h with
      | named hword =>
        rw [toList_render_of_builder? hbuilder'] at htext
        exact absurd htext (constantName_ne hword hrest)
      | _ => cases hbuilder
  | some builder =>
    cases hbuilder' : other.builder? with
    | none =>
      cases hother with
      | named hword =>
        rw [toList_render_of_builder? hbuilder] at htext
        exact absurd htext.symm (constantName_ne hword hrest')
      | _ => cases hbuilder'
    | some builder' =>
      rw [toList_render_of_builder? hbuilder, toList_render_of_builder? hbuilder'] at htext
      simp only [List.cons_append, List.append_assoc, List.cons.injEq, true_and] at htext
      have hproper := h.proper hbuilder
      have hproper' := hother.proper hbuilder'
      -- both methods are words with a bracket behind them
      have hmethod : builder.method.toList = builder'.method.toList :=
        eq_of_words (Builder.isWordChar_method hproper) (Builder.isWordChar_method hproper')
          (endsWord_cons (by decide) _) (endsWord_cons (by decide) _) htext
      rw [← Builder.ofMethod_method hproper, String.toList_inj.mp hmethod,
        Builder.ofMethod_method hproper']

/-- Behind the same method stand the operands. -/
theorem operands_eq_of_render {builder : Builder} (h : type.builder? = some builder)
    (h' : other.builder? = some builder)
    (htext : type.render.toList ++ rest = other.render.toList ++ rest') :
    type.operands.toList ++ ')' :: rest = other.operands.toList ++ ')' :: rest' := by
  rw [toList_render_of_builder? h, toList_render_of_builder? h'] at htext
  simpa using htext

/-! ### Lists of types -/

/-- A closing bracket stands at the beginning of the rest. -/
def EndsList (rest : List Char) : Prop :=
  ∃ closer more, rest = closer :: more ∧ (closer = ')' ∨ closer = ']')

/-- Between any two of several types there is a comma, which ends a word, and a bracket behind the
last. -/
theorem separates_comma : Separates ", " EndsWord EndsList where
  stops_separator _ := endsWord_cons (by decide) _
  stops_end := by
    rintro _ ⟨closer, more, rfl, rfl | rfl⟩ <;> exact endsWord_cons (by decide) _
  distinct := by
    rintro _ more ⟨closer, rest, rfl, rfl | rfl⟩ <;> simp

/-- Several types are rendered with a comma and a blank between any two. -/
theorem renderAll_eq_listed (types : List TypeExpr) :
    TypeExpr.renderAll types = listed ", " TypeExpr.render types :=
  Text.eq_listed rfl (fun _ => rfl) (fun _ _ _ => rfl) types

/-- Arguments and elements are told apart if each of them is. -/
theorem eq_of_renderAll {types others : List TypeExpr} (hne : types ≠ []) (hothers : others ≠ [])
    (htypes : ∀ type ∈ types, Unambiguous TypeExpr.render TypeExpr.Denotable EndsWord type)
    (hdenotable : ∀ other ∈ others, other.Denotable) (hrest : EndsList rest)
    (hrest' : EndsList rest')
    (htext : (TypeExpr.renderAll types).toList ++ rest =
      (TypeExpr.renderAll others).toList ++ rest') : types = others := by
  rw [renderAll_eq_listed, renderAll_eq_listed] at htext
  exact separates_comma.unambiguous_listed hne htypes others ⟨hothers, hdenotable⟩ rest rest' hrest
    hrest' htext

/-- No generic takes no arguments. -/
theorem ne_nil_of_length_eq_arity {arguments : List TypeExpr} {head : Generic}
    (h : arguments.length = head.arity) : arguments ≠ [] := by
  rintro rfl
  cases head <;> cases h

theorem isWordChar_toString (n : ℕ) : ∀ c ∈ (toString n).toList, isWordChar c := fun c hc =>
  isWordChar_of_isDigit (Text.isDigit_toString n c hc)

/-- **A builder expression is rendered for one type only.** The induction is over the first type; at
each step the texts agree in the method, and then in what stands between the brackets. -/
theorem unambiguous_render (h : type.Denotable) :
    Unambiguous TypeExpr.render TypeExpr.Denotable EndsWord type := by
  -- the other type has its form from the method, so each case compares two types of one form
  induction h with
  | string | unit | numeric =>
    intro other hother rest rest' hrest hrest' htext
    have hbuilder :=
      builder?_eq_of_render (by constructor <;> assumption) hother hrest hrest' htext
    -- one form of type is left, and it has nothing but its method
    cases other <;> cases hbuilder
    rfl
  | @generic head arguments hcomplete hparts ih =>
    intro other hother rest rest' hrest hrest' htext
    have hbuilder := builder?_eq_of_render (.generic hcomplete hparts) hother hrest hrest' htext
    cases hother with
    | @generic head' arguments' hcomplete' hparts' =>
      cases hbuilder
      have hoperands := operands_eq_of_render rfl rfl htext
      rw [eq_of_renderAll (ne_nil_of_length_eq_arity hcomplete)
        (ne_nil_of_length_eq_arity hcomplete') ih hparts' ⟨_, _, rfl, .inl rfl⟩
        ⟨_, _, rfl, .inl rfl⟩ hoperands]
    | _ => cases hbuilder
  | @tuple elements hnonempty hparts ih =>
    intro other hother rest rest' hrest hrest' htext
    have hbuilder := builder?_eq_of_render (.tuple hnonempty hparts) hother hrest hrest' htext
    cases hother with
    | @tuple elements' hnonempty' hparts' =>
      have hoperands := operands_eq_of_render rfl rfl htext
      simp only [TypeExpr.operands, String.toList_append, List.append_assoc] at hoperands
      rw [eq_of_renderAll hnonempty hnonempty' ih hparts' ⟨_, _, rfl, .inr rfl⟩
        ⟨_, _, rfl, .inr rfl⟩ (List.append_cancel_left hoperands)]
    | _ => cases hbuilder
  | @array element length hpart ih =>
    intro other hother rest rest' hrest hrest' htext
    have hbuilder := builder?_eq_of_render (.array hpart) hother hrest hrest' htext
    cases hother with
    | @array element' length' hpart' =>
      have hoperands := operands_eq_of_render rfl rfl htext
      simp only [TypeExpr.operands, String.toList_append, List.append_assoc] at hoperands
      -- the element ends at the comma, and what follows there is the length
      have hcomma (rest : List Char) : EndsWord (", ".toList ++ rest) := endsWord_cons (by decide) _
      have hlengths := List.append_cancel_left (ih.rest_eq hpart' (hcomma _) (hcomma _) hoperands)
      have hlength : (toString length).toList = (toString length').toList :=
        eq_of_words (isWordChar_toString _) (isWordChar_toString _) (endsWord_cons (by decide) _)
          (endsWord_cons (by decide) _) hlengths
      rw [ih _ hpart' _ _ (hcomma _) (hcomma _) hoperands,
        Text.eq_of_toString hlength]
    | _ => cases hbuilder
  | named hword hnumeric hstring =>
    intro other hother rest rest' hrest hrest' htext
    have hbuilder :=
      builder?_eq_of_render (.named hword hnumeric hstring) hother hrest hrest' htext
    cases hother with
    | named hword' =>
      have hconstant := eq_of_words (isWordChar_constantName hword) (isWordChar_constantName hword')
        hrest hrest' htext
      rw [constantName, constantName, String.toList_append, String.toList_append] at hconstant
      rw [String.toList_inj.mp (List.append_cancel_right hconstant)]
    | _ => cases hbuilder

/-! ### Declarations and their builder expressions -/

theorem endsWord_nil : EndsWord [] := nofun

/-- What declarations denote is rendered alike only if it is the same type. -/
theorem TypeExpr.Denotable.eq_of_render (h : type.Denotable) (hother : other.Denotable)
    (htext : type.render = other.render) : type = other := by
  apply unambiguous_render h other hother [] [] endsWord_nil endsWord_nil
  rw [htext]

/-- **Unique readability.** Two declarations are rendered by the same builder expression exactly if
they denote the same type. The same holds where the expressions stand in longer texts that go on
behind them, whatever the texts go on with, as long as it does not continue a word. -/
theorem render_eq_iff_of_parse {first second : String}
    (hfirst : TypeExpr.parse first = .ok type) (hsecond : TypeExpr.parse second = .ok other) :
    (type.render = other.render ↔ type = other) ∧
      ∀ rest rest', EndsWord rest → EndsWord rest' →
        (type.render.toList ++ rest = other.render.toList ++ rest' ↔
          type = other ∧ rest = rest') := by
  have htype : type.Denotable := denotable_of_parse hfirst
  have hother : other.Denotable := denotable_of_parse hsecond
  refine ⟨⟨fun htext => htype.eq_of_render hother htext, congrArg TypeExpr.render⟩, ?_⟩
  intro rest rest' hrest hrest'
  -- the types are the same by the lemma, and then so is what is left behind them
  refine ⟨fun htext => ?_, ?_⟩
  · exact ⟨unambiguous_render htype other hother rest rest' hrest hrest' htext,
      (unambiguous_render htype).rest_eq hother hrest hrest' htext⟩
  · rintro ⟨rfl, rfl⟩
    rfl

/-- A reference may be called like the method of a tuple, and it may end in the suffix of constants:
the one tuple mentions `b` and `tupleSchema`, the other `bSchema` and `tuple`. -/
theorem render_lookalikes :
    TypeExpr.parse "(b, tupleSchema)" = .ok (.tuple [.named "b", .named "tupleSchema"]) ∧
      TypeExpr.parse "( bSchema ,tuple,)" = .ok (.tuple [.named "bSchema", .named "tuple"]) ∧
      (TypeExpr.tuple [.named "b", .named "tupleSchema"]).render =
        "b.tuple([bSchema, tupleSchemaSchema])" ∧
      (TypeExpr.tuple [.named "b", .named "tupleSchema"]).render ≠
        (TypeExpr.tuple [.named "bSchema", .named "tuple"]).render := by
  have hfirst : TypeExpr.parse "(b, tupleSchema)" =
      .ok (.tuple [.named "b", .named "tupleSchema"]) := by with_unfolding_all rfl
  have hsecond : TypeExpr.parse "( bSchema ,tuple,)" =
      .ok (.tuple [.named "bSchema", .named "tuple"]) := by with_unfolding_all rfl
  refine ⟨hfirst, hsecond, by decide, fun htext => ?_⟩
  have hsame := (render_eq_iff_of_parse hfirst hsecond).1.mp htext
  injection hsame with hsame
  injection hsame with hname
  injection hname with hname
  exact absurd hname (by decide)

end WireBindings
