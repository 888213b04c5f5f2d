import WireBindings.Proofs.Repetition
import WireBindings.Proofs.TypeExpr.Rendering

/-!
# The names that a rendered type mentions

A type lists the names it mentions (`TypeExpr.identifiers`), and its rendering mentions constants.
The two agree: the words of the rendered text that end in `Schema` are, without this ending and
without repetitions, the listed names in their order (`identifiers_eq_mentioned`). So whoever orders
declarations by the list orders them by what the emitted text needs.

The words on the two sides of a character that belongs to no word are the words of the whole
(`mentioned_append_cons`). In a rendering such characters stand around every leaf, so a leaf is a
word of its own (`mentioned_render`). Of the words that are not references, those of the builder and
the numbers, none ends in `Schema`.
-/

namespace WireBindings

variable {type : TypeExpr} {types : List TypeExpr} {front back word : List Char} {c : Char}
  {name : String}

/-! ### Constants in a text -/

/-- The words of a text: its maximal runs of letters, digits and underscores. -/
def words (text : List Char) : List (List Char) :=
  (text.splitOnP fun c => !isWordChar c).filter fun word => !word.isEmpty

/-- The name whose constant the word is, if it is one: the word without the ending `Schema`, which
is removed once. -/
def declaredBy? (word : List Char) : Option String :=
  (word.dropSuffix? "Schema".toList).map String.ofList

/-- The names whose constants a text mentions, from left to right, each as often as it does. -/
def mentioned (text : List Char) : List String := (words text).filterMap declaredBy?

/-- A character that belongs to no word separates the words in front of it from those behind. -/
theorem words_append_cons (h : ¬ isWordChar c) :
    words (front ++ c :: back) = words front ++ words back := by
  have hsplit : (front ++ c :: back).splitOnP (fun c => !isWordChar c) =
      front.splitOnP (fun c => !isWordChar c) ++ back.splitOnP (fun c => !isWordChar c) :=
    List.splitOnP_append_cons _ _ (by simpa using h)
  rw [words, hsplit, List.filter_append]
  rfl

/-- A text that is one run has no other words. -/
theorem words_of_word (hne : word ≠ []) (h : ∀ c ∈ word, isWordChar c) : words word = [word] := by
  have hwhole : word.splitOnP (fun c => !isWordChar c) = [word] :=
    List.splitOnP_eq_singleton fun c hc => by simp [h c hc]
  rw [words, hwhole, List.filter_cons_of_pos (by simpa using hne), List.filter_nil]

theorem words_nil : words [] = [] := by
  rw [words, List.splitOnP_nil]
  rfl

/-- **A word is the constant of a name** exactly if it is written so. -/
theorem declaredBy?_eq_some_iff :
    declaredBy? word = some name ↔ word = (constantName name).toList := by
  rw [declaredBy?, Option.map_eq_some_iff, constantName, String.toList_append]
  -- to take the ending off and to put it on undo each other
  constructor
  · rintro ⟨rest, hrest, rfl⟩
    obtain ⟨ending, rfl, hending⟩ := List.dropSuffix?_eq_some_iff.mp hrest
    rw [String.toList_ofList, beq_iff_eq.mp hending]
  · rintro rfl
    exact ⟨name.toList, List.dropSuffix?_eq_some_iff.mpr ⟨_, rfl, beq_self_eq_true _⟩,
      String.ofList_toList⟩

/-- So it separates what is mentioned. -/
theorem mentioned_append_cons (h : ¬ isWordChar c) :
    mentioned (front ++ c :: back) = mentioned front ++ mentioned back := by
  rw [mentioned, words_append_cons h, List.filterMap_append]
  rfl

theorem mentioned_nil : mentioned [] = [] := by
  rw [mentioned, words_nil, List.filterMap_nil]

/-- A reference mentions its name and nothing else. -/
theorem mentioned_constantName (h : Identifier name.toList) :
    mentioned (constantName name).toList = [name] := by
  have hne : (constantName name).toList ≠ [] := by simp [constantName]
  rw [mentioned, words_of_word hne (isWordChar_constantName h),
    List.filterMap_cons_some (declaredBy?_eq_some_iff.mpr rfl), List.filterMap_nil]

/-- A word without an `m` does not end in `Schema`. -/
theorem mentioned_of_word (h : ∀ c ∈ word, isWordChar c) (hm : 'm' ∉ word) :
    mentioned word = [] := by
  by_cases hne : word = []
  · rw [hne, mentioned_nil]
  -- the ending has an `m` in it
  · have hnone : declaredBy? word = none := by
      rw [Option.eq_none_iff_forall_ne_some]
      rintro name hname
      rw [declaredBy?_eq_some_iff.mp hname, constantName, String.toList_append] at hm
      exact hm (List.mem_append_right _ (by decide))
    rw [mentioned, words_of_word hne h, List.filterMap_cons_none hnone, List.filterMap_nil]

/-! ### Words that are no references -/

theorem not_mem_of_isDigit (h : ∀ c ∈ word, c.isDigit) : 'm' ∉ word := fun hm =>
  absurd (h 'm' hm) (by decide)

/-- No method of the builder is a constant. -/
theorem mentioned_method {builder : Builder} (h : builder.Proper) :
    mentioned builder.method.toList = [] := by
  refine mentioned_of_word (Builder.isWordChar_method h) ?_
  cases builder with
  | numeric name =>
    -- the name of a number is one of three letters and digits
    obtain ⟨first, digits, hname, hfirst, hdigits⟩ := h name rfl
    rw [Builder.method, hname, List.mem_cons, not_or]
    refine ⟨?_, not_mem_of_isDigit hdigits.2⟩
    rintro rfl
    exact absurd hfirst (by decide)
  | generic head => cases head <;> decide
  | _ => decide

theorem mentioned_toString (n : ℕ) : mentioned (toString n).toList = [] :=
  mentioned_of_word (isWordChar_toString n) (not_mem_of_isDigit (Text.isDigit_toString n))

/-! ### Renderings -/

/-- What the builder makes mentions what its operands mention. -/
theorem mentioned_render_of_builder? {builder : Builder} (h : type.Denotable)
    (hbuilder : type.builder? = some builder) :
    mentioned type.render.toList = mentioned type.operands.toList := by
  -- the first letter is a word of its own, with a dot behind it
  have hb : mentioned ['b'] = [] :=
    mentioned_of_word (List.forall_mem_singleton.mpr (by decide)) (by decide)
  calc mentioned type.render.toList
      = mentioned (['b'] ++ '.' :: (builder.method.toList ++ '(' ::
          (type.operands.toList ++ ')' :: []))) := by
        rw [toList_render_of_builder? hbuilder]
        rfl
    _ = mentioned ['b'] ++ (mentioned builder.method.toList ++
          (mentioned type.operands.toList ++ mentioned [])) := by
        rw [mentioned_append_cons (by decide), mentioned_append_cons (by decide),
          mentioned_append_cons (by decide)]
    _ = mentioned type.operands.toList := by
        rw [hb, mentioned_method (h.proper hbuilder), mentioned_nil, List.append_nil]
        rfl

/-- Behind a comma and a blank the words of the next item begin. -/
theorem mentioned_append_comma :
    mentioned (front ++ (", ".toList ++ back)) = mentioned front ++ mentioned back := by
  have hblank : mentioned ([] ++ ' ' :: back) = mentioned back := by
    rw [mentioned_append_cons (by decide), mentioned_nil, List.nil_append]
  show mentioned (front ++ ',' :: ([] ++ ' ' :: back)) = _
  rw [mentioned_append_cons (by decide), hblank]

/-- Several types mention what each of them does, if this is so of each. -/
theorem mentioned_renderAll (h : ∀ type ∈ types, mentioned type.render.toList = type.references) :
    mentioned (TypeExpr.renderAll types).toList = TypeExpr.referencesAll types := by
  -- between any two types stands a comma, which no word contains
  induction types with
  | nil => exact mentioned_nil
  | cons type types ih =>
    obtain ⟨htype, htypes⟩ := List.forall_mem_cons.mp h
    cases types with
    | nil => rw [TypeExpr.renderAll, htype, TypeExpr.referencesAll, TypeExpr.referencesAll,
        List.append_nil]
    | cons next types =>
      rw [TypeExpr.renderAll, String.toList_append, String.toList_append, List.append_assoc,
        mentioned_append_comma, htype, ih htypes]
      rfl

/-- **A rendering mentions the names at the leaves**, from left to right. -/
theorem mentioned_render (h : type.Denotable) : mentioned type.render.toList = type.references := by
  -- the brackets of each form separate the words of its operands from the method
  induction h with
  | string => exact (mentioned_render_of_builder? .string rfl).trans mentioned_nil
  | unit => exact (mentioned_render_of_builder? .unit rfl).trans mentioned_nil
  | numeric hword => exact (mentioned_render_of_builder? (.numeric hword) rfl).trans mentioned_nil
  | generic hcomplete hparts ih =>
    rw [mentioned_render_of_builder? (.generic hcomplete hparts) rfl]
    exact mentioned_renderAll ih
  | @tuple elements hnonempty hparts ih =>
    -- two further brackets stand around the elements
    have hoperands : (TypeExpr.tuple elements).operands.toList =
        [] ++ '[' :: ((TypeExpr.renderAll elements).toList ++ ']' :: []) := by
      simp [TypeExpr.operands]
    rw [mentioned_render_of_builder? (.tuple hnonempty hparts) rfl, hoperands,
      mentioned_append_cons (by decide), mentioned_append_cons (by decide), mentioned_nil,
      mentioned_renderAll ih, List.append_nil]
    rfl
  | @array element length hpart ih =>
    rw [mentioned_render_of_builder? (.array hpart) rfl]
    show mentioned (element.render ++ ", " ++ toString length).toList = _
    rw [String.toList_append, String.toList_append, List.append_assoc, mentioned_append_comma, ih,
      mentioned_toString, List.append_nil]
    rfl
  | named hword hnumeric hstring => exact mentioned_constantName hword

/-! ### Listed names -/

mutual

/-- Names are collected leaf by leaf. -/
theorem collect_eq_foldl (found : List String) : ∀ type : TypeExpr,
    type.collect found = type.references.foldl addNew found
  | .string | .unit | .numeric _ => rfl
  | .generic _ arguments => collectAll_eq_foldl found arguments
  | .tuple elements => collectAll_eq_foldl found elements
  | .array element _ => collect_eq_foldl found element
  | .named _ => rfl

/-- So they are over several types, from the left. -/
theorem collectAll_eq_foldl (found : List String) : ∀ types : List TypeExpr,
    TypeExpr.collectAll found types = (TypeExpr.referencesAll types).foldl addNew found
  | [] => rfl
  | type :: rest => by
    rw [TypeExpr.collectAll, TypeExpr.referencesAll, List.foldl_append,
      ← collect_eq_foldl found type]
    exact collectAll_eq_foldl _ rest

end

theorem identifiers_eq_eraseDups (type : TypeExpr) :
    type.identifiers = type.references.eraseDups := by
  rw [TypeExpr.identifiers, collect_eq_foldl, foldl_addNew]

/-- **A type lists what its rendering mentions.** For whatever a declaration denotes, no name is
listed twice, and the listed names are those at the leaves, from left to right, as well as those
whose constants the rendered text mentions, from left to right, each at its first occurrence. -/
theorem identifiers_eq_mentioned {declaration : String}
    (h : TypeExpr.parse declaration = .ok type) :
    type.identifiers.Nodup ∧
      type.identifiers = (mentioned type.render.toList).eraseDups ∧
      type.identifiers = type.references.eraseDups := by
  rw [mentioned_render (denotable_of_parse h), identifiers_eq_eraseDups]
  exact ⟨nodup_eraseDups _, rfl, rfl⟩

/-- Names may look like constants themselves: only the last ending is removed. -/
theorem identifiers_lookalikes :
    ∃ type, TypeExpr.parse "HashMap<Schema, (Item, Vec<ItemSchema>, [Item; 2])>" = .ok type ∧
      type.render = "b.hashMap(SchemaSchema, b.tuple([ItemSchema, b.vec(ItemSchemaSchema), " ++
        "b.array(ItemSchema, 2)]))" ∧
      type.identifiers = ["Schema", "Item", "ItemSchema"] ∧
      (mentioned type.render.toList).eraseDups = ["Schema", "Item", "ItemSchema"] := by
  have h : TypeExpr.parse "HashMap<Schema, (Item, Vec<ItemSchema>, [Item; 2])>" =
      .ok (.generic .hashMap [.named "Schema", .tuple [.named "Item",
        .generic .vec [.named "ItemSchema"], .array (.named "Item") 2]]) := by
          with_unfolding_all rfl
  refine ⟨_, h, by decide +kernel, rfl, ?_⟩
  rw [← (identifiers_eq_mentioned h).2.1]
  rfl

end WireBindings
