import WireBindings.Proofs.TypeExpr.Reading

/-!
# What the reader of declarations refuses

`Fails text fault` says that the reader refuses the text, and with which fault. As success is
(`ReadsForm`), this is settled form by form: `FailsForm` has one constructor for each reason to
refuse a text of some outermost form, and `fails_iff` says that there is no other.

The reader stops at the first fault that it meets, so a constructor also says what has been in order
before: the name of a generic when its arguments are cut, the length of an array when its element is
read, and of several pieces those that stand further left (`FailsFirst`).
-/

namespace WireBindings

open Text (trim)

variable {declaration base piece : List Char} {parts : List (List Char)} {fault : TypeFault}

/-- The reader refuses the text with the fault. -/
def Fails (text : List Char) (fault : TypeFault) : Prop := TypeExpr.parseChars text = .error fault

/-- A piece of the declaration is refused. -/
inductive FailsPiece (declaration : List Char) : List Char → TypeFault → Prop
  /-- That there is nothing is a fault of the declaration. -/
  | empty : FailsPiece declaration [] (.malformed (String.ofList declaration) .emptyElement)
  /-- Every other fault is the piece's own. -/
  | inside {piece : List Char} {fault : TypeFault} (hnonempty : piece ≠ [])
      (hfails : Fails piece fault) : FailsPiece declaration piece fault

/-- One of the pieces is refused, and what stands before it is read. -/
def FailsFirst (declaration : List Char) (parts : List (List Char)) (fault : TypeFault) : Prop :=
  ∃ before piece after, parts = before ++ piece :: after ∧
    (∀ early ∈ before, ∃ type, Reads early type) ∧ FailsPiece declaration piece fault

/-- What it takes to refuse a declaration of the given outermost form. -/
inductive FailsForm (declaration : List Char) : Outline → TypeFault → Prop
  | blank : FailsForm declaration .blank (.malformed (String.ofList declaration) .emptyType)
  | tupleCut {body : List Char} {why : Malformation} (hcut : splitTop ',' body = .error why) :
      FailsForm declaration (.tuple body) (.malformed (String.ofList declaration) why)
  | tuplePiece {body : List Char} {parts : List (List Char)} {fault : TypeFault}
      (hcut : splitTop ',' body = .ok parts)
      (hfails : FailsFirst declaration (dropTrailingEmpty parts) fault) :
      FailsForm declaration (.tuple body) fault
  | arrayCut {body : List Char} {why : Malformation} (hcut : splitTop ';' body = .error why) :
      FailsForm declaration (.array body) (.malformed (String.ofList declaration) why)
  | arrayParts {body : List Char} {parts : List (List Char)}
      (hcut : splitTop ';' body = .ok parts) (hcount : parts.length ≠ 2) :
      FailsForm declaration (.array body) (.malformed (String.ofList declaration) .arrayParts)
  | arrayNumber {body element length : List Char} {why : Malformation}
      (hcut : splitTop ';' body = .ok [element, length])
      (hnumber : arrayLength length = .error why) :
      FailsForm declaration (.array body) (.malformed (String.ofList declaration) why)
  | arrayElement {body element length : List Char} {fault : TypeFault}
      (hcut : splitTop ';' body = .ok [element, length]) (hnumber : isDigits length)
      (hfits : decimalValue length < UInt64.size) (hfails : FailsPiece declaration element fault) :
      FailsForm declaration (.array body) fault
  | genericName {base inner : List Char} (hname : ¬ isIdentifier (trim base)) :
      FailsForm declaration (.generic base inner)
        (.malformed (String.ofList declaration) (.notGenericName (String.ofList (trim base))))
  | genericUnknown {base inner : List Char} (hname : isIdentifier (trim base))
      (hunknown : ∀ head : Generic, trim base ≠ head.name.toList) :
      FailsForm declaration (.generic base inner) (.unknownGeneric (String.ofList (trim base)))
  | genericCut {base inner : List Char} {head : Generic} {why : Malformation}
      (hnames : trim base = head.name.toList) (hcut : splitTop ',' inner = .error why) :
      FailsForm declaration (.generic base inner) (.malformed (String.ofList declaration) why)
  | genericPiece {base inner : List Char} {head : Generic} {parts : List (List Char)}
      {fault : TypeFault} (hnames : trim base = head.name.toList)
      (hcut : splitTop ',' inner = .ok parts) (hfails : FailsFirst declaration parts fault) :
      FailsForm declaration (.generic base inner) fault
  /-- The arguments are counted when all of them have been read. -/
  | genericArity {base inner : List Char} {head : Generic} {parts : List (List Char)}
      {arguments : List TypeExpr} (hnames : trim base = head.name.toList)
      (hcut : splitTop ',' inner = .ok parts) (hread : List.Forall₂ Reads parts arguments)
      (hwrong : arguments.length ≠ head.arity) :
      FailsForm declaration (.generic base inner) (.arity head arguments.length)
  | unclosed :
      FailsForm declaration .unclosed (.malformed (String.ofList declaration) .unclosedArguments)
  | word (hunknown : TypeExpr.ofWord? (trim declaration) = none) :
      FailsForm declaration .word (.malformed (String.ofList declaration)
        (.unexpectedToken (String.ofList (trim declaration))))

/-! ### The parts of a form -/

/-- A malformation is a fault of the declaration that it is found in. -/
theorem within_eq_error_iff {outcome : Except Malformation ℕ} :
    Malformation.within declaration outcome = .error fault ↔
      ∃ why, outcome = .error why ∧ TypeFault.malformed (String.ofList declaration) why = fault :=
  mapError_eq_error_iff

/-- The name before the `<` is looked at first: is it a name at all, and then, is it known? -/
theorem genericHead_eq_error_iff :
    genericHead declaration base = .error fault ↔
      (¬ isIdentifier (trim base) ∧ .malformed (String.ofList declaration)
        (.notGenericName (String.ofList (trim base))) = fault) ∨
      (isIdentifier (trim base) ∧ (∀ head : Generic, trim base ≠ head.name.toList) ∧
        .unknownGeneric (String.ofList (trim base)) = fault) := by
  rw [genericHead]
  -- is it a name, and is it then one of those that are known
  split
  · next hname =>
    cases hfound : Generic.ofName? (String.ofList (trim base)) with
    | none =>
      have hunknown (head : Generic) : trim base ≠ head.name.toList := fun heq => by
        rw [ofName?_ofList_eq_some_iff.mpr heq] at hfound
        cases hfound
      simp [hname, hunknown]
    | some head =>
      refine ⟨?_, ?_⟩
      · intro h
        cases h
      · rintro (⟨hnone, -⟩ | ⟨-, hunknown, -⟩)
        · exact absurd hname hnone
        · exact absurd (ofName?_ofList_eq_some_iff.mp hfound) (hunknown head)
  · next hname => simp [hname]

/-- A generic refuses another number of arguments than it takes. -/
theorem applyGeneric_eq_error_iff {head : Generic} {arguments : List TypeExpr} :
    applyGeneric head arguments = .error fault ↔
      arguments.length ≠ head.arity ∧ TypeFault.arity head arguments.length = fault := by
  unfold applyGeneric
  split <;> simp [*]

/-- A piece is refused for being empty, or for a reason of its own. -/
theorem parseElement_eq_error_iff :
    TypeExpr.parseElement declaration piece = .error fault ↔
      FailsPiece declaration piece fault := by
  rw [TypeExpr.parseElement]
  split
  · next hempty =>
    rw [List.isEmpty_iff.mp hempty]
    refine ⟨?_, ?_⟩
    · intro h
      cases h
      exact .empty
    · rintro (_ | ⟨hnonempty, -⟩)
      · rfl
      · exact absurd rfl hnonempty
  · next hempty =>
    have hne : piece ≠ [] := fun h => hempty (List.isEmpty_iff.mpr h)
    refine ⟨.inside hne, ?_⟩
    rintro (_ | ⟨-, hfails⟩)
    · exact absurd rfl hne
    · exact hfails

/-- The pieces are read one by one. -/
theorem parseElements_eq_mapM :
    TypeExpr.parseElements declaration parts = parts.mapM (TypeExpr.parseElement declaration) := by
  induction parts with
  | nil =>
    rw [TypeExpr.parseElements, List.mapM_nil]
    rfl
  | cons piece parts ih => rw [TypeExpr.parseElements, List.mapM_cons, ih]

/-- Pieces are refused by the first of them that is. -/
theorem parseElements_eq_error_iff :
    TypeExpr.parseElements declaration parts = .error fault ↔
      FailsFirst declaration parts fault := by
  simp only [parseElements_eq_mapM, mapM_eq_error_iff, FailsFirst, parseElement_eq_ok_iff,
    parseElement_eq_error_iff]

/-! ### Refusing a text -/

/-- A tuple is refused for its brackets, or else for the first of its pieces that is refused. -/
theorem fails_tuple_iff {body : List Char} (hform : outline (trim declaration) = .tuple body) :
    Fails declaration fault ↔ FailsForm declaration (.tuple body) fault := by
  rw [Fails, TypeExpr.parseChars]
  -- only the branch of this form is left; the others contradict `hform`
  split
  case h_3 hbody =>
    obtain rfl := Outline.tuple.inj (hform.symm.trans hbody)
    split
    · next why hcut =>
      refine ⟨fun h => ?_, fun h => ?_⟩
      · cases h
        exact .tupleCut hcut
      · cases h with
        | tupleCut hcut' =>
          cases hcut.symm.trans hcut'
          rfl
        | tuplePiece hcut' _ => cases hcut.symm.trans hcut'
    · next parts hcut =>
      rw [map_eq_error_iff, parseElements_eq_error_iff]
      refine ⟨.tuplePiece hcut, fun h => ?_⟩
      cases h with
      | tupleCut hcut' => cases hcut.symm.trans hcut'
      | tuplePiece hcut' hfails =>
        cases hcut.symm.trans hcut'
        exact hfails
  all_goals next h => cases hform.symm.trans h

/-- The length of an array is looked at before the element. -/
theorem fails_array_iff {body : List Char} (hform : outline (trim declaration) = .array body) :
    Fails declaration fault ↔ FailsForm declaration (.array body) fault := by
  rw [Fails, TypeExpr.parseChars]
  split
  case h_4 hbody =>
    obtain rfl := Outline.array.inj (hform.symm.trans hbody)
    -- no cut, two parts, or another number of them
    split
    · next why hcut =>
      refine ⟨fun h => ?_, fun h => ?_⟩
      · cases h
        exact .arrayCut hcut
      · cases h with
        | arrayCut hcut' =>
          cases hcut.symm.trans hcut'
          rfl
        | arrayParts hcut' | arrayNumber hcut' | arrayElement hcut' => cases hcut.symm.trans hcut'
    · next element length hcut =>
      -- the length is read before the element
      simp only [bind_eq_error_iff, within_eq_error_iff, parseElement_eq_error_iff]
      refine ⟨?_, fun h => ?_⟩
      · rintro (⟨why, hwhy, rfl⟩ | ⟨value, hvalue, h⟩)
        · exact .arrayNumber hcut hwhy
        · obtain ⟨hdigits, hfits, rfl⟩ := arrayLength_eq_ok_iff.mp (mapError_eq_ok_iff.mp hvalue)
          rcases h with h | ⟨type, -, h⟩
          · exact .arrayElement hcut hdigits hfits h
          · cases h
      -- of the reasons only the length and the element come behind a cut in two
      · cases h with
        | arrayCut hcut' => cases hcut.symm.trans hcut'
        | arrayParts hcut' hcount =>
          cases hcut.symm.trans hcut'
          exact absurd rfl hcount
        | arrayNumber hcut' hnumber =>
          cases hcut.symm.trans hcut'
          exact .inl ⟨_, hnumber, rfl⟩
        | arrayElement hcut' hnumber hfits hfails =>
          cases hcut.symm.trans hcut'
          exact .inr ⟨_, mapError_eq_ok_iff.mpr (arrayLength_eq_ok_iff.mpr ⟨hnumber, hfits, rfl⟩),
            .inl hfails⟩
    · next parts hother hcut =>
      have hcount : parts.length ≠ 2 := fun hlength => by
        obtain ⟨element, length, rfl⟩ := List.length_eq_two.mp hlength
        exact hother element length rfl
      refine ⟨fun h => ?_, fun h => ?_⟩
      · cases h
        exact .arrayParts hcut hcount
      · cases h with
        | arrayParts => rfl
        | arrayCut hcut' => cases hcut.symm.trans hcut'
        | arrayNumber hcut' | arrayElement hcut' =>
          cases hcut.symm.trans hcut'
          exact absurd rfl hcount
  all_goals next h => cases hform.symm.trans h

/-- The name of a generic is looked at first, and the number of the arguments last. -/
theorem fails_generic_iff {inner : List Char}
    (hform : outline (trim declaration) = .generic base inner) :
    Fails declaration fault ↔ FailsForm declaration (.generic base inner) fault := by
  rw [Fails, TypeExpr.parseChars]
  split
  case h_5 hbase =>
    obtain ⟨rfl, rfl⟩ := Outline.generic.inj (hform.symm.trans hbase)
    rw [bind_eq_error_iff, genericHead_eq_error_iff]
    -- each reason belongs to one step of the reader, which has passed all steps before it
    refine ⟨?_, fun h => ?_⟩
    · rintro ((⟨hname, rfl⟩ | ⟨hname, hunknown, rfl⟩) | ⟨head, hhead, h⟩)
      · exact .genericName hname
      · exact .genericUnknown hname hunknown
      · have hnames := genericHead_eq_ok_iff.mp hhead
        split at h
        · next why hcut =>
          cases h
          exact .genericCut hnames hcut
        · next parts hcut =>
          rcases bind_eq_error_iff.mp h with h | ⟨arguments, harguments, h⟩
          · exact .genericPiece hnames hcut (parseElements_eq_error_iff.mp h)
          · obtain ⟨hwrong, rfl⟩ := applyGeneric_eq_error_iff.mp h
            exact .genericArity hnames hcut (parseElements_eq_ok_iff.mp harguments) hwrong
    · cases h with
      | genericName hname => exact .inl (.inl ⟨hname, rfl⟩)
      | genericUnknown hname hunknown => exact .inl (.inr ⟨hname, hunknown, rfl⟩)
      -- from here on the name is in order, and the text inside is cut
      | genericCut hnames hcut' =>
        refine .inr ⟨_, genericHead_eq_ok_iff.mpr hnames, ?_⟩
        split
        · next hcut =>
          cases hcut.symm.trans hcut'
          rfl
        · next hcut => cases hcut.symm.trans hcut'
      | genericPiece hnames hcut' hfails =>
        refine .inr ⟨_, genericHead_eq_ok_iff.mpr hnames, ?_⟩
        split
        · next hcut => cases hcut.symm.trans hcut'
        · next hcut =>
          cases hcut.symm.trans hcut'
          exact bind_eq_error_iff.mpr (.inl (parseElements_eq_error_iff.mpr hfails))
      | genericArity hnames hcut' hread hwrong =>
        refine .inr ⟨_, genericHead_eq_ok_iff.mpr hnames, ?_⟩
        split
        · next hcut => cases hcut.symm.trans hcut'
        · next hcut =>
          cases hcut.symm.trans hcut'
          exact bind_eq_error_iff.mpr (.inr ⟨_, parseElements_eq_ok_iff.mpr hread,
            applyGeneric_eq_error_iff.mpr ⟨hwrong, rfl⟩⟩)
  all_goals next h => cases hform.symm.trans h

/-- Without brackets around anything there is at most one way to be refused. -/
theorem fails_iff_of_no_pieces (hform : outline (trim declaration) = .blank ∨
      outline (trim declaration) = .unit ∨ outline (trim declaration) = .unclosed ∨
        outline (trim declaration) = .word) :
    Fails declaration fault ↔ FailsForm declaration (outline (trim declaration)) fault := by
  rw [Fails, TypeExpr.parseChars]
  split
  case h_1 hblank =>
    rw [hblank]
    refine ⟨fun h => ?_, fun h => ?_⟩
    · cases h
      exact .blank
    · cases h
      rfl
  case h_2 hunit =>
    rw [hunit]
    exact ⟨nofun, nofun⟩
  case h_6 hunclosed =>
    rw [hunclosed]
    refine ⟨fun h => ?_, fun h => ?_⟩
    · cases h
      exact .unclosed
    · cases h
      rfl
  case h_7 hword =>
    rw [hword]
    -- a word is refused if it denotes no type
    cases hdenotes : TypeExpr.ofWord? (trim declaration) with
    | some type =>
      refine ⟨nofun, fun h => ?_⟩
      cases h with
      | word hunknown => cases hdenotes.symm.trans hunknown
    | none =>
      refine ⟨fun h => ?_, fun h => ?_⟩
      · cases h
        exact .word hdenotes
      · cases h
        rfl
  all_goals next hpieces => simp [hpieces] at hform

/-- **A declaration is refused as its outermost form has it.** -/
theorem fails_iff :
    Fails declaration fault ↔ FailsForm declaration (outline (trim declaration)) fault := by
  -- the three forms with pieces inside have a lemma each
  cases hform : outline (trim declaration) with
  | tuple body => exact fails_tuple_iff hform
  | array body => exact fails_array_iff hform
  | generic base inner => exact fails_generic_iff hform
  | blank | unit | unclosed | word =>
    rw [← hform]
    exact fails_iff_of_no_pieces (by simp [hform])

end WireBindings
