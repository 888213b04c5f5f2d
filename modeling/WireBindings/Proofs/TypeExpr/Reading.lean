import Mathlib.Data.List.Forall2
import WireBindings.Proofs.Outcome
import WireBindings.Proofs.Text.Trim
import WireBindings.TypeExpr.Parse

/-!
# What the reader of declarations accepts

`Reads text type` says that the reader takes the text for a spelling of the type, whatever it might
say about other texts. Success is settled form by form: `ReadsForm` has one constructor for each
outermost form that can succeed, and `reads_iff` says that a text is read exactly as its trimmed
form allows. The faults and the order in which they are looked for play no part here.
-/

namespace WireBindings

open Text (trim)

variable {declaration text base length : List Char} {type : TypeExpr} {types : List TypeExpr}

/-- The reader takes the text for a spelling of the type. -/
def Reads (text : List Char) (type : TypeExpr) : Prop := TypeExpr.parseChars text = .ok type

/-- What it takes to read a text of the given outermost form. The text itself matters for a word
only; the other forms carry the texts inside their brackets. -/
inductive ReadsForm (text : List Char) : Outline → TypeExpr → Prop
  | unit : ReadsForm text .unit .unit
  | tuple {body : List Char} {parts : List (List Char)} {elements : List TypeExpr}
      (hcut : splitTop ',' body = .ok parts)
      (hread : List.Forall₂ Reads (dropTrailingEmpty parts) elements) :
      ReadsForm text (.tuple body) (.tuple elements)
  | array {body element length : List Char} {type : TypeExpr}
      (hcut : splitTop ';' body = .ok [element, length]) (hnumber : isDigits length)
      (hfits : decimalValue length < UInt64.size) (hread : Reads element type) :
      ReadsForm text (.array body) (.array type (decimalValue length))
  | generic {base inner : List Char} {parts : List (List Char)} {head : Generic}
      {arguments : List TypeExpr} (hnames : trim base = head.name.toList)
      (hcut : splitTop ',' inner = .ok parts) (hread : List.Forall₂ Reads parts arguments)
      (hcomplete : arguments.length = head.arity) :
      ReadsForm text (.generic base inner) (.generic head arguments)
  | word {type : TypeExpr} (hdenotes : TypeExpr.ofWord? text = some type) :
      ReadsForm text .word type

/-! ### The parts of a form -/

theorem isIdentifier_name (head : Generic) : isIdentifier head.name.toList := by
  cases head <;> decide

/-- A generic is known by its name. -/
theorem ofName?_ofList_eq_some_iff {head : Generic} :
    Generic.ofName? (String.ofList text) = some head ↔ text = head.name.toList := by
  rw [Generic.ofName?_eq_some_iff, ← String.toList_inj, String.toList_ofList]

/-- The base of a generic is its name, with blanks around it. -/
theorem genericHead_eq_ok_iff {head : Generic} :
    genericHead declaration base = .ok head ↔ trim base = head.name.toList := by
  rw [← ofName?_ofList_eq_some_iff, genericHead]
  -- a text that is no identifier is refused before it is looked up, and it is no name of a generic
  split
  · cases hknown : Generic.ofName? (String.ofList (trim base)) <;> simp
  · next hword =>
    refine ⟨?_, ?_⟩
    · intro h
      cases h
    · intro h
      rw [ofName?_ofList_eq_some_iff.mp h] at hword
      exact absurd (isIdentifier_name head) hword

/-- A length is a number that fits in 64 bits. -/
theorem arrayLength_eq_ok_iff {value : ℕ} :
    arrayLength length = .ok value ↔
      isDigits length ∧ decimalValue length < UInt64.size ∧ decimalValue length = value := by
  unfold arrayLength
  split <;> [split; skip] <;> simp [*]

/-- A generic takes the number of arguments that it has. -/
theorem applyGeneric_eq_ok_iff {head : Generic} :
    applyGeneric head types = .ok type ↔
      types.length = head.arity ∧ TypeExpr.generic head types = type := by
  unfold applyGeneric
  split <;> simp [*]

/-- Nothing at all is no type. -/
theorem not_reads_nil : ¬ Reads [] type := by
  intro h
  rw [Reads, TypeExpr.parseChars] at h
  split at h
  all_goals contradiction

/-- An empty piece spells no type anyway, only the fault is another one. -/
theorem parseElement_eq_ok_iff {piece : List Char} :
    TypeExpr.parseElement declaration piece = .ok type ↔ Reads piece type := by
  rw [TypeExpr.parseElement]
  split
  · next hempty =>
    rw [List.isEmpty_iff.mp hempty]
    exact ⟨nofun, fun h => absurd h not_reads_nil⟩
  · rfl

/-- Pieces are read one by one. -/
theorem parseElements_eq_ok_iff {parts : List (List Char)} :
    TypeExpr.parseElements declaration parts = .ok types ↔ List.Forall₂ Reads parts types := by
  -- the pieces are read from the left, and the first that is refused would end it
  induction parts generalizing types with
  | nil =>
    rw [TypeExpr.parseElements, List.forall₂_nil_left_iff]
    simp [eq_comm]
  | cons piece parts ih =>
    rw [TypeExpr.parseElements, List.forall₂_cons_left_iff, bind_eq_ok_iff]
    refine ⟨?_, ?_⟩
    · rintro ⟨type, htype, h⟩
      obtain ⟨more, hmore, h⟩ := bind_eq_ok_iff.mp h
      cases h
      exact ⟨type, more, parseElement_eq_ok_iff.mp htype, ih.mp hmore, rfl⟩
    · rintro ⟨type, more, htype, hmore, rfl⟩
      exact ⟨type, parseElement_eq_ok_iff.mpr htype,
        bind_eq_ok_iff.mpr ⟨more, ih.mpr hmore, rfl⟩⟩

/-! ### Reading a text -/

/-- A tuple is read piece by piece. -/
theorem reads_tuple_iff {body : List Char} (hform : outline (trim text) = .tuple body) :
    Reads text type ↔ ReadsForm (trim text) (.tuple body) type := by
  rw [Reads, TypeExpr.parseChars]
  -- only the branch of this form is left; the others contradict `hform`
  split
  case h_3 hbody =>
    obtain rfl := Outline.tuple.inj (hform.symm.trans hbody)
    split
    · next why hcut =>
      refine ⟨fun h => absurd h (by simp), fun h => ?_⟩
      cases h with
      | tuple hcut' _ => cases hcut.symm.trans hcut'
    · next parts hcut =>
      rw [map_eq_ok_iff]
      refine ⟨?_, fun h => ?_⟩
      · rintro ⟨elements, h, rfl⟩
        exact .tuple hcut (parseElements_eq_ok_iff.mp h)
      · cases h with
        | tuple hcut' hread =>
          cases hcut.symm.trans hcut'
          exact ⟨_, parseElements_eq_ok_iff.mpr hread, rfl⟩
  all_goals next h => cases hform.symm.trans h

/-- An array needs two pieces. -/
theorem reads_array_iff {body : List Char} (hform : outline (trim text) = .array body) :
    Reads text type ↔ ReadsForm (trim text) (.array body) type := by
  rw [Reads, TypeExpr.parseChars]
  split
  case h_4 hbody =>
    obtain rfl := Outline.array.inj (hform.symm.trans hbody)
    -- no cut, two parts, or another number of them
    split
    · next why hcut =>
      refine ⟨fun h => absurd h (by simp), fun h => ?_⟩
      cases h with
      | array hcut' _ _ _ => cases hcut.symm.trans hcut'
    · next element length hcut =>
      refine ⟨fun h => ?_, fun h => ?_⟩
      · obtain ⟨value, hvalue, h⟩ := bind_eq_ok_iff.mp h
        obtain ⟨inner, hinner, h⟩ := bind_eq_ok_iff.mp h
        obtain ⟨hdigits, hfits, rfl⟩ := arrayLength_eq_ok_iff.mp (mapError_eq_ok_iff.mp hvalue)
        cases h
        exact .array hcut hdigits hfits (parseElement_eq_ok_iff.mp hinner)
      · cases h with
        | array hcut' hnumber hfits hread =>
          cases hcut.symm.trans hcut'
          exact bind_eq_ok_iff.mpr
            ⟨_, mapError_eq_ok_iff.mpr (arrayLength_eq_ok_iff.mpr ⟨hnumber, hfits, rfl⟩),
              bind_eq_ok_iff.mpr ⟨_, parseElement_eq_ok_iff.mpr hread, rfl⟩⟩
    · next parts hother hcut =>
      refine ⟨fun h => absurd h (by simp), fun h => ?_⟩
      cases h with
      | array hcut' _ _ _ =>
        cases hcut.symm.trans hcut'
        exact (hother _ _ rfl).elim
  all_goals next h => cases hform.symm.trans h

/-- The name of a generic is looked at before the arguments. -/
theorem reads_generic_iff {inner : List Char} (hform : outline (trim text) = .generic base inner) :
    Reads text type ↔ ReadsForm (trim text) (.generic base inner) type := by
  rw [Reads, TypeExpr.parseChars]
  split
  case h_5 hbase =>
    obtain ⟨rfl, rfl⟩ := Outline.generic.inj (hform.symm.trans hbase)
    rw [bind_eq_ok_iff]
    refine ⟨?_, fun h => ?_⟩
    · rintro ⟨head, hhead, h⟩
      split at h
      · cases h
      · next parts hcut =>
        obtain ⟨arguments, harguments, h⟩ := bind_eq_ok_iff.mp h
        obtain ⟨hcomplete, rfl⟩ := applyGeneric_eq_ok_iff.mp h
        exact .generic (genericHead_eq_ok_iff.mp hhead) hcut
          (parseElements_eq_ok_iff.mp harguments) hcomplete
    · cases h with
      | generic hnames hcut' hread hcomplete =>
        refine ⟨_, genericHead_eq_ok_iff.mpr hnames, ?_⟩
        split
        · next why hcut => cases hcut.symm.trans hcut'
        · next parts hcut =>
          cases hcut.symm.trans hcut'
          exact bind_eq_ok_iff.mpr ⟨_, parseElements_eq_ok_iff.mpr hread,
            applyGeneric_eq_ok_iff.mpr ⟨hcomplete, rfl⟩⟩
  all_goals next h => cases hform.symm.trans h

/-- Without pieces inside it, a text is the unit type or a word. -/
theorem reads_iff_of_no_pieces (hform : outline (trim text) = .blank ∨
      outline (trim text) = .unit ∨ outline (trim text) = .unclosed ∨
        outline (trim text) = .word) :
    Reads text type ↔ ReadsForm (trim text) (outline (trim text)) type := by
  rw [Reads, TypeExpr.parseChars]
  split
  case h_1 hblank =>
    rw [hblank]
    refine ⟨fun h => ?_, fun h => ?_⟩ <;> cases h
  case h_2 hunit =>
    rw [hunit]
    refine ⟨fun h => ?_, fun h => ?_⟩
    · cases h
      exact .unit
    · cases h
      rfl
  case h_6 hunclosed =>
    rw [hunclosed]
    refine ⟨fun h => ?_, fun h => ?_⟩ <;> cases h
  case h_7 hword =>
    rw [hword]
    refine ⟨fun h => ?_, fun h => ?_⟩
    · split at h
      · next hdenotes =>
        cases h
        exact .word hdenotes
      · cases h
    · cases h with
      | word hdenotes => rw [hdenotes]
  all_goals next hpieces => simp [hpieces] at hform

/-- **A text is read as its trimmed form allows.** -/
theorem reads_iff : Reads text type ↔ ReadsForm (trim text) (outline (trim text)) type := by
  -- the three forms with pieces inside have a lemma each
  cases hform : outline (trim text) with
  | tuple body => exact reads_tuple_iff hform
  | array body => exact reads_array_iff hform
  | generic base inner => exact reads_generic_iff hform
  | blank | unit | unclosed | word =>
    rw [← hform]
    exact reads_iff_of_no_pieces (by simp [hform])

theorem reads_trim_iff : Reads (trim text) type ↔ Reads text type := by
  rw [reads_iff, reads_iff, Text.trim_trim]

/-- What is read is not blank throughout. -/
theorem Reads.trim_ne_nil (h : Reads text type) : trim text ≠ [] := by
  intro hblank
  rw [← reads_trim_iff, hblank] at h
  exact not_reads_nil h

end WireBindings
