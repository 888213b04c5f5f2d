import Mathlib.Data.List.Infix
import WireBindings.Fault
import WireBindings.Proofs.TypeExpr.Failing
import WireBindings.Proofs.TypeExpr.Forms
import WireBindings.Proofs.TypeExpr.Inert

/-!
# Where a fault lies

However deep inside a declaration something is wrong, the fault can be traced to a part of it: a
stretch of its characters that is refused by itself with the very same fault, and in which can be
seen what the fault says (`Explains`). If several pieces next to each other are wrong, the fault is
that of the leftmost (`parse_fault_located`).

The trace follows the brackets inwards. A text is at fault by itself, or one of its pieces is, and a
piece is a shorter stretch of the same characters (`explains_or_fails_inside`). Nothing of what
stands around the part that is found comes into the fault.
-/

namespace WireBindings

open Text (trim)

variable {text base body inner piece : List Char} {parts : List (List Char)} {delimiter : Char}
  {fault : TypeFault}

/-! ### Parts of a declaration -/

/-- Each of several joined texts is a stretch of the whole. -/
theorem isInfix_intercalate {separator : List Char} (hmem : piece ∈ parts) :
    piece <:+: separator.intercalate parts := by
  induction parts with
  | nil => cases hmem
  | cons first rest ih =>
    -- the last text has no separator behind it
    cases rest with
    | nil => rw [List.mem_singleton.mp hmem, List.intercalate_singleton]
    | cons next rest =>
      rw [List.intercalate_cons_cons]
      rcases List.mem_cons.mp hmem with rfl | hmem
      · rw [List.append_assoc]
        exact (List.prefix_append _ _).isInfix
      · exact (ih hmem).trans (List.suffix_append _ _).isInfix

/-- The pieces of a text are stretches of its characters. -/
theorem isInfix_of_mem_splitTop (hcut : splitTop delimiter text = .ok parts)
    (hmem : piece ∈ parts) : piece <:+: text := by
  obtain ⟨raw, hraw, rfl⟩ := map_eq_ok_iff.mp hcut
  obtain ⟨whole, hwhole, rfl⟩ := List.mem_map.mp hmem
  rw [← intercalate_of_pieces hraw]
  exact (Text.isInfix_trim whole).trans (isInfix_intercalate hwhole)

/-- What is not dropped was there. -/
theorem mem_of_mem_dropTrailingEmpty (hmem : piece ∈ dropTrailingEmpty parts) : piece ∈ parts := by
  unfold dropTrailingEmpty at hmem
  split at hmem
  · exact (List.dropLast_sublist parts).mem hmem
  · exact hmem

/-- The first text is a stretch of the second, and shorter. -/
def Inside (part text : List Char) : Prop := part <:+: text ∧ part.length < text.length

/-- What stands between brackets falls into pieces inside the text. -/
theorem inside_of_mem_splitTop {opener closer : Char} (front : List Char)
    (hbrackets : trim text = front ++ opener :: body ++ [closer])
    (hcut : splitTop delimiter body = .ok parts) (hmem : piece ∈ parts) : Inside piece text := by
  have hpiece : piece <:+: body := isInfix_of_mem_splitTop hcut hmem
  have hbody : body <:+: trim text := ⟨front ++ [opener], [closer], by simp [hbrackets]⟩
  -- the two brackets are not part of the piece, which makes it shorter
  refine ⟨(hpiece.trans hbody).trans (Text.isInfix_trim text), ?_⟩
  have hlength : (trim text).length = front.length + (body.length + 2) := by simp [hbrackets]
  have hshorter := Text.length_trim_le text
  have hfits := hpiece.length_le
  omega

/-! ### What is to be seen at a fault -/

/-- The fault is that of the text as a whole, and this is what it says about the text. -/
inductive Explains (text : List Char) : TypeFault → Prop
  /-- A malformation names the text in which it was found. -/
  | malformed {why : Malformation} : Explains text (.malformed (String.ofList text) why)
  /-- The name is applied to arguments, and it is a name, but not that of a generic. -/
  | unknownGeneric {name gap inner : List Char} (hidentifier : Identifier name)
      (hunknown : ∀ head : Generic, name ≠ head.name.toList) (hblank : Gap gap)
      (happlied : trim text = name ++ gap ++ '<' :: inner ++ ['>']) :
      Explains text (.unknownGeneric (String.ofList name))
  /-- The generic is applied to this many types, which are more or fewer than it takes. -/
  | arity {head : Generic} {gap inner : List Char} {parts : List (List Char)} (hblank : Gap gap)
      (happlied : trim text = head.name.toList ++ gap ++ '<' :: inner ++ ['>'])
      (hcut : splitTop ',' inner = .ok parts) (hread : ∀ part ∈ parts, ∃ type, Reads part type)
      (hwrong : parts.length ≠ head.arity) : Explains text (.arity head parts.length)

/-- In a trimmed text only blanks can stand between the name of a generic and the `<`. -/
theorem exists_gap_of_outline_generic (hform : outline (trim text) = .generic base inner) :
    ∃ gap, Gap gap ∧ trim text = trim base ++ gap ++ '<' :: inner ++ ['>'] := by
  have happlied := eq_of_outline_generic hform
  obtain ⟨gap, hgap, hbase⟩ :=
    Text.exists_eq_trim_append (happlied.trans (List.append_assoc base ('<' :: inner) ['>']))
  exact ⟨gap, hgap, by rw [← hbase]; exact happlied⟩

/-! ### The trace -/

/-- A text is refused for its own sake, or because something inside it is. -/
theorem explains_or_fails_inside (h : Fails text fault) :
    Explains text fault ∨ ∃ part, Inside part text ∧ Fails part fault := by
  -- an empty piece is a malformation of the text around it, any other piece has a fault of its own
  have hpiece {piece : List Char} (hinside : Inside piece text)
      (h : FailsPiece text piece fault) :
      Explains text fault ∨ ∃ part, Inside part text ∧ Fails part fault := by
    cases h with
    | empty => exact .inl .malformed
    | inside _ hfails => exact .inr ⟨piece, hinside, hfails⟩
  have hfirst {parts : List (List Char)} (hinside : ∀ piece ∈ parts, Inside piece text)
      (h : FailsFirst text parts fault) :
      Explains text fault ∨ ∃ part, Inside part text ∧ Fails part fault := by
    obtain ⟨before, piece, after, rfl, -, h⟩ := h
    exact hpiece (hinside piece (List.mem_append_right _ List.mem_cons_self)) h
  have hform := fails_iff.mp h
  generalize hout : outline (trim text) = form at hform
  -- a reason is seen in the text itself, or a piece between its brackets is at fault
  cases hform with
  | blank | tupleCut | arrayCut | arrayParts | arrayNumber | genericName | genericCut | unclosed
  | word => exact .inl .malformed
  | tuplePiece hcut hfails =>
    exact hfirst (fun piece hmem => inside_of_mem_splitTop [] (eq_of_outline_tuple hout) hcut
      (mem_of_mem_dropTrailingEmpty hmem)) hfails
  | arrayElement hcut _ _ hfails =>
    exact hpiece (inside_of_mem_splitTop [] (eq_of_outline_array hout) hcut List.mem_cons_self)
      hfails
  | @genericPiece base _ _ _ _ _ hcut hfails =>
    exact hfirst (fun piece => inside_of_mem_splitTop base (eq_of_outline_generic hout) hcut) hfails
  | genericUnknown hname hunknown =>
    obtain ⟨gap, hgap, happlied⟩ := exists_gap_of_outline_generic hout
    exact .inl (.unknownGeneric (isIdentifier_iff.mp hname) hunknown hgap happlied)
  | genericArity hnames hcut hread hwrong =>
    obtain ⟨gap, hgap, happlied⟩ := exists_gap_of_outline_generic hout
    rw [hnames] at happlied
    rw [← hread.length_eq] at hwrong ⊢
    refine .inl (.arity hgap happlied hcut (fun part hmem => ?_) hwrong)
    obtain ⟨type, -, hread⟩ := exists_right_of_mem hread hmem
    exact ⟨type, hread⟩

/-- The trace ends at a part that is refused for its own sake. -/
theorem exists_part_of_fails (h : Fails text fault) :
    ∃ part, part <:+: text ∧ Fails part fault ∧ Explains part fault := by
  -- each step goes to a shorter text, so the trace ends
  induction hn : text.length using Nat.strong_induction_on generalizing text with
  | h n ih =>
    subst hn
    rcases explains_or_fails_inside h with hexplains | ⟨piece, hinside, hpiece⟩
    · exact ⟨text, List.infix_rfl, h, hexplains⟩
    · obtain ⟨part, hpart, hfails, hexplains⟩ := ih piece.length hinside.2 hpiece rfl
      exact ⟨part, hpart.trans hinside.1, hfails, hexplains⟩

/-! ### Pieces next to each other -/

/-- The declaration is a tuple of these pieces, or a generic applied to them. -/
inductive PiecesOf (declaration : List Char) : List (List Char) → Prop
  | tuple {body : List Char} {parts : List (List Char)}
      (hbracketed : trim declaration = '(' :: body ++ [')'])
      (hcut : splitTop ',' body = .ok parts) : PiecesOf declaration (dropTrailingEmpty parts)
  | generic {head : Generic} {gap inner : List Char} {parts : List (List Char)} (hblank : Gap gap)
      (happlied : trim declaration = head.name.toList ++ gap ++ '<' :: inner ++ ['>'])
      (hcut : splitTop ',' inner = .ok parts) : PiecesOf declaration parts

/-- What can be cut has balanced brackets. -/
theorem balanced_of_splitTop (hcut : splitTop delimiter text = .ok parts) : Balanced text :=
  exists_splitTop_eq_ok_iff.mp ⟨parts, hcut⟩

/-- The first piece that is refused makes the declaration refused. -/
theorem PiecesOf.fails (hpieces : PiecesOf text parts) (hsome : ∀ piece ∈ parts, piece ≠ [])
    (h : FailsFirst text parts fault) : Fails text fault := by
  rw [fails_iff]
  cases hpieces with
  | @tuple body parts hbracketed hcut =>
    -- without a body this would be the unit type
    have hbody : body ≠ [] := by
      rintro rfl
      cases hcut
      exact hsome [] (List.mem_singleton_self []) rfl
    rw [hbracketed, outline_tuple (balanced_of_splitTop hcut) hbody]
    exact .tuplePiece hcut h
  | @generic head gap inner parts hblank happlied hcut =>
    have hname : Identifier head.name.toList := isIdentifier_iff.mp (isIdentifier_name head)
    have hbase : ∀ c ∈ head.name.toList ++ gap, Plain c := fun c hc =>
      (hname.inert_append hblank c hc).1
    rw [happlied, outline_generic hbase]
    exact .genericPiece (hname.trim_append hblank) hcut h

/-- If some piece is refused, then one of them is the leftmost. -/
theorem exists_first_refused (h : ∃ piece ∈ parts, ∃ fault, Fails piece fault) :
    ∃ before piece after fault, parts = before ++ piece :: after ∧
      (∀ early ∈ before, ∃ type, Reads early type) ∧ Fails piece fault := by
  have hnot : ¬ ∀ piece ∈ parts, ∃ type, Reads piece type := by
    intro hall
    obtain ⟨piece, hmem, fault, hfails⟩ := h
    obtain ⟨type, hread⟩ := hall piece hmem
    cases hfails.symm.trans hread
  obtain ⟨before, piece, after, hsplit, hbefore, hpiece⟩ := exists_first_of_not_forall hnot
  -- a piece that is not read is refused with some fault
  cases hparse : TypeExpr.parseChars piece with
  | ok type => exact absurd ⟨type, hparse⟩ hpiece
  | error fault => exact ⟨before, piece, after, fault, hsplit, hbefore, hparse⟩

/-- **Faults are located.** If a declaration is refused, then so is some stretch of its characters,
with the same fault, which names that stretch if it is a malformation and otherwise can be checked
on it. And among the pieces of a tuple, or of the arguments of a generic, none of which is empty, it
is the leftmost that is refused whose fault is reported. -/
theorem parse_fault_located (declaration : String) :
    (∀ fault, TypeExpr.parse declaration = .error fault →
      ∃ part : String, part.toList <:+: declaration.toList ∧
        TypeExpr.parse part = .error fault ∧ Explains part.toList fault ∧
        ∀ named why, fault = .malformed named why →
          fault.message =
            "Malformed type reference " ++ Text.quote part ++ ": " ++ why.message) ∧
    ∀ pieces, PiecesOf declaration.toList pieces → (∀ piece ∈ pieces, piece ≠ []) →
      (∃ piece ∈ pieces, ∃ fault, Fails piece fault) →
        ∃ before piece after fault, pieces = before ++ piece :: after ∧
          (∀ early ∈ before, ∃ type, Reads early type) ∧ Fails piece fault ∧
          TypeExpr.parse declaration = .error fault := by
  -- the first half is the trace, the second the order in which pieces are read
  refine ⟨fun fault h => ?_, fun pieces hpieces hsome hrefused => ?_⟩
  · obtain ⟨part, hpart, hfails, hexplains⟩ := exists_part_of_fails h
    have hsame : (String.ofList part).toList = part := String.toList_ofList
    refine ⟨String.ofList part, by rwa [hsame], ?_, by rwa [hsame], ?_⟩
    · rwa [TypeExpr.parse, hsame]
    · rintro named why rfl
      cases hexplains
      rfl
  · obtain ⟨before, piece, after, fault, rfl, hbefore, hfails⟩ :=
      exists_first_refused hrefused
    have hne : piece ≠ [] := hsome piece (List.mem_append_right _ List.mem_cons_self)
    exact ⟨before, piece, after, fault, rfl, hbefore, hfails,
      hpieces.fails hsome ⟨before, piece, after, rfl, hbefore, .inside hne hfails⟩⟩

/-- Two elements of this tuple are refused, and the first of them for what stands inside it. -/
theorem parse_fault_located_nested :
    TypeExpr.parse "(u8, Vec<Box<u8>>, x y)" = .error (.unknownGeneric "Box") ∧
      (∃ part : String, part.toList <:+: "(u8, Vec<Box<u8>>, x y)".toList ∧
        TypeExpr.parse part = .error (.unknownGeneric "Box") ∧
        Explains part.toList (.unknownGeneric "Box")) ∧
      ∃ before piece after,
        ["u8".toList, "Vec<Box<u8>>".toList, "x y".toList] = before ++ piece :: after ∧
          (∀ early ∈ before, ∃ type, Reads early type) ∧
          Fails piece (.unknownGeneric "Box") := by
  have hfault : TypeExpr.parse "(u8, Vec<Box<u8>>, x y)" = .error (.unknownGeneric "Box") := by
    with_unfolding_all rfl
  have hbody : trim "(u8, Vec<Box<u8>>, x y)".toList =
      '(' :: "u8, Vec<Box<u8>>, x y".toList ++ [')'] := by decide
  have hcut : splitTop ',' "u8, Vec<Box<u8>>, x y".toList =
      .ok ["u8".toList, "Vec<Box<u8>>".toList, "x y".toList] := by decide
  have hlast : Fails "x y".toList (.malformed "x y" (.unexpectedToken "x y")) := by
    show TypeExpr.parse "x y" = _
    with_unfolding_all rfl
  obtain ⟨hlocated, hleftmost⟩ := parse_fault_located "(u8, Vec<Box<u8>>, x y)"
  obtain ⟨part, hpart, hsame, hexplains, -⟩ := hlocated _ hfault
  obtain ⟨before, piece, after, fault, hsplit, hbefore, hfails, hparse⟩ :=
    hleftmost _ (.tuple hbody hcut) (by decide) ⟨"x y".toList, by decide, _, hlast⟩
  cases hfault.symm.trans hparse
  exact ⟨hfault, ⟨part, hpart, hsame, hexplains⟩, before, piece, after, hsplit, hbefore, hfails⟩

end WireBindings
