import Mathlib.Data.List.Basic
import WireBindings.Proofs.Outcome
import WireBindings.TypeExpr.Outline

/-!
# Levels of nesting

A declaration is cut into pieces by counting brackets of all kinds together. `depthAfter` is that
count for a whole text, and a text is `Balanced` when it closes every level it opens and no other.
The cut succeeds on the balanced texts exactly (`exists_pieces_eq_ok_iff`), joining the pieces gives
the text back (`intercalate_of_pieces`), and in front of a further text the last piece grows into
the first piece of what follows (`pieces_append`).

Inside a bracket there is no delimiter that counts. So a balanced text within one level or more is
passed over as a whole (`pieces_append_of_depthAfter`), which is why a bracketed text is `Undivided`
whatever stands between its brackets.
-/

namespace WireBindings

open Text (consFirst)

variable {delimiter : Char} {depth : ℕ} {text rest : List Char} {parts : List (List Char)}

/-! ### Counting levels -/

/-- The number of levels open behind a character, if it does not close a level that is not open. -/
def depthStep (depth : ℕ) (c : Char) : Option ℕ :=
  if isOpener c then some (depth + 1)
  else if isCloser c then if depth = 0 then none else some (depth - 1)
  else some depth

/-- The number of levels open after the text when `depth` are open before it, if no bracket of the
text closes a level that is not open. -/
def depthAfter : ℕ → List Char → Option ℕ
  | depth, [] => some depth
  | depth, c :: rest => (depthStep depth c).bind fun inner => depthAfter inner rest

/-- Every level that the text opens it closes again, and no other. -/
def Balanced (text : List Char) : Prop := depthAfter 0 text = some 0

instance (text : List Char) : Decidable (Balanced text) := inferInstanceAs (Decidable (_ = some 0))

/-- The character is no bracket. -/
def Plain (c : Char) : Prop := ¬ isOpener c ∧ ¬ isCloser c

/-- The first character opens a level of nesting, the second closes one. -/
structure BracketPair (opener closer : Char) : Prop where
  opens : isOpener opener
  closes : isCloser closer
  distinct : ¬ isOpener closer

theorem bracketPair_round : BracketPair '(' ')' := ⟨rfl, rfl, Bool.false_ne_true⟩

theorem bracketPair_angle : BracketPair '<' '>' := ⟨rfl, rfl, Bool.false_ne_true⟩

theorem bracketPair_square : BracketPair '[' ']' := ⟨rfl, rfl, Bool.false_ne_true⟩

/-- An opener opens a level, however many are open. -/
theorem depthStep_of_opener {c : Char} (h : isOpener c) : depthStep depth c = some (depth + 1) :=
  if_pos h

/-- The second bracket of a pair closes the level that is open. -/
theorem BracketPair.depthStep_closer {opener closer : Char} (h : BracketPair opener closer) :
    depthStep (depth + 1) closer = some depth := by
  rw [depthStep, if_neg h.distinct, if_pos h.closes]
  rfl

theorem depthStep_of_plain {c : Char} (h : Plain c) : depthStep depth c = some depth := by
  rw [depthStep, if_neg h.1, if_neg h.2]

/-- More levels around a character stay open behind it. -/
theorem depthStep_add {inner : ℕ} {c : Char} (extra : ℕ) (h : depthStep depth c = some inner) :
    depthStep (depth + extra) c = some (inner + extra) := by
  -- only a closer looks at the number of open levels, and there it asks for one
  unfold depthStep at h ⊢
  split at h
  · cases h
    rw [if_pos ‹_›, Nat.add_right_comm]
  · split at h
    · split at h
      · cases h
      · cases h
        rw [if_neg ‹_›, if_pos ‹_›, if_neg (by omega), Nat.sub_add_comm (by omega)]
    · cases h
      rw [if_neg ‹_›, if_neg ‹_›]

/-- A character opens one level at most, and only an opener does. -/
theorem depthStep_le {inner : ℕ} {c : Char} (h : depthStep depth c = some inner) :
    inner ≤ depth + [c].countP isOpener := by
  unfold depthStep at h
  -- only the first case, an opener, adds a level
  split at h
  · cases h
    simp [‹isOpener c = true›]
  · split at h
    · split at h
      · cases h
      · cases h
        omega
    · cases h
      exact Nat.le_add_right _ _

/-- **No more levels are open than there are openers.** A count with 32 bits and a sign therefore
stays in its range, and agrees with this one, on any text with fewer than 2^31 of them. -/
theorem depthAfter_le {inner : ℕ} (h : depthAfter depth text = some inner) :
    inner ≤ depth + text.countP isOpener := by
  -- each character adds what `depthStep_le` allows it to add
  induction text generalizing depth with
  | nil =>
    cases h
    exact Nat.le_add_right _ _
  | cons c rest ih =>
    obtain ⟨next, hstep, hrest⟩ := Option.bind_eq_some_iff.mp h
    have hfirst := depthStep_le hstep
    have hall : ([c] ++ rest).countP isOpener = [c].countP isOpener + rest.countP isOpener :=
      List.countP_append
    rw [List.singleton_append] at hall
    have := ih hrest
    omega

/-- A level that is open before a balanced text is closed by the bracket behind it, not earlier. -/
theorem closesAtEnd_append {inner : ℕ} (h : depthAfter depth text = some inner) :
    closesAtEnd (depth + 1) (text ++ rest) = closesAtEnd (inner + 1) rest := by
  -- the level before the text is not touched as long as `depthAfter` does not fall below zero
  induction text generalizing depth with
  | nil =>
    cases h
    rfl
  | cons c text ih =>
    obtain ⟨next, hstep, htext⟩ := Option.bind_eq_some_iff.mp h
    rw [← ih htext, List.cons_append, closesAtEnd]
    unfold depthStep at hstep
    split at hstep
    · cases hstep
      rw [if_pos ‹_›]
    · rw [if_neg ‹_›]
      split at hstep
      · split at hstep
        · cases hstep
        · -- the level in question is not the last one open, so this bracket closes another
          cases hstep
          rw [if_pos ‹_›, if_neg (by omega), Nat.sub_add_comm (by omega)]
      · cases hstep
        rw [if_neg ‹_›]

/-! ### One step of the cut -/

/-- The character is the delimiter and stands outside all brackets. -/
def CutsAt (delimiter : Char) (depth : ℕ) (c : Char) : Prop := Plain c ∧ c = delimiter ∧ depth = 0

instance (delimiter : Char) (depth : ℕ) (c : Char) : Decidable (CutsAt delimiter depth c) :=
  inferInstanceAs (Decidable ((¬ _ ∧ ¬ _) ∧ _))

/-- Puts a character in front of the pieces of the rest: it begins the first piece, or else it is a
delimiter and an empty piece stands before it. -/
def addCharacter (delimiter : Char) (depth : ℕ) (c : Char) (parts : List (List Char)) :
    List (List Char) :=
  if CutsAt delimiter depth c then [] :: parts else consFirst c parts

theorem addCharacter_of_cutsAt {c : Char} (h : CutsAt delimiter depth c) :
    addCharacter delimiter depth c parts = [] :: parts :=
  if_pos h

theorem addCharacter_of_not_cutsAt {c : Char} (h : ¬ CutsAt delimiter depth c) :
    addCharacter delimiter depth c parts = consFirst c parts :=
  if_neg h

/-- **One step of the cut.** The character either closes a level that is not open, or it is added to
the pieces of what follows. -/
theorem pieces_cons (c : Char) :
    pieces delimiter depth (c :: rest) =
      match depthStep depth c with
      | none => .error (.strayCloser c)
      | some inner => addCharacter delimiter depth c <$> pieces delimiter inner rest := by
  -- the cases of the cut are those of the step, except that the delimiter is told apart last
  have hsame {inner : ℕ} (hcut : ¬ CutsAt delimiter depth c) :
      addCharacter delimiter depth c <$> pieces delimiter inner rest =
        consFirst c <$> pieces delimiter inner rest :=
    congrArg (· <$> _) (funext fun _ => addCharacter_of_not_cutsAt hcut)
  rw [pieces, depthStep]
  split
  · next hopener => exact (hsame fun hcut => hcut.1.1 hopener).symm
  · next hopener =>
    split
    · next hcloser =>
      split
      · rfl
      · exact (hsame fun hcut => hcut.1.2 hcloser).symm
    · next hcloser =>
      split
      · next hcut =>
        obtain ⟨rfl, rfl⟩ := hcut
        exact congrArg (· <$> _)
          (funext fun _ => (addCharacter_of_cutsAt ⟨⟨hopener, hcloser⟩, rfl, rfl⟩).symm)
      · next hcut => exact (hsame fun hcuts => hcut hcuts.2).symm

/-- Of a character that can be counted only the second case is left. -/
theorem pieces_cons_of_depthStep {c : Char} {inner : ℕ} (h : depthStep depth c = some inner) :
    pieces delimiter depth (c :: rest) =
      addCharacter delimiter depth c <$> pieces delimiter inner rest := by
  rw [pieces_cons, h]

/-- A cut that succeeds is a cut of the rest, to which the character is added. -/
theorem pieces_cons_eq_ok_iff {c : Char} :
    pieces delimiter depth (c :: rest) = .ok parts ↔
      ∃ inner more, depthStep depth c = some inner ∧ pieces delimiter inner rest = .ok more ∧
        addCharacter delimiter depth c more = parts := by
  cases hstep : depthStep depth c with
  | none => simp [pieces_cons, hstep]
  | some inner => simp [pieces_cons_of_depthStep hstep, map_eq_ok_iff]

theorem consFirst_ne_nil (c : Char) (parts : List (List Char)) : consFirst c parts ≠ [] := by
  cases parts <;> exact List.cons_ne_nil _ _

/-- What is cut is cut into one piece at least. -/
theorem pieces_ne_nil (h : pieces delimiter depth text = .ok parts) : parts ≠ [] := by
  -- the end of a text gives the empty piece, and after that pieces are only added
  cases text with
  | nil =>
    rw [pieces] at h
    split at h
    · cases h
      exact List.cons_ne_nil _ _
    · cases h
  | cons c rest =>
    obtain ⟨inner, more, -, -, rfl⟩ := pieces_cons_eq_ok_iff.mp h
    unfold addCharacter
    split
    · exact List.cons_ne_nil _ _
    · exact consFirst_ne_nil _ _

/-- A text can be cut when its brackets close all levels that are open, and no level besides. -/
theorem exists_pieces_eq_ok_iff :
    (∃ parts, pieces delimiter depth text = .ok parts) ↔ depthAfter depth text = some 0 := by
  -- at the end of the text the cut asks for no open level, which is the `some 0` of the right side
  induction text generalizing depth with
  | nil => by_cases h : depth = 0 <;> simp [pieces, depthAfter, h]
  | cons c rest ih =>
    rw [depthAfter, Option.bind_eq_some_iff]
    refine ⟨?_, ?_⟩
    · rintro ⟨parts, h⟩
      obtain ⟨inner, more, hstep, hmore, -⟩ := pieces_cons_eq_ok_iff.mp h
      exact ⟨inner, hstep, ih.mp ⟨more, hmore⟩⟩
    · rintro ⟨inner, hstep, hrest⟩
      obtain ⟨more, hmore⟩ := ih.mpr hrest
      exact ⟨_, pieces_cons_eq_ok_iff.mpr ⟨inner, more, hstep, hmore, rfl⟩⟩

/-- Trimming the pieces has no part in whether there are any. -/
theorem exists_splitTop_eq_ok_iff :
    (∃ parts, splitTop delimiter text = .ok parts) ↔ Balanced text := by
  constructor
  -- trimmed pieces are pieces that have been cut, and pieces that have been cut can be trimmed
  · rintro ⟨parts, h⟩
    obtain ⟨raw, hraw, -⟩ := map_eq_ok_iff.mp h
    exact exists_pieces_eq_ok_iff.mp ⟨raw, hraw⟩
  · intro h
    obtain ⟨raw, hraw⟩ : ∃ raw, pieces delimiter 0 text = .ok raw := exists_pieces_eq_ok_iff.mpr h
    exact ⟨_, map_eq_ok_iff.mpr ⟨raw, hraw, rfl⟩⟩

/-! ### Pieces and what follows them -/

/-- Puts a text in front of the first piece. -/
def prependFirst (text : List Char) (parts : List (List Char)) : List (List Char) :=
  text.foldr consFirst parts

/-- A text in front of the first piece makes that piece longer, and no other. -/
theorem prependFirst_cons (text piece : List Char) (parts : List (List Char)) :
    prependFirst text (piece :: parts) = (text ++ piece) :: parts := by
  induction text with
  | nil => rfl
  | cons c text ih =>
    calc prependFirst (c :: text) (piece :: parts)
        = consFirst c (prependFirst text (piece :: parts)) := rfl
      _ = consFirst c ((text ++ piece) :: parts) := by rw [ih]
      _ = (c :: text ++ piece) :: parts := rfl

/-- Joins the last piece of a text to the first piece of what follows it. -/
def joinPieces : List (List Char) → List (List Char) → List (List Char)
  | [], more => more
  | [piece], more => prependFirst piece more
  | piece :: next :: parts, more => piece :: joinPieces (next :: parts) more

/-- The character is added to the first piece and the further text to the last one, so the order of
the two does not matter. -/
theorem joinPieces_addCharacter {c : Char} (hne : parts ≠ []) (more : List (List Char)) :
    joinPieces (addCharacter delimiter depth c parts) more =
      addCharacter delimiter depth c (joinPieces parts more) := by
  unfold addCharacter
  match parts, hne with
  | [piece], _ => split <;> rfl
  | piece :: next :: parts, _ => split <;> rfl

/-- In front of a further text the pieces stay as they are, only that the last one goes on. -/
theorem pieces_append (h : pieces delimiter depth text = .ok parts) (rest : List Char) :
    pieces delimiter depth (text ++ rest) = joinPieces parts <$> pieces delimiter 0 rest := by
  -- the induction follows the cut; the levels open behind the text are none, since it could be cut
  induction text generalizing depth parts with
  | nil =>
    rw [pieces] at h
    split at h
    · next hdepth =>
      cases h
      subst hdepth
      exact (id_map _).symm
    · cases h
  | cons c text ih =>
    obtain ⟨inner, more, hstep, hmore, rfl⟩ := pieces_cons_eq_ok_iff.mp h
    -- whatever follows, the character is added to the first piece, and the join is at the last
    rw [List.cons_append, pieces_cons_of_depthStep hstep, ih hmore, ← comp_map]
    exact congrArg (· <$> _)
      (funext fun tail => (joinPieces_addCharacter (pieces_ne_nil hmore) tail).symm)

/-- If what follows begins with a delimiter, the last piece is complete. -/
theorem joinPieces_nil_cons (hne : parts ≠ []) (more : List (List Char)) :
    joinPieces parts ([] :: more) = parts ++ more := by
  induction parts with
  | nil => exact absurd rfl hne
  | cons piece parts ih =>
    cases parts with
    -- the last piece goes on with the empty one, and so stays what it is
    | nil => exact (prependFirst_cons piece [] more).trans (by rw [List.append_nil]; rfl)
    | cons next parts => exact congrArg (piece :: ·) (ih (List.cons_ne_nil _ _))

/-- A delimiter behind a text ends its last piece. -/
theorem pieces_append_delimiter (hdelimiter : Plain delimiter)
    (h : pieces delimiter 0 text = .ok parts) (rest : List Char) :
    pieces delimiter 0 (text ++ delimiter :: rest) = (parts ++ ·) <$> pieces delimiter 0 rest := by
  have hcut : pieces delimiter 0 (delimiter :: rest) = ([] :: ·) <$> pieces delimiter 0 rest := by
    rw [pieces_cons_of_depthStep (depthStep_of_plain hdelimiter)]
    exact congrArg (· <$> _)
      (funext fun tail => addCharacter_of_cutsAt ⟨hdelimiter, rfl, rfl⟩)
  rw [pieces_append h, hcut, ← comp_map]
  exact congrArg (· <$> _) (funext fun tail => joinPieces_nil_cons (pieces_ne_nil h) tail)

/-- Within some level nothing is cut: a text that leaves a level open throughout goes into the first
piece as a whole. -/
theorem pieces_append_of_depthAfter {inner : ℕ} (h : depthAfter depth text = some inner)
    (rest : List Char) :
    pieces delimiter (depth + 1) (text ++ rest) =
      prependFirst text <$> pieces delimiter (inner + 1) rest := by
  induction text generalizing depth with
  | nil =>
    cases h
    exact (id_map _).symm
  | cons c text ih =>
    obtain ⟨next, hstep, htext⟩ := Option.bind_eq_some_iff.mp h
    -- with a level open the delimiter is a character like any other
    have hinside : ¬ CutsAt delimiter (depth + 1) c := fun hcut => by cases hcut.2.2
    rw [List.cons_append, pieces_cons_of_depthStep (depthStep_add 1 hstep), ih htext, ← comp_map]
    exact congrArg (· <$> _) (funext fun tail => addCharacter_of_not_cutsAt hinside)

/-- A character more in the pieces is a character more in the text. -/
theorem intercalate_addCharacter {c : Char} (hne : parts ≠ []) :
    [delimiter].intercalate (addCharacter delimiter depth c parts) =
      c :: [delimiter].intercalate parts := by
  match parts, hne with
  | piece :: more, _ =>
    unfold addCharacter
    split
    -- where the text is cut, the character that is missing from the pieces is the delimiter
    · next hcut =>
      rw [hcut.2.1, List.intercalate_cons_cons]
      rfl
    · cases more with
      | nil => simp [Text.consFirst]
      | cons next more => simp [Text.consFirst, List.intercalate_cons_cons]

/-- The text is its pieces with the delimiter between any two. -/
theorem intercalate_of_pieces (h : pieces delimiter depth text = .ok parts) :
    [delimiter].intercalate parts = text := by
  -- backwards along the cut every step puts one character in front
  induction text generalizing depth parts with
  | nil =>
    rw [pieces] at h
    split at h
    · cases h
      rfl
    · cases h
  | cons c rest ih =>
    obtain ⟨inner, more, -, hmore, rfl⟩ := pieces_cons_eq_ok_iff.mp h
    rw [← ih hmore]
    exact intercalate_addCharacter (pieces_ne_nil hmore)

/-- The last of several pieces stands behind a delimiter. -/
theorem intercalate_concat {front : List (List Char)} (hne : front ≠ []) (last : List Char) :
    [delimiter].intercalate (front ++ [last]) =
      [delimiter].intercalate front ++ delimiter :: last := by
  -- the joined text of two pieces and more is defined by its first piece, so the induction is on
  -- those before the last
  induction front with
  | nil => exact absurd rfl hne
  | cons piece front ih =>
    cases front with
    | nil => simp [List.intercalate_cons_cons]
    | cons next front =>
      have hrest := ih (List.cons_ne_nil _ _)
      rw [List.cons_append] at hrest
      simp only [List.cons_append, List.intercalate_cons_cons, hrest, List.append_assoc]

/-- A piece is shorter than all pieces with the delimiters behind them. -/
theorem length_lt_totalLength {part : List Char} (h : part ∈ parts) :
    part.length < totalLength parts := by
  -- the delimiter behind the piece makes the difference
  induction parts with
  | nil => cases h
  | cons piece parts ih =>
    rw [totalLength_cons]
    rcases List.mem_cons.mp h with rfl | h
    · omega
    · have := ih h
      omega

/-! ### Undivided texts -/

/-- The text is balanced, and the delimiter does not occur in it outside brackets. -/
def Undivided (delimiter : Char) (text : List Char) : Prop := pieces delimiter 0 text = .ok [text]

/-- Two undivided texts are undivided one behind the other. -/
theorem Undivided.append (htext : Undivided delimiter text) (hrest : Undivided delimiter rest) :
    Undivided delimiter (text ++ rest) := by
  rw [Undivided, pieces_append htext, hrest]
  exact congrArg Except.ok (prependFirst_cons text rest [])

/-- Without brackets and delimiters there is nothing to divide a text. -/
theorem undivided_of_plain (h : ∀ c ∈ text, Plain c ∧ c ≠ delimiter) :
    Undivided delimiter text := by
  -- the level stays zero throughout, and no character cuts there
  induction text with
  | nil => rfl
  | cons c text ih =>
    obtain ⟨hplain, hne⟩ := h c List.mem_cons_self
    have htext := ih fun other hother => h other (List.mem_cons_of_mem _ hother)
    rw [Undivided, pieces_cons_of_depthStep (depthStep_of_plain hplain), htext]
    exact congrArg Except.ok (addCharacter_of_not_cutsAt fun hcut => hne hcut.2.1)

/-- Whatever stands between two brackets, the delimiter included, does not divide the text. -/
theorem BracketPair.undivided {opener closer : Char} (hpair : BracketPair opener closer)
    (h : Balanced text) : Undivided delimiter (opener :: text ++ [closer]) := by
  -- a level is open from behind the opener up to the closer, and neither bracket can cut
  have hlast : pieces delimiter 1 [closer] = .ok [[closer]] := by
    rw [pieces_cons_of_depthStep hpair.depthStep_closer]
    exact congrArg Except.ok (addCharacter_of_not_cutsAt fun hcut => hcut.1.2 hpair.closes)
  have hinside : pieces delimiter 1 (text ++ [closer]) = .ok [text ++ [closer]] := by
    rw [pieces_append_of_depthAfter h, hlast]
    exact congrArg Except.ok (prependFirst_cons text [closer] [])
  rw [Undivided, List.cons_append, pieces_cons_of_depthStep (depthStep_of_opener hpair.opens),
    hinside]
  exact congrArg Except.ok (addCharacter_of_not_cutsAt fun hcut => hcut.1.1 hpair.opens)

end WireBindings
