import WireBindings.Proofs.TypeExpr.Inert

/-!
# Brackets that match by kind

A bracket is closed by one of its own kind. `BracketsMatch` checks this with the list of the closing
brackets that are still awaited, innermost first, where the levels of nesting would only count how
many these are. Every spelling of a type passes (`bracketsMatch_of_spells`).
-/

namespace WireBindings

variable {text rest : List Char} {type : TypeExpr}

/-- The bracket that closes what the character opens. -/
def closerOf? (c : Char) : Option Char :=
  if c = '(' then some ')' else if c = '<' then some '>' else if c = '[' then some ']' else none

/-- Whether each bracket of the text is closed by its own kind, when the brackets `awaited` are to
be closed by the text as well. -/
def bracketsMatchFrom : List Char → List Char → Bool
  | awaited, [] => awaited.isEmpty
  | awaited, c :: rest =>
    match closerOf? c with
    | some closer => bracketsMatchFrom (closer :: awaited) rest
    | none =>
      if isCloser c then awaited.head? == some c && bracketsMatchFrom awaited.tail rest
      else bracketsMatchFrom awaited rest

/-- Each bracket of the text is closed by its own kind. -/
def BracketsMatch (text : List Char) : Prop := bracketsMatchFrom [] text

instance (text : List Char) : Decidable (BracketsMatch text) :=
  inferInstanceAs (Decidable (_ = true))

/-- A character that is no bracket opens none. -/
theorem closerOf?_of_plain {c : Char} (h : Plain c) : closerOf? c = none := by
  have hopener : isOpener c = false := by simpa using h.1
  simp only [isOpener, Bool.or_eq_false_iff, beq_eq_false_iff_ne] at hopener
  simp [closerOf?, hopener]

/-- A text that closes what is awaited leaves to what follows it just what is awaited besides. -/
theorem bracketsMatchFrom_append {awaited : List Char} (h : bracketsMatchFrom awaited text)
    (more : List Char) (rest : List Char) :
    bracketsMatchFrom (awaited ++ more) (text ++ rest) = bracketsMatchFrom more rest := by
  -- what is awaited changes on the way, so the induction is for any such list
  induction text generalizing awaited with
  | nil =>
    rw [List.isEmpty_iff.mp h]
    rfl
  | cons c text ih =>
    rw [bracketsMatchFrom] at h
    rw [List.cons_append, bracketsMatchFrom]
    split at h
    · exact ih h
    -- an opener adds its closer in front, a closer has to be the first one awaited
    · split at h
      · next hcloser =>
        rw [Bool.and_eq_true, beq_iff_eq] at h
        -- the closer comes off the front, where `more` does not reach
        obtain ⟨outer, rfl⟩ := List.head?_eq_some_iff.mp h.1
        simp only [List.cons_append, List.head?_cons, List.tail_cons, BEq.rfl, Bool.true_and,
          hcloser, if_true]
        exact ih h.2
      · next hcloser =>
        rw [if_neg hcloser]
        exact ih h

/-- Two texts whose brackets match do so one behind the other. -/
theorem BracketsMatch.append (htext : BracketsMatch text) (hrest : BracketsMatch rest) :
    BracketsMatch (text ++ rest) := by
  rw [BracketsMatch, ← List.nil_append ([] : List Char), bracketsMatchFrom_append htext]
  exact hrest

/-- Brackets of one kind may be put around a text whose brackets match. -/
theorem BracketsMatch.bracketed {closer : Char} (opener : Char) (h : BracketsMatch text)
    (hkind : closerOf? opener = some closer)
    (hcloser : closerOf? closer = none ∧ isCloser closer) :
    BracketsMatch (opener :: text ++ [closer]) := by
  -- the closer is awaited from behind the opener on, and nothing else is at the end of the text
  have hlast : bracketsMatchFrom [closer] [closer] := by
    simp [bracketsMatchFrom, hcloser.1, hcloser.2]
  have hinside : bracketsMatchFrom [closer] (text ++ [closer]) :=
    (bracketsMatchFrom_append h [closer] [closer]).trans hlast
  rw [BracketsMatch, List.cons_append, bracketsMatchFrom]
  simpa only [hkind] using hinside

/-- Without brackets there is nothing to match. -/
theorem bracketsMatch_of_inert (h : ∀ c ∈ text, Inert c) : BracketsMatch text := by
  induction text with
  | nil => rfl
  | cons c text ih =>
    have hplain := (h c List.mem_cons_self).1
    rw [BracketsMatch, bracketsMatchFrom]
    simp only [closerOf?_of_plain hplain, if_neg hplain.2]
    exact ih fun other hother => h other (List.mem_cons_of_mem _ hother)

theorem bracketsMatch_of_gap (h : Gap text) : BracketsMatch text :=
  bracketsMatch_of_inert fun c hc => inert_of_isBlank (h c hc)

theorem bracketsMatch_of_word (h : ∀ c ∈ text, isWordChar c) : BracketsMatch text :=
  bracketsMatch_of_inert fun c hc => inert_of_isWordChar (h c hc)

/-- A delimiter between two texts is no bracket. -/
theorem BracketsMatch.delimited (delimiter : Char) (htext : BracketsMatch text)
    (hdelimiter : BracketsMatch [delimiter]) (hrest : BracketsMatch rest) :
    BracketsMatch (text ++ delimiter :: rest) :=
  htext.append (hdelimiter.append hrest)

mutual

/-- **In a spelling of a type every bracket is closed by its own kind.** The cases are the rules of
the grammar. -/
theorem bracketsMatch_of_spells : ∀ {text : List Char} {type : TypeExpr},
    Spells text type → BracketsMatch text
  | _, _, .unit => rfl
  | _, _, .string => rfl
  | _, _, .numeric hname => bracketsMatch_of_word hname.isWordChar
  | _, _, .named hname _ _ => bracketsMatch_of_word hname.isWordChar
  | _, _, @Spells.generic head _ _ _ hblank hspelled _ => by
    have hname : BracketsMatch head.name.toList := by cases head <;> decide
    rw [List.append_assoc]
    exact (hname.append (bracketsMatch_of_gap hblank)).append
      ((bracketsMatch_of_spellsAll hspelled).bracketed '<' rfl ⟨rfl, rfl⟩)
  | _, _, .tuple hspelled => (bracketsMatch_of_spellsAll hspelled).bracketed '(' rfl ⟨rfl, rfl⟩
  | _, _, .tupleWithComma hspelled hblank => by
    have hinner := (bracketsMatch_of_spellsAll hspelled).delimited ',' rfl
      (bracketsMatch_of_gap hblank)
    simpa only [List.cons_append, List.append_assoc] using hinner.bracketed '(' rfl ⟨rfl, rfl⟩
  | _, _, .array hspelled hbefore hnumber _ hafter => by
    have hlength := ((bracketsMatch_of_gap hbefore).append
      (bracketsMatch_of_word fun c hc => isWordChar_of_isDigit (hnumber.2 c hc))).append
      (bracketsMatch_of_gap hafter)
    have hinner := (bracketsMatch_of_spells hspelled).delimited ';' rfl hlength
    simpa only [List.cons_append, List.append_assoc] using hinner.bracketed '[' rfl ⟨rfl, rfl⟩
  | _, _, .padded hbefore hspelled hafter =>
    ((bracketsMatch_of_gap hbefore).append (bracketsMatch_of_spells hspelled)).append
      (bracketsMatch_of_gap hafter)

/-- So it is in the spellings of several types with commas between them. -/
theorem bracketsMatch_of_spellsAll : ∀ {text : List Char} {types : List TypeExpr},
    SpellsAll text types → BracketsMatch text
  | _, _, .last hspelled => bracketsMatch_of_spells hspelled
  | _, _, .more hfirst hothers =>
    (bracketsMatch_of_spells hfirst).delimited ',' rfl (bracketsMatch_of_spellsAll hothers)

end

end WireBindings
