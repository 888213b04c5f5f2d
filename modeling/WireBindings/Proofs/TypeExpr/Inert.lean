import WireBindings.Proofs.Text.Trim
import WireBindings.Proofs.TypeExpr.Nesting
import WireBindings.TypeExpr.Spelling

/-!
# Characters without a part in the form

The outermost form of a text depends on its brackets and delimiters alone. Every other character is
`Inert`, among them the blanks and the characters of names and numbers. No character of a name is
blank, so trimming leaves names as they are.
-/

namespace WireBindings

open Text (isBlank)

variable {text : List Char}

/-- The character is neither a bracket nor a delimiter. -/
def Inert (c : Char) : Prop := Plain c ∧ c ≠ ',' ∧ c ≠ ';'

/-- No delimiter is inert. -/
theorem Inert.plain_and_ne {c delimiter : Char} (h : Inert c)
    (hdelimiter : delimiter = ',' ∨ delimiter = ';') : Plain c ∧ c ≠ delimiter := by
  rcases hdelimiter with rfl | rfl
  · exact ⟨h.1, h.2.1⟩
  · exact ⟨h.1, h.2.2⟩

/-- A class of characters that misses the brackets and the delimiters is inert. -/
theorem inert_of_class {p : Char → Bool} {c : Char} (hc : p c)
    (hmisses : ['(', '<', '[', ')', '>', ']', ',', ';'].any p = false) : Inert c := by
  -- a special character is not of the class
  have hne : ∀ special ∈ ['(', '<', '[', ')', '>', ']', ',', ';'], c ≠ special := by
    rintro special hspecial rfl
    exact List.any_eq_false.mp hmisses _ hspecial hc
  simp only [List.forall_mem_cons, List.not_mem_nil] at hne
  simp [Inert, Plain, isOpener, isCloser, hne]

theorem inert_of_isBlank {c : Char} (h : isBlank c) : Inert c :=
  inert_of_class h rfl

theorem inert_of_isWordChar {c : Char} (h : isWordChar c) : Inert c :=
  inert_of_class h rfl

/-- The characters of names by their numbers: capital letters, small letters, digits and the
underscore. -/
theorem isWordChar_iff {c : Char} :
    isWordChar c ↔ ((65 ≤ c.toNat ∧ c.toNat ≤ 90 ∨ 97 ≤ c.toNat ∧ c.toNat ≤ 122) ∨
      48 ≤ c.toNat ∧ c.toNat ≤ 57) ∨ c = '_' := by
  show (((decide (c.val ≥ 65 ∧ c.val ≤ 90) || (decide (c.val ≥ 97) && decide (c.val ≤ 122))) ||
    (decide (c.val ≥ 48) && decide (c.val ≤ 57))) || c == '_') = true ↔ _
  simp only [Bool.or_eq_true, Bool.and_eq_true, decide_eq_true_eq, beq_iff_eq, ge_iff_le,
    UInt32.le_iff_toNat_le]
  rfl

/-- No character of a name is blank. -/
theorem not_isBlank_of_isWordChar {c : Char} (h : isWordChar c) : ¬ isBlank c := by
  simp only [isBlank, Text.inRanges, Text.blankRanges, List.any_cons, List.any_nil, Bool.or_eq_true,
    Bool.and_eq_true, decide_eq_true_eq, Bool.false_eq_true, or_false]
  rcases isWordChar_iff.mp h with h | rfl
  · -- the ranges of blanks lie below, between and above those of the letters and digits
    omega
  · decide

/-- Trimming stops at brackets. -/
theorem BracketPair.trim_eq {opener closer : Char} (hpair : BracketPair opener closer) :
    Text.trim (opener :: text ++ [closer]) = opener :: text ++ [closer] :=
  Text.trim_bracketed (fun hblank => (inert_of_isBlank hblank).1.1 hpair.opens)
    fun hblank => (inert_of_isBlank hblank).1.2 hpair.closes

theorem isWordChar_of_isWordStart {c : Char} (h : isWordStart c) : isWordChar c := by
  simp only [isWordStart, isWordChar, Char.isAlphanum, Bool.or_eq_true] at h ⊢
  exact h.imp_left .inl

theorem isWordChar_of_isDigit {c : Char} (h : c.isDigit) : isWordChar c := by
  simp only [isWordChar, Char.isAlphanum, h, Bool.or_true, Bool.true_or]

/-- Identifiers are made of the characters of names. -/
theorem Identifier.isWordChar (h : Identifier text) : ∀ c ∈ text, isWordChar c := by
  obtain ⟨first, rest, rfl, hfirst, hrest⟩ := h
  intro c hc
  rcases List.mem_cons.mp hc with rfl | hc
  · exact isWordChar_of_isWordStart hfirst
  · exact hrest c hc

/-- Blanks may follow a name, and then there is still no bracket and no delimiter. -/
theorem Identifier.inert_append {gap : List Char} (h : Identifier text) (hgap : Gap gap) :
    ∀ c ∈ text ++ gap, Inert c := fun c hc =>
  (List.mem_append.mp hc).elim (fun hc => inert_of_isWordChar (h.isWordChar c hc))
    fun hc => inert_of_isBlank (hgap c hc)

/-- Nothing but the blanks that follow a name is trimmed. -/
theorem Identifier.trim_append {gap : List Char} (h : Identifier text) (hgap : Gap gap) :
    Text.trim (text ++ gap) = text := by
  rw [← List.nil_append text, Text.trim_append_of_blank (List.forall_mem_nil _) hgap]
  exact Text.trim_eq_self_of_forall fun c hc => not_isBlank_of_isWordChar (h.isWordChar c hc)

/-- So are the names of numbers. -/
theorem NumericName.isWordChar (h : NumericName text) : ∀ c ∈ text, isWordChar c := by
  obtain ⟨first, digits, rfl, hfirst, -, hdigits⟩ := h
  intro c hc
  rcases List.mem_cons.mp hc with rfl | hc
  · simp only [List.mem_cons, List.not_mem_nil, or_false] at hfirst
    -- the letters u, i and f
    rcases hfirst with rfl | rfl | rfl <;> rfl
  · exact isWordChar_of_isDigit (hdigits c hc)

end WireBindings
