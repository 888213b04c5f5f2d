import WireBindings.Proofs.Text.Unambiguous
import WireBindings.Text.Quoted

/-!
# Quoted text reads back

What stands for a character between quotation marks tells the character, whatever follows, because
it can be taken off again (`unescape_escaped`). It never begins with a quotation mark, so the mark
that ends a quoted text is the first one to stand where a character could; hence a quoted text is
told from any other, in front of any rest (`unambiguous_quote`).
-/

namespace WireBindings.Text

variable {rest : List Char}

/-! ### One character -/

/-- The number of a lower-case hexadecimal digit. -/
def hexValue (c : Char) : ℕ :=
  if c.toNat < 'a'.toNat then c.toNat - '0'.toNat else 10 + (c.toNat - 'a'.toNat)

theorem hexValue_hexDigit {n : ℕ} (h : n < 16) : hexValue (hexDigit n) = n := by
  revert n
  decide

/-- The character that comes first between quotation marks, and what follows it. There is none where
the text ends, at a quotation mark. -/
def unescape : List Char → Option (Char × List Char)
  | '\\' :: 'u' :: _ :: _ :: high :: low :: rest =>
    some (Char.ofNat (16 * hexValue high + hexValue low), rest)
  | '\\' :: 'n' :: rest => some ('\n', rest)
  | '\\' :: 'r' :: rest => some ('\r', rest)
  | '\\' :: 't' :: rest => some ('\t', rest)
  | '\\' :: 'b' :: rest => some ('\u0008', rest)
  | '\\' :: 'f' :: rest => some ('\u000c', rest)
  | '\\' :: c :: rest => some (c, rest)
  | c :: rest => if c = '"' then none else some (c, rest)
  | [] => none

/-- A character that stands for itself is read as it is. -/
theorem unescape_of_ne {c : Char} (hquote : c ≠ '"') (hescape : c ≠ '\\') :
    unescape (c :: rest) = some (c, rest) := by
  unfold unescape
  split <;> simp_all

/-- **What stands for a character tells the character.** -/
theorem unescape_escaped (c : Char) (rest : List Char) :
    unescape (escaped c ++ rest) = some (c, rest) := by
  unfold escaped
  -- each case is a line of `unescape`; only a control character without a letter has two digits
  split_ifs with hquote hescape hn hr ht hb hf hcontrol
  · rw [hquote]
    rfl
  · rw [hescape]
    rfl
  · rw [hn]
    rfl
  · rw [hr]
    rfl
  · rw [ht]
    rfl
  · rw [hb]
    rfl
  · rw [hf]
    rfl
  · have hhigh : hexValue (hexDigit (c.toNat / 16)) = c.toNat / 16 := hexValue_hexDigit (by omega)
    have hlow : hexValue (hexDigit (c.toNat % 16)) = c.toNat % 16 := hexValue_hexDigit (by omega)
    show some (Char.ofNat _, rest) = some (c, rest)
    rw [hhigh, hlow, Nat.div_add_mod, Char.ofNat_toNat]
  · exact unescape_of_ne hquote hescape

/-! ### Texts -/

/-- A quoted text begins with a mark, and behind its characters there is another one. -/
theorem toList_quote (text : String) (rest : List Char) :
    (quote text).toList ++ rest = '"' :: (text.toList.flatMap escaped ++ '"' :: rest) := by
  simp [quote]

/-- What stands for the first character of a text is taken off first. -/
theorem unescape_flatMap_cons (c : Char) (text rest : List Char) :
    unescape ((c :: text).flatMap escaped ++ rest) = some (c, text.flatMap escaped ++ rest) := by
  rw [List.flatMap_cons, List.append_assoc, unescape_escaped]

/-- Characters in front of a quotation mark are told from any others. -/
theorem eq_of_escaped {text text' rest rest' : List Char}
    (h : text.flatMap escaped ++ '"' :: rest = text'.flatMap escaped ++ '"' :: rest') :
    text = text' := by
  -- both texts are read character by character; at the end of either there is the quotation mark,
  -- where nothing can be read
  induction text generalizing text' with
  | nil =>
    cases text' with
    | nil => rfl
    | cons c' text' =>
      have hread := congrArg unescape h
      rw [unescape_flatMap_cons] at hread
      cases hread
  | cons c text ih =>
    cases text' with
    | nil =>
      have hread := congrArg unescape h
      rw [unescape_flatMap_cons] at hread
      cases hread
    | cons c' text' =>
      have hread := congrArg unescape h
      rw [unescape_flatMap_cons, unescape_flatMap_cons, Option.some.injEq, Prod.mk.injEq] at hread
      obtain ⟨rfl, hmore⟩ := hread
      rw [ih hmore]

/-- **A quoted text is told from any other**, whatever follows. -/
theorem unambiguous_quote (text : String) :
    Unambiguous quote (fun _ => True) Anything text := by
  intro other _ rest rest' _ _ htext
  -- behind the first quotation mark the characters decide
  rw [toList_quote, toList_quote] at htext
  exact String.toList_inj.mp (eq_of_escaped (List.tail_eq_of_cons_eq htext))

end WireBindings.Text
