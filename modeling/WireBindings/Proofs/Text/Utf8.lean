import Mathlib.Data.List.Basic
import WireBindings.Proofs.Outcome
import WireBindings.Text.Utf8

/-!
# Decoding UTF-8 undoes encoding

The octets that decode to a text are exactly those that it is encoded by (`decode_eq_ok_iff`). So
encoding loses nothing, and no text has a second encoding.

Between the decoder, which goes octet by octet, and the encoder, which goes character by character,
stands a table: `WellFormed` lists the sequences of several octets that are a character, with its
code point. On the one side, the decoder finishes the character that an octet begins exactly along
the rows of the table (`exists_start?_iff`); on the other, the rows are the characters that do not
fit one octet, as they are encoded (`WellFormed.exists_char`, `wellFormed_utf8EncodeChar`).
-/

namespace WireBindings.Text.Utf8

variable {octet : UInt8} {octets rest : List UInt8} {value : Nat} {c : Char}

/-- The octet continues a character. -/
def Continues (octet : UInt8) : Prop := 0x80 ≤ octet.toNat ∧ octet.toNat ≤ 0xBF

/-- The octets, several of them, are the character of that code point. -/
inductive WellFormed : List UInt8 → Nat → Prop
  | two {a b : UInt8} (hfirst : 0xC2 ≤ a.toNat ∧ a.toNat ≤ 0xDF) (hsecond : Continues b) :
      WellFormed [a, b] (a.toNat % 32 * 64 + b.toNat % 64)
  | three {a b c : UInt8} (hfirst : 0xE0 ≤ a.toNat ∧ a.toNat ≤ 0xEF) (hsecond : Continues b)
      (hthird : Continues c) (hnotOverlong : a.toNat = 0xE0 → 0xA0 ≤ b.toNat)
      (hnotSurrogate : a.toNat = 0xED → b.toNat ≤ 0x9F) :
      WellFormed [a, b, c] ((a.toNat % 16 * 64 + b.toNat % 64) * 64 + c.toNat % 64)
  | four {a b c d : UInt8} (hfirst : 0xF0 ≤ a.toNat ∧ a.toNat ≤ 0xF4) (hsecond : Continues b)
      (hthird : Continues c) (hfourth : Continues d)
      (hnotOverlong : a.toNat = 0xF0 → 0x90 ≤ b.toNat)
      (hrange : a.toNat = 0xF4 → b.toNat ≤ 0x8F) :
      WellFormed [a, b, c, d]
        (((a.toNat % 8 * 64 + b.toNat % 64) * 64 + c.toNat % 64) * 64 + d.toNat % 64)

/-- No row begins with a lower octet: those are single characters, continue one, or are the overlong
0xC0 and 0xC1. -/
theorem WellFormed.le_first (h : WellFormed (octet :: rest) value) : 0xC2 ≤ octet.toNat := by
  cases h with
  | two hfirst => omega
  | three hfirst => omega
  | four hfirst => omega

/-- The code point may be written in another way. -/
theorem WellFormed.of_eq {other : Nat} (h : WellFormed octets value) (heq : value = other) :
    WellFormed octets other := heq ▸ h

/-! ### The decoder and the table -/

/-- The octets finish the character under way, which has that code point. -/
def Completes : Unfinished → List UInt8 → Nat → Prop
  | _, [], _ => False
  | p, octet :: rest, value =>
    (p.lowest ≤ octet ∧ octet ≤ p.highest) ∧
      match p.afterNext with
      | 0 => rest = [] ∧ value = p.value * 64 + octet.toNat % 64
      | n + 1 =>
        Completes ⟨p.value * 64 + octet.toNat % 64, p.seen + 1, n, 0x80, 0xBF⟩ rest value

/-- The octet lies between the two bounds. -/
theorem inRange_iff {lowest highest : UInt8} :
    (lowest ≤ octet ∧ octet ≤ highest) ↔
      lowest.toNat ≤ octet.toNat ∧ octet.toNat ≤ highest.toNat := by
  rw [UInt8.le_iff_toNat_le, UInt8.le_iff_toNat_le]

/-- The last octet completes the character. -/
theorem completes_one {start seen : Nat} {lowest highest : UInt8} :
    Completes ⟨start, seen, 0, lowest, highest⟩ octets value ↔
      ∃ b, octets = [b] ∧ (lowest.toNat ≤ b.toNat ∧ b.toNat ≤ highest.toNat) ∧
        value = start * 64 + b.toNat % 64 := by
  cases octets with
  | nil => simp [Completes]
  | cons b rest =>
    simp only [Completes, inRange_iff, List.cons.injEq]
    grind

/-- Any other octet leaves a character that has begun, with the usual bounds on what comes next. -/
theorem completes_succ {start seen n : Nat} {lowest highest : UInt8} :
    Completes ⟨start, seen, n + 1, lowest, highest⟩ octets value ↔
      ∃ b rest, octets = b :: rest ∧ (lowest.toNat ≤ b.toNat ∧ b.toNat ≤ highest.toNat) ∧
        Completes ⟨start * 64 + b.toNat % 64, seen + 1, n, 0x80, 0xBF⟩ rest value := by
  cases octets with
  | nil => simp [Completes]
  | cons b rest =>
    simp only [Completes, inRange_iff, List.cons.injEq]
    grind

/-- Two octets that complete a character are one and then the last. -/
theorem completes_two {start seen : Nat} {lowest highest : UInt8} :
    Completes ⟨start, seen, 1, lowest, highest⟩ octets value ↔
      ∃ b c, octets = [b, c] ∧ (lowest.toNat ≤ b.toNat ∧ b.toNat ≤ highest.toNat) ∧
        Continues c ∧ value = (start * 64 + b.toNat % 64) * 64 + c.toNat % 64 := by
  rw [completes_succ]
  constructor
  · rintro ⟨b, rest, rfl, hb, hrest⟩
    obtain ⟨c, rfl, hc, hvalue⟩ := completes_one.mp hrest
    exact ⟨b, c, rfl, hb, hc, hvalue⟩
  · rintro ⟨b, c, rfl, hb, hc, hvalue⟩
    exact ⟨b, [c], rfl, hb, completes_one.mpr ⟨c, rfl, hc, hvalue⟩⟩

/-- Three of them are one and then two. -/
theorem completes_three {start seen : Nat} {lowest highest : UInt8} :
    Completes ⟨start, seen, 2, lowest, highest⟩ octets value ↔
      ∃ b c d, octets = [b, c, d] ∧ (lowest.toNat ≤ b.toNat ∧ b.toNat ≤ highest.toNat) ∧
        Continues c ∧ Continues d ∧
        value = ((start * 64 + b.toNat % 64) * 64 + c.toNat % 64) * 64 + d.toNat % 64 := by
  rw [completes_succ]
  constructor
  · rintro ⟨b, rest, rfl, hb, hrest⟩
    obtain ⟨c, d, rfl, hc, hd, hvalue⟩ := completes_two.mp hrest
    exact ⟨b, c, d, rfl, hb, hc, hd, hvalue⟩
  · rintro ⟨b, c, d, rfl, hb, hc, hd, hvalue⟩
    exact ⟨b, [c, d], rfl, hb, completes_two.mpr ⟨c, d, rfl, hc, hd, hvalue⟩⟩

/-- What the first octet says, with the octet as a number. -/
theorem start?_eq :
    Unfinished.start? octet =
      if octet.toNat < 0xC2 then none
      else if octet.toNat < 0xE0 then some ⟨octet.toNat % 32, 1, 0, 0x80, 0xBF⟩
      else if octet.toNat = 0xE0 then some ⟨octet.toNat % 16, 1, 1, 0xA0, 0xBF⟩
      else if octet.toNat = 0xED then some ⟨octet.toNat % 16, 1, 1, 0x80, 0x9F⟩
      else if octet.toNat < 0xF0 then some ⟨octet.toNat % 16, 1, 1, 0x80, 0xBF⟩
      else if octet.toNat = 0xF0 then some ⟨octet.toNat % 8, 1, 2, 0x90, 0xBF⟩
      else if octet.toNat < 0xF4 then some ⟨octet.toNat % 8, 1, 2, 0x80, 0xBF⟩
      else if octet.toNat = 0xF4 then some ⟨octet.toNat % 8, 1, 2, 0x80, 0x8F⟩
      else none := by
  simp only [Unfinished.start?, UInt8.lt_iff_toNat_lt, ← UInt8.toNat_inj, UInt8.reduceToNat]

/-- **The decoder follows the table.** -/
theorem exists_start?_iff :
    (∃ p, Unfinished.start? octet = some p ∧ Completes p rest value) ↔
      WellFormed (octet :: rest) value := by
  constructor
  · rintro ⟨p, hstart, hrest⟩
    rw [start?_eq] at hstart
    -- first octets in ascending order; the second one has bounds of its own behind 0xE0 and 0xF0,
    -- against overlong forms, behind 0xED against surrogates, and behind 0xF4 the code points end
    split_ifs at hstart with h1 h2 h3 h4 h5 h6 h7 h8
    · cases hstart
      obtain ⟨b, rfl, hb, rfl⟩ := completes_one.mp hrest
      exact .two ⟨by omega, by omega⟩ hb
    · cases hstart
      obtain ⟨b, c, rfl, hb, hc, rfl⟩ := completes_two.mp hrest
      simp only [UInt8.reduceToNat] at hb
      exact .three ⟨by omega, by omega⟩ ⟨by omega, hb.2⟩ hc (fun _ => hb.1) (by omega)
    · cases hstart
      obtain ⟨b, c, rfl, hb, hc, rfl⟩ := completes_two.mp hrest
      simp only [UInt8.reduceToNat] at hb
      exact .three ⟨by omega, by omega⟩ ⟨hb.1, by omega⟩ hc (by omega) (fun _ => hb.2)
    · cases hstart
      obtain ⟨b, c, rfl, hb, hc, rfl⟩ := completes_two.mp hrest
      exact .three ⟨by omega, by omega⟩ hb hc (by omega) (by omega)
    · cases hstart
      obtain ⟨b, c, d, rfl, hb, hc, hd, rfl⟩ := completes_three.mp hrest
      simp only [UInt8.reduceToNat] at hb
      exact .four ⟨by omega, by omega⟩ ⟨by omega, hb.2⟩ hc hd (fun _ => hb.1) (by omega)
    · cases hstart
      obtain ⟨b, c, d, rfl, hb, hc, hd, rfl⟩ := completes_three.mp hrest
      exact .four ⟨by omega, by omega⟩ hb hc hd (by omega) (by omega)
    · cases hstart
      obtain ⟨b, c, d, rfl, hb, hc, hd, rfl⟩ := completes_three.mp hrest
      simp only [UInt8.reduceToNat] at hb
      exact .four ⟨by omega, by omega⟩ ⟨hb.1, by omega⟩ hc hd (by omega) (fun _ => hb.2)
  -- backwards each row of the table has a range of first octets, and there the bounds agree
  · intro h
    rw [start?_eq]
    cases h with
    | two hfirst hsecond =>
      rw [if_neg (by omega), if_pos (by omega)]
      exact ⟨_, rfl, completes_one.mpr ⟨_, rfl, hsecond, rfl⟩⟩
    | @three a b c hfirst hsecond hthird hlong hsurrogate =>
      rw [if_neg (by omega), if_neg (by omega)]
      split_ifs with h1 h2 h3
      · exact ⟨_, rfl, completes_two.mpr ⟨b, c, rfl, ⟨hlong h1, hsecond.2⟩, hthird, rfl⟩⟩
      · exact ⟨_, rfl, completes_two.mpr ⟨b, c, rfl, ⟨hsecond.1, hsurrogate h2⟩, hthird, rfl⟩⟩
      · exact ⟨_, rfl, completes_two.mpr ⟨b, c, rfl, hsecond, hthird, rfl⟩⟩
      all_goals omega
    | @four a b c d hfirst hsecond hthird hfourth hlong hrange =>
      iterate 5 rw [if_neg (by omega)]
      split_ifs with h1 h2 h3
      · exact ⟨_, rfl, completes_three.mpr
          ⟨b, c, d, rfl, ⟨hlong h1, hsecond.2⟩, hthird, hfourth, rfl⟩⟩
      · exact ⟨_, rfl, completes_three.mpr ⟨b, c, d, rfl, hsecond, hthird, hfourth, rfl⟩⟩
      · exact ⟨_, rfl, completes_three.mpr
          ⟨b, c, d, rfl, ⟨hsecond.1, hrange h3⟩, hthird, hfourth, rfl⟩⟩
      · omega

/-! ### The encoder and the table -/

/-- The code point as it is encoded. -/
theorem utf8EncodeChar_eq (c : Char) :
    String.utf8EncodeChar c =
      if c.toNat ≤ 0x7F then [UInt8.ofNat c.toNat]
      else if c.toNat ≤ 0x7FF then
        [UInt8.ofNat (c.toNat / 64 % 32 + 192), UInt8.ofNat (c.toNat % 64 + 128)]
      else if c.toNat ≤ 0xFFFF then
        [UInt8.ofNat (c.toNat / 4096 % 16 + 224), UInt8.ofNat (c.toNat / 64 % 64 + 128),
          UInt8.ofNat (c.toNat % 64 + 128)]
      else
        [UInt8.ofNat (c.toNat / 262144 % 8 + 240), UInt8.ofNat (c.toNat / 4096 % 64 + 128),
          UInt8.ofNat (c.toNat / 64 % 64 + 128), UInt8.ofNat (c.toNat % 64 + 128)] := rfl

/-- A number has the octet of its lowest eight bits. -/
theorem ofNat_eq_iff : UInt8.ofNat value = octet ↔ value % 256 = octet.toNat := by
  rw [← UInt8.toNat_inj, UInt8.toNat_ofNat']

theorem exists_octet (h : value < 256) : ∃ octet, UInt8.ofNat value = octet ∧ octet.toNat = value :=
  ⟨UInt8.ofNat value, rfl, by rw [UInt8.toNat_ofNat']; omega⟩

/-- A number that is neither a surrogate nor too large is a code point. -/
theorem exists_char (h : value < 0xD800 ∨ 0xDFFF < value ∧ value < 0x110000) :
    ∃ c : Char, c.toNat = value :=
  ⟨Char.ofNatAux value h, rfl⟩

/-- A row of the table is a character, as it is encoded. -/
theorem WellFormed.exists_char (h : WellFormed octets value) :
    ∃ c : Char, c.toNat = value ∧ String.utf8EncodeChar c = octets := by
  -- the bounds of a row keep its value out of the surrogates and below the last code point
  cases h with
  | @two a b hfirst hsecond =>
    obtain ⟨hlow, hhigh⟩ := hsecond
    have hchar : ∃ c : Char, c.toNat = a.toNat % 32 * 64 + b.toNat % 64 :=
      Utf8.exists_char (by omega)
    obtain ⟨c, hc⟩ := hchar
    refine ⟨c, hc, ?_⟩
    rw [utf8EncodeChar_eq, hc, if_neg (by omega), if_pos (by omega)]
    simp only [List.cons.injEq, ofNat_eq_iff]
    exact ⟨by omega, by omega, trivial⟩
  | @three a b d hfirst hsecond hthird hlong hsurrogate =>
    -- the first octet 0xE0 is not followed by less than 0xA0, and 0xED not by more than 0x9F
    obtain ⟨hlow, hhigh⟩ := hsecond
    obtain ⟨hlow', hhigh'⟩ := hthird
    have hchar : ∃ c : Char, c.toNat = (a.toNat % 16 * 64 + b.toNat % 64) * 64 + d.toNat % 64 :=
      Utf8.exists_char (by omega)
    obtain ⟨c, hc⟩ := hchar
    refine ⟨c, hc, ?_⟩
    rw [utf8EncodeChar_eq, hc, if_neg (by omega), if_neg (by omega), if_pos (by omega)]
    simp only [List.cons.injEq, ofNat_eq_iff]
    exact ⟨by omega, by omega, by omega, trivial⟩
  | @four a b d e hfirst hsecond hthird hfourth hlong hrange =>
    -- here it is 0xF0 and 0x90, against overlong forms, and 0xF4 and 0x8F, where code points end
    obtain ⟨hlow, hhigh⟩ := hsecond
    obtain ⟨hlow', hhigh'⟩ := hthird
    obtain ⟨hlow'', hhigh''⟩ := hfourth
    have hchar : ∃ c : Char, c.toNat =
        ((a.toNat % 8 * 64 + b.toNat % 64) * 64 + d.toNat % 64) * 64 + e.toNat % 64 :=
      Utf8.exists_char (by omega)
    obtain ⟨c, hc⟩ := hchar
    refine ⟨c, hc, ?_⟩
    rw [utf8EncodeChar_eq, hc, if_neg (by omega), if_neg (by omega), if_neg (by omega)]
    simp only [List.cons.injEq, ofNat_eq_iff]
    exact ⟨by omega, by omega, by omega, by omega, trivial⟩

/-- A character that does not fit one octet is encoded by a row of the table. -/
theorem wellFormed_utf8EncodeChar (h : 0x7F < c.toNat) :
    WellFormed (String.utf8EncodeChar c) c.toNat := by
  have hvalid : c.toNat < 0xD800 ∨ 0xDFFF < c.toNat ∧ c.toNat < 0x110000 := c.valid
  rw [utf8EncodeChar_eq, if_neg (by omega)]
  -- the octets get names, so that only their numbers are computed with
  obtain ⟨last, hlast, hlastNat⟩ := exists_octet (show c.toNat % 64 + 128 < 256 by omega)
  obtain ⟨third, hthird, hthirdNat⟩ := exists_octet (show c.toNat / 64 % 64 + 128 < 256 by omega)
  rw [hlast, hthird]
  split_ifs with htwo hthree
  · obtain ⟨first, hfirst, hfirstNat⟩ :=
      exists_octet (show c.toNat / 64 % 32 + 192 < 256 by omega)
    rw [hfirst]
    exact (WellFormed.two ⟨by omega, by omega⟩ ⟨by omega, by omega⟩).of_eq (by omega)
  · obtain ⟨first, hfirst, hfirstNat⟩ :=
      exists_octet (show c.toNat / 4096 % 16 + 224 < 256 by omega)
    rw [hfirst]
    exact (WellFormed.three ⟨by omega, by omega⟩ ⟨by omega, by omega⟩ ⟨by omega, by omega⟩
      (by omega) (by omega)).of_eq (by omega)
  · obtain ⟨first, hfirst, hfirstNat⟩ :=
      exists_octet (show c.toNat / 262144 % 8 + 240 < 256 by omega)
    obtain ⟨second, hsecond, hsecondNat⟩ :=
      exists_octet (show c.toNat / 4096 % 64 + 128 < 256 by omega)
    rw [hfirst, hsecond]
    exact (WellFormed.four ⟨by omega, by omega⟩ ⟨by omega, by omega⟩ ⟨by omega, by omega⟩
      ⟨by omega, by omega⟩ (by omega) (by omega)).of_eq (by omega)

/-- An octet below 0x80 begins, and ends, the character with its number. -/
theorem utf8EncodeChar_eq_cons_iff_of_ascii (hascii : octet < 0x80) :
    String.utf8EncodeChar c = octet :: rest ↔ c = Char.ofNat octet.toNat ∧ rest = [] := by
  have hlt : octet.toNat < 0x80 := UInt8.lt_iff_toNat_lt.mp hascii
  constructor
  · intro h
    by_cases hone : c.toNat ≤ 0x7F
    · rw [utf8EncodeChar_eq, if_pos hone, List.cons.injEq, ofNat_eq_iff] at h
      obtain ⟨hc, rfl⟩ := h
      rw [← hc, Nat.mod_eq_of_lt (by omega), Char.ofNat_toNat]
      exact ⟨rfl, rfl⟩
    · -- the first octet of a longer character is not below 0x80
      have hrow := wellFormed_utf8EncodeChar (Nat.lt_of_not_le hone)
      rw [h] at hrow
      have hfirst := hrow.le_first
      omega
  · rintro ⟨rfl, rfl⟩
    have hvalid : octet.toNat.isValidChar := .inl (by omega)
    have hnat : (Char.ofNat octet.toNat).toNat = octet.toNat := by
      rw [Char.ofNat, dif_pos hvalid]
      rfl
    rw [utf8EncodeChar_eq, hnat, if_pos (by omega), UInt8.ofNat_toNat]

/-- Any other octet begins the characters whose row of the table it begins. -/
theorem utf8EncodeChar_eq_cons_iff (hlong : ¬ octet < 0x80) :
    String.utf8EncodeChar c = octet :: rest ↔ WellFormed (octet :: rest) c.toNat := by
  have hle : 0x80 ≤ octet.toNat := Nat.le_of_not_lt fun h => hlong (UInt8.lt_iff_toNat_lt.mpr h)
  constructor
  · intro h
    rw [← h]
    -- a character of one octet would be that octet, which is not below 0x80
    refine wellFormed_utf8EncodeChar (Nat.lt_of_not_le fun hone => ?_)
    rw [utf8EncodeChar_eq, if_pos hone, List.cons.injEq, ofNat_eq_iff] at h
    omega
  · intro h
    obtain ⟨other, hother, hencode⟩ := h.exists_char
    rwa [Char.toNat_inj.mp hother] at hencode

/-! ### Texts -/

/-- The octets that are to come, with the character under way, are these characters. -/
def StandsFor : Option Unfinished → List UInt8 → List Char → Prop
  | none, octets, chars => octets = chars.flatMap String.utf8EncodeChar
  | some p, octets, chars =>
    ∃ head value rest, Completes p head value ∧
      octets = head ++ rest.flatMap String.utf8EncodeChar ∧ chars = Char.ofNat value :: rest

variable {chars : List Char} {p : Unfinished}

/-- Without octets there are no characters. -/
theorem standsFor_nil_iff : StandsFor none [] chars ↔ chars = [] := by
  show [] = chars.flatMap String.utf8EncodeChar ↔ chars = []
  rw [eq_comm, List.flatMap_eq_nil_iff]
  constructor
  · intro h
    exact List.eq_nil_iff_forall_not_mem.mpr fun c hc => String.utf8EncodeChar_ne_nil (h c hc)
  · rintro rfl
    exact List.forall_mem_nil _

/-- Without octets no character is completed. -/
theorem not_standsFor_some_nil : ¬ StandsFor (some p) [] chars := by
  rintro ⟨head, value, rest, hhead, hoctets, -⟩
  obtain rfl : head = [] := (List.append_eq_nil_iff.mp hoctets.symm).1
  exact hhead

/-- The first octet is the first of the first character. -/
theorem standsFor_cons_iff :
    StandsFor none (octet :: rest) chars ↔
      ∃ c tail later, String.utf8EncodeChar c = octet :: tail ∧
        rest = tail ++ later.flatMap String.utf8EncodeChar ∧ chars = c :: later := by
  show octet :: rest = chars.flatMap String.utf8EncodeChar ↔ _
  -- no character is encoded by nothing, so the first octet belongs to the first one
  cases chars with
  | nil => simp
  | cons c later =>
    rw [List.flatMap_cons]
    constructor
    · intro h
      cases hencode : String.utf8EncodeChar c with
      | nil => exact absurd hencode String.utf8EncodeChar_ne_nil
      | cons first tail =>
        rw [hencode] at h
        obtain ⟨rfl, rfl⟩ := List.cons.inj h
        exact ⟨c, tail, later, hencode, rfl, rfl⟩
    · rintro ⟨c', tail, later', hencode, rfl, hchars⟩
      obtain ⟨rfl, rfl⟩ := List.cons.inj hchars
      rw [hencode]
      rfl

/-- A low octet is a character by itself. -/
theorem standsFor_ascii_iff (hascii : octet < 0x80) :
    StandsFor none (octet :: rest) chars ↔
      ∃ later, StandsFor none rest later ∧ Char.ofNat octet.toNat :: later = chars := by
  rw [standsFor_cons_iff]
  constructor
  · rintro ⟨c, tail, later, hencode, rfl, rfl⟩
    obtain ⟨rfl, rfl⟩ := (utf8EncodeChar_eq_cons_iff_of_ascii hascii).mp hencode
    exact ⟨later, rfl, rfl⟩
  · rintro ⟨later, hlater, rfl⟩
    exact ⟨_, [], later, (utf8EncodeChar_eq_cons_iff_of_ascii hascii).mpr ⟨rfl, rfl⟩, hlater, rfl⟩

/-- No character begins with an octet that cannot begin one. -/
theorem not_standsFor_of_start?_eq_none (hlong : ¬ octet < 0x80)
    (hstart : Unfinished.start? octet = none) : ¬ StandsFor none (octet :: rest) chars := by
  intro h
  obtain ⟨c, tail, later, hencode, -, -⟩ := standsFor_cons_iff.mp h
  obtain ⟨p, hp, -⟩ := exists_start?_iff.mpr ((utf8EncodeChar_eq_cons_iff hlong).mp hencode)
  rw [hstart] at hp
  cases hp

/-- An octet that can begin a character begins the first one. -/
theorem standsFor_start_iff (hlong : ¬ octet < 0x80) (hstart : Unfinished.start? octet = some p) :
    StandsFor none (octet :: rest) chars ↔ StandsFor (some p) rest chars := by
  rw [standsFor_cons_iff]
  constructor
  · rintro ⟨c, tail, later, hencode, rfl, rfl⟩
    obtain ⟨found, hfound, hcompletes⟩ :=
      exists_start?_iff.mpr ((utf8EncodeChar_eq_cons_iff hlong).mp hencode)
    obtain rfl := Option.some.inj (hstart.symm.trans hfound)
    exact ⟨tail, c.toNat, later, hcompletes, rfl, by rw [Char.ofNat_toNat]⟩
  -- the octet and what completes it are a row of the table, which is a character
  · rintro ⟨tail, value, later, hcompletes, rfl, rfl⟩
    have hrow : WellFormed (octet :: tail) value := exists_start?_iff.mp ⟨p, hstart, hcompletes⟩
    obtain ⟨c, rfl, hencode⟩ := hrow.exists_char
    exact ⟨c, tail, later, hencode, rfl, by rw [Char.ofNat_toNat]⟩

/-- The last octet of the character under way completes it. -/
theorem standsFor_last_iff (hrange : p.lowest ≤ octet ∧ octet ≤ p.highest)
    (hlast : p.afterNext = 0) :
    StandsFor (some p) (octet :: rest) chars ↔
      ∃ later, StandsFor none rest later ∧
        Char.ofNat (p.value * 64 + octet.toNat % 64) :: later = chars := by
  constructor
  · rintro ⟨head, value, later, hcompletes, hoctets, rfl⟩
    cases head with
    | nil => cases hcompletes
    | cons first tail =>
      obtain ⟨rfl, rfl⟩ := List.cons.inj hoctets
      rw [Completes, hlast] at hcompletes
      obtain ⟨-, rfl, rfl⟩ := hcompletes
      exact ⟨later, rfl, rfl⟩
  · rintro ⟨later, hlater, rfl⟩
    refine ⟨[octet], _, later, ?_, congrArg (octet :: ·) hlater, rfl⟩
    rw [Completes, hlast]
    exact ⟨hrange, rfl, rfl⟩

/-- Any earlier one leaves it under way. -/
theorem standsFor_more_iff {n : Nat} (hrange : p.lowest ≤ octet ∧ octet ≤ p.highest)
    (hmore : p.afterNext = n + 1) :
    StandsFor (some p) (octet :: rest) chars ↔
      StandsFor (some ⟨p.value * 64 + octet.toNat % 64, p.seen + 1, n, 0x80, 0xBF⟩) rest chars := by
  constructor
  · rintro ⟨head, value, later, hcompletes, hoctets, rfl⟩
    cases head with
    | nil => cases hcompletes
    | cons first tail =>
      obtain ⟨rfl, rfl⟩ := List.cons.inj hoctets
      rw [Completes, hmore] at hcompletes
      exact ⟨tail, value, later, hcompletes.2, rfl, rfl⟩
  · rintro ⟨head, value, later, hcompletes, rfl, rfl⟩
    refine ⟨octet :: head, value, later, ?_, rfl, rfl⟩
    rw [Completes, hmore]
    exact ⟨hrange, hcompletes⟩

/-- No character has an octet outside the bounds in this place. -/
theorem not_standsFor_of_out_of_range (hrange : ¬ (p.lowest ≤ octet ∧ octet ≤ p.highest)) :
    ¬ StandsFor (some p) (octet :: rest) chars := by
  rintro ⟨head, value, later, hcompletes, hoctets, -⟩
  cases head with
  | nil => exact hcompletes
  | cons first tail =>
    obtain ⟨rfl, -⟩ := List.cons.inj hoctets
    exact hrange hcompletes.1

/-- **Decoding, from any state**: characters come out exactly if the octets spell them. -/
theorem decodeFrom_eq_ok_iff {valid : Nat} {state : Option Unfinished} :
    decodeFrom valid state octets = .ok chars ↔ StandsFor state octets chars := by
  -- the cases are those of the decoder, and each has its lemma above
  fun_induction decodeFrom valid state octets generalizing chars
  case case1 => rw [standsFor_nil_iff, Except.ok.injEq, eq_comm]
  case case2 => exact iff_of_false nofun not_standsFor_some_nil
  case case3 valid octet rest hascii ih =>
    rw [map_eq_ok_iff, standsFor_ascii_iff hascii]
    exact exists_congr fun later => and_congr_left fun _ => ih
  case case4 valid octet rest hlong hstart =>
    exact iff_of_false nofun (not_standsFor_of_start?_eq_none hlong hstart)
  case case5 valid octet rest hlong p hstart ih => rw [ih, standsFor_start_iff hlong hstart]
  case case6 valid p octet rest hrange value hlast ih =>
    rw [map_eq_ok_iff, standsFor_last_iff hrange hlast]
    exact exists_congr fun later => and_congr_left fun _ => ih
  case case7 valid p octet rest hrange value n hmore ih => rw [ih, standsFor_more_iff hrange hmore]
  case case8 valid p octet rest hrange =>
    exact iff_of_false nofun (not_standsFor_of_out_of_range hrange)

/-- **Octets decode to a text exactly if it is encoded by them.** -/
theorem decode_eq_ok_iff {text : String} : decode octets = .ok text ↔ octets = encode text := by
  rw [decode, map_eq_ok_iff]
  constructor
  · rintro ⟨chars, hchars, rfl⟩
    rw [encode, String.toList_ofList]
    exact decodeFrom_eq_ok_iff.mp hchars
  · intro h
    exact ⟨text.toList, decodeFrom_eq_ok_iff.mpr h, String.ofList_toList⟩

/-- **No two texts have the same octets**, since what they decode to is both. -/
theorem encode_injective : Function.Injective encode := by
  intro text other h
  -- the octets of the other text decode to the first, and they decode to the other
  have hdecode := decode_eq_ok_iff.mpr h
  rw [decode_eq_ok_iff.mpr rfl] at hdecode
  exact Except.ok.inj hdecode

end WireBindings.Text.Utf8
