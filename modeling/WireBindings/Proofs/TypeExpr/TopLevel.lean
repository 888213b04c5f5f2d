import Mathlib.Algebra.Order.Ring.Int
import WireBindings.Proofs.TypeExpr.Grammar

/-!
# Cutting at the top level

What `splitTop` does to a text, said by counting. Each opening bracket of a text counts one up and
each closing bracket one down (`bracketCount`). A text can be cut exactly if no front part of it
counts below zero and the whole counts zero (`CountsToZero`). The pieces are then the stretches of
the text between the delimiters in front of which the count is zero (`cuts`, `stretches`), with the
blanks at their ends taken off, and each of them counts to zero again and holds no such delimiter.

The other way round, whatever texts of this kind are joined by the delimiter, with blanks around it
or not, they are the pieces of what comes out (`splitTop_inverts_joining`).

The reader counts levels as natural numbers and stops where the count would go below zero. That this
is the count of the front part so far is settled once, for a text that follows on some open levels
(`depthAfter_eq_some_iff`); the places of the cuts are followed through the same recursion
(`cuts_cons`).
-/

namespace WireBindings

open Text (trim consFirst)

variable {delimiter : Char} {depth inner : ℕ} {text : List Char} {parts padded : List (List Char)}

/-! ### The count of brackets -/

/-- What a character adds to the count of brackets. -/
def bracketValue (c : Char) : ℤ :=
  if c ∈ ['(', '<', '['] then 1 else if c ∈ [')', '>', ']'] then -1 else 0

/-- The opening brackets of the text less its closing brackets. -/
def bracketCount (text : List Char) : ℤ := (text.map bracketValue).sum

@[simp] theorem bracketCount_nil : bracketCount [] = 0 := rfl

@[simp] theorem bracketCount_cons (c : Char) (text : List Char) :
    bracketCount (c :: text) = bracketValue c + bracketCount text := by
  simp [bracketCount]

@[simp] theorem bracketCount_append (text rest : List Char) :
    bracketCount (text ++ rest) = bracketCount text + bracketCount rest := by
  simp [bracketCount]

/-- No front part of the text counts below zero, and the whole counts zero. -/
structure CountsToZero (text : List Char) : Prop where
  front_nonneg : ∀ front, front <+: text → 0 ≤ bracketCount front
  whole : bracketCount text = 0

theorem isOpener_iff {c : Char} : isOpener c ↔ c ∈ ['(', '<', '['] := by
  simp [isOpener, or_assoc]

theorem isCloser_iff {c : Char} : isCloser c ↔ c ∈ [')', '>', ']'] := by
  simp [isCloser, or_assoc]

/-- The levels open behind a character are those open before it and what it adds; there is no such
number of levels just where a closing bracket finds none open. -/
theorem depthStep_eq_some_iff {c : Char} :
    depthStep depth c = some inner ↔ (inner : ℤ) = depth + bracketValue c := by
  unfold depthStep bracketValue
  simp only [isOpener_iff, isCloser_iff]
  -- an opener adds one, a closer takes one away if there is one, and nothing else counts
  split
  · simp only [Option.some.injEq]
    omega
  · split
    · split
      · next hdepth =>
        simp only [reduceCtorEq, false_iff]
        omega
      · simp only [Option.some.injEq]
        omega
    · simp only [Option.some.injEq]
      omega

/-- The levels open behind a text are the count, if no front part closes a level that is not open.
-/
theorem depthAfter_eq_some_iff :
    depthAfter depth text = some inner ↔
      (∀ front, front <+: text → 0 ≤ depth + bracketCount front) ∧
        (inner : ℤ) = depth + bracketCount text := by
  -- a front part is empty or begins with the first character, so the count of the rest decides
  induction text generalizing depth with
  | nil =>
    simp only [depthAfter, Option.some.injEq, List.prefix_nil, forall_eq, bracketCount_nil]
    omega
  | cons c text ih =>
    simp only [depthAfter, Option.bind_eq_some_iff, depthStep_eq_some_iff, ih]
    refine ⟨?_, ?_⟩
    · rintro ⟨next, hstep, hfront, hwhole⟩
      refine ⟨fun front hbegins => ?_, ?_⟩
      · rcases List.prefix_cons_iff.mp hbegins with rfl | ⟨front, rfl, hbehind⟩
        · simp
        · have := hfront front hbehind
          rw [bracketCount_cons]
          omega
      · rw [bracketCount_cons]
        omega
    · rintro ⟨hfront, hwhole⟩
      -- the first character by itself is a front part, so there is a number of levels behind it
      have hfirst := hfront [c] ⟨text, rfl⟩
      rw [bracketCount_cons, bracketCount_nil] at hfirst
      refine ⟨(depth + bracketValue c).toNat, by omega, fun front hbegins => ?_, ?_⟩
      · have := hfront (c :: front) (List.cons_prefix_cons.mpr ⟨rfl, hbegins⟩)
        rw [bracketCount_cons] at this
        omega
      · rw [bracketCount_cons] at hwhole
        omega

/-- **Balanced texts are those that count to zero.** -/
theorem balanced_iff : Balanced text ↔ CountsToZero text := by
  unfold Balanced
  rw [depthAfter_eq_some_iff]
  simp only [Int.natCast_zero, zero_add]
  exact ⟨fun h => ⟨h.1, h.2.symm⟩, fun h => ⟨h.front_nonneg, h.whole.symm⟩⟩

/-- Without brackets there is nothing to count. -/
theorem bracketCount_of_plain (h : ∀ c ∈ text, Plain c) : bracketCount text = 0 := by
  induction text with
  | nil => rfl
  | cons c text ih =>
    rw [List.forall_mem_cons] at h
    have hvalue : bracketValue c = 0 := by
      unfold bracketValue
      rw [if_neg (mt isOpener_iff.mpr h.1.1), if_neg (mt isCloser_iff.mpr h.1.2)]
    rw [bracketCount_cons, hvalue, ih h.2, zero_add]

/-- A text without brackets counts to zero. -/
theorem countsToZero_of_plain (h : ∀ c ∈ text, Plain c) : CountsToZero text where
  front_nonneg _ hbegins :=
    (bracketCount_of_plain fun c hc => h c (hbegins.subset hc)).ge
  whole := bracketCount_of_plain h

/-- Characters that are no brackets can be taken off at both ends. -/
theorem CountsToZero.of_append {before after : List Char} (hbefore : ∀ c ∈ before, Plain c)
    (hafter : ∀ c ∈ after, Plain c) (h : CountsToZero (before ++ text ++ after)) :
    CountsToZero text := by
  have hzero := bracketCount_of_plain hbefore
  refine ⟨?_, ?_⟩
  · intro front hbegins
    have hlonger : before ++ front <+: before ++ text ++ after :=
      ((List.prefix_append_right_inj before).mpr hbegins).trans (List.prefix_append _ _)
    have := h.front_nonneg _ hlonger
    rwa [bracketCount_append, hzero, zero_add] at this
  · have := h.whole
    rwa [bracketCount_append, bracketCount_append, hzero, bracketCount_of_plain hafter, zero_add,
      add_zero] at this

/-! ### The places where a text is cut -/

/-- The places of the delimiters in front of which the count is zero, in ascending order, when
`depth` levels are open before the text. -/
def cuts (delimiter : Char) (depth : ℕ) (text : List Char) : List ℕ :=
  (List.range text.length).filter fun place =>
    text[place]? = some delimiter ∧ depth + bracketCount (text.take place) = 0

/-- The stretches of the text between the places, and before the first and behind the last, where
the first stretch begins at `start`. The characters at the places belong to none. -/
def stretches (text : List Char) (start : ℕ) : List ℕ → List (List Char)
  | [] => [text.drop start]
  | place :: places => text.extract start place :: stretches text (place + 1) places

/-- There is one stretch more than there are places. -/
theorem length_stretches (text : List Char) (start : ℕ) (places : List ℕ) :
    (stretches text start places).length = places.length + 1 := by
  induction places generalizing start with
  | nil => rfl
  | cons place places ih => rw [stretches, List.length_cons, List.length_cons, ih]

theorem cuts_nil : cuts delimiter depth [] = [] := rfl

/-- A delimiter in front of the text is a place of its own, and all others are one further on. -/
theorem cuts_cons {c : Char} (hstep : depthStep depth c = some inner) :
    cuts delimiter depth (c :: text) =
      (if c = delimiter ∧ depth = 0 then [0] else []) ++
        (cuts delimiter inner text).map (· + 1) := by
  rw [depthStep_eq_some_iff] at hstep
  unfold cuts
  rw [List.length_cons, List.range_succ_eq_map, List.filter_cons, List.filter_map]
  -- the count before a later place begins with the first character
  have hlater : (fun place => decide ((c :: text)[place]? = some delimiter ∧
        depth + bracketCount ((c :: text).take place) = 0)) ∘ Nat.succ =
      fun place => decide (text[place]? = some delimiter ∧
        inner + bracketCount (text.take place) = 0) := by
    funext place
    simp only [Function.comp_apply, Nat.succ_eq_add_one, List.getElem?_cons_succ,
      List.take_succ_cons, bracketCount_cons, hstep, add_assoc]
  rw [hlater]
  -- the first place is kept exactly if the character is the delimiter and no level is open
  by_cases hcut : c = delimiter ∧ depth = 0 <;> simp [hcut]

/-- In front of a further text there are the cuts of the text itself. -/
theorem cuts_append (h : depthAfter depth text = some inner) (rest : List Char) :
    cuts delimiter depth (text ++ rest) =
      cuts delimiter depth text ++ (cuts delimiter inner rest).map (· + text.length) := by
  induction text generalizing depth with
  | nil =>
    cases h
    simp [cuts_nil]
  | cons c text ih =>
    obtain ⟨next, hstep, htext⟩ := Option.bind_eq_some_iff.mp h
    rw [List.cons_append, cuts_cons hstep, cuts_cons hstep, ih htext]
    simp [Function.comp_def, Nat.add_assoc]

/-- Places that are further on by one are places of a text that is longer by one character. -/
theorem stretches_cons_succ (c : Char) (text : List Char) (start : ℕ) (places : List ℕ) :
    stretches (c :: text) (start + 1) (places.map (· + 1)) = stretches text start places := by
  induction places generalizing start with
  | nil => rfl
  | cons place places ih =>
    rw [List.map_cons, stretches, stretches, ih]
    simp [List.extract]

/-- A character in front of a text belongs to its first stretch. -/
theorem stretches_cons_zero (c : Char) (text : List Char) (places : List ℕ) :
    stretches (c :: text) 0 (places.map (· + 1)) = consFirst c (stretches text 0 places) := by
  cases places with
  | nil => rfl
  | cons place places =>
    -- the first stretch begins one earlier, all others keep their places
    rw [List.map_cons, stretches, stretches_cons_succ, stretches]
    simp [List.extract, consFirst]

/-- **The pieces are the stretches between the cuts.** -/
theorem pieces_eq_stretches (hdelimiter : Plain delimiter)
    (h : pieces delimiter depth text = .ok parts) :
    parts = stretches text 0 (cuts delimiter depth text) := by
  -- the pieces and the stretches grow by the same character or begin with the same empty one
  induction text generalizing depth parts with
  | nil =>
    rw [pieces] at h
    split at h
    · exact (Except.ok.inj h).symm
    · cases h
  | cons c text ih =>
    obtain ⟨next, more, hstep, hmore, rfl⟩ := pieces_cons_eq_ok_iff.mp h
    rw [cuts_cons hstep, ih hmore]
    by_cases hcut : c = delimiter ∧ depth = 0
    · have hcuts : CutsAt delimiter depth c := ⟨hcut.1 ▸ hdelimiter, hcut⟩
      rw [addCharacter_of_cutsAt hcuts, if_pos hcut, List.singleton_append, stretches,
        stretches_cons_succ]
      simp [List.extract]
    · have hcuts : ¬ CutsAt delimiter depth c := fun hcuts => hcut hcuts.2
      rw [addCharacter_of_not_cutsAt hcuts, if_neg hcut, List.nil_append, stretches_cons_zero]

/-! ### What is cut no further -/

/-- A text is undivided if its brackets count to zero and there is no place to cut it. -/
theorem undivided_iff (hdelimiter : Plain delimiter) :
    Undivided delimiter text ↔ CountsToZero text ∧ cuts delimiter 0 text = [] := by
  refine ⟨?_, ?_⟩
  · intro h
    refine ⟨balanced_iff.mp (exists_pieces_eq_ok_iff.mp ⟨_, h⟩), ?_⟩
    -- a text that is its only piece has one stretch, so there is no cut
    have hlength := congrArg List.length (pieces_eq_stretches hdelimiter h)
    rw [length_stretches, List.length_singleton] at hlength
    exact List.length_eq_zero_iff.mp (by omega)
  · rintro ⟨hzero, hnone⟩
    obtain ⟨parts, hparts⟩ : ∃ parts, pieces delimiter 0 text = .ok parts :=
      exists_pieces_eq_ok_iff.mpr (balanced_iff.mpr hzero)
    rw [Undivided, hparts, pieces_eq_stretches hdelimiter hparts, hnone]
    rfl

/-- No piece is divided, in whatever order brackets and delimiters follow each other. The first
piece is the one that the levels open before the text reach into. -/
theorem undivided_of_mem_pieces (h : pieces delimiter depth text = .ok parts) :
    ∃ first others, parts = first :: others ∧ pieces delimiter depth first = .ok [first] ∧
      ∀ part ∈ others, Undivided delimiter part := by
  induction text generalizing depth parts with
  | nil =>
    have hsame := h
    rw [pieces] at h
    split at h
    · cases h
      exact ⟨[], [], rfl, hsame, List.forall_mem_nil _⟩
    · cases h
  | cons c text ih =>
    obtain ⟨next, more, hstep, hmore, rfl⟩ := pieces_cons_eq_ok_iff.mp h
    obtain ⟨first, others, rfl, hfirst, hothers⟩ := ih hmore
    by_cases hcut : CutsAt delimiter depth c
    · -- behind a delimiter no level is open, so what was the first piece is one like any other
      obtain rfl : depth = 0 := hcut.2.2
      obtain rfl : 0 = next := Option.some.inj ((depthStep_of_plain hcut.1).symm.trans hstep)
      refine ⟨[], first :: others, addCharacter_of_cutsAt hcut, rfl, ?_⟩
      exact List.forall_mem_cons.mpr ⟨hfirst, hothers⟩
    · refine ⟨c :: first, others, addCharacter_of_not_cutsAt hcut, ?_, hothers⟩
      rw [pieces_cons_of_depthStep hstep, hfirst]
      exact congrArg Except.ok (addCharacter_of_not_cutsAt hcut)

/-- Without the blanks at its ends a text is divided as little as with them. -/
theorem Undivided.trim (hdelimiter : delimiter = ',' ∨ delimiter = ';')
    (h : Undivided delimiter text) : Undivided delimiter (trim text) := by
  have hplain : Plain delimiter := plain_of_delimiter hdelimiter
  obtain ⟨before, after, hbefore, hafter, hsplit⟩ := Text.exists_eq_append_trim text
  have hblank {gap : List Char} (hgap : Gap gap) : ∀ c ∈ gap, Plain c ∧ c ≠ delimiter :=
    fun c hc => (inert_of_isBlank (hgap c hc)).plain_and_ne hdelimiter
  rw [undivided_iff hplain] at h ⊢
  obtain ⟨hzero, hnone⟩ := h
  rw [hsplit] at hzero hnone
  have htrimmed : CountsToZero (Text.trim text) :=
    hzero.of_append (fun c hc => (hblank hbefore c hc).1) fun c hc => (hblank hafter c hc).1
  refine ⟨htrimmed, ?_⟩
  -- the cuts of the whole are those of the three parts, each moved to its place
  have hbeforeDepth : depthAfter 0 before = some 0 :=
    balanced_iff.mpr (countsToZero_of_plain fun c hc => (hblank hbefore c hc).1)
  rw [List.append_assoc, cuts_append hbeforeDepth, cuts_append (balanced_iff.mpr htrimmed)] at hnone
  simp only [List.append_eq_nil_iff, List.map_eq_nil_iff] at hnone
  exact hnone.2.1

/-! ### Pieces that are joined -/

/-- The second text is the first with blanks around it. -/
def Padded (part padded : List Char) : Prop :=
  ∃ before after, Gap before ∧ Gap after ∧ padded = before ++ part ++ after

/-- Texts that are not divided are the pieces of what they are joined to. -/
theorem pieces_intercalate (hdelimiter : Plain delimiter) (hne : parts ≠ [])
    (h : ∀ part ∈ parts, Undivided delimiter part) :
    pieces delimiter 0 ([delimiter].intercalate parts) = .ok parts := by
  induction parts with
  | nil => exact absurd rfl hne
  | cons part parts ih =>
    rw [List.forall_mem_cons] at h
    -- the last text has no delimiter behind it
    cases parts with
    | nil =>
      rw [List.intercalate_singleton]
      exact h.1
    | cons next parts =>
      rw [List.intercalate_cons_cons, List.append_assoc, List.singleton_append,
        pieces_append_delimiter hdelimiter h.1, ih (List.cons_ne_nil _ _) h.2]
      rfl

/-- The blanks put around trimmed texts are trimmed off. -/
theorem map_trim_of_padded (htrimmed : ∀ part ∈ parts, trim part = part)
    (h : List.Forall₂ Padded parts padded) : padded.map trim = parts := by
  induction h with
  | nil => rfl
  | @cons part whole parts padded hpart _ ih =>
    obtain ⟨before, after, hbefore, hafter, rfl⟩ := hpart
    rw [List.forall_mem_cons] at htrimmed
    rw [List.map_cons, Text.trim_append_of_blank hbefore hafter, htrimmed.1, ih htrimmed.2]

/-- **Cutting undoes joining.** -/
theorem splitTop_intercalate (hdelimiter : delimiter = ',' ∨ delimiter = ';') (hne : parts ≠ [])
    (htrimmed : ∀ part ∈ parts, trim part = part)
    (hparts : ∀ part ∈ parts, Undivided delimiter part)
    (h : List.Forall₂ Padded parts padded) :
    splitTop delimiter ([delimiter].intercalate padded) = .ok parts := by
  have hwhole : ∀ whole ∈ padded, Undivided delimiter whole := by
    intro whole hmem
    obtain ⟨part, hpart, before, after, hbefore, hafter, rfl⟩ := exists_left_of_mem h hmem
    exact (hparts part hpart).padded hdelimiter hbefore hafter
  have hsome : padded ≠ [] := by
    rintro rfl
    exact hne (List.forall₂_nil_right_iff.mp h)
  rw [splitTop_of_pieces (pieces_intercalate (plain_of_delimiter hdelimiter) hsome hwhole),
    map_trim_of_padded htrimmed h]

/-- **Pieces are what stands between the delimiters outside brackets.** A text can be cut exactly if
its brackets count to zero. It is then cut at the delimiters in front of which the count is zero:
the pieces, one more than these, are the stretches in between without the blanks at their ends, and
none of them can be cut further. To cut undoes to join: texts that cannot be cut further and have no
blanks at their ends are found again when they are joined by the delimiter, with blanks around it.
-/
theorem splitTop_inverts_joining (hdelimiter : delimiter = ',' ∨ delimiter = ';') :
    (∀ text, (∃ parts, splitTop delimiter text = .ok parts) ↔ CountsToZero text) ∧
    (∀ text parts, splitTop delimiter text = .ok parts →
      parts = (stretches text 0 (cuts delimiter 0 text)).map trim ∧
      parts.length = (cuts delimiter 0 text).length + 1 ∧
      [delimiter].intercalate (stretches text 0 (cuts delimiter 0 text)) = text ∧
      ∀ part ∈ parts, CountsToZero part ∧ cuts delimiter 0 part = []) ∧
    ∀ parts padded, parts ≠ [] →
      (∀ part ∈ parts, trim part = part ∧ CountsToZero part ∧ cuts delimiter 0 part = []) →
      List.Forall₂ Padded parts padded →
      splitTop delimiter ([delimiter].intercalate padded) = .ok parts := by
  have hplain : Plain delimiter := plain_of_delimiter hdelimiter
  -- whether there is a cut, what comes out, and what it undoes
  refine ⟨fun text => ?_, fun text parts h => ?_, fun parts padded hne hparts h => ?_⟩
  · exact exists_splitTop_eq_ok_iff.trans balanced_iff
  · obtain ⟨raw, hraw, rfl⟩ := map_eq_ok_iff.mp h
    have hstretches := pieces_eq_stretches hplain hraw
    rw [← hstretches]
    refine ⟨rfl, ?_, intercalate_of_pieces hraw, fun part hpart => ?_⟩
    · rw [List.length_map, hstretches, length_stretches]
    · obtain ⟨whole, hwhole, rfl⟩ := List.mem_map.mp hpart
      obtain ⟨first, others, rfl, hfirst, hothers⟩ := undivided_of_mem_pieces hraw
      -- no level is open before the text, so its first piece is undivided like the others
      rw [← undivided_iff hplain]
      rcases List.mem_cons.mp hwhole with rfl | hwhole
      · exact Undivided.trim hdelimiter hfirst
      · exact (hothers whole hwhole).trim hdelimiter
  · refine splitTop_intercalate hdelimiter hne (fun part hpart => (hparts part hpart).1) ?_ h
    intro part hpart
    exact (undivided_iff hplain).mpr (hparts part hpart).2

/-- The commas inside brackets are passed over, whatever the brackets, and the blanks around the
others go away. A text whose brackets close before they open is not cut at all. -/
theorem splitTop_nested :
    cuts ',' 0 "u8 ,\tHashMap<A, (B, C)>, [D; 2] ".toList = [3, 23] ∧
      splitTop ',' "u8 ,\tHashMap<A, (B, C)>, [D; 2] ".toList =
        .ok ["u8".toList, "HashMap<A, (B, C)>".toList, "[D; 2]".toList] ∧
      ¬ ∃ parts, splitTop ',' "a)(".toList = .ok parts := by
  obtain ⟨hcut, -, hjoined⟩ := splitTop_inverts_joining (.inl rfl)
  refine ⟨by decide, ?_, ?_⟩
  · have hparts : ∀ part ∈ ["u8".toList, "HashMap<A, (B, C)>".toList, "[D; 2]".toList],
        trim part = part ∧ CountsToZero part ∧ cuts ',' 0 part = [] := by
      simp only [← balanced_iff]
      decide
    have hgap {gap : List Char} (h : gap.all Text.isBlank) : Gap gap := List.all_eq_true.mp h
    have hpadded : List.Forall₂ Padded
        ["u8".toList, "HashMap<A, (B, C)>".toList, "[D; 2]".toList]
        ["u8 ".toList, "\tHashMap<A, (B, C)>".toList, " [D; 2] ".toList] := by
      refine .cons ⟨[], [' '], hgap rfl, hgap rfl, rfl⟩ (.cons ?_ (.cons ?_ .nil))
      · exact ⟨['\t'], [], hgap rfl, hgap rfl, rfl⟩
      · exact ⟨[' '], [' '], hgap rfl, hgap rfl, rfl⟩
    exact hjoined _ _ (List.cons_ne_nil _ _) hparts hpadded
  · rw [hcut, ← balanced_iff]
    decide

end WireBindings
