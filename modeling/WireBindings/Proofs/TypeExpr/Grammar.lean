import WireBindings.Proofs.TypeExpr.Brackets
import WireBindings.Proofs.TypeExpr.Forms
import WireBindings.Proofs.TypeExpr.Reading

/-!
# The reader and the grammar

The reader of declarations accepts the spellings of the grammar and nothing else, and it answers
with the type that is spelled.

*Soundness* (`spells_of_reads`) needs no count of brackets. Whatever the outline and the cut decide,
they hand over texts from which the text at hand can be put together again, and the reader goes on
to read each of them.

*Completeness* (`reads_of_spells`) is where the count matters. The induction over a spelling
carries, besides the reading, that the text is `Undivided` by either delimiter. So the pieces into
which the text around it is cut are the spelled pieces, whatever they contain.

Together they say what the reader accepts (`parse_eq_ok_iff_spells`), and since spellings match
their brackets kind by kind, a text with crossed brackets is refused although its levels add up.
-/

namespace WireBindings

open Text (isBlank trim)

variable {text inner gap : List Char} {raw : List (List Char)} {type : TypeExpr}
  {types : List TypeExpr}

/-! ### Soundness -/

/-- What is trimmed off a spelling is blank, so it was a spelling before. -/
theorem spells_of_trim (h : Spells (trim text) type) : Spells text type := by
  obtain ⟨before, after, hbefore, hafter, hsplit⟩ := Text.exists_eq_append_trim text
  rw [hsplit]
  exact .padded hbefore h hafter

theorem spellsAll_of_trim (h : List.Forall₂ Spells (raw.map trim) types) :
    List.Forall₂ Spells raw types :=
  (List.forall₂_map_left_iff.mp h).imp fun _ _ => spells_of_trim

/-- Spelled pieces, joined by commas, spell the list of their types. -/
theorem spellsAll_intercalate (hne : raw ≠ []) (h : List.Forall₂ Spells raw types) :
    SpellsAll ([','].intercalate raw) types := by
  induction h with
  | nil => exact absurd rfl hne
  | @cons piece type raw types hpiece hrest ih =>
    -- the grammar tells the last piece from the others, so the rest is split as well
    cases hrest with
    | nil =>
      rw [List.intercalate_singleton]
      exact .last hpiece
    | cons hnext hmore =>
      rw [List.intercalate_cons_cons, List.append_assoc]
      exact .more hpiece (ih (List.cons_ne_nil _ _))

/-- The pieces of a tuple are all its pieces, or all but a last one with nothing in it. -/
theorem dropTrailingEmpty_map_trim (raw : List (List Char)) :
    dropTrailingEmpty (raw.map trim) = raw.map trim ∨
      ∃ front gap, raw = front ++ [gap] ∧ front ≠ [] ∧ (∀ c ∈ gap, isBlank c) ∧
        dropTrailingEmpty (raw.map trim) = front.map trim := by
  unfold dropTrailingEmpty
  split
  · next hdrop =>
    obtain ⟨hlength, hlast⟩ := hdrop
    rcases List.eq_nil_or_concat' raw with rfl | ⟨front, gap, rfl⟩
    · cases hlast
    · rw [List.map_append, List.map_singleton] at hlast hlength ⊢
      rw [List.getLast?_concat, Option.some.injEq] at hlast
      refine .inr ⟨front, gap, rfl, ?_, Text.trim_eq_nil_iff.mp hlast, List.dropLast_concat⟩
      -- an only piece is not dropped, blank or not
      rintro rfl
      cases hlength
      contradiction
  · exact .inl rfl

/-- A text that is cut into spellings spells the list of their types. -/
theorem spellsAll_of_splitTop {parts : List (List Char)} (hcut : splitTop ',' text = .ok parts)
    (h : List.Forall₂ Spells parts types) : SpellsAll text types := by
  obtain ⟨raw, hraw, rfl⟩ := map_eq_ok_iff.mp hcut
  rw [← intercalate_of_pieces hraw]
  exact spellsAll_intercalate (pieces_ne_nil hraw) (spellsAll_of_trim h)

/-- The body of a tuple, whether or not a comma follows the last element. -/
theorem spells_tuple_of_splitTop {parts : List (List Char)} (hcut : splitTop ',' text = .ok parts)
    (h : List.Forall₂ Spells (dropTrailingEmpty parts) types) :
    Spells ('(' :: text ++ [')']) (.tuple types) := by
  obtain ⟨raw, hraw, rfl⟩ := map_eq_ok_iff.mp hcut
  have htext := intercalate_of_pieces hraw
  rcases dropTrailingEmpty_map_trim raw with hall | ⟨front, gap, rfl, hne, hgap, hfront⟩
  · rw [hall] at h
    rw [← htext]
    exact .tuple (spellsAll_intercalate (pieces_ne_nil hraw) (spellsAll_of_trim h))
  · rw [hfront] at h
    have hinner := spellsAll_intercalate hne (spellsAll_of_trim h)
    rw [← htext, intercalate_concat hne]
    exact .tupleWithComma hinner hgap

/-- The body of an array is the element, and a number behind the semicolon. -/
theorem spells_array_of_splitTop {element length : List Char}
    (hcut : splitTop ';' text = .ok [element, length]) (hdigits : Digits length)
    (hfits : decimalValue length < UInt64.size) (helement : Spells element type) :
    Spells ('[' :: text ++ [']']) (.array type (decimalValue length)) := by
  -- there are two pieces before the trimming as well
  obtain ⟨raw, hraw, hmap⟩ := map_eq_ok_iff.mp hcut
  obtain ⟨rawElement, rest, rfl, rfl, hrest⟩ := List.map_eq_cons_iff.mp hmap
  obtain ⟨rawLength, rest, rfl, rfl, hnil⟩ := List.map_eq_cons_iff.mp hrest
  obtain rfl := List.map_eq_nil_iff.mp hnil
  obtain ⟨before, after, hbefore, hafter, hlength⟩ := Text.exists_eq_append_trim rawLength
  have htext : text = rawElement ++ ';' :: (before ++ trim rawLength ++ after) := by
    rw [← hlength, ← intercalate_of_pieces hraw]
    simp [List.intercalate_cons_cons]
  have hspelled := Spells.array (spells_of_trim helement) hbefore hdigits hfits hafter
  rw [htext]
  simpa only [List.append_assoc, List.cons_append] using hspelled

/-- A generic is its name, the blanks behind it, and the spelled arguments in brackets. -/
theorem spells_generic_of_trim {base : List Char} {head : Generic}
    (hnames : trim base = head.name.toList) (hspelled : SpellsAll inner types)
    (hcomplete : types.length = head.arity) :
    Spells (base ++ '<' :: inner ++ ['>']) (.generic head types) := by
  obtain ⟨before, gap, hbefore, hgap, hbase⟩ := Text.exists_eq_append_trim base
  rw [hnames] at hbase
  -- blanks before the name are blanks before the type; those behind it belong to the form
  have hpadded := Spells.padded hbefore (.generic hgap hspelled hcomplete) (List.forall_mem_nil _)
  rw [hbase]
  simpa only [List.append_assoc, List.append_nil] using hpadded

/-- A word spells the type that it denotes. -/
theorem spells_of_ofWord? (h : TypeExpr.ofWord? text = some type) : Spells text type := by
  unfold TypeExpr.ofWord? at h
  have hstring : String.ofList text = "String" ↔ text = ['S', 't', 'r', 'i', 'n', 'g'] := by
    rw [← String.toList_inj, String.toList_ofList]
    rfl
  -- the word `String`, the name of a number, another identifier, or nothing
  split at h
  · next heq =>
    cases h
    rw [hstring.mp heq]
    exact .string
  · next hne =>
    split at h
    · next hnumeric =>
      cases h
      exact .numeric (isNumeric_iff.mp hnumeric)
    · next hnumeric =>
      split at h
      · next hword =>
        cases h
        exact .named (isIdentifier_iff.mp hword) (fun h => hnumeric (isNumeric_iff.mpr h))
          (mt hstring.mpr hne)
      · cases h

/-- What is read in a shorter text is read by the same grammar: the step from the texts inside the
brackets to the text around them. -/
theorem spells_of_readsForm (h : ReadsForm text (outline text) type)
    (ih : ∀ part inside, part.length < text.length → Reads part inside → Spells part inside) :
    Spells text type := by
  -- a piece is no longer than the body, and the body is shorter than the text
  have hparts {body : List Char} {parts : List (List Char)} {inside : List TypeExpr}
      (hbody : totalLength parts ≤ body.length + 1) (hshort : body.length < text.length)
      (hread : List.Forall₂ Reads parts inside) : List.Forall₂ Spells parts inside := by
    have hless : ∀ part ∈ parts, part.length < text.length := fun part hpart =>
      (Nat.le_of_lt_succ ((length_lt_totalLength hpart).trans_le hbody)).trans_lt hshort
    exact ((List.forall₂_and_left _ _).mpr ⟨hless, hread⟩).imp fun part type h =>
      ih part type h.1 h.2
  -- each form puts the text together again from what has been read inside it
  generalize hform : outline text = form at h
  cases h with
  | unit =>
    rw [eq_of_outline_unit hform]
    exact .unit
  | @tuple body parts elements hcut hread =>
    have hlength := (totalLength_dropTrailingEmpty_le parts).trans (totalLength_splitTop_le hcut)
    rw [eq_of_outline_tuple hform]
    exact spells_tuple_of_splitTop hcut
      (hparts hlength (length_lt_of_outline_eq_tuple hform) hread)
  | @array body element length type hcut hnumber hfits hread =>
    have hshort := length_lt_of_outline_eq_array hform
    have hlength := totalLength_splitTop_le hcut
    have helement := ih element type (by simp only [totalLength_cons] at hlength; omega) hread
    rw [eq_of_outline_array hform]
    exact spells_array_of_splitTop hcut (isDigits_iff.mp hnumber) hfits helement
  | @generic base inner parts head arguments hnames hcut hread hcomplete =>
    have hspelled := spellsAll_of_splitTop hcut (hparts (totalLength_splitTop_le hcut)
      (length_lt_of_outline_eq_generic hform) hread)
    rw [eq_of_outline_generic hform]
    exact spells_generic_of_trim hnames hspelled hcomplete
  | word hdenotes => exact spells_of_ofWord? hdenotes

/-- **Soundness.** A text that is read as a type is a spelling of it. -/
theorem spells_of_reads (h : Reads text type) : Spells text type := by
  -- the induction is on the length, since the texts inside are trimmed and not parts of the data
  induction hn : text.length using Nat.strong_induction_on generalizing text type with
  | h n ih =>
    subst hn
    have hshorter := Text.length_trim_le text
    refine spells_of_trim (spells_of_readsForm (reads_iff.mp h) ?_)
    intro part inside hpart hread
    exact ih part.length (hpart.trans_le hshorter) hread rfl

/-! ### Completeness -/

/-- The text is read as the type, and neither delimiter divides it. -/
structure ReadsWhole (text : List Char) (type : TypeExpr) : Prop where
  reads : Reads text type
  undivided : ∀ delimiter, delimiter = ',' ∨ delimiter = ';' → Undivided delimiter text

/-- The text falls into pieces at its commas, and these are read as the types. -/
def ReadsAll (text : List Char) (types : List TypeExpr) : Prop :=
  ∃ raw, pieces ',' 0 text = .ok raw ∧ List.Forall₂ Reads raw types

theorem plain_comma : Plain ',' := ⟨Bool.false_ne_true, Bool.false_ne_true⟩

theorem plain_semicolon : Plain ';' := ⟨Bool.false_ne_true, Bool.false_ne_true⟩

/-- Neither delimiter is a bracket. -/
theorem plain_of_delimiter {delimiter : Char} (h : delimiter = ',' ∨ delimiter = ';') :
    Plain delimiter := by
  rcases h with rfl | rfl
  · exact plain_comma
  · exact plain_semicolon

/-- A text without brackets and delimiters is undivided by either. -/
theorem undivided_of_inert {delimiter : Char} (hdelimiter : delimiter = ',' ∨ delimiter = ';')
    (h : ∀ c ∈ text, Inert c) : Undivided delimiter text :=
  undivided_of_plain fun c hc => (h c hc).plain_and_ne hdelimiter

/-- Blanks around a text do not divide it. -/
theorem Undivided.padded {delimiter : Char} {before after : List Char}
    (hdelimiter : delimiter = ',' ∨ delimiter = ';') (hbefore : Gap before)
    (h : Undivided delimiter text) (hafter : Gap after) :
    Undivided delimiter (before ++ text ++ after) := by
  have hblank {gap : List Char} (hgap : Gap gap) : Undivided delimiter gap :=
    undivided_of_inert hdelimiter fun c hc => inert_of_isBlank (hgap c hc)
  exact ((hblank hbefore).append h).append (hblank hafter)

/-- What can be cut has balanced brackets. -/
theorem ReadsAll.balanced (h : ReadsAll text types) : Balanced text := by
  obtain ⟨raw, hraw, -⟩ := h
  exact exists_pieces_eq_ok_iff.mp ⟨raw, hraw⟩

theorem reads_map_trim (h : List.Forall₂ Reads raw types) :
    List.Forall₂ Reads (raw.map trim) types :=
  List.forall₂_map_left_iff.mpr (h.imp fun _ _ => reads_trim_iff.mpr)

theorem splitTop_of_pieces {delimiter : Char} (h : pieces delimiter 0 text = .ok raw) :
    splitTop delimiter text = .ok (raw.map trim) :=
  map_eq_ok_iff.mpr ⟨raw, h, rfl⟩

/-- A word is read as the type that it denotes. -/
theorem readsWhole_word (hne : text ≠ []) (hword : ∀ c ∈ text, isWordChar c)
    (h : TypeExpr.ofWord? text = some type) : ReadsWhole text type := by
  have hinert : ∀ c ∈ text, Inert c := fun c hc => inert_of_isWordChar (hword c hc)
  have htrim : trim text = text :=
    Text.trim_eq_self_of_forall fun c hc => not_isBlank_of_isWordChar (hword c hc)
  refine ⟨?_, ?_⟩
  · rw [reads_iff, htrim, outline_word hne fun c hc => (hinert c hc).1]
    exact .word h
  · intro delimiter hdelimiter
    exact undivided_of_inert hdelimiter hinert

/-- The unit is read as such. -/
theorem readsWhole_unit : ReadsWhole ['(', ')'] .unit := by
  refine ⟨?_, ?_⟩
  · rw [reads_iff]
    exact .unit
  · intro delimiter _
    show Undivided delimiter ('(' :: [] ++ [')'])
    exact bracketPair_round.undivided rfl

/-- The name of a number is read as that number. -/
theorem readsWhole_numeric (h : NumericName text) :
    ReadsWhole text (.numeric (String.ofList text)) := by
  -- the word `String` is asked for first, but it does not begin with a small letter
  have hstring : String.ofList text ≠ "String" := by
    intro heq
    obtain ⟨first, digits, rfl, hfirst, -⟩ := h
    rw [← String.toList_inj, String.toList_ofList] at heq
    cases heq
    revert hfirst
    decide
  refine readsWhole_word ?_ h.isWordChar ?_
  · obtain ⟨first, digits, rfl, -⟩ := h
    exact List.cons_ne_nil _ _
  · rw [TypeExpr.ofWord?, if_neg hstring, if_pos (isNumeric_iff.mpr h)]

/-- Any other identifier but `String` is read as a name. -/
theorem readsWhole_named (h : Identifier text) (hnumeric : ¬ NumericName text)
    (hstring : text ≠ ['S', 't', 'r', 'i', 'n', 'g']) :
    ReadsWhole text (.named (String.ofList text)) := by
  have hstring' : String.ofList text ≠ "String" := by
    intro heq
    rw [← String.toList_inj, String.toList_ofList] at heq
    exact hstring heq
  refine readsWhole_word ?_ h.isWordChar ?_
  · obtain ⟨first, rest, rfl, -⟩ := h
    exact List.cons_ne_nil _ _
  · rw [TypeExpr.ofWord?, if_neg hstring', if_neg (mt isNumeric_iff.mp hnumeric),
      if_pos (isIdentifier_iff.mpr h)]

/-- A tuple is read as the types of its elements, whether or not a last piece is dropped. -/
theorem readsWhole_tuple {front : List (List Char)} (hne : text ≠ [])
    (hraw : pieces ',' 0 text = .ok raw)
    (hdrop : dropTrailingEmpty (raw.map trim) = front.map trim)
    (hread : List.Forall₂ Reads front types) :
    ReadsWhole ('(' :: text ++ [')']) (.tuple types) := by
  have hbalanced : Balanced text := exists_pieces_eq_ok_iff.mp ⟨raw, hraw⟩
  refine ⟨?_, ?_⟩
  · rw [reads_iff, bracketPair_round.trim_eq, outline_tuple hbalanced hne]
    exact .tuple (splitTop_of_pieces hraw) (hdrop ▸ reads_map_trim hread)
  · intro delimiter _
    exact bracketPair_round.undivided hbalanced

/-- No element of a tuple is empty, so none is dropped. -/
theorem dropTrailingEmpty_of_reads (h : List.Forall₂ Reads raw types) :
    dropTrailingEmpty (raw.map trim) = raw.map trim := by
  refine if_neg ?_
  rintro ⟨-, hlast⟩
  obtain ⟨piece, hpiece, hempty⟩ := List.mem_map.mp (List.mem_of_getLast? hlast)
  obtain ⟨type, -, hread⟩ := exists_right_of_mem h hpiece
  exact hread.trim_ne_nil hempty

/-- Elements without a comma at the end are all pieces of a tuple. -/
theorem readsWhole_of_readsAll (h : ReadsAll text types) :
    ReadsWhole ('(' :: text ++ [')']) (.tuple types) := by
  obtain ⟨raw, hraw, hread⟩ := h
  refine readsWhole_tuple ?_ hraw (dropTrailingEmpty_of_reads hread) hread
  -- nothing at all would be a single piece that spells no type
  rintro rfl
  cases hraw
  obtain ⟨type, -, hnil⟩ := exists_right_of_mem hread (List.mem_singleton_self [])
  exact not_reads_nil hnil

/-- With a comma at the end there is one piece more, and it is dropped. -/
theorem readsWhole_of_readsAll_comma (h : ReadsAll text types) (hgap : Gap gap) :
    ReadsWhole ('(' :: text ++ ',' :: gap ++ [')']) (.tuple types) := by
  obtain ⟨raw, hraw, hread⟩ := h
  have hlast : Undivided ',' gap :=
    undivided_of_inert (.inl rfl) fun c hc => inert_of_isBlank (hgap c hc)
  have hall : pieces ',' 0 (text ++ ',' :: gap) = .ok (raw ++ [gap]) := by
    rw [pieces_append_delimiter plain_comma hraw, hlast]
    rfl
  have hdrop : dropTrailingEmpty ((raw ++ [gap]).map trim) = raw.map trim := by
    have hlength : 1 < ((raw ++ [gap]).map trim).length := by
      have := List.length_pos_of_ne_nil (pieces_ne_nil hraw)
      simp only [List.length_map, List.length_append, List.length_singleton]
      omega
    rw [List.map_append, List.map_singleton, Text.trim_eq_nil_iff.mpr hgap] at hlength ⊢
    rw [dropTrailingEmpty, if_pos ⟨hlength, List.getLast?_concat⟩, List.dropLast_concat]
  have hwhole := readsWhole_tuple (by simp) hall hdrop hread
  simpa only [List.cons_append, List.append_assoc] using hwhole

/-- A text in front of a comma is the first piece, since it is undivided. -/
theorem ReadsAll.cons {rest : List Char} (hfirst : ReadsWhole text type)
    (hrest : ReadsAll rest types) : ReadsAll (text ++ ',' :: rest) (type :: types) := by
  obtain ⟨raw, hraw, hread⟩ := hrest
  refine ⟨text :: raw, ?_, .cons hfirst.reads hread⟩
  rw [pieces_append_delimiter plain_comma (hfirst.undivided ',' (.inl rfl)), hraw]
  rfl

/-- An array is read as its element and its length. -/
theorem readsWhole_array {before digits after : List Char} (h : ReadsWhole text type)
    (hbefore : Gap before) (hdigits : Digits digits) (hfits : decimalValue digits < UInt64.size)
    (hafter : Gap after) :
    ReadsWhole ('[' :: text ++ ';' :: before ++ digits ++ after ++ [']'])
      (.array type (decimalValue digits)) := by
  have hdigit : ∀ c ∈ digits, isWordChar c := fun c hc => isWordChar_of_isDigit (hdigits.2 c hc)
  have hinert : ∀ c ∈ before ++ digits ++ after, Inert c := by
    intro c hc
    rcases List.mem_append.mp hc with hc | hc
    · exact (List.mem_append.mp hc).elim (fun hc => inert_of_isBlank (hbefore c hc))
        fun hc => inert_of_isWordChar (hdigit c hc)
    · exact inert_of_isBlank (hafter c hc)
  have htrim : trim (before ++ digits ++ after) = digits := by
    rw [Text.trim_append_of_blank hbefore hafter]
    exact Text.trim_eq_self_of_forall fun c hc => not_isBlank_of_isWordChar (hdigit c hc)
  -- of the two semicolons that could be there, the element hides its own
  have hcut : pieces ';' 0 (text ++ ';' :: (before ++ digits ++ after)) =
      .ok [text, before ++ digits ++ after] := by
    rw [pieces_append_delimiter plain_semicolon (h.undivided ';' (.inr rfl)),
      undivided_of_inert (.inr rfl) hinert]
    rfl
  -- what is read as the length has the blanks around it taken off
  have hsplit := splitTop_of_pieces hcut
  simp only [List.map_cons, List.map_nil, htrim] at hsplit
  have hbalanced := exists_pieces_eq_ok_iff.mp ⟨_, hcut⟩
  have hwhole : ReadsWhole ('[' :: (text ++ ';' :: (before ++ digits ++ after)) ++ [']'])
      (.array type (decimalValue digits)) := by
    refine ⟨?_, ?_⟩
    · rw [reads_iff, bracketPair_square.trim_eq, outline_array hbalanced]
      exact .array hsplit (isDigits_iff.mpr hdigits) hfits (reads_trim_iff.mpr h.reads)
    · intro delimiter _
      exact bracketPair_square.undivided hbalanced
  simpa only [List.cons_append, List.append_assoc] using hwhole

/-- A generic is read as its arguments, if there are as many as it takes. -/
theorem readsWhole_generic {head : Generic} (hgap : Gap gap) (h : ReadsAll text types)
    (hcomplete : types.length = head.arity) :
    ReadsWhole (head.name.toList ++ gap ++ '<' :: text ++ ['>']) (.generic head types) := by
  have hname : Identifier head.name.toList := isIdentifier_iff.mp (isIdentifier_name head)
  have hbase : ∀ c ∈ head.name.toList ++ gap, Inert c := hname.inert_append hgap
  have htrim : trim (head.name.toList ++ gap ++ '<' :: text ++ ['>']) =
      head.name.toList ++ gap ++ '<' :: text ++ ['>'] := by
    -- the text begins with a letter and ends in a bracket
    apply Text.trim_eq_self
    · intro c hc
      refine not_isBlank_of_isWordChar (hname.isWordChar c ?_)
      cases head <;> cases hc <;> decide
    · intro c hc
      rw [List.getLast?_concat] at hc
      cases hc
      decide
  have hbalanced := h.balanced
  obtain ⟨raw, hraw, hread⟩ := h
  -- the name has no bracket in it, so the first `<` is the one behind it
  refine ⟨?_, ?_⟩
  · rw [reads_iff, htrim, outline_generic fun c hc => (hbase c hc).1]
    exact .generic (hname.trim_append hgap) (splitTop_of_pieces hraw) (reads_map_trim hread)
      hcomplete
  · intro delimiter hdelimiter
    rw [List.append_assoc]
    exact (undivided_of_inert hdelimiter hbase).append
      (bracketPair_angle.undivided hbalanced)

/-- Blanks around a text change nothing. -/
theorem ReadsWhole.padded {before after : List Char} (hbefore : Gap before)
    (h : ReadsWhole text type) (hafter : Gap after) :
    ReadsWhole (before ++ text ++ after) type := by
  refine ⟨?_, ?_⟩
  · rw [← reads_trim_iff, Text.trim_append_of_blank hbefore hafter, reads_trim_iff]
    exact h.reads
  · intro delimiter hdelimiter
    exact (h.undivided delimiter hdelimiter).padded hdelimiter hbefore hafter

mutual

/-- The step of the induction over a spelling, form by form. -/
theorem readsWhole_of_spells : ∀ {text : List Char} {type : TypeExpr},
    Spells text type → ReadsWhole text type
  | _, _, .unit => readsWhole_unit
  | _, _, .string => readsWhole_word (List.cons_ne_nil _ _) (List.all_eq_true.mp rfl) rfl
  | _, _, .numeric hname => readsWhole_numeric hname
  | _, _, .named hname hnumeric hstring => readsWhole_named hname hnumeric hstring
  | _, _, .generic hblank hspelled hcomplete =>
    readsWhole_generic hblank (readsAll_of_spellsAll hspelled) hcomplete
  | _, _, .tuple hspelled => readsWhole_of_readsAll (readsAll_of_spellsAll hspelled)
  | _, _, .tupleWithComma hspelled hblank =>
    readsWhole_of_readsAll_comma (readsAll_of_spellsAll hspelled) hblank
  | _, _, .array hspelled hbefore hnumber hfits hafter =>
    readsWhole_array (readsWhole_of_spells hspelled) hbefore hnumber hfits hafter
  | _, _, .padded hbefore hspelled hafter =>
    .padded hbefore (readsWhole_of_spells hspelled) hafter

/-- The step for several spellings with commas between them. -/
theorem readsAll_of_spellsAll : ∀ {text : List Char} {types : List TypeExpr},
    SpellsAll text types → ReadsAll text types
  | _, _, .last hspelled =>
    have h := readsWhole_of_spells hspelled
    ⟨_, h.undivided ',' (.inl rfl), .cons h.reads .nil⟩
  | _, _, .more hfirst hothers =>
    .cons (readsWhole_of_spells hfirst) (readsAll_of_spellsAll hothers)

end

/-- **Completeness.** A spelling of a type is read as that type. -/
theorem reads_of_spells (h : Spells text type) : Reads text type := (readsWhole_of_spells h).reads

/-! ### What is accepted -/

/-- **The reader and the grammar agree.** A declaration is read as a type exactly when it is a
spelling of that type; and where the brackets do not match kind by kind, nothing is read at all. -/
theorem parse_eq_ok_iff_spells (declaration : String) :
    (∀ type, TypeExpr.parse declaration = .ok type ↔ Spells declaration.toList type) ∧
      (¬ BracketsMatch declaration.toList → ∀ type, TypeExpr.parse declaration ≠ .ok type) := by
  have hiff : ∀ type, TypeExpr.parse declaration = .ok type ↔ Spells declaration.toList type :=
    fun _ => ⟨spells_of_reads, reads_of_spells⟩
  refine ⟨hiff, ?_⟩
  -- what is read is a spelling, and in a spelling brackets match
  intro hcrossed type h
  exact hcrossed (bracketsMatch_of_spells ((hiff type).mp h))

/-- Crossed brackets are balanced as levels go, and are refused all the same. -/
theorem parse_crossed_ne_ok :
    Balanced "([u8), (u8])".toList ∧ ¬ BracketsMatch "([u8), (u8])".toList ∧
      ∀ type, TypeExpr.parse "([u8), (u8])" ≠ .ok type := by
  have hcrossed : ¬ BracketsMatch "([u8), (u8])".toList := by decide
  exact ⟨by decide, hcrossed, (parse_eq_ok_iff_spells _).2 hcrossed⟩

end WireBindings
