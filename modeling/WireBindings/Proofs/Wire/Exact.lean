import Mathlib.Data.List.Basic
import WireBindings.Proofs.Outcome
import WireBindings.Proofs.Text.Utf8
import WireBindings.Wire.Bounds
import WireBindings.Wire.Decode
import WireBindings.Wire.Encode

/-!
# Exact readers

A reader is *exact* for a layout if it takes a value from the front of the input precisely when the
input begins with the layout of that value, the value fits the wire, and all behind the layout is
left (`Exact`). This is soundness and completeness at once: what is read is what has been written,
and everything written is read.

A computation that begins with an exact reader is opened by `Exact.run_bind`, which says what it
reads in terms of the layout alone. So the proof of each reader follows its definition, from octets
and numbers up to definitions under their names (`exact_entry`). Containers are not exact: they are
read in any order and come out sorted.
-/

namespace WireBindings.Wire

open Text

variable {α β : Type} {write : α → List UInt8} {fits : α → Prop} {element : Reader α}

/-! ### Numbers -/

/-- Octets spell no number that needs more of them. -/
theorem ofOctets_lt_capacity (octets : List UInt8) : ofOctets octets < capacity octets.length := by
  induction octets with
  | nil => exact Nat.zero_lt_one
  | cons octet rest ih =>
    -- the lowest octet comes first, and each further one counts 256 times as much
    have hoctet : octet.toNat < 256 := octet.toNat_lt
    show octet.toNat + 256 * ofOctets rest < 256 * capacity rest.length
    omega

/-- A number that was read is written by the same octets. -/
theorem toOctets_ofOctets (octets : List UInt8) :
    toOctets octets.length (ofOctets octets) = octets := by
  induction octets with
  | nil => rfl
  | cons octet rest ih =>
    have hoctet : octet.toNat < 256 := octet.toNat_lt
    have hlow : (octet.toNat + 256 * ofOctets rest) % 256 = octet.toNat := by omega
    have hhigh : (octet.toNat + 256 * ofOctets rest) / 256 = ofOctets rest := by omega
    show UInt8.ofNat ((octet.toNat + 256 * ofOctets rest) % 256) ::
      toOctets rest.length ((octet.toNat + 256 * ofOctets rest) / 256) = octet :: rest
    rw [hlow, hhigh, ih, UInt8.ofNat_toNat]

/-! ### Running readers -/

/-- The reader takes the layout of a value that fits from the front of the input, and nothing
else. -/
def Exact (reader : Reader α) (write : α → List UInt8) (fits : α → Prop) : Prop :=
  ∀ input value rest,
    reader input = .ok (value, rest) ↔ fits value ∧ input = write value ++ rest

/-- To take nothing leaves the input as it is. -/
theorem run_pure {value result : α} {input rest : List UInt8} :
    (pure value : Reader α) input = .ok (result, rest) ↔ value = result ∧ input = rest := by
  show Except.ok (value, input) = .ok (result, rest) ↔ _
  rw [Except.ok.injEq, Prod.mk.injEq]

/-- What begins with two layouts begins with the same value twice. -/
theorem Exact.unique {reader : Reader α} (h : Exact reader write fits) {a b : α}
    {r s : List UInt8} (ha : fits a) (hb : fits b) (heq : write a ++ r = write b ++ s) :
    a = b ∧ r = s := by
  -- there is one input, and one outcome of reading it
  have hfirst : reader (write a ++ r) = .ok (a, r) := (h _ _ _).mpr ⟨ha, rfl⟩
  have hsecond : reader (write a ++ r) = .ok (b, s) := (h _ _ _).mpr ⟨hb, heq⟩
  exact Prod.mk.inj (Except.ok.inj (hfirst.symm.trans hsecond))

/-- **What begins with an exact reader** goes on with a value whose layout stands in front. -/
theorem Exact.run_bind {first : Reader α} (h : Exact first write fits) {next : α → Reader β}
    {input : List UInt8} {outcome : β × List UInt8} :
    (first >>= next) input = .ok outcome ↔
      ∃ value, fits value ∧ ∃ rest, input = write value ++ rest ∧
        next value rest = .ok outcome := by
  show (first input >>= fun result => next result.1 result.2) = .ok outcome ↔ _
  -- two readers in sequence are two computations, the second one on the rest
  rw [bind_eq_ok_iff, Prod.exists]
  refine exists_congr fun value => ?_
  rw [← exists_and_left]
  refine exists_congr fun rest => ?_
  rw [h input value rest, and_assoc]

/-- What is made of an exact reading is read where the layout stands. -/
theorem Exact.run_map {reader : Reader α} (h : Exact reader write fits) {f : α → β}
    {input rest : List UInt8} {result : β} :
    (f <$> reader) input = .ok (result, rest) ↔
      ∃ value, fits value ∧ input = write value ++ rest ∧ f value = result := by
  show (reader >>= fun value => pure (f value)) input = .ok (result, rest) ↔ _
  -- a map is a sequence of two readers, of which the second takes nothing
  rw [h.run_bind]
  refine exists_congr fun value => and_congr_right fun _ => ⟨?_, ?_⟩
  · rintro ⟨later, rfl, hpure⟩
    obtain ⟨hresult, rfl⟩ := run_pure.mp hpure
    exact ⟨rfl, hresult⟩
  · rintro ⟨rfl, hresult⟩
    exact ⟨rest, rfl, run_pure.mpr ⟨hresult, rfl⟩⟩

/-! ### Octets, numbers and texts -/

/-- **An octet** is its own layout. -/
theorem exact_octet : Exact Reader.octet (fun octet => [octet]) (fun _ => True) := by
  intro input octet rest
  cases input with
  | nil => exact iff_of_false nofun fun h => nomatch h.2
  | cons first later =>
    show Except.ok (first, later) = .ok (octet, rest) ↔ True ∧ first :: later = octet :: rest
    rw [Except.ok.injEq, Prod.mk.injEq, List.cons.injEq, true_and]

/-- **Several octets** are read if there are as many. -/
theorem exact_octets (count : Nat) :
    Exact (Reader.octets count) id (fun octets => octets.length = count) := by
  intro input octets rest
  show (if (input.take count).length = count then Except.ok (input.take count, input.drop count)
    else Except.error Fault.endOfInput) = .ok (octets, rest) ↔ _
  constructor
  · intro h
    -- there are as many octets as are to be read, or the input ends
    split at h
    · next hlength =>
      cases h
      exact ⟨hlength, (List.take_append_drop count input).symm⟩
    · cases h
  · rintro ⟨rfl, rfl⟩
    rw [id_eq, List.take_left, List.drop_left, if_pos rfl]

/-- **A number** is read if its octets are there, and it is one that they can spell. -/
theorem exact_number (width : Nat) :
    Exact (Reader.number width) (toOctets width) (· < capacity width) := by
  intro input number rest
  rw [Reader.number, (exact_octets width).run_map]
  constructor
  · -- the number of octets decides which numbers they can spell
    rintro ⟨octets, rfl, rfl, rfl⟩
    exact ⟨ofOctets_lt_capacity octets, by rw [toOctets_ofOctets]; rfl⟩
  · rintro ⟨hfits, rfl⟩
    exact ⟨toOctets width number, length_toOctets width number, rfl, ofOctets_toOctets hfits⟩

/-- **A text** is read if its length is followed by as many octets, and these are UTF-8. -/
theorem exact_text : Exact Reader.text textOctets TextFits := by
  intro input text rest
  simp only [Reader.text, (exact_number 4).run_bind, (exact_octets _).run_bind]
  constructor
  · rintro ⟨_, hlength, _, rfl, octets, rfl, _, rfl, h⟩
    -- as many octets as announced are there; it is left to see whether they are a text
    cases hdecoded : Utf8.decode octets with
    | error why =>
      rw [hdecoded] at h
      cases h
    | ok decoded =>
      rw [hdecoded] at h
      obtain ⟨rfl, rfl⟩ := run_pure.mp h
      obtain rfl := Utf8.decode_eq_ok_iff.mp hdecoded
      exact ⟨hlength, (List.append_assoc _ _ _).symm⟩
  · rintro ⟨hfits, rfl⟩
    refine ⟨_, hfits, _, List.append_assoc _ _ _, Utf8.encode text, rfl, rest, rfl, ?_⟩
    rw [Utf8.decode_eq_ok_iff.mpr rfl]
    exact run_pure.mpr ⟨rfl, rfl⟩

/-! ### Lists -/

/-- As many values are read as there are to be. -/
theorem exact_many (h : Exact element write fits) (count : Nat) :
    Exact (Reader.many element count) (List.flatMap write)
      (fun elements => elements.length = count ∧ ∀ element ∈ elements, fits element) := by
  -- one element is read and then the others; the layout of a list is that of its elements
  induction count with
  | zero =>
    intro input elements rest
    rw [Reader.many, run_pure]
    constructor
    · rintro ⟨rfl, rfl⟩
      exact ⟨⟨rfl, List.forall_mem_nil _⟩, rfl⟩
    · rintro ⟨⟨hnone, -⟩, rfl⟩
      obtain rfl := List.eq_nil_of_length_eq_zero hnone
      exact ⟨rfl, rfl⟩
  | succ count ih =>
    intro input elements rest
    simp only [Reader.many, h.run_bind, ih.run_bind, run_pure]
    constructor
    · rintro ⟨first, hfirst, _, rfl, later, ⟨rfl, hlater⟩, _, rfl, rfl, rfl⟩
      exact ⟨⟨rfl, List.forall_mem_cons.mpr ⟨hfirst, hlater⟩⟩, (List.append_assoc _ _ _).symm⟩
    · rintro ⟨⟨hlength, hall⟩, rfl⟩
      obtain ⟨first, later, rfl⟩ := List.exists_cons_of_length_eq_add_one hlength
      obtain ⟨hfirst, hlater⟩ := List.forall_mem_cons.mp hall
      exact ⟨first, hfirst, _, List.append_assoc _ _ _, later, ⟨Nat.succ.inj hlength, hlater⟩, _,
        rfl, rfl, rfl⟩

/-- **A list** is read if the number of its elements is followed by them. -/
theorem Exact.list (h : Exact element write fits) :
    Exact (Reader.list element) (listOctets write) (ListFits fits) := by
  intro input elements rest
  rw [Reader.list, (exact_number 4).run_bind]
  constructor
  · rintro ⟨count, hcount, _, rfl, helements⟩
    obtain ⟨⟨rfl, hall⟩, rfl⟩ := (exact_many h count _ _ _).mp helements
    exact ⟨⟨hcount, hall⟩, (List.append_assoc _ _ _).symm⟩
  · rintro ⟨⟨hcount, hall⟩, rfl⟩
    exact ⟨_, hcount, _, List.append_assoc _ _ _, (exact_many h _ _ _ _).mpr ⟨⟨rfl, hall⟩, rfl⟩⟩

/-! ### Definitions -/

/-- **A named field** is its name and its declaration. -/
theorem exact_namedField : Exact Reader.namedField namedFieldOctets NamedFieldFits := by
  intro input field rest
  simp only [Reader.namedField, exact_text.run_bind, run_pure]
  constructor
  · rintro ⟨name, hname, _, rfl, declaration, hdeclaration, _, rfl, rfl, rfl⟩
    exact ⟨⟨hname, hdeclaration⟩, (List.append_assoc _ _ _).symm⟩
  · rintro ⟨⟨hname, hdeclaration⟩, rfl⟩
    exact ⟨field.name, hname, _, List.append_assoc _ _ _, field.declaration, hdeclaration, _, rfl,
      rfl, rfl⟩

/-- **The fields of a struct** are told apart by a tag. -/
theorem exact_fields : Exact Reader.fields fieldsOctets FieldsFit := by
  intro input fields rest
  rw [Reader.fields, exact_octet.run_bind]
  constructor
  · rintro ⟨tag, -, later, rfl, h⟩
    -- the tag is 0, 1 or 2, in this order, or no struct has it
    split at h
    · next htag =>
      obtain ⟨named, hnamed, rfl, rfl⟩ := exact_namedField.list.run_map.mp h
      exact ⟨hnamed, by rw [htag]; rfl⟩
    split at h
    · next htag =>
      obtain ⟨declarations, hdeclarations, rfl, rfl⟩ := exact_text.list.run_map.mp h
      exact ⟨hdeclarations, by rw [htag]; rfl⟩
    split at h
    · next htag =>
      obtain ⟨rfl, rfl⟩ := run_pure.mp h
      exact ⟨trivial, by rw [htag]; rfl⟩
    · cases h
  · rintro ⟨hfits, rfl⟩
    cases fields with
    | named fields =>
      exact ⟨0, trivial, _, rfl, exact_namedField.list.run_map.mpr ⟨fields, hfits, rfl, rfl⟩⟩
    | unnamed declarations =>
      exact ⟨1, trivial, _, rfl, exact_text.list.run_map.mpr ⟨declarations, hfits, rfl, rfl⟩⟩
    | empty => exact ⟨2, trivial, rest, rfl, run_pure.mpr ⟨rfl, rfl⟩⟩

/-- A number of eight octets is any word. -/
theorem toNat_lt_capacity (word : UInt64) : word.toNat < capacity 8 := word.toNat_lt

/-- A word is made of a number that fits eight octets. -/
theorem toNat_ofNat_of_lt_capacity {number : Nat} (h : number < capacity 8) :
    (UInt64.ofNat number).toNat = number :=
  UInt64.toNat_ofNat_of_lt' h

/-- **A variant** is its discriminant, its name and its declaration. -/
theorem exact_variant : Exact Reader.variant variantOctets VariantFits := by
  intro input variant rest
  simp only [Reader.variant, (exact_number 8).run_bind, exact_text.run_bind, run_pure]
  -- a discriminant travels as the unsigned number of the same bits
  constructor
  · rintro ⟨number, hnumber, _, rfl, name, hname, _, rfl, declaration, hdeclaration, _, rfl, rfl,
      rfl⟩
    refine ⟨⟨hname, hdeclaration⟩, ?_⟩
    simp only [variantOctets, UInt64.toUInt64_toInt64, List.append_assoc,
      toNat_ofNat_of_lt_capacity hnumber]
  · rintro ⟨⟨hname, hdeclaration⟩, rfl⟩
    refine ⟨variant.discriminant.toUInt64.toNat, toNat_lt_capacity _, _, ?_, variant.name, hname, _,
      rfl, variant.declaration, hdeclaration, _, rfl, ?_, rfl⟩
    · rw [variantOctets, List.append_assoc, List.append_assoc]
    · rw [UInt64.ofNat_toNat, Int64.toInt64_toUInt64]

/-- The bounds of a sequence travel as numbers, and each word has a number of its own. -/
theorem run_sequence {input rest : List UInt8} {definition : Definition} :
    Reader.body .sequence input = .ok (definition, rest) ↔
      ∃ width lengths elements, TextFits elements ∧
        input = bodyOctets (.sequence width lengths elements) ++ rest ∧
        .sequence width lengths elements = definition := by
  simp only [Reader.body, exact_octet.run_bind, (exact_number 8).run_bind, exact_text.run_bind,
    run_pure, bodyOctets, List.cons_append, List.nil_append, List.append_assoc]
  constructor
  · rintro ⟨width, -, _, rfl, first, hfirst, _, rfl, last, hlast, _, rfl, elements, helements, _,
      rfl, rfl, rfl⟩
    refine ⟨width, ⟨UInt64.ofNat first, UInt64.ofNat last⟩, elements, helements, ?_, rfl⟩
    rw [toNat_ofNat_of_lt_capacity hfirst, toNat_ofNat_of_lt_capacity hlast]
  · rintro ⟨width, lengths, elements, helements, rfl, rfl⟩
    refine ⟨width, trivial, _, rfl, lengths.first.toNat, toNat_lt_capacity _, _, rfl,
      lengths.last.toNat, toNat_lt_capacity _, _, rfl, elements, helements, _, rfl, ?_, rfl⟩
    rw [UInt64.ofNat_toNat, UInt64.ofNat_toNat]

/-- The variants of an enum follow the width of its tag. -/
theorem run_enum {input rest : List UInt8} {definition : Definition} :
    Reader.body .enum input = .ok (definition, rest) ↔
      ∃ width variants, ListFits VariantFits variants ∧
        input = bodyOctets (.enum width variants) ++ rest ∧ .enum width variants = definition := by
  simp only [Reader.body, exact_octet.run_bind, exact_variant.list.run_bind, run_pure]
  constructor
  · rintro ⟨width, -, _, rfl, variants, hvariants, _, rfl, hdefinition, rfl⟩
    exact ⟨width, variants, hvariants, rfl, hdefinition⟩
  · rintro ⟨width, variants, hvariants, rfl, hdefinition⟩
    exact ⟨width, trivial, _, rfl, variants, hvariants, _, rfl, hdefinition, rfl⟩

/-- What follows the tag is a definition of the kind that the tag stands for. -/
theorem exact_body (kind : Kind) : Exact (Reader.body kind) bodyOctets
    (fun definition => DefinitionFits definition ∧ definition.kind = kind) := by
  intro input definition rest
  constructor
  · intro h
    -- each kind has readers that have been opened above
    cases kind with
    | primitive =>
      obtain ⟨size, -, rfl, rfl⟩ := exact_octet.run_map.mp h
      exact ⟨⟨trivial, rfl⟩, rfl⟩
    | sequence =>
      obtain ⟨width, lengths, elements, helements, rfl, rfl⟩ := run_sequence.mp h
      exact ⟨⟨helements, rfl⟩, rfl⟩
    | tuple =>
      obtain ⟨elements, helements, rfl, rfl⟩ := exact_text.list.run_map.mp h
      exact ⟨⟨helements, rfl⟩, rfl⟩
    | enum =>
      obtain ⟨width, variants, hvariants, rfl, rfl⟩ := run_enum.mp h
      exact ⟨⟨hvariants, rfl⟩, rfl⟩
    | struct =>
      obtain ⟨fields, hfields, rfl, rfl⟩ := exact_fields.run_map.mp h
      exact ⟨⟨hfields, rfl⟩, rfl⟩
  · rintro ⟨⟨hfits, rfl⟩, rfl⟩
    cases definition with
    | primitive size => exact exact_octet.run_map.mpr ⟨size, trivial, rfl, rfl⟩
    | sequence width lengths elements =>
      exact run_sequence.mpr ⟨width, lengths, elements, hfits, rfl, rfl⟩
    | tuple elements => exact exact_text.list.run_map.mpr ⟨elements, hfits, rfl, rfl⟩
    | enum width variants => exact run_enum.mpr ⟨width, variants, hfits, rfl, rfl⟩
    | struct fields => exact exact_fields.run_map.mpr ⟨fields, hfits, rfl, rfl⟩

/-- A tag stands for one kind only. -/
theorem ordinal_of_ofOrdinal?_eq_some {tag : UInt8} {kind : Kind}
    (h : Kind.ofOrdinal? tag = some kind) : kind.ordinal = tag := by
  rw [Kind.ofOrdinal?] at h
  repeat' split at h
  all_goals cases h
  all_goals exact Eq.symm ‹_›

/-- **A definition** is a tag and what belongs to the kind that it stands for. -/
theorem exact_definition : Exact Reader.definition definitionOctets DefinitionFits := by
  intro input definition rest
  rw [Reader.definition, exact_octet.run_bind]
  constructor
  · rintro ⟨tag, -, later, rfl, h⟩
    -- a tag that stands for no kind is a fault
    cases hkind : Kind.ofOrdinal? tag with
    | none =>
      rw [hkind] at h
      cases h
    | some kind =>
      rw [hkind] at h
      obtain ⟨⟨hfits, rfl⟩, rfl⟩ := (exact_body kind _ _ _).mp h
      exact ⟨hfits, by rw [← ordinal_of_ofOrdinal?_eq_some hkind]; rfl⟩
  · rintro ⟨hfits, rfl⟩
    refine ⟨definition.kind.ordinal, trivial, _, rfl, ?_⟩
    rw [Kind.ofOrdinal?_ordinal]
    exact (exact_body definition.kind _ _ _).mpr ⟨⟨hfits, rfl⟩, rfl⟩

/-- **An entry** is a name and a definition. -/
theorem exact_entry : Exact Reader.entry entryOctets EntryFits := by
  intro input entry rest
  simp only [Reader.entry, exact_text.run_bind, exact_definition.run_bind, run_pure]
  constructor
  · rintro ⟨name, hname, _, rfl, definition, hdefinition, _, rfl, rfl, rfl⟩
    exact ⟨⟨hname, hdefinition⟩, (List.append_assoc _ _ _).symm⟩
  · rintro ⟨⟨hname, hdefinition⟩, rfl⟩
    exact ⟨entry.1, hname, _, List.append_assoc _ _ _, entry.2, hdefinition, _, rfl, rfl, rfl⟩

end WireBindings.Wire
