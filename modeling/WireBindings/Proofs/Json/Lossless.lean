import Mathlib.Data.Prod.Basic
import WireBindings.Compile
import WireBindings.Proofs.Json.Unambiguous
import WireBindings.Proofs.Wire.Canonical

/-!
# The dump of a container loses nothing

Each part of a container has a dump of its own, and each of these dumps determines what it was made
of, so the dump of the whole determines the container (`Container.dump_injective`). Since printed
JSON determines the value that was printed, so does the text of the dump. Look-alikes are told apart
by tags: a tuple from a struct whose fields have no names, and the three ways to write a struct
without fields from each other.
-/

namespace WireBindings

/-! ### Parts of a definition -/

theorem Json.tagged_inj {tag tag' : String} {content content' : Json} :
    Json.tagged tag content = Json.tagged tag' content' ↔ tag = tag' ∧ content = content' := by
  simp [Json.tagged]

/-- A list of texts tells the texts. -/
theorem Json.texts_injective :
    Function.Injective fun texts : List String => Json.list (texts.map .text) := by
  intro texts texts' h
  exact List.map_injective_iff.mpr (fun _ _ => Json.text.inj) (Json.list.inj h)

theorem NamedField.dump_injective : Function.Injective NamedField.dump := by
  rintro ⟨name, declaration⟩ ⟨name', declaration'⟩ h
  simpa [NamedField.dump] using h

/-- The dump of fields tells them, and which of the three kinds they are. -/
theorem Fields.dump_injective : Function.Injective Fields.dump := by
  intro fields other h
  cases fields with
  | named fields =>
    cases other with
    | named others =>
      have hfields := Json.list.inj (Json.tagged_inj.mp h).2
      rw [List.map_injective_iff.mpr NamedField.dump_injective hfields]
    -- the tags are different, whatever the fields
    | unnamed declarations => exact absurd (Json.tagged_inj.mp h).1 (by decide)
    | empty => cases h
  | unnamed declarations =>
    cases other with
    | named others => exact absurd (Json.tagged_inj.mp h).1 (by decide)
    | unnamed others => rw [Json.texts_injective (Json.tagged_inj.mp h).2]
    | empty => cases h
  | empty =>
    -- a mere text, where the others have an object
    cases other with
    | empty => rfl
    | _ => cases h

theorem Variant.dump_injective : Function.Injective Variant.dump := by
  rintro ⟨discriminant, name, declaration⟩ ⟨discriminant', name', declaration'⟩ h
  simpa [Variant.dump, Int64.toInt_inj] using h

theorem LengthRange.dump_injective : Function.Injective LengthRange.dump := by
  rintro ⟨first, last⟩ ⟨first', last'⟩ h
  simpa [LengthRange.dump, Int.natCast_inj, UInt64.toNat_inj] using h

/-! ### Definitions and containers -/

theorem Kind.name_injective : Function.Injective Kind.name := by
  intro kind kind' h
  cases kind <;> cases kind' <;> first | rfl | exact absurd h (by decide)

/-- **The dump of a definition tells the definition.** Its tag is the name of the kind, and each
kind has members of its own. -/
theorem Definition.dump_injective : Function.Injective Definition.dump := by
  intro definition other h
  obtain ⟨hname, hmembers⟩ := Json.tagged_inj.mp h
  have hkind : definition.kind = other.kind := Kind.name_injective hname
  have hmembers : definition.members = other.members := Json.object.inj hmembers
  -- both definitions are of the same kind, so the members are compared one by one
  cases definition with
  | primitive size =>
    cases other <;> cases hkind
    simpa [members, Int.natCast_inj, UInt8.toNat_inj] using hmembers
  | sequence lengthWidth lengths elements =>
    cases other <;> cases hkind
    simpa [members, Int.natCast_inj, UInt8.toNat_inj, LengthRange.dump_injective.eq_iff]
      using hmembers
  | tuple elements =>
    cases other <;> cases hkind
    simpa [members, Json.texts_injective.eq_iff] using hmembers
  | enum tagWidth variants =>
    cases other <;> cases hkind
    have hvariants : Function.Injective (List.map Variant.dump) :=
      List.map_injective_iff.mpr Variant.dump_injective
    simpa [members, Int.natCast_inj, UInt8.toNat_inj, hvariants.eq_iff] using hmembers
  | struct fields =>
    cases other <;> cases hkind
    simpa [members, Fields.dump_injective.eq_iff] using hmembers

/-- **The dump of a container determines the container**, the order of its definitions included. -/
theorem Container.dump_injective : Function.Injective Container.dump := by
  rintro ⟨declaration, ⟨entries, _⟩⟩ ⟨declaration', ⟨entries', _⟩⟩ h
  obtain ⟨rfl, hentries⟩ : declaration = declaration' ∧
      (entries.map fun entry => (entry.1, entry.2.dump)) =
        entries'.map fun entry => (entry.1, entry.2.dump) := by
    simpa [Container.dump] using h
  -- an entry is dumped as its name and the dump of its definition
  have hentry : Function.Injective fun entry : String × Definition => (entry.1, entry.2.dump) :=
    Function.Injective.prodMap Function.injective_id Definition.dump_injective
  obtain rfl : entries = entries' := List.map_injective_iff.mpr hentry hentries
  rfl

/-! ### The text of the dump -/

/-- A text is dumped if the octets are read, and it is that of the container. -/
theorem dumpText_eq_ok_iff {octets : List UInt8} {text : String} :
    dumpText octets = .ok text ↔
      ∃ container, decodeContainer octets = .ok container ∧ container.dump.pretty 0 = text := by
  rw [dumpText, bind_eq_ok_iff]
  simp only [pure, Except.pure, Except.ok.injEq]

/-- **The dump loses nothing, and fails when reading fails.** Octets that are read as containers
have dumps, which are the same text exactly if the containers are the same: in the declaration of
the root, and in the names, the order and the contents of all definitions. Octets without a dump
are those that are not read, and the fault is the same. -/
theorem dumpText_loses_nothing :
    (∀ (first second : List UInt8) (container other : Container),
      decodeContainer first = .ok container → decodeContainer second = .ok other →
      ∃ text text', dumpText first = .ok text ∧ dumpText second = .ok text' ∧
        (text = text' ↔ container = other)) ∧
    ∀ (octets : List UInt8) (fault : Fault),
      dumpText octets = .error fault ↔ decodeContainer octets = .error fault := by
  refine ⟨fun first second container other hfirst hsecond => ?_, fun octets fault => ?_⟩
  · refine ⟨_, _, dumpText_eq_ok_iff.mpr ⟨container, hfirst, rfl⟩,
      dumpText_eq_ok_iff.mpr ⟨other, hsecond, rfl⟩, fun htext => ?_, fun hsame => by rw [hsame]⟩
    exact Container.dump_injective (Json.pretty_injective 0 htext)
  · rw [dumpText, bind_eq_error_iff]
    simp only [pure, Except.pure, reduceCtorEq, and_false, exists_false, or_false]

/-- The octets of a struct without fields, of the kind that the tag says. -/
def fieldlessOctets (tag : UInt8) : List UInt8 :=
  [1, 0, 0, 0, 83, 1, 0, 0, 0, 1, 0, 0, 0, 83, 4, tag, 0, 0, 0, 0]

/-- The struct that is read from them. -/
def fieldless (fields : Fields) : Container :=
  (Container.ofDeclaration "S").insert "S" (.struct fields)

/-- Structs of no named and of no unnamed fields are dumped differently. The third kind has no count
of fields, so the octets of a count are left over and there is no dump. -/
theorem dumpText_fieldless :
    (decodeContainer (fieldlessOctets 0) = .ok (fieldless (.named [])) ∧
      decodeContainer (fieldlessOctets 1) = .ok (fieldless (.unnamed [])) ∧
      ∃ text text', dumpText (fieldlessOctets 0) = .ok text ∧
        dumpText (fieldlessOctets 1) = .ok text' ∧ text ≠ text') ∧
    dumpText (fieldlessOctets 2) = .error (.decode .leftOver) := by
  -- octets with a count are read as they are laid out
  have hread {tag : UInt8} {fields : Fields}
      (hoctets : fieldlessOctets tag = Wire.layout "S" [("S", .struct fields)])
      (hfits : Wire.ListFits Wire.EntryFits [("S", .struct fields)]) :
      decodeContainer (fieldlessOctets tag) = .ok (fieldless fields) := by
    rw [decodeContainer_eq_ok_iff, hoctets]
    exact Wire.decode_of_ascending (by decide) hfits (List.pairwise_singleton _ _)
  have hnamed : decodeContainer (fieldlessOctets 0) = .ok (fieldless (.named [])) :=
    hread (by decide) (by decide)
  have hunnamed : decodeContainer (fieldlessOctets 1) = .ok (fieldless (.unnamed [])) :=
    hread (by decide) (by decide)
  have hleft : decodeContainer (fieldlessOctets 2) = .error (.decode .leftOver) := rfl
  obtain ⟨text, text', htext, htext', hsame⟩ :=
    dumpText_loses_nothing.1 _ _ _ _ hnamed hunnamed
  refine ⟨⟨hnamed, hunnamed, text, text', htext, htext', fun heq => ?_⟩, ?_⟩
  · exact absurd (hsame.mp heq) (by decide)
  · exact (dumpText_loses_nothing.2 _ _).mpr hleft

end WireBindings
