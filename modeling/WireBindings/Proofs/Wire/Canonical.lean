import Mathlib.Data.List.Flatten
import WireBindings.Compile
import WireBindings.Proofs.Schema.Tables
import WireBindings.Proofs.Wire.Exact

/-!
# Reading and writing containers

A container is read from exactly those octets that are the layout of a root declaration with some
entries (`decode_eq_ok_iff`): nothing else is accepted, and nothing of this form is refused, however
the entries are ordered and whichever names they repeat. What is read is the container of these
entries, in ascending order.

So writing is canonical. A container that was written is read back in ascending order, and two
containers are written by the same octets exactly if they agree but for the order of their
definitions (`decodeContainer_encode`). Reading followed by writing normalises: it leaves octets
alone if their names ascend, makes them never longer, and doing it twice is doing it once
(`decodeContainer_layout`).
-/

namespace WireBindings

namespace Wire

variable {octets : List UInt8} {container : Container} {declaration : String}
  {entries : List (String × Definition)}

/-! ### Layouts -/

/-- A layout tells what it is the layout of. -/
theorem layout_injective {declaration' : String} {entries' : List (String × Definition)}
    (hdeclaration : TextFits declaration) (hentries : ListFits EntryFits entries)
    (hdeclaration' : TextFits declaration') (hentries' : ListFits EntryFits entries')
    (h : layout declaration entries = layout declaration' entries') :
    declaration = declaration' ∧ entries = entries' := by
  -- the declaration comes first, and then the list of the entries is all that is left
  obtain ⟨hsame, hrest⟩ := exact_text.unique hdeclaration hdeclaration' h
  have hlists : listOctets entryOctets entries ++ [] = listOctets entryOctets entries' ++ [] := by
    rw [hrest]
  exact ⟨hsame, (exact_entry.list.unique hentries hentries' hlists).1⟩

/-- The reader of containers takes a layout from the front of the input. -/
theorem run_container {input rest : List UInt8} :
    Reader.container input = .ok (container, rest) ↔
      ∃ declaration entries, TextFits declaration ∧ ListFits EntryFits entries ∧
        input = layout declaration entries ++ rest ∧
        container = ⟨declaration, (Definitions.ofEntries entries).sorted⟩ := by
  simp only [Reader.container, exact_text.run_bind, exact_entry.list.run_bind, run_pure]
  constructor
  · rintro ⟨declaration, hdeclaration, _, rfl, entries, hentries, _, rfl, rfl, rfl⟩
    exact ⟨declaration, entries, hdeclaration, hentries, (List.append_assoc _ _ _).symm, rfl⟩
  · rintro ⟨declaration, entries, hdeclaration, hentries, rfl, rfl⟩
    exact ⟨declaration, hdeclaration, _, List.append_assoc _ _ _, entries, hentries, rest, rfl, rfl,
      rfl⟩

/-- Octets are a container if the reader leaves nothing of them. -/
theorem decode_eq_ok_iff_run :
    decode octets = .ok container ↔ Reader.container octets = .ok (container, []) := by
  rw [decode, bind_eq_ok_iff, Prod.exists]
  constructor
  · rintro ⟨found, rest, hread, hend⟩
    -- nothing may be left behind the last entry
    cases rest with
    | cons octet rest => cases hend
    | nil =>
      cases hend
      exact hread
  · intro hread
    exact ⟨container, [], hread, rfl⟩

/-- **What is accepted**: the layouts, all of them and nothing else. -/
theorem decode_eq_ok_iff : decode octets = .ok container ↔
    ∃ declaration entries, TextFits declaration ∧ ListFits EntryFits entries ∧
      octets = layout declaration entries ∧
      container = ⟨declaration, (Definitions.ofEntries entries).sorted⟩ := by
  simp only [decode_eq_ok_iff_run, run_container, List.append_nil]

/-- Entries that ascend on the wire are read as they stand. -/
theorem decode_of_ascending {declaration : String} {entries : List (String × Definition)}
    (hdeclaration : TextFits declaration) (hentries : ListFits EntryFits entries)
    (h : Ascending entries) :
    decode (layout declaration entries) = .ok ⟨declaration, Definitions.ofEntries entries⟩ :=
  decode_eq_ok_iff.mpr ⟨declaration, entries, hdeclaration, hentries, rfl,
    congrArg _ (Definitions.sorted_ofEntries h).symm⟩

/-! ### Sorted containers -/

/-- In another order, or with elements left out, a list still fits. -/
theorem ListFits.subperm {α : Type} {fits : α → Prop} {elements others : List α}
    (h : ListFits fits elements) (hsub : others.Subperm elements) : ListFits fits others :=
  ⟨Nat.lt_of_le_of_lt hsub.length_le h.1, fun element hmem => h.2 element (hsub.subset hmem)⟩

/-- A table fits the wire in whatever order. -/
theorem listFits_sorted {table : Definitions} :
    ListFits EntryFits table.sorted.entries ↔ ListFits EntryFits table.entries :=
  ⟨fun h => h.subperm table.perm_sorted.symm.subperm, fun h => h.subperm table.perm_sorted.subperm⟩

/-- What was written is read back in ascending order. -/
theorem decode_encode (h : ContainerFits container) :
    decode (encode container) = .ok ⟨container.declaration, container.definitions.sorted⟩ := by
  refine decode_eq_ok_iff.mpr ⟨_, _, h.1, listFits_sorted.mpr h.2, rfl, ?_⟩
  -- what was written repeats no name, so its entries make up the table again
  have htable : Definitions.ofEntries container.definitions.sorted.entries =
      container.definitions.sorted := by
    ext1
    exact Definitions.entries_ofEntries container.definitions.sorted.nodup
  rw [htable, Definitions.sorted_sorted]

theorem encode_of_ascending (h : Ascending container.definitions.entries) :
    encode container = layout container.declaration container.definitions.entries := by
  rw [encode, Definitions.sorted_eq_of_ascending h]

/-- **Canonical encoding**: all that is forgotten is the order of the definitions. -/
theorem encode_eq_encode_iff {other : Container} (h : ContainerFits container)
    (hother : ContainerFits other) : encode container = encode other ↔
      container.declaration = other.declaration ∧
        ∀ name, container.get? name = other.get? name := by
  constructor
  · intro heq
    obtain ⟨hdeclaration, hentries⟩ := layout_injective h.1 (listFits_sorted.mpr h.2) hother.1
      (listFits_sorted.mpr hother.2) heq
    refine ⟨hdeclaration, Definitions.perm_entries_iff.mp ?_⟩
    exact container.definitions.perm_sorted.symm.trans
      (hentries ▸ other.definitions.perm_sorted)
  · rintro ⟨hdeclaration, hsame⟩
    -- the same entries have only one ascending order
    have hentries : container.definitions.sorted.entries = other.definitions.sorted.entries :=
      container.definitions.ascending_sorted.eq_of_perm other.definitions.ascending_sorted
        (container.definitions.perm_sorted.trans ((Definitions.perm_entries_iff.mpr hsame).trans
          other.definitions.perm_sorted.symm))
    rw [encode, encode, hdeclaration, hentries]

/-! ### Normalising octets -/

/-- Of the entries on the wire, those that count are read, in ascending order. -/
theorem subperm_sorted_ofEntries (entries : List (String × Definition)) :
    (Definitions.ofEntries entries).sorted.entries.Subperm entries :=
  -- without repetitions, a part of the entries is one that has no others
  (Definitions.perm_sorted _).subperm.trans <|
    List.subperm_of_subset (Definitions.nodup_entries _) fun _ => Definitions.mem_of_mem_ofEntries

/-- With fewer entries a layout is shorter. -/
theorem length_layout_le {others : List (String × Definition)} (h : others.Subperm entries) :
    (layout declaration others).length ≤ (layout declaration entries).length := by
  obtain ⟨kept, hperm, hsub⟩ := h
  have hlength : (others.flatMap entryOctets).length ≤ (entries.flatMap entryOctets).length :=
    calc (others.flatMap entryOctets).length
      _ = (kept.flatMap entryOctets).length := (hperm.flatMap_right entryOctets).length_eq.symm
      _ ≤ (entries.flatMap entryOctets).length := (hsub.flatMap entryOctets).length_le
  simp only [layout, listOctets, List.length_append, length_toOctets]
  omega

/-- What was read fits, and is in ascending order already. -/
theorem fits_of_decode (h : decode octets = .ok container) :
    ContainerFits container ∧ Ascending container.definitions.entries := by
  obtain ⟨declaration, entries, hdeclaration, hentries, rfl, rfl⟩ := decode_eq_ok_iff.mp h
  exact ⟨⟨hdeclaration, hentries.subperm (subperm_sorted_ofEntries entries)⟩,
    Definitions.ascending_sorted _⟩

/-- What was read is read again after it has been written. -/
theorem decode_encode_of_decode (h : decode octets = .ok container) :
    decode (encode container) = .ok container := by
  obtain ⟨hfits, hascending⟩ := fits_of_decode h
  rw [decode_encode hfits, Definitions.sorted_eq_of_ascending hascending]

/-- Writing what was read takes no more octets than were read. -/
theorem length_encode_le_of_decode (h : decode octets = .ok container) :
    (encode container).length ≤ octets.length := by
  obtain ⟨-, hascending⟩ := fits_of_decode h
  obtain ⟨declaration, entries, -, -, rfl, rfl⟩ := decode_eq_ok_iff.mp h
  rw [encode_of_ascending hascending]
  -- entries that have been replaced are written no more
  exact length_layout_le (subperm_sorted_ofEntries entries)

/-- Writing what was read gives the same octets exactly if the names on the wire ascend. -/
theorem encode_eq_iff_of_decode (hdeclaration : TextFits declaration)
    (hentries : ListFits EntryFits entries)
    (h : decode (layout declaration entries) = .ok container) :
    encode container = layout declaration entries ↔ Ascending entries := by
  obtain ⟨hfits, hascending⟩ := fits_of_decode h
  obtain ⟨declaration', entries', hdeclaration', hentries', hlayout, rfl⟩ := decode_eq_ok_iff.mp h
  obtain ⟨rfl, rfl⟩ :=
    layout_injective hdeclaration hentries hdeclaration' hentries' hlayout
  -- both sides are layouts now, so the question is when the entries are the same
  rw [encode_of_ascending hascending]
  constructor
  · intro heq
    obtain ⟨-, hsame⟩ := layout_injective hdeclaration hfits.2 hdeclaration hentries heq
    rwa [← hsame]
  · intro hentriesAscend
    -- no name is repeated, so no entry is lost, and none changes its place
    rw [Definitions.sorted_ofEntries hentriesAscend,
      Definitions.entries_ofEntries hentriesAscend.nodup_names]

end Wire

open Wire

/-- What is read is what the wire says. -/
theorem decodeContainer_eq_ok_iff {octets : List UInt8} {container : Container} :
    decodeContainer octets = .ok container ↔ decode octets = .ok container :=
  mapError_eq_ok_iff

/-- **Writing is undone by reading, up to the order of definitions, and is canonical.** Whatever
fits the wire is read back with the same root and the same entries, in ascending order. Two
containers have the same octets exactly if they have the same root and define the same names in
the same way, in whatever order. -/
theorem decodeContainer_encode (container : Container) (h : ContainerFits container) :
    (∃ found, decodeContainer (encode container) = .ok found ∧ found.SortedFrom container) ∧
    ∀ other, ContainerFits other →
      (encode container = encode other ↔ container.declaration = other.declaration ∧
        ∀ name, container.get? name = other.get? name) := by
  -- the container that is found is the sorted one, of which there is one only
  refine ⟨⟨_, ?_, Container.sortedFrom_iff.mpr rfl⟩, fun other hother => ?_⟩
  · exact decodeContainer_eq_ok_iff.mpr (decode_encode h)
  · exact encode_eq_encode_iff h hother

/-- Definitions of all kinds, not in ascending order. -/
def mixedItems : Container where
  declaration := "Order"
  definitions := Definitions.ofEntries [
    ("été", .sequence 4 ⟨9, 2⟩ "Item"),
    ("Order", .struct (.named [⟨"label", "Label"⟩, ⟨"items", "été"⟩])),
    ("Label", .enum 1 [⟨-1, "Short", "()"⟩, ⟨7, "Long", "None"⟩]),
    ("None", .struct (.unnamed [])),
    ("Item", .tuple ["u8", "Order"]),
    ("u8", .primitive 1)]

/-- The items are read back in ascending order. Their order does not show in the octets, but each
definition does. -/
theorem decodeContainer_encode_mixedItems :
    ContainerFits mixedItems ∧
    (∃ found, decodeContainer (encode mixedItems) = .ok found ∧ found.declaration = "Order" ∧
      found.definitions.names = ["Item", "Label", "None", "Order", "u8", "été"]) ∧
    encode mixedItems = encode { mixedItems with
      definitions := Definitions.ofEntries mixedItems.definitions.entries.reverse } ∧
    encode mixedItems ≠ encode (mixedItems.insert "None" (.struct .empty)) := by
  have hfits : ContainerFits mixedItems := by decide
  obtain ⟨⟨found, hfound, hsorted⟩, hsame⟩ := decodeContainer_encode mixedItems hfits
  refine ⟨hfits, ⟨found, hfound, hsorted.declaration, ?_⟩, ?_, fun heq => ?_⟩
  · have hentries : found.definitions.entries = [
        ("Item", .tuple ["u8", "Order"]),
        ("Label", .enum 1 [⟨-1, "Short", "()"⟩, ⟨7, "Long", "None"⟩]),
        ("None", .struct (.unnamed [])),
        ("Order", .struct (.named [⟨"label", "Label"⟩, ⟨"items", "été"⟩])),
        ("u8", .primitive 1),
        ("été", .sequence 4 ⟨9, 2⟩ "Item")] :=
      hsorted.ascending.eq_of_perm (by decide) (hsorted.perm.trans (by decide))
    rw [Definitions.names, hentries]
    rfl
  · exact (hsame _ (by decide)).mpr ⟨rfl, Definitions.perm_entries_iff.mp (by decide)⟩
  · exact absurd (((hsame _ (by decide)).mp heq).2 "None") (by decide)

/-- **Reading accepts the layouts and nothing else, and writing normalises what was read.** Octets
are read as a container exactly if they are the layout of a root declaration and of entries, in any
order and with any repetition; the container is the one made by inserting the entries one after the
other, so that the last one of a name counts, with its definitions in ascending order. Written
again, it takes no more octets, it is read again as it was, and the octets are the same exactly if
the names on the wire strictly ascend. -/
theorem decodeContainer_layout (octets : List UInt8) (container : Container) :
    (decodeContainer octets = .ok container ↔
      ∃ declaration entries, TextFits declaration ∧ ListFits EntryFits entries ∧
        octets = layout declaration entries ∧
        container.SortedFrom (entries.foldl (fun made entry => made.insert entry.1 entry.2)
          (Container.ofDeclaration declaration))) ∧
    (decodeContainer octets = .ok container →
      (encode container).length ≤ octets.length ∧
      decodeContainer (encode container) = .ok container ∧
      ∀ declaration entries, TextFits declaration → ListFits EntryFits entries →
        octets = layout declaration entries →
        (encode container = octets ↔ Ascending entries)) := by
  simp only [decodeContainer_eq_ok_iff]
  refine ⟨?_, fun h => ⟨length_encode_le_of_decode h, decode_encode_of_decode h, ?_⟩⟩
  · simp only [Container.foldl_insert, Container.sortedFrom_iff]
    exact decode_eq_ok_iff
  · rintro declaration entries hdeclaration hentries rfl
    exact encode_eq_iff_of_decode hdeclaration hentries h

/-- The octets of three entries, of which the first and the last have the same name. -/
def repeatedName : List UInt8 :=
  [1, 0, 0, 0, 98, 3, 0, 0, 0,
    1, 0, 0, 0, 98, 0, 1,
    1, 0, 0, 0, 97, 2, 0, 0, 0, 0,
    1, 0, 0, 0, 98, 0, 2]

/-- What is read from them: the last entry of the repeated name counts. -/
def lastOfName : Container where
  declaration := "b"
  definitions := Definitions.ofEntries [("a", .tuple []), ("b", .primitive 2)]

/-- Entries out of order are read, and what is written then is not what was read. -/
theorem decodeContainer_repeatedName :
    decodeContainer repeatedName = .ok lastOfName ∧
      (encode lastOfName).length ≤ repeatedName.length ∧
      decodeContainer (encode lastOfName) = .ok lastOfName ∧ encode lastOfName ≠ repeatedName := by
  have hread : decodeContainer repeatedName = .ok lastOfName :=
    (decodeContainer_layout repeatedName lastOfName).1.mpr
      ⟨"b", [("b", .primitive 1), ("a", .tuple []), ("b", .primitive 2)], by decide, by decide,
        by decide, rfl, by decide, by decide⟩
  obtain ⟨hlength, hagain, hsame⟩ := (decodeContainer_layout repeatedName lastOfName).2 hread
  refine ⟨hread, hlength, hagain, fun heq => ?_⟩
  have hascending := (hsame "b" [("b", .primitive 1), ("a", .tuple []), ("b", .primitive 2)]
    (by decide) (by decide) (by decide)).mp heq
  exact absurd hascending (by decide)

end WireBindings
