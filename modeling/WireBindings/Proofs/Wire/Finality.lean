import WireBindings.Proofs.Wire.Canonical

/-!
# Cutting input short and adding to it

A container is read from front to back. So what has been read of the front of the input stands,
whatever follows, and so does a fault, unless it is that the input ends (`Steady`). Every reader is
steady, since sequences of steady readers are (`Steady.bind`), up to the reader of containers
(`steady_container`).

From this alone it follows where the ends of containers are (`decodeContainer_prefix_free`). No
container begins another one: cut short, it ends too early, and with more behind it something is
left over. Input with something left over begins with exactly one container. All other faults are
final: no continuation of the input mends them.
-/

namespace WireBindings

namespace Wire

open Text

variable {α β : Type} {reader : Reader α} {next : α → Reader β}

/-! ### Steady readers -/

/-- What the reader makes of the input stands if more input follows, except that the end of the
input is no longer the end. That anything is left over is not for the reader to say. -/
structure Steady (reader : Reader α) : Prop where
  /-- The same value is read, and what was left has more behind it. -/
  ok : ∀ {input value rest}, reader input = .ok (value, rest) →
    ∀ more, reader (input ++ more) = .ok (value, rest ++ more)
  /-- The same fault is met. -/
  final : ∀ {input fault}, reader input = .error fault → fault ≠ .endOfInput →
    ∀ more, reader (input ++ more) = .error fault
  /-- The fault is another one. -/
  notLeftOver : ∀ {input}, reader input ≠ .error .leftOver

/-- To take nothing is steady. -/
theorem Steady.pure (value : α) : Steady (pure value : Reader α) where
  ok h more := by
    obtain ⟨rfl, rfl⟩ := run_pure.mp h
    rfl
  final h := nomatch h
  notLeftOver h := nomatch h

/-- So is a fault, unless it is that something is left over. -/
theorem Steady.throw {fault : Fault} (hfault : fault ≠ .leftOver) :
    Steady (throw fault : Reader α) where
  ok h := nomatch h
  final h _ _ := h
  notLeftOver h := hfault (Except.error.inj h)

/-- **Steady readers in sequence** are steady. -/
theorem Steady.bind (h : Steady reader) (hnext : ∀ value, Steady (next value)) :
    Steady (reader >>= next) where
  ok {input value rest} hread more := by
    change (reader input >>= fun result => next result.1 result.2) = .ok (value, rest) at hread
    obtain ⟨⟨first, middle⟩, hfirst, hrest⟩ := bind_eq_ok_iff.mp hread
    change (reader (input ++ more) >>= fun result => next result.1 result.2) = _
    rw [h.ok hfirst more]
    exact (hnext first).ok hrest more
  final {input fault} hread hfault more := by
    change (reader input >>= fun result => next result.1 result.2) = .error fault at hread
    change (reader (input ++ more) >>= fun result => next result.1 result.2) = _
    rcases bind_eq_error_iff.mp hread with hfirst | ⟨⟨first, middle⟩, hfirst, hrest⟩
    · rw [h.final hfirst hfault more]
      rfl
    · rw [h.ok hfirst more]
      exact (hnext first).final hrest hfault more
  notLeftOver {input} hread := by
    change (reader input >>= fun result => next result.1 result.2) = .error .leftOver at hread
    rcases bind_eq_error_iff.mp hread with hfirst | ⟨⟨first, middle⟩, hfirst, hrest⟩
    · exact h.notLeftOver hfirst
    · exact (hnext first).notLeftOver hrest

theorem Steady.map (h : Steady reader) (f : α → β) : Steady (f <$> reader) :=
  h.bind fun value => Steady.pure (f value)

/-- Where a reader needs more than a part of its input, the part ends too early. -/
theorem Steady.eq_endOfInput (h : Steady reader) {shorter more rest : List UInt8} {value : α}
    (hread : reader (shorter ++ more) = .ok (value, rest)) (hlong : rest.length < more.length) :
    reader shorter = .error .endOfInput := by
  cases hshorter : reader shorter with
  | ok result =>
    -- then all of `more` would be left over
    obtain ⟨early, left⟩ := result
    have hsame := (h.ok hshorter more).symm.trans hread
    obtain ⟨-, rfl⟩ := Prod.mk.inj (Except.ok.inj hsame)
    rw [List.length_append] at hlong
    omega
  | error fault =>
    by_contra hfault
    have hfinal := h.final hshorter (fun heq => hfault (congrArg _ heq)) more
    rw [hread] at hfinal
    cases hfinal

/-! ### The readers of a container -/

/-- A reader that knows no other fault than the end of the input is steady if what it has read
stands. -/
theorem Steady.of_endOfInput
    (hok : ∀ {input value rest}, reader input = .ok (value, rest) →
      ∀ more, reader (input ++ more) = .ok (value, rest ++ more))
    (hfault : ∀ {input fault}, reader input = .error fault → fault = .endOfInput) :
    Steady reader where
  ok := hok
  final h hne := absurd (hfault h) hne
  notLeftOver h := nomatch hfault h

/-- An octet is read steadily: it is there whatever follows it. -/
theorem steady_octet : Steady Reader.octet := by
  refine .of_endOfInput (fun {input octet rest} h more => ?_) fun {input fault} h => ?_
  · obtain ⟨-, rfl⟩ := (exact_octet _ _ _).mp h
    rfl
  · cases input with
    | nil =>
      cases h
      rfl
    | cons octet later => cases h

/-- Several octets are read steadily, as many as there are to be. -/
theorem steady_octets (count : Nat) : Steady (Reader.octets count) := by
  refine .of_endOfInput (fun {input octets rest} h more => ?_) fun {input fault} h => ?_
  · obtain ⟨hlength, rfl⟩ := (exact_octets count _ _ _).mp h
    rw [exact_octets]
    exact ⟨hlength, List.append_assoc _ _ _⟩
  · change (if (input.take count).length = count then Except.ok (input.take count, input.drop count)
      else Except.error Fault.endOfInput) = .error fault at h
    split at h
    · cases h
    · cases h
      rfl

theorem steady_number (width : Nat) : Steady (Reader.number width) := (steady_octets width).map _

/-- Texts are read steadily, since their octets alone decide whether they are UTF-8. -/
theorem steady_text : Steady Reader.text := by
  refine (steady_number 4).bind fun length => (steady_octets length).bind fun octets => ?_
  cases Utf8.decode octets with
  | ok text => exact .pure text
  | error why => exact .throw nofun

/-- Several elements are read steadily if each of them is. -/
theorem steady_many (h : Steady reader) (count : Nat) : Steady (Reader.many reader count) := by
  induction count with
  | zero => exact .pure []
  | succ count ih => exact h.bind fun first => ih.bind fun rest => .pure (first :: rest)

theorem Steady.list (h : Steady reader) : Steady (Reader.list reader) :=
  (steady_number 4).bind (steady_many h)

theorem steady_namedField : Steady Reader.namedField :=
  steady_text.bind fun _ => steady_text.bind fun _ => .pure _

/-- The fields of a struct are read steadily, whatever their tag. -/
theorem steady_fields : Steady Reader.fields := by
  refine steady_octet.bind fun tag => ?_
  split_ifs
  · exact steady_namedField.list.map _
  · exact steady_text.list.map _
  · exact .pure _
  · exact .throw nofun

theorem steady_variant : Steady Reader.variant :=
  (steady_number 8).bind fun _ => steady_text.bind fun _ => steady_text.bind fun _ => .pure _

/-- What belongs to a definition is read steadily, whatever its kind. -/
theorem steady_body (kind : Kind) : Steady (Reader.body kind) := by
  cases kind with
  | primitive => exact steady_octet.map _
  | sequence =>
    exact steady_octet.bind fun _ => (steady_number 8).bind fun _ => (steady_number 8).bind fun _ =>
      steady_text.bind fun _ => .pure _
  | tuple => exact steady_text.list.map _
  | enum => exact steady_octet.bind fun _ => steady_variant.list.bind fun _ => .pure _
  | struct => exact steady_fields.map _

/-- Definitions are read steadily. -/
theorem steady_definition : Steady Reader.definition := by
  refine steady_octet.bind fun tag => ?_
  cases Kind.ofOrdinal? tag with
  | some kind => exact steady_body kind
  | none => exact .throw nofun

theorem steady_entry : Steady Reader.entry :=
  steady_text.bind fun _ => steady_definition.bind fun _ => .pure _

/-- **Containers are read steadily.** -/
theorem steady_container : Steady Reader.container :=
  steady_text.bind fun _ => steady_entry.list.bind fun _ => .pure _

/-! ### Octets cut short, and octets added -/

variable {octets shorter more : List UInt8} {container : Container} {fault : Fault}

/-- Octets are no container if the reader meets a fault, or if it leaves some of them. -/
theorem decode_eq_error_iff : decode octets = .error fault ↔
    Reader.container octets = .error fault ∨
      fault = .leftOver ∧ ∃ container rest, rest ≠ [] ∧
        Reader.container octets = .ok (container, rest) := by
  rw [decode, bind_eq_error_iff, Prod.exists]
  refine or_congr_right ⟨?_, ?_⟩
  -- with nothing left the octets are a container, otherwise there is this fault
  · rintro ⟨container, rest, hread, hend⟩
    cases rest with
    | nil => cases hend
    | cons octet rest =>
      cases hend
      exact ⟨rfl, container, _, List.cons_ne_nil _ _, hread⟩
  · rintro ⟨rfl, container, rest, hrest, hread⟩
    obtain ⟨octet, rest, rfl⟩ := List.exists_cons_of_ne_nil hrest
    exact ⟨container, _, hread, rfl⟩

/-- Something is left over if the reader leaves some of the octets. -/
theorem decode_eq_leftOver_iff : decode octets = .error .leftOver ↔
    ∃ container rest, rest ≠ [] ∧ Reader.container octets = .ok (container, rest) := by
  rw [decode_eq_error_iff]
  refine ⟨fun h => ?_, fun h => .inr ⟨rfl, h⟩⟩
  exact (h.resolve_left steady_container.notLeftOver).2

/-- **A container cut short ends too early.** -/
theorem decode_of_append_eq_ok (h : decode (shorter ++ more) = .ok container) (hmore : more ≠ []) :
    decode shorter = .error .endOfInput := by
  -- the whole has nothing left over, so the reader needs more than the front part
  refine decode_eq_error_iff.mpr (.inl ?_)
  exact steady_container.eq_endOfInput (decode_eq_ok_iff_run.mp h) (List.length_pos_of_ne_nil hmore)

/-- **Behind a container something is left over.** -/
theorem decode_append_of_eq_ok (h : decode octets = .ok container) (hmore : more ≠ []) :
    decode (octets ++ more) = .error .leftOver :=
  decode_eq_leftOver_iff.mpr
    ⟨container, more, hmore, steady_container.ok (decode_eq_ok_iff_run.mp h) more⟩

/-- Input with something left over begins with a container. -/
theorem exists_of_leftOver (h : decode octets = .error .leftOver) :
    ∃ front rest container, octets = front ++ rest ∧ rest ≠ [] ∧ decode front = .ok container := by
  obtain ⟨container, rest, hrest, hread⟩ := decode_eq_leftOver_iff.mp h
  obtain ⟨declaration, entries, hdeclaration, hentries, rfl, hcontainer⟩ := run_container.mp hread
  -- what the reader has taken is the layout of a container
  exact ⟨layout declaration entries, rest, container, rfl, hrest,
    decode_eq_ok_iff.mpr ⟨declaration, entries, hdeclaration, hentries, rfl, hcontainer⟩⟩

/-- **Other faults than the end of the input are final.** -/
theorem decode_append_of_eq_error (h : decode octets = .error fault) (hfault : fault ≠ .endOfInput)
    (more : List UInt8) : decode (octets ++ more) = .error fault := by
  rcases decode_eq_error_iff.mp h with hread | ⟨rfl, container, rest, hrest, hread⟩
  · exact decode_eq_error_iff.mpr (.inl (steady_container.final hread hfault more))
  · refine decode_eq_leftOver_iff.mpr ⟨container, rest ++ more, ?_, steady_container.ok hread more⟩
    exact List.append_ne_nil_of_left_ne_nil hrest more

/-- Of two containers neither begins the other. -/
theorem eq_of_isPrefix {longer : List UInt8} {other : Container} (h : decode octets = .ok container)
    (hlonger : decode longer = .ok other) (hbegins : octets <+: longer) : octets = longer := by
  obtain ⟨more, rfl⟩ := hbegins
  by_contra hne
  have hmore : more ≠ [] := by
    rintro rfl
    exact hne (List.append_nil octets).symm
  -- if they were not the same, the shorter would end too early
  rw [decode_of_append_eq_ok hlonger hmore] at h
  cases h

end Wire

open Wire

/-- The faults of containers are those of the wire. -/
theorem decodeContainer_eq_error_iff {octets : List UInt8} {fault : Fault} :
    decodeContainer octets = .error fault ↔
      ∃ why, decode octets = .error why ∧ .decode why = fault :=
  mapError_eq_error_iff

/-- **Where containers end.** No container begins another one: cut short anywhere it ends too early,
and with anything behind it something is left over. If something is left over, then the input begins
with exactly one container. Every other fault but the end of the input is final: it stays the same,
whatever follows. The two faults are reported in these words. -/
theorem decodeContainer_prefix_free (octets : List UInt8) :
    (∀ container, decodeContainer octets = .ok container →
      (∀ shorter, shorter <+: octets → shorter ≠ octets →
        decodeContainer shorter = .error (.decode .endOfInput)) ∧
      ∀ longer, octets <+: longer → longer ≠ octets →
        decodeContainer longer = .error (.decode .leftOver)) ∧
    (decodeContainer octets = .error (.decode .leftOver) →
      ∃! shorter, (shorter <+: octets ∧ shorter ≠ octets) ∧
        ∃ container, decodeContainer shorter = .ok container) ∧
    (∀ fault, decodeContainer octets = .error fault → fault ≠ .decode .endOfInput →
      ∀ longer, octets <+: longer → decodeContainer longer = .error fault) ∧
    Wire.Fault.message .endOfInput = "Unexpected length of input" ∧
    Wire.Fault.message .leftOver = "Not all bytes read" := by
  simp only [decodeContainer_eq_ok_iff, decodeContainer_eq_error_iff, Fault.decode.injEq,
    exists_eq_right]
  refine ⟨fun container h => ⟨?_, ?_⟩, fun h => ?_, ?_, rfl, rfl⟩
  · rintro shorter ⟨more, rfl⟩ hne
    exact decode_of_append_eq_ok h fun hmore => hne (by rw [hmore, List.append_nil])
  · rintro _ ⟨more, rfl⟩ hne
    exact decode_append_of_eq_ok h fun hmore => hne (by rw [hmore, List.append_nil])
  · obtain ⟨front, rest, container, rfl, hrest, hfront⟩ := exists_of_leftOver h
    refine ⟨front, ⟨⟨List.prefix_append front rest, ?_⟩, container, hfront⟩, ?_⟩
    · intro heq
      exact hrest (List.self_eq_append_right.mp heq)
    -- two beginnings of the same input begin each other, one way or the other
    · rintro shorter ⟨⟨hshorter, -⟩, other, hother⟩
      rcases List.prefix_or_prefix_of_prefix hshorter (List.prefix_append front rest) with hle | hle
      · exact eq_of_isPrefix hother hfront hle
      · exact (eq_of_isPrefix hfront hother hle).symm
  · rintro _ ⟨why, h, rfl⟩ hwhy _ ⟨more, rfl⟩
    exact ⟨why, decode_append_of_eq_error h (fun heq => hwhy (congrArg _ heq)) more, rfl⟩

/-- The octets of a measure in units of the given kind of definition. -/
def measureOctets (tag : UInt8) : List UInt8 :=
  [1, 0, 0, 0, 109, 1, 0, 0, 0, 4, 0, 0, 0, 117, 110, 105, 116, tag, 8]

/-- What is read from them if the tag is that of a primitive. -/
def measure : Container where
  declaration := "m"
  definitions := Definitions.ofEntries [("unit", .primitive 8)]

/-- A measure can be cut inside a name or continued. An unknown tag is not mended by anything. -/
theorem decodeContainer_measure :
    decodeContainer (measureOctets 0) = .ok measure ∧
      decodeContainer [1, 0, 0, 0, 109, 1, 0, 0, 0, 4, 0, 0, 0, 117, 110] =
        .error (.decode .endOfInput) ∧
      decodeContainer (measureOctets 0 ++ [0]) = .error (.decode .leftOver) ∧
      (∃! shorter, (shorter <+: measureOctets 0 ++ [0] ∧ shorter ≠ measureOctets 0 ++ [0]) ∧
        ∃ container, decodeContainer shorter = .ok container) ∧
      ∀ more, decodeContainer (measureOctets 9 ++ more) = .error (.decode (.unknownTag 9)) := by
  have hoctets : measureOctets 0 = layout "m" [("unit", .primitive 8)] := by decide
  have hread : decodeContainer (measureOctets 0) = .ok measure := by
    rw [decodeContainer_eq_ok_iff, hoctets]
    exact decode_of_ascending (by decide) (by decide) (by decide)
  have htag : decodeContainer (measureOctets 9) = .error (.decode (.unknownTag 9)) := rfl
  have hends := (decodeContainer_prefix_free (measureOctets 0)).1 measure hread
  have hleft : decodeContainer (measureOctets 0 ++ [0]) = .error (.decode .leftOver) :=
    hends.2 _ (List.prefix_append _ _) (by decide)
  refine ⟨hread, hends.1 _ (by decide) (by decide), hleft, ?_, fun more => ?_⟩
  · exact (decodeContainer_prefix_free _).2.1 hleft
  · exact (decodeContainer_prefix_free _).2.2.1 _ htag nofun _ (List.prefix_append _ _)

end WireBindings
