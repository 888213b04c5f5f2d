import Mathlib.Logic.Basic
import Mathlib.Data.List.Induction
import Mathlib.Data.List.Nodup
import WireBindings.CommandLine.Spelling
import WireBindings.Proofs.Outcome

/-!
# What arguments ask for

The reader of arguments answers with a request exactly if the arguments are a way to make it
(`ofArguments?_eq_some_iff`), and so no arguments ask for two things.

Reading goes from left to right and keeps a list of what has been said. Two facts carry it: a front
part that writes items adds these items to the list and nothing else (`addAll_append`), and any
arguments are such a front part with something behind it that ends the reading (`exists_written`).
What has been added is taken in exactly if it is consistent (`foldlM_addItem`). Together they tell
how the reading ends (`addAll_cases`), and the rest looks up values among consistent items.
-/

namespace WireBindings.CommandLine

variable {verb : Verb} {text value : String} {item : Item} {items : List Item}
  {front rest arguments : List String}

/-! ### Single arguments -/

/-- A text that begins with the characters of another is that text and some more. -/
theorem eq_append_ofList (start : String) {chars : List Char}
    (h : text.toList = start.toList ++ chars) : text = start ++ String.ofList chars := by
  rw [← String.toList_inj, h, String.toList_append, String.toList_ofList]

/-- The check for help finds just the options for help. -/
theorem isHelpOption_iff : isHelpOption text ↔ HelpOption text := by
  rw [isHelpOption, Bool.or_eq_true, beq_iff_eq, List.isPrefixOf_iff_prefix]
  refine ⟨?_, ?_⟩
  · rintro (rfl | ⟨more, hmore⟩)
    · exact .long
    · rw [eq_append_ofList "-h" hmore.symm]
      exact .short _
  · rintro (_ | more)
    · exact .inl rfl
    · exact .inr ⟨more.toList, String.toList_append.symm⟩

/-- The check for a value finds just the ordinary values. -/
theorem isValue_iff : isValue text ↔ Ordinary text := by
  rw [isValue, Ordinary, Bool.or_eq_true, bne_iff_ne, beq_iff_eq]

/-- An option begins with a dash and goes on, so it is no ordinary value. -/
theorem not_ordinary {c : Char} {chars : List Char} (h : text.toList = '-' :: c :: chars) :
    ¬ Ordinary text := by
  rintro (hhead | rfl)
  · exact hhead (by rw [h]; rfl)
  · cases h

/-- A value never asks for help, so it does not matter which of the two is checked first. -/
theorem HelpOption.not_ordinary (h : HelpOption text) : ¬ Ordinary text := by
  cases h with
  | long => exact CommandLine.not_ordinary rfl
  | short more => exact CommandLine.not_ordinary (String.toList_append.trans rfl)

/-- The characters of an option with its value attached, as the reader takes them apart. -/
theorem Attached.toList_eq (h : Attached value text) :
    (∃ c chars, value.toList = c :: chars ∧ c ≠ '=' ∧ text.toList = '-' :: 'o' :: c :: chars) ∨
      text.toList = '-' :: 'o' :: '=' :: value.toList ∨
      text.toList = '-' :: '-' :: ("output=".toList ++ value.toList) := by
  cases h with
  | short hsome hequals =>
    cases hvalue : value.toList with
    | nil => exact absurd (String.toList_eq_nil_iff.mp hvalue) hsome
    | cons c chars =>
      rw [hvalue] at hequals
      refine .inl ⟨c, chars, rfl, fun h => hequals (congrArg some h), ?_⟩
      rw [String.toList_append, hvalue]
      rfl
  | equals => exact .inr (.inl String.toList_append)
  | long => exact .inr (.inr String.toList_append)

/-- The options that carry a value are those to which the value is attached. -/
theorem ofOption_eq_attached_iff :
    Argument.ofOption text.toList = .item (.output value) ↔ Attached value text := by
  refine ⟨fun h => ?_, fun h => ?_⟩
  · -- of the ways to be an option, three carry a value
    unfold Argument.ofOption at h
    split at h
    · next long hlong =>
      unfold Argument.ofLongOption at h
      split_ifs at h with hname hname hbegins
      · cases h
      · obtain ⟨chars, rfl⟩ := List.isPrefixOf_iff_prefix.mp hbegins
        cases h
        rw [List.drop_left, eq_append_ofList "--output=" hlong]
        exact .long
    · cases h
    · next chars hchars =>
      cases h
      rw [eq_append_ofList "-o=" hchars]
      exact .equals
    · next chars hempty hequals hchars =>
      cases h
      rw [eq_append_ofList "-o" hchars]
      -- the two ways before this one have taken an empty value and one behind an equals sign
      refine .short (fun h => hempty (String.ofList_eq_empty_iff.mp h)) ?_
      rw [String.toList_ofList]
      intro h
      obtain ⟨more, rfl⟩ := List.head?_eq_some_iff.mp h
      exact hequals more rfl
    · cases h
  · obtain ⟨c, chars, hvalue, hc, htext⟩ | htext | htext := h.toList_eq
    · have hother : value = String.ofList (c :: chars) := by rw [← hvalue, String.ofList_toList]
      rw [htext, hother]
      unfold Argument.ofOption
      split <;> simp_all
    · rw [htext]
      simp [Argument.ofOption]
    · -- neither of the other long options has an equals sign in its name
      have hother (name : String) (hname : '=' ∉ name.toList) :
          "output=".toList ++ value.toList ≠ name.toList := fun hsame =>
        hname (hsame ▸ List.mem_append_left _ (by decide))
      have hbegins : "output=".toList.isPrefixOf ("output=".toList ++ value.toList) :=
        List.isPrefixOf_iff_prefix.mpr (List.prefix_append _ _)
      rw [htext]
      show Argument.ofLongOption _ = _
      rw [Argument.ofLongOption, if_neg (hother _ (by decide)), if_neg (hother _ (by decide)),
        if_pos hbegins, List.drop_left, String.ofList_toList]

/-- There is one way to leave out the keyword for exports. -/
theorem ofOption_eq_noExports_iff :
    Argument.ofOption text.toList = .item .noExports ↔ text = "--no-exports" := by
  refine ⟨fun h => ?_, fun h => by rw [h]; decide⟩
  unfold Argument.ofOption at h
  split at h
  · next long hlong =>
    unfold Argument.ofLongOption at h
    split_ifs at h with hname
    · rw [← String.toList_inj, hlong, hname]
      rfl
    · cases h
  all_goals cases h

/-- There are two ways to announce an output. -/
theorem ofOption_eq_output_iff :
    Argument.ofOption text.toList = .output ↔ text = "-o" ∨ text = "--output" := by
  refine ⟨fun h => ?_, by rintro (rfl | rfl) <;> decide⟩
  unfold Argument.ofOption at h
  split at h
  · next long hlong =>
    unfold Argument.ofLongOption at h
    split_ifs at h with _ hname
    refine .inr ?_
    rw [← String.toList_inj, hlong, hname]
    rfl
  · next hshort => exact .inl (String.toList_inj.mp hshort)
  all_goals cases h

/-- Help is not among the options of `generate`, since it is told apart before. -/
theorem ofOption_of_helpOption (h : HelpOption text) :
    Argument.ofOption text.toList = .unknown := by
  cases h with
  | long => decide
  | short more =>
    rw [String.toList_append]
    rfl

/-- An ordinary value is not among the options of `generate`. -/
theorem ofOption_of_ordinary (h : Ordinary text) : Argument.ofOption text.toList = .unknown := by
  rcases h with hhead | rfl
  · unfold Argument.ofOption
    split <;> simp_all
  · decide

/-- An argument that is neither help nor a value is an option of `generate`, or unknown. -/
theorem ofString_eq_iff_ofOption {argument : Argument} (hunknown : argument ≠ .unknown)
    (hhelp : argument ≠ .help) (hinput : ∀ value, argument ≠ .item (.input value)) :
    Argument.ofString verb text = argument ↔
      verb = .generate ∧ Argument.ofOption text.toList = argument := by
  -- help and values are tried first, and neither is an option
  unfold Argument.ofString
  split_ifs with htext htext
  · rw [ofOption_of_helpOption (isHelpOption_iff.mp htext)]
    exact ⟨fun h => absurd h.symm hhelp, fun h => absurd h.2.symm hunknown⟩
  · rw [ofOption_of_ordinary (isValue_iff.mp htext)]
    exact ⟨fun h => absurd h.symm (hinput text), fun h => absurd h.2.symm hunknown⟩
  · cases verb with
    | generate => exact ⟨fun h => ⟨rfl, h⟩, fun h => h.2⟩
    | decode => exact ⟨fun h => absurd h.symm hunknown, fun h => by cases h.1⟩

/-- Only `generate` takes an output in the same argument. -/
theorem ofString_eq_attached_iff :
    Argument.ofString verb text = .item (.output value) ↔
      verb = .generate ∧ Attached value text := by
  rw [← ofOption_eq_attached_iff]
  exact ofString_eq_iff_ofOption nofun nofun nofun

/-- Only `generate` can leave out the keyword for exports. -/
theorem ofString_eq_noExports_iff :
    Argument.ofString verb text = .item .noExports ↔
      verb = .generate ∧ text = "--no-exports" := by
  rw [← ofOption_eq_noExports_iff]
  exact ofString_eq_iff_ofOption nofun nofun nofun

/-- Only `generate` takes an output from the next argument. -/
theorem ofString_eq_output_iff :
    Argument.ofString verb text = .output ↔
      verb = .generate ∧ (text = "-o" ∨ text = "--output") := by
  rw [← ofOption_eq_output_iff]
  exact ofString_eq_iff_ofOption nofun nofun nofun

/-- No long option is help or an ordinary value. -/
theorem ofLongOption_ne {chars : List Char} :
    Argument.ofLongOption chars ≠ .help ∧
      ∀ value, Argument.ofLongOption chars ≠ .item (.input value) := by
  unfold Argument.ofLongOption
  split_ifs <;> exact ⟨nofun, nofun⟩

/-- No option is help or an ordinary value. -/
theorem ofOption_ne {chars : List Char} :
    Argument.ofOption chars ≠ .help ∧
      ∀ value, Argument.ofOption chars ≠ .item (.input value) := by
  unfold Argument.ofOption
  split
  · exact ofLongOption_ne
  all_goals exact ⟨nofun, nofun⟩

/-- Both commands have the options for help. -/
theorem ofString_eq_help_iff : Argument.ofString verb text = .help ↔ HelpOption text := by
  rw [← isHelpOption_iff]
  unfold Argument.ofString
  split_ifs with hhelp hvalue
  · exact ⟨fun _ => hhelp, fun _ => rfl⟩
  · exact ⟨nofun, fun h => absurd h hhelp⟩
  · refine ⟨fun h => ?_, fun h => absurd h hhelp⟩
    cases verb with
    | generate => exact absurd h ofOption_ne.1
    | decode => cases h

/-- For both commands an ordinary value is the input. -/
theorem ofString_eq_input_iff :
    Argument.ofString verb text = .item (.input value) ↔ Ordinary text ∧ value = text := by
  rw [← isValue_iff]
  unfold Argument.ofString
  split_ifs with hhelp hvalue
  · refine ⟨nofun, fun h => absurd (isValue_iff.mp h.1) ?_⟩
    exact (isHelpOption_iff.mp hhelp).not_ordinary
  · refine ⟨fun h => ⟨hvalue, ?_⟩, fun h => by rw [h.2]⟩
    injection h with h
    injection h with h
    exact h.symm
  · refine ⟨fun h => ?_, fun h => absurd h.1 hvalue⟩
    cases verb with
    | generate => exact absurd h (ofOption_ne.2 value)
    | decode => cases h

/-- The two dashes alone are told apart before anything else. -/
theorem ofString_dashes : Argument.ofString verb "--" = .unknown := by
  cases verb <;> decide

/-- An argument that means something is not the two dashes. -/
theorem ne_dashes {argument : Argument} (h : Argument.ofString verb text = argument)
    (hknown : argument ≠ .unknown) : text ≠ "--" := by
  rintro rfl
  exact hknown (h.symm.trans ofString_dashes)

/-! ### Running over the arguments -/

variable {said : List Item}

/-- Behind the two dashes everything is an input. -/
theorem addAll_dashes :
    addAll verb said ("--" :: rest) = (rest.map Item.input).foldlM addItem said := by
  rw [addAll.eq_def]
  exact if_pos rfl

/-- An argument that says one thing adds that. -/
theorem addAll_item (h : Argument.ofString verb text = .item item) :
    addAll verb said (text :: rest) = addItem said item >>= (addAll verb · rest) := by
  rw [addAll.eq_def]
  dsimp only
  rw [if_neg (ne_dashes h nofun), h]

/-- An announced output is the next argument. -/
theorem addAll_output (h : Argument.ofString verb text = .output) (hvalue : Ordinary value) :
    addAll verb said (text :: value :: rest) =
      addItem said (.output value) >>= (addAll verb · rest) := by
  rw [addAll.eq_def]
  dsimp only
  rw [if_neg (ne_dashes h nofun), h]
  exact if_pos (isValue_iff.mpr hvalue)

/-- An option for help ends the reading, whatever follows. -/
theorem addAll_help (h : HelpOption text) :
    addAll verb said (text :: rest) = .error .help := by
  have htext : Argument.ofString verb text = .help := ofString_eq_help_iff.mpr h
  rw [addAll.eq_def]
  dsimp only
  rw [if_neg (ne_dashes htext nofun), htext]

/-- **What has been written is gathered** before the rest is looked at. -/
theorem addAll_append (h : Writes verb items front) (said : List Item) (rest : List String) :
    addAll verb said (front ++ rest) = items.foldlM addItem said >>= (addAll verb · rest) := by
  -- each item is added to what has been said before, so that list varies
  induction h generalizing said with
  | nil => rfl
  | input hvalue _ ih =>
    rw [List.cons_append, addAll_item (ofString_eq_input_iff.mpr ⟨hvalue, rfl⟩),
      List.foldlM_cons, bind_assoc]
    exact congrArg _ (funext ih)
  | attached hverb htext _ ih =>
    rw [List.cons_append, addAll_item (ofString_eq_attached_iff.mpr ⟨hverb, htext⟩),
      List.foldlM_cons, bind_assoc]
    exact congrArg _ (funext ih)
  | separate hverb hoption hvalue _ ih =>
    rw [List.cons_append, List.cons_append,
      addAll_output (ofString_eq_output_iff.mpr ⟨hverb, hoption⟩) hvalue, List.foldlM_cons,
      bind_assoc]
    exact congrArg _ (funext ih)
  | noExports hverb _ ih =>
    rw [List.cons_append, addAll_item (ofString_eq_noExports_iff.mpr ⟨hverb, rfl⟩),
      List.foldlM_cons, bind_assoc]
    exact congrArg _ (funext ih)

/-- An argument without a meaning ends the reading. -/
theorem addAll_eq_misuse (hne : text ≠ "--") (h : Argument.ofString verb text = .unknown) :
    addAll verb said (text :: rest) = .error .misuse := by
  rw [addAll.eq_def]
  dsimp only
  rw [if_neg hne, h]

/-- An output that is announced and then not there ends the reading. -/
theorem addAll_output_eq_misuse (h : Argument.ofString verb text = .output)
    (hrest : ∀ value more, rest = value :: more → ¬ Ordinary value) :
    addAll verb said (text :: rest) = .error .misuse := by
  rw [addAll.eq_def]
  dsimp only
  rw [if_neg (ne_dashes h nofun), h]
  cases rest with
  | nil => rfl
  | cons value more => exact if_neg fun hvalue => hrest value more rfl (isValue_iff.mp hvalue)

/-- What is said by one argument is written by it. -/
theorem Writes.of_item (h : Argument.ofString verb text = .item item)
    (hrest : Writes verb items rest) : Writes verb (item :: items) (text :: rest) := by
  cases item with
  | input value =>
    obtain ⟨hvalue, rfl⟩ := ofString_eq_input_iff.mp h
    exact .input hvalue hrest
  | output value =>
    obtain ⟨hverb, htext⟩ := ofString_eq_attached_iff.mp h
    exact .attached hverb htext hrest
  | noExports =>
    obtain ⟨hverb, rfl⟩ := ofString_eq_noExports_iff.mp h
    exact .noExports hverb hrest

/-- What may stand behind the items that have been written. -/
inductive Halts (verb : Verb) : List String → Prop
  | nil : Halts verb []
  | dashes (values : List String) : Halts verb ("--" :: values)
  | help {text : String} (htext : HelpOption text) (rest : List String) : Halts verb (text :: rest)
  | misuse {rest : List String}
      (hrest : ∀ said, addAll verb said rest = .error .misuse) : Halts verb rest

/-- **Any arguments are taken apart** into items, one after the other, and what halts them. -/
theorem exists_written (verb : Verb) (arguments : List String) :
    ∃ items front rest, arguments = front ++ rest ∧ Writes verb items front ∧ Halts verb rest := by
  match arguments with
  | [] => exact ⟨[], [], [], rfl, .nil, .nil⟩
  | text :: more =>
    by_cases hdashes : text = "--"
    · -- what stands behind the dashes is written in one piece, whatever it looks like
      exact ⟨[], [], text :: more, rfl, .nil, hdashes ▸ .dashes more⟩
    · cases htext : Argument.ofString verb text with
      | item item =>
        obtain ⟨items, front, rest, rfl, hwrites, hhalts⟩ := exists_written verb more
        exact ⟨item :: items, text :: front, rest, rfl, .of_item htext hwrites, hhalts⟩
      | help => exact ⟨[], [], text :: more, rfl, .nil, .help (ofString_eq_help_iff.mp htext) more⟩
      | unknown =>
        exact ⟨[], [], text :: more, rfl, .nil,
          .misuse fun _ => addAll_eq_misuse hdashes htext⟩
      | output =>
        -- the one case in which two arguments make one item
        match more with
        | [] =>
          exact ⟨[], [], [text], rfl, .nil,
            .misuse fun _ => addAll_output_eq_misuse htext nofun⟩
        | value :: more =>
          by_cases hvalue : Ordinary value
          · obtain ⟨items, front, rest, rfl, hwrites, hhalts⟩ := exists_written verb more
            obtain ⟨hverb, hoption⟩ := ofString_eq_output_iff.mp htext
            exact ⟨.output value :: items, text :: value :: front, rest, rfl,
              .separate hverb hoption hvalue hwrites, hhalts⟩
          · -- the output is announced, but what follows cannot be one
            refine ⟨[], [], text :: value :: more, rfl, .nil, .misuse fun _ => ?_⟩
            refine addAll_output_eq_misuse htext ?_
            rintro _ _ ⟨⟩
            exact hvalue

/-! ### What is gathered -/

/-- Less said is still consistent. -/
theorem Consistent.sublist {less : List Item} (h : Consistent items) (hless : less.Sublist items) :
    Consistent less where
  once := h.once.sublist (hless.map _)
  nonempty item hitem := h.nonempty item (hless.subset hitem)

theorem consistent_nil : Consistent [] := ⟨List.nodup_nil, nofun⟩

/-- A further item keeps items consistent if it says something new. -/
theorem consistent_concat_iff (h : Consistent items) :
    Consistent (items ++ [item]) ↔
      item.value? ≠ some "" ∧ ∀ other ∈ items, other.kind ≠ item.kind := by
  refine ⟨fun hmore => ⟨hmore.nonempty item (by simp), fun other hother hkind => ?_⟩, ?_⟩
  · have honce := hmore.once
    rw [List.map_append, List.nodup_append] at honce
    exact honce.2.2 _ (List.mem_map_of_mem hother) _ (List.mem_singleton_self _) hkind
  · rintro ⟨hvalue, hnew⟩
    refine ⟨?_, ?_⟩
    · -- what has been said once before, and the new thing, which was not among it
      rw [List.map_append, List.nodup_append]
      refine ⟨h.once, List.nodup_singleton _, ?_⟩
      rintro _ hkind _ hlast rfl
      obtain ⟨other, hother, hsame⟩ := List.mem_map.mp hkind
      exact hnew other hother (hsame.trans (List.mem_singleton.mp hlast))
    · intro other hother
      rcases List.mem_append.mp hother with hother | hother
      · exact h.nonempty other hother
      · rwa [List.mem_singleton.mp hother]

/-- **A further item is taken in** exactly if it keeps the items consistent. -/
theorem addItem_of_consistent (h : Consistent items) (item : Item) :
    (Consistent (items ++ [item]) ∧ addItem items item = .ok (items ++ [item])) ∨
      (¬ Consistent (items ++ [item]) ∧ addItem items item = .error .misuse) := by
  rw [consistent_concat_iff h, addItem]
  split_ifs with hrefused
  · refine .inr ⟨?_, rfl⟩
    rintro ⟨hvalue, hnew⟩
    simp only [Bool.or_eq_true, decide_eq_true_eq, List.any_eq_true] at hrefused
    rcases hrefused with hempty | ⟨other, hother, hkind⟩
    · exact hvalue hempty
    · exact hnew other hother hkind
  · refine .inl ⟨?_, rfl⟩
    simpa using hrefused

/-- **All items are taken in** exactly if they are consistent. -/
theorem foldlM_addItem (items : List Item) :
    (Consistent items ∧ items.foldlM addItem [] = .ok items) ∨
      (¬ Consistent items ∧ items.foldlM addItem [] = .error .misuse) := by
  -- from the end, since each item is held against those before it
  induction items using List.reverseRecOn with
  | nil => exact .inl ⟨consistent_nil, rfl⟩
  | append_singleton items item ih =>
    rw [List.foldlM_append]
    rcases ih with ⟨hitems, hfold⟩ | ⟨hitems, hfold⟩
    · rw [hfold]
      rcases addItem_of_consistent hitems item with ⟨hmore, hadd⟩ | ⟨hmore, hadd⟩
      · refine .inl ⟨hmore, ?_⟩
        show ([item].foldlM addItem items) = _
        rw [List.foldlM_cons, hadd]
        rfl
      · refine .inr ⟨hmore, ?_⟩
        show ([item].foldlM addItem items) = _
        rw [List.foldlM_cons, hadd]
        rfl
    · rw [hfold]
      exact .inr ⟨fun hmore => hitems (hmore.sublist (List.sublist_append_left _ _)), rfl⟩

/-- Reading all arguments adds all items that they list. -/
theorem addAll_of_lists (h : Lists verb items arguments) :
    addAll verb [] arguments = items.foldlM addItem [] := by
  cases h with
  | plain hwrites =>
    have := addAll_append hwrites [] []
    rw [List.append_nil] at this
    rw [this]
    exact bind_pure _
  | dashes hwrites values =>
    -- two pieces, each of which is gathered in one go
    rw [addAll_append hwrites, List.foldlM_append]
    exact congrArg _ (funext fun _ => addAll_dashes)

/-- What stands before an option for help counts, what stands behind it does not. -/
theorem addAll_of_helpOption (hwrites : Writes verb items front) (htext : HelpOption text)
    (rest : List String) :
    addAll verb [] (front ++ text :: rest) =
      items.foldlM addItem [] >>= fun _ => .error .help := by
  rw [addAll_append hwrites]
  exact congrArg _ (funext fun _ => addAll_help htext)

/-- **How the reading of arguments ends.** All of them have been read, or help has been asked for,
and then what was written before is consistent; or else there is a misuse. -/
theorem addAll_cases (verb : Verb) (arguments : List String) :
    (∃ items, Lists verb items arguments ∧ Consistent items ∧
        addAll verb [] arguments = .ok items) ∨
      (∃ items front text rest, arguments = front ++ text :: rest ∧ Writes verb items front ∧
        Consistent items ∧ HelpOption text ∧ addAll verb [] arguments = .error .help) ∨
      addAll verb [] arguments = .error .misuse := by
  obtain ⟨items, front, rest, rfl, hwrites, hhalts⟩ := exists_written verb arguments
  cases hhalts with
  | nil =>
    -- the same for both ways to list items: inconsistent items are a misuse as well
    have hlists : Lists verb items (front ++ []) := (List.append_nil front).symm ▸ .plain hwrites
    rw [addAll_of_lists hlists]
    rcases foldlM_addItem items with ⟨hitems, hfold⟩ | ⟨-, hfold⟩
    · exact .inl ⟨items, hlists, hitems, hfold⟩
    · exact .inr (.inr hfold)
  | dashes values =>
    have hlists := Lists.dashes hwrites values
    rw [addAll_of_lists hlists]
    rcases foldlM_addItem (items ++ values.map .input) with ⟨hitems, hfold⟩ | ⟨-, hfold⟩
    · exact .inl ⟨_, hlists, hitems, hfold⟩
    · exact .inr (.inr hfold)
  | @help text htext rest =>
    -- items that are not consistent are refused where they stand, so help comes too late for them
    rw [addAll_of_helpOption hwrites htext]
    rcases foldlM_addItem items with ⟨hitems, hfold⟩ | ⟨-, hfold⟩
    · refine .inr (.inl ⟨items, front, text, rest, rfl, hwrites, hitems, htext, ?_⟩)
      rw [hfold]
      rfl
    · refine .inr (.inr ?_)
      rw [hfold]
      rfl
  | misuse hrest =>
    -- whether it is what was written before or what stands here, it is a misuse
    refine .inr (.inr ?_)
    rw [addAll_append hwrites]
    rcases foldlM_addItem items with ⟨-, hfold⟩ | ⟨-, hfold⟩
    · rw [hfold]
      exact hrest items
    · rw [hfold]
      rfl

/-- The arguments are read to their end exactly if they list consistent items. -/
theorem addAll_eq_ok_iff :
    addAll verb [] arguments = .ok items ↔ Lists verb items arguments ∧ Consistent items := by
  refine ⟨fun h => ?_, ?_⟩
  · rcases addAll_cases verb arguments with ⟨_, hlists, hitems, hend⟩ | hhelp | hend
    · obtain rfl := Except.ok.inj (h.symm.trans hend)
      exact ⟨hlists, hitems⟩
    · obtain ⟨_, _, _, _, -, -, -, -, hend⟩ := hhelp
      cases h.symm.trans hend
    · cases h.symm.trans hend
  · rintro ⟨hlists, hitems⟩
    rw [addAll_of_lists hlists]
    exact (foldlM_addItem items).elim And.right fun h => absurd hitems h.1

/-- Help ends the reading exactly if it is asked for behind consistent items. -/
theorem addAll_eq_help_iff :
    addAll verb [] arguments = .error .help ↔
      ∃ items front text rest, arguments = front ++ text :: rest ∧ Writes verb items front ∧
        Consistent items ∧ HelpOption text := by
  refine ⟨fun h => ?_, ?_⟩
  · rcases addAll_cases verb arguments with ⟨_, -, -, hend⟩ | hhelp | hend
    · cases h.symm.trans hend
    · obtain ⟨items, front, text, rest, hsplit, hwrites, hitems, htext, -⟩ := hhelp
      exact ⟨items, front, text, rest, hsplit, hwrites, hitems, htext⟩
    · cases h.symm.trans hend
  · rintro ⟨items, front, text, rest, rfl, hwrites, hitems, htext⟩
    rw [addAll_of_helpOption hwrites htext]
    rcases foldlM_addItem items with ⟨-, hfold⟩ | ⟨hnot, -⟩
    · rw [hfold]
      rfl
    · exact absurd hitems hnot

/-! ### Requests -/

/-- Consistent items about the same thing are the same item. -/
theorem Consistent.eq_of_kind {first second : Item} (h : Consistent items) (hfirst : first ∈ items)
    (hsecond : second ∈ items) (hkind : first.kind = second.kind) : first = second :=
  List.inj_on_of_nodup_map h.once hfirst hsecond hkind

/-- A value is found among consistent items exactly if it stands there. -/
theorem valueOf_eq_some_iff {kind : Kind} (h : Consistent items) :
    valueOf kind items = some value ↔
      ∃ item ∈ items, item.kind = kind ∧ item.value? = some value := by
  have hvalue (item : Item) : (if item.kind = kind then item.value? else none) = some value ↔
      item.kind = kind ∧ item.value? = some value := by
    split_ifs with hkind <;> simp [hkind]
  refine ⟨fun hfound => ?_, ?_⟩
  · obtain ⟨item, hitem, hfound⟩ := List.exists_of_findSome?_eq_some hfound
    exact ⟨item, hitem, (hvalue item).mp hfound⟩
  · rintro ⟨item, hitem, hfound⟩
    -- whichever item is found first is about the same, so it is this one
    obtain ⟨other, hother⟩ : ∃ other, valueOf kind items = some other :=
      Option.isSome_iff_exists.mp (List.findSome?_isSome_iff.mpr
        ⟨item, hitem, by rw [(hvalue item).mpr hfound]; rfl⟩)
    obtain ⟨first, hfirst, hsame⟩ := List.exists_of_findSome?_eq_some hother
    split_ifs at hsame with hkind
    obtain rfl := h.eq_of_kind hfirst hitem (hkind.trans hfound.1.symm)
    rw [hother, ← hsame, hfound.2]

/-- The input that is found is the one that has been said. -/
theorem valueOf_input_eq_some_iff (h : Consistent items) :
    valueOf .input items = some value ↔ Item.input value ∈ items := by
  rw [valueOf_eq_some_iff h]
  refine ⟨?_, fun hitem => ⟨_, hitem, rfl, rfl⟩⟩
  rintro ⟨_ | _ | _, hitem, ⟨⟩, ⟨⟩⟩
  exact hitem

/-- The output that is found is the one that has been said. -/
theorem valueOf_output_eq_some_iff (h : Consistent items) :
    valueOf .output items = some value ↔ Item.output value ∈ items := by
  rw [valueOf_eq_some_iff h]
  refine ⟨?_, fun hitem => ⟨_, hitem, rfl, rfl⟩⟩
  rintro ⟨_ | _ | _, hitem, ⟨⟩, ⟨⟩⟩
  exact hitem

/-- The keyword for exports stays exactly if the option against it has not been said. -/
theorem exports_eq_iff {options : Options} :
    options = ⟨!items.contains .noExports⟩ ↔
      (options.exports = true ↔ Item.noExports ∉ items) := by
  obtain ⟨exports⟩ := options
  rw [Options.mk.injEq, Bool.eq_iff_iff]
  simp

/-- Of consistent items `generate` takes the input, the output if there is one, and the option. -/
theorem command?_generate_eq_some_iff {input : String} {output : Option String}
    {options : Options} (h : Consistent items) :
    Verb.generate.command? items = some (.generate input output options) ↔
      Item.input input ∈ items ∧ (∀ value, Item.output value ∈ items ↔ output = some value) ∧
        (options.exports = true ↔ Item.noExports ∉ items) := by
  rw [Verb.command?, Option.map_eq_some_iff, ← exports_eq_iff]
  have houtput : output = valueOf .output items ↔
      ∀ value, Item.output value ∈ items ↔ output = some value := by
    simp only [← valueOf_output_eq_some_iff h]
    exact ⟨fun hsame => by simp [hsame], fun hsame => Option.ext fun value => (hsame value).symm⟩
  -- both sides now say which input, output and options there are
  rw [← houtput]
  refine ⟨?_, ?_⟩
  · rintro ⟨_, hinput, hcommand⟩
    obtain ⟨rfl, rfl, rfl⟩ := Command.generate.inj hcommand
    exact ⟨(valueOf_input_eq_some_iff h).mp hinput, rfl, rfl⟩
  · rintro ⟨hinput, rfl, rfl⟩
    exact ⟨input, (valueOf_input_eq_some_iff h).mpr hinput, rfl⟩

/-- Of consistent items `decode` takes the input. -/
theorem command?_decode_eq_some_iff {input : String} (h : Consistent items) :
    Verb.decode.command? items = some (.decode input) ↔ Item.input input ∈ items := by
  rw [Verb.command?, Option.map_eq_some_iff, ← valueOf_input_eq_some_iff h]
  refine ⟨?_, fun hinput => ⟨input, hinput, rfl⟩⟩
  rintro ⟨_, hinput, hcommand⟩
  rwa [← Command.decode.inj hcommand]

/-- A command is found by its name and no other. -/
theorem ofName?_eq_some_iff {name : String} : Verb.ofName? name = some verb ↔ name = verb.name := by
  unfold Verb.ofName?
  cases verb <;> split_ifs <;> simp_all [Verb.name]

theorem name_injective : Function.Injective Verb.name := fun _ _ hname =>
  Option.some.inj ((ofName?_eq_some_iff.mpr rfl).symm.trans (ofName?_eq_some_iff.mpr hname))

/-- What is made of a command's items is that command. -/
theorem request?_eq_command_iff {command : Command} :
    verb.request? arguments = some (.command command) ↔
      ∃ items, Lists verb items arguments ∧ Consistent items ∧
        verb.command? items = some command := by
  unfold Verb.request?
  refine ⟨fun h => ?_, ?_⟩
  · cases hend : addAll verb [] arguments with
    | ok items =>
      rw [hend] at h
      obtain ⟨other, hother, hsame⟩ := Option.map_eq_some_iff.mp h
      obtain ⟨hlists, hitems⟩ := addAll_eq_ok_iff.mp hend
      exact ⟨items, hlists, hitems, Request.command.inj hsame ▸ hother⟩
    | error stop =>
      rw [hend] at h
      cases stop <;> cases h
  · rintro ⟨items, hlists, hitems, hcommand⟩
    rw [addAll_eq_ok_iff.mpr ⟨hlists, hitems⟩]
    exact congrArg (Option.map Request.command) hcommand

/-- Help behind the name of a command is about that command. -/
theorem request?_eq_help_iff {topic : Topic} :
    verb.request? arguments = some (.help topic) ↔
      topic = verb.topic ∧ addAll verb [] arguments = .error .help := by
  unfold Verb.request?
  cases addAll verb [] arguments with
  | ok items => cases verb.command? items <;> simp
  | error stop => cases stop <;> simp [eq_comm]

/-- The arguments behind its name spell a command exactly if they are read as that command. -/
theorem spells_iff_request? {command : Command} :
    Spells (verb.name :: arguments) command ↔
      verb.request? arguments = some (.command command) := by
  rw [request?_eq_command_iff]
  refine ⟨fun h => ?_, ?_⟩
  · -- the first argument is a variable for the case analysis, and then decides the command
    generalize hwhole : verb.name :: arguments = whole at h
    cases h with
    | generate hlists hitems hinput houtput hexports =>
      obtain ⟨hname, rfl⟩ := List.cons.inj hwhole
      obtain rfl : verb = .generate := name_injective hname
      exact ⟨_, hlists, hitems,
        (command?_generate_eq_some_iff hitems).mpr ⟨hinput, houtput, hexports⟩⟩
    | decode hlists hitems hinput =>
      obtain ⟨hname, rfl⟩ := List.cons.inj hwhole
      obtain rfl : verb = .decode := name_injective hname
      exact ⟨_, hlists, hitems, (command?_decode_eq_some_iff hitems).mpr hinput⟩
  · -- each command has its own items, so two of the four combinations are impossible
    rintro ⟨items, hlists, hitems, hcommand⟩
    cases verb with
    | generate =>
      cases command with
      | generate input output options =>
        obtain ⟨hinput, houtput, hexports⟩ := (command?_generate_eq_some_iff hitems).mp hcommand
        exact .generate hlists hitems hinput houtput hexports
      | decode input =>
        obtain ⟨_, -, hcommand⟩ := Option.map_eq_some_iff.mp hcommand
        cases hcommand
    | decode =>
      cases command with
      | generate input output options =>
        obtain ⟨_, -, hcommand⟩ := Option.map_eq_some_iff.mp hcommand
        cases hcommand
      | decode input =>
        exact .decode hlists hitems ((command?_decode_eq_some_iff hitems).mp hcommand)

theorem not_helpOption_name : ¬ HelpOption verb.name := by
  rw [← isHelpOption_iff]
  cases verb <;> decide

theorem name_ne_help : verb.name ≠ "help" := by
  cases verb <;> decide

/-- Behind the name of a command help is asked for exactly if the reading says so. -/
theorem asksForHelp_iff_request? {topic : Topic} :
    AsksForHelp (verb.name :: arguments) topic ↔ verb.request? arguments = some (.help topic) := by
  rw [request?_eq_help_iff, addAll_eq_help_iff]
  refine ⟨fun h => ?_, ?_⟩
  · generalize hwhole : verb.name :: arguments = whole at h
    -- the other ways to ask for help begin with an option or with the name `help`
    cases h with
    | program htext => exact absurd htext ((List.cons.inj hwhole).1 ▸ not_helpOption_name)
    | name | nameOfCommand | nameOfHelp => exact absurd (List.cons.inj hwhole).1 name_ne_help
    | command hwrites hitems htext rest =>
      obtain ⟨hname, rfl⟩ := List.cons.inj hwhole
      obtain rfl := name_injective hname
      exact ⟨rfl, _, _, _, rest, rfl, hwrites, hitems, htext⟩
  · rintro ⟨rfl, items, front, text, rest, rfl, hwrites, hitems, htext⟩
    exact .command hwrites hitems htext rest

/-- Behind the name `help` stand the names that lead to the topic. -/
theorem asksForHelp_help_iff {topic : Topic} :
    AsksForHelp ("help" :: arguments) topic ↔ Topic.ofNames? arguments = some topic := by
  refine ⟨fun h => ?_, fun h => ?_⟩
  · generalize hwhole : "help" :: arguments = whole at h
    cases h with
    | program htext =>
      rw [← (List.cons.inj hwhole).1, ← isHelpOption_iff] at htext
      exact absurd htext (by decide)
    | command => exact absurd (List.cons.inj hwhole).1.symm name_ne_help
    | name =>
      obtain rfl := (List.cons.inj hwhole).2
      rfl
    | nameOfHelp =>
      obtain rfl := (List.cons.inj hwhole).2
      rfl
    | nameOfCommand verb =>
      obtain rfl := (List.cons.inj hwhole).2
      cases verb <;> decide
  · -- at most one name follows: two are a misuse, also if the first of them is that of a command
    match arguments with
    | [] =>
      obtain rfl := Option.some.inj h
      exact .name
    | [name] =>
      rw [Topic.ofNames?] at h
      split_ifs at h with hname
      · obtain rfl := Option.some.inj h
        exact hname ▸ .nameOfHelp
      · obtain ⟨verb, hverb, rfl⟩ := Option.map_eq_some_iff.mp h
        exact ofName?_eq_some_iff.mp hverb ▸ .nameOfCommand verb
    | _ :: _ :: _ => cases h

/-- Other names than those of the commands spell no command. -/
theorem not_spells_of_unknown {name : String} {command : Command}
    (hname : Verb.ofName? name = none) : ¬ Spells (name :: arguments) command := by
  -- both ways to spell begin with the name of a command
  have hverb (verb : Verb) : name ≠ verb.name := fun hsame =>
    Option.some_ne_none verb ((ofName?_eq_some_iff.mpr hsame).symm.trans hname)
  intro h
  generalize hwhole : name :: arguments = whole at h
  cases h with
  | generate => exact hverb .generate (List.cons.inj hwhole).1
  | decode => exact hverb .decode (List.cons.inj hwhole).1

/-- A name that is neither that of a command nor `help` can only be an option for help. -/
theorem asksForHelp_of_unknown_iff {name : String} {topic : Topic}
    (hname : Verb.ofName? name = none) (hhelp : name ≠ "help") :
    AsksForHelp (name :: arguments) topic ↔ HelpOption name ∧ topic = .program := by
  refine ⟨fun h => ?_, ?_⟩
  · generalize hwhole : name :: arguments = whole at h
    cases h with
    | program htext => exact ⟨(List.cons.inj hwhole).1 ▸ htext, rfl⟩
    | name | nameOfCommand | nameOfHelp => exact absurd (List.cons.inj hwhole).1 hhelp
    | command =>
      have hverb := ofName?_eq_some_iff.mpr (List.cons.inj hwhole).1
      cases hname.symm.trans hverb
  · rintro ⟨htext, rfl⟩
    exact .program htext arguments

/-- **What arguments ask for is what they spell.** The cases are those of the reader: the name of a
command in front, the name `help`, an option for help, or nothing that is known. -/
theorem ofArguments?_eq_some_iff {request : Request} :
    Request.ofArguments? arguments = some request ↔ Asks arguments request := by
  cases arguments with
  | nil =>
    refine ⟨nofun, fun h => ?_⟩
    cases request with
    | command => cases h
    | help => cases h
  | cons name arguments =>
    rw [Request.ofArguments?]
    cases hname : Verb.ofName? name with
    | some verb =>
      obtain rfl := ofName?_eq_some_iff.mp hname
      cases request with
      | command => exact spells_iff_request?.symm
      | help => exact asksForHelp_iff_request?.symm
    | none =>
      dsimp only
      cases request with
      | command command =>
        -- without the name of a command there is at most help
        refine ⟨fun h => ?_, fun h => absurd h (not_spells_of_unknown hname)⟩
        split_ifs at h with hhelp htext
        · obtain ⟨_, -, h⟩ := Option.map_eq_some_iff.mp h
          cases h
        · cases h
      | help topic =>
        show _ ↔ AsksForHelp (name :: arguments) topic
        split_ifs with hhelp htext
        · rw [hhelp, asksForHelp_help_iff, Option.map_eq_some_iff]
          exact ⟨fun ⟨_, h, hsame⟩ => Request.help.inj hsame ▸ h, fun h => ⟨topic, h, rfl⟩⟩
        · rw [asksForHelp_of_unknown_iff hname hhelp, ← isHelpOption_iff]
          refine ⟨fun h => ⟨htext, ?_⟩, fun h => by rw [h.2]⟩
          exact (Request.help.inj (Option.some.inj h)).symm
        · rw [asksForHelp_of_unknown_iff hname hhelp, ← isHelpOption_iff]
          exact ⟨nofun, fun h => absurd h.1 htext⟩

/-- **No arguments ask for two things.** -/
theorem Asks.unique {request other : Request} (h : Asks arguments request)
    (hother : Asks arguments other) : request = other :=
  Option.some.inj
    ((ofArguments?_eq_some_iff.mpr h).symm.trans (ofArguments?_eq_some_iff.mpr hother))

/-- No arguments spell two commands. -/
theorem Spells.unique {command other : Command} (h : Spells arguments command)
    (hother : Spells arguments other) : command = other :=
  Request.command.inj (@Asks.unique arguments (.command command) (.command other) h hother)

/-- No arguments both spell a command and ask for help. -/
theorem Spells.not_asksForHelp {command : Command} {topic : Topic} (h : Spells arguments command) :
    ¬ AsksForHelp arguments topic := fun hasked => by
  cases @Asks.unique arguments (.command command) (.help topic) h hasked

end WireBindings.CommandLine
