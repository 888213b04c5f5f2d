import WireBindings.Proofs.CommandLine.Spelling

/-!
# Leaving out the output

Wherever the option for the output stands among the arguments, and however its value is attached, it
can be left out, and what remains spells the same command without an output
(`Spells.withoutOutput`). The step is `Writes.dropOutput`: a front part that writes items becomes a
front part that writes the items without the output.
-/

namespace WireBindings.CommandLine

/-- The arguments behind the name of a command, without the option for the output. -/
def dropOutput : List String → List String
  | [] => []
  | argument :: rest =>
    -- after `--` there are no options
    if argument = "--" then argument :: rest
    else
      match Argument.ofString .generate argument with
      | .item (.output _) => dropOutput rest
      | .output =>
        match rest with
        | [] => []
        | _ :: rest => dropOutput rest
      | _ => argument :: dropOutput rest

/-- The arguments without the option for the output. -/
def withoutOutput : List String → List String
  | [] => []
  | name :: arguments => name :: dropOutput arguments

/-- The items without the output. -/
def otherItems (items : List Item) : List Item := items.filter fun item => item.kind ≠ .output

variable {text value input output : String} {options : Options} {item : Item} {items : List Item}
  {front rest arguments : List String}

/-! ### Single arguments -/

theorem dropOutput_dashes : dropOutput ("--" :: rest) = "--" :: rest := by
  rw [dropOutput.eq_def]
  exact if_pos rfl

/-- An output goes together with the option to which it is attached. -/
theorem dropOutput_attached (h : Attached value text) :
    dropOutput (text :: rest) = dropOutput rest := by
  have htext : Argument.ofString .generate text = .item (.output value) :=
    ofString_eq_attached_iff.mpr ⟨rfl, h⟩
  rw [dropOutput.eq_def]
  dsimp only
  rw [if_neg (ne_dashes htext nofun), htext]

/-- An output goes together with the option that announces it. -/
theorem dropOutput_separate (h : text = "-o" ∨ text = "--output") :
    dropOutput (text :: value :: rest) = dropOutput rest := by
  have htext : Argument.ofString .generate text = .output := ofString_eq_output_iff.mpr ⟨rfl, h⟩
  rw [dropOutput.eq_def]
  dsimp only
  rw [if_neg (ne_dashes htext nofun), htext]

/-- Whatever else is said by one argument stays. -/
theorem dropOutput_of_kind_ne (h : Argument.ofString .generate text = .item item)
    (hkind : item.kind ≠ .output) : dropOutput (text :: rest) = text :: dropOutput rest := by
  rw [dropOutput.eq_def]
  dsimp only
  rw [if_neg (ne_dashes h nofun), h]
  cases item with
  | output => exact absurd rfl hkind
  | input | noExports => rfl

/-! ### All arguments -/

/-- **What has been written is written without the output.** What comes behind it does not
matter. -/
theorem Writes.dropOutput (h : Writes .generate items front) :
    ∃ left, Writes .generate (otherItems items) left ∧
      ∀ rest, dropOutput (front ++ rest) = left ++ CommandLine.dropOutput rest := by
  -- the rest varies, so that the lemma can be used in front of the two dashes as well
  generalize hverb : Verb.generate = verb at h
  induction h with
  | nil => exact ⟨[], .nil, fun _ => rfl⟩
  | @input value items front hvalue _ ih =>
    obtain ⟨left, hleft, hdrop⟩ := ih
    refine ⟨value :: left, .input hvalue hleft, fun rest => ?_⟩
    have htext : Argument.ofString .generate value = .item (.input value) :=
      ofString_eq_input_iff.mpr ⟨hvalue, rfl⟩
    rw [List.cons_append, dropOutput_of_kind_ne htext nofun, hdrop]
    rfl
  | @noExports items front _ _ ih =>
    obtain ⟨left, hleft, hdrop⟩ := ih
    refine ⟨"--no-exports" :: left, .noExports hverb.symm hleft, fun rest => ?_⟩
    have htext : Argument.ofString .generate "--no-exports" = .item .noExports :=
      ofString_eq_noExports_iff.mpr ⟨rfl, rfl⟩
    rw [List.cons_append, dropOutput_of_kind_ne htext nofun, hdrop]
    rfl
  -- the output is dropped from the items and from the arguments alike
  | attached _ htext _ ih =>
    obtain ⟨left, hleft, hdrop⟩ := ih
    exact ⟨left, hleft, fun rest => (dropOutput_attached htext).trans (hdrop rest)⟩
  | separate _ hoption _ _ ih =>
    obtain ⟨left, hleft, hdrop⟩ := ih
    exact ⟨left, hleft, fun rest => (dropOutput_separate hoption).trans (hdrop rest)⟩

/-- Inputs are no outputs, so those behind the two dashes stay. -/
theorem otherItems_append_input (items : List Item) (values : List String) :
    otherItems (items ++ values.map .input) = otherItems items ++ values.map .input := by
  rw [otherItems, List.filter_append]
  refine congrArg _ (List.filter_eq_self.mpr fun item hitem => ?_)
  obtain ⟨value, -, rfl⟩ := List.mem_map.mp hitem
  rfl

/-- The arguments without the output list the items without the output. -/
theorem Lists.dropOutput (h : Lists .generate items arguments) :
    Lists .generate (otherItems items) (dropOutput arguments) := by
  cases h with
  | plain hwrites =>
    obtain ⟨left, hleft, hdrop⟩ := hwrites.dropOutput
    have hnothing : CommandLine.dropOutput arguments = left := by
      simpa [CommandLine.dropOutput] using hdrop []
    exact hnothing ▸ .plain hleft
  | @dashes items front hwrites values =>
    obtain ⟨left, hleft, hdrop⟩ := hwrites.dropOutput
    rw [hdrop, dropOutput_dashes, otherItems_append_input]
    exact .dashes hleft values

/-- An item about something else is among the items without the output exactly if it was said. -/
theorem mem_otherItems_iff (hkind : item.kind ≠ .output) :
    item ∈ otherItems items ↔ item ∈ items := by
  simp [otherItems, List.mem_filter, hkind]

/-- **The option for the output can be left out.** -/
theorem Spells.withoutOutput (h : Spells arguments (.generate input (some output) options)) :
    Spells (withoutOutput arguments) (.generate input none options) := by
  cases h with
  | generate hlists hitems hinput _ hexports =>
    have hkind : (Item.input input).kind ≠ .output := nofun
    have hkind' : Item.noExports.kind ≠ .output := nofun
    refine .generate hlists.dropOutput (hitems.sublist List.filter_sublist)
      ((mem_otherItems_iff hkind).mpr hinput) (fun value => ?_) ?_
    · -- no output is left among the items
      refine ⟨fun hvalue => ?_, nofun⟩
      exact absurd rfl (of_decide_eq_true (List.mem_filter.mp hvalue).2)
    · rw [hexports, mem_otherItems_iff hkind']

end WireBindings.CommandLine
