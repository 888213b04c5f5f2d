import Mathlib.Logic.Basic
import WireBindings.CommandLine.Execute
import WireBindings.Proofs.Binding.DeclareBeforeUse
import WireBindings.Proofs.Dependency.Resolve
import WireBindings.Proofs.CommandLine.WithoutOutput
import WireBindings.Proofs.Files.Tree

/-!
# All or nothing

A run of the program either does all that it was asked for or has no effect but its report
(`run_all_or_nothing`). The order of its parts is what matters here. Reading and compiling come
first; they leave the files alone and print nothing (`performed_compileFile_of_ok`). Then only the
write is left to fail, and it either fails or replaces exactly one file. Printing comes last and
does not fail. What is written was made from the files as they were before, even if the output is
the input.

A part of a run ends in a result, in what has been printed so far and in the files (`performed`).
The first two lemmas put parts in sequence, and each part has its own lemma for each way it ends;
what a command comes to is then read off its parts (`Performs`). What the arguments ask for is said
by their spelling, not by the reader of arguments.
-/

namespace WireBindings.CommandLine

open Files (Tree)

variable {before after : Tree} {printed said : Printed} {options : Options}
  {input output code : String} {octets : List UInt8} {refusal : Files.Fault} {fault : Fault}
  {arguments : List String} {command : Command}

/-- A run on files in memory: what is seen of it, and the files afterwards. -/
def run (arguments : List String) (before : Tree) : Outcome × Tree :=
  StateT.run (execute arguments : StateM Tree Outcome) before

/-- The computations of a run on files in memory. -/
abbrev InMemory : Type → Type := StateT Printed (StateM Tree)

/-- What a part of a run comes to: its result, what has been printed so far, and the files. -/
def performed {α : Type} (part : ExceptT Fault InMemory α) (printed : Printed) (before : Tree) :
    (Except Fault α × Printed) × Tree :=
  StateT.run (StateT.run part.run printed) before

/-! ### Parts of a run -/

section Parts

variable {α β : Type} {first : ExceptT Fault InMemory α} {next : α → ExceptT Fault InMemory β}
  {value : α}

/-- After a part that succeeds, the next one goes on where it ended. -/
theorem performed_bind_of_ok
    (h : performed first printed before = ((.ok value, said), after)) :
    performed (first >>= next) printed before = performed (next value) said after := by
  rw [performed] at h
  rw [performed, ExceptT.run_bind, StateT.run_bind, StateT.run_bind, h]
  rfl

/-- After a part that fails, the next one is not run. -/
theorem performed_bind_of_error
    (h : performed first printed before = ((.error fault, said), after)) :
    performed (first >>= next) printed before = ((.error fault, said), after) := by
  rw [performed] at h
  rw [performed, ExceptT.run_bind, StateT.run_bind, StateT.run_bind, h]
  rfl

/-- To work out a text neither prints nor writes. -/
theorem performed_pure {result : Except Fault α} :
    performed (ExceptT.mk (pure result)) printed before = ((result, printed), before) := rfl

end Parts

/-- Reading a file that can be read has no effect. -/
theorem performed_readInput_of_ok (h : before.read input = .ok octets) :
    performed (readInput input) printed before = ((.ok octets, printed), before) := by
  show (((before.read input).mapError Fault.file, printed), before) = _
  rw [h]
  rfl

/-- Reading a file that cannot be read has no effect either. -/
theorem performed_readInput_of_error (h : before.read input = .error refusal) :
    performed (readInput input) printed before = ((.error (.file refusal), printed), before) := by
  show (((before.read input).mapError Fault.file, printed), before) = _
  rw [h]
  rfl

/-- A write that is allowed changes the files and prints nothing. -/
theorem performed_writeOutput_of_ok (h : before.write output (Text.Utf8.encode code) = .ok after) :
    performed (writeOutput output code) printed before = ((.ok (), printed), after) := by
  simp only [performed, writeOutput, ExceptT.run_mk, FileAccess.writeFile]
  simp [h]
  rfl

/-- A write that is refused has no effect. -/
theorem performed_writeOutput_of_error
    (h : before.write output (Text.Utf8.encode code) = .error refusal) :
    performed (writeOutput output code) printed before =
      ((.error (.file refusal), printed), before) := by
  simp only [performed, writeOutput, ExceptT.run_mk, FileAccess.writeFile]
  simp [h]
  rfl

/-- What is printed comes behind what has been printed, and the files stay. -/
theorem performed_printOutput (text : String) :
    performed (printOutput text) printed before =
      ((.ok (), { printed with output := printed.output ++ text }), before) := rfl

/-- Compiling a file that can be read prints nothing and leaves all files as they are. -/
theorem performed_compileFile_of_ok (h : before.read input = .ok octets) :
    performed (compileFile options input) printed before =
      ((compile options octets, printed), before) := by
  rw [compileFile, performed_bind_of_ok (performed_readInput_of_ok h)]
  rfl

/-- Compiling a file that cannot be read has no effect. -/
theorem performed_compileFile_of_error (h : before.read input = .error refusal) :
    performed (compileFile options input) printed before =
      ((.error (.file refusal), printed), before) := by
  rw [compileFile, performed_bind_of_error (performed_readInput_of_error h)]

/-! ### Commands -/

/-- The input of a command. -/
def Command.source : Command → String
  | generate input _ _ => input
  | decode input => input

/-- What a command makes of the octets of its input. -/
def Command.textOf (octets : List UInt8) : Command → Except Fault String
  | generate _ _ options => compile options octets
  | decode _ => dumpText octets

/-- Why a command fails. -/
inductive Refused (before : Tree) : Command → Fault → Prop
  /-- The input cannot be read. -/
  | unread {command : Command} {refusal : Files.Fault}
      (hread : before.read command.source = .error refusal) :
      Refused before command (.file refusal)
  /-- There is no text for the input. -/
  | unmade {command : Command} {octets : List UInt8} {fault : Fault}
      (hread : before.read command.source = .ok octets)
      (htext : command.textOf octets = .error fault) : Refused before command fault
  /-- The output cannot be written. -/
  | unwritten {input output code : String} {options : Options} {octets : List UInt8}
      {refusal : Files.Fault} (hread : before.read input = .ok octets)
      (htext : compile options octets = .ok code)
      (hwrite : before.write output (Text.Utf8.encode code) = .error refusal) :
      Refused before (.generate input (some output) options) (.file refusal)

/-- What a command comes to: whether it fails, what it prints, and the files afterwards. -/
inductive Performs (before : Tree) : Command → (Except Fault Unit × Printed) × Tree → Prop
  /-- The command fails, nothing is printed, and the files are as they were. -/
  | failed {command : Command} {fault : Fault} (hrefused : Refused before command fault) :
      Performs before command ((.error fault, {}), before)
  /-- The dump of the input is printed. -/
  | dumped {input dump : String} {octets : List UInt8} (hread : before.read input = .ok octets)
      (htext : dumpText octets = .ok dump) :
      Performs before (.decode input) ((.ok (), { output := dump ++ "\n" }), before)
  /-- The code for the input is printed. -/
  | printed {input code : String} {options : Options} {octets : List UInt8}
      (hread : before.read input = .ok octets) (htext : compile options octets = .ok code) :
      Performs before (.generate input none options) ((.ok (), { output := code }), before)
  /-- A confirmation is printed, and the code is in the output. -/
  | written {input output code : String} {options : Options} {octets : List UInt8} {after : Tree}
      (hread : before.read input = .ok octets) (htext : compile options octets = .ok code)
      (hwrite : before.write output (Text.Utf8.encode code) = .ok after) :
      Performs before (.generate input (some output) options)
        ((.ok (), { output := "Schema written to " ++ output ++ "\n" }), after)

theorem output_append (text : String) :
    ({ output := ({} : Printed).output ++ text } : Printed) = { output := text } :=
  congrArg (Printed.mk · "") String.empty_append

/-- A dump is printed, or there is none and nothing has happened. -/
theorem performs_decode (input : String) (before : Tree) :
    Performs before (.decode input) (performed (Command.decode input).perform {} before) := by
  -- one case for each part that can fail, in the order of the parts
  rw [Command.perform]
  cases hread : before.read input with
  | error refusal =>
    rw [performed_bind_of_error (performed_readInput_of_error hread)]
    exact .failed (.unread hread)
  | ok octets =>
    rw [performed_bind_of_ok (performed_readInput_of_ok hread)]
    cases htext : dumpText octets with
    | error fault =>
      rw [performed_bind_of_error performed_pure]
      exact .failed (.unmade hread htext)
    | ok dump =>
      rw [performed_bind_of_ok performed_pure, performed_printOutput, output_append]
      exact .dumped hread htext

/-- Whatever is to be done with the code, nothing happens if there is none. -/
theorem performs_generate {output : Option String} {next : String → ExceptT Fault InMemory Unit}
    (hperform : (Command.generate input output options).perform =
      compileFile options input >>= next)
    (hnext : ∀ octets code, before.read input = .ok octets → compile options octets = .ok code →
      Performs before (.generate input output options) (performed (next code) {} before)) :
    Performs before (.generate input output options)
      (performed (Command.generate input output options).perform {} before) := by
  rw [hperform]
  cases hread : before.read input with
  | error refusal =>
    rw [performed_bind_of_error (performed_compileFile_of_error hread)]
    exact .failed (.unread hread)
  | ok octets =>
    have hcompiled : performed (compileFile options input) {} before =
        ((compile options octets, {}), before) := performed_compileFile_of_ok hread
    cases htext : compile options octets with
    | error fault =>
      rw [htext] at hcompiled
      rw [performed_bind_of_error hcompiled]
      exact .failed (.unmade hread htext)
    | ok code =>
      rw [htext] at hcompiled
      rw [performed_bind_of_ok hcompiled]
      exact hnext octets code hread htext

/-- The code is printed, or there is none and nothing has happened. -/
theorem performs_print (input : String) (options : Options) (before : Tree) :
    Performs before (.generate input none options)
      (performed (Command.generate input none options).perform {} before) := by
  refine performs_generate rfl fun octets code hread htext => ?_
  rw [performed_printOutput, output_append]
  exact .printed hread htext

/-- The output is written before anything is printed, so a write that fails comes in time. -/
theorem performs_write (input output : String) (options : Options) (before : Tree) :
    Performs before (.generate input (some output) options)
      (performed (Command.generate input (some output) options).perform {} before) := by
  refine performs_generate rfl fun octets code hread htext => ?_
  -- the text is made, so what is left is the write and the confirmation
  cases hwrite : before.write output (Text.Utf8.encode code) with
  | error refusal =>
    rw [performed_bind_of_error (performed_writeOutput_of_error hwrite)]
    exact .failed (.unwritten hread htext hwrite)
  | ok after =>
    rw [performed_bind_of_ok (performed_writeOutput_of_ok hwrite), performed_printOutput,
      output_append]
    exact .written hread htext hwrite

/-- **Whatever the command**, it comes to one of these. -/
theorem performs (command : Command) (before : Tree) :
    Performs before command (performed command.perform {} before) := by
  cases command with
  | decode input => exact performs_decode input before
  | generate input output options =>
    cases output with
    | none => exact performs_print input options before
    | some output => exact performs_write input output options before

/-! ### Runs -/

namespace Outcome

/-- What is seen of a run that prints the text and succeeds. -/
def success (text : String) : Outcome where
  exitCode := 0
  output := text

/-- What is seen of a run that fails. -/
def failure (fault : Fault) : Outcome where
  exitCode := 1
  errors := "Error: " ++ report fault ++ "\n"

/-- What is seen of a run whose arguments ask for nothing. -/
def misuse : Outcome where
  exitCode := 2
  errors := usage

end Outcome

theorem exitCode_misuse : Outcome.misuse.exitCode ≠ 0 := by decide

theorem exitCode_failure (fault : Fault) : (Outcome.failure fault).exitCode ≠ 0 := by
  show (1 : UInt32) ≠ 0
  decide

/-- Without a request the run is a misuse. -/
theorem run_of_misuse (h : Request.ofArguments? arguments = none) :
    run arguments before = (.misuse, before) := by
  rw [run, execute, program, h]
  show (Outcome.mk 2 _ ("" ++ usage), before) = _
  rw [String.empty_append]
  rfl

/-- A request for help is answered. -/
theorem run_of_help {topic : Topic} (h : Request.ofArguments? arguments = some (.help topic)) :
    run arguments before = (.success topic.text, before) := by
  rw [run, execute, program, h]
  show (Outcome.mk 0 ("" ++ topic.text) _, before) = _
  rw [String.empty_append]
  rfl

/-- A command that succeeds ends the run. -/
theorem run_of_ok (h : Request.ofArguments? arguments = some (.command command))
    (hcommand : performed command.perform {} before = ((.ok (), { output := code }), after)) :
    run arguments before = (.success code, after) := by
  rw [performed] at hcommand
  rw [run, execute, program, h]
  dsimp only
  -- three layers: the result, what is printed, and the files
  rw [StateT.run_bind, StateT.run_bind, StateT.run_bind, hcommand]
  rfl

/-- A command that fails is reported. -/
theorem run_of_error (h : Request.ofArguments? arguments = some (.command command))
    (hcommand : performed command.perform {} before = ((.error fault, {}), after)) :
    run arguments before = (.failure fault, after) := by
  rw [performed] at hcommand
  rw [run, execute, program, h]
  dsimp only
  rw [StateT.run_bind, StateT.run_bind, StateT.run_bind, hcommand]
  show (Outcome.mk 1 _ ("" ++ _), after) = _
  rw [String.empty_append]
  rfl

/-- What a run has done that ends with success. -/
inductive Done (arguments : List String) (before : Tree) : Outcome × Tree → Prop
  /-- The help that was asked for is printed, and no command is carried out. -/
  | helped {topic : Topic} (hasked : AsksForHelp arguments topic) :
      Done arguments before (.success topic.text, before)
  /-- The dump of the input is printed, with a line feed. -/
  | dumped {input dump : String} {octets : List UInt8}
      (hspelled : Spells arguments (.decode input)) (hread : before.read input = .ok octets)
      (htext : dumpText octets = .ok dump) :
      Done arguments before (.success (dump ++ "\n"), before)
  /-- The code for the input is printed. -/
  | printed {input code : String} {options : Options} {octets : List UInt8}
      (hspelled : Spells arguments (.generate input none options))
      (hread : before.read input = .ok octets) (htext : compile options octets = .ok code) :
      Done arguments before (.success code, before)
  /-- The output has become what would have been printed without it, which can be asked for by the
  same arguments without the option or in any other way. -/
  | written {input output code : String} {options : Options} {after : Tree}
      (hspelled : Spells arguments (.generate input (some output) options))
      (hwithout : Spells (withoutOutput arguments) (.generate input none options))
      (hplain : ∀ others, Spells others (.generate input none options) →
        run others before = (.success code, before))
      (honly : before.Replaces output (Text.Utf8.encode code) after) :
      Done arguments before (.success ("Schema written to " ++ output ++ "\n"), after)

/-- Without the output, the same command prints the code and leaves all files as they are. -/
theorem run_print (h : Spells arguments (.generate input none options))
    (hread : before.read input = .ok octets) (htext : compile options octets = .ok code) :
    run arguments before = (.success code, before) := by
  have hrequest : Request.ofArguments? arguments =
      some (.command (.generate input none options)) := ofArguments?_eq_some_iff.mpr h
  have hcompiled : performed (compileFile options input) {} before =
      ((.ok code, {}), before) := htext ▸ performed_compileFile_of_ok hread
  refine run_of_ok hrequest ?_
  rw [Command.perform, performed_bind_of_ok hcompiled, performed_printOutput, output_append]

/-- Why a run has done nothing. -/
inductive Declined (arguments : List String) (before : Tree) : Outcome → Prop
  /-- The arguments ask neither for a command nor for help. -/
  | misused (hnone : ∀ request, ¬ Asks arguments request) : Declined arguments before .misuse
  /-- The command that is asked for is refused. -/
  | refused {command : Command} {fault : Fault} (hspelled : Spells arguments command)
      (hrefused : Refused before command fault) : Declined arguments before (.failure fault)

/-- **All or nothing.** A run that ends with a fault prints nothing and leaves all files as they
were: its arguments ask for nothing, or there is a reason to refuse the command they spell. A run
that ends with success has done what was asked: it prints the help, the dump or the code and leaves
all files as they were, or it replaces the output, and no other file, by what the same command
without the output prints. -/
theorem run_all_or_nothing (arguments : List String) (before : Tree) :
    ((run arguments before).1.exitCode ≠ 0 →
      (run arguments before).1.output = "" ∧ (run arguments before).2 = before ∧
        Declined arguments before (run arguments before).1) ∧
    ((run arguments before).1.exitCode = 0 → Done arguments before (run arguments before)) := by
  match hrequest : Request.ofArguments? arguments with
  | none =>
    -- what is not read is not spelled either, so the arguments ask for nothing at all
    have hnone (request : Request) : ¬ Asks arguments request := fun hasks =>
      Option.some_ne_none request ((ofArguments?_eq_some_iff.mpr hasks).symm.trans hrequest)
    rw [run_of_misuse hrequest]
    exact ⟨fun _ => ⟨rfl, rfl, .misused hnone⟩, fun h => absurd h exitCode_misuse⟩
  | some (.help topic) =>
    rw [run_of_help hrequest]
    exact ⟨fun h => absurd rfl h, fun _ => .helped (ofArguments?_eq_some_iff.mp hrequest)⟩
  | some (.command command) =>
    -- how the command ends decides the exit code, so each way settles one half of the two
    have hspelled : Spells arguments command := ofArguments?_eq_some_iff.mp hrequest
    have hperforms := performs command before
    generalize hresult : performed command.perform {} before = result at hperforms
    cases hperforms with
    | @failed _ fault hrefused =>
      rw [run_of_error hrequest hresult]
      exact ⟨fun _ => ⟨rfl, rfl, .refused hspelled hrefused⟩,
        fun h => absurd h (exitCode_failure fault)⟩
    | dumped hread htext =>
      rw [run_of_ok hrequest hresult]
      exact ⟨fun h => absurd rfl h, fun _ => .dumped hspelled hread htext⟩
    | printed hread htext =>
      rw [run_of_ok hrequest hresult]
      exact ⟨fun h => absurd rfl h, fun _ => .printed hspelled hread htext⟩
    | written hread htext hwrite =>
      -- the input was read before the write, so the code is that of the old files
      rw [run_of_ok hrequest hresult]
      exact ⟨fun h => absurd rfl h, fun _ => .written hspelled hspelled.withoutOutput
        (fun _ hothers => run_print hothers hread htext) (Files.Tree.replaces_of_write hwrite)⟩

/-! ### A schema that is overwritten -/

/-- The schema of a struct without fields. -/
def schemaP : Container := .insert (.ofDeclaration "P") "P" (.struct (.named []))

/-- The octets of the schema. -/
def octetsOfP : List UInt8 := [1, 0, 0, 0, 80, 1, 0, 0, 0, 1, 0, 0, 0, 80, 4, 0, 0, 0, 0, 0]

/-- A directory with the schema in a file. -/
def desk : Tree where
  nodes := [(["work"], .directory), (["work", "p.bin"], .file octetsOfP)]
  current := ["work"]

/-- The code for the schema, without the keyword for exports. -/
def codeOfP : String :=
  "import \x7b b \x7d from \"@zorsh/zorsh\";\n\nconst PSchema = b.struct(\x7b\x7d);\n"
    ++ "type P = b.infer<typeof PSchema>;\n"

/-- Nothing is mentioned by the struct, so it stands alone. -/
theorem resolve_schemaP : schemaP.resolve schemaP.nominalNames = .ok ["P"] := by
  have hgraph : schemaP.dependencyGraph ["P"].eraseDups = .ok [("P", [])] := rfl
  have hvisit : visit [("P", [])] [] [] "P" = .ok ["P"] := by
    rw [DependencyGraph.visit_of_lookup_eq_some List.not_mem_nil List.not_mem_nil rfl,
      DependencyGraph.visitAll_nil]
    rfl
  refine (Container.resolve_of_graph hgraph).trans ?_
  show visitAll [("P", [])] [] [] ["P"] = _
  rw [DependencyGraph.visitAll_cons, hvisit]
  exact DependencyGraph.visitAll_nil

/-- The schema compiles to the code. -/
theorem compile_octetsOfP : compile ⟨false⟩ octetsOfP = .ok codeOfP := by
  have hdecode : decodeContainer octetsOfP = .ok schemaP := by decide +kernel
  have hbindings : schemaP.bindings ["P"] = .ok [⟨"P", .struct []⟩] := rfl
  have hgenerate : schemaP.generate ⟨false⟩ = .ok codeOfP :=
    Container.generate_eq_ok_iff.mpr ⟨_, _, resolve_schemaP, hbindings, rfl⟩
  show (decodeContainer octetsOfP >>= fun container =>
    (container.generate ⟨false⟩).mapError Fault.generation) = _
  rw [hdecode]
  show (schemaP.generate ⟨false⟩).mapError Fault.generation = _
  rw [hgenerate]
  rfl

/-- The arguments say that there shall be no keyword, and that the output is the input. -/
theorem spells_overwrite :
    Spells ["generate", "--no-exports", "-op.bin", "p.bin"]
      (.generate "p.bin" (some "p.bin") ⟨false⟩) := by
  have hvalue : Ordinary "p.bin" := .inl (by decide)
  have hattached : Attached "p.bin" "-op.bin" := .short (by decide) (by decide)
  have hwrites : Writes .generate [.noExports, .output "p.bin", .input "p.bin"]
      ["--no-exports", "-op.bin", "p.bin"] :=
    .noExports rfl (.attached rfl hattached (.input hvalue .nil))
  refine .generate (.plain hwrites) ⟨by decide, by decide⟩ (by decide) (fun value => ?_) (by decide)
  simp [eq_comm]

/-- The schema is overwritten by the code that was made from it. -/
theorem run_over_input :
    (run ["generate", "--no-exports", "-op.bin", "p.bin"] desk).1 =
      .success "Schema written to p.bin\n" ∧
    run ["generate", "--no-exports", "p.bin"] desk = (.success codeOfP, desk) ∧
    desk.Replaces "p.bin" (Text.Utf8.encode codeOfP)
      (run ["generate", "--no-exports", "-op.bin", "p.bin"] desk).2 := by
  have hread : desk.read "p.bin" = .ok octetsOfP := by decide +kernel
  have hwrite (contents : List UInt8) : ∃ after, desk.write "p.bin" contents = .ok after := ⟨_, rfl⟩
  have hwithout : withoutOutput ["generate", "--no-exports", "-op.bin", "p.bin"] =
      ["generate", "--no-exports", "p.bin"] := by decide
  have hplain : run ["generate", "--no-exports", "p.bin"] desk = (.success codeOfP, desk) :=
    run_print (hwithout ▸ spells_overwrite.withoutOutput) hread compile_octetsOfP
  obtain ⟨hfault, hdone⟩ := run_all_or_nothing ["generate", "--no-exports", "-op.bin", "p.bin"] desk
  generalize run ["generate", "--no-exports", "-op.bin", "p.bin"] desk = result at hfault hdone ⊢
  -- nothing stands in the way of the run, so it does not end with a fault
  have hexit : result.1.exitCode = 0 := by
    by_contra hexit
    obtain ⟨-, -, hdeclined⟩ := hfault hexit
    generalize result.1 = outcome at hdeclined
    cases hdeclined with
    | misused hnone => exact hnone (.command _) spells_overwrite
    | refused hspelled hrefused =>
      obtain rfl := hspelled.unique spells_overwrite
      cases hrefused with
      | unread hunread => cases hunread.symm.trans hread
      | unmade hread' htext =>
        obtain rfl := Except.ok.inj (hread'.symm.trans hread)
        cases htext.symm.trans compile_octetsOfP
      | unwritten _ _ hunwritten =>
        obtain ⟨after, hafter⟩ := hwrite _
        cases hunwritten.symm.trans hafter
  -- of the ways to succeed only the write agrees with the arguments
  cases hdone hexit with
  | helped hasked => exact absurd hasked spells_overwrite.not_asksForHelp
  | dumped hspelled | printed hspelled => cases hspelled.unique spells_overwrite
  | written hspelled hspelled' hcode honly =>
    cases hspelled.unique spells_overwrite
    rw [hwithout] at hspelled'
    -- what the command prints without the output is known, so the code is the same
    have hsame := (hcode _ hspelled').symm.trans hplain
    obtain rfl := congrArg Outcome.output (Prod.mk.inj hsame).1
    exact ⟨rfl, hplain, honly⟩

end WireBindings.CommandLine
