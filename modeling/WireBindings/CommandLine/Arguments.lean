import WireBindings.Binding.Print

/-!
# Arguments

The command line has two commands:

* `generate INPUT [-o OUT | --output OUT] [--no-exports]`
* `decode INPUT`

Options and the input may come in any order after the name of the command. The value of an option
is attached to it (`-oOUT`, `-o=OUT`, `--output=OUT`) or is the next argument. An argument that
begins with a dash is an option, with two exceptions: a lone dash is an ordinary value, and so is
everything after `--`. No option may be repeated, no value may be empty, and there is exactly one
input.

Instead of a command, the arguments may ask for help: by `-h` or `--help`, before or behind the name
of a command, or by the name `help` and then the name of what the help is about. Arguments are read
from left to right, so an option for help counts if nothing before it breaks the rules, and what
follows it does not matter. Whatever is neither a command nor asks for help is a misuse.
-/

namespace WireBindings.CommandLine

/-- What the program is asked to do. -/
inductive Command where
  /-- Write bindings for the container in the file `input`, to a file if there is an `output`. -/
  | generate (input : String) (output : Option String) (options : Options)
  /-- Print the dump of the container in the file `input`. -/
  | decode (input : String)
deriving DecidableEq, Repr

/-- What there is help about. -/
inductive Topic where
  /-- The program as a whole. -/
  | program
  /-- The command `generate`. -/
  | generate
  /-- The command `decode`. -/
  | decode
  /-- Asking for help by name. -/
  | help
deriving DecidableEq, Repr

/-- What the arguments ask for. -/
inductive Request where
  /-- To carry out the command. -/
  | command (command : Command)
  /-- To be told about the topic. -/
  | help (topic : Topic)
deriving DecidableEq, Repr

/-- The commands without their particulars. -/
inductive Verb where
  /-- The command `generate`, which has options. -/
  | generate
  /-- The command `decode`, which has none but the one for help. -/
  | decode
deriving DecidableEq, Repr

namespace Verb

/-- The name of the command. -/
def name : Verb → String
  | generate => "generate"
  | decode => "decode"

/-- The command of that name. -/
def ofName? (name : String) : Option Verb :=
  if name = "generate" then some generate
  else if name = "decode" then some decode
  else none

/-- The help for the command. -/
def topic : Verb → Topic
  | generate => .generate
  | decode => .decode

end Verb

/-- The topic that the names behind `help` lead to. -/
def Topic.ofNames? : List String → Option Topic
  | [] => some .program
  | [name] => if name = "help" then some .help else (Verb.ofName? name).map Verb.topic
  -- no command has commands of its own
  | _ => none

/-! ### Single arguments -/

/-- Something said about a command. -/
inductive Item where
  /-- The input. -/
  | input (value : String)
  /-- The output. -/
  | output (value : String)
  /-- To leave out the keyword for exports. -/
  | noExports
deriving DecidableEq, Repr

/-- What an item is about. -/
inductive Kind where
  | input
  | output
  | noExports
deriving DecidableEq, Repr

namespace Item

/-- What the item is about. -/
def kind : Item → Kind
  | input _ => .input
  | output _ => .output
  | noExports => .noExports

/-- The value in the item, if it has one. -/
def value? : Item → Option String
  | input value | output value => some value
  | noExports => none

end Item

/-- What a single argument is. -/
inductive Argument where
  /-- Something that is said by this argument alone. -/
  | item (item : Item)
  /-- The option for the output, which has its value in the next argument. -/
  | output
  /-- An option for help. -/
  | help
  /-- Any other argument that begins with a dash. -/
  | unknown
deriving DecidableEq, Repr

/-- Whether an argument asks for help. Letters behind the `-h` would be further options, but the
help comes first. -/
def isHelpOption (text : String) : Bool := text == "--help" || "-h".toList.isPrefixOf text.toList

/-- Whether an argument is an ordinary value. -/
def isValue (text : String) : Bool := text.toList.head? != some '-' || text == "-"

namespace Argument

/-- What a long option of `generate` is, help aside, without its dashes. -/
def ofLongOption (long : List Char) : Argument :=
  if long = "no-exports".toList then .item .noExports
  else if long = "output".toList then .output
  else if "output=".toList.isPrefixOf long then
    .item (.output (String.ofList (long.drop "output=".toList.length)))
  else .unknown

/-- What an option of `generate` is, help aside. -/
def ofOption : List Char → Argument
  | '-' :: '-' :: long => ofLongOption long
  | ['-', 'o'] => .output
  -- an equals sign is not part of the value, but only the first
  | '-' :: 'o' :: '=' :: value => .item (.output (String.ofList value))
  | '-' :: 'o' :: value => .item (.output (String.ofList value))
  | _ => .unknown

/-- What an argument of the command is, when it stands before any `--`. -/
def ofString (verb : Verb) (text : String) : Argument :=
  if isHelpOption text then .help
  else if isValue text then .item (.input text)
  else
    match verb with
    | .generate => ofOption text.toList
    | .decode => .unknown

end Argument

/-! ### All arguments of a command -/

/-- Why the arguments of a command are not read to their end. -/
inductive Stop where
  /-- There is an option for help, and what follows does not matter. -/
  | help
  /-- There is an argument that is not allowed where it stands. -/
  | misuse
deriving DecidableEq, Repr

/-- Takes a further item to those said before, unless it says the same thing again or has an empty
value. -/
def addItem (items : List Item) (item : Item) : Except Stop (List Item) :=
  if item.value? = some "" || items.any (fun other => other.kind = item.kind) then .error .misuse
  else .ok (items ++ [item])

/-- Takes what the arguments of the command say to the items said before. After `--` there are only
values. -/
def addAll (verb : Verb) (items : List Item) : List String → Except Stop (List Item)
  | [] => .ok items
  | argument :: rest =>
    -- the first `--` is no value itself, a second one would be
    if argument = "--" then (rest.map Item.input).foldlM addItem items
    else
      match Argument.ofString verb argument with
      | .item item => do addAll verb (← addItem items item) rest
      | .output =>
        match rest with
        | [] => .error .misuse
        | next :: rest =>
          -- the next argument is the value, but only if it does not look like an option itself
          if isValue next then do addAll verb (← addItem items (.output next)) rest
          else .error .misuse
      | .help => .error .help
      | .unknown => .error .misuse

/-- The value among the items that is about this. -/
def valueOf (kind : Kind) (items : List Item) : Option String :=
  items.findSome? fun item => if item.kind = kind then item.value? else none

/-- The command of which the items have been said, if there is an input. -/
def Verb.command? (verb : Verb) (items : List Item) : Option Command :=
  (valueOf .input items).map fun input =>
    match verb with
    | .generate => .generate input (valueOf .output items) ⟨!items.contains .noExports⟩
    | .decode => .decode input

/-- What the arguments behind the name of a command ask for. -/
def Verb.request? (verb : Verb) (arguments : List String) : Option Request :=
  match addAll verb [] arguments with
  | .ok items => (verb.command? items).map .command
  | .error .help => some (.help verb.topic)
  | .error .misuse => none

/-- What the arguments ask for, if they follow the rules. -/
def Request.ofArguments? : List String → Option Request
  | [] => none
  | name :: arguments =>
    match Verb.ofName? name with
    | some verb => verb.request? arguments
    | none =>
      if name = "help" then (Topic.ofNames? arguments).map .help
      else if isHelpOption name then some (.help .program)
      else none

end WireBindings.CommandLine
