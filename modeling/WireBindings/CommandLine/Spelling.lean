import WireBindings.CommandLine.Arguments

/-!
# Spellings of commands

What arguments mean, said without reading them one by one: `Spells arguments command` holds when the
arguments are a way to write the command, and `AsksForHelp arguments topic` when they ask for help.
A command has many spellings, since the things said about it may come in any order (`Writes`) and
each can be written in several ways. No arguments spell two commands.
-/

namespace WireBindings.CommandLine

/-! ### Single arguments -/

/-- An ordinary value begins with no dash, or it is a lone dash. -/
def Ordinary (text : String) : Prop := text.toList.head? ≠ some '-' ∨ text = "-"

/-- The option for the output with its value in the same argument. -/
inductive Attached (value : String) : String → Prop
  /-- Without an equals sign the value is what follows, unless it is empty or begins with one. -/
  | short (hsome : value ≠ "") (hequals : value.toList.head? ≠ some '=') :
      Attached value ("-o" ++ value)
  | equals : Attached value ("-o=" ++ value)
  | long : Attached value ("--output=" ++ value)

/-- The option for help. What stands behind the short form does not matter. -/
inductive HelpOption : String → Prop
  | long : HelpOption "--help"
  | short (more : String) : HelpOption ("-h" ++ more)

/-! ### What is said about a command -/

/-- The items can be written so, one after the other. Only `generate` has options. -/
inductive Writes (verb : Verb) : List Item → List String → Prop
  | nil : Writes verb [] []
  | input {value : String} {items : List Item} {rest : List String} (hvalue : Ordinary value)
      (hrest : Writes verb items rest) : Writes verb (.input value :: items) (value :: rest)
  | attached {value text : String} {items : List Item} {rest : List String}
      (hverb : verb = .generate) (htext : Attached value text) (hrest : Writes verb items rest) :
      Writes verb (.output value :: items) (text :: rest)
  | separate {value option : String} {items : List Item} {rest : List String}
      (hverb : verb = .generate) (hoption : option = "-o" ∨ option = "--output")
      (hvalue : Ordinary value) (hrest : Writes verb items rest) :
      Writes verb (.output value :: items) (option :: value :: rest)
  | noExports {items : List Item} {rest : List String} (hverb : verb = .generate)
      (hrest : Writes verb items rest) : Writes verb (.noExports :: items) ("--no-exports" :: rest)

/-- The items are all that the arguments say. Behind `--` every argument is an input. -/
inductive Lists (verb : Verb) : List Item → List String → Prop
  | plain {items : List Item} {arguments : List String} (hwrites : Writes verb items arguments) :
      Lists verb items arguments
  | dashes {items : List Item} {front : List String} (hwrites : Writes verb items front)
      (values : List String) :
      Lists verb (items ++ values.map .input) (front ++ "--" :: values)

/-- Nothing is said twice, and no value is empty. -/
structure Consistent (items : List Item) : Prop where
  once : (items.map Item.kind).Nodup
  nonempty : ∀ item ∈ items, item.value? ≠ some ""

/-! ### Requests -/

/-- The arguments are a way to write the command. -/
inductive Spells : List String → Command → Prop
  /-- The keyword for exports stays unless it is said that it shall not. -/
  | generate {items : List Item} {arguments : List String} {input : String}
      {output : Option String} {options : Options} (hlists : Lists .generate items arguments)
      (hitems : Consistent items) (hinput : Item.input input ∈ items)
      (houtput : ∀ value, Item.output value ∈ items ↔ output = some value)
      (hexports : options.exports = true ↔ Item.noExports ∉ items) :
      Spells ("generate" :: arguments) (.generate input output options)
  | decode {items : List Item} {arguments : List String} {input : String}
      (hlists : Lists .decode items arguments) (hitems : Consistent items)
      (hinput : Item.input input ∈ items) : Spells ("decode" :: arguments) (.decode input)

/-- The arguments ask for help about the topic. -/
inductive AsksForHelp : List String → Topic → Prop
  | program {text : String} (htext : HelpOption text) (rest : List String) :
      AsksForHelp (text :: rest) .program
  | name : AsksForHelp ["help"] .program
  | nameOfCommand (verb : Verb) : AsksForHelp ["help", verb.name] verb.topic
  | nameOfHelp : AsksForHelp ["help", "help"] .help
  /-- Behind the name of a command, what comes before the option has to be in order. -/
  | command {verb : Verb} {items : List Item} {front : List String} {text : String}
      (hwrites : Writes verb items front) (hitems : Consistent items) (htext : HelpOption text)
      (rest : List String) : AsksForHelp (verb.name :: (front ++ text :: rest)) verb.topic

/-- The arguments are a way to make the request. -/
def Asks (arguments : List String) : Request → Prop
  | .command command => Spells arguments command
  | .help topic => AsksForHelp arguments topic

end WireBindings.CommandLine
