import WireBindings.CommandLine.Arguments

/-!
# Help

What there is to be read about the program and its commands. A page of help says what its topic is
for and how it is called, and then explains it in sections, which are tables of two columns.
-/

namespace WireBindings.CommandLine

/-- A section of a page. -/
structure HelpSection where
  /-- The heading. -/
  title : String
  /-- What is explained, and how. -/
  rows : List (String × String)

/-- A page of help. -/
structure HelpPage where
  /-- What the topic is for. -/
  about : String
  /-- How it is called. -/
  call : String
  /-- What is explained further. -/
  sections : List HelpSection

/-- The text with blanks after it, up to the width. -/
def padTo (width : Nat) (text : String) : String :=
  text ++ String.ofList (List.replicate (width - text.length) ' ')

/-- A section as it is printed: the second column begins two blanks behind the widest entry of the
first. -/
def HelpSection.print (part : HelpSection) : String :=
  let width := part.rows.foldl (fun width row => max width row.1.length) 0
  part.title ++ ":\n" ++ String.join (part.rows.map fun (subject, explanation) =>
    "  " ++ padTo width subject ++ "  " ++ explanation ++ "\n")

/-- A page as it is printed, with an empty line between its parts. -/
def HelpPage.print (page : HelpPage) : String :=
  "\n".intercalate
    ((page.about ++ "\n") :: ("Usage: " ++ page.call ++ "\n") ::
      page.sections.map HelpSection.print)

/-- The row for the option by which help is asked for. -/
def helpRow : String × String := ("-h, --help", "Print help")

namespace Topic

/-- What the topic is for. -/
def about : Topic → String
  | program => "Generate Zorsh schemas from Borsh schema files"
  | generate => "Generate Zorsh declarations from a Borsh schema `.bin` file"
  | decode => "Decode a Borsh schema `.bin` file to JSON (printed to stdout)"
  | help => "Print this message or the help of the given subcommand(s)"

/-- The page about the topic. -/
def page (topic : Topic) : HelpPage where
  about := topic.about
  call :=
    match topic with
    | program => "zorsh-gen <COMMAND>"
    | generate => "zorsh-gen generate [OPTIONS] <INPUT>"
    | decode => "zorsh-gen decode <INPUT>"
    | help => "zorsh-gen help [COMMAND]..."
  sections :=
    match topic with
    | program =>
      [⟨"Commands",
          [("generate", generate.about), ("decode", decode.about), ("help", help.about)]⟩,
        ⟨"Options", [helpRow]⟩]
    | generate =>
      [⟨"Arguments",
          [("<INPUT>", "Input `.bin` file containing a serialized `BorshSchemaContainer`")]⟩,
        ⟨"Options",
          [("-o, --output <OUTPUT>", "Output file (if omitted, prints to stdout)"),
            ("    --no-exports", "Don't export the generated schemas and types"), helpRow]⟩]
    | decode => [⟨"Arguments", [("<INPUT>", "Input `.bin` file")]⟩, ⟨"Options", [helpRow]⟩]
    | help => [⟨"Arguments", [("[COMMAND]...", "Print help for the subcommand(s)")]⟩]

/-- The help that is printed about the topic. -/
def text (topic : Topic) : String := topic.page.print

end Topic

end WireBindings.CommandLine
