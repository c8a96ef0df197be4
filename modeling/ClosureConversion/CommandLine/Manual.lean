import ClosureConversion.CommandLine.Arguments

/-! # Help, version and usage errors -/

set_option autoImplicit false

namespace ClosureConversion.CommandLine

def programVersion : String := "0.3.0"

namespace Topic

/-- The name under which a topic tells its version. -/
def fullName : Topic → String
  | .program => Topic.program.name
  | t => Topic.program.name ++ "-" ++ t.name

def summary : Topic → String
  | .program => "Convert nested functions into static closure types"
  | .convert => "Convert the closures of a module"
  | .init => "Write a ferrule.toml with the default options"
  | .explain => "Explain a diagnostic code"
  | .help => "Print this message or the help of the given subcommand(s)"

def usage : Topic → String
  | .program => "Usage: ferrule [OPTIONS] [COMMAND]"
  | .convert => "Usage: ferrule convert [OPTIONS] <INPUT>"
  | .init => "Usage: ferrule init [OPTIONS] [PATH]"
  | .explain => "Usage: ferrule explain [OPTIONS] <CODE>"
  | .help => "Usage: ferrule help [COMMAND]..."

def arguments : Topic → List (String × String)
  | .convert => [("<INPUT>", "Module to convert, as HIR JSON")]
  | .init => [("[PATH]", "Directory to write the configuration into [default: .]")]
  | .explain => [("<CODE>", "Diagnostic code to explain (e.g., A001, C001)")]
  | .help => [("[COMMAND]...", "Print help for the subcommand(s)")]
  | .program => []

def options (t : Topic) : List (String × String) :=
  let own := match t with
    | .convert =>
      [("-t, --types <TYPES>", "Inference results for the module, as JSON"),
        ("-o, --output <OUTPUT>", "Where to write the converted source (stdout by default)"),
        ("-c, --config <CONFIG>",
          "Configuration file (defaults to ./ferrule.toml when present)"),
        ("    --strict", "Treat warnings as errors")]
    | .init => [("    --force", "Overwrite an existing configuration")]
    | _ => []
  if t = .help then []
  else
    own ++
      [("    --format <FORMAT>", "Output format [default: text] [possible values: text, json]"),
        ("-v, --verbose...", "Increase verbosity (-v, -vv, -vvv)"),
        ("-q, --quiet", "Suppress non-error output"), ("    --no-color", "Disable colored output"),
        ("-h, --help", "Print help"), ("-V, --version", "Print version")]

end Topic

/-- A heading with entries in two columns. -/
def columns (heading : String) (entries : List (String × String)) : String :=
  if entries.isEmpty then ""
  else
    let width := entries.foldl (fun w e => max w e.1.length) 0
    let line (e : String × String) : String :=
      let gap := List.replicate (width - e.1.length + 2) ' '
      "  " ++ e.1 ++ String.ofList gap ++ e.2 ++ "\n"
    "\n" ++ heading ++ ":\n" ++ String.join (entries.map line)

def helpText (t : Topic) : String :=
  let commands := if t = .program then Topic.commands.map fun c => (c.name, c.summary) else []
  t.summary ++ "\n\n" ++ t.usage ++ "\n" ++ columns "Commands" commands
    ++ columns "Arguments" t.arguments ++ columns "Options" t.options

def versionText (t : Topic) : String := t.fullName ++ " " ++ programVersion ++ "\n"

def misuseText (t : Topic) (cause : Misuse) : String :=
  "error: " ++ cause.message ++ "\n\n" ++ t.usage ++ "\n\nFor more information, try '--help'.\n"

end ClosureConversion.CommandLine
