import ClosureConversion.CommandLine.Arguments
import ClosureConversion.CommandLine.Explanation
import ClosureConversion.CommandLine.Manual
import ClosureConversion.Configuration
import ClosureConversion.Conversion.Json
import ClosureConversion.Files
import ClosureConversion.Json.Parser
import ClosureConversion.Report.Printer
import ClosureConversion.Text.Uppercase
import ClosureConversion.Tree.Json

/-! # Commands -/

set_option autoImplicit false

namespace ClosureConversion.CommandLine

/-- Why a command failed. -/
inductive Failure where
  | unreadable (path : String) (error : FileError)
  | unwritable (path : String) (error : FileError)
  | file (error : FileError)
  | invalidModule (path : String)
  | invalidTable (path : String)
  | invalidConfiguration
  | unconverted (module : String) (errors warnings : Nat)
  | unknownCode (code : String)
  deriving Repr, DecidableEq

namespace Failure

def summary : Failure → String
  | .unreadable path e => s!"Failed to read {path}: {e.message}"
  | .unwritable path e => s!"Failed to write {path}: {e.message}"
  | .file e => e.message
  | .invalidModule path => s!"Invalid module in {path}"
  | .invalidTable path => s!"Invalid inference table in {path}"
  | .invalidConfiguration => "Invalid configuration"
  | .unconverted module errors warnings =>
    s!"Conversion of `{module}` failed with {errors} error(s) and {warnings} warning(s)"
  | .unknownCode code => s!"Unknown diagnostic code: {code}"

/-- What the summary leaves open. -/
def detail? : Failure → Option String
  | .invalidModule _ => some "the text is not a module in JSON"
  | .invalidTable _ => some "the text is not an inference table in JSON"
  | .invalidConfiguration => some "the text is not TOML or sets an option wrongly"
  | _ => none

def message (f : Failure) : String :=
  match f.detail? with
  | some d => f.summary ++ ": " ++ d
  | none => f.summary

end Failure

/-- What a command prints, and why it failed if it did. -/
structure Outcome where
  stdout : String := ""
  stderr : String := ""
  failure : Option Failure := none

namespace Outcome

def exitCode (o : Outcome) : Nat := if o.failure.isSome then 1 else 0

/-- All that goes to the error stream; the failure comes last. -/
def errorText (o : Outcome) : String :=
  match o.failure with
  | some f => o.stderr ++ "Error: " ++ f.message ++ "\n"
  | none => o.stderr

end Outcome

/-- The level up to which events are shown. -/
def General.level (g : General) : Level :=
  if g.quiet then .error
  else
    match g.verbosity with
    | 0 => .warn
    | 1 => .info
    | 2 => .debug
    | _ => .trace

/-! ## Inputs of a conversion -/

/-- Work that keeps a journal and may fail. -/
abbrev Stage := ExceptT Failure (StateT Journal Script)

namespace Stage

def tell (e : Event) : Stage Unit := modify (e :: ·)

def perform {α : Type} (s : Script α) : Stage α := liftM s

def readFile (path : String) : Stage String := do
  match ← perform (.read path .done) with
  | .ok text => return text
  | .error e => throw (.unreadable path e)

end Stage

open Stage in
/-- The options in the file that is named, else in the configuration file if there is one. -/
def loadOptions (named : Option String) : Stage Options := do
  if named.isNone && !(← perform (.probe configurationFile .done)) then
    tell (.noConfiguration configurationFile)
    return {}
  let path := named.getD configurationFile
  let text ← readFile path
  tell (.configurationRead path)
  match Options.ofConfiguration? text with
  | some o => return o
  | none => throw .invalidConfiguration

open Stage in
def loadModule (path : String) : Stage Module := do
  match (Json.read? (← readFile path)).bind (Module.ofJson? .lenient) with
  | some m => return m
  | none => throw (.invalidModule path)

open Stage in
def loadTable (path : String) : Stage Table := do
  match (Json.read? (← readFile path)).bind Table.ofJson? with
  | some t => return t
  | none => throw (.invalidTable path)

/-! ## Results of a conversion -/

/-- Under `strict`, warnings count as errors. -/
def hasFailed (c : Converted) (strict : Bool) : Bool :=
  c.report.hasErrors || (strict && 0 < c.report.warningCount)

def closureLine (c : ClosureSummary) : String :=
  let captures := if c.captures.isEmpty then "" else " [" ++ ", ".intercalate c.captures ++ "]"
  let mark := if c.fallible then " fallible" else ""
  s!"  {c.qualname} -> {c.wrapper} ({c.shape.text}){captures}{mark}\n"

/-- The closures that were made, one a line. -/
def closureList (c : Converted) : String :=
  if c.closures.isEmpty then ""
  else s!"\n{c.closures.length} closure(s):\n" ++ String.join (c.closures.map closureLine)

/-- What is printed for people: the code unless it went to a file, then the report. -/
def textOutcome (g : General) (a : ConvertArguments) (c : Converted) : Outcome :=
  let report := if !g.quiet || c.report.hasErrors then
      Terminal.report { colored := false, module := c.module } c.report
    else ""
  { stdout := if a.output.isNone then c.render else ""
    stderr := report ++ (if g.quiet then "" else closureList c) }

/-- What is printed for tools. -/
def jsonOutcome (a : ConvertArguments) (c : Converted) : Outcome :=
  let result := Json.obj
    [("success", .bool !(hasFailed c a.strict)), ("module", .str c.module), ("code", .str c.render),
      ("functions", .arr (c.functions.map ConvertedFunction.toJson)),
      ("diagnostics", .obj [("items", .arr (c.report.map Diagnostic.toJson))])]
  { stdout := result.pretty ++ "\n"
    stderr := if c.report.hasErrors then c.report.jsonSummary else "" }

/-! ## Commands -/

open Stage in
def convertStage (g : General) (a : ConvertArguments) : Stage Outcome := do
  let options ← loadOptions a.config
  let m ← loadModule a.input
  let table ← match a.types with
    | some path => loadTable path
    | none => pure {}
  tell (.converting m.name m.functions.length)
  let (c, journal) := convertWithJournal m { oracle := table.oracle, options } (← get)
  set journal
  if let some path := a.output then
    if let .error e ← perform (.write path c.render .done) then
      throw (.unwritable path e)
  let o := if g.format = some .json then jsonOutcome a c else textOutcome g a c
  let failure := if hasFailed c a.strict then
      some (Failure.unconverted c.module c.report.errorCount c.report.warningCount)
    else none
  return { o with failure }

/-- Events come before all else on the error stream. -/
def runConvert (g : General) (a : ConvertArguments) : Script Outcome := do
  let (result, journal) ← (convertStage g a).run.run []
  let log := journal.render g.level
  match result with
  | .ok o => return { o with stderr := log ++ o.stderr }
  | .error f => return { stderr := log, failure := some f }

/-- The path of `file` in the folder `path`. -/
def inFolder (path file : String) : String :=
  if path.endsWith "/" then path ++ file else path ++ "/" ++ file

def initOutcome (g : General) (path : String) (created : Bool) : Outcome :=
  if g.format = some .json then
    { stdout := (Json.obj [("success", .bool true), ("created", .bool created),
        ("path", .str path)]).compact ++ "\n" }
  else if created then { stdout := s!"  Created {path}\n" }
  else { stdout := s!"  Skipped {path} (already exists)\n" }

def runInit (g : General) (folder : String) (force : Bool) : Script Outcome := do
  match ← Script.createFolder folder with
  | .error e => return { failure := some (.file e) }
  | .ok () =>
    let path := inFolder folder configurationFile
    if (← Script.probe path .done) && !force then return initOutcome g path false
    match ← Script.write path ({} : Options).configuration .done with
    | .error e => return { failure := some (.file e) }
    | .ok () => return initOutcome g path true

/-- Codes are found without regard to case. -/
def explainOutcome (g : General) (word : String) : Outcome :=
  let text := Text.upper word
  match Code.all.find? (·.text == text) with
  | none => { failure := some (.unknownCode text) }
  | some code =>
    if g.format = some .json then
      { stdout := (code.explanation.toJson code).pretty ++ "\n" }
    else { stdout := code.explanation.text code }

def Command.run (g : General) : Command → Script Outcome
  | .convert a => runConvert g a
  | .init folder force => runInit g folder force
  | .explain code => return explainOutcome g code

/-- What reaches the caller of the program. -/
structure Exit where
  code : Nat
  stdout : String
  stderr : String

def Request.carryOut : Request → Script Exit
  | .help t => return ⟨0, helpText t, ""⟩
  | .overview => return ⟨0, helpText .program ++ "\n", ""⟩
  | .version t => return ⟨0, versionText t, ""⟩
  | .misuse t cause => return ⟨2, "", misuseText t cause⟩
  | .run g c => do
    let o ← c.run g
    return ⟨o.exitCode, o.stdout, o.errorText⟩

end ClosureConversion.CommandLine
