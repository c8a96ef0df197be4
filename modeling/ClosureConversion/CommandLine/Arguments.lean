/-! # Arguments of the command line -/

set_option autoImplicit false

namespace ClosureConversion.CommandLine

inductive Format where
  | text
  | json
  deriving Repr, DecidableEq

/-- Options that every command has, as far as they are given. -/
structure General where
  format : Option Format := none
  verbosity : Nat := 0
  quiet : Bool := false
  noColor : Bool := false
  deriving Repr, DecidableEq

/-- What is given after the name of a command counts more than what is given before it. -/
def General.over (inner outer : General) : General :=
  { format := inner.format.or outer.format
    verbosity := if inner.verbosity = 0 then outer.verbosity else inner.verbosity
    quiet := inner.quiet || outer.quiet
    noColor := inner.noColor || outer.noColor }

structure ConvertArguments where
  input : String
  types : Option String := none
  output : Option String := none
  config : Option String := none
  strict : Bool := false
  deriving Repr, DecidableEq

inductive Command where
  | convert (arguments : ConvertArguments)
  | init (path : String) (force : Bool)
  | explain (code : String)
  deriving Repr, DecidableEq

/-- The program itself or one of its commands. -/
inductive Topic where
  | program
  | convert
  | init
  | explain
  | help
  deriving Repr, DecidableEq

namespace Topic

def commands : List Topic := [.convert, .init, .explain, .help]

def name : Topic → String
  | .program => "ferrule"
  | .convert => "convert"
  | .init => "init"
  | .explain => "explain"
  | .help => "help"

def command? (word : String) : Option Topic := commands.find? (·.name == word)

end Topic

inductive Flag where
  | verbose
  | quiet
  | noColor
  | strict
  | force
  | help
  | version
  deriving Repr, DecidableEq

/-- An option that is followed by a value. -/
inductive Setting where
  | format
  | types
  | output
  | config
  deriving Repr, DecidableEq

inductive Switch where
  | flag (f : Flag)
  | setting (s : Setting)
  deriving Repr, DecidableEq

/-- The options of a topic, with their long and short names. -/
def Topic.switches (t : Topic) : List (String × Option Char × Switch) :=
  let own := match t with
    | .convert =>
      [("types", some 't', .setting .types), ("output", some 'o', .setting .output),
        ("config", some 'c', .setting .config), ("strict", none, .flag .strict)]
    | .init => [("force", none, .flag .force)]
    | _ => []
  own ++
    [("format", none, .setting .format), ("verbose", some 'v', .flag .verbose),
      ("quiet", some 'q', .flag .quiet), ("no-color", none, .flag .noColor),
      ("help", some 'h', .flag .help), ("version", some 'V', .flag .version)]

def Topic.long? (t : Topic) (name : String) : Option Switch :=
  (t.switches.find? (·.1 == name)).map (·.2.2)

def Topic.short? (t : Topic) (c : Char) : Option Switch :=
  (t.switches.find? (·.2.1 == some c)).map (·.2.2)

def Setting.text : Setting → String
  | .format => "--format <FORMAT>"
  | .types => "--types <TYPES>"
  | .output => "--output <OUTPUT>"
  | .config => "--config <CONFIG>"

def Flag.text : Flag → String
  | .verbose => "--verbose"
  | .quiet => "--quiet"
  | .noColor => "--no-color"
  | .strict => "--strict"
  | .force => "--force"
  | .help => "--help"
  | .version => "--version"

/-- How a command line breaks the rules. -/
inductive Misuse where
  | unexpected (word : String)
  | missingValue (option : String)
  | invalidValue (value option : String)
  | unwantedValue (value option : String)
  | repeated (option : String)
  | missing (argument : String)
  | unknownCommand (word : String)
  deriving Repr, DecidableEq

def Misuse.message : Misuse → String
  | .unexpected word => s!"unexpected argument '{word}' found"
  | .missingValue option => s!"a value is required for '{option}' but none was supplied"
  | .invalidValue value option => s!"invalid value '{value}' for '{option}'"
  | .unwantedValue value option => s!"unexpected value '{value}' for '{option}' found"
  | .repeated option => s!"the argument '{option}' cannot be used multiple times"
  | .missing argument =>
    s!"the following required arguments were not provided:\n  {argument}"
  | .unknownCommand word => s!"unrecognized subcommand '{word}'"

/-- What a command line asks for. -/
inductive Request where
  | help (topic : Topic)
  | version (topic : Topic)
  | misuse (topic : Topic) (cause : Misuse)
  /-- Nothing but general options. -/
  | overview
  | run (general : General) (command : Command)
  deriving Repr, DecidableEq

/-! ## Words given so far -/

/-- What was given to a topic. A setting is kept apart until the next word shows that it is
complete. -/
structure Given where
  topic : Topic
  flags : List Flag := []
  verbosity : Nat := 0
  values : List (Setting × String) := []
  pending : Option (Setting × Option String) := none
  positional : Option String := none
  /-- Set after `--`. -/
  literal : Bool := false

/-- Reading ends early when help or the version is asked for, or on misuse. -/
abbrev Reading := Except Request

namespace Given

variable {α : Type}

def fail (g : Given) (cause : Misuse) : Reading α := .error (.misuse g.topic cause)

def value? (g : Given) (s : Setting) : Option String :=
  (g.values.find? (·.1 == s)).map Prod.snd

/-- The formats have names, and no path is empty. -/
def accepts : Setting → String → Bool
  | .format, v => v == "text" || v == "json"
  | _, v => v != ""

def set (g : Given) (s : Setting) (v : String) : Reading Given :=
  if (g.value? s).isSome then g.fail (.repeated s.text)
  else if accepts s v then .ok { g with values := g.values ++ [(s, v)], pending := none }
  else g.fail (.invalidValue v s.text)

/-- Take the pending setting over. -/
def settle (g : Given) : Reading Given :=
  match g.pending with
  | none => .ok g
  | some (s, none) => g.fail (.missingValue s.text)
  | some (s, some v) => g.set s v

def addFlag (g : Given) (f : Flag) : Reading Given := do
  let g ← g.settle
  match f with
  | .help => .error (.help g.topic)
  | .version => .error (.version g.topic)
  | .verbose => .ok { g with verbosity := g.verbosity + 1 }
  | f => if g.flags.contains f then g.fail (.repeated f.text) else .ok { g with flags := f :: g.flags }

def addSetting (g : Given) (s : Setting) (value : Option String) : Reading Given := do
  let g ← g.settle
  match value with
  | some v => g.set s v
  | none => .ok { g with pending := some (s, none) }

/-- The name of the one argument that a topic takes, and whether it may be empty. -/
def argument? : Topic → Option (String × Bool)
  | .convert => some ("<INPUT>", false)
  | .init => some ("[PATH]", false)
  | .explain => some ("<CODE>", true)
  | _ => none

def addPositional (g : Given) (word : String) : Reading Given := do
  let g ← g.settle
  match argument? g.topic, g.positional with
  | some (name, mayBeEmpty), none =>
    if word.isEmpty && !mayBeEmpty then g.fail (.invalidValue word name)
    else .ok { g with positional := some word }
  | _, _ => g.fail (.unexpected word)

def addLong (g : Given) (word : String) (body : List Char) : Reading Given :=
  let name := body.takeWhile (· != '=')
  let value := if name.length < body.length then
      some (String.ofList (body.drop (name.length + 1)))
    else none
  match g.topic.long? (String.ofList name), value with
  | none, _ => g.fail (.unexpected word)
  | some (.flag f), none => g.addFlag f
  | some (.flag f), some v => g.fail (.unwantedValue v f.text)
  | some (.setting s), v => g.addSetting s v

/-- Short options in one word. What follows a setting is its value. -/
def addShort (g : Given) : List Char → Reading Given
  | [] => .ok g
  | c :: cs =>
    match g.topic.short? c with
    | none => g.fail (.unexpected (String.ofList ['-', c]))
    | some (.flag f) => do (← g.addFlag f).addShort cs
    | some (.setting s) =>
      match cs with
      | [] => g.addSetting s none
      | '=' :: v => g.addSetting s (some (String.ofList v))
      | v => g.addSetting s (some (String.ofList v))

/-- Take a word that does not name a command. -/
def add (g : Given) (word : String) : Reading Given :=
  if g.literal then g.addPositional word
  else
    match word.toList with
    | ['-', '-'] => .ok { g with literal := true }
    | '-' :: '-' :: body => g.addLong word body
    | '-' :: c :: cs => g.addShort (c :: cs)
    | _ =>
      match g.pending with
      | some (s, none) => .ok { g with pending := some (s, some word) }
      | _ => g.addPositional word

def general (g : Given) : General :=
  { format := (g.value? .format).map fun v => if v == "json" then .json else .text
    verbosity := g.verbosity
    quiet := g.flags.contains .quiet
    noColor := g.flags.contains .noColor }

/-- The command that was given, at the end of its words. -/
def command (g : Given) : Reading Command :=
  match g.topic, g.positional with
  | .convert, some input =>
    .ok (.convert { input, types := g.value? .types, output := g.value? .output,
                    config := g.value? .config, strict := g.flags.contains .strict })
  | .init, path => .ok (.init (path.getD ".") (g.flags.contains .force))
  | .explain, some code => .ok (.explain code)
  | t, _ => g.fail (.missing ((argument? t).elim "" Prod.fst))

end Given

/-! ## Whole command lines -/

/-- `help` takes the name of a command. -/
def helpRequest : List String → Request
  | [] => .help .program
  | [word] =>
    match Topic.command? word with
    | some t => .help t
    | none => .misuse .program (.unknownCommand word)
  | _ :: word :: _ => .misuse .program (.unknownCommand word)

def readCommand (topic : Topic) (words : List String) : Reading (General × Command) := do
  let g ← words.foldlM Given.add { topic }
  let g ← g.settle
  return (g.general, ← g.command)

/-- Read the words before the name of a command, then those after it. A setting right before
the name is settled last. -/
def readProgram (g : Given) : List String → Reading Request
  | [] => do
    let _ ← g.settle
    return .overview
  | word :: words =>
    let awaiting := g.pending.any (·.2.isNone)
    match if g.literal || awaiting then none else Topic.command? word with
    | some .help => .ok (helpRequest words)
    | some topic => do
      let (inner, command) ← readCommand topic words
      let g ← g.settle
      return .run (inner.over g.general) command
    | none => do readProgram (← g.add word) words

def Request.ofArguments (words : List String) : Request :=
  match readProgram { topic := .program } words with
  | .ok r => r
  | .error r => r

end ClosureConversion.CommandLine
