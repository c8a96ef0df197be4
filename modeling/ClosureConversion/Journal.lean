import ClosureConversion.Capture.Basic
import ClosureConversion.Text.Quoted
import ClosureConversion.Usage.Nested

/-! # Journal -/

set_option autoImplicit false

namespace ClosureConversion

inductive Level where
  | error
  | warn
  | info
  | debug
  | trace
  deriving Repr, DecidableEq

namespace Level

def rank : Level → Nat
  | .error => 1
  | .warn => 2
  | .info => 3
  | .debug => 4
  | .trace => 5

/-- Five characters wide. -/
def text : Level → String
  | .error => "ERROR"
  | .warn => "WARN "
  | .info => "INFO "
  | .debug => "DEBUG"
  | .trace => "TRACE"

end Level

inductive Event where
  /-- A body was analysed, with the scopes inside it. -/
  | analyzed (name : String) (formals : List String) (body : List Stmt)
  | declared (name ident : String) (ty : Ty)
  /-- An identifier was not free. -/
  | respelled (base ident : String)
  /-- A name at container level was not free. -/
  | containerRespelled (base ident : String)
  | widened (name : String) (ty : Ty)
  /-- A name was declared anew because its type changed. -/
  | shadowed (name : String) (old new : Ty) (ident : String)
  /-- A free name is bound nowhere around the function. -/
  | free (name function : String)
  | captured (function : String) (capture : Capture)
  | reported (code : Code) (message : String)
  | synthesizing (function : String) (shape : Shape) (captures : Nat)
  /-- A recursive closure fails through its own calls and is written once more. -/
  | writtenAgain (function : String)
  /-- A deletion of a plain name has no counterpart in the target. -/
  | deletionDropped (name : String)
  | skipped (function : String) (error : ConvertError)
  | roundChanged (round : Nat)
  | unsettled (module : String) (round : Nat)
  | converted (done total : Nat) (module : String) (rounds : Nat)
  | converting (module : String) (functions : Nat)
  | noConfiguration (file : String)
  | configurationRead (path : String)

namespace Event

def level : Event → Level
  | .analyzed .. | .declared .. | .free .. | .captured .. | .deletionDropped _ => .trace
  | .respelled .. | .containerRespelled .. | .widened .. | .shadowed .. | .reported .. => .debug
  | .synthesizing .. | .writtenAgain _ | .roundChanged _ | .noConfiguration _ => .debug
  | .converted .. | .converting .. | .configurationRead _ => .info
  | .skipped .. | .unsettled .. => .warn

/-- The part of the program that speaks. -/
def source : Event → String
  | .analyzed .. => "ferrule_transform::usage"
  | .declared .. | .respelled .. | .containerRespelled .. | .widened .. =>
    "ferrule_transform::scope"
  | .shadowed .. => "ferrule_transform::shadow"
  | .free .. | .captured .. => "ferrule_transform::capture"
  | .reported .. => "ferrule_transform::context"
  | .synthesizing .. | .writtenAgain _ => "ferrule_transform::synth"
  | .deletionDropped _ => "ferrule_transform::emit::stmt"
  | .skipped .. | .roundChanged _ | .unsettled .. | .converted .. => "ferrule_transform::closure"
  | .converting .. => "ferrule::commands::convert"
  | .noConfiguration _ | .configurationRead _ => "ferrule::config"

def usageMessage (name : String) (u : Usage) : String :=
  s!"usage of `{name}`: reads={Text.quotedList u.reads} assigned={Text.quotedList u.assigned} " ++
    s!"recursive={u.selfRecursive}"

def messages : Event → List String
  | .analyzed name formals body =>
    (Usage.inBody name formals body).map fun e => usageMessage e.1 e.2
  | .declared name ident ty => [s!"declare `{name}` as `{ident}`: {ty.display}"]
  | .respelled base ident => [s!"identifier `{base}` is taken, using `{ident}`"]
  | .containerRespelled base ident => [s!"container name `{base}` is taken, using `{ident}`"]
  | .widened name ty => [s!"widening `{name}` to {ty.display} after block"]
  | .shadowed name old new ident =>
    [s!"`{name}` changes type {old.display} -> {new.display}; shadowing as `{ident}`"]
  | .free name function => [s!"`{name}` is free in `{function}`; deferring"]
  | .captured function c =>
    [s!"`{function}` captures `{c.name}` {c.mode.name} as {c.ty.display}"]
  | .reported code message => [s!"{code.text}: {message}"]
  | .synthesizing function shape captures =>
    [s!"synthesizing `{function}` as {shape.text} ({captures} captures)"]
  | .writtenAgain function => [s!"`{function}` fails through its own recursion; rendering again"]
  | .deletionDropped name => [s!"dropping `del {name}`"]
  | .skipped function error => [s!"skipping `{function}`: {error.message}"]
  | .roundChanged round => [s!"signatures changed in round {round}; converting again"]
  | .unsettled module round => [s!"signatures of `{module}` still changing after {round} rounds"]
  | .converted done total module rounds =>
    [s!"converted {done} of {total} functions in `{module}` ({rounds} rounds)"]
  | .converting module functions => [s!"converting `{module}` ({functions} functions)"]
  | .noConfiguration file => [s!"no {file} found, using defaults"]
  | .configurationRead path => [s!"using configuration from {path}"]

/-- Further lines of a message stand four columns in. -/
def indented (message : String) : String :=
  String.ofList (message.toList.flatMap fun c => if c = '\n' then "\n    ".toList else [c])

/-- The messages of an event, each ended. -/
def lines (e : Event) : List String :=
  e.messages.map fun m => s!"[{e.level.text} {e.source}] {indented m}\n"

end Event

/-- Events, the latest first. -/
abbrev Journal := List Event

/-- What a reader at `level` sees, in order. -/
def Journal.render (level : Level) (j : Journal) : String :=
  String.join (j.reverse.flatMap fun e => if e.level.rank ≤ level.rank then e.lines else [])

end ClosureConversion
