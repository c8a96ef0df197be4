import ClosureConversion.Json.Record

/-! # Diagnostics -/

set_option autoImplicit false

namespace ClosureConversion

/-- A position in the source program; line 0 stands for no position. -/
structure Span where
  line : UInt32 := 0
  column : UInt32 := 0
  deriving Repr, DecidableEq, Inhabited

namespace Span

def isDummy (s : Span) : Bool := s.line == 0

def text (s : Span) : String := toString s.line ++ ":" ++ toString s.column

def toJson (s : Span) : Json :=
  .obj [("line", .nat s.line.toNat), ("column", .nat s.column.toNat)]

def ofJson? (j : Json) : Option Span := do
  let r ← j.record? ["line", "column"]
  return { line := ← r.required "line" (·.val.uint32?)
           column := ← r.required "column" (·.val.uint32?) }

end Span

inductive Severity where
  | hint
  | warning
  | error
  deriving Repr, DecidableEq

namespace Severity

def text : Severity → String
  | .hint => "hint"
  | .warning => "warning"
  | .error => "error"

def all : List Severity := [.hint, .warning, .error]

def ofText? (s : String) : Option Severity := all.find? (·.text == s)

end Severity

inductive Code where
  | unresolvedReturnType
  | unresolvedCaptureType
  | unresolvedParamType
  | unsupportedCapture
  | unsupportedConstruct
  | internalError
  deriving Repr, DecidableEq

namespace Code

/-- All codes, in the order in which they are listed. -/
def all : List Code :=
  [.unresolvedReturnType, .unresolvedCaptureType, .unresolvedParamType, .unsupportedCapture,
    .unsupportedConstruct, .internalError]

/-- The short form that users see. -/
def text : Code → String
  | .unresolvedReturnType => "A001"
  | .unresolvedCaptureType => "A002"
  | .unresolvedParamType => "A003"
  | .unsupportedCapture => "C001"
  | .unsupportedConstruct => "U001"
  | .internalError => "I001"

/-- The name under which JSON knows the code. -/
def name : Code → String
  | .unresolvedReturnType => "UnresolvedReturnType"
  | .unresolvedCaptureType => "UnresolvedCaptureType"
  | .unresolvedParamType => "UnresolvedParamType"
  | .unsupportedCapture => "UnsupportedCapture"
  | .unsupportedConstruct => "UnsupportedConstruct"
  | .internalError => "InternalError"

/-- Short forms are compared without regard to the case of ASCII letters. -/
def ofText? (s : String) : Option Code :=
  all.find? fun c => c.text.toList.map Char.toUpper == s.toList.map Char.toUpper

def ofName? (s : String) : Option Code := all.find? (·.name == s)

def severity : Code → Severity
  | .unsupportedCapture | .unsupportedConstruct | .internalError => .error
  | .unresolvedReturnType | .unresolvedCaptureType => .warning
  | .unresolvedParamType => .hint

end Code

/-- A related position. -/
structure Label where
  span : Span
  message : String
  deriving Repr, DecidableEq

structure Diagnostic where
  code : Code
  severity : Severity
  message : String
  /-- Qualified name of the function that was being converted. -/
  function : Option String := none
  span : Span := {}
  labels : List Label := []
  help : Option String := none
  deriving Repr, DecidableEq

namespace Diagnostic

/-- A diagnostic with the default severity of its code. -/
def ofCode (code : Code) (message : String) : Diagnostic :=
  { code, severity := code.severity, message }

def isError (d : Diagnostic) : Bool := d.severity == .error

def isWarning (d : Diagnostic) : Bool := d.severity == .warning

def toJson (d : Diagnostic) : Json :=
  .obj [("code", .str d.code.name), ("severity", .str d.severity.text),
    ("message", .str d.message), ("function", .option .str d.function),
    ("span", d.span.toJson),
    ("labels", .arr (d.labels.map fun l =>
      .obj [("span", l.span.toJson), ("message", .str l.message)])),
    ("help", .option .str d.help)]

def labelOfJson? (j : Json) : Option Label := do
  let r ← j.record? ["span", "message"]
  return { span := ← r.required "span" (Span.ofJson? ·.val)
           message := ← r.required "message" (·.val.string?) }

def ofJson? (j : Json) : Option Diagnostic := do
  let r ← j.record? ["code", "severity", "message", "function", "span", "labels", "help"]
  return { code := ← r.required "code" fun x => x.val.enum?.bind Code.ofName?
           severity := ← r.required "severity" fun x => x.val.enum?.bind Severity.ofText?
           message := ← r.required "message" (·.val.string?)
           function := ← r.nullable "function" (·.val.string?)
           span := ← r.required "span" (Span.ofJson? ·.val)
           labels := ← r.required "labels" fun x => x.val.listOf? labelOfJson?
           help := ← r.nullable "help" (·.val.string?) }

end Diagnostic

abbrev Report := List Diagnostic

namespace Report

def hasErrors (r : Report) : Bool := r.any Diagnostic.isError

def errorCount (r : Report) : Nat := r.countP Diagnostic.isError

def warningCount (r : Report) : Nat := r.countP Diagnostic.isWarning

def withCode (r : Report) (c : Code) : Report := r.filter (·.code == c)

/-- A record with the one field `items`. -/
def ofJson? (j : Json) : Option Report := do
  let r ← j.record? ["items"]
  r.required "items" fun x => x.val.listOf? Diagnostic.ofJson?

def toJson (r : Report) : Json := .obj [("items", .arr (r.map Diagnostic.toJson))]

end Report

end ClosureConversion
