import ClosureConversion.Report.Diagnostic
import ClosureConversion.Json.Printer

/-! # Printing reports -/

set_option autoImplicit false

namespace ClosureConversion

/-- How a report is printed for people. -/
structure Terminal where
  colored : Bool
  /-- Name of the module, printed in positions. -/
  module : String

namespace Terminal

def color (t : Terminal) (s : Severity) : String :=
  if t.colored then
    match s with
    | .error => "\x1b[1;31m"
    | .warning => "\x1b[1;33m"
    | .hint => "\x1b[1;34m"
  else ""

def reset (t : Terminal) : String := if t.colored then "\x1b[0m" else ""

def label (t : Terminal) (l : Label) : String :=
  if l.span.isDummy then "  note: " ++ l.message ++ "\n"
  else "  note: " ++ l.message ++ " (" ++ t.module ++ ":" ++ l.span.text ++ ")\n"

def diagnostic (t : Terminal) (d : Diagnostic) : String :=
  let header := t.color d.severity ++ d.severity.text ++ "[" ++ d.code.text ++ "]" ++ t.reset
    ++ ": " ++ d.message ++ "\n"
  let position := t.module ++ (if d.span.isDummy then "" else ":" ++ d.span.text)
  let place :=
    match d.function with
    | some f => "  --> " ++ position ++ " (in `" ++ f ++ "`)\n"
    | none => "  --> " ++ position ++ "\n"
  let help :=
    match d.help with
    | some h => "  = help: " ++ h ++ "\n"
    | none => ""
  header ++ place ++ String.join (d.labels.map t.label) ++ help ++ "\n"

def counted (n : Nat) (noun : String) : String :=
  toString n ++ " " ++ noun ++ (if n = 1 then "" else "s")

def summary (t : Terminal) (r : Report) : String :=
  let errors := r.errorCount
  let warnings := r.warningCount
  if errors = 0 ∧ warnings = 0 then ""
  else
    t.color (if 0 < errors then .error else .warning) ++ counted errors "error" ++ " and "
      ++ counted warnings "warning" ++ " emitted" ++ t.reset ++ "\n"

def report (t : Terminal) (r : Report) : String :=
  String.join (r.map t.diagnostic) ++ t.summary r

end Terminal

namespace Diagnostic

/-- One line for tools. -/
def jsonLine (d : Diagnostic) : String :=
  (Json.obj [("code", .str d.code.text), ("severity", .str d.severity.text),
    ("message", .str d.message), ("function", .option .str d.function),
    ("location", if d.span.isDummy then .null else d.span.toJson),
    ("help", .option .str d.help)]).compact ++ "\n"

end Diagnostic

namespace Report

def jsonSummary (r : Report) : String :=
  (Json.obj [("type", .str "summary"), ("errors", .nat r.errorCount),
    ("warnings", .nat r.warningCount), ("total", .nat r.length)]).compact ++ "\n"

def jsonLines (r : Report) : String :=
  String.join (r.map Diagnostic.jsonLine) ++ r.jsonSummary

end Report

end ClosureConversion
