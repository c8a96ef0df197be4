import ClosureConversion.Report.Diagnostic
import ClosureConversion.Ty.Spelling

/-! # Errors of a conversion -/

set_option autoImplicit false

namespace ClosureConversion

inductive ConvertError where
  /-- A captured variable has a type without a single static representation. -/
  | unsupportedCapture (function name : String) (ty : Ty) (span : Span)
  | unsupportedConstruct (function what : String) (span : Span)
  | internal (what : String)
  deriving DecidableEq

namespace ConvertError

def code : ConvertError → Code
  | .unsupportedCapture .. => .unsupportedCapture
  | .unsupportedConstruct .. => .unsupportedConstruct
  | .internal _ => .internalError

def message : ConvertError → String
  | .unsupportedCapture function name ty _ =>
    s!"cannot capture `{name}` in `{function}`: type `{ty.display}` has no static representation"
  | .unsupportedConstruct function what _ => s!"unsupported construct in `{function}`: {what}"
  | .internal what => s!"internal error: {what}"

def diagnostic (e : ConvertError) : Diagnostic :=
  let base : Diagnostic := { code := e.code, severity := .error, message := e.message }
  match e with
  | .unsupportedCapture function _ ty span =>
    { base with
      function := some function
      span
      help := some (s!"`{ty.display}` mixes callables with other values; " ++
        "give the variable a single callable type or stop capturing it") }
  | .unsupportedConstruct function _ span => { base with function := some function, span }
  | .internal _ => { base with help := some "this is a bug in the closure converter" }

end ConvertError

end ClosureConversion
