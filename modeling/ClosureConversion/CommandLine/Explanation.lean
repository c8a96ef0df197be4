import ClosureConversion.Json.Printer
import ClosureConversion.Report.Diagnostic
import ClosureConversion.Text.Lines

/-! # Explanations of diagnostic codes -/

set_option autoImplicit false

namespace ClosureConversion

structure Explanation where
  title : String
  description : String
  sample : Option String
  suggestion : Option String
  related : List Code

/-- What a code means, an example of it and what to do about it. -/
def Code.explanation : Code → Explanation
  | .unresolvedReturnType =>
    { title := "Unresolved Return Type"
      description := "Type inference could not settle on a return type for a function or closure.\n\n"
        ++ "The converter still emits it, using `runtime.Unknown` (or the configured\n"
        ++ "placeholder type) in the signature. `runtime.Unknown` fails the target's type\n"
        ++ "check as soon as the result is used as something concrete."
      sample := some "def pick(flag):\n    return lookup(flag)   # lookup() is not known to inference"
      suggestion := some <| "Annotate the return type, or set `unknown_return = \"placeholder\"` in the "
        ++ "[closures] table of ferrule.toml."
      related := [.unresolvedCaptureType, .unresolvedParamType] }
  | .unresolvedCaptureType =>
    { title := "Unresolved Capture Type"
      description := "A closure captures a variable whose type is unknown. The environment field holds "
        ++ "a dynamic `runtime.Value`, so every use goes through the runtime."
      sample := some "def outer(cfg):\n    def get():\n        return cfg   # cfg has no inferred type"
      suggestion := some "Annotate the captured variable or the parameter it comes from."
      related := [.unresolvedReturnType, .unresolvedParamType] }
  | .unresolvedParamType =>
    { title := "Unresolved Parameter Type"
      description := "A parameter has no annotation, no inferred type and no typed default. It is passed "
        ++ "as a dynamic `runtime.Value`."
      sample := some "def scale(x):\n    return x * 2"
      suggestion := some "Annotate the parameter: def scale(x: int)"
      related := [.unresolvedReturnType] }
  | .unsupportedCapture =>
    { title := "Unsupported Capture"
      description := "A closure captures a variable whose type has no single static representation.\n\n"
        ++ "Callables are converted to distinct wrapper types. A variable that holds a\n"
        ++ "callable on one path and something else (or a different callable) on another\n"
        ++ "cannot be stored in one environment field."
      sample := some <| "def outer(flag):\n    op = (lambda v: v) if flag else 0\n    def apply(x):\n        "
        ++ "return op(x)"
      suggestion := some <| "Give the variable a single callable type on every path, or pass the value in "
        ++ "as a parameter instead of capturing it."
      related := [.unsupportedConstruct] }
  | .unsupportedConstruct =>
    { title := "Unsupported Construct"
      description := "The function uses a construct closure conversion cannot lower, such as a starred "
        ++ "expression outside a call or assignment to a destructuring target through an augmented "
        ++ "operator. The function is left out of the output; the rest of the module still converts."
      sample := some "def spread(xs):\n    return *xs"
      suggestion := some "Rewrite the construct with explicit indexing or a loop."
      related := [.unsupportedCapture] }
  | .internalError =>
    { title := "Internal Error"
      description := "The converter reached a state it considers impossible, for example unbalanced "
        ++ "scope frames."
      sample := none
      suggestion := some "Please report this with the module JSON that triggers it."
      related := [] }

namespace Explanation

/-- Lines below a heading, set in. -/
def part (heading : String) : Option String → String
  | none => ""
  | some text =>
    let lines := (Text.lines text.toList).map fun l => "  " ++ String.ofList l ++ "\n"
    heading ++ ":\n" ++ String.join lines ++ "\n"

def text (code : Code) (e : Explanation) : String :=
  let heading := code.text ++ ": " ++ e.title
  let rule := String.ofList (List.replicate heading.length '=')
  let related := if e.related.isEmpty then ""
    else "Related: " ++ ", ".intercalate (e.related.map Code.text) ++ "\n"
  "\n" ++ heading ++ "\n" ++ rule ++ "\n\n" ++ e.description ++ "\n\n"
    ++ part "Example" e.sample ++ part "Suggestion" e.suggestion ++ related

def toJson (code : Code) (e : Explanation) : Json :=
  .obj [("code", .str code.text), ("title", .str e.title), ("description", .str e.description),
    ("example", .option .str e.sample), ("suggestion", .option .str e.suggestion),
    ("related", .strings (e.related.map Code.text))]

end Explanation

end ClosureConversion
