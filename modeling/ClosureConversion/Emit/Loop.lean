import ClosureConversion.Code.Spelling
import ClosureConversion.Emit.Context

/-! # Loops -/

set_option autoImplicit false

namespace ClosureConversion

namespace Emit

/-- An operand, in parentheses where the target needs them. -/
def operand (e : Expr) (text : Emit String) : Emit String := do
  let t ← text
  return if e.isCompound || t.startsWith "try " then s!"({t})" else t

/-- An expression tested for truth. -/
def condition (e : Expr) (text : Emit String) : Emit String := do
  let ty ← typeOf e
  let t ← text
  match ty with
  | .bool | .unknown => return t
  | _ => return s!"runtime.truthy({t})"

/-- Declare the target of a loop or a `with` in the present block. -/
def bindPayload (name : String) (ty : Ty) : Emit String := do
  let ident := (← scope).freshIdent name
  declareAs name ident { ty, slot := ⟨ident, .payload⟩ }
  return ident

mutual

/-- Declare the names in one part of a tuple target; the result unpacks those that are used. -/
def unpackPart (used : List String) : Target → String → Ty → Emit (List String)
  | .name n, source, ty => do
    let ident ← bindPayload n ty
    return if used.contains n then [s!"const {ident} = {source};"] else []
  | .tuple parts, source, ty => unpack used parts source ty 0
  | .attribute _ _, _, _ => unsupported "loop target other than names"
  | .subscript _ _, _, _ => unsupported "loop target other than names"
  | .starred _, _, _ => unsupported "loop target other than names"

def unpack (used : List String) : List Target → String → Ty → Nat → Emit (List String)
  | [], _, _, _ => pure []
  | t :: ts, source, ty, i => do
    let first ← unpackPart used t s!"{source}[{i}]" (ty.part i)
    let rest ← unpack used ts source ty (i + 1)
    return first ++ rest

end

/-- The name that takes each element, with the lines that unpack it. -/
def loopPayload (target : Target) (elem : Ty) (used : List String) :
    Emit (String × List String) := do
  match target with
  | .name n => do
    let ident ← bindPayload n elem
    return (if used.contains n then ident else "_", [])
  | .tuple parts => do
    let item ← temporary "item"
    let lines ← unpack used parts item elem 0
    return (if lines.isEmpty then "_" else item, lines)
  | _ => unsupported "loop target other than names"

/-- A step that counts down. -/
def descends : Option Expr → Bool
  | some (.constant (.int k)) => k < 0
  | some (.unary .neg _) => true
  | _ => false

/-- The arguments of a `range` that becomes a counted loop over a plain name. -/
def countedRange? (target : Target) (iter : Expr) (s : Scope) : Option (String × List Expr) :=
  match target, iter with
  | .name n, .call (.name "range") args [] =>
    if 1 ≤ args.length && args.length ≤ 3 && !s.isDeclared "range" then some (n, args) else none
  | _, _ => none

/-- Start, end and step of a range. -/
def rangeBounds : List String → String × String × String
  | [stop] => ("0", stop, "1")
  | [start, stop] => (start, stop, "1")
  | start :: stop :: step :: _ => (start, stop, step)
  | [] => ("0", "0", "1")

/-- Declare the variable of a counted loop. -/
def bindCounter (name start : String) : Emit String := do
  let ident := (← scope).freshIdent name
  note (.introduced ⟨ident, .counter⟩ s!": i64 = {start};")
  declareAs name ident { ty := .int, slot := ⟨ident, .counter⟩ }
  return ident

def openCounted (name : String) (args : List Expr) (bounds : List String) (out : Buffer) :
    Emit Buffer := do
  let (start, stop, step) := rangeBounds bounds
  let ident ← bindCounter name start
  let test := if descends args[2]? then ">" else "<"
  let out := (out.line "\x7b").indent.line s!"var {ident}: i64 = {start};"
  return (out.line s!"while ({ident} {test} {stop}) : ({ident} += {step}) \x7b").indent

/-- Open a loop, leaving `out` inside its body; the number says how many braces it opened.
Targets that are not in `used` get no name. -/
def openLoop (target : Target) (iter : Expr) (iterText : Emit String)
    (argTexts : List (Emit String)) (used : List String) (out : Buffer) : Emit (Nat × Buffer) := do
  match countedRange? target iter (← scope) with
  | some (name, args) => do
    let bounds ← sequence argTexts
    let out ← flushPrelude out
    return (2, ← openCounted name args bounds out)
  | none => do
    let ty ← typeOf iter
    let it ← operand iter iterText
    let out ← flushPrelude out
    let (payload, lines) ← loopPayload target ty.element used
    match ty with
    | .list _ =>
      return (1, (out.line s!"for ({it}.items) |{payload}| \x7b").indent.lines lines)
    | .set _ | .dict _ _ =>
      return (1, (out.line s!"for ({it}.keys()) |{payload}| \x7b").indent.lines lines)
    | _ => do
      let cursor ← temporary "it"
      let out := (out.line "\x7b").indent.line s!"var {cursor} = runtime.iterate({it});"
      return (2, (out.line s!"while ({cursor}.next()) |{payload}| \x7b").indent.lines lines)

/-- Close the braces that a loop opened. -/
def closeLoop : Nat → Buffer → Buffer
  | 0, out => out
  | n + 1, out => closeLoop n (out.dedent.line "\x7d")

end Emit

end ClosureConversion
