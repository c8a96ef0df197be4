import ClosureConversion.Capture.Basic
import ClosureConversion.Code.Buffer
import ClosureConversion.Code.Spelling
import ClosureConversion.Text.Words

/-! # Layouts of closures -/

set_option autoImplicit false

namespace ClosureConversion

/-- A formal as it is declared in the frame of its function. -/
structure Formal where
  name : String
  ident : String
  ty : Ty
  /-- Read somewhere in the body. -/
  used : Bool
  /-- Written in the body, which therefore works on a copy. -/
  reassigned : Bool := false

namespace Formal

/-- Spelling in a routine that runs the body. -/
def bodyParam (p : Formal) : String :=
  if !p.used then s!"_: {p.ty.target}"
  else if p.reassigned then s!"{p.ident}__arg: {p.ty.target}"
  else s!"{p.ident}: {p.ty.target}"

/-- Spelling in a routine that passes it on. -/
def forwardingParam (p : Formal) : String := s!"{p.ident}: {p.ty.target}"

/-- What stands behind the name in the line that copies a formal which the body writes. -/
def copyRest? (p : Formal) : Option String :=
  if !p.reassigned then none
  else if p.used then some s!" = {p.ident}__arg;"
  else some s!": {p.ty.target} = undefined;"

/-- The line that copies a formal which the body writes. -/
def copyLine? (p : Formal) : Option String := p.copyRest?.map fun rest => s!"var {p.ident}{rest}"

end Formal

/-! ## Fields -/

namespace Capture

/-- Members that wrappers define themselves. -/
def reservedFields : List String := ["call", "env", "invoke", "self"]

def fieldName (name : String) : String :=
  if reservedFields.contains name then s!"{name}_" else name

/-- Text before a trailing `.*`. -/
def pointer? (ident : String) : Option String :=
  match ident.toList.reverse with
  | '*' :: '.' :: rest => some (String.ofList rest.reverse)
  | _ => none

def fieldType (c : Capture) : String :=
  match c.mode, c.kind with
  | _, .selfHandle => s!"*const {c.ty.target}"
  | .byReference, _ => s!"*{c.ty.target}"
  | _, _ => c.ty.target

/-- Value of the field where the closure is made; a slot of an outer environment is a pointer
already. -/
def fieldInit (c : Capture) : String :=
  match c.mode with
  | .byReference => (pointer? c.source).getD s!"&{c.source}"
  | _ => c.source

def fieldLine (c : Capture) : String := s!"{fieldName c.name}: {c.fieldType},"

/-- How the body of the closure reaches the captured variable. -/
def access (receiver : String) (c : Capture) : String :=
  let field := s!"{receiver}.{fieldName c.name}"
  if c.mode = .byReference then field ++ ".*" else field

end Capture

namespace Closure

/-! ## Names and parts -/

/-- Names of the declarations apart from the wrapper. -/
inductive Layout where
  | routine (implementation : String)
  | environment (env implementation : String)
  | aggregate
  deriving DecidableEq

/-- The written pieces of one closure. -/
structure Parts where
  formals : List Formal
  body : String
  envParam : Option String
  selfParam : Option String
  fallible : Bool
  /-- Whether calls of the closure in its own body were written as failing. -/
  assumedFallible : Bool
  returnType : Option Ty

/-- A receiver that the body does not mention stays unnamed. -/
def Parts.receiver (p : Parts) (param : Option String) : String :=
  match param with
  | some name => if Text.mentions p.body name then name else "_"
  | none => "_"

/-! ## Text -/

/-- The instance where the function stood. -/
def instanceInit (wrapper : String) (r : Representation) : String :=
  let fields := r.captures.toList.map fun c => s!".{Capture.fieldName c.name} = {c.fieldInit}"
  match r.shape with
  | .zeroCapture => s!"{wrapper}\x7b\x7d"
  | .structCapture => s!"{wrapper}\x7b .env = .\x7b {Code.commas fields} \x7d \x7d"
  | .recursiveSelfCapture =>
    if fields.isEmpty then s!"{wrapper}\x7b\x7d" else s!"{wrapper}\x7b {Code.commas fields} \x7d"

def routineText (keyword name : String) (params : List String) (result body : String)
    (out : Buffer) : Buffer :=
  out.nested s!"{keyword} {name}({Code.commas params}) {result} \x7b" "\x7d" (·.block body)

def forwarder (params : List String) (result target : String) (args : List String)
    (out : Buffer) : Buffer :=
  out.nested s!"pub fn call({Code.commas params}) {result} \x7b" "\x7d"
    (·.line s!"return {target}({Code.commas args});")

/-- The declarations at container level. -/
def declarations (wrapper : String) (layout : Layout) (captures : CaptureSet) (p : Parts)
    (result : String) : Buffer :=
  let bodyParams := p.formals.map Formal.bodyParam
  let callParams := p.formals.map Formal.forwardingParam
  let args := p.formals.map Formal.ident
  let fields := captures.toList.map Capture.fieldLine
  let header := s!"const {wrapper} = struct \x7b"
  match layout with
  | .environment env implementation =>
    let self := p.selfParam.getD "self"
    let out := (Buffer.nested {} s!"const {env} = struct \x7b" "\x7d;" (·.lines fields)).line ""
    out.nested header "\x7d;" fun out =>
      let out := (out.line s!"env: {env},").line ""
      let out := routineText "fn" implementation
        (s!"{p.receiver p.envParam}: *const {env}" :: bodyParams) result p.body out
      forwarder (s!"{self}: *const @This()" :: callParams) result implementation
        (s!"&{self}.env" :: args) (out.line "")
  | .routine implementation =>
    Buffer.nested {} header "\x7d;" fun out =>
      let out := routineText "fn" implementation bodyParams result p.body out
      forwarder ("_: *const @This()" :: callParams) result implementation args (out.line "")
  | .aggregate =>
    Buffer.nested {} header "\x7d;" fun out =>
      let out := if captures.isEmpty then out else (out.lines fields).line ""
      routineText "pub fn" "call" (s!"{p.receiver p.selfParam}: *const @This()" :: bodyParams)
        result p.body out

end Closure

end ClosureConversion
