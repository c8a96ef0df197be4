import ClosureConversion.Emit.Closure
import ClosureConversion.Emit.Loop

/-! # Expressions from their parts -/

set_option autoImplicit false

namespace ClosureConversion

namespace Emit

def name (n : String) : Emit String := do
  if ← isDeclaredGlobal n then return n
  return (← scope).ident n

/-! ## Operators -/

/-- Number operands of different kinds meet as floats; division helpers take care of that
themselves. -/
def widenOperands (op : BinOp) (lt rt : Ty) (l r : String) : String × String :=
  match op with
  | .div | .floorDiv | .mod => (l, r)
  | _ =>
    match lt, rt with
    | .int, .float => (Code.widened l, r)
    | .float, .int => (l, Code.widened r)
    | _, _ => (l, r)

def binary (op : BinOp) (left right : Expr) (leftText rightText : Emit String) : Emit String := do
  let lt ← typeOf left
  let rt ← typeOf right
  let l ← operand left leftText
  let r ← operand right rightText
  let (l, r) := widenOperands op lt rt l r
  let o ← options
  let builds := concatFails o op lt rt
  let here := Operation.binary op left right
  match op with
  | .add =>
    if lt = .str || rt = .str then fallibleIf here builds s!"runtime.concat({o.allocator}, {l}, {r})"
    else match lt with
      | .list _ => fallibleIf here builds s!"runtime.listConcat({o.allocator}, {l}, {r})"
      | _ => return s!"{l} + {r}"
  | .mult =>
    if lt.isSequence || rt.isSequence then
      fallibleIf here builds s!"runtime.repeat({o.allocator}, {l}, {r})"
    else return s!"{l} * {r}"
  | .div => fallibleIf here (divisionFails op right) s!"runtime.trueDiv({l}, {r})"
  | .floorDiv => fallibleIf here (divisionFails op right) s!"runtime.floorDiv({l}, {r})"
  | .mod => fallibleIf here (divisionFails op right) s!"runtime.mod({l}, {r})"
  | .pow => return s!"runtime.pow({l}, {r})"
  | .sub => return s!"{l} - {r}"
  | .bitAnd => return s!"{l} & {r}"
  | .bitOr => return s!"{l} | {r}"
  | .bitXor => return s!"{l} ^ {r}"
  | .lShift => return s!"runtime.shl({l}, {r})"
  | .rShift => return s!"runtime.shr({l}, {r})"

def boolean (op : BoolOp) (parts : List (Emit String)) : Emit String := do
  let texts ← sequence parts
  match op with
  | .and => return " and ".intercalate texts
  | .or => return " or ".intercalate texts

/-- The single comparisons of a chain; each right operand is the next one's left. -/
def comparisons (left : Expr) (leftText : String) :
    List (CmpOp × Expr × Emit String) → Emit (List String)
  | [] => pure []
  | (op, right, text) :: rest => do
    let rightText ← operand right text
    let strings := (← typeOf left) = .str || (← typeOf right) = .str
    let first := Code.comparison op leftText rightText strings
    let others ← comparisons right rightText rest
    return first :: others

def compare (left : Expr) (leftText : Emit String) (ops : List CmpOp) (rights : List Expr)
    (rightTexts : List (Emit String)) : Emit String := do
  let l ← operand left leftText
  match ← comparisons left l (ops.zip (rights.zip rightTexts)) with
  | [] => do
    note (.dropped l)
    return ""
  | [part] => return part
  | parts => return " and ".intercalate (parts.map fun p => s!"({p})")

def subscript (value index : Expr) (valueText indexText : Emit String) : Emit String := do
  let container ← typeOf value
  let v ← operand value valueText
  let i ← indexText
  let fromEnd : Option Int64 := match index with
    | .constant (.int k) => if k < 0 then some (-k) else none
    | _ => none
  match container, fromEnd with
  | .list _, some k => return s!"{v}.items[{v}.items.len - {k}]"
  | .list _, none => return s!"{v}.items[@intCast({i})]"
  | .tuple ts, some k => return s!"{v}[{Int64.ofNat ts.length - k}]"
  | .tuple _, none => return s!"{v}[{i}]"
  | .str, _ | .bytes, _ => return s!"runtime.charAt({v}, {i})"
  | .dict _ _, _ => fallibleIf (.index value index) (subscriptFails container) s!"{v}.get({i})"
  | _, _ => fallible (.index value index) s!"runtime.getItem({v}, {i})"

/-! ## Calls -/

/-- Builtins that have a helper of the same name at run time. -/
def builtins : List String :=
  ["abs", "all", "any", "bool", "callable", "chr", "dict", "divmod", "enumerate", "filter",
    "float", "format", "getattr", "hash", "input", "int", "isinstance", "iter", "len", "list",
    "map", "max", "min", "next", "open", "ord", "print", "range", "repr", "reversed", "round",
    "set", "sorted", "str", "sum", "tuple", "zip"]

def positional : List (Expr × Emit String) → Emit (List String)
  | [] => pure []
  | (e, text) :: rest => do
    if e.isStarred then unsupported "starred call argument"
    let t ← text
    let ts ← positional rest
    return t :: ts

def keywordArgs : List (Option String × Emit String) → Emit (List String)
  | [] => pure []
  | (arg, text) :: rest => do
    if arg.isNone then unsupported "`**` call argument"
    let t ← text
    let ts ← keywordArgs rest
    return t :: ts

def builtinCall (name : String) (args : List String) : Emit String := do
  let o ← options
  let text :=
    if name = "print" then s!"runtime.print({Code.tuple args})"
    else if builtinAllocates name then s!"runtime.{name}({Code.commas (o.allocator :: args)})"
    else s!"runtime.{name}({Code.commas args})"
  fallibleIf (.named name) (builtinFails o name) text

/-- The call of a name by what it is bound to; `none` leaves it to the module. -/
def boundCall? (name : String) (args : List String) : Emit (Option String) := do
  if ← isDeclaredGlobal name then return none
  let s ← scope
  match s.lookup name with
  | none => return none
  | some b =>
    let ident := s.ident name
    if b.isClosureLike then
      return some (← fallibleIf (.named name) b.ty.callFails s!"{ident}.call({Code.commas args})")
    else match b.ty with
      | .function f =>
        return some (← fallibleIf (.named name) f.fallible s!"{ident}({Code.commas args})")
      | _ =>
        -- a local that holds a callable of unknown shape
        if b.kind ≠ .global then
          return some (← fallible (.named name) s!"runtime.call({ident}, {Code.tuple args})")
        else return none

def namedCall (call : Expr) (name : String) (args : List String) : Emit String := do
  match ← boundCall? name args with
  | some text => return text
  | none =>
    let o ← options
    if (← typeOf call) = .record name then
      fallibleIf (.named name) o.allocationFails
        s!"{name}.init({Code.commas (o.allocator :: args)})"
    else if builtins.contains name && !(← scope).isDeclared name then
      builtinCall name args
    else
      fallibleIf (.named name) ((← oracle).isFallible name) s!"{name}({Code.commas args})"

def methodCall (receiver : Expr) (receiverText : Emit String) (method : String)
    (args : List String) : Emit String := do
  let r ← operand receiver receiverText
  fallibleIf (.method method) (methodFails (← options) method)
    s!"{r}.{method}({Code.commas args})"

/-- The call of a computed callee. -/
def valueCall (callee : Expr) (calleeText : Emit String) (args : List String) : Emit String := do
  let c ← operand callee calleeText
  if (← typeOf callee).isCallable then fallible (.computed callee) s!"{c}.call({Code.commas args})"
  else fallible (.computed callee) s!"runtime.call({c}, {Code.tuple args})"

/-! ## Collections -/

/-- The type that a collection gets where a value of type `expected` is wanted. -/
def collectionType (e : Expr) (expected : Option Ty) : Emit Ty := do
  let inferred ← typeOf e
  match expected with
  | some t => return if t.holds inferred then t.join inferred else inferred
  | none => return inferred

/-- A list or a set with elements of the spelled type. -/
def elements (kind elem : String) (items : List (Emit String)) : Emit String := do
  let o ← options
  let texts ← sequence items
  fallibleIf .allocation o.allocationFails
    (if texts.isEmpty then s!"runtime.{kind}({elem}).init({o.allocator})"
     else s!"runtime.{kind}({elem}).fromSlice({o.allocator}, &.\x7b {Code.commas texts} \x7d)")

def listElem : Ty → String
  | .list t => t.target
  | _ => dynamicValue

def setElem : Ty → String
  | .set t => t.target
  | _ => dynamicValue

/-- The spelled types of keys and values. -/
def dictEntry : Ty → String × String
  | .dict k v => (k.target, v.target)
  | _ => (dynamicValue, dynamicValue)

def entry (key value : Emit String) : Emit String := do
  let k ← key
  let v ← value
  return s!".\x7b {k}, {v} \x7d"

def dict (ty : Ty) (keys values : List (Emit String)) : Emit String := do
  let o ← options
  let (k, v) := dictEntry ty
  let entries ← sequence ((keys.zip values).map fun e => entry e.1 e.2)
  fallibleIf .allocation o.allocationFails
    (if entries.isEmpty then s!"runtime.Dict({k}, {v}).init({o.allocator})"
     else
      s!"runtime.Dict({k}, {v}).fromEntries({o.allocator}, &.\x7b {Code.commas entries} \x7d)")

/-! ## Comprehensions -/

/-- A generator with computations for the texts of its parts. -/
structure GeneratorParts where
  target : Target
  iter : Expr
  iterText : Emit String
  /-- Texts of the arguments if the iterable is a call. -/
  argTexts : List (Emit String)
  ifs : List (Expr × Emit String)

/-- Leave an iteration unless the conditions hold. -/
def conditions : List (Expr × Emit String) → Buffer → Emit Buffer
  | [], out => pure out
  | (e, text) :: rest, out => do
    let (c, before) ← isolated (condition e text)
    conditions rest ((out.block before).line s!"if (!({c})) continue;")

/-- Nested loops around the line that `insert` computes. -/
def generatorLoops (insert : Emit String) (used : List String) :
    List GeneratorParts → Buffer → Emit Buffer
  | [], out => do
    let (line, before) ← isolated insert
    return (out.block before).line line
  | g :: rest, out => do
    let (braces, out) ← openLoop g.target g.iter g.iterText g.argTexts used out
    let out ← conditions g.ifs out
    let out ← generatorLoops insert used rest out
    return closeLoop braces out

/-- The call that adds an element, as a statement. -/
def insertion (text : Emit String) : Emit String := do
  let t ← text
  return (← fallibleIf .allocation (← options).allocationFails t) ++ ";"

/-- A loop that fills a fresh container, whose identifier is the value. The names that the
parts read decide which targets of the loop are named. -/
def comprehension (container : String) (elems : List Expr) (insert : String → Emit String)
    (generators : List Generator) (parts : List GeneratorParts) : Emit String := do
  let acc ← temporary "comp"
  let o ← options
  let init ← fallibleIf .allocation o.allocationFails s!"runtime.{container}.init({o.allocator})"
  let mentioned := elems ++ generators.flatMap fun g => g.iter :: g.ifs
  let probe := mentioned.map Stmt.expr
  tell [.analyzed "" [] probe]
  let used := (Usage.ofBody "" [] probe).reads
  let out := Buffer.line {} s!"const {acc} = {init};"
  let out ← inBlock (generatorLoops (insertion (insert acc)) used parts out)
  pushPrelude out.text
  return acc

def appendTo (elt : Emit String) (acc : String) : Emit String := do
  let e ← elt
  return s!"{acc}.append({e})"

def addTo (elt : Emit String) (acc : String) : Emit String := do
  let e ← elt
  return s!"{acc}.add({e})"

def putInto (key value : Emit String) (acc : String) : Emit String := do
  let k ← key
  let v ← value
  return s!"{acc}.put({k}, {v})"

/-! ## Lambdas and format strings -/

/-- Leave the function, with a value if there is one. -/
def returning (value : Option String) (out : Buffer) : Emit Buffer := do
  note (.exit (.result value))
  match value with
  | some t => return out.line s!"return {t};"
  | none => return out.line "return;"

/-- Return a value that is not the constant `None`, with the text of the value. -/
def returnValue (value : Expr) (text : Emit String) (out : Buffer) : Emit Buffer := do
  let ty ← typeOf value
  modifyCurrent (·.recordReturn ty)
  match value with
  | .constant .none => returning none out
  | _ => do
    let t ← text
    let out ← flushPrelude out
    returning (some t) out

/-- A lambda as an anonymous closure, whose instance goes to the prelude. -/
def lambda (params : List Param) (body : Expr) (bodyText : Emit String) :
    Emit BuiltClosure := do
  let f : Function :=
    { name := "lambda", params, body := [.ret (some body)], span := (← current).span }
  let (built, out) ← synthesize f (returnValue body bodyText) [] false {}
  pushPrelude out.text
  return built

/-- The format text and the arguments of an interpolated string. -/
def formatParts : List (FormatPart × Emit String) → Emit (String × List String)
  | [] => pure ("", [])
  | (.literal s, _) :: rest => do
    let (format, args) ← formatParts rest
    return (Text.formatLiteral s ++ format, args)
  | (.interpolation e, text) :: rest => do
    let spec := Code.placeholder (← typeOf e)
    let arg ← text
    let (format, args) ← formatParts rest
    return (spec ++ format, arg :: args)

def format (parts : List (FormatPart × Emit String)) : Emit String := do
  let o ← options
  let (text, args) ← formatParts parts
  fallibleIf .allocation o.allocationFails
    s!"runtime.format({o.allocator}, \"{text}\", {Code.tuple args})"

end Emit

end ClosureConversion
