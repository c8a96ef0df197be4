import ClosureConversion.Tree.Basic
import ClosureConversion.Ty.Json

/-! # Program trees as JSON -/

set_option autoImplicit false

namespace ClosureConversion

/-! ## Operators and constants -/

/-- The value of an enumeration that has this name. -/
def named? {α : Type} (name : α → String) (all : List α) (j : Json) : Option α :=
  j.enum?.bind fun n => all.find? (name · == n)

namespace BinOp

def name : BinOp → String
  | .add => "Add"
  | .sub => "Sub"
  | .mult => "Mult"
  | .div => "Div"
  | .floorDiv => "FloorDiv"
  | .mod => "Mod"
  | .pow => "Pow"
  | .bitAnd => "BitAnd"
  | .bitOr => "BitOr"
  | .bitXor => "BitXor"
  | .lShift => "LShift"
  | .rShift => "RShift"

def all : List BinOp :=
  [.add, .sub, .mult, .div, .floorDiv, .mod, .pow, .bitAnd, .bitOr, .bitXor, .lShift, .rShift]

def ofJson? : Json → Option BinOp := named? name all

end BinOp

namespace UnaryOp

def name : UnaryOp → String
  | .neg => "Neg"
  | .pos => "Pos"
  | .not => "Not"
  | .invert => "Invert"

def all : List UnaryOp := [.neg, .pos, .not, .invert]

def ofJson? : Json → Option UnaryOp := named? name all

end UnaryOp

namespace BoolOp

def name : BoolOp → String
  | .and => "And"
  | .or => "Or"

def all : List BoolOp := [.and, .or]

def ofJson? : Json → Option BoolOp := named? name all

end BoolOp

namespace CmpOp

def name : CmpOp → String
  | .eq => "Eq"
  | .notEq => "NotEq"
  | .lt => "Lt"
  | .ltE => "LtE"
  | .gt => "Gt"
  | .gtE => "GtE"
  | .in => "In"
  | .notIn => "NotIn"
  | .is => "Is"
  | .isNot => "IsNot"

def all : List CmpOp := [.eq, .notEq, .lt, .ltE, .gt, .gtE, .in, .notIn, .is, .isNot]

def ofJson? : Json → Option CmpOp := named? name all

end CmpOp

def Constant.toJson : Constant → Json
  | .none => .str "None"
  | .bool b => .obj [("Bool", .bool b)]
  | .int i => .obj [("Int", .int i.toInt)]
  | .float x => .obj [("Float", .ofFloat x)]
  | .str s => .obj [("Str", .str s)]

def Constant.ofJson? (j : Json) : Option Constant :=
  match j.variant? with
  | some ("None", .none) => some .none
  | some ("None", some x) => if x.val.isNull then some .none else .none
  | some ("Bool", some x) => x.val.bool?.map .bool
  | some ("Int", some x) => x.val.int64?.map .int
  | some ("Float", some x) => x.val.float?.map .float
  | some ("Str", some x) => x.val.string?.map .str
  | _ => .none

/-! ## Writing expressions -/

mutual

def Expr.toJson : Expr → Json
  | .name n => .obj [("Name", .str n)]
  | .constant c => .obj [("Constant", c.toJson)]
  | .binary op l r =>
    .obj [("BinOp", .obj [("op", .str op.name), ("left", l.toJson), ("right", r.toJson)])]
  | .unary op e => .obj [("UnaryOp", .obj [("op", .str op.name), ("operand", e.toJson)])]
  | .boolean op es =>
    .obj [("BoolOp", .obj [("op", .str op.name), ("values", .arr (Expr.allToJson es))])]
  | .compare l ops es =>
    .obj [("Compare", .obj [("left", l.toJson),
      ("ops", .arr (ops.map fun op => .str op.name)), ("comparators", .arr (Expr.allToJson es))])]
  | .call f args kws =>
    .obj [("Call", .obj [("func", f.toJson), ("args", .arr (Expr.allToJson args)),
      ("keywords", .arr (Keyword.allToJson kws))])]
  | .attribute e a => .obj [("Attribute", .obj [("value", e.toJson), ("attr", .str a)])]
  | .subscript e i => .obj [("Subscript", .obj [("value", e.toJson), ("index", i.toJson)])]
  | .list es => .obj [("List", .arr (Expr.allToJson es))]
  | .tuple es => .obj [("Tuple", .arr (Expr.allToJson es))]
  | .set es => .obj [("Set", .arr (Expr.allToJson es))]
  | .dict ks vs =>
    .obj [("Dict", .obj [("keys", .arr (Expr.allToJson ks)), ("values", .arr (Expr.allToJson vs))])]
  | .ifElse t b e =>
    .obj [("IfExp", .obj [("test", t.toJson), ("body", b.toJson), ("orelse", e.toJson)])]
  | .lambda ps b =>
    .obj [("Lambda", .obj [("params", .arr (Param.allToJson ps)), ("body", b.toJson)])]
  | .listComp e gs =>
    .obj [("ListComp", .obj [("elt", e.toJson), ("generators", .arr (Generator.allToJson gs))])]
  | .setComp e gs =>
    .obj [("SetComp", .obj [("elt", e.toJson), ("generators", .arr (Generator.allToJson gs))])]
  | .generatorExp e gs =>
    .obj [("GeneratorExp", .obj [("elt", e.toJson), ("generators", .arr (Generator.allToJson gs))])]
  | .dictComp k v gs =>
    .obj [("DictComp", .obj [("key", k.toJson), ("value", v.toJson),
      ("generators", .arr (Generator.allToJson gs))])]
  | .format ps => .obj [("FString", .arr (FormatPart.allToJson ps))]
  | .starred e => .obj [("Starred", e.toJson)]

def Expr.allToJson : List Expr → List Json
  | [] => []
  | e :: es => e.toJson :: Expr.allToJson es

def Keyword.allToJson : List Keyword → List Json
  | [] => []
  | ⟨arg, value⟩ :: ks =>
    .obj [("arg", .option .str arg), ("value", value.toJson)] :: Keyword.allToJson ks

def Param.toJson : Param → Json
  | ⟨name, declared, none⟩ =>
    .obj [("name", .str name), ("annotation", .option Ty.toJson declared), ("default", .null)]
  | ⟨name, declared, some d⟩ =>
    .obj [("name", .str name), ("annotation", .option Ty.toJson declared), ("default", d.toJson)]

def Param.allToJson : List Param → List Json
  | [] => []
  | p :: ps => p.toJson :: Param.allToJson ps

def Target.toJson : Target → Json
  | .name n => .obj [("Name", .str n)]
  | .tuple ts => .obj [("Tuple", .arr (Target.allToJson ts))]
  | .attribute e a => .obj [("Attribute", .obj [("value", e.toJson), ("attr", .str a)])]
  | .subscript e i => .obj [("Subscript", .obj [("value", e.toJson), ("index", i.toJson)])]
  | .starred t => .obj [("Starred", t.toJson)]

def Target.allToJson : List Target → List Json
  | [] => []
  | t :: ts => t.toJson :: Target.allToJson ts

def Generator.allToJson : List Generator → List Json
  | [] => []
  | ⟨target, iter, ifs⟩ :: gs =>
    .obj [("target", target.toJson), ("iter", iter.toJson), ("ifs", .arr (Expr.allToJson ifs))]
      :: Generator.allToJson gs

def FormatPart.allToJson : List FormatPart → List Json
  | [] => []
  | .literal s :: ps => .obj [("Literal", .str s)] :: FormatPart.allToJson ps
  | .interpolation e :: ps => .obj [("Interpolation", e.toJson)] :: FormatPart.allToJson ps

end

/-! ## Writing statements -/

def WithItem.toJson (w : WithItem) : Json :=
  .obj [("context", w.context.toJson), ("target", .option Target.toJson w.target)]

mutual

def Stmt.toJson : Stmt → Json
  | .assign t v a =>
    .obj [("Assign", .obj [("target", t.toJson), ("value", v.toJson),
      ("annotation", .option Ty.toJson a)])]
  | .augAssign t op v =>
    .obj [("AugAssign", .obj [("target", t.toJson), ("op", .str op.name), ("value", v.toJson)])]
  | .expr e => .obj [("Expr", e.toJson)]
  | .ret v => .obj [("Return", .option Expr.toJson v)]
  | .ifElse t b e =>
    .obj [("If", .obj [("test", t.toJson), ("body", .arr (Stmt.allToJson b)),
      ("orelse", .arr (Stmt.allToJson e))])]
  | .whileLoop t b => .obj [("While", .obj [("test", t.toJson), ("body", .arr (Stmt.allToJson b))])]
  | .forLoop t i b =>
    .obj [("For", .obj [("target", t.toJson), ("iter", i.toJson), ("body", .arr (Stmt.allToJson b))])]
  | .breakLoop => .str "Break"
  | .continueLoop => .str "Continue"
  | .pass => .str "Pass"
  | .raise e => .obj [("Raise", .option Expr.toJson e)]
  | .assert t m => .obj [("Assert", .obj [("test", t.toJson), ("msg", .option Expr.toJson m)])]
  | .tryExcept b hs e f =>
    .obj [("Try", .obj [("body", .arr (Stmt.allToJson b)), ("handlers", .arr (Handler.allToJson hs)),
      ("orelse", .arr (Stmt.allToJson e)), ("finalbody", .arr (Stmt.allToJson f))])]
  | .withItems items b =>
    .obj [("With", .obj [("items", .arr (items.map WithItem.toJson)),
      ("body", .arr (Stmt.allToJson b))])]
  | .functionDef f => .obj [("FunctionDef", f.toJson)]
  | .nonlocal names => .obj [("Nonlocal", .strings names)]
  | .global names => .obj [("Global", .strings names)]
  | .delete ts => .obj [("Delete", .arr (ts.map Target.toJson))]

def Stmt.allToJson : List Stmt → List Json
  | [] => []
  | s :: ss => s.toJson :: Stmt.allToJson ss

def Handler.allToJson : List Handler → List Json
  | [] => []
  | ⟨kind, name, body⟩ :: hs =>
    .obj [("kind", .option Expr.toJson kind), ("name", .option .str name),
      ("body", .arr (Stmt.allToJson body))] :: Handler.allToJson hs

def Function.toJson : Function → Json
  | ⟨name, params, vararg, kwarg, declaredResult, body, decorators, span⟩ =>
    .obj [("name", .str name), ("params", .arr (params.map Param.toJson)),
      ("vararg", .option Param.toJson vararg), ("kwarg", .option Param.toJson kwarg),
      ("return_annotation", .option Ty.toJson declaredResult),
      ("body", .arr (Stmt.allToJson body)), ("decorators", .arr (decorators.map Expr.toJson)),
      ("span", span.toJson)]

end

def GlobalVar.toJson (g : GlobalVar) : Json := .obj [("name", .str g.name), ("ty", g.ty.toJson)]

def Module.toJson (m : Module) : Json :=
  .obj [("name", .str m.name), ("globals", .arr (m.globals.map GlobalVar.toJson)),
    ("functions", .arr (m.functions.map Function.toJson))]

/-! ## Reading expressions -/

mutual

def Expr.ofJson? (s : Json.Strictness) (j : Json) : Option Expr :=
  match j.variant? with
  | some (name, some x) =>
    match name with
    | "Name" => x.val.string?.map .name
    | "Constant" => (Constant.ofJson? x.val).map .constant
    | "BinOp" => do
      let r ← x.struct? s ["op", "left", "right"]
      return .binary (← r.required "op" fun y => BinOp.ofJson? y.val)
        (← r.required "left" fun y => Expr.ofJson? s y.val)
        (← r.required "right" fun y => Expr.ofJson? s y.val)
    | "UnaryOp" => do
      let r ← x.struct? s ["op", "operand"]
      return .unary (← r.required "op" fun y => UnaryOp.ofJson? y.val)
        (← r.required "operand" fun y => Expr.ofJson? s y.val)
    | "BoolOp" => do
      let r ← x.struct? s ["op", "values"]
      return .boolean (← r.required "op" fun y => BoolOp.ofJson? y.val)
        (← r.required "values" fun y => y.list? fun z => Expr.ofJson? s z.val)
    | "Compare" => do
      let r ← x.struct? s ["left", "ops", "comparators"]
      return .compare (← r.required "left" fun y => Expr.ofJson? s y.val)
        (← r.required "ops" fun y => y.val.listOf? CmpOp.ofJson?)
        (← r.required "comparators" fun y => y.list? fun z => Expr.ofJson? s z.val)
    | "Call" => do
      let r ← x.struct? s ["func", "args", "keywords"]
      return .call (← r.required "func" fun y => Expr.ofJson? s y.val)
        (← r.orDefault "args" [] fun y => y.list? fun z => Expr.ofJson? s z.val)
        (← r.orDefault "keywords" [] fun y => y.list? fun z => Keyword.ofJson? s z.val)
    | "Attribute" => do
      let r ← x.struct? s ["value", "attr"]
      return .attribute (← r.required "value" fun y => Expr.ofJson? s y.val)
        (← r.required "attr" (·.val.string?))
    | "Subscript" => do
      let r ← x.struct? s ["value", "index"]
      return .subscript (← r.required "value" fun y => Expr.ofJson? s y.val)
        (← r.required "index" fun y => Expr.ofJson? s y.val)
    | "List" => (x.list? fun y => Expr.ofJson? s y.val).map .list
    | "Tuple" => (x.list? fun y => Expr.ofJson? s y.val).map .tuple
    | "Set" => (x.list? fun y => Expr.ofJson? s y.val).map .set
    | "Dict" => do
      let r ← x.struct? s ["keys", "values"]
      return .dict (← r.required "keys" fun y => y.list? fun z => Expr.ofJson? s z.val)
        (← r.required "values" fun y => y.list? fun z => Expr.ofJson? s z.val)
    | "IfExp" => do
      let r ← x.struct? s ["test", "body", "orelse"]
      return .ifElse (← r.required "test" fun y => Expr.ofJson? s y.val)
        (← r.required "body" fun y => Expr.ofJson? s y.val)
        (← r.required "orelse" fun y => Expr.ofJson? s y.val)
    | "Lambda" => do
      let r ← x.struct? s ["params", "body"]
      return .lambda (← r.required "params" fun y => y.list? fun z => Param.ofJson? s z.val)
        (← r.required "body" fun y => Expr.ofJson? s y.val)
    | "ListComp" => do
      let r ← x.struct? s ["elt", "generators"]
      return .listComp (← r.required "elt" fun y => Expr.ofJson? s y.val)
        (← r.required "generators" fun y => y.list? fun z => Generator.ofJson? s z.val)
    | "SetComp" => do
      let r ← x.struct? s ["elt", "generators"]
      return .setComp (← r.required "elt" fun y => Expr.ofJson? s y.val)
        (← r.required "generators" fun y => y.list? fun z => Generator.ofJson? s z.val)
    | "GeneratorExp" => do
      let r ← x.struct? s ["elt", "generators"]
      return .generatorExp (← r.required "elt" fun y => Expr.ofJson? s y.val)
        (← r.required "generators" fun y => y.list? fun z => Generator.ofJson? s z.val)
    | "DictComp" => do
      let r ← x.struct? s ["key", "value", "generators"]
      return .dictComp (← r.required "key" fun y => Expr.ofJson? s y.val)
        (← r.required "value" fun y => Expr.ofJson? s y.val)
        (← r.required "generators" fun y => y.list? fun z => Generator.ofJson? s z.val)
    | "FString" => (x.list? fun y => FormatPart.ofJson? s y.val).map .format
    | "Starred" => (Expr.ofJson? s x.val).map .starred
    | _ => none
  | _ => none
termination_by sizeOf j
decreasing_by all_goals exact Json.Within.sizeOf_lt _

def Keyword.ofJson? (s : Json.Strictness) (j : Json) : Option Keyword := do
  let r ← j.record? ["arg", "value"]
  return ⟨← r.nullable "arg" (·.val.string?), ← r.required "value" fun y => Expr.ofJson? s y.val⟩
termination_by sizeOf j
decreasing_by all_goals exact Json.Within.sizeOf_lt _

def Param.ofJson? (s : Json.Strictness) (j : Json) : Option Param := do
  let r ← j.record? ["name", "annotation", "default"]
  return ⟨← r.required "name" (·.val.string?), ← r.optional "annotation" fun y => Ty.ofJson? y.val,
    ← r.optional "default" fun y => Expr.ofJson? s y.val⟩
termination_by sizeOf j
decreasing_by all_goals exact Json.Within.sizeOf_lt _

def Target.ofJson? (s : Json.Strictness) (j : Json) : Option Target :=
  match j.variant? with
  | some (name, some x) =>
    match name with
    | "Name" => x.val.string?.map .name
    | "Tuple" => (x.list? fun y => Target.ofJson? s y.val).map .tuple
    | "Attribute" => do
      let r ← x.struct? s ["value", "attr"]
      return .attribute (← r.required "value" fun y => Expr.ofJson? s y.val)
        (← r.required "attr" (·.val.string?))
    | "Subscript" => do
      let r ← x.struct? s ["value", "index"]
      return .subscript (← r.required "value" fun y => Expr.ofJson? s y.val)
        (← r.required "index" fun y => Expr.ofJson? s y.val)
    | "Starred" => (Target.ofJson? s x.val).map .starred
    | _ => none
  | _ => none
termination_by sizeOf j
decreasing_by all_goals exact Json.Within.sizeOf_lt _

def Generator.ofJson? (s : Json.Strictness) (j : Json) : Option Generator := do
  let r ← j.record? ["target", "iter", "ifs"]
  return ⟨← r.required "target" fun y => Target.ofJson? s y.val,
    ← r.required "iter" fun y => Expr.ofJson? s y.val,
    ← r.orDefault "ifs" [] fun y => y.list? fun z => Expr.ofJson? s z.val⟩
termination_by sizeOf j
decreasing_by all_goals exact Json.Within.sizeOf_lt _

def FormatPart.ofJson? (s : Json.Strictness) (j : Json) : Option FormatPart :=
  match j.variant? with
  | some (name, some x) =>
    match name with
    | "Literal" => x.val.string?.map .literal
    | "Interpolation" => (Expr.ofJson? s x.val).map .interpolation
    | _ => none
  | _ => none
termination_by sizeOf j
decreasing_by all_goals exact Json.Within.sizeOf_lt _

end

/-! ## Reading statements -/

def WithItem.ofJson? (s : Json.Strictness) (j : Json) : Option WithItem := do
  let r ← j.record? ["context", "target"]
  return ⟨← r.required "context" fun y => Expr.ofJson? s y.val,
    ← r.optional "target" fun y => Target.ofJson? s y.val⟩

/-- The statement without parts that has this name. -/
def Stmt.plain? (name : String) : Option Stmt :=
  match name with
  | "Break" => some .breakLoop
  | "Continue" => some .continueLoop
  | "Pass" => some .pass
  | _ => none

mutual

def Stmt.ofJson? (s : Json.Strictness) (j : Json) : Option Stmt :=
  match j.variant? with
  | none => none
  | some (name, none) => Stmt.plain? name
  | some (name, some x) =>
    match name with
    | "Assign" => do
      let r ← x.struct? s ["target", "value", "annotation"]
      return .assign (← r.required "target" fun y => Target.ofJson? s y.val)
        (← r.required "value" fun y => Expr.ofJson? s y.val)
        (← r.optional "annotation" fun y => Ty.ofJson? y.val)
    | "AugAssign" => do
      let r ← x.struct? s ["target", "op", "value"]
      return .augAssign (← r.required "target" fun y => Target.ofJson? s y.val)
        (← r.required "op" fun y => BinOp.ofJson? y.val)
        (← r.required "value" fun y => Expr.ofJson? s y.val)
    | "Expr" => (Expr.ofJson? s x.val).map .expr
    | "Return" => (x.option? fun y => Expr.ofJson? s y.val).map .ret
    | "If" => do
      let r ← x.struct? s ["test", "body", "orelse"]
      return .ifElse (← r.required "test" fun y => Expr.ofJson? s y.val)
        (← r.required "body" fun y => y.list? fun z => Stmt.ofJson? s z.val)
        (← r.orDefault "orelse" [] fun y => y.list? fun z => Stmt.ofJson? s z.val)
    | "While" => do
      let r ← x.struct? s ["test", "body"]
      return .whileLoop (← r.required "test" fun y => Expr.ofJson? s y.val)
        (← r.required "body" fun y => y.list? fun z => Stmt.ofJson? s z.val)
    | "For" => do
      let r ← x.struct? s ["target", "iter", "body"]
      return .forLoop (← r.required "target" fun y => Target.ofJson? s y.val)
        (← r.required "iter" fun y => Expr.ofJson? s y.val)
        (← r.required "body" fun y => y.list? fun z => Stmt.ofJson? s z.val)
    | "Raise" => (x.option? fun y => Expr.ofJson? s y.val).map .raise
    | "Assert" => do
      let r ← x.struct? s ["test", "msg"]
      return .assert (← r.required "test" fun y => Expr.ofJson? s y.val)
        (← r.optional "msg" fun y => Expr.ofJson? s y.val)
    | "Try" => do
      let r ← x.struct? s ["body", "handlers", "orelse", "finalbody"]
      return .tryExcept (← r.required "body" fun y => y.list? fun z => Stmt.ofJson? s z.val)
        (← r.orDefault "handlers" [] fun y => y.list? fun z => Handler.ofJson? s z.val)
        (← r.orDefault "orelse" [] fun y => y.list? fun z => Stmt.ofJson? s z.val)
        (← r.orDefault "finalbody" [] fun y => y.list? fun z => Stmt.ofJson? s z.val)
    | "With" => do
      let r ← x.struct? s ["items", "body"]
      return .withItems (← r.required "items" fun y => y.val.listOf? (WithItem.ofJson? s))
        (← r.required "body" fun y => y.list? fun z => Stmt.ofJson? s z.val)
    | "FunctionDef" => (Function.ofJson? s x.val).map .functionDef
    | "Nonlocal" => x.val.strings?.map .nonlocal
    | "Global" => x.val.strings?.map .global
    | "Delete" => (x.val.listOf? (Target.ofJson? s)).map .delete
    | name => if x.val.isNull then Stmt.plain? name else none
termination_by sizeOf j
decreasing_by all_goals exact Json.Within.sizeOf_lt _

def Handler.ofJson? (s : Json.Strictness) (j : Json) : Option Handler := do
  let r ← j.record? ["kind", "name", "body"]
  return ⟨← r.optional "kind" fun y => Expr.ofJson? s y.val, ← r.optional "name" (·.val.string?),
    ← r.required "body" fun y => y.list? fun z => Stmt.ofJson? s z.val⟩
termination_by sizeOf j
decreasing_by all_goals exact Json.Within.sizeOf_lt _

def Function.ofJson? (s : Json.Strictness) (j : Json) : Option Function := do
  let r ← j.record? ["name", "params", "vararg", "kwarg", "return_annotation", "body",
    "decorators", "span"]
  return ⟨← r.required "name" (·.val.string?),
    ← r.orDefault "params" [] fun y => y.val.listOf? (Param.ofJson? s),
    ← r.optional "vararg" fun y => Param.ofJson? s y.val,
    ← r.optional "kwarg" fun y => Param.ofJson? s y.val,
    ← r.optional "return_annotation" fun y => Ty.ofJson? y.val,
    ← r.orDefault "body" [] fun y => y.list? fun z => Stmt.ofJson? s z.val,
    ← r.orDefault "decorators" [] fun y => y.val.listOf? (Expr.ofJson? s),
    ← r.orDefault "span" {} fun y => Span.ofJson? y.val⟩
termination_by sizeOf j
decreasing_by all_goals exact Json.Within.sizeOf_lt _

end

def GlobalVar.ofJson? (j : Json) : Option GlobalVar := do
  let r ← j.record? ["name", "ty"]
  return ⟨← r.required "name" (·.val.string?), ← r.required "ty" fun y => Ty.ofJson? y.val⟩

def Module.ofJson? (s : Json.Strictness) (j : Json) : Option Module := do
  let r ← j.record? ["name", "globals", "functions"]
  return ⟨← r.required "name" (·.val.string?),
    ← r.orDefault "globals" [] fun y => y.val.listOf? GlobalVar.ofJson?,
    ← r.orDefault "functions" [] fun y => y.val.listOf? (Function.ofJson? s)⟩

end ClosureConversion
