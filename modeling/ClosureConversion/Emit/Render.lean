import ClosureConversion.Emit.Expr

/-! # Rendering expressions -/

set_option autoImplicit false

namespace ClosureConversion

namespace Emit

mutual

/-- The text of an expression. Literals of collections and comprehensions take their element
types from `expected` where their own are unknown. -/
def render : Expr → Option Ty → Emit String
  | .name n, _ => name n
  | .constant c, _ => pure (Code.constant c)
  | .binary op l r, _ => binary op l r (render l none) (render r none)
  | .unary op e, _ => do return Code.unary op (← operand e (render e none))
  | .boolean op es, _ => boolean op (operands es)
  | .compare l ops es, _ => compare l (render l none) ops es (renders es)
  | .call f args kws, _ => do
    let texts ← positional (args.zip (renders args))
    let more ← keywordArgs (keywordTexts kws)
    let all := texts ++ more
    match f with
    | .name n => namedCall (.call (.name n) args kws) n all
    | .attribute e method => methodCall e (render e none) method all
    | f => valueCall f (render f none) all
  | .attribute e attr, _ => do
    let value ← operand e (render e none)
    return s!"{value}.{attr}"
  | .subscript e i, _ => subscript e i (render e none) (render i none)
  | .tuple es, _ => do return Code.tuple (← sequence (renders es))
  | .list es, expected => do
    let ty ← collectionType (.list es) expected
    elements "List" (listElem ty) (renders es)
  | .set es, expected => do
    let ty ← collectionType (.set es) expected
    elements "Set" (setElem ty) (renders es)
  | .dict ks vs, expected => do
    let ty ← collectionType (.dict ks vs) expected
    dict ty (renders ks) (renders vs)
  | .ifElse t b e, _ => do
    let test ← condition t (render t none)
    let body ← operand b (render b none)
    let orelse ← operand e (render e none)
    return s!"if ({test}) {body} else {orelse}"
  | .lambda ps b, _ => do return (← lambda ps b (render b none)).ident
  | .listComp e gs, expected => do
    let ty ← collectionType (.listComp e gs) expected
    comprehension s!"List({listElem ty})" [e] (appendTo (render e none)) gs (generatorParts gs)
  | .generatorExp e gs, expected => do
    let ty ← collectionType (.generatorExp e gs) expected
    comprehension s!"List({listElem ty})" [e] (appendTo (render e none)) gs (generatorParts gs)
  | .setComp e gs, expected => do
    let ty ← collectionType (.setComp e gs) expected
    comprehension s!"Set({setElem ty})" [e] (addTo (render e none)) gs (generatorParts gs)
  | .dictComp k v gs, expected => do
    let ty ← collectionType (.dictComp k v gs) expected
    let (key, value) := dictEntry ty
    comprehension s!"Dict({key}, {value})" [k, v] (putInto (render k none) (render v none)) gs
      (generatorParts gs)
  | .format ps, _ => format (ps.zip (partTexts ps))
  | .starred _, _ => unsupported "starred expression"

/-- The texts of a list of expressions. -/
def renders : List Expr → List (Emit String)
  | [] => []
  | e :: es => render e none :: renders es

def operands : List Expr → List (Emit String)
  | [] => []
  | e :: es => operand e (render e none) :: operands es

def keywordTexts : List Keyword → List (Option String × Emit String)
  | [] => []
  | ⟨arg, e⟩ :: ks => (arg, render e none) :: keywordTexts ks

/-- The texts of the arguments of a call. -/
def argTexts : Expr → List (Emit String)
  | .call _ args _ => renders args
  | _ => []

/-- Conditions with their texts. -/
def conditionTexts : List Expr → List (Expr × Emit String)
  | [] => []
  | e :: es => (e, render e none) :: conditionTexts es

def generatorParts : List Generator → List GeneratorParts
  | [] => []
  | ⟨target, iter, ifs⟩ :: gs =>
    { target, iter, iterText := render iter none, argTexts := argTexts iter,
      ifs := conditionTexts ifs } :: generatorParts gs

/-- The texts of the interpolated values; literal parts have none. -/
def partTexts : List FormatPart → List (Emit String)
  | [] => []
  | .literal _ :: ps => pure "" :: partTexts ps
  | .interpolation e :: ps => render e none :: partTexts ps

end

/-- The text of an expression on its own. -/
def renderExpr (e : Expr) : Emit String := render e none

def renderOperand (e : Expr) : Emit String := operand e (renderExpr e)

def renderCondition (e : Expr) : Emit String := condition e (renderExpr e)

end Emit

end ClosureConversion
