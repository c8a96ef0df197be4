import ClosureConversion.Inference.Operators
import ClosureConversion.Scope.Basic
import ClosureConversion.Ty.Json

/-! # Inference tables -/

set_option autoImplicit false

namespace ClosureConversion

structure Table where
  /-- Result types of functions, by qualified name. -/
  returns : NameMap Ty := .empty
  /-- Parameter types, under `function.param`. -/
  params : NameMap Ty := .empty
  /-- Names that construct records when called. -/
  classes : List String := []
  /-- Functions known to fail. -/
  fallible : List String := []

mutual

/-- Bind the names of a loop or comprehension target to the parts of a value. -/
def Target.bindTypes : Target → Ty → NameMap Ty → NameMap Ty
  | .name n, ty, locals => locals.insert n ty
  | .tuple parts, ty, locals => Target.bindParts parts ty 0 locals
  | .starred t, ty, locals => t.bindTypes (.list ty.element) locals
  | .attribute _ _, _, locals => locals
  | .subscript _ _, _, locals => locals

def Target.bindParts : List Target → Ty → Nat → NameMap Ty → NameMap Ty
  | [], _, _, locals => locals
  | t :: ts, ty, i, locals => Target.bindParts ts ty (i + 1) (t.bindTypes (ty.part i) locals)

end

namespace Table

/-- Type of a call of a plain name. What the name is bound to wins over classes, results of
functions and builtins, in this order. -/
def callType (t : Table) (s : Scope) (locals : NameMap Ty) (name : String) (args : List Ty) : Ty :=
  match (locals.get? name).bind Ty.result? with
  | some r => r
  | none =>
    match (s.lookup name).bind fun b => b.ty.result? with
    | some r => r
    | none =>
      if t.classes.contains name then .record name
      else match t.returns.get? name with
        | some r => r
        | none => (Ty.fixedBuiltin? name).getD (Ty.builtin name args)

mutual

/-- Type of an expression; `locals` are the names that lambdas and comprehensions around it
bind. -/
def infer (t : Table) (s : Scope) : Expr → NameMap Ty → Ty
  | .name n, locals =>
    match locals.get? n with
    | some ty => ty
    | none =>
      match s.lookup n with
      | some b => b.ty
      | none => .unknown
  | .constant c, _ => c.type
  | .binary op l r, locals => op.type (t.infer s l locals) (t.infer s r locals)
  | .unary .not _, _ => .bool
  | .unary _ e, locals => t.infer s e locals
  | .boolean _ es, locals => Ty.joinAll (t.inferAll s es locals)
  | .compare _ _ _, _ => .bool
  | .ifElse _ b e, locals => (t.infer s b locals).join (t.infer s e locals)
  | .call (.name n) args _, locals => t.callType s locals n (t.inferAll s args locals)
  | .call (.attribute e method) _ _, locals => (t.infer s e locals).method method
  | .call _ _ _, _ => .unknown
  | .attribute _ _, _ => .unknown
  | .subscript e i, locals => (t.infer s e locals).subscript i
  | .list es, locals => .list (Ty.joinAll (t.inferAll s es locals))
  | .set es, locals => .set (Ty.joinAll (t.inferAll s es locals))
  | .tuple es, locals => .tuple (t.inferAll s es locals)
  | .dict ks vs, locals =>
    .dict (Ty.joinAll (t.inferAll s ks locals)) (Ty.joinAll (t.inferAll s vs locals))
  | .lambda ps b, locals =>
    let types := ps.map fun p => p.declared.getD .unknown
    let inner := ps.foldl (fun m p => m.insert p.name (p.declared.getD .unknown)) locals
    .function { params := types, result := t.infer s b inner, fallible := false }
  | .listComp e gs, locals => .list (t.infer s e (t.inferGenerators s gs locals))
  | .generatorExp e gs, locals => .list (t.infer s e (t.inferGenerators s gs locals))
  | .setComp e gs, locals => .set (t.infer s e (t.inferGenerators s gs locals))
  | .dictComp k v gs, locals =>
    let inner := t.inferGenerators s gs locals
    .dict (t.infer s k inner) (t.infer s v inner)
  | .format _, _ => .str
  | .starred _, _ => .unknown

def inferAll (t : Table) (s : Scope) : List Expr → NameMap Ty → List Ty
  | [], _ => []
  | e :: es, locals => t.infer s e locals :: t.inferAll s es locals

/-- The names that generators bind, added to those around them. -/
def inferGenerators (t : Table) (s : Scope) : List Generator → NameMap Ty → NameMap Ty
  | [], locals => locals
  | ⟨target, iter, _⟩ :: gs, locals =>
    t.inferGenerators s gs (target.bindTypes (t.infer s iter locals).element locals)

end

def withReturn (t : Table) (name : String) (ty : Ty) : Table :=
  { t with returns := t.returns.insert name ty }

def withParam (t : Table) (function param : String) (ty : Ty) : Table :=
  { t with params := t.params.insert s!"{function}.{param}" ty }

def withClass (t : Table) (name : String) : Table :=
  { t with classes := pushNew t.classes name }

def withFallible (t : Table) (name : String) : Table :=
  { t with fallible := pushNew t.fallible name }

/-- Parts that are left out are empty. -/
def ofJson? (j : Json) : Option Table := do
  let r ← j.record? ["returns", "params", "classes", "fallible"]
  let types (j : Json) : Option (NameMap Ty) := do
    let fields ← j.fields?
    return NameMap.ofList (← fields.mapM fun (name, x) => do return (name, ← Ty.ofJson? x.val))
  return { returns := ← r.orDefault "returns" .empty fun x => types x.val
           params := ← r.orDefault "params" .empty fun x => types x.val
           classes := ← r.orDefault "classes" [] (·.val.strings?)
           fallible := ← r.orDefault "fallible" [] (·.val.strings?) }

end Table

/-- What conversion asks about types. -/
structure Oracle where
  /-- Result type of a function or closure, if known. -/
  returnType : String → Option Ty
  /-- Type of an expression in a scope. -/
  exprType : Expr → Scope → Ty
  /-- Type of a formal of a function, if known. -/
  paramType : String → String → Option Ty := fun _ _ => none
  /-- Whether a call of a function of the module can fail. -/
  isFallible : String → Bool := fun _ => false

namespace Table

/-- An oracle that knows result types and expressions only. -/
def bareOracle (t : Table) : Oracle :=
  { returnType := t.returns.get?, exprType := fun e s => t.infer s e .empty }

def oracle (t : Table) : Oracle :=
  { t.bareOracle with
    paramType := fun function param => t.params.get? s!"{function}.{param}"
    isFallible := t.fallible.contains }

end Table

end ClosureConversion
