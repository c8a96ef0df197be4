import ClosureConversion.Emit.Assign
import ClosureConversion.Text.Words

/-! # Lowering statements -/

set_option autoImplicit false

namespace ClosureConversion

/-! ## Leaving blocks -/

mutual

/-- Whether a statement can take control out of the block it stands in: by `return`, or by
`break` or `continue` outside a loop of its own. -/
def Stmt.leaves (inLoop : Bool) : Stmt → Bool
  | .ret _ => true
  | .breakLoop => !inLoop
  | .continueLoop => !inLoop
  | .ifElse _ b e => Stmt.anyLeaves inLoop b || Stmt.anyLeaves inLoop e
  | .whileLoop _ b => Stmt.anyLeaves true b
  | .forLoop _ _ b => Stmt.anyLeaves true b
  | .withItems _ b => Stmt.anyLeaves inLoop b
  | .tryExcept b hs e f =>
    Stmt.anyLeaves inLoop b || Stmt.anyLeaves inLoop e || Stmt.anyLeaves inLoop f ||
      Handler.anyLeaves inLoop hs
  | _ => false

def Stmt.anyLeaves (inLoop : Bool) : List Stmt → Bool
  | [] => false
  | s :: ss => s.leaves inLoop || Stmt.anyLeaves inLoop ss

def Handler.anyLeaves (inLoop : Bool) : List Handler → Bool
  | [] => false
  | ⟨_, _, body⟩ :: hs => Stmt.anyLeaves inLoop body || Handler.anyLeaves inLoop hs

end

/-! ## Errors -/

/-- Name of the error that an expression raises or catches. -/
def Expr.errorName? : Expr → Option String
  | .name n => some n
  | .call f _ _ => f.errorName?
  | .attribute _ attr => some attr
  | _ => none

/-- The test that selects a handler; `none` for a handler that takes every error. -/
def handlerTest? (kind : Option Expr) (payload : String) : Option String := do
  let names := match ← kind with
    | .tuple kinds => kinds.filterMap Expr.errorName?
    | k => k.errorName?.toList
  if names.isEmpty || names.any (fun n => n == "Exception" || n == "BaseException") then none
  else return " or ".intercalate (names.map fun n => s!"{payload} == error.{n}")

/-- First line of a handler, closing the one before it. -/
def handlerHeader (test : Option String) (first : Bool) : String :=
  match test, first with
  | some t, true => s!"if ({t}) \x7b"
  | some t, false => s!"\x7d else if ({t}) \x7b"
  | none, true => "\x7b"
  | none, false => "\x7d else \x7b"

namespace Emit

/-- The error that a `raise` names; a caught error is raised again by its variable. -/
def raisedError (e : Expr) : Emit String := do
  let s ← scope
  let named := "error." ++ e.errorName?.getD "Exception"
  match e with
  | .name n => return if (s.lookupInFunction n).isSome then s.ident n else named
  | _ => return named

def raiseError (e : Option Expr) : Emit String := do
  match e with
  | some e => raisedError e
  | none => return (← current).handlerErrors.headD "error.Exception"

/-! ## Single statements, given their bodies -/

/-- A body one level deeper, in a block of its own. -/
def nested (body : Buffer → Emit Buffer) (out : Buffer) : Emit Buffer :=
  inBlock do return (← body out.indent).dedent

def braced (body : Buffer → Emit Buffer) (out : Buffer) : Emit Buffer := do
  return (← nested body (out.line "\x7b")).line "\x7d"

/-- An expression for its effect; a text on its own is a comment. -/
def exprStmt (e : Expr) (out : Buffer) : Emit Buffer := do
  match e with
  | .constant (.str _) => return out
  | _ => do
    let ty ← typeOf e
    let text ← renderExpr e
    let out ← flushPrelude out
    return if ty = .none then out.line s!"{text};" else out.line s!"_ = {text};"

/-- Leave an iteration of the innermost loop, or the loop. -/
def jump (keyword : String) (out : Buffer) : Emit Buffer := do
  note (.exit (.jump (← current).loops keyword))
  return out.line s!"{keyword};"

def assertion (test : Expr) (out : Buffer) : Emit Buffer := do
  let t ← renderCondition test
  let out ← flushPrelude out
  let out ← errorExit .raised "error.AssertionError" (out.line s!"if (!({t})) \x7b").indent
  return out.dedent.line "\x7d"

/-- A test that needs statements of its own is made inside the loop. -/
def whileLoop (test : Expr) (body : Buffer → Emit Buffer) (out : Buffer) : Emit Buffer := do
  let (t, before) ← isolated (renderCondition test)
  if before.isEmpty then
    return (← looping (nested body (out.line s!"while ({t}) \x7b"))).line "\x7d"
  else
    let out := ((out.line "while (true) \x7b").indent.block before).line s!"if (!({t})) break;"
    let out ← looping (inBlock (body out))
    return out.dedent.line "\x7d"

def forLoop (target : Target) (iter : Expr) (stmts : List Stmt) (body : Buffer → Emit Buffer)
    (out : Buffer) : Emit Buffer := do
  tell [.analyzed "" [] stmts]
  let used := (Usage.ofBody "" [] stmts).reads
  inBlock do
    let (braces, out) ← openLoop target iter (renderExpr iter) (argTexts iter) used out
    return closeLoop braces (← looping (body out))

/-- The second test of a chain; one that needs statements of its own opens a block. `tail`
writes the branch and what follows it. -/
def elseIf (test : Expr) (tail : Buffer → Emit Buffer) (out : Buffer) : Emit Buffer :=
  inBlock do
    let (t, before) ← isolated (renderCondition test)
    if before.isEmpty then tail (out.line s!"\x7d else if ({t}) \x7b")
    else
      let out := ((out.line "\x7d else \x7b").indent.block before).line s!"if ({t}) \x7b"
      return (← tail out).dedent.line "\x7d"

/-- Enter a context; it is left with the block. -/
def withItem (out : Buffer) (item : WithItem) : Emit Buffer := do
  let ty ← typeOf item.context
  let text ← renderExpr item.context
  let out ← flushPrelude out
  let ident ← match item.target with
    | some (.name n) => bindPayload n ty
    | none => temporary "ctx"
    | some _ => unsupported "`with` target other than a name"
  return (out.line s!"const {ident} = {text};").line s!"defer {ident}.close();"

def withBlock (items : List WithItem) (body : Buffer → Emit Buffer) (out : Buffer) :
    Emit Buffer := do
  let out ← inBlock do
    let out ← items.foldlM withItem (out.line "\x7b").indent
    return (← body out).dedent
  return out.line "\x7d"

/-! ## Errors caught -/

/-- The variable of a handler, which is written only if the handler reads it. -/
def bindHandler (name : Option String) (body : List Stmt) (payload : String) (out : Buffer) :
    Emit Buffer := do
  match name with
  | none => return out
  | some n => do
    let ident ← claimIdent n
    declareAs n ident { ty := .unknown, slot := ⟨ident, .payload⟩ }
    tell [.analyzed "" [] body]
    return if (Usage.ofBody "" [] body).isRead n then out.line s!"const {ident} = {payload};"
           else out

/-- After the last handler: an error that none took is raised again. -/
def reraise (payload : String) (first : Bool) (out : Buffer) : Emit Buffer := do
  if first then errorExit .rethrown payload out
  else
    let out ← errorExit .rethrown payload (out.line "\x7d else \x7b").indent
    return out.dedent.line "\x7d"

/-- The parts of a `try` statement; parts that the program leaves out are `none`. -/
structure TryParts where
  body : Buffer → Emit Buffer
  /-- The handlers, given the variable that holds the error. -/
  handlers : String → Buffer → Emit Buffer
  /-- How many decisions the handlers ask for. -/
  choices : Nat
  orelse : Option (Buffer → Emit Buffer)
  finally? : Option (Buffer → Emit Buffer)

/-- The guarded body and what follows it when nothing in it can fail. -/
def unguarded (p : TryParts) (body : String) (out : Buffer) : Emit Buffer := do
  undecided p.choices
  let out := out.nested "\x7b" "\x7d" (·.block body)
  match p.orelse with
  | some orelse => braced orelse out
  | none => return out

/-- The guarded body, then the handlers of an error that left it. -/
def guarded (p : TryParts) (number : Nat) (target : CatchTarget) (body : String) (out : Buffer) :
    Emit Buffer := do
  let out := out.line s!"var {target.slot}: ?anyerror = null;"
  let out := out.nested s!"{target.label}: \x7b" "\x7d" (·.block body)
  let payload ← claimIdent s!"__exc{number}"
  note (.handled target payload)
  let chain ← handling payload (p.handlers payload {})
  let out := (out.line s!"if ({target.slot}) |{payload}| \x7b").indent
  let out := if Text.mentions chain.text payload then out else out.line s!"_ = {payload};"
  let out := (out.block chain.text).dedent
  match p.orelse with
  | none => return out.line "\x7d"
  | some orelse => return (← nested orelse (out.line "\x7d else \x7b")).line "\x7d"

/-- A `try` statement as a labelled block: a failure inside stores the error in a slot and
leaves the block, and the handlers test the slot. -/
def tryBlock (p : TryParts) (out : Buffer) : Emit Buffer := do
  let n ← nextNumber
  let slot ← claimIdent s!"__err{n}"
  let target : CatchTarget := { slot, label := s!"try{n}" }
  let body := (← catching target (inBlock (p.body {}))).text
  let out ← if Text.mentions body slot then guarded p n target body out else unguarded p body out
  match p.finally? with
  | some finalbody => braced finalbody out
  | none => return out

/-- Control may not leave a statement before its `finally` part. -/
def checkFinally (body : List Stmt) (handlers : List Handler) (orelse finalbody : List Stmt) :
    Emit Unit :=
  if !finalbody.isEmpty && (Stmt.anyLeaves false body || Stmt.anyLeaves false orelse ||
      Handler.anyLeaves false handlers) then
    unsupported "`return`, `break` or `continue` out of a `try` with `finally`"
  else pure ()

/-! ## All statements -/

mutual

def stmt : Stmt → Buffer → Emit Buffer
  | .assign t v declared, out => assign t v declared out
  | .augAssign t op v, out => augAssign t op v out
  | .expr e, out => exprStmt e out
  | .ret none, out => returning none out
  | .ret (some v), out => returnValue v (renderExpr v) out
  | .ifElse test b e, out => do
    let t ← renderCondition test
    let out ← flushPrelude out
    let out ← nested (stmts b) (out.line s!"if ({t}) \x7b")
    elseTail e out
  | .whileLoop test b, out => whileLoop test (stmts b) out
  | .forLoop t i b, out => forLoop t i b (stmts b) out
  | .breakLoop, out => jump "break" out
  | .continueLoop, out => jump "continue" out
  | .pass, out => pure out
  | .nonlocal _, out => pure out
  | .raise e, out => do errorExit .raised (← raiseError e) out
  | .assert test _, out => assertion test out
  | .tryExcept b hs e f, out => do
    checkFinally b hs e f
    tryBlock { body := stmts b
               handlers := fun payload => handlers payload hs true
               choices := Handler.choices hs
               orelse := if e.isEmpty then none else some (stmts e)
               finally? := if f.isEmpty then none else some (stmts f) } out
  | .withItems items b, out => withBlock items (stmts b) out
  | .functionDef f, out => function f out
  | .global names, out => do
    modifyCurrent fun s => { s with globals := s.globals ++ names }
    return out
  | .delete ts, out => deleteAll ts out

def stmts : List Stmt → Buffer → Emit Buffer
  | [], out => pure out
  | s :: ss, out => do
    let out ← stmt s out
    stmts ss out

/-- What follows the first branch of an `if`. -/
def elseTail : List Stmt → Buffer → Emit Buffer
  | [], out => pure (out.line "\x7d")
  | [.ifElse test b e], out =>
    elseIf test (fun out => do
      let out ← nested (stmts b) out
      elseTail e out) out
  | s :: ss, out => do
    let out ← nested (fun out => do
      let out ← stmt s out
      stmts ss out) (out.line "\x7d else \x7b")
    return out.line "\x7d"

/-- The handlers in order; one that takes every error ends the chain. -/
def handlers (payload : String) : List Handler → Bool → Buffer → Emit Buffer
  | [], first, out => reraise payload first out
  | ⟨kind, name, body⟩ :: hs, first, out => do
    let test := handlerTest? kind payload
    let out := out.line (handlerHeader test first)
    let out ← inBlock do
      let out ← bindHandler name body payload out.indent
      let out ← stmts body out
      return out.dedent
    match test with
    | none => do
      undecided (Handler.choices hs)
      return out.line "\x7d"
    | some _ => handlers payload hs false out

/-- A nested function becomes a closure. -/
def function : Function → Buffer → Emit Buffer
  | ⟨name, params, vararg, kwarg, declaredResult, body, decorators, span⟩, out => do
    let (built, out) ← synthesize
      ⟨name, params, vararg, kwarg, declaredResult, body, decorators, span⟩
      (stmts body) (decorators.map renderExpr) true out
    decided (.declares name built.ident)
    return out

end

end Emit

end ClosureConversion
