import ClosureConversion.BodyPlan
import ClosureConversion.Closure.Layout
import ClosureConversion.Options

/-! # The state of a conversion -/

set_option autoImplicit false

namespace ClosureConversion

/-- One closure made while converting a function. -/
structure ClosureSummary where
  /-- Dotted path, such as `outer.inner`. -/
  qualname : String
  shape : Shape
  /-- Name of the wrapper type. -/
  wrapper : String
  /-- Names of its other declarations. -/
  layout : Closure.Layout
  /-- Captured names in the order of the environment. -/
  captures : List String
  fallible : Bool
  deriving DecidableEq

/-- Where a failing operation inside a `try` body goes. -/
structure CatchTarget where
  /-- The variable that takes the error. -/
  slot : String
  /-- The block that is left. -/
  label : String
  deriving DecidableEq

/-- What may be written as failing. -/
inductive Operation where
  | binary (op : BinOp) (left right : Expr)
  | index (container index : Expr)
  /-- The call of a plain name. -/
  | named (name : String)
  | method (name : String)
  /-- The call of any other callee. -/
  | computed (callee : Expr)
  /-- Building a collection or a text. -/
  | allocation
  /-- Storing to an entry of a container, or deleting it. -/
  | entry (container : Expr)
  /-- Taking a value apart. -/
  | part
  /-- Extending a variable in place. -/
  | extend (name : String)
  | raised
  /-- Passing on an error that no handler took. -/
  | rethrown

/-- An operation that was written as failing. -/
structure Fault where
  operation : Operation
  /-- Enclosing `try` bodies, innermost first. -/
  catches : List CatchTarget

/-- A place where control may leave what is being written. The test of a loop is none: it ends
the loop or the iteration that it stands in. -/
inductive Exit where
  /-- The error of an expression, to the innermost of the `try` bodies around it, or to the
  caller. -/
  | failing (fault : Fault) (value : String)
  /-- An error that is raised by statements of its own. -/
  | raising (fault : Fault) (error : String)
  /-- A `return`, with the value if there is one. -/
  | result (value : Option String)
  /-- A `break` or `continue`, to the innermost of so many loops. -/
  | jump (loops : Nat) (keyword : String)

/-- A line that stores to a variable without declaring it. -/
structure StoreLine where
  name : String
  /-- How the variable is written. -/
  ident : String
  /-- What follows it in the line. -/
  rest : String
  /-- What the name was bound to in the function before. -/
  previous : Option Binding

/-- What is noted beside the text of a body, for the parts of the text that matter later on. -/
inductive Note where
  | exit (exit : Exit)
  /-- Handlers are entered with the error that left the `try` body of `target`. -/
  | handled (target : CatchTarget) (payload : String)
  /-- A variable is introduced by a line that starts with its keyword and identifier. -/
  | introduced (slot : Slot) (rest : String)
  | stored (line : StoreLine)
  /-- Statements that must run before the expression being rendered. -/
  | queued (text : String)
  /-- The operand of a comparison with nothing, which is not written. -/
  | dropped (text : String)

/-- What is known of the function whose body is being written. -/
structure FunctionState where
  qualname : String := ""
  span : Span := {}
  plan : BodyPlan := {}
  /-- Without a usage every name counts as read. -/
  usage : Option Usage := none
  /-- Something in the body was written as failing. -/
  failed : Bool := false
  /-- Enclosing `try` bodies, innermost first. -/
  catches : List CatchTarget := []
  /-- Errors held by enclosing handlers, innermost first. -/
  handlerErrors : List String := []
  /-- Number of the loops around. -/
  loops : Nat := 0
  /-- Notes on the text written so far, the latest first. -/
  notes : List Note := []
  /-- Decisions made so far, the latest first; there is none where a handler was not written. -/
  decisions : List (Option Decision) := []
  /-- Names declared global. -/
  globals : List String := []
  /-- Join of the types of the values returned so far. -/
  returned : Option Ty := none

namespace Exit

def fault? : Exit → Option Fault
  | .failing fault _ | .raising fault _ => some fault
  | .result _ | .jump _ _ => none

end Exit

namespace Note

def exit? : Note → Option Exit
  | .exit e => some e
  | _ => none

def fault? (n : Note) : Option Fault := n.exit?.bind Exit.fault?

def guard? : Note → Option CatchTarget
  | .handled target _ => some target
  | _ => none

def store? : Note → Option StoreLine
  | .stored s => some s
  | _ => none

end Note

namespace FunctionState

/-- Exits written so far, the latest first. -/
def exits (f : FunctionState) : List Exit := f.notes.filterMap Note.exit?

/-- Operations written as failing so far, the latest first. -/
def faults (f : FunctionState) : List Fault := f.notes.filterMap Note.fault?

/-- The `try` bodies whose handlers were written, the latest first. -/
def guards (f : FunctionState) : List CatchTarget := f.notes.filterMap Note.guard?

/-- Stores written so far, the latest first. -/
def stores (f : FunctionState) : List StoreLine := f.notes.filterMap Note.store?

def recordReturn (f : FunctionState) (ty : Ty) : FunctionState :=
  { f with returned := some (match f.returned with
      | some prev => prev.join ty
      | none => ty) }

def isRead (f : FunctionState) (name : String) : Bool :=
  match f.usage with
  | some u => u.isRead name
  | none => true

end FunctionState

/-- What a body that is being written does with the names around it. -/
inductive Observation where
  /-- A closure of `function` is made in the scope `around`, inside a body with this usage. -/
  | closure (function : Function) (captures : CaptureSet) (around : Scope) (within : Option Usage)

structure Settings where
  oracle : Oracle
  options : Options

structure Context where
  scope : Scope
  report : Report := []
  /-- Declarations at container level. -/
  declarations : String := ""
  /-- Statements that must run before the expression being rendered. -/
  prelude : Buffer := {}
  current : FunctionState := {}
  closures : List ClosureSummary := []
  /-- Number of the latest temporary. -/
  counter : Nat := 0
  journal : Journal := []
  /-- Observations so far, the latest first. -/
  trace : List Observation := []

/-- Computations that may fail; the state survives a failure. -/
def Emit (α : Type) : Type := Settings → Context → Except ConvertError α × Context

namespace Emit

variable {α β : Type}

instance : Monad Emit where
  pure a := fun _ c => (.ok a, c)
  bind x f := fun w c =>
    match x w c with
    | (.ok a, c) => f a w c
    | (.error e, c) => (.error e, c)

@[simp] theorem pure_apply (a : α) (w : Settings) (c : Context) :
    (pure a : Emit α) w c = (.ok a, c) := rfl

theorem bind_apply (x : Emit α) (f : α → Emit β) (w : Settings) (c : Context) :
    (x >>= f) w c = match x w c with
      | (.ok a, c) => f a w c
      | (.error e, c) => (.error e, c) := rfl

instance : LawfulMonad Emit :=
  LawfulMonad.mk' Emit
    (fun x => by
      funext w c
      show (x >>= fun a => pure a) w c = x w c
      rw [bind_apply]
      rcases x w c with ⟨r, c₁⟩
      cases r <;> rfl)
    (fun _ _ => rfl)
    (fun x f g => by
      funext w c
      rw [bind_apply, bind_apply, bind_apply]
      rcases x w c with ⟨r, c₁⟩
      cases r <;> rfl)

/-- A computation that succeeds did so in both its parts. -/
theorem bind_eq_ok {x : Emit α} {f : α → Emit β} {b : β} {w : Settings} {c c' : Context}
    (h : (x >>= f) w c = (.ok b, c')) :
    ∃ a c₁, x w c = (.ok a, c₁) ∧ f a w c₁ = (.ok b, c') := by
  rw [bind_apply] at h
  split at h
  · exact ⟨_, _, ‹_›, h⟩
  · cases h

/-- What holds where the first part of a computation ends, and is kept by the second, holds where
the whole ends. -/
@[elab_as_elim]
theorem snd_bind {motive : Context → Prop} {x : Emit α} {f : α → Emit β} {w : Settings}
    {c : Context} (hx : motive (x w c).2)
    (hf : ∀ a c₁, x w c = (.ok a, c₁) → motive c₁ → motive (f a w c₁).2) :
    motive ((x >>= f) w c).2 := by
  rw [bind_apply]
  rcases hxc : x w c with ⟨r, c₁⟩
  rw [hxc] at hx
  cases r with
  | error e => exact hx
  | ok a => exact hf a c₁ hxc hx

def fail (e : ConvertError) : Emit α := fun _ c => (.error e, c)

def options : Emit Options := fun w c => (.ok w.options, c)

def oracle : Emit Oracle := fun w c => (.ok w.oracle, c)

def context : Emit Context := fun _ c => (.ok c, c)

def scope : Emit Scope := fun _ c => (.ok c.scope, c)

def current : Emit FunctionState := fun _ c => (.ok c.current, c)

def modify (f : Context → Context) : Emit Unit := fun _ c => (.ok (), f c)

def modifyScope (f : Scope → Scope) : Emit Unit := modify fun c => { c with scope := f c.scope }

def modifyCurrent (f : FunctionState → FunctionState) : Emit Unit :=
  modify fun c => { c with current := f c.current }

def tell (events : List Event) : Emit Unit :=
  modify fun c => { c with journal := c.journal.record events }

/-- Note something on what is being written. -/
def noteAll (notes : List Note) : Emit Unit :=
  modifyCurrent fun f => { f with notes := notes ++ f.notes }

def note (n : Note) : Emit Unit := noteAll [n]

def decided (d : Decision) : Emit Unit :=
  modifyCurrent fun f => { f with decisions := some d :: f.decisions }

/-- Handlers that ask for so many decisions are not written. -/
def undecided (choices : Nat) : Emit Unit :=
  modifyCurrent fun f => { f with decisions := List.replicate choices none ++ f.decisions }

def typeOf (e : Expr) : Emit Ty := fun w c => (.ok (w.oracle.exprType e c.scope), c)

/-! ## Reports and failures -/

/-- A construct that has no counterpart in the target. -/
def unsupported (what : String) : Emit α := fun _ c =>
  (.error (.unsupportedConstruct c.current.qualname what c.current.span), c)

def reportDiagnostic (d : Diagnostic) : Emit Unit := do
  tell [.reported d.code d.message]
  modify fun c => { c with report := c.report ++ [d] }

/-- Dotted name of a function nested in the current one. -/
def qualify (name : String) : Emit String := do
  let qualname := (← current).qualname
  return if qualname.isEmpty then name else s!"{qualname}.{name}"

def markFailed : Emit Unit := modifyCurrent ({ · with failed := true })

/-- Note an exit by an error; the result says where errors go. -/
def leaveByError (op : Operation) (exit : Fault → Exit) : Emit (List CatchTarget) := do
  let catches := (← current).catches
  note (.exit (exit ⟨op, catches⟩))
  return catches

/-- Wrap an expression whose value may be an error. Inside a `try` body the error is stored
and the guarded block is left; elsewhere it is passed on to the caller. -/
def fallible (op : Operation) (text : String) : Emit String := do
  match ← leaveByError op (.failing · text) with
  | target :: _ =>
    return s!"({text} catch |__e| \x7b {target.slot} = __e; break :{target.label}; \x7d)"
  | [] =>
    markFailed
    return s!"try {text}"

def fallibleIf (op : Operation) (fails : Bool) (text : String) : Emit String :=
  if fails then fallible op text else pure text

/-- Write the statements that raise `error`. -/
def errorExit (op : Operation) (error : String) (out : Buffer) : Emit Buffer := do
  match ← leaveByError op (.raising · error) with
  | target :: _ =>
    return out.lines [s!"{target.slot} = {error};", s!"break :{target.label};"]
  | [] =>
    markFailed
    return out.line s!"return {error};"

/-! ## Names -/

def isRead (name : String) : Emit Bool := return (← current).isRead name

def isDeclaredGlobal (name : String) : Emit Bool := return (← current).globals.contains name

def declareAs (name ident : String) (b : Binding) : Emit Unit := do
  tell [.declared name ident b.ty]
  modifyScope (·.declareAs name ident b)

def claimIdent (base : String) : Emit String := do
  let (ident, s) := (← scope).claimIdent base
  tell (if ident = base then [] else [.respelled base ident])
  modifyScope fun _ => s
  return ident

def claimModuleIdent (base : String) : Emit String := do
  let (ident, s) := (← scope).claimModuleIdent base
  tell (if ident = base then [] else [.containerRespelled base ident])
  modifyScope fun _ => s
  return ident

def nextNumber : Emit Nat := do
  modify fun c => { c with counter := c.counter + 1 }
  return (← context).counter

/-- A temporary such as `__comp3`. -/
def temporary (stem : String) : Emit String := do
  let n ← nextNumber
  claimIdent s!"__{stem}{n}"

/-- Plan an assignment in the present scope. -/
def planAssignment (name : String) (ty : Ty) : Emit Assignment := do
  let s ← scope
  tell (s.resolveEvents name ty)
  return Assignment.plan s name ty

def commit (a : Assignment) (isMutable : Bool) (source : Option String) : Emit Unit := do
  tell a.commitEvents
  modifyScope fun s => a.commit s isMutable source

/-! ## Brackets: what is entered is left on every path -/

/-- Run in a frame of its own. A failure of the computation counts before one of leaving the
frame. -/
def inFrame (kind : FrameKind) (x : Emit α) : Emit α := fun w c =>
  match x w { c with scope := c.scope.push kind } with
  | (r, c) =>
    match c.scope.pop with
    | .ok left => (r, { c with scope := left.scope, journal := c.journal.record left.events })
    | .error e => (r.bind fun _ => .error e, c)

def inBlock (x : Emit α) : Emit α := inFrame .block x

/-- Run with an empty prelude; the result comes with what was added to it. -/
def isolated (x : Emit α) : Emit (α × String) := fun w c =>
  match x w { c with prelude := {} } with
  | (r, inner) => (r.map fun a => (a, inner.prelude.text), { inner with prelude := c.prelude })

/-- Run as another function; the result comes with what became known of that function. -/
def inFunction (state : FunctionState) (x : Emit α) : Emit (α × FunctionState) := fun w c =>
  match x w { c with current := state } with
  | (r, inner) => (r.map fun a => (a, inner.current), { inner with current := c.current })

/-- Run as the body of a `try`. -/
def catching (target : CatchTarget) (x : Emit α) : Emit α := fun w c =>
  match x w { c with current := { c.current with catches := target :: c.current.catches } } with
  | (r, c) => (r, { c with current := { c.current with catches := c.current.catches.tail } })

/-- Run as the handlers of an error held in `payload`. -/
def handling (payload : String) (x : Emit α) : Emit α := fun w c =>
  let held := payload :: c.current.handlerErrors
  match x w { c with current := { c.current with handlerErrors := held } } with
  | (r, c) =>
    (r, { c with current := { c.current with handlerErrors := c.current.handlerErrors.tail } })

/-- Run as the body of a loop. -/
def looping (x : Emit α) : Emit α := fun w c =>
  match x w { c with current := { c.current with loops := c.current.loops + 1 } } with
  | (r, c) => (r, { c with current := { c.current with loops := c.current.loops - 1 } })

section Inversion

variable {x : Emit α} {w : Settings} {c c' : Context}

/-- A computation that succeeds in a frame of its own did so inside, and the frame was left. -/
theorem inFrame_eq_ok {kind : FrameKind} {a : α} (h : inFrame kind x w c = (.ok a, c')) :
    ∃ c₁ left, x w { c with scope := c.scope.push kind } = (.ok a, c₁) ∧
      c₁.scope.pop = .ok left ∧
      c' = { c₁ with scope := left.scope, journal := c₁.journal.record left.events } := by
  unfold inFrame at h
  rcases hx : x w { c with scope := c.scope.push kind } with ⟨r, c₁⟩
  rw [hx] at h
  dsimp only at h
  split at h
  · rename_i left hpop
    cases h
    exact ⟨c₁, left, rfl, hpop, rfl⟩
  · cases r <;> cases h

theorem isolated_eq_ok {a : α} {text : String} (h : isolated x w c = (.ok (a, text), c')) :
    ∃ c₁, x w { c with prelude := {} } = (.ok a, c₁) ∧ text = c₁.prelude.text ∧
      c' = { c₁ with prelude := c.prelude } := by
  unfold isolated at h
  rcases hx : x w { c with prelude := {} } with ⟨r, c₁⟩
  rw [hx] at h
  cases r <;> cases h
  exact ⟨c₁, rfl, rfl, rfl⟩

theorem inFunction_eq_ok {state ended : FunctionState} {a : α}
    (h : inFunction state x w c = (.ok (a, ended), c')) :
    ∃ c₁, x w { c with current := state } = (.ok a, c₁) ∧ ended = c₁.current ∧
      c' = { c₁ with current := c.current } := by
  unfold inFunction at h
  rcases hx : x w { c with current := state } with ⟨r, c₁⟩
  rw [hx] at h
  cases r <;> cases h
  exact ⟨c₁, rfl, rfl, rfl⟩

theorem catching_eq_ok {target : CatchTarget} {a : α} (h : catching target x w c = (.ok a, c')) :
    ∃ c₁, x w { c with current := { c.current with catches := target :: c.current.catches } } =
        (.ok a, c₁) ∧
      c' = { c₁ with current := { c₁.current with catches := c₁.current.catches.tail } } := by
  unfold catching at h
  rcases hx : x w { c with current := { c.current with catches := target :: c.current.catches } }
    with ⟨r, c₁⟩
  rw [hx] at h
  cases h
  exact ⟨c₁, rfl, rfl⟩

theorem handling_eq_ok {payload : String} {a : α} (h : handling payload x w c = (.ok a, c')) :
    ∃ c₁, x w { c with current := { c.current with
          handlerErrors := payload :: c.current.handlerErrors } } = (.ok a, c₁) ∧
      c' = { c₁ with current := { c₁.current with
        handlerErrors := c₁.current.handlerErrors.tail } } := by
  unfold handling at h
  dsimp only at h
  rcases hx : x w { c with current := { c.current with
    handlerErrors := payload :: c.current.handlerErrors } } with ⟨r, c₁⟩
  rw [hx] at h
  cases h
  exact ⟨c₁, rfl, rfl⟩

theorem looping_eq_ok {a : α} (h : looping x w c = (.ok a, c')) :
    ∃ c₁, x w { c with current := { c.current with loops := c.current.loops + 1 } } = (.ok a, c₁) ∧
      c' = { c₁ with current := { c₁.current with loops := c₁.current.loops - 1 } } := by
  unfold looping at h
  rcases hx : x w { c with current := { c.current with loops := c.current.loops + 1 } } with ⟨r, c₁⟩
  rw [hx] at h
  cases h
  exact ⟨c₁, rfl, rfl⟩

end Inversion

/-- Move the pending statements into `out`. -/
def flushPrelude (out : Buffer) : Emit Buffer := fun _ c =>
  if c.prelude.isEmpty then (.ok out, c)
  else (.ok (out.block c.prelude.text), { c with prelude := {} })

/-- Add statements that must run before the expression being rendered. -/
def pushPrelude (text : String) : Emit Unit := do
  note (.queued text)
  modify fun c => { c with prelude := c.prelude.block text }

/-- The results of computations that are run one after the other. -/
def sequence : List (Emit α) → Emit (List α)
  | [] => pure []
  | x :: xs => do
    let a ← x
    let as ← sequence xs
    return a :: as

end Emit

end ClosureConversion
