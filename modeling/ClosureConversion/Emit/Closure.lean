import ClosureConversion.Capture.Resolve
import ClosureConversion.Effects.Analysis
import ClosureConversion.Emit.Context

/-! # Making closures -/

set_option autoImplicit false

namespace ClosureConversion

/-- A nested function after it was made a closure. -/
structure BuiltClosure where
  delta : RenameDelta
  representation : Representation
  /-- The identifier that the instance is bound to. -/
  ident : String
  wrapper : String
  signature : Signature

def BuiltClosure.ty (b : BuiltClosure) : Ty := .closure b.wrapper b.signature

/-- A formal under a plan: a body that stores to it works on a copy. -/
def Formal.planned (plan : BodyPlan) (p : Formal) : Formal :=
  { p with reassigned := plan.isMutable p.ident }

/-- A function body that was written. -/
structure WrittenBody where
  formals : List Formal
  text : String
  /-- Something in the body was written as failing. -/
  failed : Bool
  /-- Notes on the text, the latest first. -/
  notes : List Note
  /-- Decisions about plain names, the latest first; there is none where a handler was not written. -/
  decisions : List (Option Decision)
  /-- Join of the types of the returned values. -/
  returnType : Option Ty

namespace WrittenBody

/-- The operations written as failing, the latest first. -/
def faults (b : WrittenBody) : List Fault := b.notes.filterMap Note.fault?

/-- The `try` bodies whose handlers were written, the latest first. -/
def guards (b : WrittenBody) : List CatchTarget := b.notes.filterMap Note.guard?

end WrittenBody

/-- The copy of a formal that the body writes. -/
def Formal.copyNote? (p : Formal) : Option Note :=
  p.copyRest?.map (.introduced ⟨p.ident, .formal true⟩)

theorem Formal.eq_introduced_of_mem_copyNotes {formals : List Formal} {n : Note}
    (h : n ∈ formals.filterMap Formal.copyNote?) : ∃ slot rest, n = .introduced slot rest := by
  obtain ⟨p, -, hp⟩ := List.mem_filterMap.mp h
  unfold Formal.copyNote? at hp
  obtain ⟨rest, -, heq⟩ := Option.map_eq_some_iff.mp hp
  exact ⟨_, rest, heq.symm⟩

namespace Emit

/-! ## Formals and results -/

/-- Type of a parameter, resolved in the scope around the function. -/
def paramType (f : Function) (qualname : String) (p : Param) : Emit Ty := do
  let o ← oracle
  let s ← scope
  let ty := match p.declared, o.paramType qualname p.name, p.default with
    | some t, _, _ => t
    | none, some t, _ => t
    | none, none, some d => o.exprType d s
    | none, none, none => .unknown
  if ty.isUnknown then
    reportDiagnostic
      { Diagnostic.ofCode .unresolvedParamType
          s!"type of parameter `{p.name}` is unknown; passing it as a dynamic value" with
        function := some qualname
        span := f.span }
  return ty

/-- Types of all formals; the collectors hold a list and a mapping. -/
def formalTypes (f : Function) (qualname : String) : Emit (List Ty) := do
  let params ← sequence (f.params.map (paramType f qualname))
  let declared (p : Param) : Ty := p.declared.getD .unknown
  return params ++ (f.vararg.map fun p => Ty.list (declared p)).toList ++
    (f.kwarg.map fun p => Ty.dict .str (declared p)).toList

def declareFormal (u : Usage) (name : String) (ty : Ty) : Emit Formal := do
  let ident ← claimIdent name
  declareAs name ident { kind := .param, slot := ⟨ident, .formal false⟩, ty }
  return { name, ident, ty, used := u.isRead name }

def declareFormals (f : Function) (types : List Ty) (u : Usage) : Emit (List Formal) :=
  sequence ((f.formals.zip types).map fun p => declareFormal u p.1 p.2)

/-- Spelling of a result type; an unknown one is reported. -/
def returnText (returnType : Option Ty) (fallible : Bool) (qualname : String) (f : Function) :
    Emit String := do
  let base ← match returnType with
    | none => pure "void"
    | some .unknown => do
      let spelled := (← options).unknownReturnType
      reportDiagnostic
        { Diagnostic.ofCode .unresolvedReturnType
            s!"return type of `{qualname}` could not be inferred; using `{spelled}`" with
          function := some qualname
          span := f.span
          help := some "annotate the return type" }
      pure spelled
    | some (.union _) => pure dynamicValue
    | some t => pure t.target
  return if fallible then s!"anyerror!{base}" else base

/-! ## Bodies -/

/-- Declare a name that is first bound inside a block at the head of the body. -/
def declareHoisted (out : Buffer) (name : String) (ty : Ty) : Emit Buffer := do
  let ident ← claimIdent name
  let rest := s!": {ty.slot} = undefined;"
  note (.introduced ⟨ident, .hoisted⟩ rest)
  modifyScope (·.declareInFunction name ident { ty, slot := ⟨ident, .hoisted⟩, isMutable := true })
  return out.line s!"var {ident}{rest}"

def joinReturns (emitted planned : Option Ty) : Option Ty :=
  match emitted, planned with
  | some e, some p => some (e.join p)
  | some e, none => some e
  | none, p => p

/-- Note whether the body works on a copy of a formal. -/
def settleFormal (s : Scope) (p : Formal) : Scope :=
  s.modifyBinding p.name fun b =>
    { b with slot := ⟨b.slot.ident, .formal p.reassigned⟩
             isMutable := b.isMutable || p.reassigned }

/-- Plan a body in the function's frame, with the formals declared. -/
def planFunction (f : Function) (qualname : String) (formals : List Formal) (u : Usage) :
    Emit (FunctionState × List Formal) := do
  let planner := planBody f.body (← scope) (← oracle)
  modify fun c => { c with journal := planner.journal ++ c.journal }
  let plan := planner.plan
  let formals := formals.map (·.planned plan)
  modifyScope fun s => formals.foldl settleFormal s
  return ({ qualname, span := f.span, plan, usage := some u }, formals)

/-- Write a planned body, its prologue first. -/
def plannedBody (formals : List Formal) (plan : BodyPlan) (body : Buffer → Emit Buffer) :
    Emit Buffer := do
  noteAll (formals.filterMap Formal.copyNote?)
  let out := Buffer.lines {} (formals.filterMap Formal.copyLine?)
  let out ← plan.hoisted.foldlM (fun out e => declareHoisted out e.1 e.2) out
  body out

/-- Plan a body and write it, in the function's frame with the formals declared. -/
def functionBody (f : Function) (qualname : String) (formals : List Formal) (u : Usage)
    (body : Buffer → Emit Buffer) : Emit WrittenBody := do
  let (state, formals) ← planFunction f qualname formals u
  let (out, ended) ← inFunction state (plannedBody formals state.plan body)
  return { formals, text := out.text, failed := ended.failed, notes := ended.notes,
           decisions := ended.decisions,
           returnType := joinReturns ended.returned state.plan.returnType }

/-! ## Closures -/

/-- Claim the names of the declarations at container level. -/
def claimNames (name : String) (shape : Shape) : Emit (String × Closure.Layout) := do
  let o ← options
  let wrapper ← claimModuleIdent (name ++ o.wrapperSuffix)
  match shape with
  | .structCapture => do
    let env ← claimModuleIdent (name ++ o.envSuffix)
    let implementation ← claimModuleIdent (name ++ o.implSuffix)
    return (wrapper, .environment env implementation)
  | .zeroCapture => do
    let implementation ← claimModuleIdent (name ++ o.implSuffix)
    return (wrapper, .routine implementation)
  | .recursiveSelfCapture => return (wrapper, .aggregate)

/-- The names under which a closure's body reaches its environment and itself. -/
def claimReceivers (shape : Shape) : Emit (Option String × Option String) := do
  match shape with
  | .zeroCapture => return (none, none)
  | .structCapture => do
    let env ← claimIdent "env"
    let self ← claimIdent "self"
    return (some env, some self)
  | .recursiveSelfCapture => do
    let self ← claimIdent "self"
    return (none, some self)

def declareCapture (receiver : String) (c : Capture) : Emit Unit :=
  declareAs c.name (c.access receiver)
    { kind := .captured, slot := ⟨c.access receiver, .field (c.mode == .byReference)⟩, ty := c.ty,
      isMutable := c.mode == .byReference }

/-- Say whether calls of a closure through this type can fail. -/
def setCallFails (fails : Bool) : Ty → Ty
  | .closure wrapper s => .closure wrapper { s with fallible := fails }
  | ty => ty

/-- Everything that is known of a closure before its body is written. -/
structure Draft where
  function : Function
  qualname : String
  usage : Usage
  representation : Representation
  wrapper : String
  layout : Closure.Layout
  paramTypes : List Ty
  declaredReturn : Option Ty

/-- Declare the captures, which the body reaches through `receiver`. -/
def declareCaptures (d : Draft) (receiver : Option String) : Emit Unit :=
  match receiver with
  | some receiver =>
    discard <| sequence (d.representation.captures.toList.map (declareCapture receiver))
  | none => pure ()

/-- Declare the own name of a recursive closure. -/
def declareHandle (d : Draft) (assumed : Option Bool) (selfParam : Option String) : Emit Unit :=
  match d.representation.recursive, selfParam with
  | true, some handle =>
    declareAs d.function.name handle
      { kind := .selfHandle
        slot := ⟨handle, .receiver⟩
        ty := .closure d.wrapper { params := d.paramTypes
                                   result := d.declaredReturn.getD .unknown
                                   fallible := assumed.getD false } }
  | _, _ => pure ()

/-- What stands in a closure's frame before its body is written. -/
structure Entry where
  envParam : Option String
  selfParam : Option String
  formals : List Formal
  effectsFail : Bool
  assumedFallible : Bool

/-- Declare everything that the body of a closure finds in its frame. `assumed` says whether
calls of the closure in its own body are taken to fail; without it effect analysis decides. -/
def enterClosure (d : Draft) (assumed : Option Bool) : Emit Entry := do
  let (envParam, selfParam) ← claimReceivers d.representation.shape
  declareCaptures d (envParam.or selfParam)
  declareHandle d assumed selfParam
  let formals ← declareFormals d.function d.paramTypes d.usage
  let effectsFail := mayFail d.function.body (← scope) (← oracle) (← options)
  let assumedFallible := assumed.getD effectsFail
  if d.representation.recursive then
    modifyScope (·.modifyBinding d.function.name fun b =>
      { b with ty := setCallFails assumedFallible b.ty })
  return { envParam, selfParam, formals, effectsFail, assumedFallible }

/-- Write the body in the closure's own frame. -/
def closureFrame (d : Draft) (assumed : Option Bool) (body : Buffer → Emit Buffer) :
    Emit Closure.Parts := do
  let e ← enterClosure d assumed
  let written ← functionBody d.function d.qualname e.formals d.usage body
  return { formals := written.formals, body := written.text, envParam := e.envParam,
           selfParam := e.selfParam, fallible := written.failed || e.effectsFail,
           assumedFallible := e.assumedFallible, returnType := written.returnType }

def closureParts (d : Draft) (assumed : Option Bool) (body : Buffer → Emit Buffer) :
    Emit Closure.Parts :=
  inFrame (.function d.qualname d.function.formals) (closureFrame d assumed body)

/-- Undo what writing a closure's body changed since `c`. Reports and closures that came later are
cut off. -/
def restore (c : Context) : Emit Unit :=
  modify fun now =>
    { now with scope := c.scope, report := now.report.take c.report.length,
               declarations := c.declarations, closures := now.closures.take c.closures.length,
               counter := c.counter }

/-- Write the body; a recursive closure that turns out to fail, though its own calls were
written as if it could not, is written once more. -/
def settledParts (d : Draft) (body : Buffer → Emit Buffer) : Emit Closure.Parts := do
  let before ← context
  let parts ← closureParts d none body
  if d.representation.recursive && parts.fallible && !parts.assumedFallible then
    tell [.writtenAgain d.qualname]
    restore before
    closureParts d (some true) body
  else
    return parts

/-- Note which names a closure of `f` takes from the present scope. -/
def observeClosure (f : Function) (captures : CaptureSet) : Emit Unit :=
  modify fun c => { c with trace := .closure f captures c.scope c.current.usage :: c.trace }

/-- The captures of a nested function in the present scope. -/
def captures (f : Function) (u : Usage) (qualname : String) : Emit CaptureSet := do
  let s ← scope
  tell (Capture.resolveEvents f u s qualname)
  match Capture.resolve f u s qualname with
  | .ok r =>
    discard <| sequence (r.report.map reportDiagnostic)
    observeClosure f r.captures
    return r.captures
  | .error e => fail e

/-- The result type that the program or the oracle declares. -/
def declaredReturn (f : Function) (qualname : String) : Emit (Option Ty) := do
  let o ← oracle
  let found := ((f.declaredResult).or (o.returnType qualname)).or (o.returnType f.name)
  return found.filter (!·.isUnknown)

/-- Wrap an instance by decorators, the last of them innermost. -/
def decorate (init : String) (decorators : List (Emit String)) : Emit String :=
  decorators.reverse.foldlM (fun init d => do
    let decorator ← d
    return s!"{decorator}({init})") init

/-- Bind the wrapper of a closure where its instance is declared by a line that ends in `rest`. -/
def declareWrapper (name ident rest : String) (ty : Ty) : Emit Unit := do
  let isMutable := (← current).plan.isMutable ident
  note (.introduced ⟨ident, .declared isMutable⟩ rest)
  declareAs name ident { kind := .closure, slot := ⟨ident, .declared isMutable⟩, ty, isMutable }

/-- Resolve the captures of `f` and claim the names of its closure. With the draft comes the
identifier that the instance will be bound to. -/
def prepare (f : Function) : Emit (Draft × String) := do
  let qualname ← qualify f.name
  let usage := Usage.ofFunction f
  tell [.analyzed f.name f.formals f.body]
  let captures ← captures f usage qualname
  let representation : Representation := { captures, recursive := usage.selfRecursive }
  tell [.synthesizing qualname representation.shape captures.size]
  let (wrapper, layout) ← claimNames f.name representation.shape
  let ident ← claimIdent f.name
  let paramTypes ← formalTypes f qualname
  let declaredReturn ← declaredReturn f qualname
  return ({ function := f, qualname, usage, representation, wrapper, layout, paramTypes,
            declaredReturn }, ident)

/-- Declare the parts of a closure at container level; the result is how it is called. -/
def declareClosure (d : Draft) (parts : Closure.Parts) : Emit Signature := do
  let returnType := d.declaredReturn.or parts.returnType
  let result ← returnText returnType parts.fallible d.qualname d.function
  let declared := Closure.declarations d.wrapper d.layout d.representation.captures parts result
  modify fun c => { c with declarations := c.declarations ++ declared.text ++ "\n" }
  return { params := d.paramTypes, result := returnType.getD .none, fallible := parts.fallible }

/-- Bind the instance of a closure, wrapped by its decorators. -/
def bindInstance (d : Draft) (ident : String) (signature : Signature)
    (decorators : List (Emit String)) (discardUnused : Bool) (out : Buffer) : Emit Buffer := do
  let name := d.function.name
  let init ← decorate (Closure.instanceInit d.wrapper d.representation) decorators
  let out ← flushPrelude out
  let rest := s!" = {init};"
  let out := out.line s!"{Code.keyword ((← current).plan.isMutable ident)} {ident}{rest}"
  let out := if discardUnused && !(← isRead name) then out.line s!"_ = {ident};" else out
  declareWrapper name ident rest (.closure d.wrapper signature)
  return out

/-- What is kept of a closure once it was made. -/
def Draft.summary (d : Draft) (fallible : Bool) : ClosureSummary :=
  { qualname := d.qualname, shape := d.representation.shape, wrapper := d.wrapper,
    layout := d.layout, captures := d.representation.captures.names, fallible }

/-- Declare a closure, bind its instance, and list it among the closures made. -/
def bindClosure (d : Draft) (ident : String) (parts : Closure.Parts)
    (decorators : List (Emit String)) (discardUnused : Bool) (out : Buffer) :
    Emit (BuiltClosure × Buffer) := do
  let signature ← declareClosure d parts
  let out ← bindInstance d ident signature decorators discardUnused out
  modify fun c => { c with closures := c.closures ++ [d.summary parts.fallible] }
  return ({ delta := [(d.function.name, ident)], representation := d.representation, ident,
            wrapper := d.wrapper, signature }, out)

/-- Make a closure of the nested function `f`. Its declarations go to container level, the
instance to `out`, and the wrapper is bound under the function's name in the present frame. A
wrapper that the body around it never reads is discarded where `discardUnused` says so. -/
def synthesize (f : Function) (body : Buffer → Emit Buffer) (decorators : List (Emit String))
    (discardUnused : Bool) (out : Buffer) : Emit (BuiltClosure × Buffer) := do
  let (draft, ident) ← prepare f
  let (parts, _) ← isolated (settledParts draft body)
  bindClosure draft ident parts decorators discardUnused out

end Emit

end ClosureConversion
