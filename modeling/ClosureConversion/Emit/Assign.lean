import ClosureConversion.Emit.Render

/-! # Assignments and deletions -/

set_option autoImplicit false

namespace ClosureConversion

namespace Emit

/-- Write the declaration or the store of a planned assignment, then carry it out. -/
def bindName (a : Assignment) (text : String) (source : Option String) (out : Buffer) :
    Emit Buffer := do
  let isMutable := (← current).plan.isMutable a.ident
  let read ← isRead a.name
  if a.declares then
    let rest := Code.declarationRest a.ty isMutable text
    note (.introduced ⟨a.ident, .declared isMutable⟩ rest)
    decided (.declares a.name a.ident)
    commit a isMutable source
    let out := out.line s!"{Code.keyword isMutable} {a.ident}{rest}"
    return if read then out else out.line s!"_ = {a.ident};"
  else
    let rest := s!" = {text};"
    note (.stored ⟨a.name, a.ident, rest, a.previous⟩)
    decided (.stores a.name)
    commit a isMutable source
    return out.line s!"{a.ident}{rest}"

/-- Store a value to an entry of a container. -/
def store (container index : Expr) (value : String) (out : Buffer) : Emit Buffer := do
  let ty ← typeOf container
  let c ← renderOperand container
  let i ← renderExpr index
  let line ← match ty with
    | .list _ => pure s!"{c}.items[@intCast({i})] = {value};"
    | .dict _ _ => do
      let put ← fallibleIf (.entry container) (← options).allocationFails s!"{c}.put({i}, {value})"
      pure (put ++ ";")
    | _ => do pure ((← fallible (.entry container) s!"runtime.setItem({c}, {i}, {value})") ++ ";")
  let out ← flushPrelude out
  return out.line line

/-- Text of one part of a value that is taken apart. -/
def partAccess (source : String) (ty : Ty) (i : Nat) : Emit String := do
  match ty with
  | .tuple _ => return s!"{source}[{i}]"
  | .list _ => return s!"{source}.items[{i}]"
  | _ => fallible .part s!"runtime.getItem({source}, {i})"

mutual

/-- Store a part of a tuple. -/
def assignPart : Target → String → Ty → Buffer → Emit Buffer
  | .name n, access, ty, out => do
    if ← isDeclaredGlobal n then
      decided (.global n)
      return out.line s!"{n} = {access};"
    let a ← planAssignment n ty
    bindName a access none out
  | .tuple parts, access, ty, out => do
    let tmp ← temporary "tuple"
    assignParts parts tmp ty 0 (out.line s!"const {tmp} = {access};")
  | .attribute e attr, access, _, out => do
    let o ← renderOperand e
    let out ← flushPrelude out
    return out.line s!"{o}.{attr} = {access};"
  | .subscript e i, access, _, out => store e i access out
  | .starred _, _, _, _ => unsupported "starred assignment target"

/-- Take apart the value held in `source`. -/
def assignParts : List Target → String → Ty → Nat → Buffer → Emit Buffer
  | [], _, _, _, out => pure out
  | t :: ts, source, ty, i, out => do
    let access ← partAccess source ty i
    let out ← assignPart t access (ty.part i) out
    assignParts ts source ty (i + 1) out

end

/-- Assign to a plain name. A lambda's wrapper gives the binding its type; a value for an
existing binding is written for the type of that binding. -/
def assignName (n : String) (value : Expr) (declared : Option Ty) (out : Buffer) :
    Emit Buffer := do
  if ← isDeclaredGlobal n then
    decided (.global n)
    let v ← renderExpr value
    let out ← flushPrelude out
    return out.line s!"{n} = {v};"
  match value with
  | .lambda params body => do
    let built ← lambda params body (renderExpr body)
    let a ← planAssignment n built.ty
    let out ← flushPrelude out
    bindName a built.ident none out
  | _ => do
    let ty := declared.getD (← typeOf value)
    let a ← planAssignment n ty
    let s ← scope
    let expected := match a.resolution with
      | .reuse => (s.lookup n).map Binding.ty
      | _ => declared
    let text ← render value expected
    let out ← flushPrelude out
    bindName a text value.name? out

def assign (target : Target) (value : Expr) (declared : Option Ty) (out : Buffer) :
    Emit Buffer := do
  match target with
  | .name n => assignName n value declared out
  | .tuple parts => do
    let ty ← typeOf value
    let text ← renderExpr value
    let out ← flushPrelude out
    let tmp ← temporary "tuple"
    assignParts parts tmp ty 0 (out.line s!"const {tmp} = {text};")
  | .attribute e attr => do
    let v ← renderExpr value
    let o ← renderOperand e
    let out ← flushPrelude out
    return out.line s!"{o}.{attr} = {v};"
  | .subscript e i => do
    let v ← renderExpr value
    store e i v out
  | .starred _ => unsupported "starred assignment target"

/-- Operators that the target has as assignments. -/
def inPlace? : BinOp → Option String
  | .add => some "+="
  | .sub => some "-="
  | .mult => some "*="
  | .bitAnd => some "&="
  | .bitOr => some "|="
  | .bitXor => some "^="
  | _ => none

/-- Write the line that updates a variable, and note it unless the variable is declared global. -/
def updateLine (isGlobal : Bool) (n ident rest : String) (previous : Option Binding)
    (out : Buffer) : Emit Buffer := do
  if !isGlobal then note (.stored ⟨n, ident, rest, previous⟩)
  return out.line s!"{ident}{rest}"

/-- Update a variable of the type `ty` that is written `ident`. -/
def writeUpdate (n ident : String) (isGlobal : Bool) (previous : Option Binding) (ty valueTy : Ty)
    (op : BinOp) (value : Expr) (out : Buffer) : Emit Buffer := do
  match inPlace? op, ty.isNumeric && ty = valueTy, op, ty with
  | some assignOp, true, _, _ => do
    let v ← renderExpr value
    let out ← flushPrelude out
    updateLine isGlobal n ident s!" {assignOp} {v};" previous out
  | _, _, .add, .list _ => do
    let v ← renderExpr value
    let text ← fallibleIf (.extend n) (methodFails (← options) "extend") s!"{ident}.extend({v})"
    let out ← flushPrelude out
    return out.line s!"{text};"
  | _, _, _, _ => do
    let text ← renderExpr (.binary op (.name n) value)
    let out ← flushPrelude out
    updateLine isGlobal n ident s!" = {text};" previous out

/-- Update a variable that keeps its type. -/
def updateName (n : String) (op : BinOp) (value : Expr) (out : Buffer) : Emit Buffer := do
  let ty ← typeOf (.name n)
  let valueTy ← typeOf value
  let ident ← name n
  let isGlobal ← isDeclaredGlobal n
  let previous := (← scope).lookupInFunction n
  writeUpdate n ident isGlobal previous ty valueTy op value out

/-- A combined value that no longer fits the variable makes a new variable. -/
def augAssignName (n : String) (op : BinOp) (value : Expr) (out : Buffer) : Emit Buffer := do
  if ← isDeclaredGlobal n then
    decided (.global n)
    updateName n op value out
  else
    let combined := Expr.binary op (.name n) value
    let a ← planAssignment n (← typeOf combined)
    match a.resolution with
    | .shadow _ => do
      let text ← renderExpr combined
      let out ← flushPrelude out
      bindName a text none out
    | _ => do
      decided (.stores n)
      updateName n op value out

def augAssign (target : Target) (op : BinOp) (value : Expr) (out : Buffer) : Emit Buffer :=
  match target with
  | .name n => augAssignName n op value out
  | .attribute e attr => assign target (.binary op (.attribute e attr) value) none out
  | .subscript e i => assign target (.binary op (.subscript e i) value) none out
  | _ => unsupported "augmented assignment to a destructuring target"

mutual

/-- Delete an entry of a container. The storage of a plain name goes with its frame. -/
def delete : Target → Buffer → Emit Buffer
  | .subscript e i, out => do
    let ty ← typeOf e
    let c ← renderOperand e
    let index ← renderExpr i
    let line ← match ty with
      | .dict _ _ => pure s!"_ = {c}.remove({index});"
      | .list _ => pure s!"_ = {c}.orderedRemove(@intCast({index}));"
      | _ => do pure ((← fallible (.entry e) s!"runtime.delItem({c}, {index})") ++ ";")
    let out ← flushPrelude out
    return out.line line
  | .name n, out => do
    tell [.deletionDropped n]
    return out
  | .tuple parts, out => deleteAll parts out
  | .attribute _ _, _ => unsupported "`del` of an attribute"
  | .starred _, _ => unsupported "`del` of an attribute"

def deleteAll : List Target → Buffer → Emit Buffer
  | [], out => pure out
  | t :: ts, out => do
    let out ← delete t out
    deleteAll ts out

end

end Emit

end ClosureConversion
