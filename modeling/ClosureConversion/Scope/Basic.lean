import ClosureConversion.ConvertError
import ClosureConversion.Scope.Renames
import ClosureConversion.Ty.Order

/-! # Scopes -/

set_option autoImplicit false

namespace ClosureConversion

/-- How a name came to be bound. -/
inductive BindingKind where
  /-- Variable or function of the module. -/
  | global
  | local
  | param
  /-- Wrapper made for a nested function. -/
  | closure
  /-- Field of an environment, seen from inside the closure's body. -/
  | captured
  /-- Own name of a recursive closure inside its body. -/
  | selfHandle
  deriving Repr, DecidableEq

namespace BindingKind

def name : BindingKind → String
  | .global => "Global"
  | .local => "Local"
  | .param => "Param"
  | .closure => "Closure"
  | .captured => "Captured"
  | .selfHandle => "SelfHandle"

def all : List BindingKind := [.global, .local, .param, .closure, .captured, .selfHandle]

def ofName? (s : String) : Option BindingKind := all.find? (·.name == s)

end BindingKind

/-- How the target introduces an identifier. -/
inductive SlotForm where
  /-- By a line of its own, with `var` or with `const`. -/
  | declared (isVar : Bool)
  /-- As a parameter; one that is stored to is first copied to a variable. -/
  | formal (copied : Bool)
  /-- As a variable at the head of the body. -/
  | hoisted
  /-- As the variable of a counted loop. -/
  | counter
  /-- As what a loop, a `with` or a handler hands to its block. -/
  | payload
  /-- As a field of the environment, which is a pointer or holds a value. -/
  | field (pointer : Bool)
  /-- As the receiver of a closure's body. -/
  | receiver
  /-- By a declaration of the module. -/
  | container
  deriving Repr, DecidableEq

/-- What stands for a binding in the target. -/
structure Slot where
  ident : String
  form : SlotForm
  deriving Repr, DecidableEq

structure Binding where
  ty : Ty
  kind : BindingKind := .local
  slot : Slot := ⟨"", .declared false⟩
  /-- Declared so that it can be stored to again. -/
  isMutable : Bool := false
  /-- Name of the container that this name shares storage with. -/
  aliasOf : Option String := none
  deriving DecidableEq

/-- What the module's own scope says of a variable or a function of it. -/
def Binding.ofGlobal (name : String) (ty : Ty) : Binding :=
  { ty, kind := .global, slot := ⟨name, .container⟩ }

/-- Calls of this name go through the `call` of a wrapper. -/
def Binding.isClosureLike (b : Binding) : Bool :=
  match b.kind, b.ty with
  | .closure, _ => true
  | .selfHandle, _ => true
  | _, .closure _ _ => true
  | _, _ => false

inductive FrameKind where
  | module
  | function (name : String) (formals : List String)
  | block
  deriving Repr, DecidableEq

structure Frame where
  kind : FrameKind
  bindings : NameMap Binding := .empty
  /-- Identifiers reserved in this frame. -/
  idents : List String := []
  /-- Names declared anew in this frame because their type changed, with the new type. -/
  shadowed : List (String × Ty) := []
  deriving DecidableEq

namespace Frame

def isFunction (f : Frame) : Bool :=
  match f.kind with
  | .function _ _ => true
  | _ => false

def isBlock (f : Frame) : Bool := f.kind == .block

theorem isFunction_of_isBlock {f : Frame} (h : f.isBlock = true) : f.isFunction = false := by
  rw [isFunction, show f.kind = .block from eq_of_beq h]

def get? (f : Frame) (name : String) : Option Binding := f.bindings.get? name

def formals (f : Frame) : List String :=
  match f.kind with
  | .function _ formals => formals
  | _ => []

def functionName? (f : Frame) : Option String :=
  match f.kind with
  | .function name _ => some name
  | _ => none

def reserve (ident : String) (f : Frame) : Frame := { f with idents := pushNew f.idents ident }

def bind (name ident : String) (b : Binding) (f : Frame) : Frame :=
  { f with bindings := f.bindings.insert name b, idents := pushNew f.idents ident }

/-- Identifiers and names that new identifiers must differ from. -/
def taken (f : Frame) : List String := f.idents ++ f.bindings.keys

end Frame

structure Scope where
  /-- The module's own frame, the outermost. -/
  base : Frame := { kind := .module }
  /-- The frames above it, innermost first. -/
  frames : List Frame := []
  renames : RenameTable := .base
  deriving DecidableEq

namespace Scope

def depth (s : Scope) : Nat := s.frames.length + 1

/-- All frames, innermost first. -/
def allFrames (s : Scope) : List Frame := s.frames ++ [s.base]

/-! ## Look-up -/

def lookup (s : Scope) (name : String) : Option Binding := s.allFrames.findSome? (·.get? name)

def isDeclared (s : Scope) (name : String) : Bool := (s.lookup name).isSome

/-- Binding in the innermost frame. -/
def lookupLocal (s : Scope) (name : String) : Option Binding :=
  s.allFrames.head?.bind (·.get? name)

/-- The frames of the innermost function; all frames if there is none. -/
def innerFrames : List Frame → List Frame
  | [] => []
  | f :: rest => if f.isFunction then [f] else f :: innerFrames rest

/-- Binding within the innermost function; those of functions around it are not seen. -/
def lookupInFunction (s : Scope) (name : String) : Option Binding :=
  (innerFrames s.allFrames).findSome? (·.get? name)

/-- The name is bound in the module's frame only. -/
def isGlobal (s : Scope) (name : String) : Bool :=
  s.frames.all (fun f => (f.get? name).isNone) && (s.base.get? name).isSome

/-- A formal of any function around this point, whether or not it is bound yet. -/
def isEnclosingFormal (s : Scope) (name : String) : Bool :=
  s.frames.any fun f => f.formals.contains name

/-- The innermost frame is a block. -/
def inBlock (s : Scope) : Bool :=
  match s.frames with
  | f :: _ => f.isBlock
  | [] => false

def currentFunction? (s : Scope) : Option String := s.frames.findSome? Frame.functionName?

/-- Target identifier that stands for `name` at this point. -/
def ident (s : Scope) (name : String) : String := (s.renames.resolve? name).getD name

/-! ## Declaration -/

/-- Change the innermost frame. -/
def onInnermost (f : Frame → Frame) (s : Scope) : Scope :=
  match s.frames with
  | [] => { s with base := f s.base }
  | g :: rest => { s with frames := f g :: rest }

/-- Change the innermost function's frame, or the innermost frame if there is no function. -/
def onFunction (f : Frame → Frame) (s : Scope) : Scope :=
  match s.frames.findIdx? Frame.isFunction with
  | some i => { s with frames := s.frames.modify i f }
  | none => s.onInnermost f

/-- Index of the innermost function's frame, 0 being the module. -/
def functionStart : List Frame → Nat
  | [] => 0
  | f :: rest => if f.isFunction then rest.length + 1 else functionStart rest

def push (s : Scope) (kind : FrameKind) : Scope :=
  { s with frames := { kind } :: s.frames, renames := s.renames.push }

def pushFunction (s : Scope) (name : String) (formals : List String) : Scope :=
  s.push (.function name formals)

def pushBlock (s : Scope) : Scope := s.push .block

/-- Declare `name` in the innermost frame, spelled `ident`. -/
def declareAs (s : Scope) (name ident : String) (b : Binding) : Scope :=
  { s.onInnermost (Frame.bind name ident b) with renames := s.renames.insert name ident }

def declare (s : Scope) (name : String) (b : Binding) : Scope := s.declareAs name name b

/-- Declare `name` in the innermost function's frame even inside a block, so that it outlives
the block. -/
def declareInFunction (s : Scope) (name ident : String) (b : Binding) : Scope :=
  let index := if s.frames.any Frame.isFunction then functionStart s.frames else s.depth - 1
  { s.onFunction (Frame.bind name ident b) with
    renames := s.renames.insertAt index name ident }

def declareGlobal (s : Scope) (name : String) (ty : Ty) : Scope :=
  { s with base := s.base.bind name name (.ofGlobal name ty) }

/-- Note that `name` was declared anew in the innermost frame with another type. -/
def recordShadow (s : Scope) (name : String) (ty : Ty) : Scope :=
  s.onInnermost fun f => { f with shadowed := f.shadowed ++ [(name, ty)] }

/-- Change the binding of `name` in the innermost of these frames that has one. -/
def modifyIn (name : String) (f : Binding → Binding) : List Frame → Option (List Frame)
  | [] => none
  | g :: rest =>
    if (g.get? name).isSome then
      some ({ g with bindings := g.bindings.modify name f } :: rest)
    else
      (modifyIn name f rest).map (g :: ·)

/-- Change the binding that `name` refers to. -/
def modifyBinding (s : Scope) (name : String) (f : Binding → Binding) : Scope :=
  match modifyIn name f s.frames with
  | some frames => { s with frames }
  | none => { s with base := { s.base with bindings := s.base.bindings.modify name f } }

def setType (s : Scope) (name : String) (ty : Ty) : Scope :=
  s.modifyBinding name ({ · with ty })

def setMutable (s : Scope) (name : String) : Scope :=
  s.modifyBinding name ({ · with isMutable := true })

/-! ## Leaving a frame -/

/-- Widen the type of `name` to hold values of type `ty` too. -/
def widen (s : Scope) (name : String) (ty : Ty) : Scope :=
  match s.lookup name with
  | some b => s.setType name (b.ty.join ty)
  | none => s

/-- The names that `widen` finds when it goes through a list, with the types they get. -/
def widenings (s : Scope) : List (String × Ty) → List (String × Ty)
  | [] => []
  | (name, ty) :: rest =>
    match s.lookup name with
    | some b => (name, b.ty.join ty) :: (s.widen name ty).widenings rest
    | none => s.widenings rest

/-- A frame that was left, the scope without it, and the names whose types became wider. -/
structure Left where
  frame : Frame
  scope : Scope
  widened : List (String × Ty)

/-- Leave the innermost frame. Names that were declared anew in a block may, after it, hold
values of either type, so their outer bindings become wider. -/
def pop (s : Scope) : Except ConvertError Left :=
  match s.frames with
  | [] => .error (.internal "attempted to pop the module frame")
  | f :: frames =>
    let outer := { s with frames, renames := s.renames.pop }
    if f.isBlock then
      .ok { frame := f
            scope := f.shadowed.foldl (fun s e => s.widen e.1 e.2) outer
            widened := outer.widenings f.shadowed }
    else
      .ok { frame := f, scope := outer, widened := [] }

end Scope

end ClosureConversion
