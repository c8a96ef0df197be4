import ClosureConversion.Capture.Basic
import ClosureConversion.Journal
import ClosureConversion.Usage.Basic

/-! # Resolving captures -/

set_option autoImplicit false

namespace ClosureConversion

/-- What becomes of a name that a nested function mentions. -/
inductive Verdict where
  /-- It belongs to the function itself. -/
  | own
  /-- It is left to the module. -/
  | deferred
  /-- It is bound nowhere around the function, and left to the module. -/
  | free
  | captured (c : Capture)

/-- The names a closure of this body may have to hold, in order of first mention. -/
def Usage.candidates (u : Usage) : List String :=
  (u.reads ++ u.nonlocals ++ u.nestedWrites).foldl pushNew []

/-- How a variable with this binding is held. -/
def Binding.captureMode (b : Binding) (writesThrough : Bool) : CaptureMode :=
  if writesThrough || b.isMutable then .byReference
  else if b.ty.isReference || b.aliasOf.isSome || b.kind == .selfHandle then .borrowed
  else .byValue

namespace Capture

/-- A recursive function reaches itself through its handle and never through the binding
around it, which is about to be replaced. A formal that is not bound yet is known by its name
only. -/
def verdict (f : Function) (u : Usage) (s : Scope) (name : String) : Verdict :=
  if f.hasFormal name then .own
  else if u.selfRecursive && name == f.name then .own
  else if u.isGlobal name then .deferred
  else if u.isAssigned name then .own
  else
    let writesThrough := u.writesThrough name
    match s.lookup name with
    | some b =>
      if s.isGlobal name then .deferred
      else .captured { name, kind := b.kind, ty := b.ty, mode := b.captureMode writesThrough,
                       source := s.ident name }
    | none =>
      if s.isEnclosingFormal name then
        .captured { name, kind := .param, ty := .unknown,
                    mode := if writesThrough then .byReference else .byValue,
                    source := s.ident name }
      else .free

structure Resolved where
  captures : CaptureSet := .empty
  /-- Free names left to the module. -/
  deferred : List String := []
  report : Report := []

def unknownTypeReport (f : Function) (qualname : String) (c : Capture) : Diagnostic :=
  { Diagnostic.ofCode .unresolvedCaptureType
      s!"type of captured `{c.name}` is unknown; capturing it as a dynamic value" with
    function := some qualname
    span := f.span }

/-- Add one name; fails on a capture whose type has no static representation. -/
def Resolved.add (f : Function) (qualname name : String) (r : Resolved) :
    Verdict → Except ConvertError Resolved
  | .own => .ok r
  | .deferred | .free => .ok { r with deferred := pushNew r.deferred name }
  | .captured c =>
    if !c.ty.isRepresentable then
      .error (.unsupportedCapture qualname c.name c.ty f.span)
    else
      .ok { r with
            captures := r.captures.insert c
            report := if c.ty.isUnknown then r.report ++ [unknownTypeReport f qualname c]
                      else r.report }

/-- The captures of a function, given its usage and the scope around it. -/
def resolve (f : Function) (u : Usage) (s : Scope) (qualname : String) :
    Except ConvertError Resolved :=
  u.candidates.foldlM (fun r name => r.add f qualname name (verdict f u s name)) {}

/-- What `resolve` tells, up to the capture on which it fails. -/
def resolveEvents (f : Function) (u : Usage) (s : Scope) (qualname : String) : List Event :=
  let verdicts := u.candidates.map fun name => (name, verdict f u s name)
  let accepted := verdicts.takeWhile fun
    | (_, .captured c) => c.ty.isRepresentable
    | _ => true
  accepted.filterMap fun
    | (name, .free) => some (.free name qualname)
    | (_, .captured c) => some (.captured qualname c)
    | _ => none

end Capture

end ClosureConversion
