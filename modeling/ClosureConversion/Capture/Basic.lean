import ClosureConversion.Scope.Basic

/-! # Captures -/

set_option autoImplicit false

namespace ClosureConversion

/-- How an environment holds a captured variable. -/
inductive CaptureMode where
  /-- Copied; the environment owns the copy. -/
  | byValue
  /-- A pointer to the variable; writes on either side are shared. -/
  | byReference
  /-- A reference to a container that is owned elsewhere. -/
  | borrowed
  deriving Repr, DecidableEq

namespace CaptureMode

def name : CaptureMode → String
  | .byValue => "ByValue"
  | .byReference => "ByReference"
  | .borrowed => "Borrowed"

def all : List CaptureMode := [.byValue, .byReference, .borrowed]

def ofName? (s : String) : Option CaptureMode := all.find? (·.name == s)

end CaptureMode

structure Capture where
  name : String
  kind : BindingKind
  /-- Type at the time of the capture. -/
  ty : Ty
  mode : CaptureMode
  /-- Identifier of the variable around the closure at the time of the capture. -/
  source : String
  deriving DecidableEq

/-- Captures in order, at most one for each name. -/
structure CaptureSet where
  toList : List Capture
  nodup : (toList.map Capture.name).Nodup

namespace CaptureSet

def empty : CaptureSet := ⟨[], by simp⟩

def contains (s : CaptureSet) (name : String) : Bool := s.toList.any (·.name == name)

def get? (s : CaptureSet) (name : String) : Option Capture := s.toList.find? (·.name == name)

def names (s : CaptureSet) : List String := s.toList.map Capture.name

def size (s : CaptureSet) : Nat := s.toList.length

def isEmpty (s : CaptureSet) : Bool := s.toList.isEmpty

/-- Add a capture unless there is one for its name. -/
def insert (s : CaptureSet) (c : Capture) : CaptureSet :=
  if h : s.contains c.name then s
  else ⟨s.toList ++ [c], by
    have hc : ∀ a ∈ s.toList, ¬ a.name = c.name := by
      simpa [contains] using h
    simp only [List.map_append, List.map_cons, List.map_nil]
    rw [List.nodup_append]
    refine ⟨s.nodup, by simp, ?_⟩
    intro a ha b hb
    obtain ⟨x, hx, rfl⟩ := List.mem_map.mp ha
    simp only [List.mem_singleton] at hb
    exact hb ▸ hc x hx⟩

instance : DecidableEq CaptureSet := fun a b =>
  if h : a.toList = b.toList then
    isTrue (by cases a; cases b; simpa using h)
  else
    isFalse fun e => h (e ▸ rfl)

end CaptureSet

inductive Shape where
  /-- No captures, not recursive: a routine and an empty wrapper. -/
  | zeroCapture
  /-- Captures, not recursive: the routine takes an environment. -/
  | structCapture
  /-- Recursive: one aggregate that reaches itself through its receiver. -/
  | recursiveSelfCapture
  deriving Repr, DecidableEq

namespace Shape

def name : Shape → String
  | .zeroCapture => "ZeroCapture"
  | .structCapture => "StructCapture"
  | .recursiveSelfCapture => "RecursiveSelfCapture"

/-- The form used in prose. -/
def text : Shape → String
  | .zeroCapture => "zero-capture"
  | .structCapture => "struct-capture"
  | .recursiveSelfCapture => "recursive-self-capture"

end Shape

structure Representation where
  captures : CaptureSet
  recursive : Bool

namespace Representation

def shape (r : Representation) : Shape :=
  if r.recursive then .recursiveSelfCapture
  else if r.captures.isEmpty then .zeroCapture
  else .structCapture

def hasEnvironment (r : Representation) : Bool := !r.captures.isEmpty

end Representation

end ClosureConversion
