import ClosureConversion.Scope.Basic

/-! # Fresh identifiers -/

set_option autoImplicit false

namespace ClosureConversion

namespace Scope

/-- What new identifiers must differ from. -/
def taken (s : Scope) : List String :=
  s.base.taken ++ (innerFrames s.allFrames).flatMap Frame.taken ++ s.renames.targetsAt 0 ++
    s.renames.targetsSince (functionStart s.frames)

def isTaken (s : Scope) (ident : String) : Bool := s.taken.contains ident

/-- The spellings tried for one base: `base`, `base__1`, `base__2`, … Their numbers have no bound
here; a counter of 32 bits serves as long as fewer than 2³¹ spellings of one base are taken. -/
def candidate (base : String) : Nat → String
  | 0 => base
  | n + 1 => s!"{base}__{n + 1}"

/-- The first candidate from number `n` on that is not taken. -/
def firstFree (base : String) (taken : List String) (n : Nat) : String :=
  if candidate base n ∈ taken then
    firstFree base (without taken (candidate base n)) (n + 1)
  else
    candidate base n
termination_by taken.length
decreasing_by
  rename_i h
  exact length_without_lt h

/-- The first free spelling for `base`; nothing is reserved. -/
def freshIdent (s : Scope) (base : String) : String := firstFree base s.taken 0

/-- Reserve `ident` in the innermost frame. -/
def reserveIdent (s : Scope) (ident : String) : Scope := s.onInnermost (Frame.reserve ident)

/-- A fresh identifier, reserved in the innermost frame. -/
def claimIdent (s : Scope) (base : String) : String × Scope :=
  let ident := s.freshIdent base
  (ident, s.reserveIdent ident)

/-- Reserve `ident` in the module's frame. -/
def reserveModuleIdent (s : Scope) (ident : String) : Scope :=
  { s with base := s.base.reserve ident }

/-- A fresh identifier for a declaration at container level, reserved for good. -/
def claimModuleIdent (s : Scope) (base : String) : String × Scope :=
  let ident := s.freshIdent base
  (ident, s.reserveModuleIdent ident)

/-- Identifiers reserved in the module's frame. -/
def moduleIdents (s : Scope) : List String := s.base.idents

end Scope

end ClosureConversion
