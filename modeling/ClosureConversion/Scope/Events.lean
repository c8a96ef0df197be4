import ClosureConversion.Journal
import ClosureConversion.Scope.Assignment

/-! # What scopes tell -/

set_option autoImplicit false

namespace ClosureConversion

namespace Scope

def resolveEvents (s : Scope) (name : String) (ty : Ty) : List Event :=
  match s.resolve name ty, s.lookupInFunction name with
  | .shadow ident, some b => [.shadowed name b.ty ty ident]
  | _, _ => []

def Left.events (l : Left) : List Event := l.widened.map fun e => .widened e.1 e.2

end Scope

def Assignment.commitEvents (a : Assignment) : List Event :=
  if a.declares then [.declared a.name a.ident a.ty] else []

/-- Add events that happened in this order. -/
def Journal.record (j : Journal) (events : List Event) : Journal := events.reverse ++ j

end ClosureConversion
