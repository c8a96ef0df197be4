import ClosureConversion.Scope.Alias
import ClosureConversion.Scope.Fresh

/-! # Assignments -/

set_option autoImplicit false

namespace ClosureConversion

inductive Resolution where
  | fresh
  | reuse
  /-- The type changed; later code uses this identifier. -/
  | shadow (ident : String)
  deriving Repr, DecidableEq

/-- How an assignment of a value of type `ty` to `name` is done. Fields of environments and
self handles cannot be declared anew. -/
def Scope.resolve (s : Scope) (name : String) (ty : Ty) : Resolution :=
  match s.lookupInFunction name with
  | none => .fresh
  | some b =>
    match b.kind with
    | .captured | .selfHandle | .global => .reuse
    | _ => if b.ty.holds ty then .reuse else .shadow (s.freshIdent name)

structure Assignment where
  name : String
  ty : Ty
  resolution : Resolution
  /-- The identifier that is written. -/
  ident : String
  /-- What the name was bound to in the function before. -/
  previous : Option Binding
  deriving DecidableEq

namespace Assignment

def plan (s : Scope) (name : String) (ty : Ty) : Assignment :=
  let resolution := s.resolve name ty
  let ident := match resolution with
    | .fresh => s.freshIdent name
    | .reuse => s.ident name
    | .shadow ident => ident
  { name, ty, resolution, ident, previous := s.lookupInFunction name }

/-- Whether the assignment declares a variable of the target. -/
def declares (a : Assignment) : Bool :=
  match a.resolution with
  | .reuse => false
  | _ => true

/-- The binding made or changed, before aliases. -/
def bind (a : Assignment) (s : Scope) (isMutable : Bool) : Scope :=
  match a.resolution with
  | .fresh =>
    s.declareAs a.name a.ident { ty := a.ty, slot := ⟨a.ident, .declared isMutable⟩, isMutable }
  | .reuse =>
    s.modifyBinding a.name fun b =>
      { b with ty := if b.ty.isUnknown then a.ty else b.ty
               isMutable := b.isMutable || isMutable }
  | .shadow ident =>
    let outer := (s.lookupLocal a.name).isNone
    let s := s.declareAs a.name ident
      { ty := a.ty, slot := ⟨ident, .declared isMutable⟩, isMutable }
    if outer && s.inBlock then s.recordShadow a.name a.ty else s

/-- Carry out the assignment. `source` is the name on the right-hand side if the value is a
plain name: a value of reference type taken from a bound name is an alias, any other value
ends the alias there was. -/
def commit (a : Assignment) (s : Scope) (isMutable : Bool) (source : Option String) : Scope :=
  let s := a.bind s isMutable
  match source with
  | some src =>
    if a.ty.isReference && s.isDeclared src then s.recordAlias a.name src
    else s.clearAlias a.name
  | none => s.clearAlias a.name

section

variable {a : Assignment} {s : Scope} {isMutable : Bool}

theorem bind_of_fresh (h : a.resolution = .fresh) :
    a.bind s isMutable = s.declareAs a.name a.ident
      { ty := a.ty, slot := ⟨a.ident, .declared isMutable⟩, isMutable } := by
  rw [bind, h]

theorem bind_of_reuse (h : a.resolution = .reuse) :
    a.bind s isMutable = s.modifyBinding a.name fun b =>
      { b with ty := if b.ty.isUnknown then a.ty else b.ty
               isMutable := b.isMutable || isMutable } := by
  rw [bind, h]

theorem bind_of_shadow {ident : String} (h : a.resolution = .shadow ident) :
    let declared := s.declareAs a.name ident
      { ty := a.ty, slot := ⟨ident, .declared isMutable⟩, isMutable }
    a.bind s isMutable = if (s.lookupLocal a.name).isNone && declared.inBlock then
      declared.recordShadow a.name a.ty else declared := by
  rw [bind, h]

end

/-- The name is declared or its binding changed, and a block notes what it declares anew. -/
@[elab_as_elim]
theorem bind_elim {motive : Scope → Prop} (a : Assignment) (s : Scope) (isMutable : Bool)
    (declare : ∀ ident b, motive (s.declareAs a.name ident b))
    (change : ∀ f, motive (s.modifyBinding a.name f))
    (note : ∀ t, motive t → motive (t.recordShadow a.name a.ty)) :
    motive (a.bind s isMutable) := by
  cases h : a.resolution with
  | fresh => exact bind_of_fresh h ▸ declare _ _
  | reuse => exact bind_of_reuse h ▸ change _
  | shadow ident =>
    rw [bind_of_shadow h]
    split
    · exact note _ (declare _ _)
    · exact declare _ _

/-- Once the binding is made, only the link of the name changes. -/
theorem commit_eq (a : Assignment) (s : Scope) (isMutable : Bool) (source : Option String) :
    ∃ link, a.commit s isMutable source =
      (a.bind s isMutable).modifyBinding a.name ({ · with aliasOf := link }) := by
  unfold commit
  dsimp only
  split
  · split
    · exact Scope.recordAlias_eq ..
    · exact ⟨none, rfl⟩
  · exact ⟨none, rfl⟩

end Assignment

end ClosureConversion
