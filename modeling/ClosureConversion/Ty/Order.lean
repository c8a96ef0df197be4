import ClosureConversion.Ty.Basic

/-! # Fitting and joining types -/

set_option autoImplicit false

namespace ClosureConversion.Ty

mutual

/-- `unknown` is a wildcard on either side at any depth; a union holds what one of its
members holds. -/
def holds : Ty → Ty → Bool
  | .unknown, _ => true
  | _, .unknown => true
  | .list a, .list b => a.holds b
  | .set a, .set b => a.holds b
  | .dict k v, .dict k' v' => k.holds k' && v.holds v'
  | .tuple as, .tuple bs => holdsAll as bs
  | .union members, t => holdsAny members t
  | .closure w _, .closure w' _ => w == w'
  | a, b => a == b

/-- Lists of one length that fit position by position. -/
def holdsAll : List Ty → List Ty → Bool
  | [], [] => true
  | a :: as, b :: bs => a.holds b && holdsAll as bs
  | _, _ => false

def holdsAny : List Ty → Ty → Bool
  | [], _ => false
  | a :: as, t => a.holds t || holdsAny as t

end

/-- The members that a type brings into a union. -/
def members : Ty → List Ty
  | .union ts => ts
  | t => [t]

/-- Both lists without repetition, in order of first occurrence. -/
def mergeMembers (as bs : List Ty) : List Ty :=
  (as ++ bs).foldl (fun acc t => if t ∈ acc then acc else acc ++ [t]) []

/-- The union of what two types bring; a single member stands for itself. -/
def unite (a b : Ty) : Ty :=
  match mergeMembers a.members b.members with
  | [t] => t
  | ts => .union ts

def join : Ty → Ty → Ty
  | .unknown, t => t
  | t, .unknown => t
  | a, b =>
    if a = b then a
    else match a, b with
      | .int, .float | .float, .int => .float
      | .bool, .int | .int, .bool => .int
      | .list s, .list t => if s.holds t then .list (s.join t) else unite a b
      | .set s, .set t => if s.holds t then .set (s.join t) else unite a b
      | .dict k v, .dict k' v' =>
        if k.holds k' && v.holds v' then .dict (k.join k') (v.join v') else unite a b
      | _, _ => unite a b

/-- The join of a list of types, from left to right. -/
def joinAll (ts : List Ty) : Ty := ts.foldl join .unknown

@[simp] theorem join_unknown_left (t : Ty) : Ty.join .unknown t = t := by
  simp [join]

@[simp] theorem joinAll_nil : joinAll [] = .unknown := rfl

mutual

/-- A union is carried as a tagged dynamic value, which can hold any data but neither a
callable nor a further union. -/
def isRepresentable : Ty → Bool
  | .union members => dataMembers members
  | .list t | .set t => t.isRepresentable
  | .dict k v => k.isRepresentable && v.isRepresentable
  | .tuple ts => allRepresentable ts
  | _ => true

def dataMembers : List Ty → Bool
  | [] => true
  | t :: ts => !t.isCallable && !t.isUnion && t.isRepresentable && dataMembers ts

def allRepresentable : List Ty → Bool
  | [] => true
  | t :: ts => t.isRepresentable && allRepresentable ts

end

/-- What iterating over a value of this type yields. -/
def element : Ty → Ty
  | .list t | .set t => t
  | .dict k _ => k
  | .str => .str
  | .bytes => .int
  | .tuple ts => joinAll ts
  | _ => .unknown

/-- The type of position `i` when a value of this type is unpacked. -/
def part (t : Ty) (i : Nat) : Ty :=
  match t with
  | .tuple ts => ts.getD i .unknown
  | t => t.element

end ClosureConversion.Ty
