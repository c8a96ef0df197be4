import ClosureConversion.NameMap

/-! # Inferred types -/

set_option autoImplicit false

namespace ClosureConversion

mutual

inductive Ty where
  | none
  | bool
  /-- Machine integer. -/
  | int
  /-- Integer of arbitrary precision. -/
  | bigInt
  | float
  | str
  | bytes
  | list (elem : Ty)
  | dict (key value : Ty)
  | set (elem : Ty)
  | tuple (elems : List Ty)
  /-- Instance of a user-defined record. -/
  | record (name : String)
  | function (signature : Signature)
  /-- Synthesized wrapper: its type name and the signature of its `call`. -/
  | closure (wrapper : String) (signature : Signature)
  | union (members : List Ty)
  | unknown
  deriving Repr, Inhabited

structure Signature where
  params : List Ty
  result : Ty
  /-- Calls return an error union. -/
  fallible : Bool
  deriving Repr, Inhabited

end

/-! ## Equality -/

mutual

def Ty.beq : Ty → Ty → Bool
  | .none, .none | .bool, .bool | .int, .int | .bigInt, .bigInt | .float, .float => true
  | .str, .str | .bytes, .bytes | .unknown, .unknown => true
  | .list a, .list b => a.beq b
  | .dict k v, .dict k' v' => k.beq k' && v.beq v'
  | .set a, .set b => a.beq b
  | .tuple as, .tuple bs => Ty.beqAll as bs
  | .record m, .record n => m == n
  | .function s, .function t => s.beq t
  | .closure w s, .closure w' t => w == w' && s.beq t
  | .union as, .union bs => Ty.beqAll as bs
  | _, _ => false

def Signature.beq : Signature → Signature → Bool
  | ⟨ps, r, f⟩, ⟨ps', r', f'⟩ => Ty.beqAll ps ps' && r.beq r' && f == f'

def Ty.beqAll : List Ty → List Ty → Bool
  | [], [] => true
  | a :: as, b :: bs => a.beq b && Ty.beqAll as bs
  | _, _ => false

end

mutual

theorem Ty.beq_refl (a : Ty) : a.beq a = true := by
  cases a with
  | list a => simpa [Ty.beq] using a.beq_refl
  | dict k v => simpa [Ty.beq] using ⟨k.beq_refl, v.beq_refl⟩
  | set a => simpa [Ty.beq] using a.beq_refl
  | tuple as => simpa [Ty.beq] using Ty.beqAll_refl as
  | function s => simpa [Ty.beq] using s.beq_refl
  | closure w s => simpa [Ty.beq] using s.beq_refl
  | union as => simpa [Ty.beq] using Ty.beqAll_refl as
  | _ => simp [Ty.beq]

theorem Signature.beq_refl (s : Signature) : s.beq s = true := by
  obtain ⟨ps, r, f⟩ := s
  simpa [Signature.beq] using ⟨Ty.beqAll_refl ps, r.beq_refl⟩

theorem Ty.beqAll_refl (as : List Ty) : Ty.beqAll as as = true := by
  cases as with
  | nil => rfl
  | cons a as => simpa [Ty.beqAll] using ⟨a.beq_refl, Ty.beqAll_refl as⟩

end

mutual

theorem Ty.eq_of_beq {a b : Ty} (h : a.beq b = true) : a = b := by
  cases a with
  | list a =>
    cases b <;> simp [Ty.beq] at h
    rw [Ty.eq_of_beq h]
  | dict k v =>
    cases b <;> simp [Ty.beq] at h
    rw [Ty.eq_of_beq h.1, Ty.eq_of_beq h.2]
  | set a =>
    cases b <;> simp [Ty.beq] at h
    rw [Ty.eq_of_beq h]
  | tuple as =>
    cases b <;> simp [Ty.beq] at h
    rw [Ty.eq_of_beqAll h]
  | function s =>
    cases b <;> simp [Ty.beq] at h
    rw [Signature.eq_of_beq h]
  | closure w s =>
    cases b <;> simp [Ty.beq] at h
    rw [h.1, Signature.eq_of_beq h.2]
  | union as =>
    cases b <;> simp [Ty.beq] at h
    rw [Ty.eq_of_beqAll h]
  | record m =>
    cases b <;> simp [Ty.beq] at h
    rw [h]
  | _ => cases b <;> simp_all [Ty.beq]

theorem Signature.eq_of_beq {s t : Signature} (h : s.beq t = true) : s = t := by
  obtain ⟨ps, r, f⟩ := s
  obtain ⟨ps', r', f'⟩ := t
  simp [Signature.beq] at h
  rw [Ty.eq_of_beqAll h.1.1, Ty.eq_of_beq h.1.2, h.2]

theorem Ty.eq_of_beqAll {as bs : List Ty} (h : Ty.beqAll as bs = true) : as = bs := by
  cases as with
  | nil => cases bs <;> simp_all [Ty.beqAll]
  | cons a as =>
    cases bs with
    | nil => simp [Ty.beqAll] at h
    | cons b bs =>
      simp [Ty.beqAll] at h
      rw [Ty.eq_of_beq h.1, Ty.eq_of_beqAll h.2]

end

instance : DecidableEq Ty := fun a b =>
  if h : a.beq b = true then isTrue (Ty.eq_of_beq h)
  else isFalse fun e => h (e ▸ a.beq_refl)

instance : DecidableEq Signature := fun s t =>
  if h : s.beq t = true then isTrue (Signature.eq_of_beq h)
  else isFalse fun e => h (e ▸ s.beq_refl)

/-! ## Classes of types -/

namespace Ty

def isNumeric : Ty → Bool
  | .int | .bigInt | .float => true
  | _ => false

def isSequence : Ty → Bool
  | .list _ | .tuple _ | .str | .bytes => true
  | _ => false

/-- Assigning a value of such a type to a second name shares the container. -/
def isReference : Ty → Bool
  | .list _ | .dict _ _ | .set _ | .record _ => true
  | _ => false

/-- The signature of a callable. -/
def signature? : Ty → Option Signature
  | .function s | .closure _ s => some s
  | _ => Option.none

def isCallable (t : Ty) : Bool := t.signature?.isSome

def isUnknown : Ty → Bool
  | .unknown => true
  | _ => false

def isUnion : Ty → Bool
  | .union _ => true
  | _ => false

/-- What a call of a callable returns. -/
def result? (t : Ty) : Option Ty := t.signature?.map Signature.result

/-- Calling a value of this type can fail. -/
def callFails (t : Ty) : Bool :=
  match t.signature? with
  | some s => s.fallible
  | Option.none => false

@[simp] theorem isUnknown_iff {t : Ty} : t.isUnknown = true ↔ t = .unknown := by
  cases t <;> simp [isUnknown]

end Ty

end ClosureConversion
