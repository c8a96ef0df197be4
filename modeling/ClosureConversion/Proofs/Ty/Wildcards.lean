import ClosureConversion.Ty.Order
import Mathlib.Data.List.Zip

/-! # Unknown types as wildcards -/

set_option autoImplicit false

namespace ClosureConversion

/-! ## Blurred types -/

/-- Types without parts. -/
def Ty.isLeaf : Ty → Bool
  | .none | .bool | .int | .bigInt | .float | .str | .bytes | .record _ | .unknown => true
  | _ => false

mutual

/-- The second type is the first one with some of its parts, at any depth, made `unknown`. -/
inductive Ty.Blurs : Ty → Ty → Prop
  | forget (t : Ty) : Blurs t .unknown
  | leaf {t : Ty} (h : t.isLeaf = true) : Blurs t t
  | list {t u : Ty} (h : Blurs t u) : Blurs (.list t) (.list u)
  | set {t u : Ty} (h : Blurs t u) : Blurs (.set t) (.set u)
  | dict {k k' v v' : Ty} (hk : Blurs k k') (hv : Blurs v v') : Blurs (.dict k v) (.dict k' v')
  | tuple {ts us : List Ty} (h : BlursAll ts us) : Blurs (.tuple ts) (.tuple us)
  | function {s s' : Signature} (h : BlursCall s s') : Blurs (.function s) (.function s')
  | closure (wrapper : String) {s s' : Signature} (h : BlursCall s s') :
      Blurs (.closure wrapper s) (.closure wrapper s')
  | union {ts us : List Ty} (h : BlursAll ts us) : Blurs (.union ts) (.union us)

inductive Ty.BlursAll : List Ty → List Ty → Prop
  | nil : BlursAll [] []
  | cons {t u : Ty} {ts us : List Ty} (h : Blurs t u) (hs : BlursAll ts us) :
      BlursAll (t :: ts) (u :: us)

inductive Ty.BlursCall : Signature → Signature → Prop
  | call {ps qs : List Ty} {r r' : Ty} (fallible : Bool) (hps : BlursAll ps qs) (hr : Blurs r r') :
      BlursCall ⟨ps, r, fallible⟩ ⟨qs, r', fallible⟩

end

namespace Ty

mutual

/-- Nothing need be forgotten. -/
theorem Blurs.refl : ∀ t : Ty, Blurs t t
  | .list t => .list (.refl t)
  | .set t => .set (.refl t)
  | .dict k v => .dict (.refl k) (.refl v)
  | .tuple ts => .tuple (blursAll_refl ts)
  | .function s => .function (blursCall_refl s)
  | .closure w s => .closure w (blursCall_refl s)
  | .union ts => .union (blursAll_refl ts)
  | .none | .bool | .int | .bigInt | .float | .str | .bytes | .record _ | .unknown => .leaf rfl

theorem blursAll_refl : ∀ ts : List Ty, BlursAll ts ts
  | [] => .nil
  | t :: ts => .cons (.refl t) (blursAll_refl ts)

theorem blursCall_refl : ∀ s : Signature, BlursCall s s
  | ⟨ps, r, fallible⟩ => .call fallible (blursAll_refl ps) (.refl r)

end

/-! ## Unions -/

mutual

/-- The type is unknown, or a union with such a member, at any depth of unions. -/
def isWild : Ty → Bool
  | .unknown => true
  | .union members => anyWild members
  | _ => false

def anyWild : List Ty → Bool
  | [] => false
  | t :: ts => t.isWild || anyWild ts

end

mutual

/-- Nothing but a wildcard holds a union. -/
theorem holds_union (us : List Ty) : ∀ t : Ty, t.holds (.union us) = t.isWild
  | .union ts => holdsAny_union us ts
  | .none | .bool | .int | .bigInt | .float | .str | .bytes | .list _ | .dict _ _ | .set _
  | .tuple _ | .record _ | .function _ | .closure _ _ | .unknown => by simp [holds, isWild]

theorem holdsAny_union (us : List Ty) : ∀ ts : List Ty, holdsAny ts (.union us) = anyWild ts
  | [] => rfl
  | t :: ts => by rw [holdsAny, anyWild, holds_union us t, holdsAny_union us ts]

end

/-- A union holds a union, be it the same, exactly if one of its members is a wildcard. -/
theorem holds_union_union (ts us : List Ty) :
    (Ty.union ts).holds (.union us) = anyWild ts := holds_union us (.union ts)

@[simp] theorem holds_unknown (t : Ty) : t.holds .unknown = true := by
  cases t <;> rfl

theorem holds_function_iff {s s' : Signature} :
    (Ty.function s).holds (.function s') = true ↔ s = s' := by
  simp [holds]

theorem holds_self_of_isLeaf {t : Ty} (h : t.isLeaf = true) : t.holds t = true := by
  cases t <;> simp_all [isLeaf, holds]

/-! ## Places -/

/-- `a` and `b` stand at the same place of two types: at the top, or among the elements, keys,
values and positions of containers. Members of unions and parts of signatures are no places. -/
inductive Faces : Ty → Ty → Ty → Ty → Prop
  | here (t u : Ty) : Faces t u t u
  | list {t u a b : Ty} (h : Faces t u a b) : Faces (.list t) (.list u) a b
  | set {t u a b : Ty} (h : Faces t u a b) : Faces (.set t) (.set u) a b
  | key {k k' a b : Ty} (v v' : Ty) (h : Faces k k' a b) : Faces (.dict k v) (.dict k' v') a b
  | value (k k' : Ty) {v v' a b : Ty} (h : Faces v v' a b) : Faces (.dict k v) (.dict k' v') a b
  | part {ts us : List Ty} {t u a b : Ty} (hmem : (t, u) ∈ ts.zip us) (h : Faces t u a b) :
      Faces (.tuple ts) (.tuple us) a b

/-- What the comparison asks of one place on top of the shape: a union needs a wildcard to hold a
union, and functions have to be equal. -/
def agrees : Ty → Ty → Bool
  | .union ts, .union _ => anyWild ts
  | .function s, .function s' => s = s'
  | _, _ => true

section Places

variable {P : Ty → Ty → Prop} {t u : Ty}

theorem faces_list : (∀ a b, Faces (.list t) (.list u) a b → P a b) ↔
    P (.list t) (.list u) ∧ ∀ a b, Faces t u a b → P a b := by
  refine ⟨fun h => ⟨h _ _ (.here ..), fun a b hab => h a b (.list hab)⟩,
    fun ⟨htop, hin⟩ a b hab => ?_⟩
  cases hab with
  | here => exact htop
  | list hab => exact hin a b hab

theorem faces_set : (∀ a b, Faces (.set t) (.set u) a b → P a b) ↔
    P (.set t) (.set u) ∧ ∀ a b, Faces t u a b → P a b := by
  refine ⟨fun h => ⟨h _ _ (.here ..), fun a b hab => h a b (.set hab)⟩,
    fun ⟨htop, hin⟩ a b hab => ?_⟩
  cases hab with
  | here => exact htop
  | set hab => exact hin a b hab

theorem faces_dict {v v' : Ty} : (∀ a b, Faces (.dict t v) (.dict u v') a b → P a b) ↔
    P (.dict t v) (.dict u v') ∧ (∀ a b, Faces t u a b → P a b) ∧
      ∀ a b, Faces v v' a b → P a b := by
  refine ⟨fun h => ⟨h _ _ (.here ..), fun a b hab => h a b (.key _ _ hab),
    fun a b hab => h a b (.value _ _ hab)⟩, fun ⟨htop, hkey, hvalue⟩ a b hab => ?_⟩
  cases hab with
  | here => exact htop
  | key _ _ hab => exact hkey a b hab
  | value _ _ hab => exact hvalue a b hab

theorem faces_tuple {ts us : List Ty} : (∀ a b, Faces (.tuple ts) (.tuple us) a b → P a b) ↔
    P (.tuple ts) (.tuple us) ∧ ∀ p ∈ ts.zip us, ∀ a b, Faces p.1 p.2 a b → P a b := by
  refine ⟨fun h => ⟨h _ _ (.here ..), fun p hp a b hab => h a b (.part hp hab)⟩,
    fun ⟨htop, hin⟩ a b hab => ?_⟩
  cases hab with
  | here => exact htop
  | part hmem hab => exact hin _ hmem a b hab

/-- Without a container on both sides there is one place, the top. -/
theorem faces_of_isLeaf (h : u.isLeaf = true) :
    (∀ a b, Faces t u a b → P a b) ↔ P t u := by
  refine ⟨fun h => h _ _ (.here ..), fun htop a b hab => ?_⟩
  cases hab with
  | here => exact htop
  | list | set | key | value | part => cases h

theorem faces_function {s s' : Signature} :
    (∀ a b, Faces (.function s) (.function s') a b → P a b) ↔ P (.function s) (.function s') :=
  ⟨fun h => h _ _ (.here ..), fun htop a b hab => by cases hab; exact htop⟩

theorem faces_closure {w w' : String} {s s' : Signature} :
    (∀ a b, Faces (.closure w s) (.closure w' s') a b → P a b) ↔
      P (.closure w s) (.closure w' s') :=
  ⟨fun h => h _ _ (.here ..), fun htop a b hab => by cases hab; exact htop⟩

theorem faces_union {ts us : List Ty} :
    (∀ a b, Faces (.union ts) (.union us) a b → P a b) ↔ P (.union ts) (.union us) :=
  ⟨fun h => h _ _ (.here ..), fun htop a b hab => by cases hab; exact htop⟩

end Places

/-! ## A type and its blurred copies -/

/-- Each of two types holds the other exactly if they agree at every place. -/
def Compares (t u : Ty) : Prop :=
  (t.holds u = true ↔ ∀ a b, Faces t u a b → a.agrees b = true) ∧
    (u.holds t = true ↔ ∀ a b, Faces t u a b → b.agrees a = true)

/-- Lists of one length fit if they do position by position. -/
theorem holdsAll_iff {ts us : List Ty} (hlength : ts.length = us.length) :
    holdsAll ts us = true ↔ ∀ p ∈ ts.zip us, p.1.holds p.2 = true := by
  induction ts generalizing us with
  | nil => cases us <;> simp_all [holdsAll]
  | cons t ts ih => cases us <;> simp_all [holdsAll]

theorem compares_tuple {ts us : List Ty} (hlength : ts.length = us.length)
    (h : ∀ p ∈ ts.zip us, Compares p.1 p.2) : Compares (.tuple ts) (.tuple us) := by
  have hleft : (Ty.tuple ts).holds (.tuple us) = true ↔ ∀ p ∈ ts.zip us, p.1.holds p.2 = true :=
    holdsAll_iff hlength
  have hright : (Ty.tuple us).holds (.tuple ts) = true ↔
      ∀ p ∈ ts.zip us, p.2.holds p.1 = true := by
    refine (holdsAll_iff hlength.symm).trans ?_
    rw [← List.zip_swap, List.forall_mem_map]
    rfl
  unfold Compares
  rw [faces_tuple, faces_tuple, hleft, hright, show agrees (.tuple ts) (.tuple us) = true from rfl,
    show agrees (.tuple us) (.tuple ts) = true from rfl, and_iff_right rfl, and_iff_right rfl]
  exact ⟨forall₂_congr fun p hp => (h p hp).1, forall₂_congr fun p hp => (h p hp).2⟩

theorem BlursAll.length_eq {ts us : List Ty} (h : BlursAll ts us) : ts.length = us.length := by
  match h with
  | .nil => rfl
  | .cons _ hs => exact congrArg (· + 1) hs.length_eq

mutual

/-- **How a type compares with a blurred copy.** Wherever something was forgotten the comparison is
satisfied, so what counts are the unions and the functions that are left. -/
theorem Blurs.compares : ∀ {t u : Ty}, Blurs t u → Compares t u
  | t, _, .forget _ => by
    unfold Compares
    rw [faces_of_isLeaf rfl, faces_of_isLeaf rfl]
    simp [agrees, holds]
  | t, _, .leaf h => by
    unfold Compares
    rw [faces_of_isLeaf h, faces_of_isLeaf h, holds_self_of_isLeaf h]
    cases t <;> simp_all [agrees, isLeaf]
  | _, _, .list h => by
    obtain ⟨hleft, hright⟩ := h.compares
    unfold Compares
    rw [faces_list, faces_list, ← hleft, ← hright]
    simp [holds, agrees]
  | _, _, .set h => by
    obtain ⟨hleft, hright⟩ := h.compares
    unfold Compares
    rw [faces_set, faces_set, ← hleft, ← hright]
    simp [holds, agrees]
  | _, _, .dict hk hv => by
    obtain ⟨hkl, hkr⟩ := hk.compares
    obtain ⟨hvl, hvr⟩ := hv.compares
    unfold Compares
    rw [faces_dict, faces_dict, ← hkl, ← hkr, ← hvl, ← hvr]
    simp [holds, agrees]
  | _, _, .tuple h => compares_tuple h.length_eq h.compares
  | _, _, .function _ => by
    unfold Compares
    rw [faces_function, faces_function, holds_function_iff, holds_function_iff]
    simp [agrees]
  | _, _, .closure _ _ => by
    unfold Compares
    rw [faces_closure, faces_closure]
    simp [holds, agrees]
  | _, _, .union _ => by
    unfold Compares
    rw [faces_union, faces_union, holds_union_union, holds_union_union]
    simp [agrees]

theorem BlursAll.compares : ∀ {ts us : List Ty}, BlursAll ts us →
    ∀ p ∈ ts.zip us, Compares p.1 p.2
  | _, _, .nil => fun p hp => by cases hp
  | _, _, .cons h hs => fun p hp => by
    rcases List.mem_cons.mp hp with rfl | hmem
    · exact h.compares
    · exact hs.compares p hmem

end

/-- A type faces itself at every place. -/
theorem Faces.eq_of_eq {t u a b : Ty} (h : Faces t u a b) (heq : t = u) : a = b := by
  induction h with
  | here => exact heq
  | list _ ih => exact ih (by injection heq)
  | set _ ih => exact ih (by injection heq)
  | key _ _ _ ih => exact ih (by injection heq)
  | value _ _ _ ih => exact ih (by injection heq)
  | @part ts us t u a b hmem _ ih =>
    refine ih ?_
    injection heq with heq
    rw [heq, ← List.map_id us, List.zip_map'] at hmem
    obtain ⟨x, -, hx⟩ := List.mem_map.mp hmem
    exact (congrArg Prod.fst hx).symm.trans (congrArg Prod.snd hx)

/-- Agreement is about the places where unions or functions meet. -/
theorem forall_agrees_iff {F : Ty → Ty → Prop} :
    (∀ a b, F a b → a.agrees b = true) ↔
      (∀ ts us, F (.union ts) (.union us) → anyWild ts = true) ∧
        ∀ s s', F (.function s) (.function s') → s = s' := by
  refine ⟨fun h => ⟨fun ts us hF => h _ _ hF, fun s s' hF => ?_⟩, fun ⟨hunion, hcall⟩ a b hF => ?_⟩
  · simpa [agrees] using h _ _ hF
  · cases a with
    | union ts =>
      cases b with
      | union us => exact hunion ts us hF
      | _ => rfl
    | function s =>
      cases b with
      | function s' => simpa [agrees] using hcall s s' hF
      | _ => rfl
    | _ => rfl

/-- **When a type and a blurred copy of it hold each other.** A binding of the full type takes
values of the blurred one exactly if every union that still faces a union has a wildcard among its
members, and every function that is left is unchanged. The other way round the same counts for the
blurred unions: forgetting a member opens them. A type holds itself exactly if every union in it,
at any place, has a wildcard. -/
theorem blurred_holds_iff {t u : Ty} (h : Blurs t u) :
    (t.holds u = true ↔
      (∀ ts us, Faces t u (.union ts) (.union us) → anyWild ts = true) ∧
        ∀ s s', Faces t u (.function s) (.function s') → s = s') ∧
    (u.holds t = true ↔
      (∀ ts us, Faces t u (.union ts) (.union us) → anyWild us = true) ∧
        ∀ s s', Faces t u (.function s) (.function s') → s = s') ∧
    (t.holds t = true ↔ ∀ ts, Faces t t (.union ts) (.union ts) → anyWild ts = true) := by
  obtain ⟨hleft, hright⟩ := h.compares
  refine ⟨hleft.trans forall_agrees_iff, hright.trans ?_, (Blurs.refl t).compares.1.trans ?_⟩
  · rw [forall_comm, forall_agrees_iff (F := fun a b => Faces t u b a), forall_comm]
    exact and_congr_right fun _ => ⟨fun hcall s s' hF => (hcall s' s hF).symm,
      fun hcall s s' hF => (hcall s' s hF).symm⟩
  · rw [forall_agrees_iff]
    refine ⟨fun hself ts hF => hself.1 ts ts hF,
      fun hself => ⟨fun ts us hF => ?_, fun s s' hF => ?_⟩⟩
    · obtain rfl : ts = us := by
        have heq := hF.eq_of_eq rfl
        injection heq
      exact hself ts hF
    · have heq := hF.eq_of_eq rfl
      injection heq

/-- **A union does not hold itself**, though nothing in it was forgotten. -/
theorem blurred_holds_intOrStr :
    Blurs (.union [.int, .str]) (.union [.int, .str]) ∧
      (Ty.union [.int, .str]).holds (.union [.int, .str]) = false := by
  have hself : Blurs (.union [.int, .str]) (.union [.int, .str]) := .refl _
  refine ⟨hself, Bool.eq_false_iff.mpr fun hholds => ?_⟩
  have hwild := (blurred_holds_iff hself).2.2.mp hholds _ (.here ..)
  cases hwild

end Ty

end ClosureConversion
