import ClosureConversion.Proofs.Scope.Columns

/-! # The type of a name after a block -/

set_option autoImplicit false

namespace ClosureConversion

/-! ## Blocks -/

/-- What happens in a block: assignments to names, and blocks of their own. -/
inductive BlockBody where
  | done
  | assign (name : String) (ty : Ty) (isMutable : Bool) (source : Option String) (rest : BlockBody)
  | block (inner rest : BlockBody)

namespace BlockBody

/-- Plan each assignment and carry it out; enter and leave the blocks. -/
def run : BlockBody → Scope → Scope
  | .done, s => s
  | .assign name ty isMutable source rest, s =>
    rest.run ((Assignment.plan s name ty).commit s isMutable source)
  | .block inner rest, s => rest.run (inner.run s.pushBlock).popped

/-- The types with which `x` is declared anew because its type changed, in order. -/
def shadows (x : String) : BlockBody → Scope → List Ty
  | .done, _ => []
  | .assign name ty isMutable source rest, s =>
    let a := Assignment.plan s name ty
    let later := rest.shadows x (a.commit s isMutable source)
    if name = x ∧ a.resolution = .shadow a.ident then ty :: later else later
  | .block inner rest, s =>
    inner.shadows x s.pushBlock ++ rest.shadows x (inner.run s.pushBlock).popped

/-- The types of the values that are assigned to `x`, in order. -/
def assigned (x : String) : BlockBody → List Ty
  | .done => []
  | .assign name ty _ _ rest => if name = x then ty :: rest.assigned x else rest.assigned x
  | .block inner rest => inner.assigned x ++ rest.assigned x

/-- There are assignments only. -/
def IsFlat : BlockBody → Prop
  | .done => True
  | .assign _ _ _ _ rest => rest.IsFlat
  | .block _ _ => False

/-- The type that a binding of `x` from outside of the block has after it, `u` before. A shadow
hides the binding until the end of the block that it is in. -/
def after (x : String) (pinned : Bool) : BlockBody → Ty → Ty
  | .done, u => u
  | .assign name ty _ _ rest, u =>
    if name = x then
      if pinned || u.holds ty then rest.after x pinned (u.settle ty) else u.join ty
    else
      rest.after x pinned u
  | .block inner rest, u => rest.after x pinned (inner.after x pinned u)

/-- The type of `x` where the body ends, in the block itself. -/
def live (x : String) (pinned : Bool) : BlockBody → Ty → Ty
  | .done, u => u
  | .assign name ty _ _ rest, u =>
    if name = x then
      rest.live x pinned (if pinned || u.holds ty then u.settle ty else ty)
    else
      rest.live x pinned u
  | .block inner rest, u => rest.live x pinned (inner.after x pinned u)

/-- The types that `shadows` lists, read off the types of the values alone. -/
def renewed (x : String) (pinned : Bool) : BlockBody → Ty → List Ty
  | .done, _ => []
  | .assign name ty _ _ rest, u =>
    if name = x then
      if pinned || u.holds ty then rest.renewed x pinned (u.settle ty)
      else ty :: rest.renewed x pinned ty
    else
      rest.renewed x pinned u
  | .block inner rest, u =>
    inner.renewed x pinned u ++ rest.renewed x pinned (inner.after x pinned u)

theorem keeps_run (body : BlockBody) (s : Scope) : s.Keeps (body.run s) := by
  induction body generalizing s with
  | done => exact .refl s
  | assign name ty isMutable source rest ih => exact (Assignment.keeps_commit ..).trans (ih _)
  | block inner rest ihinner ih =>
    obtain ⟨left, hpop, hkeeps⟩ := Scope.exists_pop_of_keeps (ihinner s.pushBlock)
    have hpopped : (inner.run s.pushBlock).popped = left.scope := by
      unfold Scope.popped
      rw [hpop]
    rw [run, hpopped]
    exact hkeeps.trans (ih _)

/-- A block can be left. -/
theorem exists_pop (body : BlockBody) (s : Scope) :
    ∃ left, (body.run s.pushBlock).pop = .ok left ∧
      (body.run s.pushBlock).popped = left.scope ∧ s.Keeps left.scope ∧
      ∀ x, left.scope.column x = Cell.leave ((body.run s.pushBlock).column x) := by
  have hkeeps := body.keeps_run s.pushBlock
  obtain ⟨left, hpop, hleft⟩ := Scope.exists_pop_of_keeps hkeeps
  refine ⟨left, hpop, ?_, hleft, fun x => Scope.column_of_pop hpop hkeeps.inBlock⟩
  unfold Scope.popped
  rw [hpop]

/-! ## What a block does to a column -/

variable {x : String}

/-- What is recorded in a block makes its effect. -/
theorem column_popped {body : BlockBody} {s : Scope} {k : BindingKind} {u : Ty}
    (h : Cell.leave ((body.run s.pushBlock).column x) =
      Cell.retype (fun _ => body.after x k.isPinned u) (s.column x)) :
    (body.run s.pushBlock).popped.column x =
      Cell.retype (fun _ => body.after x k.isPinned u) (s.column x) := by
  obtain ⟨left, -, hpopped, -, hcolumn⟩ := body.exists_pop s
  rw [hpopped, hcolumn, h]

mutual

/-- In a block that binds the name already, only that binding changes. -/
theorem column_run_of_bound : (body : BlockBody) → {s : Scope} → {c : Cell} → {rest : List Cell} →
    {u : Ty} → s.column x = { c with bound := some (.local, u) } :: rest →
    (body.run s).column x = { c with bound := some (.local, body.live x false u) } :: rest
  | .done, _, _, _, _, hcolumn => hcolumn
  | .assign name ty isMutable source body, s, c, rest, u, hcolumn => by
    have hheld : Cell.held (s.column x) = some (.local, u) := by rw [hcolumn]; rfl
    rw [run, live]
    by_cases hname : name = x
    · obtain rfl := hname.symm
      rw [if_pos rfl]
      refine column_run_of_bound body ?_
      cases hfits : u.holds ty with
      | true =>
        rw [(Scope.column_commit_reuse isMutable source hheld hfits).2, hcolumn]
        rfl
      | false =>
        rw [(Scope.column_commit_shadow isMutable source hheld hfits hcolumn).2]
        rfl
    · rw [if_neg hname]
      have hother := Scope.column_commit_of_ne isMutable source (.plan s name ty) hname s
      exact column_run_of_bound body (hother.trans hcolumn)
  | .block inner body, s, c, rest, u, hcolumn => by
    have hheld : Cell.held (s.column x) = some (.local, u) := by rw [hcolumn]; rfl
    have hinner := column_popped (leave_run inner (Scope.column_pushBlock s x) rfl hheld)
    rw [run, live]
    refine column_run_of_bound body ?_
    rw [hinner, hcolumn]
    rfl

/-- A block that does not bind the name itself yet widens the binding around it. -/
theorem leave_run : (body : BlockBody) → {s : Scope} → {rest : List Cell} → {k : BindingKind} →
    {u : Ty} → s.column x = ⟨.block, none, []⟩ :: rest → s.inBlock = true →
    Cell.held rest = some (k, u) →
    Cell.leave ((body.run s).column x) = Cell.retype (fun _ => body.after x k.isPinned u) rest
  | .done, s, rest, k, u, hcolumn, _, hheld => by
    rw [run, after, hcolumn]
    exact (Cell.retype_self (Cell.front_of_held hheld)).symm
  | .assign name ty isMutable source body, s, rest, k, u, hcolumn, hblock, hheld => by
    have hcommit : ((Assignment.plan s name ty).commit s isMutable source).inBlock = true :=
      (Assignment.keeps_commit ..).inBlock.trans hblock
    have hwhole : Cell.held (s.column x) = some (k, u) := by rw [hcolumn]; exact hheld
    rw [run, after]
    by_cases hname : name = x
    · obtain rfl := hname.symm
      rw [if_pos rfl]
      cases hfits : k.isPinned || u.holds ty with
      | true =>
        have hnext : ((Assignment.plan s x ty).commit s isMutable source).column x =
            ⟨.block, none, []⟩ :: Cell.retype (fun _ => u.settle ty) rest := by
          rw [(Scope.column_commit_reuse isMutable source hwhole hfits).2, hcolumn]
          rfl
        have hsettled : Cell.held (Cell.retype (fun _ => u.settle ty) rest) =
            some (k, u.settle ty) := by
          rw [Cell.held_retype, hheld]
          rfl
        rw [leave_run body hnext hcommit hsettled, Cell.retype_retype]
        rfl
      | false =>
        have hnext : ((Assignment.plan s x ty).commit s isMutable source).column x =
            ⟨.block, some (.local, ty), [ty]⟩ :: rest := by
          rw [(Scope.column_commit_shadow isMutable source hwhole hfits hcolumn).2, hblock]
          rfl
        rw [column_run_of_bound body (c := ⟨.block, none, [ty]⟩) hnext]
        exact Cell.retype_of_front (Cell.front_of_held hheld)
    · rw [if_neg hname]
      have hother := Scope.column_commit_of_ne isMutable source (.plan s name ty) hname s
      exact leave_run body (hother.trans hcolumn) hcommit hheld
  | .block inner body, s, rest, k, u, hcolumn, hblock, hheld => by
    have hwhole : Cell.held (s.column x) = some (k, u) := by rw [hcolumn]; exact hheld
    have hinner := column_popped (leave_run inner (Scope.column_pushBlock s x) rfl hwhole)
    obtain ⟨left, -, hpopped, hkeeps, -⟩ := inner.exists_pop s
    have hnext : (inner.run s.pushBlock).popped.column x =
        ⟨.block, none, []⟩ :: Cell.retype (fun _ => inner.after x k.isPinned u) rest := by
      rw [hinner, hcolumn]
      rfl
    have hsettled : Cell.held (Cell.retype (fun _ => inner.after x k.isPinned u) rest) =
        some (k, inner.after x k.isPinned u) := by
      rw [Cell.held_retype, hheld]
      rfl
    have hstill : (inner.run s.pushBlock).popped.inBlock = true := by
      rw [hpopped, hkeeps.inBlock, hblock]
    rw [run, after, leave_run body hnext hstill hsettled, Cell.retype_retype]
    rfl

end

/-! ## The types that a name takes -/

/-- What an assignment to `x` makes of the binding that `x` has. -/
theorem held_commit {s : Scope} {k : BindingKind} {u : Ty}
    (h : Cell.held (s.column x) = some (k, u)) (t : Ty) (isMutable : Bool)
    (source : Option String) :
    ∃ k', k'.isPinned = k.isPinned ∧
      Cell.held (((Assignment.plan s x t).commit s isMutable source).column x) =
        some (k', if k.isPinned || u.holds t then u.settle t else t) ∧
      ((Assignment.plan s x t).resolution = .shadow (Assignment.plan s x t).ident ↔
        (k.isPinned || u.holds t) = false) := by
  cases hfits : k.isPinned || u.holds t with
  | true =>
    obtain ⟨hreuse, hcolumn⟩ := Scope.column_commit_reuse isMutable source h hfits
    refine ⟨k, rfl, ?_, by simp [hreuse]⟩
    rw [hcolumn, Cell.held_retype, h]
    rfl
  | false =>
    obtain ⟨c, rest, hcons⟩ := s.column_eq_cons x
    obtain ⟨hshadow, hcolumn⟩ := Scope.column_commit_shadow isMutable source h hfits hcons
    have hpinned : k.isPinned = false := (Bool.or_eq_false_iff.mp hfits).1
    refine ⟨.local, hpinned.symm, ?_, by simp [hshadow]⟩
    rw [hcolumn]
    rfl

theorem held_popped {s : Scope} {k : BindingKind} {u : Ty}
    (h : Cell.held (s.column x) = some (k, u)) (body : BlockBody) :
    Cell.held ((body.run s.pushBlock).popped.column x) =
      some (k, body.after x k.isPinned u) := by
  rw [column_popped (leave_run body (s.column_pushBlock x) rfl h), Cell.held_retype, h]
  rfl

theorem held_run (body : BlockBody) {s : Scope} {k : BindingKind} {u : Ty}
    (h : Cell.held (s.column x) = some (k, u)) :
    body.shadows x s = body.renewed x k.isPinned u ∧
      ∃ k', Cell.held ((body.run s).column x) = some (k', body.live x k.isPinned u) := by
  induction body generalizing s k u with
  | done => exact ⟨rfl, k, h⟩
  | assign name t isMutable source rest ih =>
    rw [shadows, run, live, renewed]
    by_cases hname : name = x
    · subst hname
      obtain ⟨k', hpinned, hheld, hshadow⟩ := held_commit h t isMutable source
      obtain ⟨hrest, hlive⟩ := ih hheld
      rw [hpinned] at hrest hlive
      simp only [true_and, hshadow, if_true, hrest]
      refine ⟨?_, hlive⟩
      cases k.isPinned || u.holds t <;> simp
    · have hother := Scope.column_commit_of_ne isMutable source (.plan s name t) hname s
      simp only [hname, false_and, if_false]
      exact ih (hother ▸ h)
  | block inner rest ihinner ih =>
    obtain ⟨hrest, hlive⟩ := ih (held_popped h inner)
    refine ⟨?_, hlive⟩
    rw [shadows, renewed, (ihinner (s := s.pushBlock) h).1, hrest]

end BlockBody

/-- The first of these types that is known. -/
def Ty.firstKnown (ts : List Ty) : Ty := (ts.find? (!·.isUnknown)).getD .unknown

theorem Ty.firstKnown_settle (u t : Ty) (ts : List Ty) :
    firstKnown (u.settle t :: ts) = firstKnown (u :: t :: ts) := by
  unfold firstKnown settle
  cases hu : u.isUnknown <;> simp [hu]

theorem Ty.firstKnown_cons {u : Ty} (h : u ≠ .unknown) (ts : List Ty) :
    firstKnown (u :: ts) = u := by
  unfold firstKnown
  rw [List.find?_cons_of_pos (by simpa [← Bool.not_eq_true] using h)]
  rfl

theorem Ty.firstKnown_singleton (u : Ty) : firstKnown [u] = u := by
  unfold firstKnown
  cases hu : u.isUnknown with
  | true => simp [isUnknown_iff.mp hu]
  | false => simp [hu]

theorem Ty.ne_unknown_of_holds_eq_false {u t : Ty} (h : u.holds t = false) :
    u ≠ .unknown ∧ t ≠ .unknown := by
  constructor
  · rintro rfl
    simp [Ty.holds] at h
  · rintro rfl
    cases u <;> simp [Ty.holds] at h

namespace BlockBody

variable {x : String}

/-- Of the shadows in one block the first counts after it, and the last inside it. -/
theorem after_and_live_of_isFlat {body : BlockBody} (hflat : body.IsFlat) (pinned : Bool) (u : Ty) :
    body.after x pinned u =
        ((body.renewed x pinned u).take 1).foldl Ty.join (Ty.firstKnown (u :: body.assigned x)) ∧
      body.live x pinned u =
        (body.renewed x pinned u).getLastD (Ty.firstKnown (u :: body.assigned x)) := by
  induction body generalizing u with
  | done => exact ⟨(Ty.firstKnown_singleton u).symm, (Ty.firstKnown_singleton u).symm⟩
  | assign name t isMutable source rest ih =>
    rw [after, live, renewed, assigned]
    by_cases hname : name = x
    · simp only [if_pos hname]
      cases hfits : pinned || u.holds t with
      | true =>
        obtain ⟨hafter, hlive⟩ := ih hflat (u.settle t)
        rw [Ty.firstKnown_settle] at hafter hlive
        exact ⟨hafter, hlive⟩
      | false =>
        have hholds := (Bool.or_eq_false_iff.mp hfits).2
        have hlive := (ih hflat t).2
        rw [Ty.firstKnown_cons (Ty.ne_unknown_of_holds_eq_false hholds).2] at hlive
        rw [Ty.firstKnown_cons (Ty.ne_unknown_of_holds_eq_false hholds).1]
        exact ⟨rfl, hlive.trans (List.getLastD_cons ..).symm⟩
    · simp only [if_neg hname]
      exact ih hflat u
  | block inner rest => exact hflat.elim

end BlockBody

/-- **Only the first shadow in a block counts after it.** A block in which names are assigned can be
left, and a name that is bound in the function around it then has the type `BlockBody.after`. If
the block has no blocks of its own, that is the type of the binding (an unknown type is settled by
the first value that is assigned) joined with the first type with which the name was declared anew,
whereas inside the block the name ends with the last of them. So the type accounts for every one of
them exactly if joining the later ones adds nothing to it. -/
theorem type_after_block {s : Scope} {x : String} {b : Binding}
    (hb : s.lookupInFunction x = some b) (body : BlockBody) :
    ∃ left inside outside, (body.run s.pushBlock).pop = .ok left ∧
      (body.run s.pushBlock).lookupInFunction x = some inside ∧
      left.scope.lookupInFunction x = some outside ∧
      outside.ty = body.after x b.kind.isPinned b.ty ∧
      (body.IsFlat →
        inside.ty = (body.shadows x s.pushBlock).getLastD
          (Ty.firstKnown (b.ty :: body.assigned x)) ∧
        outside.ty = ((body.shadows x s.pushBlock).take 1).foldl Ty.join
          (Ty.firstKnown (b.ty :: body.assigned x)) ∧
        (b.ty ≠ .unknown →
          (outside.ty = (body.shadows x s.pushBlock).foldl Ty.join b.ty ↔
            ((body.shadows x s.pushBlock).drop 1).foldl Ty.join outside.ty = outside.ty))) := by
  have hheld : Cell.held (s.column x) = some (b.kind, b.ty) := by
    rw [Scope.held_column, hb]
    rfl
  obtain ⟨left, hpop, hpopped, -, -⟩ := body.exists_pop s
  have houter := BlockBody.held_popped hheld body
  rw [hpopped] at houter
  obtain ⟨hshadows, k, hinner⟩ := body.held_run (s := s.pushBlock) hheld
  obtain ⟨inside, hinside, -, hlive⟩ := Scope.lookupInFunction_of_held hinner
  obtain ⟨outside, houtside, -, hafter⟩ := Scope.lookupInFunction_of_held houter
  refine ⟨left, inside, outside, hpop, hinside, houtside, hafter, fun hflat => ?_⟩
  obtain ⟨hfirst, hlast⟩ := BlockBody.after_and_live_of_isFlat (x := x) hflat b.kind.isPinned b.ty
  rw [← hshadows] at hfirst hlast
  refine ⟨hlive.trans hlast, hafter.trans hfirst, fun hknown => ?_⟩
  rw [Ty.firstKnown_cons hknown] at hfirst
  have hall : (body.shadows x s.pushBlock).foldl Ty.join b.ty =
      ((body.shadows x s.pushBlock).drop 1).foldl Ty.join outside.ty := by
    rw [hafter, hfirst, ← List.foldl_append, List.take_append_drop]
  rw [hall, eq_comm]

/-- **A variable that takes two new types in a block**, as `v = "a"; v = [1]` where `v` was a
number: the type after the block says nothing of the list that `v` may hold there. -/
theorem type_after_block_twoShadows :
    let s : Scope := ({} : Scope).pushFunction "f" [] |>.declare "v" { ty := .int }
    let body : BlockBody := .assign "v" .str true none (.assign "v" (.list .int) true none .done)
    body.shadows "v" s.pushBlock = [.str, .list .int] ∧
      ∃ left inside outside, (body.run s.pushBlock).pop = .ok left ∧
        (body.run s.pushBlock).lookupInFunction "v" = some inside ∧
        left.scope.lookupInFunction "v" = some outside ∧ inside.ty = .list .int ∧
        outside.ty = .union [.int, .str] ∧ outside.ty.holds inside.ty = false ∧
        outside.ty ≠ (body.shadows "v" s.pushBlock).foldl Ty.join .int := by
  intro s body
  have hshadows : body.shadows "v" s.pushBlock = [.str, .list .int] :=
    (body.held_run (s := s.pushBlock) (k := .local) (u := .int) rfl).1.trans (by decide)
  obtain ⟨left, inside, outside, hpop, hinside, houtside, hafter, hflat⟩ :=
    type_after_block (s := s) (x := "v") (b := { ty := .int }) rfl body
  obtain ⟨hlive, -, hagree⟩ := hflat trivial
  rw [hshadows] at hlive hagree
  have hunion : outside.ty = .union [.int, .str] := hafter.trans (by decide)
  refine ⟨hshadows, left, inside, outside, hpop, hinside, houtside, hlive, hunion, ?_, ?_⟩
  · rw [hlive, hunion]
    decide
  · rw [hshadows, Ne, hagree (by decide), hunion]
    decide

end ClosureConversion
