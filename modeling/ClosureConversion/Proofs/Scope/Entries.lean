import ClosureConversion.Proofs.Scope.Operations
import Mathlib.Data.List.Induction

/-! # Entries of frames -/

set_option autoImplicit false

namespace ClosureConversion

namespace Scope

variable {kinds : Bool} {s t : Scope}

/-- How a name is spelled in the frame at index `i`; 0 is the module. -/
def spelled? (s : Scope) (i : Nat) (name : String) : Option String :=
  s.renames.frames.reverse[i]?.bind (·.get? name)

/-- What a name is bound to in the frame at index `i`. -/
def bound? (s : Scope) (i : Nat) (name : String) : Option Binding :=
  s.allFrames.reverse[i]?.bind (·.get? name)

/-- What was declared of a name in the frame at index `i`, with its spelling. -/
def declared? (s : Scope) (i : Nat) (name : String) : Option (Binding × Option String) :=
  (s.bound? i name).map fun b => (b.outline false, s.spelled? i name)

theorem length_renames (hs : s.Leveled) : s.renames.frames.length = s.depth :=
  hs.trans (length_allFrames s)

theorem lt_depth_of_spelled? (hs : s.Leveled) {i : Nat} {n ident : String}
    (h : s.spelled? i n = some ident) : i < s.depth := by
  obtain ⟨r, hr, -⟩ := Option.bind_eq_some_iff.mp h
  have hlt := (List.getElem?_eq_some_iff.mp hr).1
  rwa [List.length_reverse, length_renames hs] at hlt

/-! ## Adjustments and declarations -/

theorem Adjusts.spelled? (h : s.Adjusts kinds t) (i : Nat) (n : String) :
    t.spelled? i n = s.spelled? i n := by
  unfold Scope.spelled?
  rw [h.renames]

theorem outline_of_adjusts {fs gs : List Frame} (h : List.Forall₂ (Frame.Adjusts kinds) fs gs)
    (k : Nat) (n : String) :
    (gs[k]?.bind (·.get? n)).map (Binding.outline kinds) =
      (fs[k]?.bind (·.get? n)).map (Binding.outline kinds) := by
  induction h generalizing k with
  | nil => rfl
  | cons hhead _ ih =>
    cases k with
    | zero => exact hhead.outline n
    | succ k => exact ih k

theorem Adjusts.declared? (h : s.Adjusts false t) (i : Nat) (n : String) :
    t.declared? i n = s.declared? i n := by
  have houtline : (t.bound? i n).map (Binding.outline false) =
      (s.bound? i n).map (Binding.outline false) :=
    outline_of_adjusts (List.rel_reverse h.allFrames) i n
  have hpair := congrArg (Option.map fun b => (b, s.spelled? i n)) houtline
  rw [Option.map_map, Option.map_map] at hpair
  unfold Scope.declared?
  rw [h.spelled?]
  exact hpair

/-- A change at one place, with places counted from the other end. -/
theorem getElem?_reverse_modify {α : Type} {l : List α} {f : α → α} {j : Nat} (hj : j < l.length)
    (i : Nat) :
    (l.modify (l.length - 1 - j) f).reverse[i]? =
      if i = j then l.reverse[i]?.map f else l.reverse[i]? := by
  rcases Nat.lt_or_ge i l.length with hi | hi
  · rw [List.getElem?_reverse (by rw [List.length_modify]; exact hi), List.getElem?_reverse hi,
      List.length_modify, List.getElem?_modify]
    by_cases hplace : i = j
    · simp [hplace]
    · have hne : l.length - 1 - j ≠ l.length - 1 - i := by omega
      simp [hplace, hne]
  · rw [List.getElem?_eq_none (by rw [List.length_reverse, List.length_modify]; exact hi),
      List.getElem?_eq_none (by rw [List.length_reverse]; exact hi), if_neg (by omega)]

theorem Binds.spelled? {d : Declaration} (hs : s.Leveled) (h : Binds d s t) (i : Nat)
    (n : String) :
    t.spelled? i n = if i = d.index ∧ n = d.name then some d.ident else s.spelled? i n := by
  have hindex : d.index < s.renames.frames.length := by
    rw [length_renames hs]
    exact h.index
  unfold Scope.spelled?
  rw [h.renames, ← length_renames hs, getElem?_reverse_modify hindex]
  by_cases hplace : i = d.index
  · have hr : d.index < s.renames.frames.reverse.length := by rwa [List.length_reverse]
    rw [hplace, if_pos rfl, List.getElem?_eq_getElem hr]
    by_cases hname : n = d.name
    · simp [hname]
    · simp [hname, Ne.symm hname]
  · simp [hplace]

theorem Binds.bound? {d : Declaration} (h : Binds d s t) {i : Nat} {n : String}
    (hother : ¬ (i = d.index ∧ n = d.name)) : t.bound? i n = s.bound? i n := by
  obtain ⟨b, hframes⟩ := h.frames
  have hlength : s.allFrames.length = s.depth := length_allFrames s
  have hindex : d.index < s.allFrames.length := by
    rw [hlength]
    exact h.index
  unfold Scope.bound?
  rw [hframes, ← hlength, getElem?_reverse_modify hindex]
  by_cases hplace : i = d.index
  · have hname : d.name ≠ n := fun heq => hother ⟨hplace, heq.symm⟩
    rw [if_pos hplace, Option.bind_map]
    refine congrArg (Option.bind _) (funext fun f => ?_)
    show (f.bindings.insert d.name b).get? n = f.bindings.get? n
    rw [NameMap.get?_insert, if_neg hname]
  · rw [if_neg hplace]

/-! ## Frames that are entered and left -/

/-- A frame that says nothing yet. -/
theorem bind_getElem?_concat {α β : Type} {l : List α} {a : α} {f : α → Option β} (ha : f a = none)
    (i : Nat) : (l ++ [a])[i]?.bind f = l[i]?.bind f := by
  rcases Nat.lt_or_ge i l.length with hi | hi
  · rw [List.getElem?_append_left hi]
  · rw [List.getElem?_append_right hi, List.getElem?_eq_none hi]
    cases i - l.length with
    | zero => exact ha
    | succ k => rfl

theorem spelled?_push (s : Scope) (kind : FrameKind) (i : Nat) (n : String) :
    (s.push kind).spelled? i n = s.spelled? i n := by
  show (NameMap.empty :: s.renames.frames).reverse[i]?.bind (·.get? n) = _
  rw [List.reverse_cons]
  exact bind_getElem?_concat rfl i

theorem declared?_push (s : Scope) (kind : FrameKind) (i : Nat) (n : String) :
    (s.push kind).declared? i n = s.declared? i n := by
  have hbound : (s.push kind).bound? i n = s.bound? i n := by
    show (({ kind } : Frame) :: s.allFrames).reverse[i]?.bind (·.get? n) = _
    rw [List.reverse_cons]
    exact bind_getElem?_concat rfl i
  unfold declared?
  rw [hbound, spelled?_push]

/-- Leaving a frame takes its entries away. -/
theorem spelled?_popped (hs : s.Leveled) (i : Nat) (n : String) :
    s.popped.spelled? i n = s.spelled? i n ∨ s.popped.spelled? i n = none := by
  rcases popped_cases false hs with
    ⟨-, heq⟩ | ⟨f, frames, r, renames, -, hren, hadjusts⟩
  · exact .inl (by rw [heq])
  · rw [hadjusts.spelled?]
    unfold spelled?
    rw [hren, List.reverse_cons]
    rcases Nat.lt_or_ge i renames.reverse.length with hi | hi
    · exact .inl (by rw [List.getElem?_append_left hi])
    · exact .inr (by rw [List.getElem?_eq_none hi]; rfl)

theorem declared?_popped (hs : s.Leveled) (i : Nat) (n : String) :
    s.popped.declared? i n = s.declared? i n ∨ s.popped.declared? i n = none := by
  rcases popped_cases false hs with ⟨-, heq⟩ | ⟨f, frames, r, renames, hframes, hren, hadjusts⟩
  · exact .inl (by rw [heq])
  · rw [hadjusts.declared?]
    have hbelow : s.allFrames.reverse = (frames ++ [s.base]).reverse ++ [f] := by
      unfold allFrames
      rw [hframes]
      exact List.reverse_cons
    have hlength : (frames ++ [s.base]).reverse.length = renames.reverse.length := by
      unfold Leveled at hs
      rw [length_allFrames, hframes, hren] at hs
      simpa using (Nat.succ.inj hs).symm
    rcases Nat.lt_or_ge i renames.reverse.length with hi | hi
    · have hi' : i < (frames ++ [s.base]).reverse.length := by rwa [hlength]
      refine .inl ?_
      unfold declared? bound? spelled?
      rw [hbelow, hren, List.reverse_cons, List.getElem?_append_left hi',
        List.getElem?_append_left hi]
      rfl
    · have hi' : (frames ++ [s.base]).reverse.length ≤ i := by rwa [hlength]
      refine .inr ?_
      show ((frames ++ [s.base]).reverse[i]?.bind _).map _ = none
      rw [List.getElem?_eq_none hi']
      rfl

/-- A name of the module is declared in the module's frame. -/
theorem declared?_declareGlobal (s : Scope) (name : String) (ty : Ty) {i : Nat} (hi : 1 ≤ i)
    (n : String) : (s.declareGlobal name ty).declared? i n = s.declared? i n := by
  obtain ⟨k, rfl⟩ : ∃ k, i = k + 1 := ⟨i - 1, by omega⟩
  have hbound : (s.declareGlobal name ty).bound? (k + 1) n = s.bound? (k + 1) n := by
    unfold bound? allFrames
    rw [List.reverse_append, List.reverse_append]
    rfl
  unfold declared?
  rw [hbound]
  rfl

/-! ## Operations -/

theorem spelled?_of_declares {op : Op} (hs : s.Leveled) {i : Nat} {n ident : String}
    (h : op.declares? s = some ⟨i, n, ident⟩) : (op.apply s).spelled? i n = some ident := by
  cases op with
  | pushFunction | pushBlock | pop | declareGlobal => cases h
  | change c =>
    have heffect := c.effect_any hs
    rw [show c.declares? s = _ from h] at heffect
    cases heffect with
    | declares hbefore hbinds hafter =>
      show (c.apply s).spelled? i n = some ident
      rw [hafter.spelled?, hbinds.spelled? (hbefore.leveled hs), if_pos ⟨rfl, rfl⟩]

/-- A change leaves an entry alone that it does not declare. -/
theorem entry_change {β : Type} (entry : Scope → Option β) {i : Nat} {n : String} (c : Change)
    (hs : s.Leveled) (hadjusts : ∀ {u v : Scope}, u.Adjusts false v → entry v = entry u)
    (hbinds : ∀ {d : Declaration} {u v : Scope}, u.Leveled → Binds d u v →
      ¬ (i = d.index ∧ n = d.name) → entry v = entry u) :
    entry (c.apply s) = entry s ∨ ∃ ident, c.declares? s = some ⟨i, n, ident⟩ := by
  have heffect := c.effect_any hs
  cases hd : c.declares? s with
  | none =>
    rw [hd] at heffect
    cases heffect with
    | adjusts h => exact .inl (hadjusts h)
  | some d =>
    rw [hd] at heffect
    cases heffect with
    | declares hbefore hdeclared hafter =>
      by_cases hplace : i = d.index ∧ n = d.name
      · obtain ⟨rfl, rfl⟩ := hplace
        exact .inr ⟨d.ident, rfl⟩
      · have hsame := hbinds (hbefore.leveled hs) hdeclared hplace
        exact .inl ((hadjusts hafter).trans (hsame.trans (hadjusts hbefore)))

theorem spelled?_apply (op : Op) (hs : s.Leveled) (i : Nat) (n : String) :
    (op.apply s).spelled? i n = s.spelled? i n ∨ (op.apply s).spelled? i n = none ∨
      ∃ ident, op.declares? s = some ⟨i, n, ident⟩ := by
  cases op with
  | pushFunction name formals => exact .inl (spelled?_push s _ i n)
  | pushBlock => exact .inl (spelled?_push s _ i n)
  | pop => exact (spelled?_popped hs i n).imp_right .inl
  | declareGlobal name ty => exact .inl rfl
  | change c =>
    refine (entry_change (·.spelled? i n) c hs (fun h => h.spelled? i n)
      fun hu h hother => ?_).imp_right .inr
    rw [h.spelled? hu, if_neg hother]

/-- Above the module's frame, what is declared of a name changes with its declaration only. -/
theorem declared?_apply (op : Op) (hs : s.Leveled) {i : Nat} (hi : 1 ≤ i) (n : String) :
    (op.apply s).declared? i n = s.declared? i n ∨ (op.apply s).declared? i n = none ∨
      ∃ ident, op.declares? s = some ⟨i, n, ident⟩ := by
  cases op with
  | pushFunction name formals => exact .inl (declared?_push s _ i n)
  | pushBlock => exact .inl (declared?_push s _ i n)
  | pop => exact (declared?_popped hs i n).imp_right .inl
  | declareGlobal name ty => exact .inl (declared?_declareGlobal s name ty hi n)
  | change c =>
    refine (entry_change (·.declared? i n) c hs (fun h => h.declared? i n)
      fun hu h hother => ?_).imp_right .inr
    unfold declared?
    rw [h.bound? hother, h.spelled? hu, if_neg hother]

/-- **An entry goes back to a declaration.** What operations leave alone, take away or declare was
declared by one of them, if it is there at all, and has stood since. -/
theorem exists_declaration {β : Type} (entry : Scope → Option β) {i : Nat} {n : String}
    (hempty : entry {} = none)
    (hstep : ∀ (s : Scope) (op : Op), s.Leveled → entry (op.apply s) = entry s ∨
      entry (op.apply s) = none ∨ ∃ ident, op.declares? s = some ⟨i, n, ident⟩)
    (ops : List Op) {b : β} (h : entry (run ops) = some b) :
    ∃ before op after ident, ops = before ++ op :: after ∧
      op.declares? (run before) = some ⟨i, n, ident⟩ ∧
      (run (before ++ [op])).spelled? i n = some ident ∧
      ∀ more, more <+: after → entry (run (before ++ op :: more)) = some b := by
  induction ops using List.reverseRecOn with
  | nil => cases hempty.symm.trans h
  | append_singleton ops last ih =>
    have hrun : run (ops ++ [last]) = last.apply (run ops) := run_append ops [last]
    have hlast := h
    rw [hrun] at hlast
    rcases hstep (run ops) last (run_leveled ops) with hsame | hgone | ⟨ident, hdeclares⟩
    · obtain ⟨before, op, after, ident, rfl, hdeclares, hspelled, hstands⟩ :=
        ih (hsame.symm.trans hlast)
      refine ⟨before, op, after ++ [last], ident, by simp, hdeclares, hspelled,
        fun more hmore => ?_⟩
      rcases List.prefix_concat_iff.mp hmore with rfl | hmore
      · rw [← List.cons_append, ← List.append_assoc]
        exact h
      · exact hstands more hmore
    · cases hgone.symm.trans hlast
    · refine ⟨ops, last, [], ident, rfl, hdeclares, ?_, fun more hmore => ?_⟩
      · rw [hrun]
        exact spelled?_of_declares (run_leveled ops) hdeclares
      · obtain rfl := List.prefix_nil.mp hmore
        exact h

end Scope

end ClosureConversion
