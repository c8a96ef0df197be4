import ClosureConversion.Proofs.Emit.Run

/-! # Bodies are confined to their function -/

set_option autoImplicit false

namespace ClosureConversion

/-- No block is open where a body starts. -/
theorem Emit.Starts.backed {kind : FrameKind} {u : Usage} {around : List Introduction}
    {names : List String} {c c₁ : Context} (hstart : Starts kind u around names c c₁)
    (hkind : (Layer.new kind).isFunction) : Scope.Backed c₁.scope.allFrames := by
  obtain ⟨f, rest, hframes, hf⟩ := hstart.confined.exists_head
  rw [hframes]
  exact .inl (hf.trans hkind)

/-- Leaving a body that stayed inside its function restores the scope around it. -/
theorem Emit.Starts.confined_of_pop {kind : FrameKind} {u : Usage} {around : List Introduction}
    {names : List String} {c c₁ : Context} {s : Scope} {left : Scope.Left}
    (hstart : Starts kind u around names c c₁) (hc : c.scope.Leveled)
    (hkind : (Layer.new kind).isFunction) (hbody : c₁.scope.Confined c₁.scope.reach s)
    (hpop : s.pop = .ok left) : c.scope.Confined 0 left.scope := by
  have hreach : c₁.scope.reach = 1 :=
    hstart.confined.reach.trans (Scope.reach_pushFunction c.scope hkind)
  rw [hreach] at hbody
  exact (hstart.confined.trans hbody).popFunction hc hkind hpop

/-- **A run stays inside the innermost function.** The induction also carries that what a block
declares anew is bound outside of it, so that leaving the block widens no type around the
function. -/
theorem Run.confined {c c' : Context} (h : Run c c') (hc : c.scope.Leveled)
    (hback : Scope.Backed c.scope.allFrames) :
    c.scope.Confined c.scope.reach c'.scope ∧ Scope.Backed c'.scope.allFrames := by
  have hdeclare : ∀ (c : Context) (name ident : String) (b : Binding), c.scope.Leveled →
      Scope.Backed c.scope.allFrames →
      c.scope.Confined c.scope.reach (c.scope.declareAs name ident b) ∧
        Scope.Backed (c.scope.declareAs name ident b).allFrames := by
    intro c name ident b hc hback
    have hconfined := Scope.confined_declareAs hc name ident b
    exact ⟨hconfined.mono c.scope.reach_pos,
      hconfined.backed (Scope.shadows_declareAs ..) hback⟩
  induction h with
  | refl c => exact ⟨.refl _ _, hback⟩
  | trans h _ ih ih' =>
    obtain ⟨hfirst, hback₁⟩ := ih hc hback
    obtain ⟨hsecond, hback₂⟩ := ih' (hfirst.leveled hc) hback₁
    rw [hfirst.reach] at hsecond
    exact ⟨hfirst.trans hsecond, hback₂⟩
  | @still c c' hreserves _ _ =>
    exact ⟨hreserves.confined.mono c.scope.reach_pos,
      hreserves.confined.backed hreserves.shadows hback⟩
  | payload c name ident b _ _ _ => exact hdeclare c name ident b hc hback
  | wrapper c name ident b _ _ _ => exact hdeclare c name ident b hc hback
  | hoist c name ident b _ _ _ hhead =>
    rw [Scope.declareInFunction_eq_declareAs hc hhead]
    exact hdeclare c name ident b hc hback
  | @assign c c₁ n ty source _ _ _ ih =>
    obtain ⟨hvalue, hback₁⟩ := ih hc hback
    have hbound : (Assignment.plan c.scope n ty).resolution ≠ .fresh →
        c₁.scope.BindsWithin c₁.scope.reach n := by
      intro hres
      rw [hvalue.reach]
      exact hvalue.bindsWithin (Scope.bindsWithin_reach (Assignment.isSome_of_resolution hres))
    obtain ⟨hcommit, hback₂⟩ := Assignment.confined_commit (hvalue.leveled hc) hback₁
      (c₁.current.plan.isMutable (Assignment.plan c.scope n ty).ident) source hbound
    rw [hvalue.reach] at hcommit
    exact ⟨hvalue.trans hcommit, hback₂⟩
  | update n _ _ _ ih => exact ih hc hback
  | catching _ _ ih => exact ih hc hback
  | handling _ _ ih => exact ih hc hback
  | @block c c₁ left _ hpop ih =>
    obtain ⟨hinner, hback₁⟩ := ih (Scope.leveled_push hc .block) (Scope.backed_pushBlock hback)
    exact hinner.popBacked hc hback₁ hpop
  | resolve c f qualname r _ _ => exact ⟨.refl _ _, hback⟩
  | @body c c₁ c₂ left d s receiver handle _ _ _ hstart _ _ hpop ih =>
    obtain ⟨hbody, -⟩ := ih hstart.leveled (hstart.backed rfl)
    have hleft := hstart.confined_of_pop hc rfl hbody hpop
    exact ⟨hleft.mono (Nat.zero_le _), hleft.backed hleft.shadows_of_zero hback⟩
  | rewind _ _ => exact ⟨.refl _ _, hback⟩

/-- **A run without assignments stays inside the innermost frame.** Nothing is declared anew there,
so the blocks that it opens and leaves widen no type. -/
theorem Run.confined_of_unplanned {c c' : Context} (h : Run c c') (hc : c.scope.Leveled)
    (husage : c.current.usage = none) :
    c.scope.Confined 1 c'.scope ∧ c'.scope.shadows = c.scope.shadows := by
  have hnever : ∀ {c : Context} {n : String}, c.current.usage = none → ¬ c.Stores n := by
    rintro c n husage ⟨u, hu, -⟩
    rw [husage] at hu
    cases hu
  induction h with
  | refl c => exact ⟨.refl _ _, rfl⟩
  | trans h _ ih ih' =>
    obtain ⟨hfirst, hshadows⟩ := ih hc husage
    obtain ⟨hsecond, hshadows'⟩ := ih' (hfirst.leveled hc)
      ((h.continues hc).current.usage.trans husage)
    exact ⟨hfirst.trans hsecond, hshadows'.trans hshadows⟩
  | still hreserves _ _ => exact ⟨hreserves.confined, hreserves.shadows⟩
  | payload c name ident b _ _ _ =>
    exact ⟨Scope.confined_declareAs hc name ident b, Scope.shadows_declareAs ..⟩
  | wrapper c name ident b _ _ _ =>
    exact ⟨Scope.confined_declareAs hc name ident b, Scope.shadows_declareAs ..⟩
  | hoist c name ident b _ _ _ hhead =>
    rw [Scope.declareInFunction_eq_declareAs hc hhead]
    exact ⟨Scope.confined_declareAs hc name ident b, Scope.shadows_declareAs ..⟩
  | assign n ty source _ hn _ _ => exact absurd hn (hnever husage)
  | update n _ hn _ _ => exact absurd hn (hnever husage)
  | catching _ _ ih => exact ih hc husage
  | handling _ _ ih => exact ih hc husage
  | @block c c₁ left _ hpop ih =>
    obtain ⟨hinner, hshadows⟩ := ih (Scope.leveled_push hc .block) husage
    have hshadows₁ : c₁.scope.shadows = [] :: c.scope.shadows := hshadows
    obtain ⟨hleft, -, hshadows'⟩ := hinner.popBlock hc hpop fun f rest hframes e he => by
      rw [Scope.shadows, hframes] at hshadows₁
      obtain ⟨hnone, -⟩ := List.cons.inj hshadows₁
      rw [hnone] at he
      cases he
    rw [hshadows₁] at hshadows'
    exact ⟨hleft.mono (Nat.zero_le 1), hshadows'⟩
  | resolve c f qualname r _ _ => exact ⟨.refl _ _, rfl⟩
  | @body c c₁ c₂ left d s receiver handle _ _ _ hstart _ hrun hpop _ =>
    obtain ⟨hbody, -⟩ := hrun.confined hstart.leveled (hstart.backed rfl)
    have hleft := hstart.confined_of_pop hc rfl hbody hpop
    exact ⟨hleft.mono (Nat.zero_le 1), hleft.shadows_of_zero⟩
  | rewind _ _ => exact ⟨.refl _ _, rfl⟩

end ClosureConversion
