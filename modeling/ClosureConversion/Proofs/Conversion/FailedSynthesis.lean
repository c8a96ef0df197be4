import ClosureConversion.Proofs.Conversion.Fallibility
import ClosureConversion.Proofs.Emit.Confinement
import ClosureConversion.Proofs.Emit.Edits
import ClosureConversion.Proofs.Emit.Statements
import ClosureConversion.Proofs.Scope.Fresh

/-! # The scope after a closure that could not be made -/

set_option autoImplicit false

namespace ClosureConversion

namespace Scope

/-- As it was, apart from identifiers reserved in the module's own frame. -/
def Restored (s t : Scope) : Prop :=
  t = { s with base := { s.base with idents := t.base.idents } }

/-- The frame in which names are declared. -/
def innermost (s : Scope) : Frame := s.frames.head?.getD s.base

/-- Dotted name of a function that is defined in the innermost function of the scope. -/
def qualify (s : Scope) (name : String) : String :=
  let outer := s.currentFunction?.getD ""
  if outer.isEmpty then name else s!"{outer}.{name}"

variable {s t : Scope}

theorem Confined.restored (h : Confined 0 s t) : s.Restored t := h.eq_of_zero

theorem innermost_eq (s : Scope) : s.allFrames.head? = some s.innermost := by
  unfold allFrames innermost
  cases s.frames <;> rfl

theorem Confined.innermost {k : Nat} (h : Confined k s t) : s.innermost.Grows t.innermost := by
  have hgrows := h.grows
  have hs := innermost_eq s
  have ht := innermost_eq t
  rcases hfs : s.allFrames with _ | ⟨f, fs⟩
  · rw [hfs] at hs
    cases hs
  · rcases hgs : t.allFrames with _ | ⟨g, gs⟩
    · rw [hgs] at ht
      cases ht
    · rw [hfs, hgs] at hgrows
      rw [hfs] at hs
      rw [hgs] at ht
      cases hgrows with
      | cons hhead _ =>
        rw [← Option.some.inj hs, ← Option.some.inj ht]
        exact hhead

theorem mem_idents_reserveIdent (s : Scope) (ident : String) :
    ident ∈ (s.reserveIdent ident).innermost.idents := by
  unfold reserveIdent onInnermost Scope.innermost
  split
  · rename_i hframes
    rw [hframes]
    exact mem_pushNew.mpr (.inr rfl)
  · exact mem_pushNew.mpr (.inr rfl)

/-- A fresh identifier is not reserved in the innermost frame. -/
theorem freshIdent_not_mem_innermost (s : Scope) (base : String) :
    s.freshIdent base ∉ s.innermost.idents := by
  intro hmem
  refine freshIdent_not_mem s base ?_
  have hinner : s.innermost ∈ innerFrames s.allFrames := by
    unfold allFrames Scope.innermost
    cases s.frames with
    | nil =>
      rw [List.nil_append, innerFrames]
      split <;> exact List.mem_cons_self
    | cons f rest =>
      rw [List.cons_append, innerFrames]
      split <;> exact List.mem_cons_self
  simp only [taken, List.mem_append]
  refine .inl (.inl (.inr (List.mem_flatMap.mpr ⟨_, hinner, ?_⟩)))
  exact List.mem_append_left _ hmem

theorem confined_of_idents (s : Scope) {idents : List String} (h : s.base.idents ⊆ idents) :
    Confined 0 s { s with base := { s.base with idents } } := by
  have hreserves : s.base.Reserves { s.base with idents } := ⟨rfl, rfl, rfl, h⟩
  exact ⟨List.rel_append (forall₂_grows_refl _) (.cons hreserves.grows .nil), rfl, rfl, rfl,
    fun _ => hreserves⟩

/-- Reserving the same identifier on both sides. -/
theorem Confined.reserveIdent (h : Confined 0 s t) (ident : String) :
    Confined 0 (s.reserveIdent ident) (t.reserveIdent ident) := by
  have hidents := (h.base (Nat.zero_le _)).idents
  rw [h.eq_of_zero]
  unfold Scope.reserveIdent onInnermost
  rcases hframes : s.frames with _ | ⟨f, rest⟩
  · refine confined_of_idents { s with frames := [], base := s.base.reserve ident } ?_
    intro n hn
    rcases mem_pushNew.mp hn with hold | hnew
    · exact mem_pushNew.mpr (.inl (hidents hold))
    · exact mem_pushNew.mpr (.inr hnew)
  · exact confined_of_idents { s with frames := f.reserve ident :: rest } hidents

end Scope

namespace Emit

variable {α β : Type} {w : Settings}

/-- The computation changes no frame; it may reserve identifiers for the module. -/
def Spares (w : Settings) (x : Emit α) : Prop :=
  ∀ c : Context, c.scope.Leveled → c.scope.Confined 0 (x w c).2.scope

theorem spares_of_same {x : Emit α} (h : ∀ c, (x w c).2.scope = c.scope) : Spares w x := by
  intro c _
  rw [h c]
  exact .refl _ _

theorem Spares.pure (a : α) : Spares w (pure a : Emit α) := spares_of_same fun _ => rfl

theorem Spares.bind {x : Emit α} {f : α → Emit β} (hx : Spares w x) (hf : ∀ a, Spares w (f a)) :
    Spares w (x >>= f) :=
  fun c hc => snd_bind (hx c hc) fun a c₁ _ hfirst =>
    hfirst.trans (hf a c₁ (hfirst.leveled hc))

theorem Spares.sequential : Sequential (Spares w) := ⟨.pure, .bind⟩

theorem claimModuleIdent_spares (base : String) : Spares w (claimModuleIdent base) :=
  fun c _ => Scope.confined_reserveModuleIdent c.scope _

theorem claimNames_spares (name : String) (shape : Shape) : Spares w (claimNames name shape) := by
  refine Spares.bind (spares_of_same fun _ => rfl) fun o => ?_
  refine (claimModuleIdent_spares _).bind fun wrapper => ?_
  cases shape with
  | structCapture =>
    exact (claimModuleIdent_spares _).bind fun _ => (claimModuleIdent_spares _).bind fun _ =>
      .pure _
  | zeroCapture => exact (claimModuleIdent_spares _).bind fun _ => .pure _
  | recursiveSelfCapture => exact .pure _

theorem formalTypes_spares (f : Function) (qualname : String) :
    Spares w (formalTypes f qualname) := by
  refine (Spares.sequential.sequence fun x hx => ?_).bind fun params => .pure _
  obtain ⟨p, -, rfl⟩ := List.mem_map.mp hx
  refine spares_of_same fun c => ?_
  unfold paramType
  dsimp only [bind_apply, oracle, scope]
  split <;> (split <;> rfl)

/-! ## The body of a closure -/

section Body

variable {d : Draft} {s : Scope} {body : Buffer → Emit Buffer} (hmade : d.MadeIn s)
  (htypes : d.paramTypes.length = d.function.formals.length)
  (hbody : ∀ out, Runs (Stmt.allMentions .read d.function.body)
    (Stmt.bindings d.function.body).toFinset (body out))

include hmade htypes hbody

theorem closureParts_spares (assumed : Option Bool) : Spares w (closureParts d assumed body) := by
  intro c hc
  obtain ⟨c₁, c₂, left, receiver, handle, hstart, -, hrun, hpop, hresult⟩ :=
    closureParts_body (w := w) assumed hmade htypes hc hbody
  rw [hresult]
  obtain ⟨hconfined, -⟩ := hrun.confined hstart.leveled (hstart.backed rfl)
  exact hstart.confined_of_pop hc rfl hconfined hpop

/-- **Writing the body of a closure changes no frame around it**, whether it succeeds or not and
whether it is written once or twice. -/
theorem settledParts_spares : Spares w (isolated (settledParts d body)) := by
  intro c hc
  show c.scope.Confined 0 (settledParts d body w { c with prelude := {} }).2.scope
  rcases settledParts_cases d body w { c with prelude := {} } with heq | ⟨parts, c₁, -, heq⟩
  · rw [heq]
    exact closureParts_spares hmade htypes hbody none { c with prelude := {} } hc
  · rw [heq]
    exact closureParts_spares hmade htypes hbody (some true)
      (rewound { c with prelude := {} } c₁ d.qualname) hc

end Body

/-! ## Before the body -/

theorem claimNames_yields (name : String) (shape : Shape) :
    Yields w (claimNames name shape) fun _ => True := by
  intro c
  cases shape <;> exact ⟨_, _, rfl, trivial⟩

/-- **What is claimed before the body is written**: container-level names, and an identifier for the
instance in the innermost frame. Only captures that cannot be resolved stop it, before anything is
claimed. -/
theorem prepare_scope (f : Function) {c : Context} (hc : c.scope.Leveled) {qualname : String}
    (hqualify : qualify f.name w c = (.ok qualname, c)) :
    (∃ e c', Capture.resolve f (Usage.ofFunction f) c.scope qualname = .error e ∧
      prepare f w c = (.error e, c') ∧ c'.scope = c.scope) ∨
    ∃ r d ident c', Capture.resolve f (Usage.ofFunction f) c.scope qualname = .ok r ∧
      prepare f w c = (.ok (d, ident), c') ∧ ident ∉ c.scope.innermost.idents ∧
      (c.scope.reserveIdent ident).Confined 0 c'.scope := by
  let told : Context := { c with journal := c.journal.record [.analyzed f.name f.formals f.body] }
  obtain ⟨c₁, hscope, -, hcases⟩ := captures_cases f (Usage.ofFunction f) qualname w told
  unfold prepare
  rw [bind_apply, hqualify]
  dsimp only
  rw [bind_apply, show tell [.analyzed f.name f.formals f.body] w c = (.ok (), told) from rfl]
  dsimp only
  rcases hcases with ⟨e, he, heq, -⟩ | ⟨r, hr, heq, -⟩
  · exact .inl ⟨e, c₁, he, by rw [bind_apply, heq], hscope⟩
  · -- from here on nothing fails
    let shape := Representation.shape ⟨r.captures, (Usage.ofFunction f).selfRecursive⟩
    let c₂ : Context :=
      { c₁ with journal := c₁.journal.record [.synthesizing qualname shape r.captures.size] }
    obtain ⟨⟨wrapper, layout⟩, c₃, hnames, -⟩ := claimNames_yields (w := w) f.name shape c₂
    have hclaimed : c.scope.Confined 0 c₃.scope := by
      have hspares := claimNames_spares (w := w) f.name shape c₂ (hscope ▸ hc)
      rwa [hnames, show c₂.scope = c.scope from hscope] at hspares
    let ident := c₃.scope.freshIdent f.name
    obtain ⟨c₄, hident, hscope₄⟩ : ∃ c₄, claimIdent f.name w c₃ = (.ok ident, c₄) ∧
        c₄.scope = c₃.scope.reserveIdent ident := ⟨_, rfl, rfl⟩
    have hreserved : (c.scope.reserveIdent ident).Confined 0 c₄.scope :=
      hscope₄ ▸ hclaimed.reserveIdent ident
    have hlevel : c₄.scope.Leveled :=
      hreserved.leveled ((Scope.reserves_reserveIdent c.scope ident).confined.leveled hc)
    obtain ⟨types, c₅, htypes, -⟩ := formalTypes_yields (w := w) f qualname c₄
    have htyped := formalTypes_spares (w := w) f qualname c₄ hlevel
    rw [htypes] at htyped
    have hfresh : ident ∉ c.scope.innermost.idents := fun hmem =>
      Scope.freshIdent_not_mem_innermost c₃.scope f.name (hclaimed.innermost.idents hmem)
    refine .inr ⟨r, ?draft, ident, c₅, hr, ?steps, hfresh, hreserved.trans htyped⟩
    case steps =>
      rw [bind_apply, heq]
      dsimp only
      rw [bind_apply, show tell [.synthesizing qualname shape r.captures.size] w c₁ = (.ok (), c₂)
        from rfl]
      dsimp only
      rw [bind_apply, hnames]
      dsimp only
      rw [bind_apply, hident]
      dsimp only
      rw [bind_apply, htypes]
      rfl

end Emit

/-! ## Failures -/

/-- The context of a closure where nothing is known of the function around it but its frames. -/
def Context.around (s : Scope) : Context :=
  { scope := s, current := { qualname := s.currentFunction?.getD "" } }

/-- The names of the closure were claimed, and then its body could not be written. -/
def BodyFails (f : Function) (s : Scope) (w : Settings) : Prop :=
  ∃ d ident c e c', Emit.prepare f w (.around s) = (.ok (d, ident), c) ∧
    Emit.isolated (Emit.settledParts d (Emit.stmts f.body)) w c = (.error e, c')

variable {f : Function} {s s' : Scope} {w : Settings} {e : ConvertError}

theorem synthesizeClosure_eq_error (h : synthesizeClosure f s w = (.error e, s')) :
    ∃ c, Emit.synthesize f (Emit.stmts f.body) (f.decorators.map Emit.renderExpr) false {} w
      (.around s) = (.error e, c) ∧ c.scope = s' := by
  unfold synthesizeClosure at h
  split at h
  · cases h
  · rename_i e' c heq
    cases h
    exact ⟨c, heq, rfl⟩

/-- Where no use of names is known, every name may be read. -/
theorem ready_of_unplanned {c : Context} (hc : c.scope.Leveled) (husage : c.current.usage = none)
    (R : Finset String) : c.Ready R ∅ := by
  refine ⟨hc, fun n _ u hu => ?_, fun n hn => absurd hn (Finset.notMem_empty n)⟩
  rw [husage] at hu
  cases hu

/-- What is left of a closure whose names were claimed. -/
theorem scope_of_prepared (hs : s.Leveled) {d : Emit.Draft} {ident : String} {c c' : Context}
    (hprepare : Emit.prepare f w (.around s) = (.ok (d, ident), c))
    (hclaimed : (s.reserveIdent ident).Confined 0 c.scope)
    (hsynthesize : Emit.synthesize f (Emit.stmts f.body) (f.decorators.map Emit.renderExpr) false {}
      w (.around s) = (.error e, c')) :
    ident ∈ c'.scope.innermost.idents ∧ s.Confined 1 c'.scope ∧
      (BodyFails f s w → (s.reserveIdent ident).Restored c'.scope) := by
  have hreserve : s.Confined 1 (s.reserveIdent ident) :=
    (Scope.reserves_reserveIdent s ident).confined
  have hlevel := hclaimed.leveled (hreserve.leveled hs)
  have hstart := hreserve.trans (hclaimed.mono (Nat.zero_le 1))
  have hident := hclaimed.innermost.idents (Scope.mem_idents_reserveIdent s ident)
  obtain ⟨rfl, hmade, htypes, hreserves, hobserved⟩ := Emit.prepare_eq_ok hprepare
  have hbodies : ∀ out, Emit.Runs (Stmt.allMentions .read d.function.body)
      (Stmt.bindings d.function.body).toFinset (Emit.stmts d.function.body out) := fun out =>
    Emit.stmts_runs d.function.body out (Finset.Subset.refl _) (Finset.Subset.refl _)
  have hparts := Emit.settledParts_spares (w := w) hmade htypes hbodies c hlevel
  unfold Emit.synthesize at hsynthesize
  rw [Emit.bind_apply, hprepare] at hsynthesize
  dsimp only at hsynthesize
  rw [Emit.bind_apply] at hsynthesize
  rcases hx : Emit.isolated (Emit.settledParts d (Emit.stmts d.function.body)) w c with ⟨x, c₂⟩
  rw [hx] at hsynthesize hparts
  have hleft := hstart.trans (hparts.mono (Nat.zero_le 1))
  have hident₂ := hparts.innermost.idents hident
  cases x with
  | error e₂ =>
    cases hsynthesize
    exact ⟨hident₂, hleft, fun _ => (hclaimed.trans hparts).restored⟩
  | ok parts =>
    have hrun : Run c c₂ := by
      have hisolated := Emit.isolated_run (w := w)
        (Emit.settledParts_run hmade hreserves hobserved htypes hlevel hbodies)
      rwa [hx] at hisolated
    have husage : c₂.current.usage = none := by
      have hbalanced := ((Emit.prepare_edits d.function).balanced w (.around s)).1
      rw [hprepare] at hbalanced
      exact (hrun.continues hlevel).current.usage.trans hbalanced.current.usage
    have hlevel₂ := hparts.leveled hlevel
    have hdecorators : ∀ x ∈ d.function.decorators.map Emit.renderExpr,
        Emit.Runs (Expr.allMentions .read d.function.decorators) ∅ x := by
      intro x hx
      obtain ⟨a, ha, rfl⟩ := List.mem_map.mp hx
      exact Emit.renderExpr_runs (Emit.mentions_subset_allMentions ha .read)
    have hbind := Emit.bindClosure_runs d ident parts.1 false {} hdecorators w c₂
      (ready_of_unplanned hlevel₂ husage _)
    have hrest := (hbind.confined_of_unplanned hlevel₂ husage).1
    rw [show Emit.bindClosure d ident parts.1 (d.function.decorators.map Emit.renderExpr) false {}
      w c₂ = (.error e, c') from hsynthesize] at hrest
    refine ⟨hrest.innermost.idents hident₂, hleft.trans hrest, ?_⟩
    rintro ⟨d', ident', c₁, e', c₃, hprepare', hfails⟩
    cases hprepare.symm.trans hprepare'
    cases hx.symm.trans hfails

/-- A scope in which the innermost frame has a new identifier is another one. -/
theorem Scope.not_restored {t : Scope} {ident : String} (hframes : s.frames ≠ [])
    (hfresh : ident ∉ s.innermost.idents) (hkept : ident ∈ t.innermost.idents) :
    ¬ s.Restored t := by
  intro hsame
  rw [hsame] at hkept
  obtain ⟨f, rest, hcons⟩ := List.exists_cons_of_ne_nil hframes
  rw [Scope.innermost, hcons] at hfresh hkept
  exact hfresh hkept

/-- **Which failures leave the scope as it was.** A closure whose captures cannot be resolved
changes nothing. Once they are resolved, the innermost frame keeps the identifier of the instance
that could not be made: it was free before, and stays reserved. If it was the body that failed,
that identifier is all that stays apart from names of the module; if it was a decorator, whatever
else stays is in the innermost frame. -/
theorem failed_synthesis_restores_iff (hs : s.Leveled)
    (hfail : synthesizeClosure f s w = (.error e, s')) :
    (∀ e', Capture.resolve f (Usage.ofFunction f) s (s.qualify f.name) = .error e' → s' = s) ∧
    (∀ r, Capture.resolve f (Usage.ofFunction f) s (s.qualify f.name) = .ok r →
      ∃ ident, ident ∉ s.innermost.idents ∧ ident ∈ s'.innermost.idents ∧ s.Confined 1 s' ∧
        (BodyFails f s w → (s.reserveIdent ident).Restored s')) ∧
    (s.frames ≠ [] → (s.Restored s' ↔
      ∃ e', Capture.resolve f (Usage.ofFunction f) s (s.qualify f.name) = .error e')) := by
  obtain ⟨c', hsynthesize, rfl⟩ := synthesizeClosure_eq_error hfail
  rcases Emit.prepare_scope (w := w) (c := .around s) f hs rfl with
    ⟨e₁, c₁, hresolve, hprepare, hscope⟩ | ⟨r, d, ident, c₁, hresolve, hprepare, hfresh, hclaimed⟩
  · -- nothing was claimed
    have hsame : c'.scope = s := by
      unfold Emit.synthesize at hsynthesize
      rw [Emit.bind_apply, hprepare] at hsynthesize
      cases hsynthesize
      exact hscope
    refine ⟨fun _ _ => hsame, fun r hr => ?_, fun _ => ⟨fun _ => ⟨e₁, hresolve⟩, fun _ => ?_⟩⟩
    · cases hresolve.symm.trans hr
    · rw [hsame]
      exact rfl
  · obtain ⟨hkept, hconfined, hbody⟩ := scope_of_prepared hs hprepare hclaimed hsynthesize
    refine ⟨fun e₁ he => ?_, fun _ _ => ⟨ident, hfresh, hkept, hconfined, hbody⟩,
      fun hframes => ⟨fun hsame => ?_, ?_⟩⟩
    · cases hresolve.symm.trans he
    · exact absurd hsame (Scope.not_restored hframes hfresh hkept)
    · rintro ⟨e₁, he⟩
      cases hresolve.symm.trans he

/-- A function whose body cannot be written. -/
def spreading : Function := { name := "bad", body := [.expr (.starred (.name "k"))] }

/-- Inside a function, a body that cannot be written leaves the identifier of its instance. -/
theorem failed_synthesis_restores_spreading :
    let s := ({} : Scope).pushFunction "outer" []
    let w : Settings := ⟨Table.oracle {}, {}⟩
    ∃ e s', synthesizeClosure spreading s w = (.error e, s') ∧ ¬ s.Restored s' ∧
      "bad" ∉ s.innermost.idents ∧ "bad" ∈ s'.innermost.idents ∧
      ∃ ident, (s.reserveIdent ident).Restored s' := by
  intro s w
  have hs : s.Leveled := rfl
  have hfails : (synthesizeClosure spreading s w).1.isOk = false := by decide +kernel
  have hkept : "bad" ∈ (synthesizeClosure spreading s w).2.innermost.idents := by decide +kernel
  have hprepares : (Emit.prepare spreading w (.around s)).1.isOk = true := by decide +kernel
  have hwrites : ((Emit.prepare spreading >>= fun p =>
      Emit.isolated (Emit.settledParts p.1 (Emit.stmts spreading.body))) w (.around s)).1.isOk =
      false := by decide +kernel
  have hresolves : (Capture.resolve spreading (Usage.ofFunction spreading) s
      (s.qualify spreading.name)).isOk = true := by decide +kernel
  rcases hmade : synthesizeClosure spreading s w with ⟨e | made, s'⟩
  · rcases hresolve : Capture.resolve spreading (Usage.ofFunction spreading) s
      (s.qualify spreading.name) with _ | captures
    · rw [hresolve] at hresolves
      cases hresolves
    have hbody : BodyFails spreading s w := by
      rw [Emit.bind_apply] at hwrites
      rcases hprepare : Emit.prepare spreading w (.around s) with ⟨_ | ⟨d, ident⟩, c⟩
      · rw [hprepare] at hprepares
        cases hprepares
      · rw [hprepare] at hwrites
        dsimp only at hwrites
        rcases hparts : Emit.isolated (Emit.settledParts d (Emit.stmts spreading.body)) w c with
          ⟨e' | parts, c'⟩
        · exact ⟨d, ident, c, e', c', hprepare, hparts⟩
        · rw [hparts] at hwrites
          cases hwrites
    obtain ⟨-, hrest, hiff⟩ := failed_synthesis_restores_iff hs hmade
    obtain ⟨ident, -, -, -, hreserved⟩ := hrest captures hresolve
    rw [hmade] at hkept
    refine ⟨e, s', rfl, fun hsame => ?_, by decide, hkept, ident, hreserved hbody⟩
    obtain ⟨e₁, he₁⟩ := (hiff (by decide)).mp hsame
    cases hresolve.symm.trans he₁
  · rw [hmade] at hfails
    cases hfails

end ClosureConversion
