import ClosureConversion.Proofs.Conversion.Rounds
import ClosureConversion.Proofs.Emit.Statements

/-! # What a conversion observes -/

set_option autoImplicit false

namespace ClosureConversion

/-- Nothing but the module's frame is open. -/
structure Scope.AtModule (s : Scope) : Prop where
  leveled : s.Leveled
  kinds : s.layers.map Layer.kind = [.module]

namespace Scope

variable {s t : Scope}

theorem AtModule.same (h : s.AtModule) (hsame : s.SameLayers t) : t.AtModule :=
  ⟨hsame.leveled h.leveled, by rw [hsame.layers]; exact h.kinds⟩

theorem AtModule.layers (h : s.AtModule) : ∃ l, s.layers = [l] ∧ l.kind = .module := by
  have hkinds := h.kinds
  obtain ⟨l, hl⟩ : ∃ l, s.layers = [l] := by
    rw [← List.length_eq_one_iff, ← List.length_map, hkinds]
    rfl
  rw [hl] at hkinds
  exact ⟨l, hl, List.head_eq_of_cons_eq hkinds⟩

theorem AtModule.declareGlobal (h : s.AtModule) (name : String) (ty : Ty) :
    (s.declareGlobal name ty).AtModule := by
  have hlevel : (s.declareGlobal name ty).Leveled :=
    h.leveled.trans ((length_allFrames s).trans (length_allFrames (s.declareGlobal name ty)).symm)
  refine ⟨hlevel, ?_⟩
  have hkinds := h.kinds
  rw [map_kind_layers h.leveled, allFrames, List.map_append] at hkinds
  rw [map_kind_layers hlevel, allFrames, List.map_append]
  exact hkinds

theorem AtModule.foldl {α : Type} {f : Scope → α → Scope}
    (hf : ∀ s a, s.AtModule → (f s a).AtModule) (as : List α) (h : s.AtModule) :
    (as.foldl f s).AtModule := by
  induction as generalizing s with
  | nil => exact h
  | cons a rest ih => exact ih (hf s a h)

end Scope

theorem moduleScope_atModule (m : Module) (sigs : Signatures) (claimed : List String) :
    (moduleScope m sigs claimed).AtModule := by
  have hempty : ({} : Scope).AtModule := ⟨rfl, rfl⟩
  refine .foldl (fun s ident hs => hs.same (Scope.sameLayers_reserveModuleIdent s ident)) claimed ?_
  refine .foldl (fun s e hs => hs.declareGlobal _ _) sigs.entries ?_
  exact .foldl (fun s g hs => hs.declareGlobal _ _) m.globals hempty

namespace Emit

variable {α β : Type} {w : Settings} {c : Context}

theorem inFrame_trace (kind : FrameKind) (x : Emit α) :
    (inFrame kind x w c).2.trace = (x w { c with scope := c.scope.push kind }).2.trace := by
  unfold inFrame
  dsimp only
  split <;> rfl

/-- What follows a computation and observes nothing. -/
theorem trace_bind_of_steady {x : Emit α} {f : α → Emit β} (hf : ∀ a, Steady (f a)) :
    ((x >>= f) w c).2.trace = (x w c).2.trace := by
  rw [bind_apply]
  rcases x w c with ⟨r, c₁⟩
  cases r with
  | ok a => exact (hf a w c₁).2.1
  | error e => rfl

/-- The frame of a function of the module: its body starts with the formals, and is a run. -/
theorem topLevelFrame_trace {f : Function} {types : List Ty} (signature : Option Signature)
    (htypes : types.length = f.formals.length) (hc : c.scope.Leveled) :
    ∃ c₁ c₂, Starts (.function f.name f.formals) (Usage.ofFunction f) [] f.formals c c₁ ∧
      c₁.scope.Innermost (fun _ b => b.kind.isPinned = false) ∧ Run c₁ c₂ ∧
      (topLevelFrame f signature types w
        { c with scope := c.scope.push (.function f.name f.formals) }).2.trace = c₂.trace := by
  let told : Context :=
    { c with scope := c.scope.push (.function f.name f.formals)
             journal := c.journal.record [.analyzed f.name f.formals f.body] }
  obtain ⟨formals, c₁, is, hdeclare, ⟨hnames, his⟩, hlevel, hlayers, hconfined, -, htrace⟩ :=
    declareFormals_introduces (w := w) f (Usage.ofFunction f) htypes told
      (Scope.leveled_push hc _) fun _ hn => absurd hn List.not_mem_nil
  have hstart : c₁.scope.layers = (Layer.new (.function f.name f.formals)).introduce
      ([] ++ formals.map Formal.introduction) :: c.scope.layers := by
    rw [hlayers, his]
    rfl
  have hformals : c₁.scope.Innermost (fun _ b => b.kind.isPinned = false) := by
    have hpreserved := declareFormals_preserves (P := fun _ b => b.kind.isPinned = false) f types
      (Usage.ofFunction f) (fun _ b hb => by rw [hb]; rfl) w told (c.scope.innermost_push _)
    rwa [hdeclare] at hpreserved
  obtain ⟨c₂, c₃, hstart, hunpinned, hrun, hresult⟩ := functionBody_run f.name (w := w) (c := c)
    rfl rfl (fun out => stmts_runs f.body out (Finset.Subset.refl _) (Finset.Subset.refl _)) hlevel
    htrace hstart hconfined hformals fun _ _ _ _ _ hb => hb
  rw [hnames] at hstart
  refine ⟨c₂, c₃, hstart, hunpinned, hrun, ?_⟩
  have hframe : topLevelFrame f signature types w
      { c with scope := c.scope.push (.function f.name f.formals) } =
      (declareFormals f types (Usage.ofFunction f) >>= fun formals => _) w told := rfl
  rw [hframe, bind_apply, hdeclare]
  show ((functionBody f f.name formals (Usage.ofFunction f) (stmts f.body) >>= fun written => _)
    w c₁).2.trace = _
  rw [trace_bind_of_steady, hresult]
  exact fun written => (returnText_steady _ _ _ _).bind fun _ => .pure _

/-- **A function of the module is observed as its body runs.** -/
theorem topLevel_trace (f : Function) (signature : Option Signature) (hc : c.scope.AtModule) :
    (topLevel f signature w c).2.trace = c.trace ∨
      ∃ c₀ c₁ c₂ : Context, c₀.scope.AtModule ∧ c₀.trace = c.trace ∧
        Starts (.function f.name f.formals) (Usage.ofFunction f) [] f.formals c₀ c₁ ∧
        c₁.scope.Innermost (fun _ b => b.kind.isPinned = false) ∧
        Run c₁ c₂ ∧ (topLevel f signature w c).2.trace = c₂.trace := by
  have hsteady := formalTypes_steady f f.name w c
  unfold topLevel
  rw [bind_apply]
  rcases hx : formalTypes f f.name w c with ⟨r, c₀⟩
  rw [hx] at hsteady
  obtain ⟨hreserves, htrace, -⟩ := hsteady
  have hsame := hreserves.sameLayers
  cases r with
  | error e => exact .inl htrace
  | ok types =>
    obtain ⟨c₁, c₂, hstart, hunpinned, hrun, hresult⟩ := topLevelFrame_trace (w := w) signature
      (length_of_formalTypes hx) (hsame.leveled hc.leveled)
    exact .inr ⟨c₀, c₁, c₂, hc.same hsame, htrace, hstart, hunpinned, hrun,
      (inFrame_trace _ _).trans hresult⟩

end Emit

/-! ## Passes -/

theorem Pass.step_trace (m : Module) (sigs : Signatures) (w : Settings) (p : Pass) (f : Function) :
    (Pass.step m sigs w p f).trace = (Emit.topLevel f (sigs.get? f.name) w
      { scope := moduleScope m sigs p.claimed, journal := p.journal,
        trace := p.trace }).2.trace := by
  unfold Pass.step
  dsimp only
  split
  · rename_i g c hok
    rw [hok]
  · rename_i e c herror
    rw [herror]

/-- **What the runs of bodies keep true of traces is true of a pass.** -/
theorem pass_trace {P : List Observation → Prop} (hnil : P [])
    (hP : ∀ (f : Function) (c c₁ c₂ : Context), c.scope.AtModule →
      Emit.Starts (.function f.name f.formals) (Usage.ofFunction f) [] f.formals c c₁ →
      c₁.scope.Innermost (fun _ b => b.kind.isPinned = false) → Run c₁ c₂ → P c.trace → P c₂.trace)
    (m : Module) (sigs : Signatures) (w : Settings) (journal : Journal) :
    P (convertPass m sigs w journal).trace := by
  have hstep : ∀ (p : Pass) (f : Function), P p.trace → P (Pass.step m sigs w p f).trace := by
    intro p f hp
    rw [Pass.step_trace]
    rcases Emit.topLevel_trace f (sigs.get? f.name) (w := w)
        (c := { scope := moduleScope m sigs p.claimed, journal := p.journal, trace := p.trace })
        (moduleScope_atModule m sigs p.claimed) with
      heq | ⟨c₀, c₁, c₂, hmodule, htrace, hstart, hunpinned, hrun, heq⟩
    · rw [heq]
      exact hp
    · rw [heq]
      refine hP f c₀ c₁ c₂ hmodule hstart hunpinned hrun ?_
      rw [htrace]
      exact hp
  have hfold : ∀ (fs : List Function) (p : Pass), P p.trace →
      P (fs.foldl (Pass.step m sigs w) p).trace := by
    intro fs
    induction fs with
    | nil => exact fun p hp => hp
    | cons f rest ih => exact fun p hp => ih _ (hstep p f hp)
  exact hfold m.functions { journal } hnil

/-- **What the runs of bodies keep true of observations is true of a pass.** -/
theorem pass_observes {P : Observation → Prop}
    (hP : ∀ (f : Function) (c c₁ c₂ : Context), c.scope.AtModule →
      Emit.Starts (.function f.name f.formals) (Usage.ofFunction f) [] f.formals c c₁ →
      Run c₁ c₂ → (∀ o ∈ c.trace, P o) → ∀ o ∈ c₂.trace, P o)
    (m : Module) (sigs : Signatures) (w : Settings) (journal : Journal) :
    ∀ o ∈ (convertPass m sigs w journal).trace, P o :=
  pass_trace (P := fun trace => ∀ o ∈ trace, P o) (fun _ ho => absurd ho List.not_mem_nil)
    (fun f c c₁ c₂ hmodule hstart _ hrun ho => hP f c c₁ c₂ hmodule hstart hrun ho) m sigs w journal

end ClosureConversion
