import ClosureConversion.Proofs.Conversion.Observations

/-! # Threading captures through enclosing functions -/

set_option autoImplicit false

namespace ClosureConversion

/-- What is known of the names around the body of `f` while it is written: a name that the body
reads and that a function around it binds is bound in the body's own frames, unless the body binds
it itself or declares it global. -/
structure Context.Threads (c : Context) (f : Function) : Prop where
  leveled : c.scope.Leveled
  usage : c.current.usage = some (Usage.ofFunction f)
  formals : ∀ l ∈ c.scope.layers, ∀ n ∈ l.formals, l.Binds n
  threaded : ∀ n, (Usage.ofFunction f).isRead n →
    (∃ l ∈ (Layer.outer c.scope.layers).dropLast, l.Binds n) →
    (∃ l ∈ Layer.inner c.scope.layers, l.Binds n) ∨
      (Usage.ofFunction f).isAssigned n ∨ (Usage.ofFunction f).isGlobal n

namespace Context.Threads

variable {c c' : Context} {f : Function}

theorem continues (h : c.Threads f) (hcc : c.Continues c') : c'.Threads f := by
  refine ⟨hcc.leveled, hcc.current.usage.trans h.usage, hcc.grown.formals h.formals, ?_⟩
  intro n hread houter
  rw [hcc.grown.outer] at houter
  exact (h.threaded n hread houter).imp_left hcc.grown.inner

theorem pushBlock (h : c.Threads f) :
    ({ c with scope := c.scope.pushBlock } : Context).Threads f := by
  refine ⟨Scope.leveled_push h.leveled .block, h.usage, ?_, fun n hread houter => ?_⟩
  · intro l hl n hn
    rcases List.mem_cons.mp hl with rfl | hmem
    · cases hn
    · exact h.formals l hmem n hn
  · refine (h.threaded n hread houter).imp_left fun ⟨l, hl, hbinds⟩ => ?_
    exact ⟨l, List.mem_cons_of_mem _ hl, hbinds⟩

/-- A scope with the layers of this one has the formals bound. -/
theorem formalsBound (h : c.Threads f) {s : Scope} (hsame : s.SameLayers c.scope) :
    s.FormalsBound := by
  intro g hg n hn
  obtain ⟨r, hr⟩ := Layer.exists_mem_all (hsame.symm.leveled h.leveled)
    (List.mem_append_left [s.base] hg)
  have hmem : Layer.ofFrame g r ∈ c.scope.layers := by
    rw [hsame.layers]
    exact hr
  have hbinds := h.formals _ hmem n hn
  rwa [Layer.Binds, Layer.ofFrame, Option.isSome_map] at hbinds

end Context.Threads

/-! ## Where bodies start -/

/-- The layers of a body that starts bind the formals of their functions, if those around it
do. -/
theorem formals_of_starts {c c₁ : Context} {u : Usage} {around : List Introduction}
    {qualname : String} {names : List String}
    (hstart : Emit.Starts (.function qualname names) u around names c c₁)
    (hc : ∀ l ∈ c.scope.layers, ∀ n ∈ l.formals, l.Binds n) :
    ∀ l ∈ c₁.scope.layers, ∀ n ∈ l.formals, l.Binds n := by
  obtain ⟨formals, hnames, hlayers⟩ := hstart.layers
  rw [hlayers, List.forall_mem_cons]
  refine ⟨fun n hn => ?_, hc⟩
  rw [Layer.formals, Emit.startLayer_kind] at hn
  exact Emit.binds_startLayer.mpr (.inr (hnames ▸ hn))

/-- A function of the module has nothing around it but the module. -/
theorem threads_of_module {c c₁ : Context} {f : Function} (hc : c.scope.AtModule)
    (hstart : Emit.Starts (.function f.name f.formals) (Usage.ofFunction f) [] f.formals c c₁) :
    c₁.Threads f := by
  obtain ⟨l, hl, hkind⟩ := hc.layers
  refine ⟨hstart.leveled, hstart.usage, formals_of_starts hstart ?_, fun n _ houter => ?_⟩
  · intro m hm n hn
    rw [hl, List.mem_singleton] at hm
    rw [hm, Layer.formals, hkind] at hn
    cases hn
  · rw [hstart.outer rfl, hl] at houter
    obtain ⟨m, hm, -⟩ := houter
    cases hm

/-- A closure's frame starts with the free names of its function that are bound around it. -/
theorem exists_around_of_frees {d : Emit.Draft} {s : Scope} (hs : s.FormalsBound)
    (hmade : d.MadeIn s) (receiver handle : String) {n : String} (hfree : d.function.Frees n)
    (hbound : s.BoundInFrames n) : ∃ i ∈ d.around receiver handle, i.name = n := by
  obtain ⟨r, hr, hcaptures⟩ := hmade.captures
  rw [hmade.usage] at hr
  obtain ⟨x, hx, hname⟩ := (Capture.captures_name_iff hs hr).mpr ⟨hfree, hbound⟩
  rw [← hcaptures] at hx
  exact ⟨x.introduction receiver, List.mem_append_left _ (List.mem_map_of_mem hx), hname⟩

/-- A recursive closure's frame starts with its own name. -/
theorem exists_around_of_own {d : Emit.Draft} {s : Scope} (hmade : d.MadeIn s)
    (receiver handle : String) {n : String}
    (hown : ((Usage.ofFunction d.function).selfRecursive && n == d.function.name) = true) :
    ∃ i ∈ d.around receiver handle, i.name = n := by
  rw [Bool.and_eq_true, beq_iff_eq] at hown
  refine ⟨⟨d.function.name, handle, .receiver⟩, List.mem_append_right _ ?_, hown.2.symm⟩
  rw [hmade.recursive, hmade.usage, if_pos hown.1]
  exact List.mem_singleton.mpr rfl

/-- **The body of a closure finds its captures bound.** -/
theorem threads_of_starts {c c₁ : Context} {f : Function} {d : Emit.Draft} {s : Scope}
    {receiver handle : String} (hc : c.Threads f) (hmade : d.MadeIn s)
    (hsame : s.SameLayers c.scope)
    (hstart : Emit.Starts d.frameKind d.usage (d.around receiver handle) d.function.formals c c₁) :
    c₁.Threads d.function := by
  have hs := hc.formalsBound hsame
  rw [hmade.usage] at hstart
  refine ⟨hstart.leveled, hstart.usage, formals_of_starts hstart hc.formals, ?_⟩
  intro n hread houter
  have hbound : s.BoundInFrames n := by
    rw [hstart.outer rfl, hsame.layers] at houter
    exact (Scope.exists_frame_iff (hsame.symm.leveled hc.leveled)).mpr houter
  by_cases hassigned : (Usage.ofFunction d.function).isAssigned n
  · exact .inr (.inl hassigned)
  by_cases hglobal : (Usage.ofFunction d.function).isGlobal n
  · exact .inr (.inr hglobal)
  refine .inl ?_
  obtain ⟨formals, hnames, hinner⟩ := hstart.inner rfl
  rw [hinner]
  refine ⟨_, List.mem_singleton.mpr rfl, Emit.binds_startLayer.mpr ?_⟩
  by_cases hformal : d.function.hasFormal n
  · rw [hnames]
    exact .inr (List.mem_of_elem_eq_true hformal)
  by_cases hown : ((Usage.ofFunction d.function).selfRecursive && n == d.function.name) = true
  · exact .inl (exists_around_of_own hmade receiver handle hown)
  rw [Bool.not_eq_true] at hassigned hglobal hformal hown
  have hcandidate : n ∈ (Usage.ofFunction d.function).candidates := by
    rw [Usage.candidates, Usage.mem_foldl_pushNew, List.append_assoc]
    exact .inr (List.mem_append_left _ (List.mem_of_elem_eq_true hread))
  exact .inl (exists_around_of_frees hs hmade receiver handle
    ⟨hcandidate, hformal, hown, hglobal, hassigned⟩ hbound)

/-! ## Observations -/

/-- What is observed of a closure: its environment is filled from the variables that the names
stand for, and it captures a name from outside the function around it exactly if that function
binds the name or declares it global, and has not bound it yet. -/
def Observation.Threaded : Observation → Prop
  | .closure g captures s within => ∃ f, within = some (Usage.ofFunction f) ∧
      (∀ c ∈ captures.toList, c.source = s.ident c.name) ∧
      ∀ n, (∃ c ∈ captures.toList, c.name = n ∧ (s.lookupInFunction n).isNone) ↔
        g.Frees n ∧ s.BoundInFrames n ∧ (s.lookupInFunction n).isNone ∧
          ((Usage.ofFunction f).isAssigned n ∨ (Usage.ofFunction f).isGlobal n)

theorem threaded_of_resolve {c : Context} {f g : Function} {qualname : String}
    {r : Capture.Resolved} (hc : c.Threads f)
    (hr : Capture.resolve g (Usage.ofFunction g) c.scope qualname = .ok r)
    (hg : ∀ n, g.Frees n → c.Knows n) :
    Observation.Threaded (.closure g r.captures c.scope c.current.usage) := by
  refine ⟨f, hc.usage, fun x hx => Capture.source_of_mem_captures hr hx, fun n => ?_⟩
  have hname := Capture.captures_name_iff (n := n) (hc.formalsBound (.refl _)) hr
  constructor
  · rintro ⟨x, hx, hxname, hnone⟩
    obtain ⟨hfree, hbound⟩ := hname.mp ⟨x, hx, hxname⟩
    have hunbound : ¬ (c.scope.lookupInFunction n).isSome := by
      rw [Option.isNone_iff_eq_none.mp hnone]
      exact Bool.false_ne_true
    have hinner : ¬ ∃ l ∈ Layer.inner c.scope.layers, l.Binds n := by
      rwa [← Scope.lookupInFunction_isSome hc.leveled]
    have hread : (Usage.ofFunction f).isRead n :=
      (hg n hfree _ hc.usage).resolve_right hunbound
    have houter : ∃ l ∈ (Layer.outer c.scope.layers).dropLast, l.Binds n := by
      obtain ⟨l, hl, hbinds⟩ := (Scope.exists_frame_iff hc.leveled).mp hbound
      rcases Layer.mem_inner_or_outer hl with hin | hout
      · exact absurd ⟨l, hin, hbinds⟩ hinner
      · exact ⟨l, hout, hbinds⟩
    exact ⟨hfree, hbound, hnone, (hc.threaded n hread houter).resolve_left hinner⟩
  · rintro ⟨hfree, hbound, hnone, -⟩
    obtain ⟨x, hx, hxname⟩ := hname.mpr ⟨hfree, hbound⟩
    exact ⟨x, hx, hxname, hnone⟩

/-- **Everything that is observed while a body is written is threaded.** -/
theorem Run.threaded {c c' : Context} (h : Run c c') :
    ∀ {f : Function}, c.Threads f → (∀ o ∈ c.trace, o.Threaded) → ∀ o ∈ c'.trace, o.Threaded := by
  induction h with
  | refl c => exact fun _ ho => ho
  | trans h _ ih ih' =>
    intro f hc ho
    exact ih' (hc.continues (h.continues hc.leveled)) (ih hc ho)
  | still _ htrace _ =>
    intro f _ ho
    rwa [htrace]
  | payload | hoist | wrapper => exact fun _ ho => ho
  | assign _ _ _ _ _ _ ih | update _ _ _ _ ih => exact fun hc ho => ih hc ho
  | catching | handling =>
    rename_i ih
    intro f hc ho
    exact ih ⟨hc.leveled, hc.usage, hc.formals, hc.threaded⟩ ho
  | block _ _ ih =>
    intro f hc ho
    exact ih hc.pushBlock ho
  | resolve c g qualname r hr hg =>
    intro f hc ho
    exact List.forall_mem_cons.mpr ⟨threaded_of_resolve hc hr hg, ho⟩
  | body d s receiver handle hmade hreserves _ hstart _ _ _ ih =>
    intro f hc ho
    refine ih (threads_of_starts hc hmade hreserves.sameLayers hstart) ?_
    rwa [hstart.trace]
  | rewind _ ih =>
    intro f hc ho
    exact ih hc ho

/-- **Captures are threaded, names that a function owns apart.** In every round of a conversion,
a closure made in the body of `f` captures a name that is bound outside the frames of `f` exactly
if the name is free in the closure, a function around `f` binds it, and `f` itself binds it or
declares it global without having bound it yet. Every other capture is bound in the frames of
`f`, and is filled from the variable that the name stands for there. -/
theorem captured_outside_iff (m : Module) (w : Settings) (round : Nat) {g : Function}
    {captures : CaptureSet} {s : Scope} {within : Option Usage}
    (h : .closure g captures s within ∈ ((m.round w round).pass m w).trace) :
    ∃ f, within = some (Usage.ofFunction f) ∧
      (∀ c ∈ captures.toList, c.source = s.ident c.name) ∧
      ∀ n, (∃ c ∈ captures.toList, c.name = n ∧ (s.lookupInFunction n).isNone) ↔
        g.Frees n ∧ s.BoundInFrames n ∧ (s.lookupInFunction n).isNone ∧
          ((Usage.ofFunction f).isAssigned n ∨ (Usage.ofFunction f).isGlobal n) :=
  pass_observes
    (fun _ _ _ _ hmodule hstart hrun ho => hrun.threaded (threads_of_module hmodule hstart)
      (by rwa [hstart.trace]))
    m _ w _ _ h

/-- `g` reads the `x` of `h`, since the `x` of `f` is bound only after it. -/
def lateBinding : Module :=
  { name := "late"
    functions := [{
      name := "h"
      body := [
        .assign (.name "x") (.constant (.int 1)) none,
        .functionDef {
          name := "f"
          body := [
            .functionDef { name := "g", body := [.ret (some (.name "x"))] },
            .assign (.name "x") (.constant (.int 2)) none] }] }] }

/-- An oracle that knows nothing. -/
def silentOracle : Oracle where
  returnType _ := none
  exprType _ _ := .unknown
  paramType _ _ := none
  isFallible _ := false

/-- The closure holds something that the function around it does not bind. -/
def Observation.takesFromOutside : Observation → Bool
  | .closure _ captures s _ => captures.toList.any fun c => (s.lookupInFunction c.name).isNone

/-- The closure of `g` is filled from a variable of `h`, inside the body of `f`. -/
theorem captured_outside_lateBinding :
    ∃ g captures s within, .closure g captures s within ∈
        ((lateBinding.round ⟨silentOracle, {}⟩ 0).pass lateBinding ⟨silentOracle, {}⟩).trace ∧
      ∃ f, within = some (Usage.ofFunction f) ∧
        ∃ c ∈ captures.toList, (s.lookupInFunction c.name).isNone ∧ s.BoundInFrames c.name ∧
          ((Usage.ofFunction f).isAssigned c.name ∨ (Usage.ofFunction f).isGlobal c.name) := by
  have hobserved : ((lateBinding.round ⟨silentOracle, {}⟩ 0).pass lateBinding
      ⟨silentOracle, {}⟩).trace.any Observation.takesFromOutside = true := by
    decide +kernel
  obtain ⟨o, ho, houtside⟩ := List.any_eq_true.mp hobserved
  cases o with
  | closure g captures s within =>
    obtain ⟨c, hc, hnone⟩ := List.any_eq_true.mp houtside
    obtain ⟨f, hwithin, -, hiff⟩ := captured_outside_iff lateBinding ⟨silentOracle, {}⟩ 0 ho
    obtain ⟨-, hbound, -, howned⟩ := (hiff c.name).mp ⟨c, hc, rfl, hnone⟩
    exact ⟨g, captures, s, within, ho, f, hwithin, c, hc, hnone, hbound, howned⟩

end ClosureConversion
