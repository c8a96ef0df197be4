import ClosureConversion.Proofs.Emit.Exits
import ClosureConversion.Proofs.Emit.Oblivious
import ClosureConversion.Proofs.Emit.Run
import ClosureConversion.Proofs.Scope.Stacks

/-! # Balanced computations -/

set_option autoImplicit false

namespace ClosureConversion

/-- The diagnostic is no error and does not speak of the converter itself. -/
def Diagnostic.IsAdvice (d : Diagnostic) : Prop := d.code ≠ .internalError ∧ d.isError = false

/-- Nothing but advice was added, behind what was there. -/
def Report.Advised (r r' : Report) : Prop := ∃ added, r' = r ++ added ∧ ∀ d ∈ added, d.IsAdvice

namespace Report.Advised

variable {r r₁ r₂ : Report}

theorem refl (r : Report) : r.Advised r := ⟨[], (List.append_nil r).symm, fun _ hd => by cases hd⟩

theorem trans (h : r.Advised r₁) (h' : r₁.Advised r₂) : r.Advised r₂ := by
  obtain ⟨added, rfl, hadded⟩ := h
  obtain ⟨more, rfl, hmore⟩ := h'
  refine ⟨added ++ more, List.append_assoc .., fun d hd => ?_⟩
  rcases List.mem_append.mp hd with hfirst | hlater
  · exact hadded d hfirst
  · exact hmore d hlater

theorem mem {d : Diagnostic} (h : r.Advised r₁) (hd : d ∈ r₁) : d ∈ r ∨ d.IsAdvice := by
  obtain ⟨added, rfl, hadded⟩ := h
  exact (List.mem_append.mp hd).imp_right (hadded d)

/-- What was added can be cut off. -/
theorem take (h : r.Advised r₁) : r₁.take r.length = r := by
  obtain ⟨added, rfl, -⟩ := h
  exact List.take_left

end Report.Advised

/-- The stacks are as they were, nothing but advice was reported, and no closure was struck off the
list. Pending statements stay at the outermost level. -/
structure Context.Balanced (c c' : Context) : Prop where
  scope : c.scope.Keeps c'.scope
  current : c.current.Same c'.current
  report : c.report.Advised c'.report
  closures : c.closures <+: c'.closures
  level : c.prelude.level = 0 → c'.prelude.level = 0

namespace Context

variable {c c₁ c₂ : Context}

/-- A change of nothing but the scope, the state of the function and the text of declarations. -/
theorem balanced_of_same (hscope : c.scope.Keeps c₁.scope) (hcurrent : c.current.Same c₁.current)
    (hsame : (c₁.report, c₁.closures, c₁.prelude) = (c.report, c.closures, c.prelude)) :
    c.Balanced c₁ := by
  obtain ⟨hreport, hrest⟩ := Prod.mk.inj hsame
  obtain ⟨hclosures, hprelude⟩ := Prod.mk.inj hrest
  refine ⟨hscope, hcurrent, ?_, ?_, fun hlevel => ?_⟩
  · rw [hreport]
    exact .refl _
  · exact hclosures ▸ List.prefix_rfl
  · rw [hprelude]
    exact hlevel

theorem Balanced.refl (c : Context) : c.Balanced c := balanced_of_same (.refl _) (.refl _) rfl

theorem Balanced.trans (h : c.Balanced c₁) (h' : c₁.Balanced c₂) : c.Balanced c₂ :=
  ⟨h.scope.trans h'.scope, h.current.trans h'.current, h.report.trans h'.report,
    h.closures.trans h'.closures, fun hlevel => h'.level (h.level hlevel)⟩

end Context

/-- The result is no internal error. -/
def Blameless {α : Type} (r : Except ConvertError α) : Prop := ∀ what, r ≠ .error (.internal what)

theorem blameless_ok {α : Type} (a : α) : Blameless (.ok a) := fun _ h => by cases h

theorem Blameless.map {α β : Type} {r : Except ConvertError α} (h : Blameless r) (f : α → β) :
    Blameless (r.map f) := by
  cases r with
  | ok a => exact blameless_ok _
  | error e =>
    intro what heq
    obtain rfl : e = .internal what := by
      injection heq
    exact h what rfl

namespace Emit

variable {α β : Type}

/-- The computation leaves the stacks as they were, whether it succeeds or fails, and no internal
error comes of it. -/
def Balanced (x : Emit α) : Prop :=
  ∀ (w : Settings) (c : Context), c.Balanced (x w c).2 ∧ Blameless (x w c).1

/-! ## One after the other -/

theorem Balanced.bind {x : Emit α} {f : α → Emit β} (hx : Balanced x) (hf : ∀ a, Balanced (f a)) :
    Balanced (x >>= f) := by
  intro w c
  have hstep := hx w c
  rw [bind_apply]
  rcases hxc : x w c with ⟨r, c₁⟩
  rw [hxc] at hstep
  cases r with
  | error e => exact ⟨hstep.1, fun what heq => hstep.2 what (by cases heq; rfl)⟩
  | ok a => exact ⟨hstep.1.trans (hf a w c₁).1, (hf a w c₁).2⟩

/-! ## Brackets -/

/-- **What runs in a frame of its own is balanced**: the frame that was entered is the one on top,
so leaving it cannot fail. -/
theorem Balanced.inFrame (kind : FrameKind) {x : Emit α} (hx : Balanced x) :
    Balanced (inFrame kind x) := by
  intro w c
  obtain ⟨hinside, hresult⟩ := hx w { c with scope := c.scope.push kind }
  unfold Emit.inFrame
  rcases hxc : x w { c with scope := c.scope.push kind } with ⟨r, c₁⟩
  rw [hxc] at hinside hresult
  obtain ⟨left, hpop, hkeeps⟩ := Scope.exists_pop_of_keeps hinside.scope
  dsimp only
  rw [hpop]
  exact ⟨⟨hkeeps, hinside.current, hinside.report, hinside.closures, hinside.level⟩, hresult⟩

theorem Balanced.isolated {x : Emit α} (hx : Balanced x) : Balanced (isolated x) := by
  intro w c
  obtain ⟨hinside, hresult⟩ := hx w { c with prelude := {} }
  exact ⟨⟨hinside.scope, hinside.current, hinside.report, hinside.closures, id⟩, hresult.map _⟩

theorem Balanced.inFunction (state : FunctionState) {x : Emit α} (hx : Balanced x) :
    Balanced (inFunction state x) := by
  intro w c
  obtain ⟨hinside, hresult⟩ := hx w { c with current := state }
  exact ⟨⟨hinside.scope, .refl _, hinside.report, hinside.closures, hinside.level⟩, hresult.map _⟩

theorem Balanced.catching (target : CatchTarget) {x : Emit α} (hx : Balanced x) :
    Balanced (catching target x) := by
  intro w c
  obtain ⟨hinside, hresult⟩ :=
    hx w { c with current := { c.current with catches := target :: c.current.catches } }
  obtain ⟨hqualname, hspan, hplan, husage, hcatches, herrors⟩ := hinside.current
  have htail := congrArg List.tail hcatches
  exact ⟨⟨hinside.scope, ⟨hqualname, hspan, hplan, husage, htail, herrors⟩, hinside.report,
    hinside.closures, hinside.level⟩, hresult⟩

theorem Balanced.handling (payload : String) {x : Emit α} (hx : Balanced x) :
    Balanced (handling payload x) := by
  intro w c
  obtain ⟨hinside, hresult⟩ :=
    hx w { c with current := { c.current with
      handlerErrors := payload :: c.current.handlerErrors } }
  obtain ⟨hqualname, hspan, hplan, husage, hcatches, herrors⟩ := hinside.current
  have htail := congrArg List.tail herrors
  exact ⟨⟨hinside.scope, ⟨hqualname, hspan, hplan, husage, hcatches, htail⟩, hinside.report,
    hinside.closures, hinside.level⟩, hresult⟩

theorem Balanced.looping {x : Emit α} (hx : Balanced x) : Balanced (looping x) := by
  intro w c
  obtain ⟨hinside, hresult⟩ :=
    hx w { c with current := { c.current with loops := c.current.loops + 1 } }
  obtain ⟨hqualname, hspan, hplan, husage, hcatches, herrors⟩ := hinside.current
  exact ⟨⟨hinside.scope, ⟨hqualname, hspan, hplan, husage, hcatches, herrors⟩, hinside.report,
    hinside.closures, hinside.level⟩, hresult⟩

theorem noteAll_balanced (notes : List Note) : Balanced (noteAll notes) :=
  fun _ _ => ⟨Context.balanced_of_same (.refl _) ⟨rfl, rfl, rfl, rfl, rfl, rfl⟩ rfl, blameless_ok _⟩

theorem leaveByError_balanced (op : Operation) (exit : Fault → Exit) :
    Balanced (leaveByError op exit) :=
  fun _ _ => ⟨Context.balanced_of_same (.refl _) ⟨rfl, rfl, rfl, rfl, rfl, rfl⟩ rfl, blameless_ok _⟩

/-- A closure's body is written once, or once more from the scope, report and closures of the
start. -/
theorem settledParts_cases (d : Draft) (body : Buffer → Emit Buffer) (w : Settings) (c : Context) :
    settledParts d body w c = closureParts d none body w c ∨
      ∃ parts c₁, closureParts d none body w c = (.ok parts, c₁) ∧
        settledParts d body w c = closureParts d (some true) body w (rewound c c₁ d.qualname) := by
  rw [settledParts_apply]
  rcases closureParts d none body w c with ⟨r, c₁⟩
  cases r with
  | error e => exact .inl rfl
  | ok parts =>
    dsimp only
    split
    · exact .inr ⟨parts, c₁, rfl, rfl⟩
    · exact .inl rfl

section Rewound

variable {c c₁ : Context}

/-- What was reported since the start is cut off again. -/
theorem report_rewound (h : c.Balanced c₁) (qualname : String) :
    (rewound c c₁ qualname).report = c.report := h.report.take

/-- So are the closures listed since the start. -/
theorem closures_rewound (h : c.Balanced c₁) (qualname : String) :
    (rewound c c₁ qualname).closures = c.closures :=
  (List.prefix_iff_eq_take.mp h.closures).symm

theorem balanced_rewound (h : c.Balanced c₁) (qualname : String) :
    c.Balanced (rewound c c₁ qualname) := by
  refine ⟨.refl _, h.current, ?_, ?_, h.level⟩
  · rw [report_rewound h]
    exact .refl _
  · exact (closures_rewound h qualname) ▸ List.prefix_rfl

end Rewound

theorem Balanced.settledParts {d : Draft} {body : Buffer → Emit Buffer}
    (h : ∀ assumed, Balanced (closureParts d assumed body)) : Balanced (settledParts d body) := by
  intro w c
  have hfirst := h none w c
  rcases settledParts_cases d body w c with heq | ⟨parts, c₁, hparts, heq⟩
  · rw [heq]
    exact hfirst
  · rw [heq]
    rw [hparts] at hfirst
    have hrewound := balanced_rewound hfirst.1 d.qualname
    have hagain := h (some true) w (rewound c c₁ d.qualname)
    exact ⟨hrewound.trans hagain.1, hagain.2⟩

theorem flushPrelude_balanced (out : Buffer) : Balanced (flushPrelude out) := by
  intro w c
  unfold flushPrelude
  split
  · exact ⟨.refl c, blameless_ok _⟩
  · exact ⟨⟨.refl _, .refl _, .refl _, List.prefix_rfl, fun _ => rfl⟩, blameless_ok _⟩

/-! ## Edits -/

/-- What edits leave alone: the closures made so far, their declarations, and the pending
statements. -/
def products (c : Context) : List ClosureSummary × String × Buffer :=
  (c.closures, c.declarations, c.prelude)

/-- The computation is balanced, makes and declares no closure, and neither queues nor flushes
statements. It does not look into the journal and the trace, and control leaves it by errors
only. -/
structure Annotates (x : Emit α) : Prop where
  balanced : Balanced x
  products : ∀ (w : Settings) (c : Context), products (x w c).2 = products c
  oblivious : Oblivious x
  passes : Passes (.held false) x

/-- In addition nothing is noted. -/
structure Edits (x : Emit α) : Prop extends Annotates x where
  notes : ∀ (w : Settings) (c : Context), (x w c).2.current.notes = c.current.notes

theorem Annotates.bind {x : Emit α} {f : α → Emit β} (hx : Annotates x)
    (hf : ∀ a, Annotates (f a)) : Annotates (x >>= f) := by
  refine ⟨hx.balanced.bind fun a => (hf a).balanced, fun w c => ?_,
    hx.oblivious.bind fun a => (hf a).oblivious, hx.passes.bind fun a => (hf a).passes⟩
  exact snd_bind (hx.products w c) fun a c₁ _ hfirst => ((hf a).products w c₁).trans hfirst

theorem Edits.bind {x : Emit α} {f : α → Emit β} (hx : Edits x) (hf : ∀ a, Edits (f a)) :
    Edits (x >>= f) :=
  ⟨hx.toAnnotates.bind fun a => (hf a).toAnnotates, fun w c =>
    snd_bind (hx.notes w c) fun a c₁ _ hfirst => ((hf a).notes w c₁).trans hfirst⟩

section Products

variable {x : Emit α} {w : Settings} {c c' : Context} {a : α}

theorem Annotates.closures (h : Annotates x) (heq : x w c = (.ok a, c')) : c'.closures = c.closures := by
  have hproducts := congrArg Prod.fst (h.products w c)
  rwa [heq] at hproducts

theorem Annotates.declarations (h : Annotates x) (heq : x w c = (.ok a, c')) :
    c'.declarations = c.declarations := by
  have hproducts := congrArg (·.2.1) (h.products w c)
  rwa [heq] at hproducts

theorem Annotates.prelude (h : Annotates x) (heq : x w c = (.ok a, c')) : c'.prelude = c.prelude := by
  have hproducts := congrArg (·.2.2) (h.products w c)
  rwa [heq] at hproducts

end Products

end Emit

end ClosureConversion
