import ClosureConversion.Emit.Closure

/-! # Oblivious computations -/

set_option autoImplicit false

namespace ClosureConversion

/-- The context without its journal and its trace. -/
def Context.core (c : Context) : Context := { c with journal := [], trace := [] }

namespace Emit

variable {α β : Type} {w : Settings} {c c' : Context}

/-- An answer, and the core of the context that comes with it. -/
def coreOf (r : Except ConvertError α × Context) : Except ConvertError α × Context :=
  (r.1, r.2.core)

/-- The journal and the trace have no influence on the rest. -/
def Oblivious (x : Emit α) : Prop :=
  ∀ (w : Settings) (c : Context), coreOf (x w c.core) = coreOf (x w c)

theorem Oblivious.congr {x : Emit α} (hx : Oblivious x) (hcore : c.core = c'.core) :
    coreOf (x w c) = coreOf (x w c') := by
  rw [← hx w c, ← hx w c', hcore]

theorem Oblivious.bind {x : Emit α} {f : α → Emit β} (hx : Oblivious x)
    (hf : ∀ a, Oblivious (f a)) : Oblivious (x >>= f) := by
  intro w c
  have hstep := hx w c
  rw [bind_apply, bind_apply]
  rcases hfirst : x w c.core with ⟨r, d⟩
  rcases hsecond : x w c with ⟨r', d'⟩
  rw [hfirst, hsecond] at hstep
  obtain ⟨rfl, hcore⟩ := Prod.mk.inj hstep
  cases r with
  | error e => exact congrArg (Prod.mk _) hcore
  | ok a => exact (hf a).congr hcore

/-! ## Brackets -/

/-- What is entered before a computation and left after it has to be oblivious too. -/
theorem Oblivious.bracket {x : Emit α} (hx : Oblivious x) (enter : Context → Context)
    (leave : Context → Except ConvertError α × Context → Except ConvertError β × Context)
    (henter : ∀ c, enter c.core = (enter c).core)
    (hleave : ∀ c r d, coreOf (leave c.core (r, d.core)) = coreOf (leave c (r, d))) :
    Oblivious fun w c => leave c (x w (enter c)) := by
  intro w c
  have hinside := hx w (enter c)
  dsimp only
  rw [henter]
  rcases hfirst : x w (enter c).core with ⟨r, d⟩
  rcases hsecond : x w (enter c) with ⟨r', d'⟩
  rw [hfirst, hsecond] at hinside
  obtain ⟨rfl, hcore⟩ := Prod.mk.inj hinside
  calc coreOf (leave c.core (r, d))
      = coreOf (leave c.core (r, d.core)) := (hleave c.core r d).symm
    _ = coreOf (leave c.core (r, d'.core)) := by rw [show d.core = d'.core from hcore]
    _ = coreOf (leave c (r, d')) := hleave c r d'

/-- What becomes of an outcome when the frame around it is left. -/
def leaveFrame (p : Except ConvertError α × Context) : Except ConvertError α × Context :=
  match p.2.scope.pop with
  | .ok left => (p.1, { p.2 with scope := left.scope, journal := p.2.journal.record left.events })
  | .error e => (p.1.bind fun _ => .error e, p.2)

/-- Leaving a frame depends on the scope alone, and what it tells goes to the journal. -/
theorem Oblivious.inFrame (kind : FrameKind) {x : Emit α} (hx : Oblivious x) :
    Oblivious (inFrame kind x) := by
  refine hx.bracket (fun c => { c with scope := c.scope.push kind }) (fun _ => leaveFrame)
    (fun _ => rfl) fun c r d => ?_
  dsimp only [leaveFrame]
  rw [show d.core.scope = d.scope from rfl]
  split <;> rfl

theorem Oblivious.isolated {x : Emit α} (hx : Oblivious x) : Oblivious (isolated x) :=
  hx.bracket (fun c => { c with prelude := {} })
    (fun c p => (p.1.map fun a => (a, p.2.prelude.text), { p.2 with prelude := c.prelude }))
    (fun _ => rfl) fun _ _ _ => rfl

theorem Oblivious.inFunction (state : FunctionState) {x : Emit α} (hx : Oblivious x) :
    Oblivious (inFunction state x) :=
  hx.bracket (fun c => { c with current := state })
    (fun c p => (p.1.map fun a => (a, p.2.current), { p.2 with current := c.current }))
    (fun _ => rfl) fun _ _ _ => rfl

theorem Oblivious.catching (target : CatchTarget) {x : Emit α} (hx : Oblivious x) :
    Oblivious (catching target x) :=
  hx.bracket
    (fun c => { c with current := { c.current with catches := target :: c.current.catches } })
    (fun _ p => (p.1, { p.2 with current := { p.2.current with
      catches := p.2.current.catches.tail } }))
    (fun _ => rfl) fun _ _ _ => rfl

theorem Oblivious.handling (payload : String) {x : Emit α} (hx : Oblivious x) :
    Oblivious (handling payload x) :=
  hx.bracket
    (fun c => { c with current := { c.current with
      handlerErrors := payload :: c.current.handlerErrors } })
    (fun _ p => (p.1, { p.2 with current := { p.2.current with
      handlerErrors := p.2.current.handlerErrors.tail } }))
    (fun _ => rfl) fun _ _ _ => rfl

theorem Oblivious.looping {x : Emit α} (hx : Oblivious x) : Oblivious (looping x) :=
  hx.bracket
    (fun c => { c with current := { c.current with loops := c.current.loops + 1 } })
    (fun _ p => (p.1, { p.2 with current := { p.2.current with
      loops := p.2.current.loops - 1 } }))
    (fun _ => rfl) fun _ _ _ => rfl

/-! ## Closures that are written twice -/

/-- The context in which the body of a closure is written again. -/
def rewound (c now : Context) (qualname : String) : Context :=
  { now with scope := c.scope, report := now.report.take c.report.length,
             declarations := c.declarations, closures := now.closures.take c.closures.length,
             counter := c.counter, journal := now.journal.record [.writtenAgain qualname] }

theorem settledParts_apply (d : Draft) (body : Buffer → Emit Buffer) (w : Settings)
    (c : Context) :
    settledParts d body w c =
      match closureParts d none body w c with
      | (.ok parts, c₁) =>
        if d.representation.recursive && parts.fallible && !parts.assumedFallible then
          closureParts d (some true) body w (rewound c c₁ d.qualname)
        else (.ok parts, c₁)
      | (.error e, c₁) => (.error e, c₁) := by
  unfold settledParts
  rw [bind_apply]
  dsimp only [context]
  rw [bind_apply]
  rcases closureParts d none body w c with ⟨r, c₁⟩
  cases r with
  | error e => rfl
  | ok parts =>
    dsimp only
    split <;> rfl

theorem Oblivious.settledParts {d : Draft} {body : Buffer → Emit Buffer}
    (h : ∀ assumed, Oblivious (closureParts d assumed body)) :
    Oblivious (settledParts d body) := by
  intro w c
  have hfirst := h none w c
  rw [settledParts_apply, settledParts_apply]
  rcases hwritten : closureParts d none body w c.core with ⟨r, c₁⟩
  rcases hwritten' : closureParts d none body w c with ⟨r', c₁'⟩
  rw [hwritten, hwritten'] at hfirst
  obtain ⟨rfl, hcore⟩ := Prod.mk.inj hfirst
  cases r with
  | error e => exact congrArg (Prod.mk _) hcore
  | ok parts =>
    dsimp only
    split
    · -- what is rewound to is not the journal and not the trace
      have hrewound := congrArg
        (fun now => { now with scope := c.scope, report := now.report.take c.report.length,
                               declarations := c.declarations,
                               closures := now.closures.take c.closures.length,
                               counter := c.counter }) hcore
      exact (h (some true)).congr hrewound
    · exact congrArg (Prod.mk _) hcore

theorem flushPrelude_oblivious (out : Buffer) : Oblivious (flushPrelude out) := by
  intro w c
  unfold flushPrelude
  rw [show c.core.prelude = c.prelude from rfl]
  split <;> rfl

end Emit

end ClosureConversion
