import ClosureConversion.Proofs.Emit.Composed
import ClosureConversion.Proofs.Emit.Tidy

/-! # Writing a closure again -/

set_option autoImplicit false

namespace ClosureConversion

namespace Emit

variable {α β : Type}

/-! ## The function around -/

/-- The computation leaves what `p` reads of the context as it was, whether it succeeds or fails. -/
def Leaves {γ : Type} (p : Context → γ) (x : Emit α) : Prop :=
  ∀ (w : Settings) (c : Context), p (x w c).2 = p c

section Leaves

variable {γ : Type} {p : Context → γ}

theorem Leaves.bind {x : Emit α} {f : α → Emit β} (hx : Leaves p x) (hf : ∀ a, Leaves p (f a)) :
    Leaves p (x >>= f) :=
  fun w c => snd_bind (hx w c) fun a c₁ _ hfirst => (hf a w c₁).trans hfirst

theorem Leaves.pure (a : α) : Leaves p (pure a : Emit α) := fun _ _ => rfl

theorem Leaves.sequential : Sequential (Leaves p) := ⟨.pure, .bind⟩

/-- A formal is claimed and declared; all formals are, if each one is. -/
theorem declareFormals_leaves {f : Function} {types : List Ty} {u : Usage}
    (h : ∀ n ∈ f.formals, ∀ ty, Leaves p (declareFormal u n ty)) :
    Leaves p (declareFormals f types u) := by
  refine Leaves.sequential.sequence fun x hx => ?_
  obtain ⟨q, hq, rfl⟩ := List.mem_map.mp hx
  exact h q.1 (List.of_mem_zip hq).1 q.2

end Leaves

/-- The computation leaves the state of the current function alone. -/
abbrev Aside (x : Emit α) : Prop := Leaves Context.current x

theorem declareAs_aside (name ident : String) (b : Binding) : Aside (declareAs name ident b) :=
  fun _ _ => rfl

theorem claimReceivers_aside (shape : Shape) : Aside (claimReceivers shape) := by
  cases shape <;> exact fun _ _ => rfl

theorem declareCaptures_aside (d : Draft) (receiver : Option String) :
    Aside (declareCaptures d receiver) := by
  cases receiver with
  | none => exact .pure _
  | some receiver =>
    refine (Leaves.sequential.sequence fun x hx => ?_).bind fun _ => .pure _
    obtain ⟨c, -, rfl⟩ := List.mem_map.mp hx
    exact declareAs_aside _ _ _

theorem declareHandle_aside (d : Draft) (assumed : Option Bool) (selfParam : Option String) :
    Aside (declareHandle d assumed selfParam) := by
  unfold declareHandle
  split
  · exact declareAs_aside _ _ _
  · exact .pure _

theorem enterClosure_aside (d : Draft) (assumed : Option Bool) :
    Aside (enterClosure d assumed) := by
  refine (claimReceivers_aside _).bind fun ⟨envParam, selfParam⟩ => ?_
  refine (declareCaptures_aside d _).bind fun _ => ?_
  refine (declareHandle_aside d assumed _).bind fun _ => ?_
  refine (declareFormals_leaves fun _ _ _ _ _ => rfl).bind fun formals => ?_
  cases d.representation.recursive <;> exact fun _ _ => rfl

/-- The body runs as another function; afterwards the one around is back, whatever the body did. -/
theorem inFunction_aside (state : FunctionState) (x : Emit α) : Aside (inFunction state x) :=
  fun _ _ => rfl

theorem inFrame_aside {x : Emit α} (hx : Aside x) (kind : FrameKind) : Aside (inFrame kind x) := by
  intro w c
  have hinside := hx w { c with scope := c.scope.push kind }
  unfold Emit.inFrame
  rcases hxc : x w { c with scope := c.scope.push kind } with ⟨r, c₁⟩
  rw [hxc] at hinside
  dsimp only
  split <;> exact hinside

theorem closureParts_aside (d : Draft) (assumed : Option Bool) (body : Buffer → Emit Buffer) :
    Aside (closureParts d assumed body) := by
  refine inFrame_aside ((enterClosure_aside d assumed).bind fun e => ?_) _
  refine Leaves.bind ?_ fun written => .pure _
  refine Leaves.bind (fun _ _ => rfl) fun ⟨state, formals⟩ => ?_
  exact (inFunction_aside state _).bind fun _ => .pure _

/-! ## What is undone -/

variable {d : Draft} {body : Buffer → Emit Buffer} {parts : Closure.Parts} {w : Settings}
  {c c₁ : Context}

/-- A body that leaves nothing pending leaves the prelude as it found it, down to the level. -/
theorem prelude_closureParts {assumed : Option Bool} (hcomposed : ∀ out, Composed .free (body out))
    (htidy : Tidy body) (hc : c.prelude = {})
    (h : closureParts d assumed body w c = (.ok parts, c₁)) : c₁.prelude = {} := by
  have hbalanced := ((closureParts_composed (k := .free) d assumed hcomposed).balanced w c).1
  rw [h] at hbalanced
  have hlevel : c₁.prelude.level = 0 := hbalanced.level (by rw [hc])
  have hempty : c.prelude.isEmpty = true := by
    rw [hc]
    rfl
  have hclear := (closureParts_clears d assumed htidy w c parts c₁ hempty h).1
  have htext : c₁.prelude.text = "" := String.isEmpty_iff.mp hclear
  cases hprelude : c₁.prelude with
  | mk text level =>
    rw [hprelude] at hlevel htext
    rw [← htext, ← hlevel]

/-- **What writing a closure changed is undone**, in every part of the context but the journal and
the trace. -/
theorem core_rewound (hcomposed : ∀ out, Composed .free (body out)) (htidy : Tidy body)
    (hc : c.prelude = {}) (h : closureParts d none body w c = (.ok parts, c₁)) :
    (rewound c c₁ d.qualname).core = c.core := by
  have hbalanced := ((closureParts_composed (k := .free) d none hcomposed).balanced w c).1
  have hcurrent := closureParts_aside d none body w c
  rw [h] at hbalanced hcurrent
  have hprelude : c₁.prelude = c.prelude :=
    (prelude_closureParts hcomposed htidy hc h).trans hc.symm
  calc (rewound c c₁ d.qualname).core
      = { c.core with report := (rewound c c₁ d.qualname).report
                      closures := (rewound c c₁ d.qualname).closures
                      prelude := c₁.prelude
                      current := c₁.current } := rfl
    _ = c.core := by
      rw [report_rewound hbalanced, closures_rewound hbalanced, hprelude, hcurrent]
      rfl

/-! ## The two kinds of bodies -/

/-- A lambda is written as its one statement would be. -/
theorem returnValue_eq_stmts (e : Expr) : returnValue e (renderExpr e) = stmts [.ret (some e)] := by
  funext out w c
  rw [stmts, stmt, bind_apply]
  rcases returnValue e (renderExpr e) out w c with ⟨r, c₁⟩
  cases r with
  | error _ => rfl
  | ok out' =>
    show _ = stmts [] out' w c₁
    rw [stmts]
    rfl

end Emit

/-- How the body of a function is written: statement by statement, or the value of a lambda. -/
def Function.WrittenBy (f : Function) (body : Buffer → Emit Buffer) : Prop :=
  body = Emit.stmts f.body ∨
    ∃ e, f.body = [.ret (some e)] ∧ body = Emit.returnValue e (Emit.renderExpr e)

theorem Function.WrittenBy.eq_stmts {f : Function} {body : Buffer → Emit Buffer}
    (h : f.WrittenBy body) : body = Emit.stmts f.body := by
  rcases h with rfl | ⟨e, hbody, rfl⟩
  · rfl
  · rw [hbody]
    exact Emit.returnValue_eq_stmts e

/-- **The second writing starts where the first one did.** Let the body of a recursive closure be
written where nothing is pending, and let the result be discarded because the closure fails though
its own calls were written as if it could not. Then the body is written again in a context that
differs from the first one in nothing but the journal and the trace, and so the outcome is as if
the discarded attempt had never been made. -/
theorem settledParts_rewinds {d : Emit.Draft} {body : Buffer → Emit Buffer} {w : Settings}
    {c c₁ : Context} {parts : Closure.Parts} (hbody : d.function.WrittenBy body)
    (hfirst : Emit.closureParts d none body w { c with prelude := {} } = (.ok parts, c₁))
    (hdiscarded : d.representation.recursive && parts.fallible && !parts.assumedFallible) :
    let start : Context := { c with prelude := {} }
    let again := Emit.rewound start c₁ d.qualname
    Emit.settledParts d body w start = Emit.closureParts d (some true) body w again ∧
      again.core = start.core ∧
      Emit.coreOf (Emit.settledParts d body w start) =
        Emit.coreOf (Emit.closureParts d (some true) body w start) := by
  intro start again
  obtain rfl := hbody.eq_stmts
  have hcomposed := Emit.body_composed d.function.body
  have hagain : Emit.settledParts d (Emit.stmts d.function.body) w start =
      Emit.closureParts d (some true) (Emit.stmts d.function.body) w again := by
    rw [Emit.settledParts_apply, hfirst]
    exact if_pos hdiscarded
  have hcore : again.core = start.core :=
    Emit.core_rewound hcomposed (Emit.stmts_tidy _) rfl hfirst
  refine ⟨hagain, hcore, ?_⟩
  rw [hagain]
  exact (Emit.closureParts_composed (k := .free) d (some true) hcomposed).oblivious.congr hcore

/-- A function that calls itself and joins strings that it binds itself. -/
def joining (name : String) (declared : Option Ty) (inner : List Stmt) : Function :=
  { name
    params := [{ name := "ps", declared }]
    body := inner ++ [
      .assign (.name "x") (.constant (.str "a")) none,
      .expr (.binary .add (.name "x") (.name "x")),
      .forLoop (.tuple [.name "y", .name "z"]) (.name "ps") [.expr (.name "y")],
      .expr (.call (.name name) [.name "ps"] [])] }

/-- One such function inside another. -/
def joiningTwice : Function :=
  joining "f" (some (.list (.tuple [.int, .str]))) [.functionDef (joining "g" none [])]

/-- The draft of the outer one, made inside another function. -/
def joiningDraft : Emit.Draft :=
  { function := joiningTwice
    qualname := "outer.f"
    usage := Usage.ofFunction joiningTwice
    representation := { captures := .empty, recursive := true }
    wrapper := "f__Closure"
    layout := .aggregate
    paramTypes := [.list (.tuple [.int, .str])]
    declaredReturn := none }

def joiningStart : Context :=
  { scope := ({} : Scope).pushFunction "outer" [], current := { qualname := "outer" } }

/-- The first attempt reports a formal of unknown type, makes the inner closure, which is itself
written twice, and uses up three numbers. All of that is undone. -/
theorem settledParts_rewinds_joiningTwice :
    ∃ parts c₁, Emit.closureParts joiningDraft none (Emit.stmts joiningTwice.body)
        ⟨Table.oracle {}, {}⟩ joiningStart = (.ok parts, c₁) ∧
      (c₁.report.length = 1 ∧ c₁.closures.length = 1 ∧ c₁.counter = 3) ∧
      (Emit.rewound joiningStart c₁ "outer.f").core = joiningStart.core := by
  have hattempt : (match Emit.closureParts joiningDraft none (Emit.stmts joiningTwice.body)
        ⟨Table.oracle {}, {}⟩ joiningStart with
      | (.ok parts, c₁) =>
        (joiningDraft.representation.recursive && parts.fallible && !parts.assumedFallible) &&
          decide (c₁.report.length = 1 ∧ c₁.closures.length = 1 ∧ c₁.counter = 3)
      | _ => false) = true := by decide +kernel
  rcases hfirst : Emit.closureParts joiningDraft none (Emit.stmts joiningTwice.body)
    ⟨Table.oracle {}, {}⟩ joiningStart with ⟨r, c₁⟩
  rw [hfirst] at hattempt
  cases r with
  | error e => cases hattempt
  | ok parts =>
    obtain ⟨hdiscarded, hmade⟩ := Bool.and_eq_true_iff.mp hattempt
    have hcore := (settledParts_rewinds (c := joiningStart) (.inl rfl) hfirst hdiscarded).2.1
    exact ⟨parts, c₁, rfl, of_decide_eq_true hmade, hcore⟩

end ClosureConversion
