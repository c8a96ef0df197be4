import ClosureConversion.Proofs.Emit.Rewinding
import ClosureConversion.Proofs.Emit.Statements
import ClosureConversion.Proofs.Scope.Slots

/-! # What is written between the steps of a plan -/

set_option autoImplicit false

namespace ClosureConversion

/-! ## Layers and contexts -/

/-- A layer gains names, but no variable that the plan of a body would speak of. -/
structure Layer.Widens (l m : Layer) : Prop where
  kind : m.kind = l.kind
  binds : ∀ n, l.Binds n → m.Binds n
  planned : ∀ n slot, n ≠ "lambda" → m.slot? n = some slot → slot.form.asksPlan = true →
    l.slot? n = some slot

namespace Layer.Widens

variable {l m k : Layer}

theorem refl (l : Layer) : l.Widens l := ⟨rfl, fun _ h => h, fun _ _ _ h _ => h⟩

theorem trans (h : l.Widens m) (h' : m.Widens k) : l.Widens k :=
  ⟨h'.kind.trans h.kind, fun n hn => h'.binds n (h.binds n hn), fun n slot hne hslot hasks =>
    h.planned n slot hne (h'.planned n slot hne hslot hasks) hasks⟩

theorem bind (h : l.Widens m) {name : String} {slot : Slot}
    (hslot : name = "lambda" ∨ slot.form.asksPlan = false) : l.Widens (m.bind name slot) := by
  refine ⟨h.kind, fun n hn => binds_bind.mpr (.inr (h.binds n hn)), fun n slot' hne hn hasks => ?_⟩
  change (if name = n then some slot else m.slot? n) = some slot' at hn
  split at hn
  · rename_i hname
    obtain rfl := Option.some.inj hn
    rcases hslot with hlambda | hform
    · exact absurd (hname.symm.trans hlambda) hne
    · rw [hform] at hasks
      cases hasks
  · exact h.planned n slot' hne hn hasks

end Layer.Widens

/-- The second scope has the layers of the first, and the innermost one was widened. -/
structure Scope.Widens (s t : Scope) : Prop where
  leveled : t.Leveled
  layers : ∃ change : Layer → Layer, (∀ l : Layer, l.Widens (change l)) ∧
    t.layers = s.layers.modifyHead change

namespace Scope.Widens

variable {s t u : Scope}

theorem of_layers (ht : t.Leveled) (h : t.layers = s.layers) : s.Widens t := by
  refine ⟨ht, id, .refl, ?_⟩
  rw [h]
  cases s.layers <;> rfl

theorem refl (hs : s.Leveled) : s.Widens s := of_layers hs rfl

theorem of_same (h : s.SameLayers t) (hs : s.Leveled) : s.Widens t :=
  of_layers (h.leveled hs) h.layers

theorem trans (h : s.Widens t) (h' : t.Widens u) : s.Widens u := by
  obtain ⟨change, hchange, ht⟩ := h.layers
  obtain ⟨change', hchange', hu⟩ := h'.layers
  refine ⟨h'.leveled, change' ∘ change, fun l => (hchange l).trans (hchange' _), ?_⟩
  rw [hu, ht, List.modifyHead_modifyHead]

theorem declareAs (hs : s.Leveled) (name : String) {ident : String} {b : Binding}
    (hident : b.slot.ident = ident) (hb : name = "lambda" ∨ b.slot.form.asksPlan = false) :
    s.Widens (s.declareAs name ident b) :=
  ⟨leveled_declareAs hs name ident b, Layer.bind name b.slot, fun l => (Layer.Widens.refl l).bind hb,
    layers_declareAs hs name hident⟩

/-- A block was left that was opened before. -/
theorem pop (h : s.pushBlock.Widens t) {left : Left} (hpop : t.pop = .ok left) :
    s.Widens left.scope := by
  obtain ⟨change, -, ht⟩ := h.layers
  obtain ⟨-, hleft, hlevel⟩ := pop_layers h.leveled hpop
  refine of_layers hlevel ?_
  rw [hleft, ht, List.tail_modifyHead]
  rfl

end Scope.Widens

/-- Nothing was decided or stored in between, and the innermost layer was widened. -/
structure Context.Detour (c c' : Context) : Prop where
  scope : c.scope.Widens c'.scope
  decisions : c'.current.decisions = c.current.decisions
  stores : c'.current.stores = c.current.stores

/-- A name is bound in the present block, after a detour. -/
structure Context.Declares (n : String) (slot : Slot) (c c' : Context) : Prop where
  leveled : c'.scope.Leveled
  layers : ∃ s : Scope, c.scope.Widens s ∧
    c'.scope.layers = s.layers.modifyHead (Layer.bind n slot)
  stores : c'.current.stores = c.current.stores

namespace Context

variable {c c₁ c₂ c' : Context}

theorem Detour.refl (hc : c.scope.Leveled) : c.Detour c := ⟨.refl hc, rfl, rfl⟩

theorem Detour.trans (h : c.Detour c₁) (h' : c₁.Detour c₂) : c.Detour c₂ :=
  ⟨h.scope.trans h'.scope, h'.decisions.trans h.decisions, h'.stores.trans h.stores⟩

theorem Detour.leveled (h : c.Detour c') : c'.scope.Leveled := h.scope.leveled

theorem Detour.declares {n : String} {slot : Slot} (h : c.Detour c₁) (h' : c₁.Declares n slot c') :
    c.Declares n slot c' := by
  obtain ⟨s, hs, hlayers⟩ := h'.layers
  exact ⟨h'.leveled, ⟨s, h.scope.trans hs, hlayers⟩, h'.stores.trans h.stores⟩

end Context

namespace Emit

variable {α β : Type} {w : Settings} {c c' : Context}

/-! ## Computations -/

/-- Where the computation succeeds, it is a detour. -/
def Detours (x : Emit α) : Prop :=
  ∀ w c a c', c.scope.Leveled → x w c = (.ok a, c') → c.Detour c'

/-- The computation touches no layer and nothing that is decided or stored. -/
theorem detours_of_same {x : Emit α} (h : ∀ w c, c.scope.SameLayers (x w c).2.scope ∧
    (x w c).2.current.decisions = c.current.decisions ∧
    (x w c).2.current.stores = c.current.stores) : Detours x := by
  intro w c a c' hc hx
  obtain ⟨hscope, hdecisions, hstores⟩ := h w c
  rw [hx] at hscope hdecisions hstores
  exact ⟨.of_same hscope hc, hdecisions, hstores⟩

theorem detours_of_eq {x : Emit α} (h : ∀ w c, (x w c).2.scope = c.scope ∧
    (x w c).2.current.decisions = c.current.decisions ∧
    (x w c).2.current.stores = c.current.stores) : Detours x :=
  detours_of_same fun w c => ⟨by rw [(h w c).1]; exact .refl _, (h w c).2⟩

theorem Detours.pure (a : α) : Detours (pure a : Emit α) :=
  detours_of_eq fun _ _ => ⟨rfl, rfl, rfl⟩

theorem Detours.bind {x : Emit α} {f : α → Emit β} (hx : Detours x) (hf : ∀ a, Detours (f a)) :
    Detours (x >>= f) := by
  intro w c b c' hc h
  obtain ⟨a, c₁, hxc, hfc⟩ := bind_eq_ok h
  have hfirst := hx w c a c₁ hc hxc
  exact hfirst.trans (hf a w c₁ b c' hfirst.leveled hfc)

theorem Detours.sequential : Sequential Detours := ⟨.pure, .bind⟩

theorem note_detours {n : Note} (h : n.store? = none) : Detours (note n) :=
  detours_of_eq fun _ c => ⟨rfl, rfl, by
    show ([n] ++ c.current.notes).filterMap Note.store? = _
    rw [List.singleton_append, List.filterMap_cons_none h]
    rfl⟩

theorem tell_detours (events : List Event) : Detours (tell events) :=
  detours_of_eq fun _ _ => ⟨rfl, rfl, rfl⟩

theorem claimIdent_detours (base : String) : Detours (claimIdent base) :=
  detours_of_same fun _ c => ⟨Scope.sameLayers_reserveIdent c.scope _, rfl, rfl⟩

theorem claimModuleIdent_detours (base : String) : Detours (claimModuleIdent base) :=
  detours_of_same fun _ c => ⟨Scope.sameLayers_reserveModuleIdent c.scope _, rfl, rfl⟩

theorem reportDiagnostic_detours (d : Diagnostic) : Detours (reportDiagnostic d) :=
  detours_of_eq fun _ _ => ⟨rfl, rfl, rfl⟩

theorem temporary_detours (stem : String) : Detours (temporary stem) :=
  Detours.bind (detours_of_eq fun _ _ => ⟨rfl, rfl, rfl⟩) fun _ => claimIdent_detours _

theorem flushPrelude_detours (out : Buffer) : Detours (flushPrelude out) := by
  refine detours_of_eq fun w c => ?_
  unfold flushPrelude
  split <;> exact ⟨rfl, rfl, rfl⟩

theorem pushPrelude_detours (text : String) : Detours (pushPrelude text) :=
  (note_detours rfl).bind fun _ => detours_of_eq fun _ _ => ⟨rfl, rfl, rfl⟩

theorem leaveByError_detours (op : Operation) (exit : Fault → Exit) :
    Detours (leaveByError op exit) :=
  Detours.bind (detours_of_eq fun _ _ => ⟨rfl, rfl, rfl⟩) fun _ =>
    (note_detours rfl).bind fun _ => .pure _

theorem markFailed_detours : Detours markFailed := detours_of_eq fun _ _ => ⟨rfl, rfl, rfl⟩

theorem fallible_detours (op : Operation) (text : String) : Detours (fallible op text) := by
  refine (leaveByError_detours op _).bind fun catches => ?_
  split
  · exact .pure _
  · exact markFailed_detours.bind fun _ => .pure _

theorem errorExit_detours (op : Operation) (error : String) (out : Buffer) :
    Detours (errorExit op error out) := by
  refine (leaveByError_detours op _).bind fun catches => ?_
  split
  · exact .pure _
  · exact markFailed_detours.bind fun _ => .pure _

/-- Bind what a block is handed. -/
theorem declareAs_detours (name ident : String) {b : Binding} (hident : b.slot.ident = ident)
    (hb : b.slot.form.asksPlan = false) : Detours (declareAs name ident b) := by
  rintro w c a c' hc ⟨⟩
  exact ⟨.declareAs hc name hident (.inr hb), rfl, rfl⟩

theorem isolated_detours {x : Emit α} (hx : Detours x) : Detours (isolated x) := by
  intro w c a c' hc h
  obtain ⟨c₁, hinside, -, rfl⟩ := isolated_eq_ok h
  have hdetour := hx w { c with prelude := {} } _ c₁ hc hinside
  exact ⟨hdetour.scope, hdetour.decisions, hdetour.stores⟩

theorem inBlock_detours {x : Emit α} (hx : Detours x) : Detours (inBlock x) := by
  intro w c a c' hc h
  obtain ⟨c₁, left, hinside, hpop, rfl⟩ := inFrame_eq_ok h
  have hdetour := hx w _ a c₁ (Scope.leveled_push hc .block) hinside
  exact ⟨hdetour.scope.pop hpop, hdetour.decisions, hdetour.stores⟩

/-- What loops and expressions are written with is a detour, closures apart. -/
theorem Detours.hereditary : LoopHereditary (fun _ => True) (fun _ => True) Detours where
  pure := .pure
  bind := .bind
  met := ⟨{}, trivial⟩
  options hf := Detours.bind (detours_of_eq fun _ _ => ⟨rfl, rfl, rfl⟩) fun o => hf o trivial
  typeOf _ := detours_of_eq fun _ _ => ⟨rfl, rfl, rfl⟩
  scope := detours_of_eq fun _ _ => ⟨rfl, rfl, rfl⟩
  oracle := detours_of_eq fun _ _ => ⟨rfl, rfl, rfl⟩
  isDeclaredGlobal _ := detours_of_eq fun _ _ => ⟨rfl, rfl, rfl⟩
  unsupported _ := detours_of_eq fun _ _ => ⟨rfl, rfl, rfl⟩
  fallible text _ _ _ := fallible_detours _ text
  errorExit error out _ _ _ := errorExit_detours _ error out
  tell := tell_detours
  temporary := temporary_detours
  dropped _ := note_detours rfl
  pushPrelude := pushPrelude_detours
  flushPrelude := flushPrelude_detours
  isolated := isolated_detours
  inBlock := inBlock_detours
  bindPayload _ _ := Detours.bind (detours_of_eq fun _ _ => ⟨rfl, rfl, rfl⟩) fun _ =>
    (declareAs_detours _ _ rfl rfl).bind fun _ => .pure _
  bindCounter _ _ := Detours.bind (detours_of_eq fun _ _ => ⟨rfl, rfl, rfl⟩) fun _ =>
    (note_detours rfl).bind fun _ => (declareAs_detours _ _ rfl rfl).bind fun _ => .pure _

/-! ## Closures -/

/-- Of a closure's body nothing is left around it. -/
theorem closureParts_layers {d : Draft} {s : Scope} {body : Buffer → Emit Buffer}
    {parts : Closure.Parts} (assumed : Option Bool) (hmade : d.MadeIn s)
    (htypes : d.paramTypes.length = d.function.formals.length)
    (hbody : d.function.WrittenBy body) (hc : c.scope.Leveled)
    (h : closureParts d assumed body w c = (.ok parts, c')) :
    c'.scope.Leveled ∧ c'.scope.layers = c.scope.layers ∧ c'.current = c.current := by
  have hcurrent := closureParts_aside d assumed body w c
  obtain rfl := hbody.eq_stmts
  obtain ⟨c₁, c₂, left, receiver, handle, hstart, -, hrun, hpop, hresult⟩ :=
    closureParts_body (w := w) assumed hmade htypes hc fun out =>
      stmts_runs d.function.body out (Finset.Subset.refl _) (Finset.Subset.refl _)
  rw [h] at hresult hcurrent
  obtain ⟨hlayers, hlevel⟩ := hstart.layers_of_pop rfl (hrun.continues hstart.leveled) hpop
  refine ⟨?_, ?_, hcurrent⟩
  · rw [show c' = _ from hresult]
    exact hlevel
  · rw [show c' = _ from hresult]
    exact hlayers

theorem settledParts_detours {d : Draft} {s : Scope} {body : Buffer → Emit Buffer}
    (hmade : d.MadeIn s) (htypes : d.paramTypes.length = d.function.formals.length)
    (hbody : d.function.WrittenBy body) : Detours (settledParts d body) := by
  have hdetour {c c' : Context} (hc : c.scope.Leveled)
      (h : c'.scope.Leveled ∧ c'.scope.layers = c.scope.layers ∧ c'.current = c.current) :
      c.Detour c' :=
    ⟨.of_layers h.1 h.2.1, by rw [h.2.2], by rw [h.2.2]⟩
  intro w c parts c' hc h
  rcases settledParts_cases d body w c with hcase | ⟨first, c₁, hfirst, hcase⟩
  · rw [hcase] at h
    exact hdetour hc (closureParts_layers none hmade htypes hbody hc h)
  · -- the second attempt starts from the scope of the first
    have hfirst' := closureParts_layers none hmade htypes hbody hc hfirst
    rw [hcase] at h
    have hsecond := closureParts_layers (c := rewound c c₁ d.qualname) (some true) hmade htypes
      hbody hc h
    refine hdetour hc ⟨hsecond.1, hsecond.2.1, hsecond.2.2.trans hfirst'.2.2⟩

theorem captures_detours (f : Function) (u : Usage) (qualname : String) :
    Detours (captures f u qualname) := by
  refine detours_of_eq fun w c => ?_
  obtain ⟨c', hscope, hcurrent, hcases⟩ := captures_cases f u qualname w c
  have hresult : (captures f u qualname w c).2 = c' := by
    rcases hcases with ⟨e, -, heq, -⟩ | ⟨r, -, heq, -⟩ <;> rw [heq]
  rw [hresult, hscope, hcurrent]
  exact ⟨rfl, rfl, rfl⟩

theorem claimNames_detours (name : String) (shape : Shape) : Detours (claimNames name shape) := by
  refine Detours.bind (detours_of_eq fun _ _ => ⟨rfl, rfl, rfl⟩) fun o => ?_
  refine (claimModuleIdent_detours _).bind fun wrapper => ?_
  cases shape with
  | structCapture =>
    exact (claimModuleIdent_detours _).bind fun _ => (claimModuleIdent_detours _).bind fun _ =>
      .pure _
  | zeroCapture => exact (claimModuleIdent_detours _).bind fun _ => .pure _
  | recursiveSelfCapture => exact .pure _

theorem formalTypes_detours (f : Function) (qualname : String) :
    Detours (formalTypes f qualname) := by
  refine (Detours.sequential.sequence fun x hx => ?_).bind fun params => .pure _
  obtain ⟨p, -, rfl⟩ := List.mem_map.mp hx
  refine Detours.hereditary.bind Detours.hereditary.oracle fun o => ?_
  refine Detours.hereditary.bind Detours.hereditary.scope fun s => ?_
  exact Detours.sequential.ite ((reportDiagnostic_detours _).bind fun _ => .pure _) (.pure _)

theorem prepare_detours (f : Function) : Detours (prepare f) := by
  refine Detours.bind (detours_of_eq fun _ _ => ⟨rfl, rfl, rfl⟩) fun qualname => ?_
  refine (tell_detours _).bind fun _ => (captures_detours _ _ _).bind fun cs => ?_
  refine (tell_detours _).bind fun _ => (claimNames_detours _ _).bind fun ⟨wrapper, layout⟩ => ?_
  refine (claimIdent_detours _).bind fun ident => (formalTypes_detours f qualname).bind fun _ => ?_
  exact Detours.bind (detours_of_eq fun _ _ => ⟨rfl, rfl, rfl⟩) fun _ => .pure _

theorem declareClosure_detours (d : Draft) (parts : Closure.Parts) :
    Detours (declareClosure d parts) := by
  have hresult : Detours (returnText (d.declaredReturn.or parts.returnType) parts.fallible
      d.qualname d.function) := by
    unfold returnText
    dsimp only
    split
    · exact .pure _
    · exact Detours.hereditary.options fun _ _ => (reportDiagnostic_detours _).bind fun _ => .pure _
    · exact .pure _
    · exact .pure _
  exact hresult.bind fun _ => Detours.bind (detours_of_eq fun _ _ => ⟨rfl, rfl, rfl⟩) fun _ =>
    .pure _

/-- The wrapper of a closure is bound where its instance is declared. -/
theorem bindInstance_declares {d : Draft} {ident : String} {signature : Signature}
    {decorators : List (Emit String)} {discardUnused : Bool} {out out' : Buffer}
    (hdecorators : ∀ x ∈ decorators, Detours x) (hc : c.scope.Leveled)
    (h : bindInstance d ident signature decorators discardUnused out w c = (.ok out', c')) :
    ∃ isVar, c.Declares d.function.name ⟨ident, .declared isVar⟩ c' ∧
      c'.current.decisions = c.current.decisions := by
  obtain ⟨init, c₁, hinit, h⟩ := bind_eq_ok h
  obtain ⟨out₁, c₂, hflush, h⟩ := bind_eq_ok h
  have hdetour := (Detours.hereditary.decorate _ hdecorators w c _ c₁ hc hinit)
  have hdetour₂ := hdetour.trans (flushPrelude_detours out w c₁ _ c₂ hdetour.leveled hflush)
  cases h
  refine ⟨c₂.current.plan.isMutable ident, hdetour₂.declares ?_, hdetour₂.decisions⟩
  exact ⟨Scope.leveled_declareAs hdetour₂.leveled .., ⟨c₂.scope, .refl hdetour₂.leveled,
    Scope.layers_declareAs hdetour₂.leveled _ rfl⟩, rfl⟩

/-- **A closure that is made is bound in the present block**, and nothing else is left of it. -/
theorem synthesize_declares {f : Function} {body : Buffer → Emit Buffer}
    {decorators : List (Emit String)} {discardUnused : Bool} {out out' : Buffer}
    {built : BuiltClosure} (hbody : f.WrittenBy body) (hdecorators : ∀ x ∈ decorators, Detours x)
    (hc : c.scope.Leveled)
    (h : synthesize f body decorators discardUnused out w c = (.ok (built, out'), c')) :
    ∃ isVar, c.Declares f.name ⟨built.ident, .declared isVar⟩ c' ∧
      c'.current.decisions = c.current.decisions := by
  obtain ⟨⟨d, ident⟩, c₁, hprepare, hrest⟩ := bind_eq_ok h
  obtain ⟨⟨parts, text⟩, c₂, hparts, hrest⟩ := bind_eq_ok hrest
  obtain ⟨signature, c₃, hdeclare, hrest⟩ := bind_eq_ok hrest
  obtain ⟨out₁, c₄, hinstance, hrest⟩ := bind_eq_ok hrest
  obtain ⟨rfl, hmade, htypes, -⟩ := prepare_eq_ok hprepare
  have hdetour₁ := prepare_detours _ w c _ c₁ hc hprepare
  have hdetour₂ := hdetour₁.trans (isolated_detours (settledParts_detours hmade htypes hbody) w c₁
    _ c₂ hdetour₁.leveled hparts)
  have hdetour₃ := hdetour₂.trans (declareClosure_detours d parts w c₂ _ c₃ hdetour₂.leveled
    hdeclare)
  obtain ⟨isVar, hdeclares, hdecisions⟩ := bindInstance_declares hdecorators hdetour₃.leveled
    hinstance
  have hwhole := hdetour₃.declares hdeclares
  cases hrest
  exact ⟨isVar, ⟨hwhole.leveled, hwhole.layers, hwhole.stores⟩, hdecisions.trans hdetour₃.decisions⟩

theorem lambda_detours (params : List Param) (e : Expr) :
    Detours (lambda params e (renderExpr e)) := by
  refine Detours.bind (detours_of_eq fun _ _ => ⟨rfl, rfl, rfl⟩) fun state => ?_
  refine Detours.bind ?_ ?_
  rotate_left
  · rintro ⟨built, out⟩
    exact (pushPrelude_detours _).bind fun _ => .pure _
  rintro w c ⟨built, out⟩ c' hc h
  obtain ⟨isVar, ⟨hlevel, ⟨s, hs, hlayers⟩, hstores⟩, hdecisions⟩ :=
    synthesize_declares (.inr ⟨e, rfl, rfl⟩) (fun x hx => absurd hx List.not_mem_nil) hc h
  refine ⟨hs.trans ⟨hlevel, _, fun l => ?_, hlayers⟩, hdecisions, hstores⟩
  exact (Layer.Widens.refl l).bind (.inl rfl)

/-- **Writing an expression is a detour.** -/
theorem Detours.rendering : RenderHereditary Detours where
  toLoopHereditary := Detours.hereditary
  lambda params e _ := lambda_detours params e

end Emit

end ClosureConversion
