import ClosureConversion.Proofs.Emit.Steps
import ClosureConversion.Proofs.Usage.Specification

/-! # Nested functions as runs -/

set_option autoImplicit false

namespace ClosureConversion

/-- The free names of a function are those that its definition reads. -/
theorem Function.Frees.mem {f : Function} {n : String} (h : f.Frees n) :
    n ∈ (Stmt.allMentions .read f.body \ ownNames f.formals f.body) ∪ f.freeWrites := by
  have hclosed := Usage.ofBody_closed f.name f.formals f.body
  have hcandidate := h.candidate
  rw [Usage.candidates, Usage.mem_foldl_pushNew, List.append_assoc, List.mem_append] at hcandidate
  rcases hcandidate with hnone | hread | hwrite
  · cases hnone
  · refine Finset.mem_union_left _ (Finset.mem_sdiff.mpr ⟨(hclosed.names .read n).mp hread, ?_⟩)
    rw [← hclosed.mem_hides, Usage.hides, Finset.mem_union, Finset.mem_union, List.mem_toFinset,
      List.mem_toFinset, List.mem_toFinset]
    rintro ((hformal | hassigned) | hglobal)
    · exact Bool.false_ne_true (h.formal.symm.trans (List.elem_eq_true_of_mem hformal))
    · exact Bool.false_ne_true (h.assigned.symm.trans (List.elem_eq_true_of_mem hassigned))
    · exact Bool.false_ne_true (h.global.symm.trans (List.elem_eq_true_of_mem hglobal))
  · exact Finset.mem_union_right _ ((hclosed.mem_writesOut n).mp (List.mem_toFinset.mpr hwrite))

namespace Emit

variable {α β : Type} {R W : Finset String} {w : Settings}

/-! ## Formals, results and decorators -/

theorem paramType_steady (f : Function) (qualname : String) (p : Param) :
    Steady (paramType f qualname p) := by
  refine Steady.bind (steady_of_still fun _ _ => ⟨rfl, rfl, .refl _⟩) fun o => ?_
  refine Steady.bind (steady_of_still fun _ _ => ⟨rfl, rfl, .refl _⟩) fun s => ?_
  dsimp only
  split
  all_goals
    split
    · exact (reportDiagnostic_steady _).bind fun _ => .pure _
    · exact .pure _

theorem formalTypes_steady (f : Function) (qualname : String) :
    Steady (formalTypes f qualname) := by
  refine (Steady.sequential.sequence fun x hx => ?_).bind fun params => .pure _
  obtain ⟨p, -, rfl⟩ := List.mem_map.mp hx
  exact paramType_steady f qualname p

theorem returnText_steady (returnType : Option Ty) (fallible : Bool) (qualname : String)
    (f : Function) : Steady (returnText returnType fallible qualname f) := by
  unfold returnText
  dsimp only
  split
  · exact .pure _
  · exact options_steady.bind fun o => (reportDiagnostic_steady _).bind fun _ => .pure _
  · exact .pure _
  · exact .pure _

theorem declaredReturn_runs (f : Function) (qualname : String) :
    Runs R W (declaredReturn f qualname) :=
  oracle_runs.bind fun _ => .pure _

theorem claimNames_steady (name : String) (shape : Shape) : Steady (claimNames name shape) := by
  refine options_steady.bind fun o => (claimModuleIdent_steady _).bind fun wrapper => ?_
  cases shape with
  | structCapture =>
    exact (claimModuleIdent_steady _).bind fun _ => (claimModuleIdent_steady _).bind fun _ =>
      .pure _
  | zeroCapture => exact (claimModuleIdent_steady _).bind fun _ => .pure _
  | recursiveSelfCapture => exact .pure _

/-! ## Bodies -/

/-- The names that the body of a function may read and store to. -/
theorem ready_of_usage {f : Function} {c : Context} (hlevel : c.scope.Leveled)
    (husage : c.current.usage = some (Usage.ofFunction f)) :
    c.Ready (Stmt.allMentions .read f.body) (Stmt.bindings f.body).toFinset := by
  have hclosed := Usage.ofBody_closed f.name f.formals f.body
  refine ⟨hlevel, fun n hn u hu => ?_, fun n hn => ⟨_, husage, ?_⟩⟩
  · obtain rfl : Usage.ofFunction f = u := Option.some.inj (husage.symm.trans hu)
    exact .inl (List.elem_eq_true_of_mem ((hclosed.names .read n).mpr hn))
  · show 0 < Usage.assignCount (Usage.ofBody f.name f.formals f.body) n
    rw [hclosed.counts, List.count_pos_iff]
    exact List.mem_toFinset.mp hn

/-- Names were declared at the head of a body, in the layer `l` of its function. -/
structure Hoists (names : List String) (l : Layer) (outer : List Layer) (c c' : Context) :
    Prop where
  run : Run c c'
  layers : ∃ is : List Introduction, is.map Introduction.name = names ∧
    (∀ i ∈ is, i.slot.form = .hoisted) ∧ c'.scope.layers = l.introduce is :: outer
  decisions : c'.current.decisions = c.current.decisions
  stores : c'.current.stores = c.current.stores

theorem declareHoisted_hoists (out : Buffer) (name : String) (ty : Ty) {c : Context} {l : Layer}
    {outer : List Layer} (hc : c.scope.Leveled) (hlayers : c.scope.layers = l :: outer)
    (hfun : l.isFunction) :
    ∃ out' c', declareHoisted out name ty w c = (.ok out', c') ∧ Hoists [name] l outer c c' := by
  have hreserves := Scope.reserves_reserveIdent c.scope (c.scope.freshIdent name)
  let slot : Slot := ⟨c.scope.freshIdent name, .hoisted⟩
  let c₁ : Context := { c.noted (.introduced slot s!": {ty.slot} = undefined;") with
    scope := (c.scope.claimIdent name).2 }
  have hclaim : Run c c₁ := (Run.note c rfl).trans (.still hreserves rfl (.refl _))
  have hlayers₁ : c₁.scope.layers = l :: outer := hreserves.sameLayers.layers.trans hlayers
  have hhead : ∀ f ∈ c₁.scope.frames.head?, f.isFunction :=
    Scope.isFunction_of_layers hlayers₁ hfun
  let b : Binding := { ty, slot, isMutable := true }
  have hdeclare := Run.hoist c₁ name slot.ident b rfl (fun _ => ⟨_, List.mem_cons_self⟩) rfl hhead
  have hlevel₁ : c₁.scope.Leveled := hreserves.sameLayers.leveled hc
  refine ⟨_, _, rfl, hclaim.trans (hdeclare.trans (.still (.refl _) rfl (.refl _))),
    ⟨[⟨name, slot⟩], rfl, fun i hi => ?_, ?_⟩, rfl, rfl⟩
  · rw [List.mem_singleton.mp hi]
  · have hbound := Scope.layers_declareAs hlevel₁ name (b := b) rfl
    rw [← Scope.declareInFunction_eq_declareAs hlevel₁ hhead, hlayers₁] at hbound
    exact hbound

/-- Names are declared at the head of a body one after the other. -/
theorem hoists_of_foldlM (hoisted : List (String × Ty)) (out : Buffer) {c : Context} {l : Layer}
    {outer : List Layer} (hc : c.scope.Leveled) (hlayers : c.scope.layers = l :: outer)
    (hfun : l.isFunction) :
    ∃ out' c', hoisted.foldlM (fun out e => declareHoisted out e.1 e.2) out w c = (.ok out', c') ∧
      Hoists (hoisted.map Prod.fst) l outer c c' := by
  induction hoisted generalizing out c l with
  | nil =>
    exact ⟨out, c, rfl, .refl c, ⟨[], rfl, fun _ hi => absurd hi List.not_mem_nil, hlayers⟩, rfl, rfl⟩
  | cons e es ih =>
    obtain ⟨out₁, c₁, hfirst, hrun, ⟨is, his, hforms, hlayers₁⟩, hdecisions, hstores⟩ :=
      declareHoisted_hoists out e.1 e.2 (w := w) hc hlayers hfun
    have hfun₁ : (l.introduce is).isFunction :=
      (Layer.isFunction_of_kind (Layer.introduce_kind is)).trans hfun
    obtain ⟨out₂, c₂, hrest, hrun', ⟨js, hjs, hforms', hlayers₂⟩, hdecisions', hstores'⟩ :=
      ih out₁ (hrun.continues hc).leveled hlayers₁ hfun₁
    refine ⟨out₂, c₂, ?_, hrun.trans hrun', ⟨is ++ js, ?_, fun i hi => ?_, ?_⟩,
      hdecisions'.trans hdecisions, hstores'.trans hstores⟩
    · rw [List.foldlM_cons, bind_apply, hfirst]
      exact hrest
    · rw [List.map_append, his, hjs]
      rfl
    · exact (List.mem_append.mp hi).elim (hforms i) (hforms' i)
    · rw [hlayers₂, Layer.introduce_append]

/-- The copy of a formal is no store. -/
theorem store?_of_copyNote? {formals : List Formal} {n : Note}
    (h : n ∈ formals.filterMap Formal.copyNote?) : n.store? = none := by
  obtain ⟨p, -, hp⟩ := List.mem_filterMap.mp h
  obtain ⟨rest, -, rfl⟩ := Option.map_eq_some_iff.mp hp
  rfl

theorem plannedBody_run (formals : List Formal) (plan : BodyPlan) {body : Buffer → Emit Buffer}
    {c : Context} {l : Layer} {rest : List Layer} (hbody : ∀ out, Runs R W (body out))
    (hc : c.Ready R W) (hlayers : c.scope.layers = l :: rest) (hfun : l.isFunction) :
    Run c (plannedBody formals plan body w c).2 := by
  let c₀ : Context := { c with current := { c.current with
    notes := formals.filterMap Formal.copyNote? ++ c.current.notes } }
  have hcopies : Run c c₀ := noteAll_runs (fun _ => store?_of_copyNote?) w c hc
  obtain ⟨out, c₁, hhoists, hrun, -⟩ := hoists_of_foldlM (w := w) (c := c₀) plan.hoisted
    (Buffer.lines {} (formals.filterMap Formal.copyLine?)) hc.leveled hlayers hfun
  have hresult : plannedBody formals plan body w c = body out w c₁ := by
    unfold plannedBody
    have hnotes : noteAll (formals.filterMap Formal.copyNote?) w c = (.ok (), c₀) := rfl
    rw [bind_apply, hnotes]
    dsimp only
    rw [bind_apply, hhoists]
  have hhead := hcopies.trans hrun
  rw [hresult]
  exact hhead.trans (hbody out w c₁ (hc.run hhead))

/-- **The body of a function is a run** from where the body starts, and the function around it
comes back afterwards. -/
theorem functionBody_run {f : Function} {u : Usage} (qualname : String) {kind : FrameKind}
    {P : String → Binding → Prop} {formals : List Formal} {around : List Introduction}
    {body : Buffer → Emit Buffer} {c c₁ : Context} (hu : u = Usage.ofFunction f)
    (hkind : (Layer.new kind).isFunction)
    (hbody : ∀ out, Runs (Stmt.allMentions .read f.body) (Stmt.bindings f.body).toFinset (body out))
    (hlevel : c₁.scope.Leveled) (htrace : c₁.trace = c.trace)
    (hlayers : c₁.scope.layers = (Layer.new kind).introduce
      (around ++ formals.map Formal.introduction) :: c.scope.layers)
    (hconfined : (c.scope.push kind).Confined 1 c₁.scope) (hinnermost : c₁.scope.Innermost P)
    (hP : ∀ p ∈ formals, ∀ b copied isMutable, P p.name b →
      P p.name { b with slot := ⟨b.slot.ident, .formal copied⟩, isMutable }) :
    ∃ c₂ c₃, Starts kind u around (formals.map Formal.name) c c₂ ∧ c₂.scope.Innermost P ∧
      Run c₂ c₃ ∧
      (functionBody f qualname formals u body w c₁).2 = { c₃ with current := c₁.current } := by
  obtain ⟨state, formals', c₂, hplan, hcurrent, -, hstart⟩ :=
    starts_of_planFunction f qualname u (w := w) hlevel htrace hlayers hconfined
  have hready : ({ c₂ with current := state } : Context).Ready
      (Stmt.allMentions .read f.body) (Stmt.bindings f.body).toFinset := by
    subst hu
    exact ready_of_usage hstart.leveled hstart.usage
  obtain ⟨ps, -, hlayers₂⟩ := hstart.layers
  have hrun := plannedBody_run formals' state.plan (w := w) hbody hready hlayers₂
    (startLayer_isFunction hkind ..)
  have hpreserved := planFunction_preserves f qualname formals u hP w c₁ hinnermost
  rw [hplan] at hpreserved
  refine ⟨_, _, hstart, hpreserved, hrun, ?_⟩
  unfold functionBody
  rw [bind_apply, hplan]
  dsimp only
  rw [bind_apply]
  unfold inFunction
  rcases plannedBody formals' state.plan body w { c₂ with current := state } with ⟨r, c₃⟩
  rw [← hcurrent]
  cases r <;> rfl

/-- A closure never captures its own formals. -/
theorem Draft.MadeIn.captured_notMem_formals {d : Draft} {s : Scope} (hmade : d.MadeIn s) :
    ∀ x ∈ d.representation.captures.toList, x.name ∉ d.function.formals := by
  obtain ⟨r, hr, hcaptures⟩ := hmade.captures
  rw [hcaptures]
  intro x hx hformal
  have hunowned := Capture.unowned_of_verdict ((Capture.mem_captures_iff hr).mp hx).2
  exact Bool.false_ne_true (hunowned.1.symm.trans (List.elem_eq_true_of_mem hformal))

/-- A recursive closure never captures its own name. -/
theorem Draft.MadeIn.captured_ne_own {d : Draft} {s : Scope} (hmade : d.MadeIn s)
    (hrec : d.representation.recursive = true) :
    ∀ x ∈ d.representation.captures.toList, x.name ≠ d.function.name := by
  obtain ⟨r, hr, hcaptures⟩ := hmade.captures
  rw [hcaptures]
  rintro x hx hname
  have hunowned := Capture.unowned_of_verdict ((Capture.mem_captures_iff hr).mp hx).2
  have hown := hunowned.2.1
  rw [← hmade.recursive, hrec, hname, Bool.true_and, beq_self_eq_true] at hown
  cases hown

/-- **A closure's body is written in a frame of its own**: it is a run from where the body starts,
and the frame is left afterwards. -/
theorem closureParts_body {d : Draft} {s : Scope} {body : Buffer → Emit Buffer} {c : Context}
    (assumed : Option Bool) (hmade : d.MadeIn s)
    (htypes : d.paramTypes.length = d.function.formals.length) (hc : c.scope.Leveled)
    (hbody : ∀ out, Runs (Stmt.allMentions .read d.function.body)
      (Stmt.bindings d.function.body).toFinset (body out)) :
    ∃ c₁ c₂ left receiver handle,
      Starts d.frameKind d.usage (d.around receiver handle) d.function.formals c c₁ ∧
      (∃ holder, c₁.scope.Innermost (d.Opens holder)) ∧ Run c₁ c₂ ∧ c₂.scope.pop = .ok left ∧
      (closureParts d assumed body w c).2 =
        { c₂ with scope := left.scope, current := c.current,
                  journal := c₂.journal.record left.events } := by
  obtain ⟨e, c₁, is, henter, ⟨hnames, receiver, handle, his⟩, hlevel, hlayers, hconfined, hcurrent,
      htrace⟩ :=
    enterClosure_introduces (w := w) d assumed htypes
      { c with scope := c.scope.push d.frameKind } (Scope.leveled_push hc d.frameKind)
      fun _ hn => absurd hn List.not_mem_nil
  rw [his, Scope.layers_push] at hlayers
  obtain ⟨holder, hopens⟩ := enterClosure_opens (w := w) d assumed hmade.captured_ne_own
    (c := { c with scope := c.scope.push d.frameKind }) fun P => c.scope.innermost_push d.frameKind
  rw [henter] at hopens
  obtain ⟨c₂, c₃, hstart, hopens₂, hrun, hresult⟩ := functionBody_run d.qualname (w := w)
    (c := c) hmade.usage rfl hbody hlevel htrace hlayers hconfined hopens (fun p hp b _ _ hb => by
      refine ⟨fun hcaptured => ?_, hb.handle⟩
      obtain ⟨x, hx, hname, -⟩ := hb.captured hcaptured
      exact absurd (hname ▸ hnames ▸ List.mem_map_of_mem hp) (hmade.captured_notMem_formals x hx))
  rw [hnames] at hstart
  obtain ⟨left, hpop⟩ := hstart.exists_pop hc (hrun.continues hstart.leveled)
  have hframe : (closureFrame d assumed body w { c with scope := c.scope.push d.frameKind }).2 =
      { c₃ with current := c₁.current } := by
    unfold closureFrame
    rw [bind_apply, henter, ← hresult]
    dsimp only
    rw [bind_apply]
    rcases functionBody d.function d.qualname e.formals d.usage body w c₁ with ⟨r, c₄⟩
    cases r <;> rfl
  refine ⟨c₂, c₃, left, receiver, handle, hstart, ⟨holder, hopens₂⟩, hrun, hpop, ?_⟩
  show (inFrame d.frameKind (closureFrame d assumed body) w c).2 = _
  unfold inFrame
  rcases hx : closureFrame d assumed body w { c with scope := c.scope.push d.frameKind } with
    ⟨r, c₄⟩
  obtain rfl : c₄ = { c₃ with current := c₁.current } := by rw [← hframe, hx]
  dsimp only
  rw [hpop, hcurrent]

/-- A closure's body is a run of the body around it. -/
theorem closureParts_run {d : Draft} {s : Scope} {body : Buffer → Emit Buffer} {c : Context}
    (assumed : Option Bool) (hmade : d.MadeIn s) (hreserves : s.Reserves c.scope)
    (hobserved : ∃ u, .closure d.function d.representation.captures s u ∈ c.trace)
    (htypes : d.paramTypes.length = d.function.formals.length) (hc : c.scope.Leveled)
    (hbody : ∀ out, Runs (Stmt.allMentions .read d.function.body)
      (Stmt.bindings d.function.body).toFinset (body out)) :
    Run c (closureParts d assumed body w c).2 := by
  obtain ⟨c₁, c₂, left, receiver, handle, hstart, hopens, hrun, hpop, hresult⟩ :=
    closureParts_body (w := w) assumed hmade htypes hc hbody
  rw [hresult]
  exact (Run.body d s receiver handle hmade hreserves hobserved hstart hopens hrun hpop).trans
    (.still (.refl _) rfl (.refl _))

theorem settledParts_run {d : Draft} {s : Scope} {body : Buffer → Emit Buffer} {c : Context}
    (hmade : d.MadeIn s) (hreserves : s.Reserves c.scope)
    (hobserved : ∃ u, .closure d.function d.representation.captures s u ∈ c.trace)
    (htypes : d.paramTypes.length = d.function.formals.length) (hc : c.scope.Leveled)
    (hbody : ∀ out, Runs (Stmt.allMentions .read d.function.body)
      (Stmt.bindings d.function.body).toFinset (body out)) :
    Run c (settledParts d body w c).2 := by
  have hfirst := closureParts_run (w := w) none hmade hreserves hobserved htypes hc hbody
  unfold settledParts
  rw [bind_apply]
  dsimp only [context]
  rw [bind_apply]
  rcases hx : closureParts d none body w c with ⟨r, c₁⟩
  rw [hx] at hfirst
  cases r with
  | error e => exact hfirst
  | ok parts =>
    dsimp only
    split
    · -- the second attempt starts from the scope of the first
      let c₂ : Context :=
        { c₁ with scope := c.scope, report := c₁.report.take c.report.length,
                  declarations := c.declarations,
                  closures := c₁.closures.take c.closures.length, counter := c.counter,
                  journal := c₁.journal.record [.writtenAgain d.qualname] }
      have hrewound : Run c c₂ := (Run.rewind hfirst).trans (.still (.refl _) rfl (.refl _))
      have hobserved₂ : ∃ u, .closure d.function d.representation.captures s u ∈ c₂.trace :=
        hobserved.imp fun _ ho => hrewound.trace_subset ho
      exact hrewound.trans (closureParts_run (w := w) (c := c₂) (some true) hmade hreserves
        hobserved₂ htypes hc hbody)
    · exact hfirst

/-! ## Drafts -/

theorem length_of_sequence {xs : List (Emit α)} {as : List α} {c c' : Context}
    (h : sequence xs w c = (.ok as, c')) : as.length = xs.length := by
  induction xs generalizing as c with
  | nil =>
    cases h
    rfl
  | cons x rest ih =>
    obtain ⟨a, c₁, -, h⟩ := bind_eq_ok h
    obtain ⟨bs, c₂, hrest, h⟩ := bind_eq_ok h
    cases h
    exact congrArg (· + 1) (ih hrest)

/-- There is one type for each formal. -/
theorem length_of_formalTypes {f : Function} {qualname : String} {types : List Ty}
    {c c' : Context} (h : formalTypes f qualname w c = (.ok types, c')) :
    types.length = f.formals.length := by
  obtain ⟨params, c₁, hparams, h⟩ := bind_eq_ok h
  have hlength := length_of_sequence hparams
  rw [List.length_map] at hlength
  cases h
  rw [Function.formals, List.length_append, List.length_append, List.length_append,
    List.length_append, List.length_map, hlength]
  cases f.vararg <;> cases f.kwarg <;> rfl

theorem reports_still (report : Report) (c : Context) :
    ∃ as c', sequence (report.map reportDiagnostic) w c = (.ok as, c') ∧ c'.scope = c.scope ∧
      c'.trace = c.trace ∧ c'.current = c.current := by
  induction report generalizing c with
  | nil => exact ⟨[], c, rfl, rfl, rfl, rfl⟩
  | cons d ds ih =>
    obtain ⟨as, c', hrest, hstill⟩ := ih (reportDiagnostic d w c).2
    refine ⟨() :: as, c', ?_, hstill⟩
    show (sequence (ds.map reportDiagnostic) >>= fun as => pure (() :: as)) w
      (reportDiagnostic d w c).2 = _
    rw [bind_apply, hrest]
    rfl

theorem captures_apply (f : Function) (u : Usage) (qualname : String) (w : Settings)
    (c : Context) :
    captures f u qualname w c =
      (match Capture.resolve f u c.scope qualname with
        | .ok r => discard (sequence (r.report.map reportDiagnostic)) >>= fun _ =>
            observeClosure f r.captures >>= fun _ => pure r.captures
        | .error e => fail e : Emit CaptureSet) w
      { c with journal := c.journal.record (Capture.resolveEvents f u c.scope qualname) } :=
  rfl

/-- Resolving captures is observed if it succeeds, and leaves the scope alone. -/
theorem captures_cases (f : Function) (u : Usage) (qualname : String) (w : Settings)
    (c : Context) :
    ∃ c', c'.scope = c.scope ∧ c'.current = c.current ∧
      ((∃ e, Capture.resolve f u c.scope qualname = .error e ∧
          captures f u qualname w c = (.error e, c') ∧ c'.trace = c.trace) ∨
        ∃ r, Capture.resolve f u c.scope qualname = .ok r ∧
          captures f u qualname w c = (.ok r.captures, c') ∧
          c'.trace = .closure f r.captures c.scope c.current.usage :: c.trace) := by
  let told : Context :=
    { c with journal := c.journal.record (Capture.resolveEvents f u c.scope qualname) }
  rw [captures_apply]
  cases hr : Capture.resolve f u c.scope qualname with
  | error e => exact ⟨told, rfl, rfl, .inl ⟨e, rfl, rfl, rfl⟩⟩
  | ok r =>
    obtain ⟨as, c₁, hreports, hscope, htrace, hcurrent⟩ := reports_still (w := w) r.report told
    have hdiscard : discard (sequence (r.report.map reportDiagnostic)) w told = (.ok (), c₁) := by
      show (sequence (r.report.map reportDiagnostic) >>= fun _ => pure ()) w told = _
      rw [bind_apply, hreports]
      rfl
    refine ⟨{ c₁ with trace := .closure f r.captures c₁.scope c₁.current.usage :: c₁.trace },
      hscope, hcurrent, .inr ⟨r, rfl, ?_, ?_⟩⟩
    · dsimp only
      rw [bind_apply, hdiscard]
      rfl
    · rw [hscope, hcurrent, htrace]

theorem captures_runs {f : Function} (qualname : String) (hf : ∀ n, f.Frees n → n ∈ R) :
    Runs R W (captures f (Usage.ofFunction f) qualname) := by
  intro w c hc
  obtain ⟨c', hscope, hcurrent, h⟩ := captures_cases f (Usage.ofFunction f) qualname w c
  have hsame : c.scope.Reserves c'.scope ∧ c.current.Still c'.current := by
    rw [hscope, hcurrent]
    exact ⟨.refl _, .refl _⟩
  rcases h with ⟨e, -, heq, htrace⟩ | ⟨r, hr, heq, htrace⟩
  · rw [heq]
    exact .still hsame.1 htrace hsame.2
  · rw [heq]
    exact (Run.resolve c f qualname r hr fun n hn => hc.knows n (hf n hn)).trans
      (.still hsame.1 htrace hsame.2)

theorem prepare_runs {f : Function} (hf : ∀ n, f.Frees n → n ∈ R) : Runs R W (prepare f) := by
  refine (qualify_runs f.name).bind fun qualname => (tell_runs _).bind fun _ => ?_
  refine (captures_runs qualname hf).bind fun cs => (tell_runs _).bind fun _ => ?_
  refine (claimNames_steady _ _).runs.bind fun ⟨wrapper, layout⟩ => ?_
  refine (claimIdent_runs _).bind fun ident => ?_
  refine (formalTypes_steady f qualname).runs.bind fun types => ?_
  exact (declaredReturn_runs f qualname).bind fun _ => .pure _

/-- A draft says of a function what the scope says where the draft is made. -/
theorem prepare_eq_ok {f : Function} {d : Draft} {ident : String} {c c' : Context}
    (h : prepare f w c = (.ok (d, ident), c')) :
    d.function = f ∧ d.MadeIn c.scope ∧ d.paramTypes.length = d.function.formals.length ∧
      c.scope.Reserves c'.scope ∧
      ∃ u, .closure d.function d.representation.captures c.scope u ∈ c'.trace := by
  obtain ⟨qualname, c₁, hqualify, h⟩ := bind_eq_ok h
  obtain ⟨_, c₂, htell, h⟩ := bind_eq_ok h
  obtain ⟨cs, c₃, hcaptures, h⟩ := bind_eq_ok h
  obtain ⟨_, c₄, htell', h⟩ := bind_eq_ok h
  obtain ⟨⟨wrapper, layout⟩, c₅, hnames, h⟩ := bind_eq_ok h
  obtain ⟨ident, c₆, hident, h⟩ := bind_eq_ok h
  obtain ⟨types, c₇, htypes, h⟩ := bind_eq_ok h
  obtain ⟨result, c₈, hresult, h⟩ := bind_eq_ok h
  have hstart : c₂.scope = c.scope := by
    cases hqualify
    cases htell
    rfl
  obtain ⟨c₃', hscope, -, hcases⟩ := captures_cases f (Usage.ofFunction f) qualname w c₂
  rw [hcaptures] at hcases
  obtain ⟨r, hr, hcs, hscope₃, htrace₃⟩ :
      ∃ r, Capture.resolve f (Usage.ofFunction f) c.scope qualname = .ok r ∧ cs = r.captures ∧
        c₃.scope = c.scope ∧ ∃ u, .closure f r.captures c.scope u ∈ c₃.trace := by
    rcases hcases with ⟨e, -, heq, -⟩ | ⟨r, hr, heq, htrace⟩
    · cases heq
    · cases heq
      rw [hstart] at hr hscope htrace
      exact ⟨r, hr, rfl, hscope, _, by rw [htrace]; exact List.mem_cons_self⟩
  have hend : c₄.scope = c.scope ∧ c₄.trace = c₃.trace := by
    cases htell'
    exact ⟨hscope₃, rfl⟩
  have hreserves : c.scope.Reserves c₇.scope := by
    rw [← hend.1]
    exact ((claimNames_steady _ _).reserves hnames).trans
      (((claimIdent_steady _).reserves hident).trans
        ((formalTypes_steady f qualname).reserves htypes))
  have htrace : c₇.trace = c₃.trace :=
    (((formalTypes_steady f qualname).trace htypes).trans
      (((claimIdent_steady _).trace hident).trans ((claimNames_steady _ _).trace hnames))).trans
      hend.2
  cases hresult
  cases h
  refine ⟨rfl, ⟨rfl, rfl, r, hr, hcs⟩, length_of_formalTypes htypes, hreserves, ?_⟩
  rw [htrace, hcs]
  exact htrace₃

/-! ## Closures -/

theorem declareWrapper_runs (name ident rest : String) (ty : Ty) :
    Runs R W (declareWrapper name ident rest ty) := by
  intro w c _
  let isMutable := c.current.plan.isMutable ident
  let slot : Slot := ⟨ident, .declared isMutable⟩
  let c₁ := c.noted (.introduced slot rest)
  have hdeclare := Run.wrapper c₁ name ident { kind := .closure, slot, ty, isMutable } rfl
    (fun _ => ⟨_, List.mem_cons_self⟩) rfl
  exact ((Run.note c rfl).trans hdeclare).trans (.still (.refl _) rfl (.refl _))

theorem bindInstance_runs (d : Draft) (ident : String) (signature : Signature)
    {decorators : List (Emit String)} (discardUnused : Bool) (out : Buffer)
    (h : ∀ x ∈ decorators, Runs R W x) :
    Runs R W (bindInstance d ident signature decorators discardUnused out) := by
  refine (Runs.hereditary.decorate _ h).bind fun init => ?_
  refine (flushPrelude_runs out).bind fun out => ?_
  refine current_runs.bind fun state => (isRead_runs _).bind fun read => ?_
  exact (declareWrapper_runs _ _ _ _).bind fun _ => .pure _

theorem bindClosure_runs (d : Draft) (ident : String) (parts : Closure.Parts)
    {decorators : List (Emit String)} (discardUnused : Bool) (out : Buffer)
    (h : ∀ x ∈ decorators, Runs R W x) :
    Runs R W (bindClosure d ident parts decorators discardUnused out) := by
  have hdeclare : Runs R W (declareClosure d parts) :=
    (returnText_steady _ _ _ _).runs.bind fun result =>
      Runs.bind (runs_of_still fun _ _ => ⟨rfl, rfl, .refl _⟩) fun _ => .pure _
  refine hdeclare.bind fun signature => ?_
  refine (bindInstance_runs d ident signature discardUnused out h).bind fun out => ?_
  exact Runs.bind (runs_of_still fun _ _ => ⟨rfl, rfl, .refl _⟩) fun _ => .pure _

/-- **Making a closure is a run** of the body around it. -/
theorem synthesize_runs {f : Function} {body : Buffer → Emit Buffer}
    {decorators : List (Emit String)} (discardUnused : Bool) (out : Buffer)
    (hbody : ∀ out, Runs (Stmt.allMentions .read f.body) (Stmt.bindings f.body).toFinset (body out))
    (hdecorators : ∀ x ∈ decorators, Runs R W x) (hf : ∀ n, f.Frees n → n ∈ R) :
    Runs R W (synthesize f body decorators discardUnused out) := by
  intro w c hc
  have hprepare := prepare_runs (W := W) hf w c hc
  unfold synthesize
  rw [bind_apply]
  rcases hx : prepare f w c with ⟨r, c₁⟩
  rw [hx] at hprepare
  cases r with
  | error e => exact hprepare
  | ok p =>
    obtain ⟨d, ident⟩ := p
    obtain ⟨rfl, hmade, htypes, hreserves, hobserved⟩ := prepare_eq_ok hx
    have hready := hc.run hprepare
    have hparts : Run c₁ (isolated (settledParts d body) w c₁).2 :=
      isolated_run (settledParts_run hmade hreserves hobserved htypes hready.leveled hbody)
    dsimp only
    rw [bind_apply]
    rcases hy : isolated (settledParts d body) w c₁ with ⟨r, c₂⟩
    rw [hy] at hparts
    have hrun := hprepare.trans hparts
    cases r with
    | error e => exact hrun
    | ok q =>
      exact hrun.trans
        (bindClosure_runs d ident q.1 discardUnused out hdecorators w c₂ (hc.run hrun))

end Emit

end ClosureConversion
