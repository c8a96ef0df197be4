import ClosureConversion.Proofs.Emit.Heredity
import ClosureConversion.Proofs.Emit.Run
import Mathlib.Data.Finset.Basic
import Mathlib.Data.Finset.SDiff

/-! # Computations that are runs -/

set_option autoImplicit false

namespace ClosureConversion

/-- The body that is being written knows the names in `R` and stores to those in `W`. -/
structure Context.Ready (c : Context) (R W : Finset String) : Prop where
  leveled : c.scope.Leveled
  knows : ∀ n ∈ R, c.Knows n
  stores : ∀ n ∈ W, c.Stores n

namespace Context

variable {c c' : Context} {R W : Finset String}

theorem Continues.knows (h : c.Continues c') (hc : c.scope.Leveled) {n : String}
    (hn : c.Knows n) : c'.Knows n := by
  intro u hu
  rcases hn u (h.current.usage.symm.trans hu) with hread | hbound
  · exact .inl hread
  · rw [Scope.lookupInFunction_isSome hc] at hbound
    exact .inr ((Scope.lookupInFunction_isSome h.leveled).mpr (h.grown.inner hbound))

theorem Continues.stores (h : c.Continues c') {n : String} (hn : c.Stores n) : c'.Stores n := by
  obtain ⟨u, hu, hcount⟩ := hn
  exact ⟨u, h.current.usage.trans hu, hcount⟩

/-- What a body may do stays so while it is written. -/
theorem Ready.continues (h : c.Ready R W) (hcc : c.Continues c') : c'.Ready R W :=
  ⟨hcc.leveled, fun n hn => hcc.knows h.leveled (h.knows n hn),
    fun n hn => hcc.stores (h.stores n hn)⟩

theorem Ready.run (h : c.Ready R W) (hrun : Run c c') : c'.Ready R W :=
  h.continues (hrun.continues h.leveled)

theorem Ready.mono {R' W' : Finset String} (h : c.Ready R' W') (hR : R ⊆ R') (hW : W ⊆ W') :
    c.Ready R W :=
  ⟨h.leveled, fun n hn => h.knows n (hR hn), fun n hn => h.stores n (hW hn)⟩

/-- A block that was just opened knows what was known before it. -/
theorem Ready.pushBlock (h : c.Ready R W) :
    ({ c with scope := c.scope.pushBlock } : Context).Ready R W := by
  have hlevel : c.scope.pushBlock.Leveled := Scope.leveled_push h.leveled .block
  refine ⟨hlevel, fun n hn u hu => ?_, h.stores⟩
  refine (h.knows n hn u hu).imp_right fun hbound => ?_
  obtain ⟨l, hl, hln⟩ := (Scope.lookupInFunction_isSome h.leveled).mp hbound
  exact (Scope.lookupInFunction_isSome hlevel).mpr ⟨l, List.mem_cons_of_mem _ hl, hln⟩

end Context

namespace Emit

variable {α β : Type} {R W : Finset String} {w : Settings} {c c₀ : Context}

/-- The computation is a run in every context that allows these names. -/
def Runs (R W : Finset String) (x : Emit α) : Prop := ∀ w c, c.Ready R W → Run c (x w c).2

/-- The same inside a run that began in `c₀`. -/
def Since (c₀ : Context) (R W : Finset String) (x : Emit α) : Prop :=
  ∀ w c, Run c₀ c → c.Ready R W → Run c₀ (x w c).2

/-! ## Computations that no layer shows -/

/-- The computation does nothing to the scope but reserve identifiers, leaves the state of the
function as it is, notes no store and observes nothing. -/
def Steady (x : Emit α) : Prop :=
  ∀ (w : Settings) (c : Context), c.scope.Reserves (x w c).2.scope ∧
    (x w c).2.trace = c.trace ∧ c.current.Still (x w c).2.current

theorem steady_of_still {x : Emit α}
    (h : ∀ w c, (x w c).2.scope = c.scope ∧ (x w c).2.trace = c.trace ∧
      c.current.Still (x w c).2.current) : Steady x :=
  fun w c => ⟨by rw [(h w c).1]; exact .refl _, (h w c).2⟩

theorem Steady.pure (a : α) : Steady (pure a : Emit α) :=
  steady_of_still fun _ _ => ⟨rfl, rfl, .refl _⟩

theorem Steady.bind {x : Emit α} {f : α → Emit β} (hx : Steady x) (hf : ∀ a, Steady (f a)) :
    Steady (x >>= f) :=
  fun w c => snd_bind (hx w c) fun a c₁ _ ⟨hreserves, htrace, hcurrent⟩ =>
    ⟨hreserves.trans (hf a w c₁).1, (hf a w c₁).2.1.trans htrace, hcurrent.trans (hf a w c₁).2.2⟩

theorem Steady.sequential : Sequential Steady := ⟨.pure, .bind⟩

theorem Steady.reserves {x : Emit α} (hx : Steady x) {c' : Context} {a : α}
    (h : x w c = (.ok a, c')) : c.scope.Reserves c'.scope := by
  have hreserves := (hx w c).1
  rwa [h] at hreserves

theorem Steady.trace {x : Emit α} (hx : Steady x) {c' : Context} {a : α}
    (h : x w c = (.ok a, c')) : c'.trace = c.trace := by
  have htrace := (hx w c).2.1
  rwa [h] at htrace

theorem options_steady : Steady options := steady_of_still fun _ _ => ⟨rfl, rfl, .refl _⟩

theorem reportDiagnostic_steady (d : Diagnostic) : Steady (reportDiagnostic d) :=
  steady_of_still fun _ _ => ⟨rfl, rfl, .refl _⟩

theorem claimIdent_steady (base : String) : Steady (claimIdent base) :=
  fun _ c => ⟨Scope.reserves_reserveIdent c.scope _, rfl, .refl _⟩

theorem claimModuleIdent_steady (base : String) : Steady (claimModuleIdent base) :=
  fun _ c => ⟨Scope.reserves_reserveModuleIdent c.scope _, rfl, .refl _⟩

/-! ## Putting computations together -/

theorem Runs.since {x : Emit α} (h : Runs R W x) : Since c₀ R W x :=
  fun w c hrun hc => hrun.trans (h w c hc)

theorem Runs.mono {R' W' : Finset String} {x : Emit α} (h : Runs R W x) (hR : R ⊆ R')
    (hW : W ⊆ W') : Runs R' W' x :=
  fun w c hc => h w c (hc.mono hR hW)

theorem runs_of_eq {x : Emit α} (h : ∀ w c, (x w c).2 = c) : Runs R W x :=
  fun w c _ => by rw [h]; exact .refl c

theorem Steady.runs {x : Emit α} (h : Steady x) : Runs R W x :=
  fun w c _ => .still (h w c).1 (h w c).2.1 (h w c).2.2

theorem runs_of_still {x : Emit α}
    (h : ∀ w c, (x w c).2.scope = c.scope ∧ (x w c).2.trace = c.trace ∧
      c.current.Still (x w c).2.current) : Runs R W x :=
  (steady_of_still h).runs

theorem Runs.pure (a : α) : Runs R W (pure a : Emit α) := runs_of_eq fun _ _ => rfl

theorem Since.bind {x : Emit α} {f : α → Emit β} (hx : Runs R W x)
    (hf : ∀ a, Since c₀ R W (f a)) : Since c₀ R W (x >>= f) := by
  intro w c hrun hc
  have hstep := hx w c hc
  rw [bind_apply]
  rcases hxc : x w c with ⟨r, c₁⟩
  rw [hxc] at hstep
  cases r with
  | ok a => exact hf a w c₁ (hrun.trans hstep) (hc.run hstep)
  | error e => exact hrun.trans hstep

theorem Runs.bind {x : Emit α} {f : α → Emit β} (hx : Runs R W x) (hf : ∀ a, Runs R W (f a)) :
    Runs R W (x >>= f) :=
  fun w c hc => Since.bind hx (fun a => (hf a).since) w c (.refl c) hc

theorem Runs.ite {p : Prop} [Decidable p] {x y : Emit α} (hx : Runs R W x) (hy : Runs R W y) :
    Runs R W (if p then x else y) := by
  split
  · exact hx
  · exact hy

/-! ## Computations that names are nothing to -/

theorem options_runs : Runs R W options := runs_of_eq fun _ _ => rfl

theorem oracle_runs : Runs R W oracle := runs_of_eq fun _ _ => rfl

theorem scope_runs : Runs R W scope := runs_of_eq fun _ _ => rfl

theorem current_runs : Runs R W current := runs_of_eq fun _ _ => rfl

theorem typeOf_runs (e : Expr) : Runs R W (typeOf e) := runs_of_eq fun _ _ => rfl

theorem unsupported_runs (what : String) : Runs R W (unsupported what : Emit α) :=
  runs_of_eq fun _ _ => rfl

theorem isRead_runs (n : String) : Runs R W (isRead n) := runs_of_eq fun _ _ => rfl

theorem isDeclaredGlobal_runs (n : String) : Runs R W (isDeclaredGlobal n) :=
  runs_of_eq fun _ _ => rfl

theorem qualify_runs (n : String) : Runs R W (qualify n) := runs_of_eq fun _ _ => rfl

theorem tell_runs (events : List Event) : Runs R W (tell events) :=
  runs_of_still fun _ _ => ⟨rfl, rfl, .refl _⟩

/-- A change of the function's state that no note and no name shows. -/
theorem modifyCurrent_runs {f : FunctionState → FunctionState}
    (h : ∀ s : FunctionState, s.Still (f s)) :
    Runs R W (modifyCurrent f) :=
  runs_of_still fun _ c => ⟨rfl, rfl, h c.current⟩

theorem markFailed_runs : Runs R W markFailed :=
  modifyCurrent_runs fun _ => .of_same ⟨rfl, rfl, rfl, rfl, rfl, rfl⟩ rfl

theorem decided_runs (d : Decision) : Runs R W (decided d) :=
  modifyCurrent_runs fun _ => .of_same ⟨rfl, rfl, rfl, rfl, rfl, rfl⟩ rfl

theorem undecided_runs (choices : Nat) : Runs R W (undecided choices) :=
  modifyCurrent_runs fun _ => .of_same ⟨rfl, rfl, rfl, rfl, rfl, rfl⟩ rfl

theorem noteAll_runs {notes : List Note} (h : ∀ n ∈ notes, n.store? = none) :
    Runs R W (noteAll notes) :=
  modifyCurrent_runs fun _ => ⟨⟨rfl, rfl, rfl, rfl, rfl, rfl⟩, notes, rfl, h⟩

theorem note_runs {n : Note} (h : n.store? = none) : Runs R W (note n) :=
  noteAll_runs fun _ hn => List.mem_singleton.mp hn ▸ h

theorem pushPrelude_runs (text : String) : Runs R W (pushPrelude text) :=
  (note_runs rfl).bind fun _ => runs_of_still fun _ _ => ⟨rfl, rfl, .refl _⟩

theorem flushPrelude_runs (out : Buffer) : Runs R W (flushPrelude out) := by
  refine runs_of_still fun w c => ?_
  unfold flushPrelude
  split
  · exact ⟨rfl, rfl, .refl _⟩
  · exact ⟨rfl, rfl, .refl _⟩

theorem nextNumber_runs : Runs R W nextNumber := runs_of_still fun _ _ => ⟨rfl, rfl, .refl _⟩

theorem leaveByError_runs (op : Operation) (exit : Fault → Exit) :
    Runs R W (leaveByError op exit) :=
  current_runs.bind fun _ => (note_runs rfl).bind fun _ => .pure _

theorem fallible_runs {op : Operation} (text : String) : Runs R W (fallible op text) := by
  refine (leaveByError_runs op _).bind fun catches => ?_
  split
  · exact .pure _
  · exact markFailed_runs.bind fun _ => .pure _

theorem fallibleIf_runs {op : Operation} (fails : Bool) (text : String) :
    Runs R W (fallibleIf op fails text) :=
  .ite (fallible_runs text) (.pure text)

theorem errorExit_runs {op : Operation} (error : String) (out : Buffer) :
    Runs R W (errorExit op error out) := by
  refine (leaveByError_runs op _).bind fun catches => ?_
  split
  · exact .pure _
  · exact markFailed_runs.bind fun _ => .pure _

/-! ## Names -/

theorem claimIdent_runs (base : String) : Runs R W (claimIdent base) :=
  (claimIdent_steady base).runs

theorem temporary_runs (stem : String) : Runs R W (temporary stem) :=
  nextNumber_runs.bind fun _ => claimIdent_runs _

/-- Declare what a block is handed. -/
theorem declarePayload_runs (name ident : String) {b : Binding}
    (hslot : b.slot = ⟨ident, .payload⟩) (hkind : b.kind.isPinned = false) :
    Runs R W (declareAs name ident b) := by
  intro w c _
  have hnoted : b.slot.Noted c.current.notes := fun hwritten => by
    rw [hslot] at hwritten
    cases hwritten
  exact (Run.payload c name ident b (.inl hslot) hnoted hkind).trans
    (.still (.refl _) rfl (.refl _))

/-! ## Brackets -/

theorem inBlock_runs {x : Emit α} (h : Runs R W x) : Runs R W (inBlock x) := by
  intro w c hc
  have hrun := h w _ hc.pushBlock
  have hcontinues := hrun.continues (Scope.leveled_push hc.leveled .block)
  rcases hx : x w { c with scope := c.scope.pushBlock } with ⟨r, c₁⟩
  rw [hx] at hrun hcontinues
  have hframes : c₁.scope.frames ≠ [] := by
    intro hnil
    have hlength := hcontinues.grown.length
    rw [Scope.length_layers hcontinues.leveled, hnil, Scope.pushBlock, Scope.layers_push,
      List.length_cons, Scope.length_layers hc.leveled] at hlength
    simp at hlength
  obtain ⟨left, hpop⟩ := Scope.exists_pop hframes
  have hresult : (inBlock x w c).2 =
      { c₁ with scope := left.scope, journal := c₁.journal.record left.events } := by
    show (inFrame .block x w c).2 = _
    unfold inFrame
    rw [show c.scope.push .block = c.scope.pushBlock from rfl, hx]
    dsimp only
    rw [hpop]
  rw [hresult]
  exact (Run.block hrun hpop).trans (.still (.refl _) rfl (.refl _))

theorem isolated_run {x : Emit α}
    (h : Run { c with prelude := {} } (x w { c with prelude := {} }).2) :
    Run c (isolated x w c).2 := by
  have hstart : Run c { c with prelude := {} } := .still (.refl _) rfl (.refl _)
  exact (hstart.trans h).trans (.still (.refl _) rfl (.refl _))

theorem isolated_runs {x : Emit α} (h : Runs R W x) : Runs R W (isolated x) :=
  fun w _ hc => isolated_run (h w _ ⟨hc.leveled, hc.knows, hc.stores⟩)

theorem catching_runs {target : CatchTarget} {x : Emit α} (h : Runs R W x) :
    Runs R W (catching target x) := by
  intro w c hc
  have hrun := h w { c with current := { c.current with catches := target :: c.current.catches } }
    ⟨hc.leveled, hc.knows, hc.stores⟩
  unfold catching
  rcases hx : x w { c with current := { c.current with catches := target :: c.current.catches } }
    with ⟨r, c₁⟩
  rw [hx] at hrun
  have htail : c₁.current.catches.tail = c.current.catches := by
    rw [(hrun.continues hc.leveled).current.catches]
    rfl
  dsimp only
  rw [htail]
  exact (Run.catching target hrun).trans (.still (.refl _) rfl (.of_same ⟨rfl, rfl, rfl, rfl, rfl, rfl⟩ rfl))

theorem handling_runs {payload : String} {x : Emit α} (h : Runs R W x) :
    Runs R W (handling payload x) := by
  intro w c hc
  have hrun := h w
    { c with current := { c.current with handlerErrors := payload :: c.current.handlerErrors } }
    ⟨hc.leveled, hc.knows, hc.stores⟩
  unfold handling
  dsimp only
  rcases hx : x w { c with current := { c.current with
    handlerErrors := payload :: c.current.handlerErrors } } with ⟨r, c₁⟩
  rw [hx] at hrun
  have htail : c₁.current.handlerErrors.tail = c.current.handlerErrors := by
    rw [(hrun.continues hc.leveled).current.handlerErrors]
    rfl
  dsimp only
  rw [htail]
  exact (Run.handling payload hrun).trans (.still (.refl _) rfl (.of_same ⟨rfl, rfl, rfl, rfl, rfl, rfl⟩ rfl))

theorem looping_runs {x : Emit α} (h : Runs R W x) : Runs R W (looping x) := by
  intro w c hc
  have hstart : Run c { c with current := { c.current with loops := c.current.loops + 1 } } :=
    .still (.refl _) rfl (.of_same ⟨rfl, rfl, rfl, rfl, rfl, rfl⟩ rfl)
  have hrun := h w { c with current := { c.current with loops := c.current.loops + 1 } }
    ⟨hc.leveled, hc.knows, hc.stores⟩
  exact (hstart.trans hrun).trans (.still (.refl _) rfl (.of_same ⟨rfl, rfl, rfl, rfl, rfl, rfl⟩ rfl))

/-! ## Loops -/

theorem bindPayload_runs (n : String) (ty : Ty) : Runs R W (bindPayload n ty) :=
  scope_runs.bind fun s => (declarePayload_runs n (s.freshIdent n) rfl rfl).bind fun _ => .pure _

/-- The line of a counter is noted before the counter is declared. -/
theorem bindCounter_runs (n start : String) : Runs R W (bindCounter n start) := by
  intro w c _
  let slot : Slot := ⟨c.scope.freshIdent n, .counter⟩
  let c₁ := c.noted (.introduced slot s!": i64 = {start};")
  have hdeclare : Run c₁ { c₁ with
      scope := c₁.scope.declareAs n (c.scope.freshIdent n) { ty := .int, slot } } :=
    .payload c₁ n _ _ (.inr rfl) (fun _ => ⟨_, List.mem_cons_self⟩) rfl
  exact ((Run.note c rfl).trans hdeclare).trans (.still (.refl _) rfl (.refl _))

/-- **Expressions and plain statements are runs if their parts are.** -/
theorem Runs.hereditary : LoopHereditary (fun _ => True) (fun _ => True) (Runs R W) where
  pure := .pure
  bind := .bind
  met := ⟨{}, trivial⟩
  options hf := options_runs.bind fun o => hf o trivial
  typeOf := typeOf_runs
  scope := scope_runs
  oracle := oracle_runs
  isDeclaredGlobal := isDeclaredGlobal_runs
  unsupported := unsupported_runs
  fallible text _ _ _ := fallible_runs text
  errorExit error out _ _ _ := errorExit_runs error out
  tell := tell_runs
  temporary := temporary_runs
  dropped _ := note_runs rfl
  bindPayload := bindPayload_runs
  bindCounter := bindCounter_runs
  pushPrelude := pushPrelude_runs
  flushPrelude := flushPrelude_runs
  isolated := isolated_runs
  inBlock := inBlock_runs

/-! ## The names that a loop binds -/

/-- If the computation succeeds, the names are bound in the function afterwards. -/
def Binds (R W : Finset String) (names : List String) (x : Emit α) : Prop :=
  ∀ w c a c', c.Ready R W → x w c = (.ok a, c') →
    ∀ n ∈ names, (c'.scope.lookupInFunction n).isSome

/-- Two computations of which each binds its names. -/
theorem Binds.bind {x : Emit α} {f : α → Emit β} {names more : List String}
    (hx : Binds R W names x) (hx' : Runs R W x) (hf : ∀ a, Binds R W more (f a))
    (hf' : ∀ a, Runs R W (f a)) : Binds R W (names ++ more) (x >>= f) := by
  intro w c b c₂ hc h n hn
  rw [bind_apply] at h
  rcases hxc : x w c with ⟨r, c₁⟩
  have hrun : Run c c₁ := by
    have hstep := hx' w c hc
    rwa [hxc] at hstep
  rw [hxc] at h
  cases r with
  | error e => cases h
  | ok a =>
    have hc₁ := hc.run hrun
    rcases List.mem_append.mp hn with hfirst | hsecond
    · -- what the first computation bound stays bound
      have hcontinues : c₁.Continues c₂ := by
        have hstep := hf' a w c₁ hc₁
        rw [show f a w c₁ = (.ok b, c₂) from h] at hstep
        exact hstep.continues hc₁.leveled
      have hbound := hx w c a c₁ hc hxc n hfirst
      rw [Scope.lookupInFunction_isSome hc₁.leveled] at hbound
      exact (Scope.lookupInFunction_isSome hcontinues.leveled).mpr (hcontinues.grown.inner hbound)
    · exact hf a w c₁ b c₂ hc₁ h n hsecond

theorem binds_nil (x : Emit α) : Binds R W [] x :=
  fun _ _ _ _ _ _ _ hn => absurd hn List.not_mem_nil

theorem Binds.bind_left {x : Emit α} {f : α → Emit β} {names : List String}
    (hx : Binds R W names x) (hx' : Runs R W x) (hf' : ∀ a, Runs R W (f a)) :
    Binds R W names (x >>= f) := by
  have h := hx.bind hx' (fun a => binds_nil (f a)) hf'
  rwa [List.append_nil] at h

theorem Binds.bind_right {x : Emit α} {f : α → Emit β} {names : List String}
    (hx' : Runs R W x) (hf : ∀ a, Binds R W names (f a)) : Binds R W names (x >>= f) := by
  intro w c b c₂ hc h
  rw [bind_apply] at h
  rcases hxc : x w c with ⟨r, c₁⟩
  have hstep := hx' w c hc
  rw [hxc] at h hstep
  cases r with
  | error e => cases h
  | ok a => exact hf a w c₁ b c₂ (hc.run hstep) h

/-- What the first computation bound is known to the second. -/
theorem Runs.bind_binds {x : Emit α} {f : α → Emit β} {names : List String} (hx : Runs R W x)
    (hnames : Binds R W names x) (hf : ∀ a, Runs (R ∪ names.toFinset) W (f a)) :
    Runs R W (x >>= f) := by
  intro w c hc
  have hstep := hx w c hc
  rw [bind_apply]
  rcases hxc : x w c with ⟨r, c₁⟩
  rw [hxc] at hstep
  cases r with
  | error e => exact hstep
  | ok a =>
    have hready := hc.run hstep
    refine hstep.trans (hf a w c₁ ⟨hready.leveled, fun n hn => ?_, hready.stores⟩)
    rcases Finset.mem_union.mp hn with hR | hbound
    · exact hready.knows n hR
    · exact fun u _ => .inr (hnames w c a c₁ hc hxc n (List.mem_toFinset.mp hbound))

theorem unsupported_binds (what : String) (names : List String) :
    Binds R W names (unsupported what : Emit α) :=
  fun _ _ _ _ _ h => by cases h

/-- A name that was just declared is bound in the function. -/
theorem isSome_declareAs {s : Scope} (hs : s.Leveled) (n : String) {ident : String} {b : Binding}
    (hident : b.slot.ident = ident) :
    ((s.declareAs n ident b).lookupInFunction n).isSome := by
  rw [Scope.lookupInFunction_isSome (Scope.leveled_declareAs hs n ident b),
    Scope.layers_declareAs hs n hident]
  cases houter : s.layers with
  | nil =>
    have hlength := Scope.length_layers hs
    rw [houter] at hlength
    cases hlength
  | cons l rest =>
    exact ⟨l.bind n b.slot, Layer.head_mem_inner _ rest, Layer.binds_bind.mpr (.inl rfl)⟩

theorem bindPayload_binds (n : String) (ty : Ty) : Binds R W [n] (bindPayload n ty) := by
  intro w c a c' hc h k hk
  obtain rfl := List.mem_singleton.mp hk
  cases h
  exact isSome_declareAs hc.leveled k rfl

theorem bindCounter_binds (n start : String) : Binds R W [n] (bindCounter n start) := by
  intro w c a c' hc h k hk
  obtain rfl := List.mem_singleton.mp hk
  cases h
  exact isSome_declareAs hc.leveled k rfl

mutual

theorem unpackPart_binds (used : List String) :
    ∀ (t : Target) (source : String) (ty : Ty),
      Binds R W t.names (unpackPart used t source ty)
  | .name n, _, ty =>
    (bindPayload_binds n ty).bind_left (bindPayload_runs n ty) fun _ => .pure _
  | .tuple parts, source, ty => unpack_binds used parts source ty 0
  | .attribute _ _, _, _ => unsupported_binds _ _
  | .subscript _ _, _, _ => unsupported_binds _ _
  | .starred _, _, _ => unsupported_binds _ _

theorem unpack_binds (used : List String) :
    ∀ (ts : List Target) (source : String) (ty : Ty) (i : Nat),
      Binds R W (Target.allNames ts) (unpack used ts source ty i)
  | [], _, _, _ => binds_nil _
  | t :: ts, source, ty, i =>
    have hrest := Runs.hereditary.unpack used ts source ty (i + 1)
    (unpackPart_binds used t _ _).bind (Runs.hereditary.unpackPart used t _ _)
      (fun _ => (unpack_binds used ts source ty (i + 1)).bind_left hrest fun _ => .pure _)
      fun _ => hrest.bind fun _ => .pure _

end

theorem loopPayload_binds (target : Target) (elem : Ty) (used : List String) :
    Binds R W target.names (loopPayload target elem used) := by
  unfold loopPayload
  split
  · exact (bindPayload_binds _ elem).bind_left (bindPayload_runs _ elem) fun _ => .pure _
  · exact .bind_right (temporary_runs "item") fun _ =>
      (unpack_binds used _ _ _ _).bind_left (Runs.hereditary.unpack used _ _ _ _) fun _ => .pure _
  · exact unsupported_binds _ _

/-- A counted loop counts with the plain name that is its target. -/
theorem countedRange?_target {target : Target} {iter : Expr} {s : Scope} {n : String}
    {args : List Expr} (h : countedRange? target iter s = some (n, args)) : target = .name n := by
  unfold countedRange? at h
  split at h
  · split at h
    · cases h
      rfl
    · cases h
  · cases h

/-- A loop that was opened has bound all names of its target. -/
theorem openLoop_binds (target : Target) (iter : Expr) {iterText : Emit String}
    {argTexts : List (Emit String)} (used : List String) (out : Buffer)
    (hiter : Runs R W iterText) (hargs : ∀ x ∈ argTexts, Runs R W x) :
    Binds R W target.names (openLoop target iter iterText argTexts used out) := by
  refine .bind_right scope_runs fun s => ?_
  split
  · rename_i n args hcounted
    rw [countedRange?_target hcounted]
    refine .bind_right (Runs.hereditary.sequence hargs) fun bounds => ?_
    refine .bind_right (flushPrelude_runs out) fun out => ?_
    refine Binds.bind_left ?_ (Runs.hereditary.openCounted _ _ _ _) fun _ => .pure _
    exact (bindCounter_binds n _).bind_left (bindCounter_runs n _) fun _ => .pure _
  · refine .bind_right (typeOf_runs iter) fun ty => ?_
    refine .bind_right (Runs.hereditary.operand iter hiter) fun it => ?_
    refine .bind_right (flushPrelude_runs out) fun out => ?_
    refine Binds.bind_left (loopPayload_binds target _ used)
      (Runs.hereditary.loopPayload target _ used) fun ⟨payload, lines⟩ => ?_
    dsimp only
    split
    · exact .pure _
    · exact .pure _
    · exact .pure _
    · exact (temporary_runs "it").bind fun _ => .pure _

end Emit

end ClosureConversion
