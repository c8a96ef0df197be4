import ClosureConversion.Proofs.Capture.Resolution
import ClosureConversion.Proofs.Emit.Notes
import ClosureConversion.Proofs.Emit.Opening
import ClosureConversion.Proofs.Scope.Columns

/-! # Runs -/

set_option autoImplicit false

namespace ClosureConversion

/-! ## Growth of layers -/

namespace Layer

/-- Layer by layer the same kinds and no names lost, and no change at all around the innermost
function. -/
def Grown : List Layer → List Layer → Prop
  | [], [] => True
  | l :: ls, m :: ms =>
    m.kind = l.kind ∧ (∀ n, l.Binds n → m.Binds n) ∧
      if l.isFunction then ms = ls else Grown ls ms
  | _, _ => False

theorem Grown.refl (ls : List Layer) : Grown ls ls := by
  induction ls with
  | nil => exact trivial
  | cons l rest ih =>
    refine ⟨rfl, fun _ h => h, ?_⟩
    split
    · rfl
    · exact ih

theorem Grown.trans {ls ms ks : List Layer} (h : Grown ls ms) (h' : Grown ms ks) :
    Grown ls ks := by
  induction ls generalizing ms ks with
  | nil =>
    cases ms with
    | nil => exact h'
    | cons m ms => exact h.elim
  | cons l ls ih =>
    match ms, ks, h, h' with
    | m :: ms, k :: ks, ⟨hkind, hbinds, hrest⟩, ⟨hkind', hbinds', hrest'⟩ =>
      refine ⟨hkind'.trans hkind, fun n hn => hbinds' n (hbinds n hn), ?_⟩
      rw [isFunction_of_kind hkind] at hrest'
      split
      · rename_i hfun
        rw [if_pos hfun] at hrest hrest'
        exact hrest'.trans hrest
      · rename_i hfun
        rw [if_neg hfun] at hrest hrest'
        exact ih hrest hrest'

/-- A declaration makes the innermost layer grow. -/
theorem grown_bind (ls : List Layer) (name : String) (slot : Slot) :
    Grown ls (ls.modifyHead (bind name slot)) := by
  cases ls with
  | nil => exact trivial
  | cons l rest =>
    refine ⟨rfl, fun n hn => binds_bind.mpr (.inr hn), ?_⟩
    split
    · rfl
    · exact .refl rest

theorem Grown.length {ls ms : List Layer} (h : Grown ls ms) : ms.length = ls.length := by
  induction ls generalizing ms with
  | nil =>
    cases ms with
    | nil => rfl
    | cons m ms => exact h.elim
  | cons l ls ih =>
    match ms, h with
    | m :: ms, ⟨_, _, hrest⟩ =>
      split at hrest
      · rw [hrest]
        rfl
      · exact congrArg (· + 1) (ih hrest)

/-- What grew above a block grew below it. -/
theorem Grown.tail {l : Layer} {ls ms : List Layer} (h : Grown (l :: ls) ms)
    (hblock : l.isFunction = false) : Grown ls ms.tail := by
  match ms, h with
  | m :: ms, ⟨_, _, hrest⟩ =>
    rw [hblock] at hrest
    exact hrest

/-- Nothing changes below a function. -/
theorem Grown.tail_eq {l : Layer} {ls ms : List Layer} (h : Grown (l :: ls) ms)
    (hfun : l.isFunction = true) : ms.tail = ls := by
  match ms, h with
  | m :: ms, ⟨_, _, hrest⟩ =>
    rw [if_pos hfun] at hrest
    exact hrest

theorem Grown.head {l : Layer} {ls ms : List Layer} (h : Grown (l :: ls) ms) :
    ∃ m rest, ms = m :: rest ∧ m.kind = l.kind ∧ ∀ n, l.Binds n → m.Binds n := by
  match ms, h with
  | m :: rest, ⟨hkind, hbinds, _⟩ => exact ⟨m, rest, rfl, hkind, hbinds⟩

/-- Names of the innermost function stay bound in it. -/
theorem Grown.inner {ls ms : List Layer} (h : Grown ls ms) {n : String}
    (hn : ∃ l ∈ inner ls, l.Binds n) : ∃ m ∈ inner ms, m.Binds n := by
  induction ls generalizing ms with
  | nil =>
    obtain ⟨l, hl, -⟩ := hn
    cases hl
  | cons l ls ih =>
    match ms, h with
    | m :: ms, ⟨hkind, hbinds, hrest⟩ =>
      obtain ⟨k, hk, hkn⟩ := hn
      rw [Layer.inner] at hk ⊢
      rw [isFunction_of_kind hkind]
      split at hk
      · rename_i hfun
        rw [if_pos hfun]
        rw [List.mem_singleton.mp hk] at hkn
        exact ⟨m, List.mem_singleton.mpr rfl, hbinds n hkn⟩
      · rename_i hfun
        rw [if_neg hfun] at hrest ⊢
        rcases List.mem_cons.mp hk with rfl | hmem
        · exact ⟨m, List.mem_cons_self, hbinds n hkn⟩
        · obtain ⟨m', hm', hm'n⟩ := ih hrest ⟨k, hmem, hkn⟩
          exact ⟨m', List.mem_cons_of_mem m hm', hm'n⟩

/-- Layers that bind the formals of their functions still do. -/
theorem Grown.formals {ls ms : List Layer} (h : Grown ls ms)
    (hls : ∀ l ∈ ls, ∀ n ∈ l.formals, l.Binds n) : ∀ m ∈ ms, ∀ n ∈ m.formals, m.Binds n := by
  induction ls generalizing ms with
  | nil =>
    cases ms with
    | nil => exact hls
    | cons m ms => exact h.elim
  | cons l ls ih =>
    match ms, h with
    | m :: ms, ⟨hkind, hbinds, hrest⟩ =>
      rw [List.forall_mem_cons] at hls ⊢
      refine ⟨fun n hn => hbinds n (hls.1 n ?_), ?_⟩
      · rwa [Layer.formals, hkind] at hn
      · split at hrest
        · rw [hrest]
          exact hls.2
        · exact ih hrest hls.2

/-- The layers around the innermost function are the same. -/
theorem Grown.outer {ls ms : List Layer} (h : Grown ls ms) : outer ms = outer ls := by
  induction ls generalizing ms with
  | nil =>
    cases ms with
    | nil => rfl
    | cons m ms => exact h.elim
  | cons l ls ih =>
    match ms, h with
    | m :: ms, ⟨hkind, _, hrest⟩ =>
      rw [Layer.outer, Layer.outer, isFunction_of_kind hkind]
      split
      · rename_i hfun
        rw [if_pos hfun] at hrest
        exact hrest
      · rename_i hfun
        rw [if_neg hfun] at hrest
        exact ih hrest

end Layer

/-! ## What a body may do -/

namespace Context

/-- The body that is being written reads the name, or the name is bound in its function. -/
def Knows (c : Context) (n : String) : Prop :=
  ∀ u, c.current.usage = some u → u.isRead n ∨ (c.scope.lookupInFunction n).isSome

/-- The body that is being written binds the name somewhere. -/
def Stores (c : Context) (n : String) : Prop :=
  ∃ u, c.current.usage = some u ∧ 0 < u.assignCount n

/-- The note on an assignment: the variable that it introduces, or the store. -/
def noteOf (c : Context) (a : Assignment) (rest : String) : Note :=
  if a.declares then .introduced ⟨a.ident, .declared (c.current.plan.isMutable a.ident)⟩ rest
  else .stored ⟨a.name, a.ident, rest, a.previous⟩

/-- The context after an assignment: what it declares is bound, and its line is noted. -/
def assigned (c : Context) (a : Assignment) (source : Option String) (rest : String) : Context :=
  { c.noted (c.noteOf a rest) with
    scope := a.commit c.scope (c.current.plan.isMutable a.ident) source }

/-- The context after an update of a name that was looked up in `s`. -/
def updated (c : Context) (s : Scope) (n rest : String) : Context :=
  c.noted (.stored ⟨n, s.ident n, rest, s.lookupInFunction n⟩)

end Context

/-- A variable that a line introduces was noted with that line. -/
def Slot.Noted (notes : List Note) (slot : Slot) : Prop :=
  slot.form.keyword?.isSome = true → ∃ rest, Note.introduced slot rest ∈ notes

theorem Slot.Noted.mono {notes more : List Note} {slot : Slot} (h : slot.Noted notes)
    (hsubset : notes ⊆ more) : slot.Noted more :=
  fun hwritten => (h hwritten).imp fun _ hmem => hsubset hmem

/-- What writing a body never changes of the state of its function. -/
structure FunctionState.Same (f g : FunctionState) : Prop where
  qualname : g.qualname = f.qualname
  span : g.span = f.span
  plan : g.plan = f.plan
  usage : g.usage = f.usage
  catches : g.catches = f.catches
  handlerErrors : g.handlerErrors = f.handlerErrors

theorem FunctionState.Same.refl (f : FunctionState) : f.Same f := ⟨rfl, rfl, rfl, rfl, rfl, rfl⟩

theorem FunctionState.Same.trans {f g h : FunctionState} (hfg : f.Same g) (hgh : g.Same h) :
    f.Same h :=
  ⟨hgh.qualname.trans hfg.qualname, hgh.span.trans hfg.span, hgh.plan.trans hfg.plan,
    hgh.usage.trans hfg.usage, hgh.catches.trans hfg.catches,
    hgh.handlerErrors.trans hfg.handlerErrors⟩

/-- The same is known of the function, and more may be noted, though no store. -/
structure FunctionState.Still (f g : FunctionState) : Prop extends f.Same g where
  notes : ∃ new, g.notes = new ++ f.notes ∧ ∀ n ∈ new, n.store? = none

theorem FunctionState.Still.refl (f : FunctionState) : f.Still f :=
  ⟨.refl f, [], rfl, fun _ hn => absurd hn List.not_mem_nil⟩

/-- The notes are the same. -/
theorem FunctionState.Still.of_same {f g : FunctionState} (h : f.Same g)
    (hnotes : g.notes = f.notes) : f.Still g :=
  ⟨h, [], hnotes, fun _ hn => absurd hn List.not_mem_nil⟩

theorem FunctionState.Still.trans {f g h : FunctionState} (hfg : f.Still g) (hgh : g.Still h) :
    f.Still h := by
  obtain ⟨first, hfirst, hnone⟩ := hfg.notes
  obtain ⟨later, hlater, hnone'⟩ := hgh.notes
  refine ⟨hfg.toSame.trans hgh.toSame, later ++ first, ?_, fun n hn => ?_⟩
  · rw [hlater, hfirst, List.append_assoc]
  · exact (List.mem_append.mp hn).elim (hnone' n) (hnone n)

/-- What is known of a closure is what the scope `s` says of it. -/
structure Emit.Draft.MadeIn (d : Emit.Draft) (s : Scope) : Prop where
  usage : d.usage = Usage.ofFunction d.function
  recursive : d.representation.recursive = d.usage.selfRecursive
  captures : ∃ r, Capture.resolve d.function d.usage s d.qualname = .ok r ∧
    d.representation.captures = r.captures

def Emit.Draft.frameKind (d : Emit.Draft) : FrameKind :=
  .function d.qualname d.function.formals

/-- One context comes about from another while a body is written. -/
inductive Run : Context → Context → Prop where
  | refl (c : Context) : Run c c
  | trans {a b c : Context} (h : Run a b) (h' : Run b c) : Run a c
  /-- Text, reports, types and identifiers that are only reserved are nothing to names. -/
  | still {c c' : Context} (reserves : c.scope.Reserves c'.scope) (trace : c'.trace = c.trace)
      (current : c.current.Still c'.current) : Run c c'
  /-- A loop, a `with` or a handler binds what it hands to its block. -/
  | payload (c : Context) (name ident : String) (b : Binding)
      (hslot : b.slot = ⟨ident, .payload⟩ ∨ b.slot = ⟨ident, .counter⟩)
      (hnoted : b.slot.Noted c.current.notes) (hkind : b.kind.isPinned = false) :
      Run c { c with scope := c.scope.declareAs name ident b }
  /-- A name is declared at the head of a body. -/
  | hoist (c : Context) (name ident : String) (b : Binding) (hslot : b.slot = ⟨ident, .hoisted⟩)
      (hnoted : b.slot.Noted c.current.notes) (hkind : b.kind.isPinned = false)
      (hhead : ∀ f ∈ c.scope.frames.head?, f.isFunction) :
      Run c { c with scope := c.scope.declareInFunction name ident b }
  /-- An assignment is planned, its value is written, and it is carried out. -/
  | assign {c c₁ : Context} (n : String) (ty : Ty) (source : Option String) (rest : String)
      (hn : c.Stores n) (h : Run c c₁) :
      Run c (c₁.assigned (Assignment.plan c.scope n ty) source rest)
  /-- A name is looked up, a value is written, and the name is updated. -/
  | update {c c₁ : Context} (n rest : String) (hn : c.Stores n) (h : Run c c₁) :
      Run c (c₁.updated c.scope n rest)
  | catching {c c₁ : Context} (target : CatchTarget)
      (h : Run { c with current := { c.current with catches := target :: c.current.catches } } c₁) :
      Run c { c₁ with current := { c₁.current with catches := c.current.catches } }
  | handling {c c₁ : Context} (payload : String)
      (h : Run { c with current := { c.current with
        handlerErrors := payload :: c.current.handlerErrors } } c₁) :
      Run c { c₁ with current := { c₁.current with handlerErrors := c.current.handlerErrors } }
  | block {c c₁ : Context} {left : Scope.Left} (h : Run { c with scope := c.scope.pushBlock } c₁)
      (hpop : c₁.scope.pop = .ok left) : Run c { c₁ with scope := left.scope }
  /-- The captures of a nested function are resolved. -/
  | resolve (c : Context) (f : Function) (qualname : String) (r : Capture.Resolved)
      (hr : Capture.resolve f (Usage.ofFunction f) c.scope qualname = .ok r)
      (hf : ∀ n, f.Frees n → c.Knows n) :
      Run c { c with trace := .closure f r.captures c.scope c.current.usage :: c.trace }
  /-- The body of a nested function is written, in a frame of its own. -/
  | body {c c₁ c₂ : Context} {left : Scope.Left} (d : Emit.Draft) (s : Scope)
      (receiver handle : String) (hmade : d.MadeIn s) (hreserves : s.Reserves c.scope)
      (hobserved : ∃ u, .closure d.function d.representation.captures s u ∈ c.trace)
      (hstart : Emit.Starts d.frameKind d.usage (d.around receiver handle) d.function.formals c c₁)
      (hopens : ∃ holder, c₁.scope.Innermost (d.Opens holder))
      (h : Run c₁ c₂) (hpop : c₂.scope.pop = .ok left) :
      Run c { c₂ with scope := left.scope, current := c.current }
  /-- What was written is thrown away, though not forgotten. -/
  | rewind {c c₁ : Context} (h : Run c c₁) : Run c { c₁ with scope := c.scope }
  /-- The wrapper of a nested function is bound. -/
  | wrapper (c : Context) (name ident : String) (b : Binding)
      (hslot : b.slot = ⟨ident, .declared (c.current.plan.isMutable ident)⟩)
      (hnoted : b.slot.Noted c.current.notes) (hkind : b.kind.isPinned = false) :
      Run c { c with scope := c.scope.declareAs name ident b }

/-- Something other than a store is noted. -/
theorem Run.note (c : Context) {n : Note} (h : n.store? = none) : Run c (c.noted n) :=
  .still (.refl _) rfl ⟨⟨rfl, rfl, rfl, rfl, rfl, rfl⟩, [n], rfl,
    fun _ hm => List.mem_singleton.mp hm ▸ h⟩

/-- What was observed stays so. -/
theorem Run.trace_subset {c c' : Context} (h : Run c c') : c.trace ⊆ c'.trace := by
  induction h with
  | refl | payload | hoist | wrapper => exact List.Subset.refl _
  | trans _ _ ih ih' => exact List.Subset.trans ih ih'
  | still _ htrace _ =>
    rw [htrace]
    exact List.Subset.refl _
  | assign _ _ _ _ _ _ ih | update _ _ _ _ ih => exact ih
  | catching _ _ ih | handling _ _ ih | block _ _ ih | rewind _ ih => exact ih
  | resolve => exact List.subset_cons_of_subset _ (List.Subset.refl _)
  | body _ _ _ _ _ _ _ hstart _ _ _ ih =>
    rw [hstart.trace] at ih
    exact ih

/-- What a run keeps, and how it lets the layers of a scope grow. -/
structure Context.Continues (c c' : Context) : Prop where
  leveled : c'.scope.Leveled
  grown : Layer.Grown c.scope.layers c'.scope.layers
  current : c.current.Same c'.current

theorem Context.Continues.refl {c : Context} (hc : c.scope.Leveled) : c.Continues c :=
  ⟨hc, .refl _, .refl _⟩

theorem Context.Continues.trans {a b c : Context} (h : a.Continues b) (h' : b.Continues c) :
    a.Continues c :=
  ⟨h'.leveled, h.grown.trans h'.grown, h.current.trans h'.current⟩

/-- A change of the scope that no layer shows. -/
theorem Context.continues_of_same {c c' : Context} (hc : c.scope.Leveled)
    (hsame : c.scope.SameLayers c'.scope) (hcurrent : c.current.Same c'.current) :
    c.Continues c' :=
  ⟨hsame.leveled hc, by rw [hsame.layers]; exact .refl _, hcurrent⟩

theorem Context.continues_declareAs {c : Context} (hc : c.scope.Leveled) (name : String)
    {ident : String} {b : Binding} (hident : b.slot.ident = ident) :
    c.Continues { c with scope := c.scope.declareAs name ident b } := by
  refine ⟨Scope.leveled_declareAs hc name ident b, ?_, .refl _⟩
  rw [Scope.layers_declareAs hc name hident]
  exact Layer.grown_bind ..

/-- A body that was left changed nothing around it. -/
theorem Emit.Starts.layers_of_pop {kind : FrameKind} {u : Usage} {around : List Introduction}
    {names : List String} {c c₁ c₂ : Context} {left : Scope.Left}
    (hstart : Starts kind u around names c c₁) (hfun : (Layer.new kind).isFunction)
    (hrun : c₁.Continues c₂) (hpop : c₂.scope.pop = .ok left) :
    left.scope.layers = c.scope.layers ∧ left.scope.Leveled := by
  obtain ⟨formals, -, hlayers⟩ := hstart.layers
  obtain ⟨-, hleft, hlevel⟩ := Scope.pop_layers hrun.leveled hpop
  refine ⟨?_, hlevel⟩
  have hgrown := hrun.grown
  rw [hlayers] at hgrown
  rw [hleft]
  exact hgrown.tail_eq (startLayer_isFunction hfun ..)

/-- A body that is being written can be left. -/
theorem Emit.Starts.exists_pop {kind : FrameKind} {u : Usage} {around : List Introduction}
    {names : List String} {c c₁ c₂ : Context} (hstart : Starts kind u around names c c₁)
    (hc : c.scope.Leveled) (hrun : c₁.Continues c₂) : ∃ left, c₂.scope.pop = .ok left := by
  refine Scope.exists_pop fun hnil => ?_
  obtain ⟨formals, -, hlayers⟩ := hstart.layers
  have hlength := hrun.grown.length
  rw [Scope.length_layers hrun.leveled, hnil, hlayers, List.length_cons,
    Scope.length_layers hc] at hlength
  cases hlength

/-- **A run continues its context.** Frames are closed in the order in which they were opened,
the function state comes back, and names are only added, and only to the innermost function. -/
theorem Run.continues {c c' : Context} (h : Run c c') (hc : c.scope.Leveled) :
    c.Continues c' := by
  induction h with
  | refl c => exact .refl hc
  | trans _ _ ih ih' => exact (ih hc).trans (ih' (ih hc).leveled)
  | still hreserves _ hcurrent =>
    exact Context.continues_of_same hc hreserves.sameLayers hcurrent.toSame
  | payload c name ident b hslot _ _ =>
    refine Context.continues_declareAs hc name ?_
    rcases hslot with hslot | hslot <;> rw [hslot]
  | hoist c name ident b hslot _ _ hhead =>
    rw [Scope.declareInFunction_eq_declareAs hc hhead]
    exact Context.continues_declareAs hc name (congrArg Slot.ident hslot)
  | @assign c c₁ n ty source rest _ _ ih =>
    have hrun := ih hc
    obtain ⟨hlevel, hlayers⟩ := Assignment.layers_commit (s := c.scope) hrun.leveled n ty
      (c₁.current.plan.isMutable (Assignment.plan c.scope n ty).ident) source
    refine ⟨hlevel, ?_, { hrun.current with }⟩
    rw [Context.assigned, hlayers]
    split
    · exact hrun.grown.trans (Layer.grown_bind ..)
    · exact hrun.grown
  | update n rest _ _ ih =>
    have hrun := ih hc
    exact ⟨hrun.leveled, hrun.grown, { hrun.current with }⟩
  | @catching c c₁ target _ ih =>
    have hrun := ih hc
    exact ⟨hrun.leveled, hrun.grown, { hrun.current with catches := rfl }⟩
  | @handling c c₁ payload _ ih =>
    have hrun := ih hc
    exact ⟨hrun.leveled, hrun.grown, { hrun.current with handlerErrors := rfl }⟩
  | @block c c₁ left _ hpop ih =>
    have hrun := ih (Scope.leveled_push hc .block)
    obtain ⟨-, hleft, hlevel⟩ := Scope.pop_layers hrun.leveled hpop
    refine ⟨hlevel, ?_, hrun.current⟩
    rw [hleft]
    exact hrun.grown.tail rfl
  | resolve c f qualname r _ _ => exact ⟨hc, .refl _, .refl _⟩
  | @body c c₁ c₂ left d s receiver handle _ _ _ hstart _ _ hpop ih =>
    obtain ⟨hlayers, hlevel⟩ := hstart.layers_of_pop rfl (ih hstart.leveled) hpop
    exact ⟨hlevel, by rw [hlayers]; exact .refl _, .refl _⟩
  | rewind _ ih => exact ⟨hc, .refl _, (ih hc).current⟩
  | wrapper c name ident b hslot _ _ =>
    exact Context.continues_declareAs hc name (congrArg Slot.ident hslot)

end ClosureConversion
