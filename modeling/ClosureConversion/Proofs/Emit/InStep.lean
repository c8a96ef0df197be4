import ClosureConversion.Proofs.BodyPlan.Planning
import ClosureConversion.Proofs.Emit.Detours

/-! # The planner and the writer in step -/

set_option autoImplicit false

namespace ClosureConversion

/-! ## Layers side by side -/

/-- A layer of the planner and the layer of the writer for the same block. -/
structure Layer.Matches (plan : BodyPlan) (l m : Layer) : Prop where
  kind : m.kind = l.kind
  binds : ∀ n, l.Binds n → m.Binds n
  planned : ∀ n slot, n ≠ "lambda" → m.slot? n = some slot → slot.form.asksPlan = true →
    ∃ slot', l.slot? n = some slot' ∧ slot'.form.asksPlan = true ∧ slot'.ident = slot.ident
  hoisted : l.isFunction = true → ∀ n ∈ plan.hoistedNames, m.Binds n

/-- The blocks of the innermost function, side by side. -/
def Layer.Matched (plan : BodyPlan) : List Layer → List Layer → Prop
  | l :: ls, m :: ms => l.Matches plan m ∧ (l.isFunction = false → Matched plan ls ms)
  | _, _ => False

namespace Layer

variable {plan plan' : BodyPlan} {l l' m : Layer} {ls ls' ms : List Layer}

theorem Matches.widen (h : l.Matches plan m) {m' : Layer} (hm : m.Widens m') :
    l.Matches plan m' where
  kind := hm.kind.trans h.kind
  binds n hn := hm.binds n (h.binds n hn)
  planned n slot hne hslot hasks := h.planned n slot hne (hm.planned n slot hne hslot hasks) hasks
  hoisted hfun n hn := hm.binds n (h.hoisted hfun n hn)

theorem Matches.extends (h : l.Matches plan m) (hl : l.Extends plan' l')
    (hplan : plan'.Within plan) : l'.Matches plan m where
  kind := h.kind.trans hl.kind.symm
  binds n hn := (hl.hoisted n hn).elim (h.binds n)
    fun ⟨hfun, hhoisted⟩ => h.hoisted hfun n (hplan.hoisted hhoisted)
  planned n slot hne hslot hasks := by
    obtain ⟨slot', hslot', hrest⟩ := h.planned n slot hne hslot hasks
    exact ⟨slot', hl.slots n slot' hslot', hrest⟩
  hoisted hfun := h.hoisted (isFunction_of_kind hl.kind ▸ hfun)

/-- Both sides bind a name, and what the plan is asked about has one identifier. -/
theorem Matches.bind (h : l.Matches plan m) {n : String} {slot slot' : Slot}
    (hslot : slot.form.asksPlan = true →
      slot'.form.asksPlan = true ∧ slot'.ident = slot.ident) :
    (l.bind n slot').Matches plan (m.bind n slot) where
  kind := h.kind
  binds k hk := binds_bind.mpr ((binds_bind.mp hk).imp_right (h.binds k))
  planned k found hne hfound hasks := by
    change (if n = k then some slot else m.slot? k) = some found at hfound
    show ∃ found', (if n = k then some slot' else l.slot? k) = some found' ∧ _
    split at hfound
    · rename_i hnk
      obtain rfl := Option.some.inj hfound
      exact ⟨slot', if_pos hnk, hslot hasks⟩
    · rename_i hnk
      rw [if_neg hnk]
      exact h.planned k found hne hfound hasks
  hoisted hfun k hk := binds_bind.mpr (.inr (h.hoisted hfun k hk))

theorem matches_new (plan : BodyPlan) : (new .block).Matches plan (new .block) :=
  ⟨rfl, fun _ h => h, fun _ _ _ h => (nomatch h), nofun⟩

theorem Matched.widen (h : Matched plan ls ms) {change : Layer → Layer}
    (hchange : ∀ l : Layer, l.Widens (change l)) : Matched plan ls (ms.modifyHead change) := by
  match ls, ms, h with
  | l :: ls, m :: ms, ⟨hhead, hrest⟩ => exact ⟨hhead.widen (hchange m), hrest⟩

theorem Matched.extends (h : Matched plan ls ms) (hls : List.Forall₂ (Extends plan') ls ls')
    (hplan : plan'.Within plan) : Matched plan ls' ms := by
  induction hls generalizing ms with
  | nil => exact h
  | cons hhead _ ih =>
    match ms, h with
    | m :: ms, ⟨hmatches, hrest⟩ =>
      exact ⟨hmatches.extends hhead hplan, fun hblock =>
        ih (hrest (isFunction_of_kind hhead.kind ▸ hblock))⟩

theorem Matched.bind (h : Matched plan ls ms) {n : String} {slot slot' : Slot}
    (hslot : slot.form.asksPlan = true →
      slot'.form.asksPlan = true ∧ slot'.ident = slot.ident) :
    Matched plan (ls.modifyHead (Layer.bind n slot')) (ms.modifyHead (Layer.bind n slot)) := by
  match ls, ms, h with
  | l :: ls, m :: ms, ⟨hhead, hrest⟩ => exact ⟨hhead.bind hslot, hrest⟩

theorem Matched.push (h : Matched plan ls ms) :
    Matched plan (new .block :: ls) (new .block :: ms) :=
  ⟨matches_new plan, fun _ => h⟩

theorem Matched.tail (h : Matched plan (l :: ls) ms) (hblock : l.isFunction = false) :
    Matched plan ls ms.tail := by
  match ms, h with
  | m :: ms, ⟨_, hrest⟩ => exact hrest hblock

/-- A variable that the writer finds under a name is the one that the planner finds. -/
theorem Matched.lookup (h : Matched plan ls ms) {n : String} (hne : n ≠ "lambda") {slot : Slot}
    (hslot : (inner ms).findSome? (·.slot? n) = some slot) (hasks : slot.form.asksPlan = true) :
    ∃ slot', (inner ls).findSome? (·.slot? n) = some slot' ∧ slot'.form.asksPlan = true ∧
      slot'.ident = slot.ident := by
  induction ls generalizing ms with
  | nil => exact h.elim
  | cons l ls ih =>
    match ms, h with
    | m :: ms, ⟨hmatches, hrest⟩ =>
      rw [inner, isFunction_of_kind hmatches.kind] at hslot
      rw [inner]
      cases hm : m.slot? n with
      | some found =>
        obtain rfl : found = slot := by
          split at hslot <;> simpa [hm] using hslot
        obtain ⟨slot', hslot', hsame⟩ := hmatches.planned n found hne hm hasks
        refine ⟨slot', ?_, hsame⟩
        split <;> simp [hslot']
      | none =>
        have hl : l.slot? n = none := by
          cases hln : l.slot? n with
          | none => rfl
          | some slot' =>
            have hbinds := hmatches.binds n (by rw [Binds, hln]; rfl)
            rw [Binds, hm] at hbinds
            cases hbinds
        split at hslot
        · simp [hm] at hslot
        · rename_i hblock
          rw [List.findSome?_cons, hm] at hslot
          rw [if_neg hblock, List.findSome?_cons, hl]
          exact ih (hrest (Bool.not_eq_true _ ▸ hblock)) hslot

/-- A name that the planner hoists is there for the writer already. -/
theorem Matched.hoist (h : Matched plan ls ms) {n : String} {slot : Slot}
    (hn : n ∈ plan.hoistedNames) (hfree : ∀ l ∈ inner ls, ¬ l.Binds n) :
    Matched plan (hoist n slot ls) ms :=
  h.extends (extends_hoist slot hn hfree) (.refl plan)

end Layer

/-! ## Being in step -/

/-- The stored line goes to something that the plan need not know of, or has recorded. -/
def StoreLine.Planned (plan : BodyPlan) (line : StoreLine) : Prop :=
  line.name ≠ "lambda" → ∀ b, line.previous = some b → b.slot.form.asksPlan = true →
    plan.isMutable b.slot.ident = true

/-- The writer has come as far as the planner, and every store so far is planned. -/
structure InStep (plan : BodyPlan) (p : Planner) (c : Context) : Prop where
  layers : Layer.Matched plan p.scope.layers c.scope.layers
  stores : ∀ line ∈ c.current.stores, line.Planned plan

/-- The writer decides as planned, or nothing is written. -/
def Decision.Followed (planned : Decision) (taken : Option Decision) : Prop :=
  ∀ d ∈ taken, d = planned

/-- The planner goes from `p` to `p'`, and the writer from `c` to `c'`. If both decided the same on
the way and were in step, they still are. -/
structure Joined (plan : BodyPlan) (p p' : Planner) (c c' : Context) : Prop where
  leveled : c'.scope.Leveled
  steps : ∃ new taken, p.Advances new p' ∧
    c'.current.decisions = taken ++ c.current.decisions ∧ new.length = taken.length ∧
    (List.Forall₂ Decision.Followed new taken → p'.plan.Within plan → InStep plan p c →
      InStep plan p' c')

/-- Lists that are related are so part by part. -/
theorem forall₂_of_append {α β : Type} {R : α → β → Prop} {as bs : List α} {cs ds : List β}
    (hlength : as.length = cs.length) (h : List.Forall₂ R (as ++ bs) (cs ++ ds)) :
    List.Forall₂ R as cs ∧ List.Forall₂ R bs ds := by
  have htake := List.forall₂_take_append _ cs ds h
  have hdrop := List.forall₂_drop_append _ cs ds h
  rw [List.take_left' hlength] at htake
  rw [List.drop_left' hlength] at hdrop
  exact ⟨htake, hdrop⟩

theorem Joined.trans {plan : BodyPlan} {p p₁ p₂ : Planner} {c c₁ c₂ : Context}
    (h : Joined plan p p₁ c c₁) (h' : Joined plan p₁ p₂ c₁ c₂) : Joined plan p p₂ c c₂ := by
  obtain ⟨new, taken, hadvances, htaken, hlength, hstep⟩ := h.steps
  obtain ⟨more, taken', hadvances', htaken', hlength', hstep'⟩ := h'.steps
  refine ⟨h'.leveled, more ++ new, taken' ++ taken, hadvances.trans hadvances', ?_, ?_, ?_⟩
  · rw [htaken', htaken, List.append_assoc]
  · rw [List.length_append, List.length_append, hlength, hlength']
  · intro hfollowed hplan hin
    obtain ⟨hlater, hfirst⟩ := forall₂_of_append hlength' hfollowed
    exact hstep' hlater hplan (hstep hfirst (hadvances'.plan.trans hplan) hin)

/-- Nothing but the scope, what is decided and what is stored counts. -/
theorem Joined.of_eq {plan : BodyPlan} {p p' : Planner} {c c₁ c₂ c' : Context}
    (h : Joined plan p p' c₁ c₂) (hscope : c₁.scope = c.scope)
    (hdecisions : c₁.current.decisions = c.current.decisions)
    (hstores : c₁.current.stores = c.current.stores) (hscope' : c'.scope = c₂.scope)
    (hdecisions' : c'.current.decisions = c₂.current.decisions)
    (hstores' : c'.current.stores = c₂.current.stores) : Joined plan p p' c c' := by
  obtain ⟨new, taken, hadvances, htaken, hlength, hstep⟩ := h.steps
  refine ⟨hscope' ▸ h.leveled, new, taken, hadvances, ?_, hlength, fun hfollowed hplan hin => ?_⟩
  · rw [hdecisions', htaken, hdecisions]
  · obtain ⟨hlayers, hlines⟩ := hstep hfollowed hplan
      ⟨by rw [hscope]; exact hin.layers, by rw [hstores]; exact hin.stores⟩
    exact ⟨by rw [hscope']; exact hlayers, by rw [hstores']; exact hlines⟩

variable {plan : BodyPlan} {p p' : Planner} {c c' : Context} {n : String}

theorem Scope.Widens.matched {ls : List Layer} {s t : Scope} (h : s.Widens t)
    (hmatched : Layer.Matched plan ls s.layers) : Layer.Matched plan ls t.layers := by
  obtain ⟨change, hchange, hlayers⟩ := h.layers
  rw [hlayers]
  exact hmatched.widen hchange

/-- The planner passes by something, and the writer writes an expression. -/
theorem joined_of_detour (h : p.Passes [] p') (h' : c.Detour c') : Joined plan p p' c c' where
  leveled := h'.leveled
  steps := ⟨[], [], h.advances, h'.decisions, rfl, fun _ hplan hin =>
    ⟨h'.scope.matched (hin.layers.extends h.layers hplan), h'.stores ▸ hin.stores⟩⟩

/-! ## One name -/

/-- The writer binds a name that a block is handed. -/
def Context.Hands (n : String) (c c' : Context) : Prop :=
  ∃ slot : Slot, slot.form.asksPlan = false ∧ c.Declares n slot c' ∧
    c'.current.decisions = c.current.decisions

theorem joined_of_hands (hp : p.scope.Plannable) (h : p.HandStep n p') (h' : c.Hands n c') :
    Joined plan p p' c c' := by
  obtain ⟨slot, hslot, ⟨hlevel, ⟨s, hs, hlayers⟩, hstores⟩, hdecisions⟩ := h'
  obtain ⟨b, -, -, hscope⟩ := h.scope
  refine ⟨hlevel, [], [], h.advances hp, hdecisions, rfl, fun _ _ hin => ⟨?_, hstores ▸ hin.stores⟩⟩
  rw [hlayers, hscope, Scope.layers_declareAs hp.leveled n rfl]
  exact (hs.matched hin.layers).bind fun hasks => by rw [hslot] at hasks; cases hasks

/-- What the writer does about one name, and how it decides. -/
inductive Context.NameStep (n : String) (c c' : Context) : Decision → Prop
  | global (scope : c.scope.Widens c'.scope) (stores : c'.current.stores ⊆ c.current.stores) :
      NameStep n c c' (.global n)
  /-- The name is looked up on the way, before or after its value is written. -/
  | stores (scope : c.scope.Widens c'.scope)
      (lines : ∀ line ∈ c'.current.stores, line ∈ c.current.stores ∨
        line.name = n ∧ ∃ s : Scope, c.scope.Widens s ∧ line.previous = s.lookupInFunction n) :
      NameStep n c c' (.stores n)
  | declares (ident : String) (isVar : Bool)
      (declares : c.Declares n ⟨ident, .declared isVar⟩ c') : NameStep n c c' (.declares n ident)

theorem Context.NameStep.leveled {d : Decision} (h : c.NameStep n c' d) : c'.scope.Leveled := by
  cases h with
  | global scope => exact scope.leveled
  | stores scope => exact scope.leveled
  | declares _ _ declares => exact declares.leveled

/-- A variable that the writer stores to is a variable of the planner. -/
theorem Layer.Matched.lookupInFunction {s t : Scope} (h : Matched plan s.layers t.layers)
    (hs : s.Leveled) (ht : t.Leveled) (hne : n ≠ "lambda") {b : Binding}
    (hb : t.lookupInFunction n = some b) (hasks : b.slot.form.asksPlan = true) :
    ∃ b', s.lookupInFunction n = some b' ∧ b'.slot.form.asksPlan = true ∧
      b'.slot.ident = b.slot.ident := by
  have hslot := Scope.lookupInFunction_slot ht n
  rw [hb] at hslot
  obtain ⟨slot', hslot', hsame⟩ := h.lookup hne hslot.symm hasks
  rw [← Scope.lookupInFunction_slot hs n] at hslot'
  obtain ⟨b', hb', rfl⟩ := Option.map_eq_some_iff.mp hslot'
  exact ⟨b', hb', hsame⟩

/-- **Both decide the same about a name.** What the writer declares has the planner's identifier,
and what it stores to is recorded. -/
theorem inStep_of_nameSteps {d : Decision} (hp : p.scope.Plannable) (h : p.NameStep n [d] p')
    (h' : c.NameStep n c' d) (hplan : p'.plan.Within plan) (hin : InStep plan p c) :
    InStep plan p' c' := by
  cases h' with
  | global scope' stores =>
    cases h with
    | global scope =>
      exact ⟨scope ▸ scope'.matched hin.layers, fun line hline => hin.stores line (stores hline)⟩
  | stores scope' lines =>
    cases h with
    | hoists b free _ _ scope _ hoisted =>
      obtain ⟨-, hlayers⟩ := Scope.layers_declareInFunction hp.leveled hp.function n (b := b) rfl
      constructor
      · rw [scope, hlayers]
        refine scope'.matched (hin.layers.hoist (hplan.hoisted hoisted) fun l hl hbinds => ?_)
        have hbound := (Scope.lookupInFunction_isSome hp.leveled).mpr ⟨l, hl, hbinds⟩
        rw [free] at hbound
        cases hbound
      · intro line hline
        rcases lines line hline with hold | ⟨rfl, s, hs, hprevious⟩
        · exact hin.stores line hold
        · -- the writer would have a variable that the planner has not
          intro hne b hb hasks
          obtain ⟨b', hb', -⟩ := (hs.matched hin.layers).lookupInFunction hp.leveled hs.leveled hne
            (hprevious.symm.trans hb) hasks
          rw [free] at hb'
          cases hb'
    | stores scope _ marks =>
      refine ⟨scope.layers ▸ scope'.matched hin.layers, fun line hline => ?_⟩
      rcases lines line hline with hold | ⟨rfl, s, hs, hprevious⟩
      · exact hin.stores line hold
      · intro hne b hb hasks
        obtain ⟨b', hb', hasks', hident⟩ := (hs.matched hin.layers).lookupInFunction hp.leveled
          hs.leveled hne (hprevious.symm.trans hb) hasks
        obtain ⟨hspelled, hkind⟩ := hp.lookup hb'
        rw [← hident, ← hspelled]
        exact hplan.isMutable (marks b' hb' (hkind hasks'))
  | declares ident isVar declares =>
    obtain ⟨-, ⟨s, hs, hlayers⟩, hstores⟩ := declares
    cases h with
    | declares t b form _ before after =>
      have hlevel := (hp.adjusts before).leveled
      refine ⟨?_, hstores ▸ hin.stores⟩
      rw [hlayers, after.layers, Scope.layers_declareAs hlevel n rfl, before.layers]
      exact (hs.matched hin.layers).bind fun _ => ⟨by rw [form]; rfl, rfl⟩

/-- The writer decides about a name. -/
def Context.Decides (n : String) (c c' : Context) : Prop :=
  ∃ d, c.NameStep n c' d ∧ c'.current.decisions = some d :: c.current.decisions

theorem joined_of_nameSteps {new : List Decision} (hp : p.scope.Plannable)
    (h : p.NameStep n new p') (h' : c.Decides n c') : Joined plan p p' c c' := by
  obtain ⟨d, hstep, hdecisions⟩ := h'
  refine ⟨hstep.leveled, new, [some d], h.advances hp, hdecisions, h.length, ?_⟩
  intro hfollowed hplan hin
  obtain ⟨planned, rfl⟩ := List.length_eq_one_iff.mp h.length
  obtain rfl : d = planned := (List.forall₂_cons.mp hfollowed).1 d rfl
  exact inStep_of_nameSteps hp h hstep hplan hin

/-! ## Computations -/

namespace Emit

variable {α β : Type}

/-- Where the computation succeeds, it goes along with the planner. -/
def Mirrors (plan : BodyPlan) (f : Planner → Planner) (x : Emit α) : Prop :=
  ∀ (p : Planner) w c a c', p.scope.Plannable → c.scope.Leveled → x w c = (.ok a, c') →
    Joined plan p (f p) c c'

variable {f g : Planner → Planner} {x : Emit α} {k : α → Emit β}

theorem mirrors_of_detours (hf : Planner.PlansAside 0 f) (hx : Detours x) : Mirrors plan f x := by
  intro p w c a c' hp hc h
  obtain ⟨new, hnew, hpasses⟩ := hf p hp
  obtain rfl := List.length_eq_zero_iff.mp hnew
  exact joined_of_detour hpasses (hx w c a c' hc h)

/-- The planner does not notice. -/
theorem Detours.mirrors (hx : Detours x) : Mirrors plan (fun p => p) x :=
  mirrors_of_detours Planner.plansAside_id hx

theorem Mirrors.bind (hx : Mirrors plan f x) (hk : ∀ a, Mirrors plan g (k a)) :
    Mirrors plan (fun p => g (f p)) (x >>= k) := by
  intro p w c b c' hp hc h
  obtain ⟨a, c₁, hxc, hkc⟩ := bind_eq_ok h
  have hfirst := hx p w c a c₁ hp hc hxc
  obtain ⟨new, taken, hadvances, -⟩ := hfirst.steps
  exact hfirst.trans (hk a (f p) w c₁ b c' hadvances.plannable hfirst.leveled hkc)

theorem Detours.before (hx : Detours x) (hk : ∀ a, Mirrors plan f (k a)) :
    Mirrors plan f (x >>= k) :=
  hx.mirrors.bind hk

theorem Mirrors.before (hx : Mirrors plan f x) (hk : ∀ a, Detours (k a)) :
    Mirrors plan f (x >>= k) :=
  hx.bind fun a => (hk a).mirrors

theorem mirrors_of_hands (hf : ∀ p : Planner, p.HandStep n (f p))
    (hx : ∀ w c a c', c.scope.Leveled → x w c = (.ok a, c') → c.Hands n c') : Mirrors plan f x :=
  fun p w c a c' hp hc h => joined_of_hands hp (hf p) (hx w c a c' hc h)

theorem mirrors_of_nameSteps (hf : ∀ p : Planner, ∃ new, p.NameStep n new (f p))
    (hx : ∀ w c a c', c.scope.Leveled → x w c = (.ok a, c') → c.Decides n c') :
    Mirrors plan f x := by
  intro p w c a c' hp hc h
  obtain ⟨new, hnew⟩ := hf p
  exact joined_of_nameSteps hp hnew (hx w c a c' hc h)

/-- **A block on both sides.** -/
theorem Mirrors.inBlock (hx : Mirrors plan f x) :
    Mirrors plan (fun p => (f p.enter).leave) (inBlock x) := by
  intro p w c a c' hp hc h
  obtain ⟨c₁, left, hinside, hpop, rfl⟩ := inFrame_eq_ok h
  have hjoined := hx p.enter w _ a c₁ hp.pushBlock (Scope.leveled_push hc .block) hinside
  obtain ⟨new, taken, hadvances, htaken, hlength, hstep⟩ := hjoined.steps
  obtain ⟨-, l, hblock, hlayers⟩ := hadvances.layers_leave
  obtain ⟨hplan, -⟩ := Planner.leave_plan (f p.enter)
  obtain ⟨-, hleft, hlevel⟩ := Scope.pop_layers hjoined.leveled hpop
  refine ⟨hlevel, new, taken, hadvances.leave.advances, htaken, hlength, ?_⟩
  intro hfollowed hwithin hin
  rw [hplan] at hwithin
  obtain ⟨hmatched, hstores⟩ := hstep hfollowed hwithin ⟨hin.layers.push, hin.stores⟩
  rw [hlayers] at hmatched
  exact ⟨hleft ▸ hmatched.tail hblock, hstores⟩

theorem Mirrors.looping (hx : Mirrors plan f x) : Mirrors plan f (looping x) := by
  intro p w c a c' hp hc h
  obtain ⟨c₁, hinside, rfl⟩ := looping_eq_ok h
  have hjoined := fun hlevel => hx p w _ a c₁ hp hlevel hinside
  exact (hjoined hc).of_eq rfl rfl rfl rfl rfl rfl

theorem Mirrors.catching (target : CatchTarget) (hx : Mirrors plan f x) :
    Mirrors plan f (catching target x) := by
  intro p w c a c' hp hc h
  obtain ⟨c₁, hinside, rfl⟩ := catching_eq_ok h
  have hjoined := fun hlevel => hx p w _ a c₁ hp hlevel hinside
  exact (hjoined hc).of_eq rfl rfl rfl rfl rfl rfl

theorem Mirrors.handling (payload : String) (hx : Mirrors plan f x) :
    Mirrors plan f (handling payload x) := by
  intro p w c a c' hp hc h
  obtain ⟨c₁, hinside, rfl⟩ := handling_eq_ok h
  have hjoined := fun hlevel => hx p w _ a c₁ hp hlevel hinside
  exact (hjoined hc).of_eq rfl rfl rfl rfl rfl rfl

/-- What is planned and not written goes with as many open decisions. -/
theorem mirrors_undecided {choices : Nat} (hf : Planner.PlansAside choices f) :
    Mirrors plan f (undecided choices) := by
  rintro p w c a c' hp hc ⟨⟩
  obtain ⟨new, hnew, hpasses⟩ := hf p hp
  refine ⟨hc, new, List.replicate choices none, hpasses.advances, rfl, ?_, fun _ hplan hin =>
    ⟨hin.layers.extends hpasses.layers hplan, hin.stores⟩⟩
  rw [hnew, List.length_replicate]

end Emit

end ClosureConversion
