import ClosureConversion.Proofs.Emit.Fitting
import ClosureConversion.Proofs.Emit.Simulation
import ClosureConversion.Proofs.Emit.Written

/-! # What is stored to -/

set_option autoImplicit false

namespace ClosureConversion

open Text (Shows)

/-! ## Stores that are accepted -/

/-- What the plan's record of a store says of the slot it goes to: variables and formals are as
the plan has them, and for the others the plan is not asked. -/
def SlotForm.AllowsStore (planned : Bool) : SlotForm → Prop
  | .declared _ | .formal _ => planned = true
  | .hoisted | .counter | .field _ => True
  | .payload | .receiver | .container => False

/-- The target accepts the store: its variable was introduced by a line of the body with `var`, or
it is reached through a pointer. -/
def WrittenBody.Accepts (written : WrittenBody) (line : StoreLine) : Prop :=
  ∃ b, line.previous = some b ∧
    ((b.slot.form.keyword? = some "var" ∧ ∃ rest, Note.introduced b.slot rest ∈ written.notes ∧
        Shows written.text ("var " ++ line.ident ++ rest)) ∨
      b.slot.form = .field true ∧ ∃ stem, line.ident = stem ++ ".*")

theorem Note.mem_stores {notes : List Note} {line : StoreLine} :
    line ∈ notes.filterMap Note.store? ↔ Note.stored line ∈ notes := by
  rw [List.mem_filterMap]
  constructor
  · rintro ⟨n, hn, hstore⟩
    cases n with
    | stored line' =>
      obtain rfl := Option.some.inj hstore
      exact hn
    | _ => cases hstore
  · exact fun h => ⟨_, h, rfl⟩

/-- What a slot that fits allows by the plan is what it is introduced for. -/
theorem Slot.Fits.allowsStore_iff {u : Usage} {plan : BodyPlan} {name : String} {slot : Slot}
    (h : slot.Fits u plan name) (hname : 0 < u.assignCount name) :
    slot.form.AllowsStore (plan.isMutable slot.ident) ↔
      slot.form.keyword? = some "var" ∨ slot.form = .field true := by
  obtain ⟨ident, form⟩ := slot
  cases form with
  | declared isVar | formal isVar =>
    obtain rfl : isVar = plan.isMutable ident := h
    cases hplanned : plan.isMutable ident <;> simp [SlotForm.AllowsStore, SlotForm.keyword?]
  | field pointer =>
    obtain rfl : pointer = true := h.1 hname
    exact ⟨fun _ => .inr rfl, fun _ => trivial⟩
  | hoisted | counter => exact ⟨fun _ => .inl rfl, fun _ => trivial⟩
  | payload | receiver | container => exact ⟨False.elim, fun h => h.elim nofun nofun⟩

namespace Emit

/-- The text has the line by which a variable was introduced. -/
theorem ShowsNotes.introduced {text keyword : String} {notes : List Note} {slot : Slot}
    (h : ShowsNotes text notes) (hnoted : slot.Noted notes)
    (hkeyword : slot.form.keyword? = some keyword) :
    ∃ rest, Note.introduced slot rest ∈ notes ∧
      Shows text (keyword ++ " " ++ slot.ident ++ rest) := by
  obtain ⟨rest, hmem⟩ := hnoted (by rw [hkeyword]; rfl)
  refine ⟨rest, hmem, h.lines _ hmem rfl _ ?_⟩
  rw [Note.text?, hkeyword]
  rfl

/-- A store that is placed is accepted if what it goes to allows it by the plan. -/
theorem accepts_iff_of_placed {written : WrittenBody} {u : Usage} {plan : BodyPlan}
    {line : StoreLine} (hshows : ShowsNotes written.text written.notes)
    (hplaced : line.Placed u plan written.notes) :
    written.Accepts line ↔
      ∃ b, line.previous = some b ∧ b.slot.form.AllowsStore (plan.isMutable line.ident) := by
  refine exists_congr fun b => and_congr_right fun hb => ?_
  obtain ⟨hident, hfits, hnoted⟩ := hplaced.slot b hb
  rw [← hident, hfits.allowsStore_iff hplaced.counted]
  refine or_congr (and_iff_left_of_imp fun hvar => ?_) (and_iff_left_of_imp fun hfield => ?_)
  · obtain ⟨rest, hmem, hshown⟩ := hshows.introduced hnoted hvar
    exact ⟨rest, hmem, hshown⟩
  · -- a pointer is spelled as what it points to
    unfold Slot.Fits at hfits
    rw [hfield] at hfits
    exact hfits.2 rfl

/-! ## Frames in which bodies are written -/

/-- A frame was opened for the body of `f`: that of a function of the module, in which its formals
are declared, or that of a closure, in which its captures are declared as well. -/
inductive Opened (w : Settings) (f : Function) (formals : List Formal) (c : Context) : Prop where
  | function (c₀ : Context) (name : String) (types : List Ty) (hlevel : c₀.scope.Leveled)
      (htypes : types.length = f.formals.length)
      (h : declareFormals f types (Usage.ofFunction f) w
        { c₀ with scope := c₀.scope.push (.function name f.formals) } = (.ok formals, c))
  | closure (c₀ : Context) (d : Draft) (s : Scope) (assumed : Option Bool) (e : Entry)
      (hlevel : c₀.scope.Leveled) (hmade : d.MadeIn s)
      (htypes : d.paramTypes.length = d.function.formals.length) (hfunction : d.function = f)
      (hformals : e.formals = formals)
      (h : enterClosure d assumed w { c₀ with scope := c₀.scope.push d.frameKind } = (.ok e, c))

/-- The names that stand in the frame when its body is planned. -/
structure Entered (f : Function) (formals : List Formal) (c : Context) : Prop where
  plannable : c.scope.Plannable
  layers : ∃ kind around outer, (Layer.new kind).isFunction = true ∧
    (∀ plan, ∀ i ∈ around, i.slot.form.isHanded = true ∧
      i.slot.Fits (Usage.ofFunction f) plan i.name) ∧
    c.scope.layers = (Layer.new kind).introduce (around ++ formals.map Formal.introduction) :: outer

/-- A function's own frame is one in which its body can be planned. -/
theorem plannable_of_innermost {s : Scope} {l : Layer} {outer : List Layer} (hlevel : s.Leveled)
    (hlayers : s.layers = l :: outer) (houter : outer ≠ []) (hfun : l.isFunction = true)
    (hspelled : l.Spelled)
    (hinnermost : s.Innermost fun _ b => b.slot.form.asksPlan = true → b.kind ≠ .captured) :
    s.Plannable := by
  have hinner : Layer.inner s.layers = [l] := by rw [hlayers, Layer.inner, if_pos hfun]
  obtain ⟨f, rest, hframes⟩ : ∃ f rest, s.frames = f :: rest := by
    have hlength := Scope.length_layers hlevel
    rcases hnil : s.frames with _ | ⟨f, rest⟩
    · rw [hnil, hlayers, List.length_cons] at hlength
      exact absurd (List.length_eq_zero_iff.mp (Nat.succ.inj hlength)) houter
    · exact ⟨f, rest, rfl⟩
  have hf : f.isFunction = true :=
    Scope.isFunction_of_layers hlayers hfun f (by rw [hframes]; rfl)
  have hall : s.allFrames = f :: (rest ++ [s.base]) := by
    rw [Scope.allFrames, hframes]
    rfl
  refine ⟨hlevel, ?_, fun m hm => ?_, fun g hg => ?_⟩
  · rw [hframes, List.any_cons, hf, Bool.true_or]
  · rw [hinner, List.mem_singleton] at hm
    rw [hm]
    exact hspelled
  · rw [hall, Scope.innerFrames, if_pos hf, List.mem_singleton] at hg
    exact hinnermost g (by rw [hall, hg]; rfl)

theorem Opened.entered {w : Settings} {f : Function} {formals : List Formal} {c : Context}
    (h : Opened w f formals c) : Entered f formals c := by
  have houter {s : Scope} (hs : s.Leveled) : s.layers ≠ [] := by
    intro hnil
    have hlength := Scope.length_layers hs
    rw [hnil] at hlength
    cases hlength
  cases h with
  | function c₀ name types hlevel htypes h =>
    obtain ⟨formals', c₁, is, hdeclare, ⟨-, rfl⟩, hlevel₁, hlayers, -⟩ :=
      declareFormals_introduces (w := w) f (Usage.ofFunction f) htypes
        { c₀ with scope := c₀.scope.push (.function name f.formals) }
        (Scope.leveled_push hlevel _) fun _ hn => absurd hn List.not_mem_nil
    have hpreserved := declareFormals_preserves
      (P := fun _ b => b.slot.form.asksPlan = true → b.kind ≠ .captured) f types
      (Usage.ofFunction f) (fun _ b hb _ => by rw [hb]; exact nofun) w
      { c₀ with scope := c₀.scope.push (.function name f.formals) } (c₀.scope.innermost_push _)
    rw [h] at hdeclare hpreserved
    cases hdeclare
    rw [Scope.layers_push] at hlayers
    refine ⟨plannable_of_innermost hlevel₁ hlayers (houter hlevel) ?_ ?_ hpreserved,
      .function name f.formals, [], c₀.scope.layers, rfl, fun _ i hi => absurd hi List.not_mem_nil,
      hlayers⟩
    · exact Layer.isFunction_of_kind (Layer.introduce_kind _)
    · exact (Layer.spelled_new _).introduce _
  | closure c₀ d s assumed e hlevel hmade htypes hfunction hformals h =>
    subst hfunction hformals
    obtain ⟨e', c₁, is, henter, ⟨-, receiver, handle, rfl⟩, hlevel₁, hlayers, -⟩ :=
      enterClosure_introduces (w := w) d assumed htypes
        { c₀ with scope := c₀.scope.push d.frameKind } (Scope.leveled_push hlevel d.frameKind)
        fun _ hn => absurd hn List.not_mem_nil
    obtain ⟨holder, hopens⟩ := enterClosure_opens (w := w) d assumed hmade.captured_ne_own
      (c := { c₀ with scope := c₀.scope.push d.frameKind })
      fun P => c₀.scope.innermost_push d.frameKind
    rw [h] at henter hopens
    cases henter
    rw [Scope.layers_push] at hlayers
    have hsorted : c.scope.Innermost fun _ b => b.slot.form.asksPlan = true → b.kind ≠ .captured := by
      intro g hg n b hb hasks hcaptured
      obtain ⟨x, -, -, rfl⟩ := (hopens g hg n b hb).captured hcaptured
      cases hasks
    refine ⟨plannable_of_innermost hlevel₁ hlayers (houter hlevel) ?_ ?_ hsorted, d.frameKind,
      d.around receiver handle, c₀.scope.layers, rfl, around_fits hmade receiver handle, hlayers⟩
    · exact Layer.isFunction_of_kind (Layer.introduce_kind _)
    · exact (Layer.spelled_new _).introduce _

/-! ## Where writing starts -/

/-- A slot is that of a name just declared, or was there before. -/
theorem slot_introduce {l : Layer} {is : List Introduction} {n : String} {slot : Slot}
    (h : (l.introduce is).slot? n = some slot) :
    (∃ i ∈ is, i.slot = slot) ∨ l.slot? n = some slot := by
  induction is generalizing l with
  | nil => exact .inr h
  | cons i rest ih =>
    rcases ih h with ⟨j, hj, hslot⟩ | hold
    · exact .inl ⟨j, List.mem_cons_of_mem i hj, hslot⟩
    · change (if i.name = n then some i.slot else l.slot? n) = some slot at hold
      split at hold
      · exact .inl ⟨i, List.mem_cons_self, Option.some.inj hold⟩
      · exact .inr hold

/-- The layer in which a body was planned, and the one in which it is written: formals are settled,
and the names are there that the plan hoists. -/
theorem matches_start (kind : FrameKind) (around : List Introduction) (formals : List Formal)
    {plan : BodyPlan} {is : List Introduction} (his : is.map Introduction.name = plan.hoistedNames)
    (hforms : ∀ i ∈ is, i.slot.form = .hoisted) :
    ((Layer.new kind).introduce (around ++ formals.map Formal.introduction)).Matches plan
      ((startLayer kind around formals plan).introduce is) where
  kind := by rw [Layer.introduce_kind, startLayer_kind, Layer.introduce_kind]; rfl
  binds n hn := Layer.binds_introduce.mpr (.inl ((Layer.binds_settleAll _).mpr hn))
  planned n slot _ hslot hasks := by
    rcases slot_introduce hslot with ⟨i, hi, rfl⟩ | hold
    · rw [hforms i hi] at hasks
      cases hasks
    · by_cases hformal : ∃ p ∈ formals, p.name = n
      · obtain ⟨p, -, hplanned, hsettled⟩ := slot_startLayer_of_formal kind around plan hformal
        obtain rfl := Option.some.inj (hsettled.symm.trans hold)
        exact ⟨_, hplanned, rfl, rfl⟩
      · obtain ⟨hsettled, hplanned⟩ := slot_startLayer_of_not_formal kind around plan
          fun p hp hname => hformal ⟨p, hp, hname⟩
        exact ⟨slot, hplanned.trans (hsettled.symm.trans hold), hasks, rfl⟩
  hoisted _ n hn := by
    rw [← his] at hn
    obtain ⟨i, hi, hname⟩ := List.mem_map.mp hn
    exact Layer.binds_introduce.mpr (.inr ⟨i, hi, hname⟩)

/-- Writing the body of `f` starts in `c₁`, after it was planned in `c`. -/
structure Begins (f : Function) (planned : BodyPlan) (c c₁ : Context) : Prop where
  usage : c₁.current.usage = some (Usage.ofFunction f)
  plan : c₁.current.plan = planned
  fits : c₁.Fits
  decisions : c₁.current.decisions = []
  stores : c₁.current.stores = []
  layers : Layer.Matched planned c.scope.layers c₁.scope.layers

/-- **Where writing a body starts it is in step with its plan.** -/
theorem functionBody_begins {w : Settings} {f : Function} {qualname : String}
    {formals : List Formal} {body : Buffer → Emit Buffer} {c c' : Context} {written : WrittenBody}
    (hentered : Entered f formals c)
    (h : functionBody f qualname formals (Usage.ofFunction f) body w c = (.ok written, c')) :
    ∃ c₁ out c₂ out', Begins f (planBody f.body c.scope w.oracle).plan c c₁ ∧
      body out w c₁ = (.ok out', c₂) ∧ written.notes = c₂.current.notes ∧
      written.decisions = c₂.current.decisions := by
  obtain ⟨kind, around, outer, hkind, haround, hlayers⟩ := hentered.layers
  obtain ⟨c₁, hplan, hlevel₁, hlayers₁, -⟩ := planFunction_settles (w := w) f qualname formals
    (Usage.ofFunction f) hentered.plannable.leveled hlayers fun p => Layer.binds_of_formal
  obtain ⟨⟨state, formals'⟩, c₁', hplanned, h⟩ := bind_eq_ok h
  rw [hplan] at hplanned
  cases hplanned
  obtain ⟨⟨out', ended⟩, c₂', hinside, h⟩ := bind_eq_ok h
  obtain ⟨c₂, hbody, rfl, rfl⟩ := inFunction_eq_ok hinside
  cases h
  obtain ⟨⟨⟩, c₃, hcopies, hbody⟩ := bind_eq_ok hbody
  cases hcopies
  obtain ⟨out, c₄, hhoists, hbody⟩ := bind_eq_ok hbody
  let plan := (planBody f.body c.scope w.oracle).plan
  have hfunction := startLayer_isFunction hkind around formals plan
  have hfits : Context.Fits { c₁ with current :=
      { qualname, span := f.span, plan, usage := some (Usage.ofFunction f)
        notes := (formals.map (·.planned plan)).filterMap Formal.copyNote? ++ [] } } := by
    refine ⟨hlevel₁, fun u hu l hl => ?_⟩
    obtain rfl := Option.some.inj hu
    rw [show c₁.scope.layers = startLayer kind around formals plan :: outer from hlayers₁,
      Layer.inner, if_pos hfunction, List.mem_singleton] at hl
    rw [hl, List.append_nil]
    exact startLayer_fits formals (fun i hi => (haround plan i hi).1)
      fun i hi => (haround plan i hi).2
  obtain ⟨out₁, c₅, heq, hrun, ⟨is, his, hforms, hlayers₂⟩, hdecisions, hstores⟩ :=
    hoists_of_foldlM (w := w) plan.hoisted
      (Buffer.lines {} ((formals.map (·.planned plan)).filterMap Formal.copyLine?))
      hfits.leveled hlayers₁ hfunction
  rw [hhoists] at heq
  cases heq
  have hcurrent := (hrun.continues hfits.leveled).current
  refine ⟨c₄, out, c₂, out', ⟨hcurrent.usage, hcurrent.plan, hrun.fits hfits, hdecisions,
    hstores.trans ?_, ?_⟩, hbody, rfl, rfl⟩
  · rw [FunctionState.stores, List.append_nil, List.filterMap_eq_nil_iff]
    exact fun _ => store?_of_copyNote?
  · rw [hlayers, hlayers₂]
    refine ⟨matches_start kind around formals his hforms, fun hblock => ?_⟩
    rw [Layer.isFunction_of_kind (Layer.introduce_kind _), hkind] at hblock
    cases hblock

/-! ## Bodies -/

section Body

variable {w : Settings} {f : Function} {qualname : String} {formals : List Formal}
  {body : Buffer → Emit Buffer} {c c' : Context} {written : WrittenBody}

/-- Planning a body and writing it both decide about every name of a target, in the same order. If
they decide the same, what is stored to was recorded. -/
structure WritesAsPlanned (planner : Planner) (choices : Nat) (written : WrittenBody) : Prop where
  planned : planner.decisions.length = choices
  taken : written.decisions.length = choices
  stores : List.Forall₂ Decision.Followed planner.decisions written.decisions →
    ∀ line, Note.stored line ∈ written.notes → line.Planned planner.plan

/-- **What is stored to in a body that is written as planned was recorded.** -/
theorem stores_planned (hentered : Entered f formals c) (hbody : f.WrittenBy body)
    (h : functionBody f qualname formals (Usage.ofFunction f) body w c = (.ok written, c')) :
    WritesAsPlanned (planBody f.body c.scope w.oracle) (Stmt.allChoices f.body) written := by
  obtain ⟨c₁, out, c₂, out', hbegins, hwrites, hnotes, hdecisions⟩ := functionBody_begins hentered h
  obtain rfl := hbody.eq_stmts
  let start : Planner := { scope := c.scope }
  let planner := planBody f.body c.scope w.oracle
  have hjoined : Joined planner.plan start planner c₁ c₂ :=
    stmts_mirrors w.oracle f.body out start w c₁ out' c₂ hentered.plannable hbegins.fits.leveled
      hwrites
  obtain ⟨new, taken, hadvances, htaken, hlength, hstep⟩ := hjoined.steps
  obtain ⟨new', hcount, hplans⟩ := Planner.stmts_plans w.oracle f.body start hentered.plannable
  have hnew : planner.decisions = new := hadvances.decisions.trans (List.append_nil new)
  have hnew' : planner.decisions = new' := hplans.decisions.trans (List.append_nil new')
  have htaken' : written.decisions = taken := by
    rw [hdecisions, htaken, hbegins.decisions, List.append_nil]
  have hplanned : planner.decisions.length = Stmt.allChoices f.body := by rw [hnew', hcount]
  refine ⟨hplanned, ?_, fun hfollowed line hline => ?_⟩
  · rw [htaken', ← hlength, ← hnew, hplanned]
  · have hfirst : InStep planner.plan start c₁ :=
      ⟨hbegins.layers, fun line hline => by
        rw [hbegins.stores] at hline
        cases hline⟩
    have hlast := hstep (by rwa [← hnew, ← htaken']) (.refl _) hfirst
    exact hlast.stores line (Note.mem_stores.mpr (hnotes ▸ hline))

/-- Every store of a body is placed. -/
theorem stores_placed (hentered : Entered f formals c) (hbody : f.WrittenBy body)
    (h : functionBody f qualname formals (Usage.ofFunction f) body w c = (.ok written, c'))
    {line : StoreLine} (hline : Note.stored line ∈ written.notes) :
    line.Placed (Usage.ofFunction f) (planBody f.body c.scope w.oracle).plan written.notes := by
  obtain ⟨c₁, out, c₂, out', hbegins, hwrites, hnotes, -⟩ := functionBody_begins hentered h
  obtain rfl := hbody.eq_stmts
  have hrun := stmts_runs f.body out (Finset.Subset.refl _) (Finset.Subset.refl _) w c₁
    (ready_of_usage hbegins.fits.leveled hbegins.usage)
  rw [hwrites] at hrun
  have hnone : c₁.StoresPlaced := fun u _ line hline => by
    rw [hbegins.stores] at hline
    cases hline
  have hcurrent := (hrun.continues hbegins.fits.leveled).current
  have hplaced := hrun.placed hbegins.fits hnone (Usage.ofFunction f)
    (hcurrent.usage.trans hbegins.usage) line (Note.mem_stores.mpr (hnotes ▸ hline))
  rw [hcurrent.plan, hbegins.plan] at hplaced
  rw [hnotes]
  exact hplaced

/-- **Which stores go to something that accepts them.** Whatever body is written, the text has the
line of every store, and the line that introduced the variable it goes to, under one identifier.
The store is accepted exactly if its name stands for a variable or a formal that the plan of the
body recorded, for a hoisted name, the counter of a loop or a field, which then is a pointer. The
plan records all variables and formals that are stored to if writing decides about the names of
targets as planning did; then only stores to what blocks are handed, to handles, to names of the
module and to names that are not bound in the function are misplaced. -/
theorem store_accepted_iff (hopened : Opened w f formals c) (hprelude : c.prelude.isEmpty = true)
    (hbody : f.WrittenBy body)
    (h : functionBody f qualname formals (Usage.ofFunction f) body w c = (.ok written, c')) :
    let planner := planBody f.body c.scope w.oracle
    planner.decisions.length = Stmt.allChoices f.body ∧
      written.decisions.length = Stmt.allChoices f.body ∧
      ∀ line, Note.stored line ∈ written.notes →
        Shows written.text (line.ident ++ line.rest) ∧
        (∀ b, line.previous = some b → b.slot.ident = line.ident ∧
          ∀ keyword, b.slot.form.keyword? = some keyword →
            ∃ rest, Note.introduced b.slot rest ∈ written.notes ∧
              Shows written.text (keyword ++ " " ++ line.ident ++ rest)) ∧
        (written.Accepts line ↔ ∃ b, line.previous = some b ∧
          b.slot.form.AllowsStore (planner.plan.isMutable line.ident)) ∧
        (List.Forall₂ Decision.Followed planner.decisions written.decisions →
          line.name ≠ "lambda" →
          (written.Accepts line ↔ ∃ b, line.previous = some b ∧ b.slot.form.AllowsStore true)) := by
  intro planner
  have hentered := hopened.entered
  obtain ⟨hplanned, htaken, hstores⟩ := stores_planned hentered hbody h
  have hshows : ShowsNotes written.text written.notes := by
    obtain rfl := hbody.eq_stmts
    exact functionBody_shows (stmts_tidy f.body) (fun _ _ => stmts_written f.body) hprelude h
  refine ⟨hplanned, htaken, fun line hline => ?_⟩
  have hplaced := stores_placed hentered hbody h hline
  have haccepts := accepts_iff_of_placed hshows hplaced
  refine ⟨hshows.lines _ hline rfl _ rfl, fun b hb => ?_, haccepts, fun hfollowed hname => ?_⟩
  · obtain ⟨hident, -, hnoted⟩ := hplaced.slot b hb
    rw [← hident]
    exact ⟨rfl, fun keyword hkeyword => hshows.introduced hnoted hkeyword⟩
  · refine haccepts.trans (exists_congr fun b => and_congr_right fun hb => ?_)
    have hident := (hplaced.slot b hb).1
    have hrecorded := hstores hfollowed line hline hname b hb
    rw [hident] at hrecorded
    cases hform : b.slot.form with
    | declared | formal => rw [hrecorded (by rw [hform]; rfl)]
    | _ => exact Iff.rfl

end Body

/-- `g` is a closure, and a number after it; the plan knows it as a number only. -/
def rebindsClosure : Function :=
  { name := "f"
    body := [
      .functionDef { name := "g", body := [.pass] },
      .assign (.name "g") (.constant (.int 5)) none,
      .assign (.name "g") (.constant (.int 6)) none,
      .ret (some (.name "g"))] }

/-- `g` is a number all along. -/
def rebindsNumber : Function := { rebindsClosure with body := rebindsClosure.body.tail }

/-- The text of a body, what was decided, and where its stores go. -/
def outline (written : WrittenBody) :
    String × List (Option Decision) × List (String × Option Slot) :=
  (written.text, written.decisions,
    (written.notes.filterMap Note.store?).map fun line =>
      (line.name, line.previous.map Binding.slot))

/-- The one store of a body, read off its outline. -/
theorem stored_of_outline {written : WrittenBody} {text name : String}
    {decisions : List (Option Decision)} {slot : Slot}
    (h : outline written = (text, decisions, [(name, some slot)])) :
    written.text = text ∧ written.decisions = decisions ∧
      ∃ line b, Note.stored line ∈ written.notes ∧ line.name = name ∧ line.previous = some b ∧
        b.slot = slot := by
  obtain ⟨htext, h⟩ := Prod.mk.inj h
  obtain ⟨hdecisions, hstores⟩ := Prod.mk.inj h
  obtain ⟨line, hlines, hline⟩ := List.map_eq_singleton_iff.mp hstores
  obtain ⟨hname, hprevious⟩ := Prod.mk.inj hline
  obtain ⟨b, hb, hslot⟩ := Option.map_eq_some_iff.mp hprevious
  refine ⟨htext, hdecisions, line, b, Note.mem_stores.mp ?_, hname, hb, hslot⟩
  rw [hlines]
  exact List.mem_singleton.mpr rfl

/-- The second number is stored to a constant if `g` was a closure before, where the plan was not
followed; else to a variable. -/
theorem store_accepted_rebindsClosure :
    let w : Settings := ⟨({} : Table).oracle, {}⟩
    let c : Context := { scope := ({} : Scope).push (.function "f" []) }
    (∃ written c', functionBody rebindsClosure "f" [] (Usage.ofFunction rebindsClosure)
        (stmts rebindsClosure.body) w c = (.ok written, c') ∧
      written.text =
        "var g = g__Closure\x7b\x7d;\nconst g__1: i64 = 5;\ng__1 = 6;\nreturn g__1;\n" ∧
      ∃ line, Note.stored line ∈ written.notes ∧ line.ident = "g__1" ∧ ¬ written.Accepts line) ∧
    ∃ written c', functionBody rebindsNumber "f" [] (Usage.ofFunction rebindsNumber)
        (stmts rebindsNumber.body) w c = (.ok written, c') ∧
      written.text = "var g: i64 = 5;\ng = 6;\nreturn g;\n" ∧
      ∃ line, Note.stored line ∈ written.notes ∧ line.ident = "g" ∧ written.Accepts line := by
  intro w c
  have hopened (f : Function) (hf : f.formals = []) : Opened w f [] c := by
    refine .function { scope := {} } "f" [] rfl (by rw [hf]; rfl) ?_
    unfold declareFormals
    rw [hf]
    rfl
  constructor
  · have houtline : (functionBody rebindsClosure "f" [] (Usage.ofFunction rebindsClosure)
        (stmts rebindsClosure.body) w c).1.toOption.map outline =
        some ("var g = g__Closure\x7b\x7d;\nconst g__1: i64 = 5;\ng__1 = 6;\nreturn g__1;\n",
          [some (.stores "g"), some (.declares "g" "g__1"), some (.declares "g" "g")],
          [("g", some ⟨"g__1", .declared false⟩)]) := by
      decide +kernel
    rcases hrun : functionBody rebindsClosure "f" [] (Usage.ofFunction rebindsClosure)
      (stmts rebindsClosure.body) w c with ⟨r, c'⟩
    rw [hrun] at houtline
    cases r with
    | error e => cases houtline
    | ok written =>
      obtain ⟨htext, -, line, b, hmem, -, hb, hslot⟩ := stored_of_outline (Option.some.inj houtline)
      obtain ⟨-, -, hall⟩ := store_accepted_iff (hopened _ rfl) rfl (.inl rfl) hrun
      obtain ⟨-, hintroduced, haccepts, -⟩ := hall line hmem
      have hident : line.ident = "g__1" := by rw [← (hintroduced b hb).1, hslot]
      refine ⟨written, c', rfl, htext, line, hmem, hident, fun haccepted => ?_⟩
      obtain ⟨b', hb', hallows⟩ := haccepts.mp haccepted
      obtain rfl := Option.some.inj (hb.symm.trans hb')
      rw [hslot, hident] at hallows
      have hrecorded : (planBody rebindsClosure.body c.scope w.oracle).plan.isMutable "g__1" =
          false := by decide +kernel
      exact Bool.false_ne_true (hrecorded.symm.trans hallows)
  · have houtline : (functionBody rebindsNumber "f" [] (Usage.ofFunction rebindsNumber)
        (stmts rebindsNumber.body) w c).1.toOption.map outline =
        some ("var g: i64 = 5;\ng = 6;\nreturn g;\n",
          [some (.stores "g"), some (.declares "g" "g")],
          [("g", some ⟨"g", .declared true⟩)]) := by
      decide +kernel
    have hplanned : (planBody rebindsNumber.body c.scope w.oracle).decisions =
        [.stores "g", .declares "g" "g"] := by decide +kernel
    rcases hrun : functionBody rebindsNumber "f" [] (Usage.ofFunction rebindsNumber)
      (stmts rebindsNumber.body) w c with ⟨r, c'⟩
    rw [hrun] at houtline
    cases r with
    | error e => cases houtline
    | ok written =>
      obtain ⟨htext, hdecisions, line, b, hmem, hname, hb, hslot⟩ :=
        stored_of_outline (Option.some.inj houtline)
      obtain ⟨-, -, hall⟩ := store_accepted_iff (hopened _ rfl) rfl (.inl rfl) hrun
      obtain ⟨-, hintroduced, -, hfollowed⟩ := hall line hmem
      have hident : line.ident = "g" := by rw [← (hintroduced b hb).1, hslot]
      refine ⟨written, c', rfl, htext, line, hmem, hident, (hfollowed ?_ ?_).mpr ⟨b, hb, ?_⟩⟩
      · rw [hplanned, hdecisions]
        exact .cons (fun d hd => (Option.some.inj hd).symm)
          (.cons (fun d hd => (Option.some.inj hd).symm) .nil)
      · rw [hname]
        decide
      · rw [hslot]
        exact rfl

end Emit

end ClosureConversion
