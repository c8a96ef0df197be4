import ClosureConversion.Proofs.Emit.Nested
import ClosureConversion.Proofs.Scope.Slots

/-! # Slots that fit a plan -/

set_option autoImplicit false

namespace ClosureConversion

/-- The slot of a name is the one that the plan and the usage of the body ask for. -/
def Slot.Fits (u : Usage) (plan : BodyPlan) (name : String) (slot : Slot) : Prop :=
  match slot.form with
  | .declared isVar => isVar = plan.isMutable slot.ident
  | .formal copied => copied = plan.isMutable slot.ident
  | .field pointer =>
    (0 < u.assignCount name → pointer = true) ∧
      (pointer = true → ∃ stem, slot.ident = stem ++ ".*")
  | .hoisted | .counter | .payload | .receiver | .container => True

/-- A slot of what the body is handed from around it. -/
def SlotForm.isHanded : SlotForm → Bool
  | .field _ | .receiver => true
  | _ => false

/-! ## Layers that fit a plan -/

/-- Names are spelled as their slots say, which fit the plan and were noted where a line introduced
them. -/
structure Layer.Fits (u : Usage) (plan : BodyPlan) (notes : List Note) (l : Layer) : Prop where
  spelled : l.Spelled
  slots : ∀ n slot, l.slot? n = some slot → slot.Fits u plan n ∧ slot.Noted notes

namespace Layer

variable {u : Usage} {plan : BodyPlan} {notes more : List Note} {l : Layer}

theorem Spelled.introduce (h : l.Spelled) (is : List Introduction) :
    (l.introduce is).Spelled := by
  induction is generalizing l with
  | nil => exact h
  | cons i rest ih => exact ih (h.bind i.name i.slot)

theorem Spelled.settleAll (h : l.Spelled) (formals : List Formal) :
    (l.settleAll formals).Spelled := by
  intro n
  rw [settleAll_ident?, settleAll_slot_ident]
  exact h n

theorem fits_new (u : Usage) (plan : BodyPlan) (notes : List Note) (kind : FrameKind) :
    (new kind).Fits u plan notes :=
  ⟨spelled_new kind, fun _ _ h => nomatch h⟩

theorem Fits.mono (h : l.Fits u plan notes) (hnotes : notes ⊆ more) : l.Fits u plan more :=
  ⟨h.spelled, fun n slot hn => (h.slots n slot hn).imp_right fun hnoted => hnoted.mono hnotes⟩

theorem Fits.bind (h : l.Fits u plan notes) {name : String} {slot : Slot}
    (hslot : slot.Fits u plan name) (hnoted : slot.Noted notes) :
    (l.bind name slot).Fits u plan notes := by
  refine ⟨h.spelled.bind name slot, fun n slot' hn => ?_⟩
  change (if name = n then some slot else l.slot? n) = some slot' at hn
  split at hn
  · rename_i hname
    obtain rfl := Option.some.inj hn
    exact ⟨hname ▸ hslot, hnoted⟩
  · exact h.slots n slot' hn

theorem Fits.introduce (h : l.Fits u plan notes) {is : List Introduction}
    (his : ∀ i ∈ is, i.slot.Fits u plan i.name ∧ i.slot.Noted notes) :
    (l.introduce is).Fits u plan notes := by
  induction is generalizing l with
  | nil => exact h
  | cons i rest ih =>
    obtain ⟨hfits, hnoted⟩ := his i List.mem_cons_self
    exact ih (h.bind hfits hnoted) fun j hj => his j (List.mem_cons_of_mem i hj)

end Layer

/-! ## Where bodies start -/

/-- A formal is copied if the plan records its identifier. Of several formals with one name the
last counts, for what the name stands for and for whether it is copied. -/
theorem slot_startLayer_of_formal (kind : FrameKind) (around : List Introduction)
    {formals : List Formal} (plan : BodyPlan) {n : String} (h : ∃ p ∈ formals, p.name = n) :
    ∃ p ∈ formals,
      ((Layer.new kind).introduce (around ++ formals.map Formal.introduction)).slot? n =
        some ⟨p.ident, .formal false⟩ ∧
      (Emit.startLayer kind around formals plan).slot? n =
        some ⟨p.ident, .formal (plan.isMutable p.ident)⟩ := by
  obtain ⟨pre, p, post, rfl, hp, hpost⟩ := exists_last h
  refine ⟨p, List.mem_append_right pre List.mem_cons_self, ?_⟩
  rw [Emit.startLayer, List.map_append, List.map_append, List.map_cons, List.map_cons,
    ← List.append_assoc]
  have hintroduced : ((Layer.new kind).introduce (around ++ pre.map Formal.introduction ++
      p.introduction :: post.map Formal.introduction)).slot? n = some ⟨p.ident, .formal false⟩ := by
    refine (Layer.introduce_last hp fun i hi => ?_).1
    obtain ⟨q, hq, rfl⟩ := List.mem_map.mp hi
    exact hpost q hq
  refine ⟨hintroduced, Layer.settleAll_last (p := p.planned plan) hp (fun q' hq' => ?_) hintroduced⟩
  obtain ⟨q, hq, rfl⟩ := List.mem_map.mp hq'
  exact hpost q hq

/-- A name that is no formal is what it was before the formals were declared and settled. -/
theorem slot_startLayer_of_not_formal (kind : FrameKind) (around : List Introduction)
    {formals : List Formal} (plan : BodyPlan) {n : String} (h : ∀ p ∈ formals, p.name ≠ n) :
    (Emit.startLayer kind around formals plan).slot? n =
        ((Layer.new kind).introduce around).slot? n ∧
      ((Layer.new kind).introduce (around ++ formals.map Formal.introduction)).slot? n =
        ((Layer.new kind).introduce around).slot? n := by
  have hintroduced : ((Layer.new kind).introduce (around ++ formals.map Formal.introduction)).slot?
      n = ((Layer.new kind).introduce around).slot? n := by
    rw [Layer.introduce_append]
    refine (Layer.introduce_of_not_mem fun i hi => ?_).1
    obtain ⟨p, hp, rfl⟩ := List.mem_map.mp hi
    exact h p hp
  refine ⟨?_, hintroduced⟩
  rw [Emit.startLayer, Layer.settleAll_of_not_mem, hintroduced]
  intro q hq
  obtain ⟨p, hp, rfl⟩ := List.mem_map.mp hq
  exact h p hp

/-- The copy of a formal that the plan records is noted. -/
theorem noted_of_copies {formals : List Formal} (plan : BodyPlan) {p : Formal} (hp : p ∈ formals) :
    Slot.Noted ((formals.map (·.planned plan)).filterMap Formal.copyNote?)
      ⟨p.ident, .formal (plan.isMutable p.ident)⟩ := by
  intro hwritten
  have hcopied : plan.isMutable p.ident = true := by
    cases hmutable : plan.isMutable p.ident with
    | true => rfl
    | false =>
      rw [hmutable] at hwritten
      cases hwritten
  obtain ⟨rest, hrest⟩ : ∃ rest, (p.planned plan).copyRest? = some rest := by
    unfold Formal.copyRest?
    rw [show (p.planned plan).reassigned = true from hcopied]
    split
    · contradiction
    · split <;> exact ⟨_, rfl⟩
  refine ⟨rest, List.mem_filterMap.mpr ⟨_, List.mem_map_of_mem hp, ?_⟩⟩
  rw [Formal.copyNote?, hrest, hcopied]
  rfl

/-- **The frame of a function starts with slots that fit**, once the copies of its formals are
noted. -/
theorem startLayer_fits {kind : FrameKind} {around : List Introduction} (formals : List Formal)
    {u : Usage} {plan : BodyPlan} (hhanded : ∀ i ∈ around, i.slot.form.isHanded = true)
    (haround : ∀ i ∈ around, i.slot.Fits u plan i.name) :
    (Emit.startLayer kind around formals plan).Fits u plan
      ((formals.map (·.planned plan)).filterMap Formal.copyNote?) := by
  refine ⟨((Layer.spelled_new kind).introduce _).settleAll _, fun n slot hn => ?_⟩
  by_cases hformal : ∃ p ∈ formals, p.name = n
  · obtain ⟨p, hp, -, hslot⟩ := slot_startLayer_of_formal kind around plan hformal
    obtain rfl := Option.some.inj (hslot.symm.trans hn)
    exact ⟨rfl, noted_of_copies plan hp⟩
  · have hother : ∀ p ∈ formals, p.name ≠ n := fun p hp hname => hformal ⟨p, hp, hname⟩
    rw [(slot_startLayer_of_not_formal kind around plan hother).1] at hn
    refine ((Layer.fits_new u plan _ kind).introduce fun i hi => ⟨haround i hi, ?_⟩).slots n slot hn
    intro hwritten
    have hform := hhanded i hi
    cases hslot : i.slot.form <;> rw [hslot] at hform hwritten <;> contradiction

/-- A name that the body binds and that is not its own is declared nonlocal. -/
theorem isNonlocal_of_binds {f : Function} {n : String}
    (hbinds : 0 < (Usage.ofFunction f).assignCount n) (hformal : f.hasFormal n = false)
    (hassigned : (Usage.ofFunction f).isAssigned n = false)
    (hglobal : (Usage.ofFunction f).isGlobal n = false) :
    (Usage.ofFunction f).isNonlocal n = true := by
  have hclosed := Usage.ofBody_closed f.name f.formals f.body
  by_contra hlocal
  have hcount : n ∈ (Stmt.bodyFootprint f.body).bindings := by
    rw [← List.count_pos_iff, ← hclosed.counts]
    exact hbinds
  refine Bool.false_ne_true (hassigned.symm.trans (List.elem_eq_true_of_mem ?_))
  refine (hclosed.assigned n).mpr ⟨hcount, fun hmem => hlocal ?_, fun hmem => ?_, fun hmem => ?_⟩
  · exact List.elem_eq_true_of_mem ((hclosed.nonlocals n).mpr hmem)
  · exact Bool.false_ne_true
      (hglobal.symm.trans (List.elem_eq_true_of_mem ((hclosed.globals n).mpr hmem)))
  · exact Bool.false_ne_true (hformal.symm.trans (List.elem_eq_true_of_mem hmem))

/-- A captured name that the body binds is held by a pointer: it is not the body's own, so the
body declares it nonlocal. -/
theorem fits_introduction_of_mem_captures {f : Function} {s : Scope} {qualname : String}
    {r : Capture.Resolved} (hr : Capture.resolve f (Usage.ofFunction f) s qualname = .ok r)
    {c : Capture} (hc : c ∈ r.captures.toList) (receiver : String) (plan : BodyPlan) :
    (c.introduction receiver).slot.Fits (Usage.ofFunction f) plan c.name := by
  have hverdict := ((Capture.mem_captures_iff hr).mp hc).2
  constructor
  · intro hbinds
    obtain ⟨hformal, -, hglobal, hassigned⟩ := Capture.unowned_of_verdict hverdict
    have hnonlocal := isNonlocal_of_binds hbinds hformal hassigned hglobal
    have hwrites : (Usage.ofFunction f).writesThrough c.name = true := by
      rw [Usage.writesThrough, hnonlocal, Bool.true_or]
    exact beq_iff_eq.mpr (Capture.mode_of_verdict hverdict hwrites)
  · intro hpointer
    have hmode : c.mode = .byReference := beq_iff_eq.mp hpointer
    exact ⟨_, if_pos hmode⟩

/-- A closure's body is handed fields of its environment and its own handle. -/
theorem around_fits {d : Emit.Draft} {s : Scope} (hmade : d.MadeIn s) (receiver handle : String)
    (plan : BodyPlan) : ∀ i ∈ d.around receiver handle,
      i.slot.form.isHanded = true ∧ i.slot.Fits (Usage.ofFunction d.function) plan i.name := by
  obtain ⟨r, hr, hcaptures⟩ := hmade.captures
  rw [hmade.usage] at hr
  intro i hi
  rcases List.mem_append.mp hi with hcapture | hhandle
  · obtain ⟨x, hx, rfl⟩ := List.mem_map.mp hcapture
    rw [hcaptures] at hx
    exact ⟨rfl, fits_introduction_of_mem_captures hr hx receiver plan⟩
  · split at hhandle
    · obtain rfl := List.mem_singleton.mp hhandle
      exact ⟨rfl, trivial⟩
    · cases hhandle

/-! ## Bodies that fit their plans -/

/-- If a body is being written, the layers of its function fit its plan and its notes. -/
structure Context.Fits (c : Context) : Prop where
  leveled : c.scope.Leveled
  layers : ∀ u, c.current.usage = some u → ∀ l ∈ Layer.inner c.scope.layers,
    l.Fits u c.current.plan c.current.notes

namespace Context.Fits

variable {c c' : Context}

/-- The same layers fit the same plan, however much is noted. -/
theorem same (h : c.Fits) (hlevel : c'.scope.Leveled) (hlayers : c'.scope.layers = c.scope.layers)
    (hcurrent : c.current.Same c'.current) (hnotes : c.current.notes ⊆ c'.current.notes) :
    c'.Fits := by
  refine ⟨hlevel, fun u hu l hl => ?_⟩
  rw [hlayers] at hl
  rw [hcurrent.plan]
  exact (h.layers u (hcurrent.usage.symm.trans hu) l hl).mono hnotes

theorem modifyHead (h : c.Fits) {name : String} {slot : Slot} (hlevel : c'.scope.Leveled)
    (hlayers : c'.scope.layers = c.scope.layers.modifyHead (Layer.bind name slot))
    (hcurrent : c.current.Same c'.current) (hnotes : c.current.notes ⊆ c'.current.notes)
    (hslot : ∀ u, c.current.usage = some u → slot.Fits u c.current.plan name)
    (hnoted : slot.Noted c'.current.notes) : c'.Fits := by
  refine ⟨hlevel, fun u hu l hl => ?_⟩
  rw [hcurrent.usage] at hu
  rw [hcurrent.plan]
  rw [hlayers] at hl
  have hkind : ∀ m, (Layer.bind name slot m).kind = m.kind := fun _ => rfl
  rcases Layer.mem_inner_modifyHead hkind hl with hold | ⟨m, hm, rfl⟩
  · exact (h.layers u hu l hold).mono hnotes
  · exact ((h.layers u hu m hm).mono hnotes).bind (hslot u hu) hnoted

theorem declareAs (h : c.Fits) {name ident : String} {b : Binding} (hident : b.slot.ident = ident)
    (hslot : ∀ u, c.current.usage = some u → b.slot.Fits u c.current.plan name)
    (hnoted : b.slot.Noted c.current.notes) :
    ({ c with scope := c.scope.declareAs name ident b } : Context).Fits :=
  h.modifyHead (Scope.leveled_declareAs h.leveled name ident b)
    (Scope.layers_declareAs h.leveled name hident) (.refl _) (List.Subset.refl _) hslot hnoted

theorem pushBlock (h : c.Fits) : ({ c with scope := c.scope.pushBlock } : Context).Fits := by
  refine ⟨Scope.leveled_push h.leveled .block, fun u hu l hl => ?_⟩
  rcases List.mem_cons.mp hl with rfl | hmem
  · exact Layer.fits_new u _ _ .block
  · exact h.layers u hu l hmem

/-- What a name is bound to in the function is what it is spelled as; it fits, and was noted. -/
theorem lookup (h : c.Fits) {u : Usage} (hu : c.current.usage = some u) {n : String} {b : Binding}
    (hb : c.scope.lookupInFunction n = some b) :
    b.slot.ident = c.scope.ident n ∧ b.slot.Fits u c.current.plan n ∧
      b.slot.Noted c.current.notes := by
  have hslot := Scope.lookupInFunction_slot h.leveled n
  rw [hb] at hslot
  have hfound := hslot.symm
  refine ⟨?_, ?_⟩
  · rw [Scope.ident, Scope.resolve?_eq h.leveled,
      Layer.findSome?_ident (fun l hl => (h.layers u hu l hl).spelled) hfound]
    rfl
  · obtain ⟨l, hl, hln⟩ := List.exists_of_findSome?_eq_some hfound
    exact (h.layers u hu l hl).slots n b.slot hln

end Context.Fits

/-- Notes are only added while a body is written. -/
theorem Run.notes_subset {c c' : Context} (h : Run c c') : c.current.notes ⊆ c'.current.notes := by
  induction h with
  | refl | payload | hoist | resolve | wrapper | body => exact List.Subset.refl _
  | trans _ _ ih ih' => exact List.Subset.trans ih ih'
  | still _ _ hcurrent =>
    obtain ⟨new, hnew, -⟩ := hcurrent.notes
    rw [hnew]
    exact List.subset_append_right new _
  | assign _ _ _ _ _ _ ih | update _ _ _ _ ih => exact List.subset_cons_of_subset _ ih
  | catching _ _ ih | handling _ _ ih | block _ _ ih | rewind _ ih => exact ih

/-- **Slots fit the plan of a body for as long as it is written.** -/
theorem Run.fits {c c' : Context} (h : Run c c') (hc : c.Fits) : c'.Fits := by
  induction h with
  | refl c => exact hc
  | trans _ _ ih ih' => exact ih' (ih hc)
  | still hreserves htrace hcurrent =>
    have hsame := hreserves.sameLayers
    exact hc.same (hsame.leveled hc.leveled) hsame.layers hcurrent.toSame
      (Run.still hreserves htrace hcurrent).notes_subset
  | payload c name ident b hslot hnoted _ =>
    have hfits : ∀ u, b.slot.Fits u c.current.plan name := by
      rcases hslot with hslot | hslot <;> exact fun u => by rw [hslot]; exact trivial
    have hident : b.slot.ident = ident := by
      rcases hslot with hslot | hslot <;> exact congrArg Slot.ident hslot
    exact hc.declareAs hident (fun u _ => hfits u) hnoted
  | hoist c name ident b hslot hnoted _ hhead =>
    rw [Scope.declareInFunction_eq_declareAs hc.leveled hhead]
    exact hc.declareAs (congrArg Slot.ident hslot) (fun u _ => by rw [hslot]; exact trivial) hnoted
  | @assign c c₁ n ty source rest _ _ ih =>
    have hrun := ih hc
    obtain ⟨hlevel, hlayers⟩ := Assignment.layers_commit (s := c.scope) hrun.leveled n ty
      (c₁.current.plan.isMutable (Assignment.plan c.scope n ty).ident) source
    have hnotes := List.subset_cons_of_subset
      (c₁.noteOf (Assignment.plan c.scope n ty) rest) (List.Subset.refl c₁.current.notes)
    cases hdeclares : (Assignment.plan c.scope n ty).declares with
    | true =>
      rw [hdeclares, if_pos rfl] at hlayers
      refine hrun.modifyHead hlevel hlayers ⟨rfl, rfl, rfl, rfl, rfl, rfl⟩ hnotes (fun u _ => rfl)
        fun _ => ⟨rest, ?_⟩
      refine List.mem_cons.mpr (.inl ?_)
      rw [Context.noteOf, hdeclares]
      rfl
    | false =>
      rw [hdeclares] at hlayers
      exact hrun.same hlevel hlayers ⟨rfl, rfl, rfl, rfl, rfl, rfl⟩ hnotes
  | update n rest _ _ ih =>
    exact (ih hc).same (ih hc).leveled rfl ⟨rfl, rfl, rfl, rfl, rfl, rfl⟩
      (List.subset_cons_of_subset _ (List.Subset.refl _))
  | catching | handling =>
    rename_i ih
    have hrun := ih ⟨hc.leveled, hc.layers⟩
    exact ⟨hrun.leveled, hrun.layers⟩
  | @block c c₁ left h hpop ih =>
    have hrun := ih hc.pushBlock
    obtain ⟨-, hleft, hlevel⟩ := Scope.pop_layers hrun.leveled hpop
    refine ⟨hlevel, fun u hu l hl => hrun.layers u hu l ?_⟩
    obtain ⟨m, rest, hlayers, hkind, -⟩ :=
      (h.continues (Scope.leveled_push hc.leveled .block)).grown.head
    rw [hleft, hlayers] at hl
    rw [hlayers, Layer.inner, Layer.isFunction_of_kind hkind]
    exact List.mem_cons_of_mem m hl
  | resolve => exact ⟨hc.leveled, hc.layers⟩
  | body d s receiver handle _ _ _ hstart _ h hpop _ =>
    obtain ⟨hlayers, hlevel⟩ := hstart.layers_of_pop rfl (h.continues hstart.leveled) hpop
    exact hc.same hlevel hlayers (.refl _) (List.Subset.refl _)
  | rewind h _ => exact hc.same hc.leveled rfl (h.continues hc.leveled).current h.notes_subset
  | wrapper c name ident b hslot hnoted _ =>
    exact hc.declareAs (congrArg Slot.ident hslot) (fun u _ => by rw [hslot]; rfl) hnoted

/-! ## Stores -/

/-- The body binds the name that is stored to, and the store is spelled as what the name stood for,
which fits the plan and was noted if a line introduced it. -/
structure StoreLine.Placed (u : Usage) (plan : BodyPlan) (notes : List Note) (line : StoreLine) :
    Prop where
  counted : 0 < u.assignCount line.name
  slot : ∀ b, line.previous = some b →
    b.slot.ident = line.ident ∧ b.slot.Fits u plan line.name ∧ b.slot.Noted notes

theorem StoreLine.Placed.mono {u : Usage} {plan : BodyPlan} {notes more : List Note}
    {line : StoreLine} (h : line.Placed u plan notes) (hnotes : notes ⊆ more) :
    line.Placed u plan more :=
  ⟨h.counted, fun b hb => (h.slot b hb).imp_right fun hslot =>
    hslot.imp_right fun hnoted => hnoted.mono hnotes⟩

theorem placed_of_stores {c : Context} {u : Usage} (hc : c.Fits) (hu : c.current.usage = some u)
    {n : String} (hn : c.Stores n) (rest : String) :
    StoreLine.Placed u c.current.plan c.current.notes
      ⟨n, c.scope.ident n, rest, c.scope.lookupInFunction n⟩ := by
  obtain ⟨u', hu', hcount⟩ := hn
  obtain rfl : u = u' := Option.some.inj (hu.symm.trans hu')
  exact ⟨hcount, fun b hb => hc.lookup hu hb⟩

/-- Every store of the body that is being written is placed. -/
def Context.StoresPlaced (c : Context) : Prop :=
  ∀ u, c.current.usage = some u →
    ∀ line ∈ c.current.stores, line.Placed u c.current.plan c.current.notes

/-- No store is added. -/
theorem Context.StoresPlaced.same {c c' : Context} (h : c.StoresPlaced)
    (hcurrent : c.current.Same c'.current) (hnotes : c.current.notes ⊆ c'.current.notes)
    (hstores : c'.current.stores = c.current.stores) : c'.StoresPlaced := by
  intro u hu line hline
  rw [hstores] at hline
  rw [hcurrent.plan]
  exact (h u (hcurrent.usage.symm.trans hu) line hline).mono hnotes

/-- A store is added by the line that was just noted. -/
theorem Context.StoresPlaced.noted {c : Context} {line : StoreLine} (h : c.StoresPlaced)
    (hline : ∀ u, c.current.usage = some u → line.Placed u c.current.plan c.current.notes) :
    (c.noted (.stored line)).StoresPlaced := by
  have hnotes := List.subset_cons_of_subset (Note.stored line) (List.Subset.refl c.current.notes)
  intro u hu line' hline'
  rcases List.mem_cons.mp (show line' ∈ line :: c.current.stores from hline') with rfl | hold
  · exact (hline u hu).mono hnotes
  · exact (h u hu line' hold).mono hnotes

/-- **Every store that is noted while a body is written is placed.** -/
theorem Run.placed {c c' : Context} (h : Run c c') :
    c.Fits → c.StoresPlaced → c'.StoresPlaced := by
  induction h with
  | refl | payload | hoist | resolve | wrapper => exact fun _ hs => hs
  | trans h _ ih ih' => exact fun hc hs => ih' (h.fits hc) (ih hc hs)
  | still hreserves htrace hcurrent =>
    intro _ hs
    refine hs.same hcurrent.toSame (Run.still hreserves htrace hcurrent).notes_subset ?_
    obtain ⟨new, hnew, hnone⟩ := hcurrent.notes
    unfold FunctionState.stores
    rw [hnew, List.filterMap_append, List.filterMap_eq_nil_iff.mpr hnone, List.nil_append]
  | @assign c c₁ n ty source rest hn h ih =>
    intro hc hs
    have hplaced := ih hc hs
    have hcurrent := (h.continues hc.leveled).current
    cases hdeclares : (Assignment.plan c.scope n ty).declares with
    | true =>
      refine hplaced.same ⟨rfl, rfl, rfl, rfl, rfl, rfl⟩
        (List.subset_cons_of_subset _ (List.Subset.refl _)) ?_
      show (c₁.noteOf _ rest :: c₁.current.notes).filterMap Note.store? = _
      rw [Context.noteOf, hdeclares]
      rfl
    | false =>
      have hreuse := Assignment.resolution_of_not_declares hdeclares
      have hnoted : c₁.noteOf (Assignment.plan c.scope n ty) rest =
          .stored ⟨n, c.scope.ident n, rest, c.scope.lookupInFunction n⟩ := by
        rw [Context.noteOf, hdeclares, Assignment.ident_of_reuse hreuse]
        rfl
      have hwhole : (c₁.noted (.stored ⟨n, c.scope.ident n, rest,
          c.scope.lookupInFunction n⟩)).StoresPlaced := by
        refine hplaced.noted fun u hu => ?_
        rw [hcurrent.plan]
        exact (placed_of_stores hc (hcurrent.usage.symm.trans hu) hn rest).mono h.notes_subset
      rw [← hnoted] at hwhole
      exact hwhole
  | @update c c₁ n rest hn h ih =>
    intro hc hs
    have hcurrent := (h.continues hc.leveled).current
    refine (ih hc hs).noted fun u hu => ?_
    rw [hcurrent.plan]
    exact (placed_of_stores hc (hcurrent.usage.symm.trans hu) hn rest).mono h.notes_subset
  | catching | handling =>
    rename_i ih
    exact fun hc hs => ih ⟨hc.leveled, hc.layers⟩ hs
  | block _ _ ih => exact fun hc hs => ih hc.pushBlock hs
  | body => exact fun _ hs => hs
  | rewind _ ih => exact fun hc hs => ih hc hs

end ClosureConversion
