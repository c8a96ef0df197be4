import ClosureConversion.Proofs.Capture.Enclosing
import ClosureConversion.Proofs.Capture.Partition
import ClosureConversion.Proofs.Conversion.Observations
import ClosureConversion.Proofs.Emit.Fitting
import ClosureConversion.Proofs.Emit.Confinement
import ClosureConversion.Proofs.Scope.Retention

/-! # Captures that are captured again -/

set_option autoImplicit false

namespace ClosureConversion

/-! ## Two fields -/

namespace Capture

/-- The field itself, which is a pointer if the variable is held by reference. -/
def path (receiver : String) (c : Capture) : String := s!"{receiver}.{fieldName c.name}"

/-- `c` is made from the binding that stands for `held` in a closure's body; `writes` says whether
the new closure writes the variable. -/
structure Recaptures (c held : Capture) (receiver : String) (writes : Prop) : Prop where
  kind : c.kind = .captured
  source : c.source = held.access receiver
  mode : c.mode = .byReference ↔ writes ∨ held.mode = .byReference
  ty : c.ty = held.ty ∨ held.ty = .unknown ∧ held.mode = .byReference
  handle : held.kind = .selfHandle → held.ty ≠ .unknown

theorem pointer?_append (stem : String) : pointer? (stem ++ ".*") = some stem := by
  simp [pointer?]

theorem length_of_pointer? {ident stem : String} (h : pointer? ident = some stem) :
    stem.length + 2 = ident.length := by
  unfold pointer? at h
  split at h
  · rename_i rest hrest
    obtain rfl := Option.some.inj h
    have hlength := congrArg List.length hrest
    simp only [List.length_reverse, List.length_cons, String.length_toList] at hlength
    simp only [String.length_ofList, List.length_reverse]
    omega
  · cases h

namespace Recaptures

variable {c held : Capture} {receiver : String} {writes : Prop}

/-- The new field is filled with the old one unless a pointer to it would have to be made. -/
theorem fieldInit_iff (h : c.Recaptures held receiver writes) :
    c.fieldInit = held.path receiver ↔ (writes → held.mode = .byReference) := by
  have hsource := h.source
  unfold access at hsource
  change c.source = if held.mode = .byReference then held.path receiver ++ ".*"
    else held.path receiver at hsource
  unfold fieldInit
  by_cases hheld : held.mode = .byReference
  · have hmode : c.mode = .byReference := h.mode.mpr (.inr hheld)
    rw [if_pos hheld] at hsource
    simp only [hmode, hsource, pointer?_append]
    exact ⟨fun _ _ => hheld, fun _ => rfl⟩
  · rw [if_neg hheld] at hsource
    by_cases hwrites : writes
    · have hmode : c.mode = .byReference := h.mode.mpr (.inl hwrites)
      simp only [hmode, hsource]
      refine ⟨fun heq => ?_, fun hall => absurd (hall hwrites) hheld⟩
      exfalso
      have hlength := congrArg String.length heq
      cases hpointer : pointer? (held.path receiver) with
      | some stem =>
        have hstem := length_of_pointer? hpointer
        rw [hpointer] at hlength
        simp only [Option.getD_some] at hlength
        omega
      | none =>
        have hamp : "&".length = 1 := rfl
        rw [hpointer] at hlength
        change ("&" ++ held.path receiver).length = _ at hlength
        rw [String.length_append] at hlength
        omega
    · have hmode : c.mode ≠ .byReference := fun hc => (h.mode.mp hc).elim hwrites hheld
      have hplain : c.fieldInit = held.path receiver := by
        unfold fieldInit
        split
        · rename_i hc
          exact absurd hc hmode
        · exact hsource
      exact ⟨fun _ hw => absurd hw hwrites, fun _ => hplain⟩

/-- The type of a variable that is no handle. -/
theorem fieldType_of_ne {c : Capture} (h : c.kind ≠ .selfHandle) :
    c.fieldType = if c.mode = .byReference then "*" ++ c.ty.target else c.ty.target := by
  unfold fieldType
  split
  · rename_i hkind
    exact absurd hkind h
  · rename_i hmode _
    rw [if_pos hmode]
    rfl
  · rename_i hmode _
    rw [if_neg hmode]

/-- The new field has the type of the old one unless the old one is a handle, or its type was found
in the meantime, or only the new one is a pointer. -/
theorem fieldType_iff (h : c.Recaptures held receiver writes) :
    c.fieldType = held.fieldType ↔ held.kind ≠ .selfHandle ∧ c.ty.target = held.ty.target ∧
      (writes → held.mode = .byReference) := by
  have hkind : c.kind ≠ .selfHandle := by
    rw [h.kind]
    exact nofun
  rw [fieldType_of_ne hkind]
  by_cases hhandle : held.kind = .selfHandle
  · -- a handle is a constant pointer, which no captured variable is
    refine ⟨fun heq => ?_, fun hall => absurd hhandle hall.1⟩
    exfalso
    have hty : c.ty = held.ty := h.ty.resolve_right fun hunknown => h.handle hhandle hunknown.1
    have hfield : held.fieldType = "*const " ++ held.ty.target := by
      unfold fieldType
      rw [hhandle]
      rfl
    have hstar : "*".length = 1 := rfl
    have hconst : "*const ".length = 7 := rfl
    have hlength := congrArg String.length heq
    rw [hfield, hty, String.length_append] at hlength
    split at hlength
    · rw [String.length_append] at hlength
      omega
    · omega
  · rw [fieldType_of_ne hhandle]
    by_cases hheld : held.mode = .byReference
    · have hmode : c.mode = .byReference := h.mode.mpr (.inr hheld)
      rw [if_pos hmode, if_pos hheld, String.append_right_inj]
      exact ⟨fun heq => ⟨hhandle, heq, fun _ => hheld⟩, fun hall => hall.2.1⟩
    · have hty : c.ty = held.ty := h.ty.resolve_right fun hunknown => hheld hunknown.2
      rw [if_neg hheld, hty]
      by_cases hwrites : writes
      · rw [if_pos (h.mode.mpr (.inl hwrites))]
        refine ⟨fun heq => ?_, fun hall => absurd (hall.2.2 hwrites) hheld⟩
        have hlength := congrArg String.length heq
        simp [String.length_append] at hlength
      · rw [if_neg fun hc => (h.mode.mp hc).elim hwrites hheld]
        exact ⟨fun _ => ⟨hhandle, rfl, fun hw => absurd hw hwrites⟩, fun _ => rfl⟩

end Recaptures

end Capture

/-! ## What runs retain -/

/-- No block is open where a body starts, so there is nothing to widen yet. -/
theorem Emit.Starts.loose {kind : FrameKind} {u : Usage} {around : List Introduction}
    {names : List String} {c c₁ : Context} (hstart : Starts kind u around names c c₁)
    (hkind : (Layer.new kind).isFunction) : Scope.Loose c₁.scope.allFrames := by
  obtain ⟨f, rest, hframes, hf⟩ := hstart.confined.exists_head
  rw [hframes]
  exact .inl (hf.trans hkind)

/-- **A run retains what is pinned.** What is captured and what is a handle stays bound as it was;
a name that the body stores to may get the type that was not known. The induction also carries that
blocks declare nothing anew that is pinned around them, so that leaving them widens no pinned
type. -/
theorem Run.retains {c c' : Context} (h : Run c c') (hc : c.scope.Leveled)
    (hloose : Scope.Loose c.scope.allFrames) :
    Scope.Retains c.Stores c.scope c'.scope ∧ Scope.Loose c'.scope.allFrames := by
  have hdeclare : ∀ (c : Context) (name ident : String) (b : Binding), b.kind.isPinned = false →
      Scope.Loose c.scope.allFrames →
      Scope.Retains c.Stores c.scope (c.scope.declareAs name ident b) ∧
        Scope.Loose (c.scope.declareAs name ident b).allFrames := by
    intro c name ident b hb hloose
    have hretains : Scope.Retains c.Stores c.scope (c.scope.declareAs name ident b) :=
      Scope.retains_declareAs c.scope name ident hb
    exact ⟨hretains, hloose.retains hretains (Scope.shadows_declareAs ..)⟩
  induction h with
  | refl c => exact ⟨.refl _, hloose⟩
  | @trans a b _ h _ ih ih' =>
    obtain ⟨hfirst, hloose₁⟩ := ih hc hloose
    have hcontinues := h.continues hc
    obtain ⟨hsecond, hloose₂⟩ := ih' hcontinues.leveled hloose₁
    have hstores : b.Stores = a.Stores := by
      unfold Context.Stores
      rw [hcontinues.current.usage]
    rw [hstores] at hsecond
    exact ⟨hfirst.trans hsecond, hloose₂⟩
  | @still c c' hreserves _ _ =>
    have hretains : Scope.Retains c.Stores c.scope c'.scope := hreserves.retains
    exact ⟨hretains, hloose.retains hretains hreserves.shadows⟩
  | payload c name ident b _ _ hkind => exact hdeclare c name ident b hkind hloose
  | wrapper c name ident b _ _ hkind => exact hdeclare c name ident b hkind hloose
  | hoist c name ident b _ _ hkind hhead =>
    rw [Scope.declareInFunction_eq_declareAs hc hhead]
    exact hdeclare c name ident b hkind hloose
  | @assign c c₁ n ty source _ hn _ ih =>
    obtain ⟨hvalue, hloose₁⟩ := ih hc hloose
    have hunpinned : ∀ ident, (Assignment.plan c.scope n ty).resolution = .shadow ident →
        Scope.Unpinned c₁.scope.allFrames n := fun ident hshadow =>
      (Assignment.unpinned_of_shadow hshadow).retains hvalue
    obtain ⟨hcommit, hloose₂⟩ := Assignment.retains_commit
      (c₁.current.plan.isMutable (Assignment.plan c.scope n ty).ident) source hloose₁ hn hunpinned
    exact ⟨hvalue.trans hcommit, hloose₂⟩
  | update n _ _ _ ih => exact ih hc hloose
  | catching _ _ ih => exact ih hc hloose
  | handling _ _ ih => exact ih hc hloose
  | block _ hpop ih =>
    obtain ⟨hinner, hloose₁⟩ := ih (Scope.leveled_push hc .block) (Scope.loose_pushBlock hloose)
    exact hinner.pop hloose₁ hpop
  | resolve c f qualname r _ _ => exact ⟨.refl _, hloose⟩
  | @body c c₁ c₂ left d s receiver handle _ _ _ hstart _ hrun hpop _ =>
    obtain ⟨hbody, -⟩ := hrun.confined hstart.leveled (hstart.backed rfl)
    have hleft := hstart.confined_of_pop hc rfl hbody hpop
    have hretains : Scope.Retains c.Stores c.scope left.scope := hleft.retains_of_zero
    exact ⟨hretains, hloose.retains hretains hleft.shadows_of_zero⟩
  | rewind _ _ => exact ⟨.refl _, hloose⟩

/-! ## Spelling -/

/-- Above the module's frame names are spelled as their slots say. -/
def Scope.Spelled (s : Scope) : Prop := ∀ l ∈ s.layers.dropLast, l.Spelled

namespace Scope

variable {s t : Scope}

theorem Spelled.same (h : s.Spelled) (hlayers : t.layers = s.layers) : t.Spelled := by
  unfold Spelled
  rw [hlayers]
  exact h

theorem Spelled.cons {l : Layer} (h : s.Spelled) (hl : l.Spelled)
    (hlayers : t.layers = l :: s.layers) : t.Spelled := by
  intro m hm
  rw [hlayers] at hm
  rcases hs : s.layers with _ | ⟨k, rest⟩
  · rw [hs] at hm
    cases hm
  · rw [hs, List.dropLast_cons_of_ne_nil (List.cons_ne_nil k rest), ← hs] at hm
    rcases List.mem_cons.mp hm with rfl | hrest
    · exact hl
    · exact h m hrest

theorem Spelled.modifyHead (h : s.Spelled) {name : String} {slot : Slot}
    (hlayers : t.layers = s.layers.modifyHead (Layer.bind name slot)) : t.Spelled := by
  intro l hl
  rw [hlayers] at hl
  unfold Spelled at h
  rcases hs : s.layers with _ | ⟨m, _ | ⟨m', rest⟩⟩
  · rw [hs] at hl
    cases hl
  · rw [hs] at hl
    cases hl
  · rw [hs] at hl h
    rcases List.mem_cons.mp hl with rfl | hrest
    · exact (h m List.mem_cons_self).bind name slot
    · exact h l (List.mem_cons_of_mem m hrest)

/-- A name that is bound above the module's frame is spelled as its slot says. -/
theorem Spelled.ident (h : s.Spelled) (hs : s.Leveled) {n : String} {b : Binding}
    (hb : s.frames.findSome? (·.get? n) = some b) : s.ident n = b.slot.ident := by
  have hall : ∀ (frames : List Frame) (renames : List (NameMap String)),
      renames.length = (frames ++ [s.base]).length →
      (∀ l ∈ (Layer.all (frames ++ [s.base]) renames).dropLast, l.Spelled) →
      frames.findSome? (·.get? n) = some b →
      (Layer.all (frames ++ [s.base]) renames).findSome? (·.ident? n) = some b.slot.ident := by
    intro frames
    induction frames with
    | nil => exact fun _ _ _ hnone => nomatch hnone
    | cons f rest ih =>
      intro renames hlength hspelled hfound
      match renames, hlength with
      | r :: rs, hlength =>
        have hrest : rs.length = (rest ++ [s.base]).length := Nat.succ.inj hlength
        change ∀ l ∈ (Layer.ofFrame f r :: Layer.all (rest ++ [s.base]) rs).dropLast, _ at hspelled
        change (Layer.ofFrame f r :: Layer.all (rest ++ [s.base]) rs).findSome? _ = _
        have hcons : Layer.all (rest ++ [s.base]) rs ≠ [] := by
          rw [← List.length_pos_iff, Layer.length_all hrest]
          simp
        rw [List.dropLast_cons_of_ne_nil hcons, List.forall_mem_cons] at hspelled
        have hslot : (Layer.ofFrame f r).slot? n = (f.get? n).map Binding.slot := rfl
        rw [List.findSome?_cons, hspelled.1 n, hslot]
        rw [List.findSome?_cons] at hfound
        cases hf : f.get? n with
        | some b' =>
          rw [hf] at hfound
          obtain rfl := Option.some.inj hfound
          rfl
        | none =>
          rw [hf] at hfound
          exact ih rs hrest hspelled.2 hfound
  rw [Scope.ident, resolve?_eq hs, layers, allFrames, hall s.frames _ hs h hb]
  rfl

end Scope

theorem Run.spelled {c c' : Context} (h : Run c c') (hc : c.scope.Leveled)
    (hspelled : c.scope.Spelled) : c'.scope.Spelled := by
  induction h with
  | refl c => exact hspelled
  | trans h _ ih ih' => exact ih' (h.continues hc).leveled (ih hc hspelled)
  | still hreserves _ _ => exact hspelled.same hreserves.sameLayers.layers
  | payload c name ident b hslot _ =>
    refine hspelled.modifyHead (Scope.layers_declareAs hc name ?_)
    rcases hslot with hslot | hslot <;> rw [hslot]
  | hoist c name ident b hslot _ _ hhead =>
    rw [Scope.declareInFunction_eq_declareAs hc hhead]
    exact hspelled.modifyHead (Scope.layers_declareAs hc name (congrArg Slot.ident hslot))
  | wrapper c name ident b hslot _ =>
    exact hspelled.modifyHead (Scope.layers_declareAs hc name (congrArg Slot.ident hslot))
  | @assign c c₁ n ty source _ _ h ih =>
    have hvalue := ih hc hspelled
    obtain ⟨-, hlayers⟩ := Assignment.layers_commit (s := c.scope) (h.continues hc).leveled n ty
      (c₁.current.plan.isMutable (Assignment.plan c.scope n ty).ident) source
    split at hlayers
    · exact hvalue.modifyHead hlayers
    · exact hvalue.same hlayers
  | update _ _ _ _ ih => exact ih hc hspelled
  | catching _ _ ih => exact ih hc hspelled
  | handling _ _ ih => exact ih hc hspelled
  | @block c c₁ left h hpop ih =>
    have hpushed : c.scope.pushBlock.Spelled := hspelled.cons (fun _ => rfl) (Scope.layers_push ..)
    have hlevel := Scope.leveled_push hc .block
    have hinner := ih hlevel hpushed
    obtain ⟨-, hleft, -⟩ := Scope.pop_layers (h.continues hlevel).leveled hpop
    intro l hl
    rw [hleft, ← List.tail_dropLast] at hl
    exact hinner l (List.mem_of_mem_tail hl)
  | resolve => exact hspelled
  | body d s receiver handle _ _ _ hstart _ h hpop _ =>
    exact hspelled.same (hstart.layers_of_pop rfl (h.continues hstart.leveled) hpop).1
  | rewind _ _ => exact hspelled

/-! ## What captured variables stand for -/

/-- The type is that of some closure. -/
def Ty.OfClosure (t : Ty) : Prop := ∃ wrapper signature, t = .closure wrapper signature

/-- The binding stands for what a closure holds. Its type may have been found since. -/
structure Binding.StandsFor (b : Binding) (receiver : String) (held : Capture) : Prop where
  slot : b.slot = ⟨held.access receiver, .field (held.mode == .byReference)⟩
  ty : b.ty = held.ty ∨ held.ty = .unknown ∧ held.mode = .byReference
  isMutable : b.isMutable = (held.mode == .byReference)

/-- A closure of `g` with these captures was made. -/
structure Function.Made (trace : List Observation) (g : Function) (captures : CaptureSet) : Prop where
  observed : ∃ s u, .closure g captures s u ∈ trace
  resolved : ∃ s qualname r, Capture.resolve g (Usage.ofFunction g) s qualname = .ok r ∧
    captures = r.captures
  handles : ∀ x ∈ captures.toList, x.kind = .selfHandle → x.ty.OfClosure

/-- A name that the body of the closure stores to is held by reference. -/
theorem Function.Made.byReference {trace : List Observation} {g : Function} {captures : CaptureSet}
    (h : g.Made trace captures) {x : Capture} (hx : x ∈ captures.toList)
    (hstores : 0 < (Usage.ofFunction g).assignCount x.name) : x.mode = .byReference := by
  obtain ⟨s, qualname, r, hr, rfl⟩ := h.resolved
  exact beq_iff_eq.mp ((fits_introduction_of_mem_captures hr hx "" {}).1 hstores)

/-- What the frame binds as captured stands for what the closure of `g` holds, whose frame it is. -/
def Frame.Accounted (trace : List Observation) (g : Function) (f : Frame) : Prop :=
  ∀ n b, f.get? n = some b → b.kind = .captured →
    (∃ qualname, f.kind = .function qualname g.formals) ∧
      ∃ captures receiver, g.Made trace captures ∧
        ∃ held ∈ captures.toList, held.name = n ∧ b.StandsFor receiver held

namespace Frame.Accounted

variable {trace trace' : List Observation} {g : Function} {f f' : Frame}

theorem mono (h : f.Accounted trace g) (htrace : trace ⊆ trace') : f.Accounted trace' g := by
  intro n b hb hkind
  obtain ⟨hframe, captures, receiver, hmade, hheld⟩ := h n b hb hkind
  obtain ⟨s, u, hobserved⟩ := hmade.observed
  exact ⟨hframe, captures, receiver, ⟨⟨s, u, htrace hobserved⟩, hmade.resolved, hmade.handles⟩, hheld⟩

/-- What is retained stands for the same, if only the closure's own stores settle it. -/
theorem retains {stores : String → Prop} (h : f.Accounted trace g) (hretains : f.Retains stores f')
    (hstores : ∀ n, stores n → 0 < (Usage.ofFunction g).assignCount n) :
    f'.Accounted trace g := by
  intro n b' hb' hkind
  obtain ⟨b, hb, hsettles⟩ := hretains.pinned n b' hb' (by rw [hkind]; rfl)
  obtain ⟨⟨qualname, hframe⟩, captures, receiver, hmade, held, hheld, rfl, hstands⟩ :=
    h n b hb (hsettles.kind.symm.trans hkind)
  have hstored : stores held.name → held.mode = .byReference := fun hn =>
    hmade.byReference hheld (hstores _ hn)
  refine ⟨⟨qualname, hretains.kind.trans hframe⟩, captures, receiver, hmade, held, hheld, rfl,
    hsettles.slot.trans hstands.slot, ?_, ?_⟩
  · rcases hsettles.ty with hsame | ⟨hn, hunknown⟩
    · rw [hsame]
      exact hstands.ty
    · refine .inr ⟨?_, hstored hn⟩
      exact hstands.ty.elim (fun hty => hty.symm.trans hunknown) And.left
  · rcases hsettles.isMutable with hsame | ⟨hn, htrue⟩
    · exact hsame.trans hstands.isMutable
    · rw [htrue, hstored hn]
      rfl

end Frame.Accounted

/-- While the body of `f` is written, every captured variable around is accounted for: in the frames
of `f` it is what the closure of `f` holds. -/
structure Context.Accounts (c : Context) (f : Function) : Prop where
  leveled : c.scope.Leveled
  loose : Scope.Loose c.scope.allFrames
  spelled : c.scope.Spelled
  usage : c.current.usage = some (Usage.ofFunction f)
  handles : ∀ g ∈ c.scope.frames, ∀ n b, g.get? n = some b → b.kind = .selfHandle → b.ty.OfClosure
  inner : ∀ g ∈ Scope.innerFrames c.scope.allFrames, g.Accounted c.trace f
  outer : ∀ g ∈ c.scope.frames.drop c.scope.reach, ∃ f', g.Accounted c.trace f'

/-- Each entry of the second list has its counterpart in the first. -/
theorem exists_of_forall₂ {α β : Type} {R : α → β → Prop} {as : List α} {bs : List β}
    (h : List.Forall₂ R as bs) {b : β} (hb : b ∈ bs) : ∃ a ∈ as, R a b := by
  induction h with
  | nil => cases hb
  | cons hhead _ ih =>
    rcases List.mem_cons.mp hb with rfl | hrest
    · exact ⟨_, List.mem_cons_self, hhead⟩
    · obtain ⟨a, ha, hR⟩ := ih hrest
      exact ⟨a, List.mem_cons_of_mem _ ha, hR⟩

namespace Context.Accounts

variable {c c' : Context} {f : Function}

theorem frame (h : c.Accounts f) {g : Frame} (hg : g ∈ c.scope.frames) :
    ∃ f', g.Accounted c.trace f' := by
  rw [← List.take_append_drop c.scope.reach c.scope.frames, List.mem_append] at hg
  rcases hg with htake | hdrop
  · refine ⟨f, h.inner g ?_⟩
    rw [Scope.innerFrames_eq_take]
    show g ∈ (c.scope.frames ++ [c.scope.base]).take c.scope.reach
    rw [List.take_append]
    exact List.mem_append_left _ htake
  · exact h.outer g hdrop

/-- A block that was just opened binds nothing. -/
theorem pushBlock (h : c.Accounts f) :
    ({ c with scope := c.scope.pushBlock } : Context).Accounts f := by
  have hempty : ∀ (n : String) (b : Binding), ({ kind := .block } : Frame).get? n ≠ some b := by
    intro n b hb
    change (NameMap.empty : NameMap Binding).get? n = some b at hb
    rw [NameMap.get?_empty] at hb
    cases hb
  refine ⟨Scope.leveled_push h.leveled .block, Scope.loose_pushBlock h.loose,
    h.spelled.cons (fun _ => rfl) (Scope.layers_push ..), h.usage, ?_, ?_, h.outer⟩
  · exact List.forall_mem_cons.mpr ⟨fun n b hb => absurd hb (hempty n b), h.handles⟩
  · exact List.forall_mem_cons.mpr ⟨fun n b hb => absurd hb (hempty n b), h.inner⟩

/-- **Captured variables stay accounted for.** -/
theorem run (h : c.Accounts f) (hrun : Run c c') : c'.Accounts f := by
  have hcontinues := hrun.continues h.leveled
  obtain ⟨hretains, hloose⟩ := hrun.retains h.leveled h.loose
  obtain ⟨hconfined, -⟩ := hrun.confined h.leveled h.loose.backed
  have htrace := hrun.trace_subset
  have hstores : ∀ n, c.Stores n → 0 < (Usage.ofFunction f).assignCount n := by
    rintro n ⟨u, hu, hcount⟩
    obtain rfl := Option.some.inj (h.usage.symm.trans hu)
    exact hcount
  refine ⟨hcontinues.leveled, hloose, hrun.spelled h.leveled h.spelled,
    hcontinues.current.usage.trans h.usage, ?_, ?_, ?_⟩
  · intro g' hg' n b' hb' hkind
    obtain ⟨g, hg, hpinned⟩ := exists_of_forall₂ hretains.frames hg'
    obtain ⟨b, hb, hsettles⟩ := hpinned.pinned n b' hb' (by rw [hkind]; rfl)
    obtain ⟨wrapper, signature, hty⟩ := h.handles g hg n b hb (hsettles.kind.symm.trans hkind)
    refine ⟨wrapper, signature, ?_⟩
    rcases hsettles.ty with hsame | ⟨-, hunknown⟩
    · exact hsame.trans hty
    · rw [hty] at hunknown
      cases hunknown
  · intro g' hg'
    obtain ⟨g, hg, hgg'⟩ := exists_of_forall₂ hretains.inner hg'
    exact ((h.inner g hg).retains hgg' hstores).mono htrace
  · intro g hg
    rw [hconfined.reach, hconfined.frames] at hg
    obtain ⟨f', hf'⟩ := h.outer g hg
    exact ⟨f', hf'.mono htrace⟩

end Context.Accounts

/-! ## Where bodies start -/

/-- A body that starts has one frame of its own. -/
theorem Emit.Starts.frames {kind : FrameKind} {u : Usage} {around : List Introduction}
    {names : List String} {c c₁ : Context} (hstart : Starts kind u around names c c₁)
    (hc : c.scope.Leveled) : ∃ head, c₁.scope.frames = head :: c.scope.frames ∧ head.kind = kind := by
  obtain ⟨head, rest, hframes, hkind, hrest⟩ := Scope.Confined.exists_cons (k := 0) hstart.confined hc
  have hsame : rest = c.scope.frames := hrest.frames
  exact ⟨head, hsame ▸ hframes, hkind⟩

/-- What the frame of `f` starts with, for the variables around it to stay accounted for. -/
structure Binding.Starting (trace : List Observation) (f : Function) (n : String) (b : Binding) :
    Prop where
  handle : b.kind = .selfHandle → b.ty.OfClosure
  captured : b.kind = .captured → ∃ captures receiver, f.Made trace captures ∧
    ∃ held ∈ captures.toList, held.name = n ∧ b.StandsFor receiver held

theorem accounts_of_starts {c c₁ : Context} {f : Function} {qualname : String}
    {around : List Introduction}
    (hstart : Emit.Starts (.function qualname f.formals) (Usage.ofFunction f) around f.formals c c₁)
    (hc : c.scope.Leveled) (hspelled : c.scope.Spelled)
    (hhandles : ∀ g ∈ c.scope.frames, ∀ n b, g.get? n = some b → b.kind = .selfHandle →
      b.ty.OfClosure)
    (hframes : ∀ g ∈ c.scope.frames, ∃ f', g.Accounted c.trace f')
    (hhead : c₁.scope.Innermost (Binding.Starting c.trace f)) : c₁.Accounts f := by
  obtain ⟨head, hall, hkind⟩ := hstart.frames hc
  have hfun : head.isFunction = true := by
    unfold Frame.isFunction
    rw [hkind]
  have hinner : Scope.innerFrames c₁.scope.allFrames = [head] := by
    rw [Scope.allFrames, hall, List.cons_append, Scope.innerFrames, if_pos hfun]
  have hbound : ∀ n b, head.get? n = some b → b.Starting c.trace f n :=
    hhead head (by rw [Scope.allFrames, hall]; rfl)
  obtain ⟨formals, -, hlayers⟩ := hstart.layers
  have hnew : (Layer.new (.function qualname f.formals)).Spelled := fun _ => rfl
  refine ⟨hstart.leveled, hstart.loose rfl,
    hspelled.cons ((hnew.introduce _).settleAll _) hlayers, hstart.usage, ?_, ?_, ?_⟩
  · rw [hall]
    exact List.forall_mem_cons.mpr ⟨fun n b hb => (hbound n b hb).handle, hhandles⟩
  · rw [hinner, hstart.trace]
    refine List.forall_mem_singleton.mpr fun n b hb hcaptured => ?_
    exact ⟨⟨qualname, hkind⟩, (hbound n b hb).captured hcaptured⟩
  · rw [Scope.reach, hinner, hall, hstart.trace]
    exact hframes

/-- A function of the module has nothing around it but the module. -/
theorem accounts_of_module {c c₁ : Context} {f : Function} (hc : c.scope.AtModule)
    (hstart : Emit.Starts (.function f.name f.formals) (Usage.ofFunction f) [] f.formals c c₁)
    (hunpinned : c₁.scope.Innermost (fun _ b => b.kind.isPinned = false)) : c₁.Accounts f := by
  obtain ⟨l, hl, -⟩ := hc.layers
  have hframes : c.scope.frames = [] := by
    have hlength := Scope.length_layers hc.leveled
    rw [hl] at hlength
    exact List.eq_nil_of_length_eq_zero (Nat.succ.inj hlength).symm
  refine accounts_of_starts hstart hc.leveled (fun m hm => ?_) ?_ ?_ fun g hg n b hb => ?_
  · rw [hl] at hm
    cases hm
  · rw [hframes]
    exact fun _ hg => absurd hg List.not_mem_nil
  · rw [hframes]
    exact fun _ hg => absurd hg List.not_mem_nil
  · have hfree : b.kind.isPinned = false := hunpinned g hg n b hb
    constructor
    · intro hkind
      rw [hkind] at hfree
      cases hfree
    · intro hkind
      rw [hkind] at hfree
      cases hfree

/-! ## Closures -/

namespace Capture

variable {f : Function} {u : Usage} {s : Scope} {n : String} {c : Capture} {b : Binding}

/-- What is captured of a variable that is bound. -/
theorem of_lookup (h : verdict f u s n = .captured c) (hb : s.lookup n = some b) :
    s.isGlobal n = false ∧ c.kind = b.kind ∧ c.ty = b.ty ∧
      c.mode = b.captureMode (u.writesThrough n) := by
  obtain ⟨hformal, hown, hglobal, hassigned⟩ := unowned_of_verdict h
  simp only [verdict, hformal, hown, hglobal, hassigned, hb, Bool.false_eq_true, if_false] at h
  split at h
  · cases h
  · rename_i hlocal
    cases h
    exact ⟨Bool.not_eq_true _ ▸ hlocal, rfl, rfl, rfl⟩

/-- What is captured is bound above the module's frame. -/
theorem findSome?_frames (h : verdict f u s n = .captured c) (hb : s.lookup n = some b) :
    s.frames.findSome? (·.get? n) = some b := by
  have hlocal := (of_lookup h hb).1
  have hbound : s.BoundInFrames n := by
    by_contra hnone
    have hsome : s.BoundInFrames n ∨ (s.base.get? n).isSome :=
      Scope.lookup_isSome_iff.mp (by rw [hb]; rfl)
    have hglobal := Scope.isGlobal_iff.mpr ⟨hnone, hsome.resolve_left hnone⟩
    rw [hlocal] at hglobal
    cases hglobal
  unfold Scope.lookup Scope.allFrames at hb
  rw [List.findSome?_append] at hb
  have hsome : (s.frames.findSome? (·.get? n)).isSome := List.findSome?_isSome_iff.mpr hbound
  obtain ⟨b', hb'⟩ := Option.isSome_iff_exists.mp hsome
  rw [hb'] at hb
  rw [hb', ← hb]
  rfl

end Capture

/-- A handle that a closure captures has the type of a closure. -/
theorem Context.Accounts.handle_of_resolve {c : Context} {f g : Function} {u : Usage} {s : Scope}
    {qualname : String} {r : Capture.Resolved} (hc : c.Accounts f) (hreserves : s.Reserves c.scope)
    (hr : Capture.resolve g u s qualname = .ok r) {x : Capture} (hx : x ∈ r.captures.toList)
    (hkind : x.kind = .selfHandle) : x.ty.OfClosure := by
  have hverdict := ((Capture.mem_captures_iff hr).mp hx).2
  cases hb : s.lookup x.name with
  | none =>
    obtain ⟨hformal, hown, hglobal, hassigned⟩ := Capture.unowned_of_verdict hverdict
    simp only [Capture.verdict, hformal, hown, hglobal, hassigned, hb, Bool.false_eq_true,
      if_false] at hverdict
    split at hverdict
    · -- a formal that is not bound yet is no handle
      have hparam := congrArg Capture.kind (Verdict.captured.inj hverdict)
      rw [hkind] at hparam
      cases hparam
    · cases hverdict
  | some b =>
    obtain ⟨-, hxkind, hty, -⟩ := Capture.of_lookup hverdict hb
    obtain ⟨frame, hframe, hget⟩ :=
      List.exists_of_findSome?_eq_some (Capture.findSome?_frames hverdict hb)
    obtain ⟨frame', hframe', hsame⟩ := exists_of_forall₂
      (R := fun g f => Frame.Reserves f g) hreserves.frames.flip hframe
    rw [hty]
    refine hc.handles frame' hframe' x.name b ?_ (hxkind.symm.trans hkind)
    rw [Frame.get?, hsame.bindings]
    exact hget

/-- **The body of a closure finds its captures accounted for.** -/
theorem Context.Accounts.starts {c c₁ : Context} {f : Function} {d : Emit.Draft} {s : Scope}
    {receiver handle holder : String} (hc : c.Accounts f) (hmade : d.MadeIn s)
    (hreserves : s.Reserves c.scope)
    (hobserved : ∃ u, .closure d.function d.representation.captures s u ∈ c.trace)
    (hstart : Emit.Starts d.frameKind d.usage (d.around receiver handle) d.function.formals c c₁)
    (hopens : c₁.scope.Innermost (d.Opens holder)) : c₁.Accounts d.function := by
  obtain ⟨r, hr, hcaptures⟩ := hmade.captures
  rw [hmade.usage] at hr hstart
  have hclosure : d.function.Made c.trace d.representation.captures := by
    refine ⟨⟨s, hobserved⟩, ⟨s, d.qualname, r, hr, hcaptures⟩, fun x hx hkind => ?_⟩
    rw [hcaptures] at hx
    exact hc.handle_of_resolve hreserves hr hx hkind
  refine accounts_of_starts hstart hc.leveled hc.spelled hc.handles (fun g hg => hc.frame hg)
    fun g hg n b hb => ?_
  have hbound := hopens g hg n b hb
  refine ⟨hbound.handle, fun hkind => ?_⟩
  obtain ⟨x, hx, rfl, rfl⟩ := hbound.captured hkind
  exact ⟨d.representation.captures, holder, hclosure, x, hx, rfl, rfl, .inl rfl, rfl⟩

/-- What is observed of a closure that holds a captured variable: the variable is a field of another
closure, from which the new one is made. -/
def Observation.Recaptured (trace : List Observation) : Observation → Prop
  | .closure h captures s within => ∀ x ∈ captures.toList, ∀ b, s.lookup x.name = some b →
      b.kind = .captured → ∃ g holding, (∃ around u, .closure g holding around u ∈ trace) ∧
        (∃ frame ∈ s.frames, frame.get? x.name = some b ∧
          ∃ qualname, frame.kind = .function qualname g.formals) ∧
        (s.lookupInFunction x.name = some b → within = some (Usage.ofFunction g)) ∧
        ∃ held ∈ holding.toList, ∃ receiver, held.name = x.name ∧
          b.slot = ⟨held.access receiver, .field (held.mode == .byReference)⟩ ∧
          x.Recaptures held receiver ((Usage.ofFunction h).writesThrough x.name = true) ∧
          (g.Encloses h → (Usage.ofFunction h).writesThrough x.name = true →
            held.mode = .byReference)

theorem Observation.Recaptured.mono {trace trace' : List Observation} {o : Observation}
    (h : o.Recaptured trace) (htrace : trace ⊆ trace') : o.Recaptured trace' := by
  cases o with
  | closure f captures s within =>
    intro x hx b hb hkind
    obtain ⟨g, holding, ⟨around, u, hobserved⟩, hrest⟩ := h x hx b hb hkind
    exact ⟨g, holding, ⟨around, u, htrace hobserved⟩, hrest⟩

theorem recaptured_of_resolve {c : Context} {f h : Function} {qualname : String}
    {r : Capture.Resolved} (hc : c.Accounts f)
    (hr : Capture.resolve h (Usage.ofFunction h) c.scope qualname = .ok r) :
    Observation.Recaptured c.trace (.closure h r.captures c.scope c.current.usage) := by
  intro x hx b hb hkind
  have hverdict := ((Capture.mem_captures_iff hr).mp hx).2
  obtain ⟨-, hxkind, hxty, hxmode⟩ := Capture.of_lookup hverdict hb
  have hfound := Capture.findSome?_frames hverdict hb
  have hsource : x.source = b.slot.ident :=
    (Capture.of_verdict hverdict).2.trans (hc.spelled.ident hc.leveled hfound)
  obtain ⟨g, frame, hframe, hget, hwithin, hg⟩ : ∃ g, ∃ frame ∈ c.scope.frames,
      frame.get? x.name = some b ∧
      (c.scope.lookupInFunction x.name = some b → c.current.usage = some (Usage.ofFunction g)) ∧
      frame.Accounted c.trace g := by
    obtain ⟨frame, hframe, hget⟩ := List.exists_of_findSome?_eq_some hfound
    by_cases hinner : c.scope.lookupInFunction x.name = some b
    · by_cases hreach : c.scope.reach ≤ c.scope.frames.length
      · obtain ⟨frame', hframe', hget'⟩ := List.exists_of_findSome?_eq_some hinner
        have haccounted := hc.inner frame' hframe'
        rw [Scope.innerFrames_eq_take] at hframe'
        change frame' ∈ (c.scope.frames ++ [c.scope.base]).take c.scope.reach at hframe'
        rw [List.take_append_of_le_length hreach] at hframe'
        exact ⟨f, frame', List.mem_of_mem_take hframe', hget', fun _ => hc.usage, haccounted⟩
      · have hall : frame ∈ Scope.innerFrames c.scope.allFrames := by
          rw [Scope.innerFrames_eq_take]
          show frame ∈ (c.scope.frames ++ [c.scope.base]).take c.scope.reach
          rw [List.take_append, List.take_of_length_le (by omega)]
          exact List.mem_append_left _ hframe
        exact ⟨f, frame, hframe, hget, fun _ => hc.usage, hc.inner frame hall⟩
    · obtain ⟨g, hg⟩ := hc.frame hframe
      exact ⟨g, frame, hframe, hget, fun h => absurd h hinner, hg⟩
  obtain ⟨hfunction, captures, receiver, hmade, held, hheld, hname, hstands⟩ :=
    hg x.name b hget hkind
  refine ⟨g, captures, hmade.observed, ⟨frame, hframe, hget, hfunction⟩, hwithin, held, hheld,
    receiver, hname, hstands.slot, ⟨hxkind.trans hkind, ?_, ?_, ?_, ?_⟩, ?_⟩
  · rw [hsource, hstands.slot]
  · rw [hxmode, Binding.captureMode_eq_byReference, hstands.isMutable, beq_iff_eq]
  · rw [hxty]
    exact hstands.ty
  · intro hhandle hunknown
    obtain ⟨wrapper, signature, hty⟩ := hmade.handles held hheld hhandle
    rw [hty] at hunknown
    cases hunknown
  · intro hencloses hwrites
    obtain ⟨s, q, r', hr', rfl⟩ := hmade.resolved
    have hheldVerdict := ((Capture.mem_captures_iff hr').mp hheld).2
    obtain ⟨hformal, -, hglobal, hassigned⟩ := Capture.unowned_of_verdict hheldVerdict
    rw [← hname] at hwrites
    exact Capture.mode_of_verdict hheldVerdict
      (writesThrough_of_encloses hencloses ⟨hformal, hassigned, hglobal⟩ hwrites)

/-- **Everything that is observed while a body is written is made from what is held around it.** -/
theorem Run.recaptured {c c' : Context} (h : Run c c') :
    ∀ {f : Function}, c.Accounts f → (∀ o ∈ c.trace, o.Recaptured c.trace) →
      ∀ o ∈ c'.trace, o.Recaptured c'.trace := by
  have hcons : ∀ {trace : List Observation} (new : Observation), new.Recaptured trace →
      (∀ o ∈ trace, o.Recaptured trace) → ∀ o ∈ new :: trace, o.Recaptured (new :: trace) := by
    intro trace new hnew hold
    have hsubset : trace ⊆ new :: trace := List.subset_cons_self new trace
    exact List.forall_mem_cons.mpr ⟨hnew.mono hsubset, fun o ho => (hold o ho).mono hsubset⟩
  induction h with
  | refl c => exact fun _ ho => ho
  | trans h _ ih ih' => exact fun hc ho => ih' (hc.run h) (ih hc ho)
  | still _ htrace _ =>
    intro f _ ho
    rwa [htrace]
  | payload | hoist | wrapper => exact fun _ ho => ho
  | assign _ _ _ _ _ _ ih => exact fun hc ho => ih hc ho
  | update _ _ _ _ ih => exact fun hc ho => ih hc ho
  | catching | handling =>
    rename_i ih
    intro f hc ho
    exact ih ⟨hc.leveled, hc.loose, hc.spelled, hc.usage, hc.handles, hc.inner, hc.outer⟩ ho
  | block _ _ ih =>
    intro f hc ho
    exact ih hc.pushBlock ho
  | resolve c g qualname r hr _ =>
    intro f hc ho
    exact hcons _ (recaptured_of_resolve hc hr) ho
  | body d s receiver handle hmade hreserves hobserved hstart hopens _ _ ih =>
    intro f hc ho
    obtain ⟨holder, hopens⟩ := hopens
    refine ih (hc.starts hmade hreserves hobserved hstart hopens) ?_
    rwa [hstart.trace]
  | rewind _ ih => exact fun hc ho => ih hc ho

/-- **When a field that is captured again stays the field it is.** In every round of a conversion,
let a closure of `h` capture a name that stands for a captured variable. Then the name is a field
of a closure of some `g`, made in the same round, in whose frame the binding is, and `g` is the
function around `h` if it binds the name there.

* The field of `h` is filled with the field of `g`, as it is, exactly if `g` holds the variable by
  reference or `h` does not write it.
* Its type is spelled as that of the field of `g` exactly if moreover `g` does not hold a handle,
  and the variable's type is spelled as it was when `g` captured it.
* The type is another one only if it was not known then, and `g` holds the variable by reference.
* What `h` writes, `g` holds by reference, if `h` is defined in the body of `g` itself. -/
theorem recaptured_iff (m : Module) (w : Settings) (round : Nat) {h : Function}
    {captures : CaptureSet} {s : Scope} {within : Option Usage}
    (hmade : .closure h captures s within ∈ ((m.round w round).pass m w).trace) {c : Capture}
    (hc : c ∈ captures.toList) {b : Binding} (hb : s.lookup c.name = some b)
    (hkind : b.kind = .captured) :
    ∃ g holding,
      (∃ around u, .closure g holding around u ∈ ((m.round w round).pass m w).trace) ∧
      (∃ frame ∈ s.frames, frame.get? c.name = some b ∧
        ∃ qualname, frame.kind = .function qualname g.formals) ∧
      (s.lookupInFunction c.name = some b → within = some (Usage.ofFunction g)) ∧
      ∃ held ∈ holding.toList, ∃ receiver, held.name = c.name ∧
        b.slot = ⟨held.access receiver, .field (held.mode == .byReference)⟩ ∧
        (c.fieldInit = held.path receiver ↔
          ((Usage.ofFunction h).writesThrough c.name = true → held.mode = .byReference)) ∧
        (c.fieldType = held.fieldType ↔
          held.kind ≠ .selfHandle ∧ c.ty.target = held.ty.target ∧
            ((Usage.ofFunction h).writesThrough c.name = true → held.mode = .byReference)) ∧
        (c.ty = held.ty ∨ held.ty = .unknown ∧ held.mode = .byReference) ∧
        (g.Encloses h → (Usage.ofFunction h).writesThrough c.name = true →
          held.mode = .byReference) := by
  have hall : ∀ o ∈ ((m.round w round).pass m w).trace,
      o.Recaptured ((m.round w round).pass m w).trace :=
    pass_trace (P := fun trace => ∀ o ∈ trace, o.Recaptured trace)
      (fun _ ho => absurd ho List.not_mem_nil)
      (fun _ _ _ _ hmodule hstart hunpinned hrun ho =>
        hrun.recaptured (accounts_of_module hmodule hstart hunpinned) (by rwa [hstart.trace]))
      m _ w _
  obtain ⟨g, holding, hobserved, hframe, hwithin, held, hheld, receiver, hname, hslot, hrecaptures,
    hencloses⟩ := hall _ hmade c hc b hb hkind
  exact ⟨g, holding, hobserved, hframe, hwithin, held, hheld, receiver, hname, hslot,
    hrecaptures.fieldInit_iff, hrecaptures.fieldType_iff, hrecaptures.ty, hencloses⟩

/-- `h` needs the recursive function two levels around it. -/
def handedOn : Module :=
  { name := "handed"
    functions := [{
      name := "outer"
      body := [
        .functionDef {
          name := "f"
          body := [
            .functionDef {
              name := "g"
              body := [
                .functionDef { name := "h", body := [.ret (some (.call (.name "f") [] []))] },
                .ret (some (.call (.name "h") [] []))] },
            .ret (some (.call (.name "f") [] []))] }] }] }

/-- The closure captures again what the closure around it holds as a handle. -/
def Observation.takesHandle (trace : List Observation) : Observation → Bool
  | .closure _ captures s within => captures.toList.any fun c =>
      (s.lookupInFunction c.name).any (·.kind == .captured) && trace.all fun o =>
        match o with
        | .closure g holding _ _ =>
          within.map Usage.reads != some (Usage.ofFunction g).reads ||
            holding.toList.all fun x => x.name != c.name || x.kind == .selfHandle

/-- The closure of `g` holds a pointer to a constant closure, and that of `h` a closure. -/
theorem recaptured_iff_handedOn :
    let w : Settings := ⟨({} : Table).oracle, {}⟩
    let trace := ((handedOn.round w 0).pass handedOn w).trace
    ∃ h captures s within, .closure h captures s within ∈ trace ∧
      ∃ c ∈ captures.toList, ∃ b, s.lookup c.name = some b ∧ b.kind = .captured ∧
        ∃ g holding, (∃ around u, .closure g holding around u ∈ trace) ∧
          ∃ held ∈ holding.toList, held.name = c.name ∧ held.kind = .selfHandle ∧
            c.fieldType ≠ held.fieldType := by
  intro w trace
  have hobserved : trace.any (Observation.takesHandle trace) = true := by decide +kernel
  obtain ⟨o, ho, htakes⟩ := List.any_eq_true.mp hobserved
  cases o with
  | closure h captures s within =>
    obtain ⟨c, hc, hcaptured⟩ := List.any_eq_true.mp htakes
    rw [Bool.and_eq_true] at hcaptured
    obtain ⟨hinner, hothers⟩ := hcaptured
    obtain ⟨b, hb, hkind⟩ := (Option.any_eq_true _ _).mp hinner
    rw [beq_iff_eq] at hkind
    have hlookup := Scope.lookup_of_lookupInFunction hb
    obtain ⟨g, holding, ⟨around, u, hmade⟩, -, hwithin, held, hheld, receiver, hname, -, -, htype,
      -, -⟩ := recaptured_iff handedOn w 0 ho hc hlookup hkind
    have hother := List.all_eq_true.mp hothers _ hmade
    have hhandle : held.kind = .selfHandle := by
      rw [hwithin hb] at hother
      simp only [Option.map_some, bne_self_eq_false, Bool.false_or, List.all_eq_true,
        Bool.or_eq_true, bne_iff_ne, beq_iff_eq] at hother
      exact (hother held hheld).resolve_left fun hne => hne hname
    exact ⟨h, captures, s, within, ho, c, hc, b, hlookup, hkind, g, holding, ⟨around, u, hmade⟩,
      held, hheld, hname, hhandle, fun heq => (htype.mp heq).1 hhandle⟩

end ClosureConversion
