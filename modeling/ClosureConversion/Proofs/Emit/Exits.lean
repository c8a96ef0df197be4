import ClosureConversion.Proofs.Emit.Notes

/-! # Exits -/

set_option autoImplicit false

namespace ClosureConversion

/-- Which exits other than errors may be written: any, or none that leave. In the latter case
`inLoop` says whether a loop is open that jumps can go to. -/
inductive Latitude where
  | free
  | held (inLoop : Bool)

namespace Latitude

/-- In the body of a loop, jumps do not leave. -/
def inLoop : Latitude → Latitude
  | free => free
  | held _ => held true

/-- A part of a program is allowed, given whether it leaves a block outside or inside a loop. -/
def Permits (k : Latitude) (leaves : Bool → Bool) : Prop :=
  ∀ inLoop, k = held inLoop → leaves inLoop = false

variable {k : Latitude}

theorem permits_or {a b : Bool → Bool} :
    k.Permits (fun l => a l || b l) ↔ k.Permits a ∧ k.Permits b := by
  simp only [Permits, Bool.or_eq_false_iff]
  exact ⟨fun h => ⟨fun l hl => (h l hl).1, fun l hl => (h l hl).2⟩,
    fun h l hl => ⟨h.1 l hl, h.2 l hl⟩⟩

theorem free_permits (leaves : Bool → Bool) : free.Permits leaves := fun _ h => by cases h

theorem held_permits {inLoop : Bool} {leaves : Bool → Bool} :
    (held inLoop).Permits leaves ↔ leaves inLoop = false :=
  ⟨fun h => h inLoop rfl, fun h l hl => by cases hl; exact h⟩

/-- In the body of a loop it counts what leaves a block inside a loop. -/
theorem inLoop_permits {leaves : Bool → Bool} (h : k.Permits fun _ => leaves true) :
    k.inLoop.Permits leaves := by
  cases k with
  | free => exact free_permits _
  | held l => exact held_permits.mpr (h l rfl)

/-- Only what may return may be a `return`. -/
theorem eq_free_of_permits (h : k.Permits fun _ => true) : k = free := by
  cases k with
  | free => rfl
  | held l => cases h l rfl

theorem ne_held_of_permits (h : k.Permits fun l => !l) : k ≠ held false := by
  rintro rfl
  cases h false rfl

end Latitude

namespace Exit

/-- May be written since the state was `f`. -/
def Allowed (k : Latitude) (f : FunctionState) : Exit → Prop
  | .failing fault _ | .raising fault _ => f.catches <:+ fault.catches
  | .result _ => k = .free
  | .jump loops _ => f.loops < loops ∨ f.loops = loops ∧ k ≠ .held false

/-- Goes to a place outside of whatever was begun when the state was `f`. -/
def Leaves (f : FunctionState) : Exit → Prop
  | .failing fault _ | .raising fault _ => fault.catches.length ≤ f.catches.length
  | .result _ => True
  | .jump loops _ => loops ≤ f.loops

variable {k : Latitude} {f g : FunctionState} {e : Exit}

theorem allowed_of_fault {fault : Fault} (h : e.fault? = some fault)
    (hcatches : f.catches <:+ fault.catches) : e.Allowed k f := by
  cases e with
  | failing | raising =>
    cases h
    exact hcatches
  | result | jump => cases h

/-- An error that goes where errors went before leaves. -/
theorem leaves_of_fault {fault : Fault} (h : e.fault? = some fault)
    (hcatches : fault.catches = f.catches) : e.Leaves f := by
  cases e with
  | failing | raising =>
    cases h
    exact (congrArg List.length hcatches).le
  | result | jump => cases h

theorem Allowed.of_held (h : e.Allowed (.held false) f) : e.Allowed k f := by
  cases e with
  | failing | raising => exact h
  | result => cases h
  | jump => exact h.imp_right fun hsame => absurd rfl hsame.2

theorem Allowed.congr (hloops : g.loops = f.loops) (hcatches : g.catches = f.catches)
    (h : e.Allowed k g) : e.Allowed k f := by
  cases e with
  | failing fault _ | raising fault _ =>
    show f.catches <:+ fault.catches
    rw [← hcatches]
    exact h
  | result => exact h
  | jump loops _ =>
    show f.loops < loops ∨ f.loops = loops ∧ k ≠ .held false
    rw [← hloops]
    exact h

/-- **Without a `return` and without a jump to a loop around, control can leave by an error only**,
and it leaves for where errors went before. -/
theorem exists_fault_of_leaves (h : e.Allowed (.held false) f) (hleaves : e.Leaves f) :
    ∃ fault, e.fault? = some fault ∧ fault.catches = f.catches := by
  cases e with
  | failing fault _ | raising fault _ => exact ⟨fault, rfl, (h.eq_of_length_le hleaves).symm⟩
  | result => cases h
  | jump loops _ =>
    rcases h with hlt | ⟨-, hne⟩
    · exact absurd hleaves (Nat.not_le.mpr hlt)
    · exact absurd rfl hne

end Exit

/-! ## Exits noted on the way -/

namespace Context

/-- The same `try` bodies and loops are open, and the exits noted on the way are allowed. -/
structure Passes (k : Latitude) (c c' : Context) : Prop where
  loops : c'.current.loops = c.current.loops
  catches : c'.current.catches = c.current.catches
  notes : ∃ new, c'.current.notes = new ++ c.current.notes ∧
    ∀ e, Note.exit e ∈ new → e.Allowed k c.current

variable {k : Latitude} {c c₁ c₂ : Context}

theorem passes_of_same (h : c₁.current = c.current) : c.Passes k c₁ := by
  refine ⟨by rw [h], by rw [h], [], ?_, fun e he => by cases he⟩
  rw [h, List.nil_append]

/-- A change of the state that shows in its notes only, by exits that are allowed. -/
theorem passes_of_notes (new : List Note) (hloops : c₁.current.loops = c.current.loops)
    (hcatches : c₁.current.catches = c.current.catches)
    (hnotes : c₁.current.notes = new ++ c.current.notes)
    (hnew : ∀ e, Note.exit e ∈ new → e.Allowed k c.current) : c.Passes k c₁ :=
  ⟨hloops, hcatches, new, hnotes, hnew⟩

theorem Passes.trans (h : c.Passes k c₁) (h' : c₁.Passes k c₂) : c.Passes k c₂ := by
  obtain ⟨first, hfirst, hallowed⟩ := h.notes
  obtain ⟨later, hlater, hallowed'⟩ := h'.notes
  refine ⟨h'.loops.trans h.loops, h'.catches.trans h.catches, later ++ first, ?_, fun e he => ?_⟩
  · rw [hlater, hfirst, List.append_assoc]
  · rcases List.mem_append.mp he with hmem | hmem
    · exact (hallowed' e hmem).congr h.loops h.catches
    · exact hallowed e hmem

theorem Passes.of_held (h : c.Passes (.held false) c₁) : c.Passes k c₁ := by
  obtain ⟨new, hnew, hallowed⟩ := h.notes
  exact ⟨h.loops, h.catches, new, hnew, fun e he => (hallowed e he).of_held⟩

/-- Nothing but the state of the function matters. -/
theorem Passes.congr {d d₁ : Context} (h : c.Passes k c₁) (hstart : d.current = c.current)
    (hend : d₁.current = c₁.current) : d.Passes k d₁ := by
  obtain ⟨hloops, hcatches, hnotes⟩ := h
  rw [← hstart, ← hend] at hloops hcatches hnotes
  exact ⟨hloops, hcatches, hnotes⟩

end Context

namespace Emit

variable {α β : Type} {k : Latitude}

/-- The exits that the computation notes are allowed, whether it succeeds or fails. -/
def Passes (k : Latitude) (x : Emit α) : Prop :=
  ∀ (w : Settings) (c : Context), c.Passes k (x w c).2

theorem Passes.bind {x : Emit α} {f : α → Emit β} (hx : Passes k x) (hf : ∀ a, Passes k (f a)) :
    Passes k (x >>= f) :=
  fun w c => snd_bind (hx w c) fun a c₁ _ hfirst => hfirst.trans (hf a w c₁)

theorem noteAll_passes {notes : List Note} (h : ∀ f e, Note.exit e ∈ notes → e.Allowed k f) :
    Passes k (noteAll notes) :=
  fun _ c => Context.passes_of_notes notes rfl rfl rfl (h c.current)

theorem inFrame_current (kind : FrameKind) (x : Emit α) (w : Settings) (c : Context) :
    (inFrame kind x w c).2.current = (x w { c with scope := c.scope.push kind }).2.current := by
  unfold inFrame
  dsimp only
  split <;> rfl

theorem Passes.inFrame {x : Emit α} (hx : Passes k x) (kind : FrameKind) :
    Passes k (inFrame kind x) := by
  intro w c
  exact (hx w { c with scope := c.scope.push kind }).congr rfl (inFrame_current kind x w c)

theorem Passes.isolated {x : Emit α} (hx : Passes k x) : Passes k (isolated x) :=
  fun w c => (hx w { c with prelude := {} }).congr rfl rfl

/-- Another function has exits of its own. -/
theorem Passes.inFunction (state : FunctionState) (x : Emit α) : Passes k (inFunction state x) :=
  fun _ _ => Context.passes_of_same rfl

/-- Errors of a `try` body stay inside or go where errors went before. -/
theorem Passes.catching {x : Emit α} (hx : Passes k x) (target : CatchTarget) :
    Passes k (catching target x) := by
  intro w c
  obtain ⟨hloops, hcatches, new, hnew, hallowed⟩ := hx w
    { c with current := { c.current with catches := target :: c.current.catches } }
  refine ⟨hloops, congrArg List.tail hcatches, new, hnew, fun e he => ?_⟩
  have hinside := hallowed e he
  cases e with
  | failing | raising => exact (List.suffix_cons target _).trans hinside
  | result | jump => exact hinside

theorem Passes.handling {x : Emit α} (hx : Passes k x) (payload : String) :
    Passes k (handling payload x) := by
  intro w c
  obtain ⟨hloops, hcatches, new, hnew, hallowed⟩ := hx w
    { c with current := { c.current with handlerErrors := payload :: c.current.handlerErrors } }
  exact ⟨hloops, hcatches, new, hnew, fun e he => (hallowed e he).congr rfl rfl⟩

/-- Jumps in the body of a loop stay inside. -/
theorem Passes.looping {x : Emit α} (hx : Passes k.inLoop x) : Passes k (looping x) := by
  intro w c
  obtain ⟨hloops, hcatches, new, hnew, hallowed⟩ := hx w
    { c with current := { c.current with loops := c.current.loops + 1 } }
  refine ⟨?_, hcatches, new, hnew, fun e he => ?_⟩
  · exact congrArg (· - 1) hloops
  · have hinside := hallowed e he
    cases e with
    | failing | raising => exact hinside
    | result =>
      cases k with
      | free => rfl
      | held l => cases hinside
    | jump =>
      refine .inl ?_
      rcases hinside with hlt | ⟨heq, -⟩
      · exact Nat.lt_of_succ_lt hlt
      · exact Nat.lt_of_succ_le (Nat.le_of_eq heq)

end Emit

end ClosureConversion
