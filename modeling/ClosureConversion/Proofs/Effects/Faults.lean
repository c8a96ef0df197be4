import ClosureConversion.Emit.Stmt
import ClosureConversion.Proofs.Emit.Exits
import ClosureConversion.Proofs.Scope.Fresh

/-! # Errors that leave what is written -/

set_option autoImplicit false

namespace ClosureConversion

/-! ## Numbered statements -/

namespace CatchTarget

variable {t : CatchTarget} {m n m' n' : Nat}

/-- The target of a `try` statement whose number comes after `m` and not after `n`. -/
def Between (m n : Nat) (t : CatchTarget) : Prop := ∃ k, m < k ∧ k ≤ n ∧ t.label = s!"try{k}"

theorem Between.mono (h : t.Between m n) (hm : m' ≤ m) (hn : n ≤ n') : t.Between m' n' := by
  obtain ⟨k, hlow, hhigh, hlabel⟩ := h
  exact ⟨k, by omega, by omega, hlabel⟩

/-- One target belongs to one statement. -/
theorem Between.overlap (h : t.Between m n) (h' : t.Between m' n') : m < n' ∧ m' < n := by
  obtain ⟨j, hlow, hhigh, hlabel⟩ := h
  obtain ⟨k, hlow', hhigh', hlabel'⟩ := h'
  have hsame : s!"try{j}" = s!"try{k}" := hlabel.symm.trans hlabel'
  obtain rfl := toString_injective ((String.append_right_inj "try").mp hsame)
  omega

/-- Nothing that was written as failing goes to the target. -/
def Idle (faults : List Fault) (t : CatchTarget) : Prop := ∀ f ∈ faults, f.catches.head? ≠ some t

end CatchTarget

/-- Why an error leaves: an operation was written as failing, or handlers were written without
need. -/
def Explained (P : Operation → Prop) (faults : List Fault) (guards : List CatchTarget) : Prop :=
  (∃ f ∈ faults, P f.operation) ∨ ∃ t ∈ guards, t.Idle faults

/-- A reason stays one if what is added has nothing to do with the handlers. -/
theorem Explained.mono {P Q : Operation → Prop} {faults faults' : List Fault}
    {guards guards' : List CatchTarget} (h : Explained P faults guards)
    (hP : ∀ op, P op → Q op) (hfaults : faults ⊆ faults') (hguards : guards ⊆ guards')
    (hother : ∀ f ∈ faults', f ∈ faults ∨ ∀ t ∈ guards, f.catches.head? ≠ some t) :
    Explained Q faults' guards' := by
  rcases h with ⟨f, hf, hop⟩ | ⟨t, ht, hidle⟩
  · exact .inl ⟨f, hfaults hf, hP _ hop⟩
  · refine .inr ⟨t, hguards ht, fun f hf => ?_⟩
    rcases hother f hf with hold | hnew
    · exact hidle f hold
    · exact hnew t ht

/-! ## What is noted on the way -/

/-- What the state of a function says of errors. -/
def FunctionState.marks (f : FunctionState) :
    List CatchTarget × List Fault × List CatchTarget × Bool :=
  (f.catches, f.faults, f.guards, f.failed)

theorem FunctionState.marks_eq_iff {f g : FunctionState} : f.marks = g.marks ↔
    f.catches = g.catches ∧ f.faults = g.faults ∧ f.guards = g.guards ∧ f.failed = g.failed := by
  simp only [marks, Prod.mk.injEq]

namespace Context

/-- All that matters here: what is noted of errors, and how many numbers have been given out. -/
def footing (c : Context) : (List CatchTarget × List Fault × List CatchTarget × Bool) × Nat :=
  (c.current.marks, c.counter)

/-- The `try` statements around have been numbered already. -/
def Numbered (c : Context) : Prop := ∀ t ∈ c.current.catches, t.Between 0 c.counter

/-- These faults and guards were noted on the way from `c` to `c'`. -/
structure Noted (c c' : Context) (faults : List Fault) (guards : List CatchTarget) : Prop where
  counter : c.counter ≤ c'.counter
  catches : c'.current.catches = c.current.catches
  faults_eq : c'.current.faults = faults ++ c.current.faults
  guards_eq : c'.current.guards = guards ++ c.current.guards
  /-- Errors go to `try` bodies entered on the way, or where errors went before. -/
  inside : ∀ f ∈ faults, ∃ entered, f.catches = entered ++ c.current.catches ∧
    ∀ t ∈ entered, t.Between c.counter c'.counter
  numbered : ∀ t ∈ guards, t.Between c.counter c'.counter
  failed : c'.current.failed = true ↔ c.current.failed = true ∨ ∃ f ∈ faults, f.catches = []

/-- Errors that leave on the way from `c` to `c'` do so for a reason. -/
def Backed (P : Operation → Prop) (c c' : Context) : Prop :=
  ∃ faults guards, c.Noted c' faults guards ∧
    (c.Numbered → (∃ f ∈ faults, f.catches = c.current.catches) → Explained P faults guards)

variable {P Q : Operation → Prop} {c c₁ c₂ : Context} {faults faults' : List Fault}
  {guards guards' : List CatchTarget}

namespace Noted

theorem isNumbered (h : c.Noted c₁ faults guards) (hc : c.Numbered) : c₁.Numbered := by
  intro t ht
  rw [h.catches] at ht
  exact (hc t ht).mono (Nat.le_refl 0) h.counter

/-- A fault has nothing to do with a `try` statement that is numbered neither on the way nor before
those around. -/
theorem head?_ne (h : c.Noted c₁ faults guards) {m low high : Nat}
    (hc : ∀ t ∈ c.current.catches, t.Between 0 m) (hlow : m ≤ low)
    (hapart : c₁.counter ≤ low ∨ high ≤ c.counter) {f : Fault} (hf : f ∈ faults) {t : CatchTarget}
    (ht : t.Between low high) : f.catches.head? ≠ some t := by
  intro hhead
  obtain ⟨entered, hcatches, hentered⟩ := h.inside f hf
  have hmem := List.mem_of_mem_head? hhead
  rw [hcatches] at hmem
  rcases List.mem_append.mp hmem with hnew | hold
  · have := (hentered t hnew).overlap ht
    omega
  · have := (hc t hold).overlap ht
    omega

theorem head?_ne_later (h : c.Noted c₁ faults guards) (hc : c.Numbered) {f : Fault}
    (hf : f ∈ faults) {t : CatchTarget} {n : Nat} (ht : t.Between c₁.counter n) :
    f.catches.head? ≠ some t :=
  h.head?_ne hc h.counter (.inl (Nat.le_refl _)) hf ht

theorem head?_ne_earlier (h : c.Noted c₁ faults guards) {m : Nat}
    (hc : ∀ t ∈ c.current.catches, t.Between 0 m) {f : Fault} (hf : f ∈ faults) {t : CatchTarget}
    (ht : t.Between m c.counter) : f.catches.head? ≠ some t :=
  h.head?_ne hc (Nat.le_refl _) (.inr (Nat.le_refl _)) hf ht

theorem trans (h : c.Noted c₁ faults guards) (h' : c₁.Noted c₂ faults' guards') :
    c.Noted c₂ (faults' ++ faults) (guards' ++ guards) := by
  refine ⟨Nat.le_trans h.counter h'.counter, h'.catches.trans h.catches, ?_, ?_, fun f hf => ?_,
    fun t ht => ?_, ?_⟩
  · rw [h'.faults_eq, h.faults_eq, List.append_assoc]
  · rw [h'.guards_eq, h.guards_eq, List.append_assoc]
  · rcases List.mem_append.mp hf with hlater | hfirst
    · obtain ⟨entered, heq, hentered⟩ := h'.inside f hlater
      exact ⟨entered, by rw [heq, h.catches],
        fun t ht => (hentered t ht).mono h.counter (Nat.le_refl _)⟩
    · obtain ⟨entered, heq, hentered⟩ := h.inside f hfirst
      exact ⟨entered, heq, fun t ht => (hentered t ht).mono (Nat.le_refl _) h'.counter⟩
  · rcases List.mem_append.mp ht with hlater | hfirst
    · exact (h'.numbered t hlater).mono h.counter (Nat.le_refl _)
    · exact (h.numbered t hfirst).mono (Nat.le_refl _) h'.counter
  · rw [h'.failed, h.failed]
    simp only [List.mem_append, or_and_right, exists_or]
    exact or_assoc.trans (or_congr_right or_comm)

/-- Handlers are written for a `try` statement that was entered on the way. -/
theorem guard (h : c.Noted c₁ faults guards) {target : CatchTarget}
    (htarget : target.Between c.counter c₁.counter)
    (hmarks : c₂.current.marks =
      (c₁.current.catches, c₁.current.faults, target :: c₁.current.guards, c₁.current.failed))
    (hcounter : c₂.counter = c₁.counter) : c.Noted c₂ faults (target :: guards) := by
  simp only [FunctionState.marks, Prod.mk.injEq] at hmarks
  obtain ⟨hcatches, hfaults, hguards, hfailed⟩ := hmarks
  refine ⟨?_, ?_, ?_, ?_, ?_, ?_, ?_⟩
  · rw [hcounter]
    exact h.counter
  · rw [hcatches]
    exact h.catches
  · rw [hfaults]
    exact h.faults_eq
  · rw [hguards, h.guards_eq, List.cons_append]
  · rw [hcounter]
    exact h.inside
  · rw [hcounter]
    exact List.forall_mem_cons.mpr ⟨htarget, h.numbered⟩
  · rw [hfailed]
    exact h.failed

end Noted

/-- Nothing is noted. -/
theorem noted_of_still (hmarks : c₁.current.marks = c.current.marks)
    (hcounter : c.counter ≤ c₁.counter) : c.Noted c₁ [] [] := by
  obtain ⟨hcatches, hfaults, hguards, hfailed⟩ := FunctionState.marks_eq_iff.mp hmarks
  refine ⟨hcounter, hcatches, hfaults, hguards, ?_, ?_, ?_⟩
  · exact fun f hf => absurd hf List.not_mem_nil
  · exact fun t ht => absurd ht List.not_mem_nil
  · rw [hfailed]
    exact ⟨.inl, fun h => h.resolve_right fun ⟨f, hf, _⟩ => List.not_mem_nil hf⟩

theorem backed_of_still (hmarks : c₁.current.marks = c.current.marks)
    (hcounter : c.counter ≤ c₁.counter) : c.Backed P c₁ :=
  ⟨[], [], noted_of_still hmarks hcounter, fun _ ⟨_, hf, _⟩ => absurd hf List.not_mem_nil⟩

/-- **Reasons are kept by whatever is written before and after.** -/
theorem Backed.trans (h : c.Backed P c₁) (h' : c₁.Backed P c₂) : c.Backed P c₂ := by
  obtain ⟨faults, guards, hnoted, hbacked⟩ := h
  obtain ⟨faults', guards', hnoted', hbacked'⟩ := h'
  refine ⟨_, _, hnoted.trans hnoted', fun hc ⟨f, hf, hleaves⟩ => ?_⟩
  rcases List.mem_append.mp hf with hlater | hfirst
  · have hleaves' : f.catches = c₁.current.catches := hleaves.trans hnoted.catches.symm
    refine (hbacked' (hnoted.isNumbered hc) ⟨f, hlater, hleaves'⟩).mono (fun _ => id)
      (List.subset_append_left ..) (List.subset_append_left ..) fun g hg => ?_
    refine (List.mem_append.mp hg).imp_right fun hfirst t ht => ?_
    exact hnoted.head?_ne_later hc hfirst (hnoted'.numbered t ht)
  · refine (hbacked hc ⟨f, hfirst, hleaves⟩).mono (fun _ => id) (List.subset_append_right ..)
      (List.subset_append_right ..) fun g hg => ?_
    refine (List.mem_append.mp hg).symm.imp_right fun hlater t ht => ?_
    refine hnoted'.head?_ne_earlier (m := c.counter) ?_ hlater (hnoted.numbered t ht)
    rw [hnoted.catches]
    exact hc

theorem backed_of_footing_eq (h : c₁.footing = c.footing) : c.Backed P c₁ :=
  backed_of_still (congrArg Prod.fst h) (Nat.le_of_eq (congrArg Prod.snd h).symm)

/-- Nothing but the footing matters. -/
theorem Backed.congr {d d₁ : Context} (h : c.Backed P c₁) (hstart : d.footing = c.footing)
    (hend : d₁.footing = c₁.footing) : d.Backed P d₁ :=
  (backed_of_footing_eq hstart.symm).trans (h.trans (backed_of_footing_eq hend))

/-- An operation that is written as failing is a reason for an error to leave. -/
theorem backed_faulted {op : Operation} (exit : Fault → Exit)
    (hexit : ∀ fault, (exit fault).fault? = some fault) (h : P op) :
    c.Backed P (c.faulted op exit) := by
  have hfaults : (c.faulted op exit).current.faults =
      [⟨op, c.current.catches⟩] ++ c.current.faults :=
    List.filterMap_cons_some (hexit _)
  have hguards : (c.faulted op exit).current.guards = c.current.guards :=
    List.filterMap_cons_none rfl
  refine ⟨[⟨op, c.current.catches⟩], [], ⟨Nat.le_refl _, rfl, hfaults, hguards, ?_, ?_, ?_⟩,
    fun _ _ => .inl ⟨_, List.mem_singleton_self _, h⟩⟩
  · intro f hf
    obtain rfl := List.mem_singleton.mp hf
    exact ⟨[], rfl, fun t ht => absurd ht List.not_mem_nil⟩
  · exact fun t ht => absurd ht List.not_mem_nil
  · simp [faulted]

/-! ## Errors caught -/

/-- The body `d` of a `try` statement is entered from `c`. -/
structure Enters (c d : Context) (target : CatchTarget) : Prop where
  numbered : target.Between c.counter d.counter
  marks : d.current.marks = { c.current with catches := target :: c.current.catches }.marks

namespace Enters

variable {R : Operation → Prop} {d d₁ e e₁ : Context} {target : CatchTarget}

theorem counter (h : c.Enters d target) : c.counter ≤ d.counter := by
  obtain ⟨k, hlow, hhigh, -⟩ := h.numbered
  omega

theorem catches (h : c.Enters d target) : d.current.catches = target :: c.current.catches :=
  (FunctionState.marks_eq_iff.mp h.marks).1

theorem isNumbered (h : c.Enters d target) (hc : c.Numbered) : d.Numbered := by
  intro t ht
  rw [h.catches] at ht
  rcases List.mem_cons.mp ht with rfl | hold
  · exact h.numbered.mono (Nat.zero_le _) (Nat.le_refl _)
  · exact (hc t hold).mono (Nat.le_refl 0) h.counter

/-- What was noted in the body was noted on the way. -/
theorem noted (h : c.Enters d target) (hbody : d.Noted d₁ faults guards)
    (hend : c₁.current.marks = { d₁.current with catches := c.current.catches }.marks)
    (hcounter : c₁.counter = d₁.counter) : c.Noted c₁ faults guards := by
  obtain ⟨-, hfaults, hguards, hfailed⟩ := FunctionState.marks_eq_iff.mp h.marks
  obtain ⟨hcatches, hfaults', hguards', hfailed'⟩ := FunctionState.marks_eq_iff.mp hend
  refine ⟨?_, hcatches, ?_, ?_, fun f hf => ?_, fun t ht => ?_, ?_⟩
  · rw [hcounter]
    exact Nat.le_trans h.counter hbody.counter
  · exact hfaults'.trans (hbody.faults_eq.trans (congrArg (faults ++ ·) hfaults))
  · exact hguards'.trans (hbody.guards_eq.trans (congrArg (guards ++ ·) hguards))
  · obtain ⟨entered, heq, hentered⟩ := hbody.inside f hf
    rw [h.catches] at heq
    refine ⟨entered ++ [target], by rw [heq, List.append_assoc]; rfl, fun t ht => ?_⟩
    rw [hcounter]
    rcases List.mem_append.mp ht with hinner | hlast
    · exact (hentered t hinner).mono h.counter (Nat.le_refl _)
    · rw [List.mem_singleton.mp hlast]
      exact h.numbered.mono (Nat.le_refl _) hbody.counter
  · rw [hcounter]
    exact (hbody.numbered t ht).mono h.counter (Nat.le_refl _)
  · rw [hfailed', hbody.failed, hfailed]

/-- An error in the body has one more place to go to. -/
theorem catches_ne (h : c.Enters d target) (hbody : d.Noted d₁ faults guards) {f : Fault}
    (hf : f ∈ faults) : f.catches ≠ c.current.catches := by
  intro hleaves
  obtain ⟨entered, heq, -⟩ := hbody.inside f hf
  have hlength := congrArg List.length (heq.symm.trans hleaves)
  rw [h.catches, List.length_append, List.length_cons] at hlength
  omega

/-- **The errors of a `try` body stay inside.** -/
theorem caught (h : c.Enters d target) (hbody : d.Backed Q d₁)
    (hend : c₁.current.marks = { d₁.current with catches := c.current.catches }.marks)
    (hcounter : c₁.counter = d₁.counter) : c.Backed P c₁ := by
  obtain ⟨faults, guards, hnoted, -⟩ := hbody
  exact ⟨faults, guards, h.noted hnoted hend hcounter,
    fun _ ⟨f, hf, hleaves⟩ => absurd hleaves (h.catches_ne hnoted hf)⟩

/-- A `try` body either lets its error out to its handlers for a reason, or has idle handlers. -/
theorem explained (h : c.Enters d target) (hc : c.Numbered) (hnoted : d.Noted d₁ faults guards)
    (hbacked : d.Numbered → (∃ f ∈ faults, f.catches = d.current.catches) →
      Explained P faults guards) : Explained P faults (target :: guards) := by
  by_cases hleaves : ∃ f ∈ faults, f.catches = d.current.catches
  · exact (hbacked (h.isNumbered hc) hleaves).mono (fun _ => id) (List.Subset.refl _)
      (List.subset_cons_self ..) fun f hf => .inl hf
  · refine .inr ⟨target, List.mem_cons_self, fun f hf hhead => ?_⟩
    obtain ⟨entered, heq, hentered⟩ := hnoted.inside f hf
    cases entered with
    | nil => exact hleaves ⟨f, hf, heq⟩
    | cons t rest =>
      rw [heq] at hhead
      obtain rfl : t = target := Option.some.inj hhead
      have := (hentered t List.mem_cons_self).overlap h.numbered
      omega

/-- **An error that leaves the handlers of a `try` body does so for a reason in the handlers, or for
one in the body.** -/
theorem handled (h : c.Enters d target) (hbody : d.Backed Q d₁) (hhandlers : e.Backed R e₁)
    (hR : ∀ op, R op → P op ∨ ∀ op', Q op' → P op')
    (hleft : c₁.current.marks = { d₁.current with catches := c.current.catches }.marks)
    (hcounter : c₁.counter = d₁.counter)
    (hheld : e.current.marks =
      (c₁.current.catches, c₁.current.faults, target :: c₁.current.guards, c₁.current.failed))
    (hcounter' : e.counter = c₁.counter) : c.Backed P e₁ := by
  obtain ⟨faults, guards, hnoted, hbacked⟩ := hbody
  obtain ⟨faults', guards', hnoted', hbacked'⟩ := hhandlers
  have hentered : target.Between c.counter c₁.counter :=
    h.numbered.mono (Nat.le_refl _) (hcounter ▸ hnoted.counter)
  have hbefore : c.Noted e faults (target :: guards) :=
    (h.noted hnoted hleft hcounter).guard hentered hheld hcounter'
  rw [← hcounter'] at hentered
  refine ⟨_, _, hbefore.trans hnoted', fun hc ⟨f, hf, hleaves⟩ => ?_⟩
  have hlater : f ∈ faults' :=
    (List.mem_append.mp hf).resolve_right fun hfirst => h.catches_ne hnoted hfirst hleaves
  have hleaves' : f.catches = e.current.catches := hleaves.trans hbefore.catches.symm
  have hapart : ∀ g ∈ faults', ∀ t, t.Between c.counter e.counter → g.catches.head? ≠ some t :=
    fun g hg t ht => hnoted'.head?_ne_earlier (m := c.counter)
      (by rw [hbefore.catches]; exact hc) hg ht
  rcases hbacked' (hbefore.isNumbered hc) ⟨f, hlater, hleaves'⟩ with ⟨g, hg, hop⟩ | ⟨t, ht, hidle⟩
  · rcases hR _ hop with hop | hQ
    · exact .inl ⟨g, List.mem_append_left _ hg, hop⟩
    · refine (h.explained hc hnoted hbacked).mono hQ (List.subset_append_right ..)
        (List.subset_append_right ..) fun g hg => ?_
      refine (List.mem_append.mp hg).symm.imp_right fun hlater t ht => ?_
      exact hapart g hlater t (hbefore.numbered t ht)
  · refine .inr ⟨t, List.mem_append_left _ ht, fun g hg => ?_⟩
    rcases List.mem_append.mp hg with hlater | hfirst
    · exact hidle g hlater
    · exact hbefore.head?_ne_later hc hfirst (hnoted'.numbered t ht)

end Enters

end Context

end ClosureConversion
