import ClosureConversion.Emit.Closure
import ClosureConversion.Proofs.Scope.Confinement

/-! # Entering a body -/

set_option autoImplicit false

namespace ClosureConversion

/-- A name that is declared, with what stands for it. -/
structure Introduction where
  name : String
  slot : Slot

/-- What a capture is to the body: a field, which is a pointer if it is held by reference. -/
def Capture.introduction (receiver : String) (c : Capture) : Introduction :=
  ⟨c.name, c.access receiver, .field (c.mode == .byReference)⟩

/-- A formal before the body is planned. -/
def Formal.introduction (p : Formal) : Introduction := ⟨p.name, p.ident, .formal false⟩

namespace Layer

/-- Declare names one after the other. -/
def introduce (l : Layer) (is : List Introduction) : Layer :=
  is.foldl (fun l i => l.bind i.name i.slot) l

/-- Say of formals, one after the other, whether the body works on copies. -/
def settleAll (l : Layer) (formals : List Formal) : Layer :=
  formals.foldl (fun l p => l.settle p.name (.formal p.reassigned)) l

variable {l : Layer} {n : String}

theorem introduce_append (is js : List Introduction) :
    l.introduce (is ++ js) = (l.introduce is).introduce js := List.foldl_append

theorem introduce_kind (is : List Introduction) : (l.introduce is).kind = l.kind := by
  induction is generalizing l with
  | nil => rfl
  | cons i rest ih => exact ih

theorem binds_introduce {is : List Introduction} :
    (l.introduce is).Binds n ↔ l.Binds n ∨ ∃ i ∈ is, i.name = n := by
  induction is generalizing l with
  | nil => exact ⟨.inl, fun h => h.elim id fun ⟨_, hi, _⟩ => absurd hi List.not_mem_nil⟩
  | cons i rest ih =>
    refine ih.trans ?_
    simp only [binds_bind, List.mem_cons, exists_eq_or_imp, or_assoc, or_left_comm]

/-- The layer binds the formals that were declared in it. -/
theorem binds_of_formal {around : List Introduction} {formals : List Formal} {p : Formal}
    (hp : p ∈ formals) :
    (l.introduce (around ++ formals.map Formal.introduction)).Binds p.name :=
  binds_introduce.mpr (.inr
    ⟨p.introduction, List.mem_append_right _ (List.mem_map_of_mem hp), rfl⟩)

/-- Names that are not declared keep what they have. -/
theorem introduce_of_not_mem {is : List Introduction} (h : ∀ i ∈ is, i.name ≠ n) :
    (l.introduce is).slot? n = l.slot? n ∧ (l.introduce is).ident? n = l.ident? n := by
  induction is generalizing l with
  | nil => exact ⟨rfl, rfl⟩
  | cons i rest ih =>
    have hi : i.name ≠ n := h i List.mem_cons_self
    obtain ⟨hslot, hident⟩ := ih (l := l.bind i.name i.slot)
      fun j hj => h j (List.mem_cons_of_mem i hj)
    exact ⟨hslot.trans (if_neg hi), hident.trans (if_neg hi)⟩

/-- The last declaration of a name counts. -/
theorem introduce_last {pre post : List Introduction} {i : Introduction} (hi : i.name = n)
    (hpost : ∀ j ∈ post, j.name ≠ n) :
    (l.introduce (pre ++ i :: post)).slot? n = some i.slot ∧
      (l.introduce (pre ++ i :: post)).ident? n = some i.slot.ident := by
  rw [introduce_append]
  obtain ⟨hslot, hident⟩ := introduce_of_not_mem (l := (l.introduce pre).bind i.name i.slot) hpost
  exact ⟨hslot.trans (if_pos hi), hident.trans (if_pos hi)⟩

theorem settleAll_kind (formals : List Formal) : (l.settleAll formals).kind = l.kind := by
  induction formals generalizing l with
  | nil => rfl
  | cons p rest ih => exact ih

theorem settleAll_ident? (formals : List Formal) : (l.settleAll formals).ident? = l.ident? := by
  induction formals generalizing l with
  | nil => rfl
  | cons p rest ih => exact ih

theorem settleAll_slot_ident (formals : List Formal) (n : String) :
    ((l.settleAll formals).slot? n).map Slot.ident = (l.slot? n).map Slot.ident := by
  induction formals generalizing l with
  | nil => rfl
  | cons p rest ih =>
    refine ih.trans ?_
    show (if p.name = n then _ else _ : Option Slot).map Slot.ident = _
    split
    · exact Option.map_map ..
    · rfl

theorem binds_settleAll (formals : List Formal) : (l.settleAll formals).Binds n ↔ l.Binds n := by
  induction formals generalizing l with
  | nil => exact Iff.rfl
  | cons p rest ih => exact ih.trans binds_settle

theorem settleAll_of_not_mem {formals : List Formal} (h : ∀ p ∈ formals, p.name ≠ n) :
    (l.settleAll formals).slot? n = l.slot? n := by
  induction formals generalizing l with
  | nil => rfl
  | cons p rest ih =>
    exact (ih fun q hq => h q (List.mem_cons_of_mem p hq)).trans
      (if_neg (h p List.mem_cons_self))

theorem settleAll_last {pre post : List Formal} {p : Formal} {slot : Slot} (hp : p.name = n)
    (hpost : ∀ q ∈ post, q.name ≠ n) (hslot : l.slot? n = some slot) :
    (l.settleAll (pre ++ p :: post)).slot? n = some ⟨slot.ident, .formal p.reassigned⟩ := by
  have hident := settleAll_slot_ident (l := l) pre n
  rw [hslot] at hident
  obtain ⟨slot', hslot', hsame⟩ := Option.map_eq_some_iff.mp hident
  have happend : l.settleAll (pre ++ p :: post) =
      ((l.settleAll pre).settle p.name (.formal p.reassigned)).settleAll post :=
    List.foldl_append
  rw [happend, settleAll_of_not_mem hpost]
  show (if p.name = n then _ else _) = _
  rw [if_pos hp, hslot', ← hsame]
  rfl

end Layer

/-- The last entry of a list with a property. -/
theorem exists_last {α : Type} {p : α → Prop} {xs : List α} (h : ∃ x ∈ xs, p x) :
    ∃ pre x post, xs = pre ++ x :: post ∧ p x ∧ ∀ y ∈ post, ¬ p y := by
  induction xs with
  | nil =>
    obtain ⟨x, hx, -⟩ := h
    cases hx
  | cons a rest ih =>
    by_cases hrest : ∃ x ∈ rest, p x
    · obtain ⟨pre, x, post, rfl, hx, hpost⟩ := ih hrest
      exact ⟨a :: pre, x, post, rfl, hx, hpost⟩
    · obtain ⟨x, hx, hpx⟩ := h
      rcases List.mem_cons.mp hx with rfl | hmem
      · exact ⟨[], x, rest, rfl, hpx, fun y hy hpy => hrest ⟨y, hy, hpy⟩⟩
      · exact absurd ⟨x, hmem, hpx⟩ hrest

/-- A closure that needs no receiver holds nothing and does not call itself. -/
theorem Representation.zeroCapture_iff {r : Representation} :
    r.shape = .zeroCapture ↔ r.recursive = false ∧ r.captures.toList = [] := by
  unfold shape CaptureSet.isEmpty
  cases r.recursive with
  | true => simp
  | false => cases r.captures.toList <;> simp

/-! ## Computations that declare -/

namespace Emit

variable {α β : Type} {w : Settings}

/-- The computation succeeds wherever the innermost frame binds the names in `known`, and all it
does to names is to declare, in that frame, a list that `P` describes. -/
def Introduces (w : Settings) (known : List String) (x : Emit α)
    (P : α → List Introduction → Prop) : Prop :=
  ∀ c, c.scope.Leveled → (∀ n ∈ known, c.scope.BindsWithin 1 n) →
    ∃ a c' is, x w c = (.ok a, c') ∧ P a is ∧ c'.scope.Leveled ∧
      c'.scope.layers = c.scope.layers.modifyHead (·.introduce is) ∧
      c.scope.Confined 1 c'.scope ∧ c'.current = c.current ∧ c'.trace = c.trace

variable {known : List String}

theorem introduces_of_same {x : Emit α} {P : α → List Introduction → Prop}
    (h : ∀ c, (∀ n ∈ known, c.scope.BindsWithin 1 n) →
      ∃ a c', x w c = (.ok a, c') ∧ P a [] ∧ c.scope.SameLayers c'.scope ∧
        c.scope.Confined 1 c'.scope ∧ c'.current = c.current ∧ c'.trace = c.trace) :
    Introduces w known x P := by
  intro c hc hknown
  obtain ⟨a, c', hx, hP, hsame, hconfined, hcurrent, htrace⟩ := h c hknown
  refine ⟨a, c', [], hx, hP, hsame.leveled hc, ?_, hconfined, hcurrent, htrace⟩
  rw [hsame.layers]
  cases c.scope.layers <;> rfl

theorem introduces_pure {P : α → List Introduction → Prop} {a : α} (h : P a []) :
    Introduces w known (pure a) P :=
  introduces_of_same fun c _ => ⟨a, c, rfl, h, .refl _, .refl _ _, rfl, rfl⟩

/-- What the innermost layer binds, its frame does. -/
theorem bindsWithin_of_layers {s : Scope} {l : Layer} {rest : List Layer} {n : String}
    (hlayers : s.layers = l :: rest) (hn : l.Binds n) : s.BindsWithin 1 n := by
  unfold Scope.layers Layer.all at hlayers
  unfold Scope.BindsWithin
  rcases hframes : s.allFrames with _ | ⟨f, fs⟩
  · rw [hframes] at hlayers
    cases hlayers
  · rcases hren : s.renames.frames with _ | ⟨r, rs⟩
    · rw [hframes, hren] at hlayers
      cases hlayers
    · rw [hframes, hren] at hlayers
      obtain ⟨rfl, -⟩ := List.cons.inj hlayers
      unfold Layer.Binds Layer.ofFrame at hn
      rw [Option.isSome_map] at hn
      exact ⟨f, List.mem_singleton.mpr rfl, hn⟩

theorem bindsWithin_of_introduced {s t : Scope} {is : List Introduction} (hs : s.Leveled)
    (hlayers : t.layers = s.layers.modifyHead (·.introduce is)) :
    ∀ i ∈ is, t.BindsWithin 1 i.name := by
  intro i hi
  rcases hold : s.layers with _ | ⟨l, rest⟩
  · have hlength := Scope.length_layers hs
    rw [hold] at hlength
    cases hlength
  · rw [hold] at hlayers
    exact bindsWithin_of_layers hlayers (Layer.binds_introduce.mpr (.inr ⟨i, hi, rfl⟩))

theorem introduces_bind {x : Emit α} {f : α → Emit β} {P : α → List Introduction → Prop}
    {Q : β → List Introduction → Prop} (hx : Introduces w known x P)
    (hf : ∀ a is, P a is →
      Introduces w (known ++ is.map Introduction.name) (f a) fun b js => Q b (is ++ js)) :
    Introduces w known (x >>= f) Q := by
  intro c hc hknown
  obtain ⟨a, c₁, is, hxc, hP, hlevel₁, hlayers₁, hconfined₁, hcurrent₁, htrace₁⟩ := hx c hc hknown
  have hknown₁ : ∀ n ∈ known ++ is.map Introduction.name, c₁.scope.BindsWithin 1 n := by
    intro n hn
    rcases List.mem_append.mp hn with hold | hnew
    · exact hconfined₁.bindsWithin (hknown n hold)
    · obtain ⟨i, hi, rfl⟩ := List.mem_map.mp hnew
      exact bindsWithin_of_introduced hc hlayers₁ i hi
  obtain ⟨b, c₂, js, hfc, hQ, hlevel₂, hlayers₂, hconfined₂, hcurrent₂, htrace₂⟩ :=
    hf a is hP c₁ hlevel₁ hknown₁
  refine ⟨b, c₂, is ++ js, ?_, hQ, hlevel₂, ?_, hconfined₁.trans hconfined₂,
    hcurrent₂.trans hcurrent₁, htrace₂.trans htrace₁⟩
  · rw [bind_apply, hxc]
    exact hfc
  · rw [hlayers₂, hlayers₁]
    cases c.scope.layers with
    | nil => rfl
    | cons l rest => exact congrArg (· :: rest) (Layer.introduce_append is js).symm

/-- The same computation seen with a weaker description. -/
theorem Introduces.imp {x : Emit α} {P Q : α → List Introduction → Prop}
    (hx : Introduces w known x P) (h : ∀ a is, P a is → Q a is) : Introduces w known x Q := by
  intro c hc hknown
  obtain ⟨a, c', is, hxc, hP, hrest⟩ := hx c hc hknown
  exact ⟨a, c', is, hxc, h a is hP, hrest⟩

theorem claimIdent_introduces (base : String) :
    Introduces w known (claimIdent base) fun _ is => is = [] :=
  introduces_of_same fun c _ =>
    ⟨_, _, rfl, rfl, Scope.sameLayers_reserveIdent c.scope _, Scope.confined_reserveIdent c.scope _,
      rfl, rfl⟩

theorem declareAs_introduces (name : String) {ident : String} {b : Binding}
    (hident : b.slot.ident = ident) :
    Introduces w known (declareAs name ident b) fun _ is => is = [⟨name, b.slot⟩] := by
  intro c hc _
  exact ⟨(), _, [⟨name, b.slot⟩], rfl, rfl, Scope.leveled_declareAs hc name ident b,
    Scope.layers_declareAs hc name hident, Scope.confined_declareAs hc name ident b, rfl, rfl⟩

/-- One after the other; `f` says what each computation declares. -/
theorem sequence_introduces {xs : List β} {x : β → Emit α} {f : β → Introduction}
    (h : ∀ b ∈ xs, ∀ known, Introduces w known (x b) fun _ is => is = [f b]) :
    Introduces w known (sequence (xs.map x)) fun _ is => is = xs.map f := by
  induction xs generalizing known with
  | nil => exact introduces_pure rfl
  | cons b rest ih =>
    refine introduces_bind (h b List.mem_cons_self known) fun _ is his => ?_
    refine introduces_bind (ih fun b' hb' => h b' (List.mem_cons_of_mem b hb')) fun _ js hjs => ?_
    refine introduces_pure ?_
    rw [his, hjs, List.append_nil]
    rfl

/-! ## The frame of a closure -/

theorem claimReceivers_introduces (shape : Shape) :
    Introduces w known (claimReceivers shape) fun r is => is = [] ∧
      (shape = .zeroCapture ∨ (r.1.or r.2).isSome) ∧
      (shape = .recursiveSelfCapture → r.2.isSome) := by
  cases shape with
  | zeroCapture => exact introduces_pure ⟨rfl, .inl rfl, by simp⟩
  | structCapture =>
    refine introduces_bind (claimIdent_introduces "env") fun env is his => ?_
    refine introduces_bind (claimIdent_introduces "self") fun self js hjs => ?_
    exact introduces_pure ⟨by rw [his, hjs]; rfl, .inr rfl, by simp⟩
  | recursiveSelfCapture =>
    refine introduces_bind (claimIdent_introduces "self") fun self is his => ?_
    exact introduces_pure ⟨by rw [his]; rfl, .inr rfl, fun _ => rfl⟩

theorem declareFormal_introduces (u : Usage) (name : String) (ty : Ty) :
    Introduces w known (declareFormal u name ty) fun p is =>
      p.name = name ∧ is = [p.introduction] := by
  refine introduces_bind (claimIdent_introduces name) fun ident is his => ?_
  refine introduces_bind (declareAs_introduces name rfl) fun _ js hjs => ?_
  exact introduces_pure ⟨rfl, by rw [his, hjs]; rfl⟩

theorem declareFormals_introduces (f : Function) {types : List Ty} (u : Usage)
    (htypes : types.length = f.formals.length) :
    Introduces w known (declareFormals f types u) fun formals is =>
      formals.map Formal.name = f.formals ∧ is = formals.map Formal.introduction := by
  unfold declareFormals
  generalize f.formals = names at htypes ⊢
  induction names generalizing types known with
  | nil => exact introduces_pure ⟨rfl, rfl⟩
  | cons name rest ih =>
    match types, htypes with
    | ty :: tys, htypes =>
      refine introduces_bind (declareFormal_introduces u name ty) fun p is hp => ?_
      refine introduces_bind (ih (Nat.succ.inj htypes)) fun ps js hps => ?_
      obtain ⟨hname, his⟩ := hp
      obtain ⟨hnames, hjs⟩ := hps
      refine introduces_pure ⟨?_, ?_⟩
      · rw [List.map_cons, hname, hnames]
      · rw [his, hjs, List.append_nil]
        rfl

/-- The names that a closure's frame has besides the formals. -/
def Draft.around (d : Draft) (receiver handle : String) : List Introduction :=
  d.representation.captures.toList.map (Capture.introduction receiver) ++
    if d.representation.recursive then [⟨d.function.name, handle, .receiver⟩] else []

theorem declareCaptures_introduces (d : Draft) {receiver : Option String}
    (h : d.representation.shape = .zeroCapture ∨ receiver.isSome) :
    Introduces w known (declareCaptures d receiver) fun _ is =>
      ∃ r, is = d.representation.captures.toList.map (Capture.introduction r) := by
  cases receiver with
  | none =>
    have hnone := (Representation.zeroCapture_iff.mp (h.resolve_right (by simp))).2
    exact introduces_pure ⟨"", by rw [hnone]; rfl⟩
  | some r =>
    have hsequence : Introduces w known
        (sequence (d.representation.captures.toList.map (declareCapture r))) fun _ is =>
          is = d.representation.captures.toList.map (Capture.introduction r) :=
      sequence_introduces fun c _ _ => declareAs_introduces c.name rfl
    refine introduces_bind hsequence fun _ is his => introduces_pure ⟨r, ?_⟩
    rw [his, List.append_nil]

theorem declareHandle_introduces (d : Draft) (assumed : Option Bool) {selfParam : Option String}
    (h : d.representation.shape = .recursiveSelfCapture → selfParam.isSome) :
    Introduces w known (declareHandle d assumed selfParam) fun _ is =>
      ∃ handle, is =
        if d.representation.recursive then [⟨d.function.name, handle, .receiver⟩] else [] := by
  unfold declareHandle
  cases hrec : d.representation.recursive with
  | false => exact introduces_pure ⟨"", rfl⟩
  | true =>
    have hsome : selfParam.isSome := h (by rw [Representation.shape, hrec]; rfl)
    obtain ⟨handle, rfl⟩ := Option.isSome_iff_exists.mp hsome
    exact (declareAs_introduces d.function.name rfl).imp fun _ is his => ⟨handle, his⟩

theorem enterClosure_introduces (d : Draft) (assumed : Option Bool)
    (htypes : d.paramTypes.length = d.function.formals.length) :
    Introduces w known (enterClosure d assumed) fun e is =>
      e.formals.map Formal.name = d.function.formals ∧
        ∃ receiver handle, is = d.around receiver handle ++ e.formals.map Formal.introduction := by
  refine introduces_bind (claimReceivers_introduces _) fun r is hr => ?_
  obtain ⟨rfl, hreceiver, hself⟩ := hr
  refine introduces_bind (declareCaptures_introduces d hreceiver) fun _ is his => ?_
  obtain ⟨receiver, rfl⟩ := his
  refine introduces_bind (declareHandle_introduces d assumed hself) fun _ is his => ?_
  obtain ⟨handle, rfl⟩ := his
  refine introduces_bind (declareFormals_introduces d.function d.usage htypes)
    fun formals js hjs => ?_
  obtain ⟨hnames, rfl⟩ := hjs
  refine introduces_of_same fun c hknown => ?_
  dsimp only [bind_apply, scope, oracle, options]
  split
  · rename_i hrec
    refine ⟨_, _, rfl, ⟨hnames, receiver, handle, ?_⟩,
      Scope.sameLayers_modifyBinding (fun _ => by rfl) c.scope _,
      Scope.confined_modifyBinding _ (hknown _ ?_), rfl, rfl⟩
    · simp [Draft.around, hrec]
    · simp [hrec]
  · rename_i hrec
    refine ⟨_, _, rfl, ⟨hnames, receiver, handle, ?_⟩, .refl _, .refl _ _, rfl, rfl⟩
    simp [Draft.around, hrec]

/-! ## Planning -/

theorem settleFormal_layers {s : Scope} {l : Layer} {rest : List Layer} {p : Formal}
    (hlevel : s.Leveled) (hlayers : s.layers = l :: rest) (hbinds : l.Binds p.name) :
    (settleFormal s p).layers = l.settle p.name (.formal p.reassigned) :: rest ∧
      (settleFormal s p).Leveled ∧ s.Confined 1 (settleFormal s p) := by
  obtain ⟨hsettled, hlevel'⟩ : (settleFormal s p).layers =
      l.settle p.name (.formal p.reassigned) :: rest ∧ (settleFormal s p).Leveled :=
    Scope.layers_modifyBinding_head (fun _ => by rfl) hlevel hlayers hbinds
  exact ⟨hsettled, hlevel', Scope.confined_modifyBinding _ (bindsWithin_of_layers hlayers hbinds)⟩

theorem settleFormals_layers {s : Scope} {l : Layer} {rest : List Layer} (formals : List Formal)
    (hlevel : s.Leveled) (hlayers : s.layers = l :: rest)
    (hbinds : ∀ p ∈ formals, l.Binds p.name) :
    (formals.foldl settleFormal s).layers = l.settleAll formals :: rest ∧
      (formals.foldl settleFormal s).Leveled ∧ s.Confined 1 (formals.foldl settleFormal s) := by
  induction formals generalizing s l with
  | nil => exact ⟨hlayers, hlevel, .refl _ _⟩
  | cons p ps ih =>
    obtain ⟨hhead, hlevel', hconfined⟩ :=
      settleFormal_layers hlevel hlayers (hbinds p List.mem_cons_self)
    obtain ⟨hrest, hlevel'', hconfined'⟩ := ih hlevel' hhead fun q hq =>
      Layer.binds_settle.mpr (hbinds q (List.mem_cons_of_mem p hq))
    exact ⟨hrest, hlevel'', hconfined.trans hconfined'⟩

/-- Planning a body settles which formals are copied, and leaves everything else. -/
theorem planFunction_settles (f : Function) (qualname : String) (formals : List Formal) (u : Usage)
    {c : Context} {l : Layer} {rest : List Layer} (hlevel : c.scope.Leveled)
    (hlayers : c.scope.layers = l :: rest) (hbinds : ∀ p ∈ formals, l.Binds p.name) :
    let plan := (planBody f.body c.scope w.oracle).plan
    ∃ c', planFunction f qualname formals u w c =
        (.ok ({ qualname, span := f.span, plan, usage := some u }, formals.map (·.planned plan)),
          c') ∧
      c'.scope.Leveled ∧ c'.scope.layers = l.settleAll (formals.map (·.planned plan)) :: rest ∧
      c.scope.Confined 1 c'.scope ∧ c'.current = c.current ∧ c'.trace = c.trace := by
  intro plan
  have hplanned : ∀ p ∈ formals.map (·.planned plan), l.Binds p.name := by
    intro p hp
    obtain ⟨q, hq, rfl⟩ := List.mem_map.mp hp
    exact hbinds q hq
  obtain ⟨hsettled, hlevel', hconfined⟩ := settleFormals_layers _ hlevel hlayers hplanned
  exact ⟨_, rfl, hlevel', hsettled, hconfined, rfl, rfl⟩

/-! ## Where a body starts -/

/-- The layer in which a body starts, with the names declared before the formals. -/
def startLayer (kind : FrameKind) (around : List Introduction) (formals : List Formal)
    (plan : BodyPlan) : Layer :=
  ((Layer.new kind).introduce (around ++ formals.map Formal.introduction)).settleAll
    (formals.map (·.planned plan))

theorem startLayer_kind (kind : FrameKind) (around : List Introduction) (formals : List Formal)
    (plan : BodyPlan) : (startLayer kind around formals plan).kind = kind := by
  rw [startLayer, Layer.settleAll_kind, Layer.introduce_kind]
  rfl

theorem startLayer_isFunction {kind : FrameKind} (hkind : (Layer.new kind).isFunction)
    (around : List Introduction) (formals : List Formal) (plan : BodyPlan) :
    (startLayer kind around formals plan).isFunction = true :=
  (Layer.isFunction_of_kind (startLayer_kind kind around formals plan)).trans hkind

/-- A body starts with the names declared before the formals, and with the formals. -/
theorem binds_startLayer {kind : FrameKind} {around : List Introduction} {formals : List Formal}
    {plan : BodyPlan} {n : String} :
    (startLayer kind around formals plan).Binds n ↔
      (∃ i ∈ around, i.name = n) ∨ n ∈ formals.map Formal.name := by
  have hnew : ¬ (Layer.new kind).Binds n := Bool.false_ne_true
  rw [startLayer, Layer.binds_settleAll, Layer.binds_introduce, or_iff_right hnew]
  constructor
  · rintro ⟨i, hi, hname⟩
    rcases List.mem_append.mp hi with haround | hformal
    · exact .inl ⟨i, haround, hname⟩
    · obtain ⟨p, hp, rfl⟩ := List.mem_map.mp hformal
      exact .inr (List.mem_map.mpr ⟨p, hp, hname⟩)
  · rintro (⟨i, hi, hname⟩ | hformal)
    · exact ⟨i, List.mem_append_left _ hi, hname⟩
    · obtain ⟨p, hp, hname⟩ := List.mem_map.mp hformal
      exact ⟨p.introduction, List.mem_append_right _ (List.mem_map_of_mem hp), hname⟩

/-- `c'` is where the body of a function starts that is written in the scope of `c`. -/
structure Starts (kind : FrameKind) (u : Usage) (around : List Introduction)
    (names : List String) (c c' : Context) : Prop where
  leveled : c'.scope.Leveled
  trace : c'.trace = c.trace
  usage : c'.current.usage = some u
  layers : ∃ formals : List Formal, formals.map Formal.name = names ∧
    c'.scope.layers = startLayer kind around formals c'.current.plan :: c.scope.layers
  confined : (c.scope.push kind).Confined 1 c'.scope

/-- A body that starts has one layer of its own. -/
theorem Starts.inner {kind : FrameKind} {u : Usage} {around : List Introduction}
    {names : List String} {c c' : Context} (h : Starts kind u around names c c')
    (hkind : (Layer.new kind).isFunction) :
    ∃ formals : List Formal, formals.map Formal.name = names ∧
      Layer.inner c'.scope.layers = [startLayer kind around formals c'.current.plan] := by
  obtain ⟨formals, hnames, hlayers⟩ := h.layers
  refine ⟨formals, hnames, ?_⟩
  rw [hlayers, Layer.inner, if_pos (startLayer_isFunction hkind ..)]

/-- Around a body that starts is what was there before. -/
theorem Starts.outer {kind : FrameKind} {u : Usage} {around : List Introduction}
    {names : List String} {c c' : Context} (h : Starts kind u around names c c')
    (hkind : (Layer.new kind).isFunction) : Layer.outer c'.scope.layers = c.scope.layers := by
  obtain ⟨formals, -, hlayers⟩ := h.layers
  rw [hlayers, Layer.outer, if_pos (startLayer_isFunction hkind ..)]

/-- Planning brings a function to the start of its body. -/
theorem starts_of_planFunction (f : Function) (qualname : String) (u : Usage) {kind : FrameKind}
    {formals : List Formal} {around : List Introduction} {c c₁ : Context}
    (hlevel : c₁.scope.Leveled) (htrace : c₁.trace = c.trace)
    (hlayers : c₁.scope.layers = (Layer.new kind).introduce
      (around ++ formals.map Formal.introduction) :: c.scope.layers)
    (hconfined : (c.scope.push kind).Confined 1 c₁.scope) :
    ∃ state formals' c₂, planFunction f qualname formals u w c₁ = (.ok (state, formals'), c₂) ∧
      c₂.current = c₁.current ∧ state.qualname = qualname ∧
      Starts kind u around (formals.map Formal.name) c { c₂ with current := state } := by
  obtain ⟨c₂, hplan, hlevel₂, hlayers₂, hconfined₂, hcurrent₂, htrace₂⟩ :=
    planFunction_settles f qualname formals u hlevel hlayers fun p => Layer.binds_of_formal
  exact ⟨_, _, c₂, hplan, hcurrent₂, rfl,
    ⟨hlevel₂, htrace₂.trans htrace, rfl, ⟨formals, rfl, hlayers₂⟩, hconfined.trans hconfined₂⟩⟩

end Emit

end ClosureConversion
