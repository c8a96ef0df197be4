import ClosureConversion.Proofs.Conversion.Rounds

/-! # Fallibility between functions -/

set_option autoImplicit false

namespace ClosureConversion

/-! ## Computations that never fail -/

namespace Emit

variable {α β : Type} {w : Settings}

/-- The computation succeeds in every context, with a result that satisfies `P`. -/
def Yields (w : Settings) (x : Emit α) (P : α → Prop) : Prop :=
  ∀ c, ∃ a c', x w c = (.ok a, c') ∧ P a

theorem yields_pure {P : α → Prop} {a : α} (h : P a) : Yields w (pure a) P :=
  fun c => ⟨a, c, rfl, h⟩

theorem yields_bind {x : Emit α} {f : α → Emit β} {P : α → Prop} {Q : β → Prop}
    (hx : Yields w x P) (hf : ∀ a, P a → Yields w (f a) Q) : Yields w (x >>= f) Q := by
  intro c
  obtain ⟨a, c₁, hxc, ha⟩ := hx c
  obtain ⟨b, c₂, hfc, hb⟩ := hf a ha c₁
  exact ⟨b, c₂, by rw [bind_apply, hxc]; exact hfc, hb⟩

/-- One after the other: every computation has its result, and every result its computation. -/
theorem yields_sequence {xs : List β} {f : β → Emit α} {P : β → α → Prop}
    (h : ∀ x ∈ xs, Yields w (f x) (P x)) :
    Yields w (sequence (xs.map f)) fun as =>
      (∀ x ∈ xs, ∃ a ∈ as, P x a) ∧ ∀ a ∈ as, ∃ x ∈ xs, P x a := by
  induction xs with
  | nil => exact yields_pure ⟨by simp, by simp⟩
  | cons x xs ih =>
    refine yields_bind (h x List.mem_cons_self) fun a ha => ?_
    refine yields_bind (ih fun y hy => h y (List.mem_cons_of_mem x hy)) fun as has => ?_
    refine yields_pure ⟨?_, ?_⟩
    · rw [List.forall_mem_cons]
      refine ⟨⟨a, List.mem_cons_self, ha⟩, fun y hy => ?_⟩
      obtain ⟨b, hb, hyb⟩ := has.1 y hy
      exact ⟨b, List.mem_cons_of_mem a hb, hyb⟩
    · rw [List.forall_mem_cons]
      refine ⟨⟨x, List.mem_cons_self, ha⟩, fun b hb => ?_⟩
      obtain ⟨y, hy, hyb⟩ := has.2 b hb
      exact ⟨y, List.mem_cons_of_mem x hy, hyb⟩

theorem paramType_yields (f : Function) (qualname : String) (p : Param) :
    Yields w (paramType f qualname p) fun _ => True := by
  intro c
  unfold paramType
  dsimp only [bind_apply, oracle, scope]
  split <;> (split <;> exact ⟨_, _, rfl, trivial⟩)

theorem formalTypes_yields (f : Function) (qualname : String) :
    Yields w (formalTypes f qualname) fun _ => True :=
  yields_bind (yields_sequence fun p _ => paramType_yields f qualname p) fun _ _ =>
    yields_pure trivial

/-- A first signature is filed under the function's name and fails if the oracle says so. -/
theorem initialSignature_yields (f : Function) :
    Yields w (initialSignature f) fun e =>
      e.1 = f.name ∧ e.2.fallible = w.oracle.isFallible f.name := by
  refine yields_bind (formalTypes_yields f f.name) fun params _ c => ?_
  exact ⟨_, c, rfl, rfl, rfl⟩

end Emit

/-! ## Signatures round by round -/

section Signatures

variable {m : Module} {w : Settings} {name : String} {s : Signature}

/-- What every first signature satisfies can be read off the entries of the first round. -/
theorem initialSignatures_of_yields {P : Function → String × Signature → Prop}
    (h : ∀ f ∈ m.functions, Emit.Yields w (Emit.initialSignature f) (P f)) :
    ∃ entries, (m.round w 0).signatures = NameMap.ofList entries ∧
      (∀ f ∈ m.functions, ∃ e ∈ entries, P f e) ∧ ∀ e ∈ entries, ∃ f ∈ m.functions, P f e := by
  obtain ⟨entries, c, hrun, hentries⟩ :=
    Emit.yields_sequence h { scope := {}, journal := [] }
  refine ⟨entries, ?_, hentries⟩
  show (initialSignatures m w []).1 = NameMap.ofList entries
  rw [initialSignatures, hrun]

theorem initialSignatures_eq :
    ∃ entries, (m.round w 0).signatures = NameMap.ofList entries ∧
      (∀ f ∈ m.functions, ∃ e ∈ entries,
        e.1 = f.name ∧ e.2.fallible = w.oracle.isFallible f.name) ∧
      ∀ e ∈ entries, ∃ f ∈ m.functions,
        e.1 = f.name ∧ e.2.fallible = w.oracle.isFallible f.name :=
  initialSignatures_of_yields fun f _ => Emit.initialSignature_yields f

theorem initialSignatures_fallible (h : (m.round w 0).signatures.get? name = some s) :
    s.fallible = w.oracle.isFallible name := by
  obtain ⟨entries, heq, -, hentries⟩ := initialSignatures_eq (m := m) (w := w)
  rw [heq] at h
  obtain ⟨f, -, hkey, hflag⟩ := hentries _ (NameMap.mem_of_get?_ofList h)
  exact hflag.trans (congrArg _ hkey.symm)

theorem initialSignatures_isSome {f : Function} (hf : f ∈ m.functions) :
    ((m.round w 0).signatures.get? f.name).isSome := by
  obtain ⟨entries, heq, hentries, -⟩ := initialSignatures_eq (m := m) (w := w)
  obtain ⟨e, he, hkey, -⟩ := hentries f hf
  rw [heq, ← NameMap.mem_keys_iff, NameMap.ofList, NameMap.mem_keys_foldl_insert]
  exact .inr ⟨e, he, hkey.symm⟩

/-- One pass raises the flags of the functions it wrote as failing, and no others. -/
theorem get?_refineSignatures (name : String) (sigs : Signatures)
    (functions : List ConvertedFunction) :
    ((refineSignatures sigs functions).get? name).map Signature.fallible =
      (sigs.get? name).map fun s =>
        s.fallible || functions.any fun g => g.name == name && g.fallible := by
  unfold refineSignatures
  induction functions generalizing sigs with
  | nil => simp
  | cons g rest ih =>
    rw [List.foldl_cons, ih, NameMap.get?_modify]
    by_cases hname : g.name = name
    · simp [hname, refineSignature, Function.comp_def, Bool.or_assoc]
    · have hkey : (g.name == name) = false := by simpa using hname
      simp [hname, hkey]

theorem keys_refineSignatures (sigs : Signatures) (functions : List ConvertedFunction) :
    (refineSignatures sigs functions).keys = sigs.keys := by
  unfold refineSignatures
  induction functions generalizing sigs with
  | nil => rfl
  | cons g rest ih => rw [List.foldl_cons, ih, NameMap.keys_modify]

theorem keys_round (n : Nat) : (m.round w n).signatures.keys = (m.round w 0).signatures.keys := by
  induction n with
  | zero => rfl
  | succ n ih => exact (keys_refineSignatures _ _).trans ih

/-- Every round has a signature of every function. -/
theorem isSome_get?_round (n : Nat) {f : Function} (hf : f ∈ m.functions) :
    ((m.round w n).signatures.get? f.name).isSome := by
  rw [← NameMap.mem_keys_iff, keys_round, NameMap.mem_keys_iff]
  exact initialSignatures_isSome hf

theorem nodup_keys_round (n : Nat) : (m.round w n).signatures.keys.Nodup := by
  obtain ⟨entries, heq, -⟩ := initialSignatures_eq (m := m) (w := w)
  rw [keys_round, heq]
  exact NameMap.nodup_keys_ofList entries

end Signatures

/-- The oracle declares the function failing, or one of the first `n` rounds wrote it so. -/
def Module.raisedBefore (m : Module) (w : Settings) (n : Nat) (name : String) : Prop :=
  w.oracle.isFallible name = true ∨
    ∃ i < n, ∃ g ∈ ((m.round w i).pass m w).functions, g.name = name ∧ g.fallible = true

theorem Module.raisedBefore_succ {m : Module} {w : Settings} {n : Nat} {name : String} :
    m.raisedBefore w (n + 1) name ↔ m.raisedBefore w n name ∨
      ∃ g ∈ ((m.round w n).pass m w).functions, g.name = name ∧ g.fallible = true := by
  constructor
  · rintro (horacle | ⟨i, hi, hg⟩)
    · exact .inl (.inl horacle)
    · rcases Nat.lt_succ_iff_lt_or_eq.mp hi with hlt | rfl
      · exact .inl (.inr ⟨i, hlt, hg⟩)
      · exact .inr hg
  · rintro ((horacle | ⟨i, hi, hg⟩) | hg)
    · exact .inl horacle
    · exact .inr ⟨i, Nat.lt_succ_of_lt hi, hg⟩
    · exact .inr ⟨n, Nat.lt_succ_self n, hg⟩

/-- **The flag of a signature** is raised by the oracle or by a round before, for good. -/
theorem signature_fallible_iff {m : Module} {w : Settings} {name : String} (n : Nat)
    {s : Signature} (h : (m.round w n).signatures.get? name = some s) :
    s.fallible = true ↔ m.raisedBefore w n name := by
  induction n generalizing s with
  | zero =>
    rw [initialSignatures_fallible h]
    exact ⟨.inl, fun hr => hr.elim id fun ⟨i, hi, _⟩ => absurd hi (Nat.not_lt_zero i)⟩
  | succ n ih =>
    have hrefined := get?_refineSignatures name (m.round w n).signatures
      ((m.round w n).pass m w).functions
    rw [show refineSignatures _ _ = (m.round w (n + 1)).signatures from rfl, h] at hrefined
    obtain ⟨old, hold, hflag⟩ := Option.map_eq_some_iff.mp hrefined.symm
    rw [Module.raisedBefore_succ, ← ih hold, ← hflag]
    simp

/-! ## The scope that functions are converted in -/

section ModuleScope

variable (m : Module) (sigs : Signatures) (claimed : List String) (s : Scope)

theorem foldl_declareGlobal_base {ι : Type} (items : List ι) (name : ι → String) (ty : ι → Ty) :
    (items.foldl (fun s i => s.declareGlobal (name i) (ty i)) s).base.bindings =
      items.foldl (fun b i => b.insert (name i) (.ofGlobal (name i) (ty i)))
        s.base.bindings := by
  induction items generalizing s with
  | nil => rfl
  | cons i rest ih => exact ih _

theorem foldl_declareGlobal_frames {ι : Type} (items : List ι) (name : ι → String)
    (ty : ι → Ty) :
    (items.foldl (fun s i => s.declareGlobal (name i) (ty i)) s).frames = s.frames := by
  induction items generalizing s with
  | nil => rfl
  | cons i rest ih => exact ih _

theorem foldl_reserveModuleIdent :
    (claimed.foldl Scope.reserveModuleIdent s).frames = s.frames ∧
      (claimed.foldl Scope.reserveModuleIdent s).base.bindings = s.base.bindings := by
  induction claimed generalizing s with
  | nil => exact ⟨rfl, rfl⟩
  | cons ident rest ih => exact ih _

variable {sigs}

/-- A function of the module is visible to all of them under its signature, also where a
variable of the module has its name. -/
theorem lookup_moduleScope (hnodup : sigs.keys.Nodup) {name : String} {sig : Signature}
    (h : sigs.get? name = some sig) :
    (moduleScope m sigs claimed).lookup name = some (.ofGlobal name (.function sig)) := by
  unfold moduleScope
  dsimp only
  obtain ⟨hframes, hbase⟩ := foldl_reserveModuleIdent claimed
    (sigs.entries.foldl (fun s e => s.declareGlobal e.1 (.function e.2))
      (m.globals.foldl (fun s g => s.declareGlobal g.name g.ty) {}))
  rw [foldl_declareGlobal_frames, foldl_declareGlobal_frames] at hframes
  rw [foldl_declareGlobal_base] at hbase
  rw [Scope.lookup, Scope.allFrames, hframes]
  simp only [List.nil_append, List.findSome?_singleton, Frame.get?, hbase]
  rw [NameMap.get?_foldl_insert_entries (fun name sig => Binding.ofGlobal name (.function sig))
    hnodup, h]
  rfl

end ModuleScope

/-! ## Callers and callees -/

/-- **Agreement of callers and callees.** A converted function was visible in the last round
under a signature whose flag is its own exactly when the function fails precisely if the oracle
or an earlier round said so. Once the signatures have settled, a function that fails is called
as one that does; a disagreement is then a function that was once declared failing and is
written without a failure. -/
theorem convert_fallible_agrees_iff (m : Module) (oracle : Oracle) (options : Options)
    {f : ConvertedFunction} (hf : f ∈ (convert m oracle options).functions) :
    let w : Settings := { oracle, options }
    let last := m.round w (m.lastRound w)
    f ∈ (last.pass m w).functions ∧
      ∃ sig : Signature,
        (∀ claimed, (moduleScope m last.signatures claimed).lookup f.name =
          some (.ofGlobal f.name (.function sig))) ∧
        (sig.fallible = f.fallible ↔
          (f.fallible = true ↔ m.raisedBefore w (m.lastRound w) f.name)) ∧
        (last.Settled m w → f.fallible = true → sig.fallible = true) := by
  intro w last
  have hpass : f ∈ (last.pass m w).functions := by
    rw [convert, convertWithJournal_eq] at hf
    exact hf
  obtain ⟨source, hsource, hname⟩ := name_mem_of_mem_pass hpass
  have hsome : (last.signatures.get? f.name).isSome := by
    rw [hname, ← NameMap.mem_keys_iff, keys_round, NameMap.mem_keys_iff]
    exact initialSignatures_isSome hsource
  obtain ⟨sig, hsig⟩ := Option.isSome_iff_exists.mp hsome
  refine ⟨hpass, sig, fun claimed => ?_, ?_, fun hsettled hfails => ?_⟩
  · exact lookup_moduleScope m claimed (nodup_keys_round _) hsig
  · rw [← signature_fallible_iff _ hsig, Bool.eq_iff_iff]
    exact iff_comm
  · have hrefined := get?_refineSignatures f.name last.signatures
      (last.pass m w).functions
    rw [show refineSignatures _ _ = last.signatures from hsettled, hsig] at hrefined
    have hor : sig.fallible = (sig.fallible ||
        (last.pass m w).functions.any fun g => g.name == f.name && g.fallible) := by
      simpa using hrefined
    rw [hor, Bool.or_eq_true]
    exact .inr (List.any_eq_true.mpr ⟨f, hpass, by simp [hfails]⟩)

/-- A function with nothing in it. -/
def idleModule : Module :=
  { name := "idle", functions := [{ name := "f", body := [], declaredResult := some .none }] }

/-- An oracle that knows no types and expects everything to fail. -/
def alarmedOracle : Oracle where
  returnType _ := none
  exprType _ _ := .unknown
  paramType _ _ := none
  isFallible _ := true

/-- Nothing in the body of `f` fails, so callers would take an error that `f` never gives. -/
theorem convert_fallible_disagrees :
    ∃ f ∈ (convert idleModule alarmedOracle {}).functions, ∃ sig : Signature,
      (∀ claimed,
        (moduleScope idleModule (idleModule.round ⟨alarmedOracle, {}⟩
          (idleModule.lastRound ⟨alarmedOracle, {}⟩)).signatures claimed).lookup f.name =
          some (.ofGlobal f.name (.function sig))) ∧
      f.fallible = false ∧ sig.fallible = true := by
  have hconverted : ∃ f ∈ (convert idleModule alarmedOracle {}).functions, f.fallible = false := by
    decide +kernel
  obtain ⟨f, hf, hidle⟩ := hconverted
  obtain ⟨-, sig, hlookup, hagree, -⟩ := convert_fallible_agrees_iff idleModule alarmedOracle {} hf
  refine ⟨f, hf, sig, hlookup, hidle, ?_⟩
  cases hsig : sig.fallible with
  | true => rfl
  | false =>
    have hfails : f.fallible = true := (hagree.mp (hsig.trans hidle.symm)).mpr (.inl rfl)
    exact absurd (hidle.symm.trans hfails) (by decide)

end ClosureConversion
