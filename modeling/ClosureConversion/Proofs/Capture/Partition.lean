import ClosureConversion.Proofs.Capture.Resolution

/-! # What becomes of every outer name -/

set_option autoImplicit false

namespace ClosureConversion

/-! ## Candidates -/

theorem foldl_pushNew_eq (names acc : List String) :
    names.foldl pushNew acc = acc ++ (names.filter (· ∉ acc)).eraseDups := by
  induction names generalizing acc with
  | nil => simp
  | cons n rest ih =>
    rw [List.foldl_cons, ih, pushNew]
    by_cases hn : n ∈ acc
    · simp [hn]
    · have hrest : rest.filter (· ∉ acc ++ [n]) = (rest.filter (· ∉ acc)).filter (!· == n) := by
        rw [List.filter_filter]
        refine List.filter_congr fun m _ => ?_
        by_cases hm : m = n <;> simp [hm]
      rw [if_neg hn, hrest, List.filter_cons_of_pos (by simpa using hn), List.eraseDups_cons,
        List.append_assoc]
      rfl

/-- The candidates are the mentions, each where it occurs first. -/
theorem Usage.candidates_eq (u : Usage) :
    u.candidates = (u.reads ++ u.nonlocals ++ u.nestedWrites).eraseDups := by
  rw [candidates, foldl_pushNew_eq, List.nil_append, List.filter_eq_self.mpr]
  exact fun n _ => decide_eq_true List.not_mem_nil

theorem Usage.nodup_candidates (u : Usage) : u.candidates.Nodup := by
  have hfold : ∀ (names acc : List String), acc.Nodup → (names.foldl pushNew acc).Nodup := by
    intro names
    induction names with
    | nil => exact fun acc hacc => hacc
    | cons n rest ih => exact fun acc hacc => ih _ (nodup_pushNew hacc)
  exact hfold _ _ List.nodup_nil

/-- A formal, or the name by which a recursive function calls itself. -/
def Function.isReserved (f : Function) (n : String) : Bool :=
  f.hasFormal n || ((Usage.ofFunction f).selfRecursive && n == f.name)

/-- The names from around a function that its body mentions: those it reads, those it declares
nonlocal and those that nested functions write, each once and in this order. -/
def Function.outerNames (f : Function) : List String :=
  let u := Usage.ofFunction f
  (u.reads ++ u.nonlocals ++ u.nestedWrites).eraseDups.filter (!f.isReserved ·)

/-! ## The classes -/

/-- The type that a scope knows for a name. -/
def Scope.typeAt (s : Scope) (n : String) : Ty := ((s.lookup n).map Binding.ty).getD .unknown

/-- A name that the body neither declares global nor binds, and that a function around it binds or
is about to bind as a formal. -/
structure Function.Captures (f : Function) (s : Scope) (n : String) : Prop where
  global : (Usage.ofFunction f).isGlobal n = false
  assigned : (Usage.ofFunction f).isAssigned n = false
  bound : s.BoundInFrames n ∨ s.lookup n = none ∧ s.isEnclosingFormal n = true

/-- Of the names that are not captured, those that the body declares global, and those that it
does not bind and that are bound by the module or nowhere. -/
structure Function.Defers (f : Function) (s : Scope) (n : String) : Prop where
  uncaptured : ¬ f.Captures s n
  left : (Usage.ofFunction f).isGlobal n = true ∨
    (Usage.ofFunction f).isAssigned n = false ∧ ¬ s.BoundInFrames n

/-- A name that is to be captured and that no field of an environment can hold. -/
structure Function.Blocks (f : Function) (s : Scope) (n : String) : Prop where
  captured : f.Captures s n
  unrepresentable : (s.typeAt n).isRepresentable = false

instance (s : Scope) (n : String) : Decidable (s.BoundInFrames n) :=
  inferInstanceAs (Decidable (∃ f ∈ s.frames, (f.get? n).isSome))

instance (f : Function) (s : Scope) (n : String) : Decidable (f.Captures s n) :=
  decidable_of_iff ((Usage.ofFunction f).isGlobal n = false ∧
      (Usage.ofFunction f).isAssigned n = false ∧
      (s.BoundInFrames n ∨ s.lookup n = none ∧ s.isEnclosingFormal n = true))
    ⟨fun ⟨hglobal, hassigned, hbound⟩ => ⟨hglobal, hassigned, hbound⟩,
      fun h => ⟨h.global, h.assigned, h.bound⟩⟩

instance (f : Function) (s : Scope) (n : String) : Decidable (f.Defers s n) :=
  decidable_of_iff (¬ f.Captures s n ∧ ((Usage.ofFunction f).isGlobal n = true ∨
      (Usage.ofFunction f).isAssigned n = false ∧ ¬ s.BoundInFrames n))
    ⟨fun ⟨huncaptured, hleft⟩ => ⟨huncaptured, hleft⟩, fun h => ⟨h.uncaptured, h.left⟩⟩

instance (f : Function) (s : Scope) (n : String) : Decidable (f.Blocks s n) :=
  decidable_of_iff (f.Captures s n ∧ (s.typeAt n).isRepresentable = false)
    ⟨fun ⟨hcaptured, hty⟩ => ⟨hcaptured, hty⟩, fun h => ⟨h.captured, h.unrepresentable⟩⟩

/-- A capture holds the variable that its name stands for: by reference if the body writes the
variable through or the variable can be stored to, else as a loan of what is shared, else as a
copy. -/
structure Capture.Holds (f : Function) (s : Scope) (c : Capture) : Prop where
  ty : c.ty = s.typeAt c.name
  kind : c.kind = ((s.lookup c.name).map Binding.kind).getD .param
  source : c.source = s.ident c.name
  byReference : c.mode = .byReference ↔
    (Usage.ofFunction f).writesThrough c.name = true ∨
      ∃ b, s.lookup c.name = some b ∧ b.isMutable = true
  borrowed : c.mode = .borrowed ↔
    c.mode ≠ .byReference ∧ ∃ b, s.lookup c.name = some b ∧
      (b.ty.isReference = true ∨ b.aliasOf.isSome = true ∨ b.kind = .selfHandle)

theorem Binding.captureMode_eq_byReference {b : Binding} {writesThrough : Bool} :
    b.captureMode writesThrough = .byReference ↔ writesThrough = true ∨ b.isMutable = true := by
  rw [captureMode, ← Bool.or_eq_true]
  cases writesThrough || b.isMutable with
  | true => simp
  | false =>
    rw [if_neg Bool.false_ne_true]
    split <;> simp

theorem Binding.captureMode_eq_borrowed {b : Binding} {writesThrough : Bool} :
    b.captureMode writesThrough = .borrowed ↔
      ¬ (writesThrough = true ∨ b.isMutable = true) ∧
        (b.ty.isReference = true ∨ b.aliasOf.isSome = true ∨ b.kind = .selfHandle) := by
  rw [captureMode, ← Bool.or_eq_true]
  cases writesThrough || b.isMutable with
  | true => simp
  | false =>
    rw [if_neg Bool.false_ne_true, ← or_assoc, ← Bool.or_eq_true,
      ← beq_iff_eq (a := b.kind), ← Bool.or_eq_true]
    cases b.ty.isReference || b.aliasOf.isSome || b.kind == .selfHandle <;> decide

/-! ## The walk over the candidates -/

namespace Verdict

/-- The capture that a verdict asks for. -/
def capture? : Verdict → Option Capture
  | .captured c => some c
  | _ => none

/-- The name is left to the module. -/
def isLeft : Verdict → Bool
  | .deferred | .free => true
  | _ => false

/-- The verdict asks for a capture that no environment can hold. -/
def isBlocked (v : Verdict) : Bool := v.capture?.any (!·.ty.isRepresentable)

theorem capture?_eq_some {v : Verdict} {c : Capture} : v.capture? = some c ↔ v = .captured c := by
  cases v <;> simp [capture?]

theorem isBlocked_iff {v : Verdict} :
    v.isBlocked = true ↔ ∃ c, v = .captured c ∧ c.ty.isRepresentable = false := by
  cases v <;> simp [isBlocked, capture?]

end Verdict

theorem CaptureSet.toList_insert {cs : CaptureSet} {c : Capture} (h : c.name ∉ cs.names) :
    (cs.insert c).toList = cs.toList ++ [c] := by
  have hnone : ¬ cs.contains c.name = true := by
    simpa [contains, names] using h
  rw [insert, dif_neg hnone]

namespace Capture

variable {f : Function} {qualname : String} {verdicts : String → Verdict}

/-- What a walk over these names adds to what was resolved before. -/
structure Resolved.Gathers (f : Function) (qualname : String) (verdicts : String → Verdict)
    (names : List String) (r r' : Resolved) : Prop where
  captures : r'.captures.toList =
    r.captures.toList ++ names.filterMap fun n => (verdicts n).capture?
  deferred : r'.deferred = r.deferred ++ names.filter fun n => (verdicts n).isLeft
  report : r'.report = r.report ++
    ((names.filterMap fun n => (verdicts n).capture?).filter (·.ty.isUnknown)).map
      (unknownTypeReport f qualname)

theorem Resolved.Gathers.trans {names names' : List String} {r r₁ r₂ : Resolved}
    (h : Gathers f qualname verdicts names r r₁) (h' : Gathers f qualname verdicts names' r₁ r₂) :
    Gathers f qualname verdicts (names ++ names') r r₂ where
  captures := by rw [h'.captures, h.captures, List.filterMap_append, List.append_assoc]
  deferred := by rw [h'.deferred, h.deferred, List.filter_append, List.append_assoc]
  report := by
    rw [h'.report, h.report, List.filterMap_append, List.filter_append, List.map_append,
      List.append_assoc]

/-- One step: a name that was not met before goes where its verdict says. -/
theorem Resolved.add_eq_ok (hnames : ∀ n c, verdicts n = .captured c → c.name = n) {n : String}
    {r : Resolved} (hblocked : (verdicts n).isBlocked = false) (hcaptured : n ∉ r.captures.names)
    (hdeferred : n ∉ r.deferred) :
    ∃ r', r.add f qualname n (verdicts n) = .ok r' ∧
      Gathers f qualname verdicts [n] r r' := by
  cases hv : verdicts n with
  | own =>
    refine ⟨r, rfl, ?_, ?_, ?_⟩ <;> simp [hv, Verdict.capture?, Verdict.isLeft]
  | deferred | free =>
    refine ⟨{ r with deferred := pushNew r.deferred n }, rfl, ?_, ?_, ?_⟩ <;>
      simp [hv, Verdict.capture?, Verdict.isLeft, pushNew, hdeferred]
  | captured c =>
    obtain rfl := hnames n c hv
    have hrepresentable : c.ty.isRepresentable = true := by
      simpa [hv, Verdict.isBlocked, Verdict.capture?] using hblocked
    refine ⟨_, by rw [add, if_neg (by simp [hrepresentable])], ?_, ?_, ?_⟩
    · simp [hv, Verdict.capture?, CaptureSet.toList_insert hcaptured]
    · simp [hv, Verdict.isLeft]
    · by_cases hunknown : c.ty.isUnknown = true <;> simp [hv, Verdict.capture?, hunknown]

/-- **The walk gathers what the verdicts say**, if it meets no name twice and no capture that
cannot be held. -/
theorem Resolved.foldlM_add_eq_ok (hnames : ∀ n c, verdicts n = .captured c → c.name = n)
    {names : List String} {r : Resolved} (hnodup : names.Nodup)
    (hblocked : ∀ n ∈ names, (verdicts n).isBlocked = false)
    (hfresh : ∀ n ∈ names, n ∉ r.captures.names ∧ n ∉ r.deferred) :
    ∃ r', names.foldlM (fun r n => r.add f qualname n (verdicts n)) r = .ok r' ∧
      Gathers f qualname verdicts names r r' := by
  induction names generalizing r with
  | nil => exact ⟨r, rfl, by simp, by simp, by simp⟩
  | cons n rest ih =>
    obtain ⟨hn, hrest⟩ := List.nodup_cons.mp hnodup
    obtain ⟨hcaptured, hdeferred⟩ := hfresh n List.mem_cons_self
    obtain ⟨r₁, hadd, hstep⟩ : ∃ r₁, r.add f qualname n (verdicts n) = .ok r₁ ∧
        Gathers f qualname verdicts [n] r r₁ :=
      add_eq_ok hnames (hblocked n List.mem_cons_self) hcaptured hdeferred
    have hfresh₁ : ∀ m ∈ rest, m ∉ r₁.captures.names ∧ m ∉ r₁.deferred := by
      intro m hm
      obtain ⟨hmcaptured, hmdeferred⟩ := hfresh m (List.mem_cons_of_mem n hm)
      have hne : m ≠ n := fun heq => hn (heq ▸ hm)
      constructor
      · rw [CaptureSet.names, hstep.captures, List.map_append, List.mem_append, not_or]
        refine ⟨hmcaptured, fun hmem => hne ?_⟩
        obtain ⟨c, hc, rfl⟩ := List.mem_map.mp hmem
        obtain ⟨k, hk, hcapture⟩ := List.mem_filterMap.mp hc
        obtain rfl := List.mem_singleton.mp hk
        exact hnames k c (Verdict.capture?_eq_some.mp hcapture)
      · rw [hstep.deferred, List.mem_append, not_or]
        exact ⟨hmdeferred, fun hmem => hne (List.mem_singleton.mp (List.mem_filter.mp hmem).1)⟩
    obtain ⟨r₂, hfold, hgathers⟩ :=
      ih hrest (fun m hm => hblocked m (List.mem_cons_of_mem n hm)) hfresh₁
    refine ⟨r₂, ?_, hstep.trans hgathers⟩
    rw [List.foldlM_cons, hadd]
    exact hfold

/-- **The walk stops at the first capture that cannot be held.** -/
theorem Resolved.foldlM_add_eq_error (hnames : ∀ n c, verdicts n = .captured c → c.name = n)
    {names : List String} {r : Resolved} {n : String}
    (hfirst : names.find? (fun n => (verdicts n).isBlocked) = some n) :
    ∃ c, verdicts n = .captured c ∧
      names.foldlM (fun r n => r.add f qualname n (verdicts n)) r =
        .error (.unsupportedCapture qualname n c.ty f.span) := by
  induction names generalizing r with
  | nil => cases hfirst
  | cons m rest ih =>
    rw [List.foldlM_cons]
    cases hm : (verdicts m).isBlocked with
    | true =>
      rw [List.find?_cons, hm] at hfirst
      cases hfirst
      obtain ⟨c, hc, hty⟩ := Verdict.isBlocked_iff.mp hm
      refine ⟨c, hc, ?_⟩
      rw [hc, add, if_pos (by simp [hty]), hnames n c hc]
      rfl
    | false =>
      rw [List.find?_cons, hm] at hfirst
      obtain ⟨r₁, hadd⟩ : ∃ r₁, r.add f qualname m (verdicts m) = .ok r₁ := by
        cases hv : verdicts m with
        | own | deferred | free => exact ⟨_, rfl⟩
        | captured c =>
          have hty : c.ty.isRepresentable = true := by
            simpa [hv, Verdict.isBlocked, Verdict.capture?] using hm
          exact ⟨_, by rw [add, if_neg (by simp [hty])]⟩
      rw [hadd]
      exact ih hfirst

/-! ## The verdict on a name -/

variable {s : Scope} {n : String}

theorem verdict_of_reserved (h : f.isReserved n = true) :
    verdict f (Usage.ofFunction f) s n = .own := by
  rw [Function.isReserved, Bool.or_eq_true] at h
  unfold verdict
  rcases h with hformal | hown
  · rw [if_pos hformal]
  · rw [if_pos hown, ite_self]

/-- A name that a function around binds is captured with what the scope knows of it. -/
theorem verdict_of_captures (hn : f.isReserved n = false) (h : f.Captures s n) :
    ∃ c, verdict f (Usage.ofFunction f) s n = .captured c ∧ c.Holds f s := by
  obtain ⟨hformal, hown⟩ := Bool.or_eq_false_iff.mp hn
  simp only [verdict, hformal, hown, h.global, h.assigned, Bool.false_eq_true, if_false]
  cases hlookup : s.lookup n with
  | some b =>
    have hbound : s.BoundInFrames n := h.bound.resolve_right fun hnone => by
      rw [hlookup] at hnone
      cases hnone.1
    have hlocal : ¬ s.isGlobal n = true := fun hg => (Scope.isGlobal_iff.mp hg).1 hbound
    refine ⟨_, if_neg hlocal, ?_, ?_, rfl, ?_, ?_⟩
    · simp [Scope.typeAt, hlookup]
    · simp [hlookup]
    · simp [hlookup, Binding.captureMode_eq_byReference]
    · simp [hlookup, Binding.captureMode_eq_byReference, Binding.captureMode_eq_borrowed]
  | none =>
    have hbound : s.isEnclosingFormal n = true := by
      rcases h.bound with hframes | ⟨-, hformals⟩
      · have hsome := Scope.lookup_isSome_iff.mpr (.inl hframes)
        rw [hlookup] at hsome
        cases hsome
      · exact hformals
    refine ⟨_, if_pos hbound, ?_, ?_, rfl, ?_, ?_⟩
    · simp [Scope.typeAt, hlookup]
    · simp [hlookup]
    · simp [hlookup]
    · split <;> simp [hlookup]

/-- A name that is not captured is left to the module if it is deferred, and belongs to the
function otherwise. -/
theorem verdict_of_not_captures (hn : f.isReserved n = false) (h : ¬ f.Captures s n) :
    (verdict f (Usage.ofFunction f) s n).capture? = none ∧
      ((verdict f (Usage.ofFunction f) s n).isLeft = true ↔ f.Defers s n) := by
  have hdefers : f.Defers s n ↔ ((Usage.ofFunction f).isGlobal n = true ∨
      (Usage.ofFunction f).isAssigned n = false ∧ ¬ s.BoundInFrames n) :=
    ⟨Function.Defers.left, fun hleft => ⟨h, hleft⟩⟩
  obtain ⟨hformal, hown⟩ := Bool.or_eq_false_iff.mp hn
  rw [hdefers]
  simp only [verdict, hformal, hown, Bool.false_eq_true, if_false]
  by_cases hglobal : (Usage.ofFunction f).isGlobal n = true
  · simp [hglobal, Verdict.capture?, Verdict.isLeft]
  rw [Bool.not_eq_true] at hglobal
  by_cases hassigned : (Usage.ofFunction f).isAssigned n = true
  · simp [hglobal, hassigned, Verdict.capture?, Verdict.isLeft]
  rw [Bool.not_eq_true] at hassigned
  have hunbound : ¬ s.BoundInFrames n := fun hbound => h ⟨hglobal, hassigned, .inl hbound⟩
  simp only [hglobal, hassigned, Bool.false_eq_true, if_false]
  cases hlookup : s.lookup n with
  | some b =>
    have hmodule : s.isGlobal n = true := by
      have hsome := Scope.lookup_isSome_iff.mp (by rw [hlookup]; rfl)
      exact Scope.isGlobal_iff.mpr ⟨hunbound, hsome.resolve_left hunbound⟩
    simp [hmodule, hunbound, Verdict.capture?, Verdict.isLeft]
  | none =>
    have hnowhere : ¬ s.isEnclosingFormal n = true := fun henclosing =>
      h ⟨hglobal, hassigned, .inr ⟨hlookup, henclosing⟩⟩
    simp [hnowhere, hunbound, Verdict.capture?, Verdict.isLeft]

/-- Only names that are to be captured are. -/
theorem captures_of_verdict {c : Capture}
    (hc : verdict f (Usage.ofFunction f) s n = .captured c) :
    f.isReserved n = false ∧ f.Captures s n ∧ c.Holds f s := by
  cases hn : f.isReserved n with
  | true =>
    rw [verdict_of_reserved hn] at hc
    cases hc
  | false =>
    by_cases h : f.Captures s n
    · obtain ⟨d, hd, hholds⟩ := verdict_of_captures hn h
      rw [hc] at hd
      cases hd
      exact ⟨rfl, h, hholds⟩
    · have hnone := (verdict_of_not_captures hn h).1
      rw [hc] at hnone
      cases hnone

theorem isBlocked_verdict_iff :
    (verdict f (Usage.ofFunction f) s n).isBlocked = true ↔
      f.isReserved n = false ∧ f.Blocks s n := by
  rw [Verdict.isBlocked_iff]
  constructor
  · rintro ⟨c, hc, hty⟩
    obtain ⟨hn, hcaptures, hholds⟩ := captures_of_verdict hc
    rw [hholds.ty, (of_verdict hc).1] at hty
    exact ⟨hn, hcaptures, hty⟩
  · rintro ⟨hn, hblocks⟩
    obtain ⟨c, hc, hholds⟩ := verdict_of_captures hn hblocks.captured
    refine ⟨c, hc, ?_⟩
    rw [hholds.ty, (of_verdict hc).1]
    exact hblocks.unrepresentable

theorem isLeft_verdict_iff :
    (verdict f (Usage.ofFunction f) s n).isLeft = true ↔
      f.isReserved n = false ∧ f.Defers s n := by
  cases hn : f.isReserved n with
  | true => simp [verdict_of_reserved hn, Verdict.isLeft]
  | false =>
    rw [eq_self, true_and]
    by_cases h : f.Captures s n
    · obtain ⟨c, hc, -⟩ := verdict_of_captures hn h
      rw [hc]
      exact ⟨fun hleft => (by cases hleft), fun hdefers => absurd h hdefers.uncaptured⟩
    · exact (verdict_of_not_captures hn h).2

/-! ## The result -/

/-- What resolution has gathered when it succeeds. -/
structure Resolved.Partitions (f : Function) (s : Scope) (qualname : String) (r : Resolved) :
    Prop where
  captures : r.captures.names = f.outerNames.filter (f.Captures s ·)
  deferred : r.deferred = f.outerNames.filter (f.Defers s ·)
  nodup : r.captures.names.Nodup
  disjoint : ∀ n ∈ r.captures.names, n ∉ r.deferred
  /-- One report for each captured name of unknown type, in order. -/
  report : r.report =
    (r.captures.toList.filter (·.ty.isUnknown)).map (unknownTypeReport f qualname)
  code : ∀ d ∈ r.report, d.code.text = "A002"
  holds : ∀ c ∈ r.captures.toList, c.Holds f s

/-- The name under which a verdict captures. -/
theorem map_name_capture?_verdict :
    (verdict f (Usage.ofFunction f) s n).capture?.map Capture.name =
      Option.guard (fun n => !f.isReserved n && decide (f.Captures s n)) n := by
  cases hcapture : (verdict f (Usage.ofFunction f) s n).capture? with
  | some c =>
    have hc := Verdict.capture?_eq_some.mp hcapture
    obtain ⟨hn, hcaptures, -⟩ := captures_of_verdict hc
    simp [Option.guard, hn, hcaptures, (of_verdict hc).1]
  | none =>
    have hnot : ¬ (f.isReserved n = false ∧ f.Captures s n) := by
      rintro ⟨hn, hcaptures⟩
      obtain ⟨c, hc, -⟩ := verdict_of_captures hn hcaptures
      rw [hc] at hcapture
      cases hcapture
    simpa [Option.guard] using hnot

/-- **What a whole walk gathers** from nothing is a partition of the outer names. -/
theorem Resolved.Gathers.partitions {r : Resolved}
    (h : Gathers f qualname (verdict f (Usage.ofFunction f) s) (Usage.ofFunction f).candidates
      {} r) : r.Partitions f s qualname := by
  have hlist : r.captures.toList = (Usage.ofFunction f).candidates.filterMap fun n =>
      (verdict f (Usage.ofFunction f) s n).capture? := h.captures
  have hreport : r.report =
      (r.captures.toList.filter (·.ty.isUnknown)).map (unknownTypeReport f qualname) := by
    rw [h.report, hlist]
    rfl
  have hcaptures : r.captures.names = f.outerNames.filter (f.Captures s ·) := by
    rw [CaptureSet.names, hlist, List.map_filterMap, Function.outerNames, ← Usage.candidates_eq,
      List.filter_filter, ← List.filterMap_eq_filter]
    congr 1
    funext n
    rw [map_name_capture?_verdict]
    simp [Option.guard, and_comm]
  have hdeferred : r.deferred = f.outerNames.filter (f.Defers s ·) := by
    rw [h.deferred, Function.outerNames, ← Usage.candidates_eq, List.filter_filter]
    refine List.filter_congr fun n _ => ?_
    rw [Bool.eq_iff_iff, isLeft_verdict_iff]
    simp [and_comm]
  refine ⟨hcaptures, hdeferred, r.captures.nodup, fun n hn hleft => ?_, hreport, fun d hd => ?_,
    fun c hc => ?_⟩
  · rw [hcaptures, List.mem_filter] at hn
    rw [hdeferred, List.mem_filter] at hleft
    exact (of_decide_eq_true hleft.2).uncaptured (of_decide_eq_true hn.2)
  · rw [hreport] at hd
    obtain ⟨c, -, rfl⟩ := List.mem_map.mp hd
    rfl
  · rw [hlist] at hc
    obtain ⟨n, -, hcapture⟩ := List.mem_filterMap.mp hc
    exact (captures_of_verdict (Verdict.capture?_eq_some.mp hcapture)).2.2

/-- The first candidate that cannot be held is the first such outer name. -/
theorem find?_isBlocked_verdict :
    (Usage.ofFunction f).candidates.find?
        (fun n => (verdict f (Usage.ofFunction f) s n).isBlocked) =
      f.outerNames.find? fun n => decide (f.Blocks s n) := by
  rw [Function.outerNames, List.find?_filter, Usage.candidates_eq]
  congr 1
  funext n
  rw [Bool.eq_iff_iff, isBlocked_verdict_iff]
  simp

theorem name_of_verdict (c : Capture) (hc : verdict f (Usage.ofFunction f) s n = .captured c) :
    c.name = n :=
  (of_verdict hc).1

theorem resolve_eq_error (h : f.outerNames.find? (fun n => decide (f.Blocks s n)) = some n) :
    resolve f (Usage.ofFunction f) s qualname =
      .error (.unsupportedCapture qualname n (s.typeAt n) f.span) := by
  obtain ⟨c, hc, herror⟩ : ∃ c, verdict f (Usage.ofFunction f) s n = .captured c ∧
      resolve f (Usage.ofFunction f) s qualname =
        .error (.unsupportedCapture qualname n c.ty f.span) :=
    Resolved.foldlM_add_eq_error (fun _ => name_of_verdict) (find?_isBlocked_verdict.trans h)
  have hty := (captures_of_verdict hc).2.2.ty
  rw [name_of_verdict c hc] at hty
  rw [herror, hty]

theorem exists_resolve_eq_ok (h : ∀ n ∈ f.outerNames, ¬ f.Blocks s n) :
    ∃ r, resolve f (Usage.ofFunction f) s qualname = .ok r ∧ r.Partitions f s qualname := by
  have hnone : f.outerNames.find? (fun n => decide (f.Blocks s n)) = none :=
    List.find?_eq_none.mpr fun n hn hblocks => h n hn (of_decide_eq_true hblocks)
  rw [← find?_isBlocked_verdict, List.find?_eq_none] at hnone
  obtain ⟨r, hr, hgathers⟩ : ∃ r, resolve f (Usage.ofFunction f) s qualname = .ok r ∧
      Resolved.Gathers f qualname (verdict f (Usage.ofFunction f) s)
        (Usage.ofFunction f).candidates {} r :=
    Resolved.foldlM_add_eq_ok (fun _ => name_of_verdict) (Usage.nodup_candidates _)
      (fun n hn => Bool.eq_false_iff.mpr (hnone n hn))
      fun n _ => ⟨List.not_mem_nil, List.not_mem_nil⟩
  exact ⟨r, hr, hgathers.partitions⟩

end Capture

/-- **Resolution sorts the outer names.** It fails exactly if some name that is to be captured has
a type without a representation, and then it names the first one. Otherwise it captures exactly
the names that a function around binds and leaves the others to the module unless the function
binds them, in the order in which they are mentioned; it reports each captured name of unknown
type once, and each capture holds the variable as its use and its binding ask for. -/
theorem resolve_partitions_outerNames (f : Function) (s : Scope) (qualname : String) :
    (∀ e, Capture.resolve f (Usage.ofFunction f) s qualname = .error e ↔
      ∃ n, f.outerNames.find? (fun n => decide (f.Blocks s n)) = some n ∧
        e = .unsupportedCapture qualname n (s.typeAt n) f.span) ∧
    ((∃ n ∈ f.outerNames, f.Blocks s n) ∨
      ∃ r, Capture.resolve f (Usage.ofFunction f) s qualname = .ok r ∧
        r.Partitions f s qualname) := by
  constructor
  · intro e
    constructor
    · intro herror
      cases hfirst : f.outerNames.find? fun n => decide (f.Blocks s n) with
      | some n =>
        rw [Capture.resolve_eq_error hfirst] at herror
        cases herror
        exact ⟨n, rfl, rfl⟩
      | none =>
        have hnone : ∀ n ∈ f.outerNames, ¬ f.Blocks s n := fun n hn hblocks =>
          List.find?_eq_none.mp hfirst n hn (decide_eq_true hblocks)
        obtain ⟨r, hr, -⟩ := Capture.exists_resolve_eq_ok (f := f) (s := s) hnone
        rw [hr] at herror
        cases herror
    · rintro ⟨n, hfirst, rfl⟩
      exact Capture.resolve_eq_error hfirst
  · by_cases hblocks : ∃ n ∈ f.outerNames, f.Blocks s n
    · exact .inl hblocks
    · exact .inr (Capture.exists_resolve_eq_ok fun n hn h => hblocks ⟨n, hn, h⟩)

end ClosureConversion
