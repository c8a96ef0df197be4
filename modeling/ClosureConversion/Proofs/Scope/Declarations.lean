import ClosureConversion.Proofs.Scope.Entries

/-! # Declarations and their spellings -/

set_option autoImplicit false

namespace ClosureConversion

/-! ## Frames and their renames -/

/-- Every spelling belongs to a name that the frame binds, and is reserved in it. -/
structure Frame.Matches (f : Frame) (renames : NameMap String) : Prop where
  bound : ∀ n, (renames.get? n).isSome → (f.get? n).isSome
  reserved : ∀ n ident, renames.get? n = some ident → ident ∈ f.idents

/-- Every name that the frame binds has a spelling. -/
def Frame.Spelled (f : Frame) (renames : NameMap String) : Prop :=
  ∀ n, (f.get? n).isSome → (renames.get? n).isSome

namespace Frame

variable {kinds : Bool} {f g : Frame} {renames : NameMap String}

theorem Matches.new (kind : FrameKind) : ({ kind } : Frame).Matches .empty :=
  ⟨fun _ hn => absurd hn Bool.false_ne_true, fun _ _ hn => by cases hn⟩

theorem Spelled.new (kind : FrameKind) : ({ kind } : Frame).Spelled .empty :=
  fun _ hn => absurd hn Bool.false_ne_true

theorem Matches.adjusts (h : f.Matches renames) (hadjusts : f.Adjusts kinds g) : g.Matches renames :=
  ⟨fun n hn => by rw [hadjusts.isSome]; exact h.bound n hn,
    fun n ident hident => hadjusts.idents (h.reserved n ident hident)⟩

theorem Spelled.adjusts (h : f.Spelled renames) (hadjusts : f.Adjusts kinds g) : g.Spelled renames :=
  fun n hn => h n (by rwa [← hadjusts.isSome])

theorem isSome_bind (f : Frame) (name ident : String) (b : Binding) (n : String) :
    ((f.bind name ident b).get? n).isSome ↔ name = n ∨ (f.get? n).isSome := by
  show ((f.bindings.insert name b).get? n).isSome ↔ _
  rw [NameMap.get?_insert]
  by_cases h : name = n <;> simp [h, Frame.get?]

theorem isSome_insert (renames : NameMap String) (name ident n : String) :
    ((renames.insert name ident).get? n).isSome ↔ name = n ∨ (renames.get? n).isSome := by
  rw [NameMap.get?_insert]
  by_cases h : name = n <;> simp [h]

/-- A declaration is made in both at once. -/
theorem Matches.bind (h : f.Matches renames) (name ident : String) (b : Binding) :
    (f.bind name ident b).Matches (renames.insert name ident) := by
  refine ⟨fun n hn => ?_, fun n other hother => ?_⟩
  · rw [isSome_bind]
    exact ((isSome_insert ..).mp hn).imp_right (h.bound n)
  · show other ∈ pushNew f.idents ident
    rw [NameMap.get?_insert] at hother
    split at hother
    · exact mem_pushNew.mpr (.inr (Option.some.inj hother).symm)
    · exact mem_pushNew.mpr (.inl (h.reserved n other hother))

theorem Spelled.bind (h : f.Spelled renames) (name ident : String) (b : Binding) :
    (f.bind name ident b).Spelled (renames.insert name ident) := by
  intro n hn
  rw [isSome_insert]
  exact ((isSome_bind ..).mp hn).imp_right (h n)

end Frame

namespace Scope

/-- The two stacks belong together, frame by frame from the inside. Names of the module need no
spelling. -/
def Matched (s : Scope) : Prop :=
  ∀ (k : Nat) (f : Frame) (renames : NameMap String), s.allFrames[k]? = some f →
    s.renames.frames[k]? = some renames →
    f.Matches renames ∧ (k < s.frames.length → f.Spelled renames)

variable {kinds : Bool} {s t u v : Scope}

theorem getElem?_of_adjusts {fs gs : List Frame} (h : List.Forall₂ (Frame.Adjusts kinds) fs gs) {k : Nat}
    {g : Frame} (hg : gs[k]? = some g) : ∃ f, fs[k]? = some f ∧ f.Adjusts kinds g := by
  induction h generalizing k with
  | nil => cases hg
  | cons hhead _ ih =>
    cases k with
    | zero =>
      obtain rfl := Option.some.inj hg
      exact ⟨_, rfl, hhead⟩
    | succ k => exact ih hg

theorem Matched.adjusts (hs : s.Matched) (h : s.Adjusts kinds t) : t.Matched := by
  intro k g renames hg hrenames
  obtain ⟨f, hf, hadjusts⟩ := getElem?_of_adjusts h.allFrames hg
  rw [h.renames] at hrenames
  obtain ⟨hmatches, hspelled⟩ := hs k f renames hf hrenames
  refine ⟨hmatches.adjusts hadjusts, fun hk => (hspelled ?_).adjusts hadjusts⟩
  rwa [h.frames.length_eq]

theorem Matched.binds {d : Declaration} (hs : s.Matched) (h : Binds d s t) : t.Matched := by
  intro k g renames' hg hrenames'
  obtain ⟨b, hframes⟩ := h.frames
  have hlength : t.frames.length = s.frames.length := by
    have hall := congrArg List.length hframes
    rw [List.length_modify, length_allFrames, length_allFrames] at hall
    exact Nat.succ.inj hall
  rw [hframes, List.getElem?_modify] at hg
  rw [h.renames, List.getElem?_modify] at hrenames'
  obtain ⟨f, hf, rfl⟩ := Option.map_eq_some_iff.mp hg
  obtain ⟨renames, hrenames, rfl⟩ := Option.map_eq_some_iff.mp hrenames'
  obtain ⟨hmatches, hspelled⟩ := hs k f renames hf hrenames
  rw [hlength]
  split
  · exact ⟨hmatches.bind d.name d.ident b, fun hk => (hspelled hk).bind d.name d.ident b⟩
  · exact ⟨hmatches, hspelled⟩

theorem Matched.effect {d : Option Declaration} (hs : s.Matched) (h : s.Effect kinds d t) :
    t.Matched := by
  cases h with
  | adjusts h => exact hs.adjusts h
  | declares hbefore hbinds hafter => exact ((hs.adjusts hbefore).binds hbinds).adjusts hafter

theorem Matched.push (hs : s.Matched) (kind : FrameKind) : (s.push kind).Matched := by
  intro k f renames hf hrenames
  cases k with
  | zero =>
    obtain rfl : ({ kind } : Frame) = f := Option.some.inj hf
    obtain rfl : NameMap.empty = renames := Option.some.inj hrenames
    exact ⟨.new kind, fun _ => .new kind⟩
  | succ k =>
    obtain ⟨hmatches, hspelled⟩ := hs k f renames hf hrenames
    exact ⟨hmatches, fun hk => hspelled (Nat.lt_of_succ_lt_succ hk)⟩

theorem Matched.popped (hlevel : s.Leveled) (hs : s.Matched) : s.popped.Matched := by
  rcases popped_cases true hlevel with
    ⟨-, heq⟩ | ⟨f, frames, r, renames, hframes, hren, hadjusts⟩
  · rw [heq]
    exact hs
  · refine Matched.adjusts (fun k g renames' hg hrenames' => ?_) hadjusts
    have hg' : s.allFrames[k + 1]? = some g := by
      rw [allFrames, hframes]
      exact hg
    have hrenames'' : s.renames.frames[k + 1]? = some renames' := by
      rw [hren]
      exact hrenames'
    obtain ⟨hmatches, hspelled⟩ := hs (k + 1) g renames' hg' hrenames''
    refine ⟨hmatches, fun hk => hspelled ?_⟩
    rw [hframes]
    exact Nat.succ_lt_succ hk

theorem Matched.declareGlobal (hs : s.Matched) (name : String) (ty : Ty) :
    (s.declareGlobal name ty).Matched := by
  intro k f renames hf hrenames
  change (s.frames ++ [s.base.bind name name (.ofGlobal name ty)])[k]? = some f at hf
  rcases Nat.lt_or_ge k s.frames.length with hk | hk
  · rw [List.getElem?_append_left hk] at hf
    exact hs k f renames (by rw [allFrames, List.getElem?_append_left hk, hf]) hrenames
  · -- the module's own frame binds more, and its renames are what they were
    rw [List.getElem?_append_right hk] at hf
    obtain rfl : k = s.frames.length := by
      have hlt := (List.getElem?_eq_some_iff.mp hf).1
      rw [List.length_singleton] at hlt
      omega
    rw [Nat.sub_self] at hf
    obtain rfl := Option.some.inj hf
    have hbase : s.allFrames[s.frames.length]? = some s.base := by
      rw [allFrames, List.getElem?_append_right (Nat.le_refl _), Nat.sub_self]
      rfl
    obtain ⟨hmatches, -⟩ := hs _ s.base renames hbase hrenames
    refine ⟨⟨fun n hn => ?_, fun n ident hident => ?_⟩, fun hlt => absurd hlt (Nat.lt_irrefl _)⟩
    · exact (Frame.isSome_bind ..).mpr (.inr (hmatches.bound n hn))
    · exact mem_pushNew.mpr (.inl (hmatches.reserved n ident hident))

/-- **Every operation keeps the two stacks matched.** -/
theorem Op.matched (op : Op) (hlevel : s.Leveled) (hs : s.Matched) : (op.apply s).Matched := by
  cases op with
  | pushFunction name formals => exact hs.push _
  | pushBlock => exact hs.push _
  | pop => exact hs.popped hlevel
  | declareGlobal name ty => exact hs.declareGlobal name ty
  | change c => exact hs.effect (c.effect_any hlevel)

theorem run_matched (ops : List Op) : (run ops).Matched := by
  have hempty : ({} : Scope).Leveled ∧ ({} : Scope).Matched := by
    refine ⟨rfl, fun k f renames hf hrenames => ?_⟩
    cases k with
    | zero =>
      obtain rfl := Option.some.inj hf
      obtain rfl := Option.some.inj hrenames
      exact ⟨.new .module, fun _ => .new .module⟩
    | succ k => cases hf
  exact (run_induction (P := fun s => s.Leveled ∧ s.Matched) hempty
    fun s op _ hs => ⟨op.leveled hs.1, op.matched hs.1 hs.2⟩).2

/-! ## Look-ups -/

/-- The name is bound nowhere and is its own spelling, or the innermost frame that binds it says
both what it is and how it is spelled. -/
def OneDeclaration (s : Scope) (name : String) : Prop :=
  s.lookup name = none ∧ s.ident name = name ∨
    ∃ i, (s.bound? i name).isSome ∧ (∀ j, i < j → s.bound? j name = none) ∧
      s.lookup name = s.bound? i name ∧ s.ident name = (s.spelled? i name).getD name

theorem findSome?_matched (fs : List Frame) (rs : List (NameMap String))
    (hlength : rs.length = fs.length) (name : String)
    (h : ∀ (k : Nat) (f : Frame) (r : NameMap String), fs[k]? = some f → rs[k]? = some r →
      f.Matches r ∧ (k + 1 < fs.length → f.Spelled r)) :
    fs.findSome? (·.get? name) = none ∧ rs.findSome? (·.get? name) = none ∨
      ∃ (k : Nat) (f : Frame) (r : NameMap String), fs[k]? = some f ∧ rs[k]? = some r ∧
        (∀ (j : Nat) (g : Frame), j < k → fs[j]? = some g → g.get? name = none) ∧
        (f.get? name).isSome ∧ fs.findSome? (·.get? name) = f.get? name ∧
        rs.findSome? (·.get? name) = r.get? name := by
  induction fs generalizing rs with
  | nil =>
    rw [List.length_eq_zero_iff.mp hlength]
    exact .inl ⟨rfl, rfl⟩
  | cons f fs ih =>
    match rs, hlength with
    | r :: rs, hlength =>
      obtain ⟨hmatches, hspelled⟩ := h 0 f r rfl rfl
      rw [List.findSome?_cons, List.findSome?_cons]
      cases hf : f.get? name with
      | some b =>
        refine .inr ⟨0, f, r, rfl, rfl, fun j g hj => absurd hj (Nat.not_lt_zero j), ?_, ?_, ?_⟩
        · rw [hf]
          rfl
        · rw [hf]
        · cases hr : r.get? name with
          | some ident => rfl
          | none =>
            have hlast : fs.length = 0 := by
              by_contra hmore
              have hsome := hspelled (by rw [List.length_cons]; omega) name (by rw [hf]; rfl)
              rw [hr] at hsome
              cases hsome
            rw [List.length_eq_zero_iff.mp ((Nat.succ.inj hlength).trans hlast)]
            rfl
      | none =>
        have hr : r.get? name = none := by
          rw [← Option.not_isSome_iff_eq_none]
          intro hsome
          have hbound := hmatches.bound name hsome
          rw [hf] at hbound
          cases hbound
        rw [hr]
        have hrest := ih rs (Nat.succ.inj hlength) fun k f' r' hf' hr' => by
          obtain ⟨hm, hsp⟩ := h (k + 1) f' r' hf' hr'
          exact ⟨hm, fun hk => hsp (by rw [List.length_cons]; omega)⟩
        rcases hrest with hnone | ⟨k, f', r', hf', hr', hbefore, hsome, hlook, hspell⟩
        · exact .inl hnone
        · refine .inr ⟨k + 1, f', r', hf', hr', fun j g hj hg => ?_, hsome, hlook, hspell⟩
          cases j with
          | zero =>
            obtain rfl := Option.some.inj hg
            exact hf
          | succ j => exact hbefore j g (Nat.lt_of_succ_lt_succ hj) hg

/-- The same place, counted from the inside. -/
theorem getElem?_reverse_sub {α : Type} {l : List α} {k : Nat} (hk : k < l.length) :
    l.reverse[l.length - 1 - k]? = l[k]? := by
  rw [List.getElem?_reverse (by omega)]
  congr 1
  omega

/-- What a look-up finds and how the name is spelled come from the same frame. -/
theorem Matched.oneDeclaration (hlevel : s.Leveled) (hs : s.Matched) (name : String) :
    s.OneDeclaration name := by
  have hboth := findSome?_matched s.allFrames s.renames.frames hlevel name fun k f r hf hr => by
    obtain ⟨hmatches, hspelled⟩ := hs k f r hf hr
    refine ⟨hmatches, fun hk => hspelled ?_⟩
    rw [length_allFrames] at hk
    exact Nat.lt_of_succ_lt_succ hk
  have hident : s.ident name = (s.renames.frames.findSome? (·.get? name)).getD name := rfl
  rcases hboth with ⟨hlook, hspell⟩ | ⟨k, f, r, hf, hr, hbefore, hsome, hlook, hspell⟩
  · exact .inl ⟨hlook, by rw [hident, hspell]; rfl⟩
  · have hk := (List.getElem?_eq_some_iff.mp hf).1
    have hbound : s.bound? (s.allFrames.length - 1 - k) name = f.get? name := by
      unfold bound?
      rw [getElem?_reverse_sub hk, hf]
      rfl
    have hspelled : s.spelled? (s.allFrames.length - 1 - k) name = r.get? name := by
      unfold spelled?
      rw [← show s.renames.frames.length = s.allFrames.length from hlevel,
        getElem?_reverse_sub (List.getElem?_eq_some_iff.mp hr).1, hr]
      rfl
    refine .inr ⟨s.allFrames.length - 1 - k, by rwa [hbound], fun j hj => ?_, ?_, ?_⟩
    · unfold bound?
      rcases Nat.lt_or_ge j s.allFrames.length with hin | hout
      · rw [List.getElem?_reverse hin]
        cases hg : s.allFrames[s.allFrames.length - 1 - j]? with
        | none => rfl
        | some g => exact hbefore _ g (by omega) hg
      · rw [List.getElem?_eq_none (by rw [List.length_reverse]; exact hout)]
        rfl
    · rw [hbound]
      exact hlook
    · rw [hident, hspelled, hspell]

/-! ## Frames that are entered and left -/

/-- The kind of the frame that an operation enters. -/
def Op.enters? : Op → Option FrameKind
  | .pushFunction name formals => some (.function name formals)
  | .pushBlock => some .block
  | _ => none

/-- A sequence that leaves exactly the frames that it enters. -/
inductive Balanced : List Op → Prop
  | nil : Balanced []
  | change {ops : List Op} (c : Change) (h : Balanced ops) : Balanced (.change c :: ops)
  | declareGlobal {ops : List Op} (name : String) (ty : Ty) (h : Balanced ops) :
      Balanced (.declareGlobal name ty :: ops)
  | bracket {enter : Op} {inside after : List Op} (henter : enter.enters?.isSome)
      (hinside : Balanced inside) (hafter : Balanced after) :
      Balanced (enter :: (inside ++ .pop :: after))

/-- The change declares nothing outside the innermost frame. -/
def Change.isLocal : Change → Bool
  | .declareInFunction .. => false
  | .declareFresh _ hoisted .. => !hoisted
  | _ => true

def Op.isLocal : Op → Bool
  | .declareGlobal .. => false
  | .change c => c.isLocal
  | _ => true

/-- The operation writes no kind to a binding that is there. -/
def Op.KeepsKinds : Op → Prop
  | .change c => c.KeepsKinds
  | _ => True

theorem Change.index_of_isLocal {c : Change} {d : Declaration} (h : c.isLocal = true)
    (hd : c.declares? s = some d) : d.index = s.depth - 1 := by
  cases c with
  | declareAs => exact (Option.some.inj hd) ▸ rfl
  | declareInFunction => cases h
  | declareFresh claimed hoisted base name b =>
    cases hoisted with
    | true => cases h
    | false => exact (Option.some.inj hd) ▸ rfl
  | assign name ty isMutable source =>
    change (if _ then _ else _) = some d at hd
    split at hd
    · exact (Option.some.inj hd) ▸ rfl
    · cases hd
  | recordShadow | setType | setMutable | recordAlias | clearAlias | update | reserveIdent
    | claimIdent | reserveModuleIdent | claimModuleIdent => cases hd

/-- There are `n` frames above those of `s`, and these are at most adjusted. -/
structure Above (kinds : Bool) (n : Nat) (s t : Scope) : Prop where
  renames : t.renames.frames.drop n = s.renames.frames
  frames : List.Forall₂ (Frame.Adjusts kinds) s.allFrames (t.allFrames.drop n)

variable {n : Nat}

theorem Above.leveled (h : Above kinds n s t) (hs : s.Leveled) : t.Leveled := by
  have hrenames := congrArg List.length h.renames
  have hframes := h.frames.length_eq
  rw [List.length_drop] at hrenames hframes
  have hpos : 0 < s.allFrames.length := by
    rw [length_allFrames]
    exact Nat.succ_pos _
  unfold Leveled at *
  omega

theorem Above.adjusts (h : Above kinds n s t) (hadjusts : t.Adjusts kinds u) :
    Above kinds n s u := by
  refine ⟨?_, forall₂_adjusts_trans h.frames (List.forall₂_drop n hadjusts.allFrames)⟩
  rw [hadjusts.renames]
  exact h.renames

theorem Above.push (h : Above kinds n s t) (kind : FrameKind) :
    Above kinds (n + 1) s (t.push kind) :=
  ⟨h.renames, h.frames⟩

/-- A change in the innermost frame is made above the frames of `s`. -/
theorem Above.change {c : Change} (hs : s.Leveled) (h : Above kinds (n + 1) s t)
    (hlocal : c.isLocal = true) (hkeeps : kinds = true → c.KeepsKinds) :
    Above kinds (n + 1) s (c.apply t) := by
  have heffect := c.effect hkeeps (h.leveled hs)
  cases hd : c.declares? t with
  | none =>
    rw [hd] at heffect
    cases heffect with
    | adjusts hadjusts => exact h.adjusts hadjusts
  | some d =>
    have hindex := Change.index_of_isLocal hlocal hd
    rw [hd] at heffect
    cases heffect with
    | @declares _ u v _ hbefore hbinds hafter =>
      have hu := h.adjusts hbefore
      have hplace : u.depth - 1 - d.index = 0 := by
        rw [hindex, hbefore.depth, Nat.sub_self]
      obtain ⟨b, hframes⟩ := hbinds.frames
      have hrenames := hbinds.renames
      rw [hplace] at hframes hrenames
      refine Above.adjusts ⟨?_, ?_⟩ hafter
      · rw [hrenames, List.drop_modify_of_lt _ _ _ _ (Nat.succ_pos n)]
        exact hu.renames
      · rw [hframes, List.drop_modify_of_lt _ _ _ _ (Nat.succ_pos n)]
        exact hu.frames

theorem Above.popped (hs : s.Leveled) (h : Above kinds (n + 1) s t) :
    Above kinds n s t.popped := by
  rcases popped_cases kinds (h.leveled hs) with
    ⟨hnil, -⟩ | ⟨f, frames, r, renames, hframes, hren, hadjusts⟩
  · -- the frames of `s` lie below, so this is not the module's own frame
    have hlength := h.frames.length_eq
    rw [List.length_drop, length_allFrames, length_allFrames, hnil, List.length_nil] at hlength
    omega
  · refine Above.adjusts ⟨?_, ?_⟩ hadjusts
    · have hrenames := h.renames
      rw [hren] at hrenames
      exact hrenames
    · have hbelow := h.frames
      rw [show t.allFrames = f :: (frames ++ [t.base]) by rw [allFrames, hframes]; rfl] at hbelow
      exact hbelow

theorem Op.apply_of_enters {enter : Op} (h : enter.enters?.isSome) (s : Scope) :
    ∃ kind, enter.apply s = s.push kind := by
  cases enter with
  | pushFunction name formals => exact ⟨_, rfl⟩
  | pushBlock => exact ⟨_, rfl⟩
  | pop | declareGlobal | change => cases h

/-- **What a balanced sequence leaves** of the frames below the one that it starts in. -/
theorem Balanced.above {ops : List Op} (hops : Balanced ops) (hs : s.Leveled)
    (hlocal : ∀ op ∈ ops, op.isLocal = true) (hkeeps : kinds = true → ∀ op ∈ ops, op.KeepsKinds)
    (h : Above kinds (n + 1) s t) : Above kinds (n + 1) s (t.runFrom ops) := by
  induction hops generalizing n t with
  | nil => exact h
  | change c _ ih =>
    rw [List.forall_mem_cons] at hlocal
    have hfirst := fun hk => hkeeps hk (.change c) List.mem_cons_self
    exact ih hlocal.2 (fun hk op hop => hkeeps hk op (.tail _ hop)) (h.change hs hlocal.1 hfirst)
  | declareGlobal name ty =>
    rw [List.forall_mem_cons] at hlocal
    cases hlocal.1
  | @bracket enter inside after henter _ _ ihinside ihafter =>
    obtain ⟨kind, hpush⟩ := Op.apply_of_enters henter t
    simp only [List.forall_mem_cons, List.forall_mem_append] at hlocal
    obtain ⟨-, hinside, -, hafter⟩ := hlocal
    have hrun : t.runFrom (enter :: (inside ++ .pop :: after)) =
        (((t.push kind).runFrom inside).popped).runFrom after := by
      show (enter.apply t).runFrom (inside ++ .pop :: after) = _
      rw [hpush, runFrom_append]
      rfl
    have hkeepsInside := fun hk op hop =>
      hkeeps hk op (.tail _ (List.mem_append_left _ hop))
    have hkeepsAfter := fun hk op hop =>
      hkeeps hk op (.tail _ (List.mem_append_right _ (.tail _ hop)))
    rw [hrun]
    exact ihafter hafter hkeepsAfter ((ihinside hinside hkeepsInside (h.push kind)).popped hs)

theorem Above.adjusts_of_zero (h : Above kinds 0 s t) : s.Adjusts kinds t := by
  obtain ⟨hrenames, hframes⟩ := h
  rw [List.drop_zero] at hrenames hframes
  have hlength := hframes.length_eq
  rw [length_allFrames, length_allFrames] at hlength
  have hsplit : List.Forall₂ (Frame.Adjusts kinds) s.frames t.frames := by
    have htake := List.forall₂_take s.frames.length hframes
    rw [allFrames, allFrames, List.take_left, Nat.succ.inj hlength, List.take_left] at htake
    exact htake
  have hbase : List.Forall₂ (Frame.Adjusts kinds) [s.base] [t.base] := by
    have hdrop := List.forall₂_drop s.frames.length hframes
    rw [allFrames, allFrames, List.drop_left, Nat.succ.inj hlength, List.drop_left] at hdrop
    exact hdrop
  cases hbase with
  | cons hbase _ => exact ⟨congrArg RenameTable.mk hrenames, hsplit, hbase⟩

/-- What happens inside a frame leaves the scope around it as it was, adjustments apart. -/
theorem adjusts_of_balanced (hs : s.Leveled) {enter : Op} (henter : enter.enters?.isSome)
    {inside : List Op} (hinside : Balanced inside) (hlocal : ∀ op ∈ inside, op.isLocal = true)
    (hkeeps : kinds = true → ∀ op ∈ inside, op.KeepsKinds) :
    s.Adjusts kinds (s.runFrom (enter :: (inside ++ [.pop]))) := by
  obtain ⟨kind, hpush⟩ := Op.apply_of_enters henter s
  have hstart : Above kinds 1 s (s.push kind) := ⟨rfl, forall₂_adjusts_refl _⟩
  have hrun : s.runFrom (enter :: (inside ++ [.pop])) = ((s.push kind).runFrom inside).popped := by
    show (enter.apply s).runFrom (inside ++ [.pop]) = _
    rw [hpush, runFrom_append]
    rfl
  rw [hrun]
  exact ((hinside.above hs hlocal hkeeps hstart).popped hs).adjusts_of_zero

/-- What a frame above the module's says of a name goes back to one declaration. -/
theorem exists_declaration_of_bound? {ops : List Op} {i : Nat} (hi : 1 ≤ i) {n : String}
    {b : Binding} (hb : (run ops).bound? i n = some b) :
    ∃ before op after ident, ops = before ++ op :: after ∧
      op.declares? (run before) = some ⟨i, n, ident⟩ ∧
      ∀ more, more <+: after →
        (run (before ++ op :: more)).declared? i n = some (b.outline false, some ident) := by
  have hempty : ({} : Scope).declared? i n = none := by
    obtain ⟨k, rfl⟩ : ∃ k, i = k + 1 := ⟨i - 1, by omega⟩
    rfl
  have hentry : (run ops).declared? i n = some (b.outline false, (run ops).spelled? i n) := by
    unfold declared?
    rw [hb]
    rfl
  obtain ⟨before, op, after, ident, rfl, hdeclares, hspelled, hstands⟩ :=
    exists_declaration (·.declared? i n) hempty (fun s op hs => declared?_apply op hs hi n) ops
      hentry
  refine ⟨before, op, after, ident, rfl, hdeclares, fun more hmore => ?_⟩
  have hfirst := hstands [] List.nil_prefix
  obtain ⟨b', hb', hpair⟩ := Option.map_eq_some_iff.mp hfirst
  have hsame := (Prod.mk.inj hpair).2
  rw [show (run (before ++ [op])).spelled? i n = some ident from hspelled] at hsame
  rw [hsame]
  exact hstands more hmore

/-- **The two stacks of a scope stay matched**, whatever operations lead to it, those included
that try to leave the module's frame. The table of renames has as many frames as the scope, one at
least. In every frame above the module's the names with a spelling are the names that are bound,
and their spellings are reserved there. So a look-up and the spelling of a name come from the same
frame; and above the module's frame they go back to the same declaration, which has stood since.

Whatever is done between entering a frame and leaving it, the spellings of all names are
afterwards what they were, and the same names are bound; only hoisted names and names of the module
must not be declared inside. Of the bindings nothing has changed but types, mutability and aliases,
as long as no kind is written to a binding directly. -/
theorem stacks_stay_matched (ops : List Op) :
    let s := run ops
    (s.renames.depth = s.depth ∧ 1 ≤ s.renames.depth) ∧
    (∀ (k : Nat) (f : Frame) (renames : NameMap String),
      s.frames[k]? = some f → s.renames.frames[k]? = some renames →
      (∀ n, (renames.get? n).isSome ↔ (f.get? n).isSome) ∧
        ∀ n ident, renames.get? n = some ident → ident ∈ f.idents) ∧
    (∀ name, s.OneDeclaration name) ∧
    (∀ i n b, 1 ≤ i → s.bound? i n = some b →
      ∃ before op after ident, ops = before ++ op :: after ∧
        op.declares? (run before) = some ⟨i, n, ident⟩ ∧
        ∀ more, more <+: after →
          (run (before ++ op :: more)).declared? i n = some (b.outline false, some ident)) ∧
    ∀ enter inside, enter.enters?.isSome → Balanced inside →
      (∀ op ∈ inside, op.isLocal = true) →
      let t := s.runFrom (enter :: (inside ++ [.pop]))
      (∀ name, t.ident name = s.ident name) ∧ s.Adjusts false t ∧
        ((∀ op ∈ inside, op.KeepsKinds) → s.Adjusts true t) := by
  intro s
  have hlevel : s.Leveled := run_leveled ops
  have hmatched : s.Matched := run_matched ops
  have hdepth : s.renames.depth = s.depth := hlevel.trans (length_allFrames s)
  refine ⟨⟨hdepth, ?_⟩, fun k f renames hf hrenames => ?_, hmatched.oneDeclaration hlevel,
    fun i n b hi hb => ?_, ?_⟩
  · rw [hdepth]
    exact Nat.succ_pos _
  · have hk := (List.getElem?_eq_some_iff.mp hf).1
    have hall : s.allFrames[k]? = some f := by
      rw [allFrames, List.getElem?_append_left hk, hf]
    obtain ⟨hmatches, hspelled⟩ := hmatched k f renames hall hrenames
    exact ⟨fun n => ⟨hmatches.bound n, hspelled hk n⟩, hmatches.reserved⟩
  · exact exists_declaration_of_bound? hi hb
  · intro enter inside henter hinside hlocal t
    have hadjusts : s.Adjusts false t :=
      adjusts_of_balanced hlevel henter hinside hlocal Bool.noConfusion
    refine ⟨fun name => ?_, hadjusts, fun hkeeps =>
      adjusts_of_balanced hlevel henter hinside hlocal fun _ => hkeeps⟩
    unfold ident
    rw [hadjusts.renames]

/-- A block that declares the local variable `x` anew with another type, and tries to do more in a
block of its own. -/
def shadowingBlock : List Op :=
  [.change (.assign "x" .str false none), .pushBlock, .change (.setMutable "x"), .pop]

theorem stacks_stay_matched_shadowed :
    let s := run [.pop, .pushFunction "f" [], .change (.assign "x" .int false none)]
    let t := s.runFrom (.pushBlock :: (shadowingBlock ++ [.pop]))
    (s.runFrom (.pushBlock :: shadowingBlock)).ident "x" = "x__1" ∧
    (t.lookup "x").map Binding.ty = some (.union [.int, .str]) ∧
    (∀ name, t.ident name = s.ident name) ∧ s.Adjusts true t := by
  intro s t
  have hinner : Balanced [.change (.setMutable "x")] := .change _ .nil
  have hbalanced : Balanced shadowingBlock :=
    .change _ (.bracket (show Op.pushBlock.enters?.isSome from rfl) hinner .nil)
  have hkeeps : ∀ op ∈ shadowingBlock, op.KeepsKinds := by
    simp [shadowingBlock, Op.KeepsKinds, Change.KeepsKinds]
  obtain ⟨hident, -, hadjusts⟩ :=
    (stacks_stay_matched _).2.2.2.2 .pushBlock shadowingBlock rfl hbalanced (by decide +kernel)
  exact ⟨by decide +kernel, by decide +kernel, hident, hadjusts hkeeps⟩

/-- Two ways to take a look-up away from its declaration. A kind that is written in a block to a
binding outside is still there when the block is left. In the module's own frame a name keeps the
spelling that it was declared with when it is declared as a name of the module afterwards. -/
theorem stacks_part_otherwise :
    let s := run [.pushFunction "f" [], .change (.assign "x" .int false none)]
    let t := s.runFrom [.pushBlock, .change (.update "x" id (fun _ => .param) id id), .pop]
    let m := run [.change (.declareAs "x" "y" { ty := .int, slot := ⟨"y", .declared false⟩ }),
      .declareGlobal "x" .int]
    ((s.lookup "x").map Binding.kind = some .local ∧
      (t.lookup "x").map Binding.kind = some .param) ∧
    (m.lookup "x").map Binding.kind = some .global ∧ m.ident "x" = "y" := by
  decide +kernel

end Scope

end ClosureConversion
