import ClosureConversion.Emit.Context

/-! # Layers -/

set_option autoImplicit false

namespace ClosureConversion

/-- One frame of a scope with its renames. -/
@[ext] structure Layer where
  kind : FrameKind
  slot? : String → Option Slot
  ident? : String → Option String

namespace Layer

def ofFrame (f : Frame) (renames : NameMap String) : Layer where
  kind := f.kind
  slot? n := (f.get? n).map Binding.slot
  ident? := renames.get?

/-- A layer that binds nothing. -/
def new (kind : FrameKind) : Layer := ⟨kind, fun _ => none, fun _ => none⟩

def isFunction (l : Layer) : Bool :=
  match l.kind with
  | .function _ _ => true
  | _ => false

def formals (l : Layer) : List String :=
  match l.kind with
  | .function _ formals => formals
  | _ => []

def Binds (l : Layer) (name : String) : Prop := (l.slot? name).isSome

def bind (name : String) (slot : Slot) (l : Layer) : Layer where
  kind := l.kind
  slot? n := if name = n then some slot else l.slot? n
  ident? n := if name = n then some slot.ident else l.ident? n

/-- Change how a name that is bound is introduced. -/
def settle (name : String) (form : SlotForm) (l : Layer) : Layer :=
  { l with slot? := fun n =>
      if name = n then (l.slot? n).map fun slot => ⟨slot.ident, form⟩ else l.slot? n }

/-- The layers of the innermost function; all layers if there is none. -/
def inner : List Layer → List Layer
  | [] => []
  | l :: rest => if l.isFunction then [l] else l :: inner rest

/-- The layers around the innermost function. -/
def outer : List Layer → List Layer
  | [] => []
  | l :: rest => if l.isFunction then rest else outer rest

theorem binds_bind {name n : String} {slot : Slot} {l : Layer} :
    (l.bind name slot).Binds n ↔ name = n ∨ l.Binds n := by
  unfold Binds bind
  by_cases h : name = n <;> simp [h]

theorem binds_settle {name n : String} {form : SlotForm} {l : Layer} :
    (l.settle name form).Binds n ↔ l.Binds n := by
  unfold Binds settle
  by_cases h : name = n <;> simp [h]

theorem isFunction_of_kind {l l' : Layer} (h : l'.kind = l.kind) :
    l'.isFunction = l.isFunction := by
  unfold isFunction
  rw [h]

/-- The innermost layer belongs to the innermost function, whatever its kind. -/
theorem head_mem_inner (l : Layer) (rest : List Layer) : l ∈ inner (l :: rest) := by
  rw [inner]
  split <;> exact List.mem_cons_self

theorem mem_inner_modifyHead {f : Layer → Layer} (hf : ∀ l, (f l).kind = l.kind)
    {layers : List Layer} {l : Layer} (h : l ∈ inner (layers.modifyHead f)) :
    l ∈ inner layers ∨ ∃ m ∈ inner layers, f m = l := by
  cases layers with
  | nil => cases h
  | cons a rest =>
    change l ∈ inner (f a :: rest) at h
    rw [inner, isFunction_of_kind (hf a)] at h
    rw [inner]
    split at h
    · rename_i hfun
      rw [if_pos hfun]
      exact .inr ⟨a, List.mem_singleton.mpr rfl, (List.mem_singleton.mp h).symm⟩
    · rename_i hblock
      rw [if_neg hblock]
      rcases List.mem_cons.mp h with rfl | hmem
      · exact .inr ⟨a, List.mem_cons_self, rfl⟩
      · exact .inl (List.mem_cons_of_mem a hmem)

/-- Every layer but the outermost belongs to the innermost function or lies around it. -/
theorem mem_inner_or_outer {layers : List Layer} {l : Layer} (h : l ∈ layers.dropLast) :
    l ∈ inner layers ∨ l ∈ (outer layers).dropLast := by
  induction layers with
  | nil => cases h
  | cons a rest ih =>
    rw [inner, outer]
    cases rest with
    | nil => cases h
    | cons b rest =>
      rw [List.dropLast_cons_cons, List.mem_cons] at h
      split
      · exact h.imp List.mem_singleton.mpr id
      · rcases h with rfl | hmem
        · exact .inl List.mem_cons_self
        · exact (ih hmem).imp_left (List.mem_cons_of_mem a)

end Layer

/-- Frames and renames, layer by layer. -/
def Layer.all (frames : List Frame) (renames : List (NameMap String)) : List Layer :=
  List.zipWith Layer.ofFrame frames renames

namespace Layer

variable {frames : List Frame} {renames : List (NameMap String)}

theorem length_all (h : renames.length = frames.length) :
    (all frames renames).length = frames.length := by
  rw [all, List.length_zipWith, h, Nat.min_self]

theorem map_kind_all (h : renames.length = frames.length) :
    (all frames renames).map kind = frames.map Frame.kind := by
  induction frames generalizing renames with
  | nil => rfl
  | cons f rest ih =>
    match renames, h with
    | r :: rs, h => exact congrArg (f.kind :: ·) (ih (Nat.succ.inj h))

theorem findSome?_ident_all (h : renames.length = frames.length) (n : String) :
    (all frames renames).findSome? (·.ident? n) = renames.findSome? (·.get? n) := by
  induction frames generalizing renames with
  | nil =>
    rw [List.length_eq_zero_iff.mp h]
    rfl
  | cons f rest ih =>
    match renames, h with
    | r :: rs, h =>
      rw [List.findSome?_cons, ← ih (Nat.succ.inj h)]
      exact List.findSome?_cons

theorem findSome?_inner_all (h : renames.length = frames.length) (n : String) :
    (inner (all frames renames)).findSome? (·.slot? n) =
      ((Scope.innerFrames frames).findSome? (·.get? n)).map Binding.slot := by
  induction frames generalizing renames with
  | nil => rfl
  | cons f rest ih =>
    match renames, h with
    | r :: rs, h =>
      have hkind : (ofFrame f r).isFunction = f.isFunction := rfl
      rw [all, List.zipWith_cons_cons, inner, Scope.innerFrames, hkind]
      cases hf : f.isFunction with
      | true => cases hget : f.get? n <;> simp [ofFrame, hget]
      | false =>
        cases hget : f.get? n with
        | none => simpa [ofFrame, hget, all] using ih (Nat.succ.inj h)
        | some b => simp [ofFrame, hget]

/-- Change the innermost frame and its renames together. -/
theorem all_modifyHead {f : Frame → Frame} {g : NameMap String → NameMap String}
    {change : Layer → Layer}
    (h : ∀ a r, ofFrame (f a) (g r) = change (ofFrame a r)) :
    all (frames.modifyHead f) (renames.modifyHead g) = (all frames renames).modifyHead change := by
  match frames, renames with
  | [], _ => rfl
  | _ :: _, [] => rfl
  | a :: _, r :: _ => exact congrArg (· :: _) (h a r)

/-- Change the innermost frame in a way that its layer does not show. -/
theorem all_modifyHead_left {f : Frame → Frame} (h : ∀ a r, ofFrame (f a) r = ofFrame a r) :
    all (frames.modifyHead f) renames = all frames renames := by
  match frames, renames with
  | [], _ => rfl
  | _ :: _, [] => rfl
  | a :: _, r :: _ => exact congrArg (· :: _) (h a r)

/-- Change the outermost frame in a way that its layer does not show. -/
theorem all_append_last {base base' : Frame} (h : ∀ r, ofFrame base' r = ofFrame base r) :
    all (frames ++ [base']) renames = all (frames ++ [base]) renames := by
  induction frames generalizing renames with
  | nil =>
    match renames with
    | [] => rfl
    | r :: _ => exact congrArg (· :: _) (h r)
  | cons f rest ih =>
    match renames with
    | [] => rfl
    | r :: _ => exact congrArg (ofFrame f r :: ·) ih

/-- A change of bindings that keeps their slots. -/
theorem ofFrame_modify {f : Frame} {name : String} {change : Binding → Binding}
    (h : ∀ b, (change b).slot = b.slot) (r : NameMap String) :
    ofFrame { f with bindings := f.bindings.modify name change } r = ofFrame f r := by
  ext n : 2
  · rfl
  · show ((f.bindings.modify name change).get? n).map Binding.slot =
      (f.bindings.get? n).map Binding.slot
    rw [NameMap.get?_modify]
    split
    · rw [Option.map_map]
      exact congrArg (Option.map · _) (funext h)
    · rfl
  · rfl

/-- The layers above the outermost one bind what their frames bind. -/
theorem exists_dropLast_all {base : Frame} (h : renames.length = (frames ++ [base]).length)
    {n : String} :
    (∃ f ∈ frames, (f.get? n).isSome) ↔
      ∃ l ∈ (all (frames ++ [base]) renames).dropLast, l.Binds n := by
  induction frames generalizing renames with
  | nil =>
    obtain ⟨r, rfl⟩ := List.length_eq_one_iff.mp h
    exact ⟨fun ⟨_, hf, _⟩ => absurd hf List.not_mem_nil,
      fun ⟨_, hl, _⟩ => absurd hl List.not_mem_nil⟩
  | cons f rest ih =>
    rcases renames with _ | ⟨r, _ | ⟨r', rs⟩⟩
    · cases h
    · simp at h
    · have hbinds : (ofFrame f r).Binds n ↔ (f.get? n).isSome := by
        unfold Binds ofFrame
        rw [Option.isSome_map]
      have hlast : (all (f :: rest ++ [base]) (r :: r' :: rs)).dropLast =
          ofFrame f r :: (all (rest ++ [base]) (r' :: rs)).dropLast := by
        cases rest <;> rfl
      simp only [hlast, List.mem_cons, exists_eq_or_imp, hbinds, ih (Nat.succ.inj h)]

/-- Every frame has its layer. -/
theorem exists_mem_all (h : renames.length = frames.length) {f : Frame} (hf : f ∈ frames) :
    ∃ r, ofFrame f r ∈ all frames renames := by
  induction frames generalizing renames with
  | nil => cases hf
  | cons g rest ih =>
    match renames, h with
    | r :: rs, h =>
      rcases List.mem_cons.mp hf with rfl | hmem
      · exact ⟨r, List.mem_cons_self⟩
      · obtain ⟨r', hr'⟩ := ih (Nat.succ.inj h) hmem
        exact ⟨r', List.mem_cons_of_mem _ hr'⟩

theorem all_modifyIn {frames' : List Frame} {name : String} {change : Binding → Binding}
    (h : ∀ b, (change b).slot = b.slot)
    (hmod : Scope.modifyIn name change frames = some frames') :
    (∀ base renames, all (frames' ++ base) renames = all (frames ++ base) renames) ∧
      frames'.length = frames.length := by
  induction frames generalizing frames' with
  | nil => cases hmod
  | cons g rest ih =>
    rw [Scope.modifyIn] at hmod
    split at hmod
    · cases hmod
      refine ⟨fun base renames => ?_, rfl⟩
      match renames with
      | [] => rfl
      | r :: rs => exact congrArg (· :: _) (ofFrame_modify h r)
    · obtain ⟨rest', hrest, rfl⟩ := Option.map_eq_some_iff.mp hmod
      obtain ⟨hall, hlen⟩ := ih hrest
      refine ⟨fun base renames => ?_, congrArg (· + 1) hlen⟩
      match renames with
      | [] => rfl
      | r :: rs => exact congrArg (ofFrame g r :: ·) (hall base rs)

end Layer

namespace Scope

/-- The layers of a scope, innermost first. -/
def layers (s : Scope) : List Layer := Layer.all s.allFrames s.renames.frames

/-- There are as many frames of renames as there are frames. -/
def Leveled (s : Scope) : Prop := s.renames.frames.length = s.allFrames.length

/-- Two scopes that say the same of names, types and aliases apart. -/
structure SameLayers (s t : Scope) : Prop where
  layers : t.layers = s.layers
  frames : t.frames.length = s.frames.length
  renames : t.renames.frames.length = s.renames.frames.length

variable {s t : Scope}

theorem SameLayers.refl (s : Scope) : SameLayers s s := ⟨rfl, rfl, rfl⟩

theorem SameLayers.trans {u : Scope} (h : SameLayers s t) (h' : SameLayers t u) :
    SameLayers s u :=
  ⟨h'.layers.trans h.layers, h'.frames.trans h.frames, h'.renames.trans h.renames⟩

theorem SameLayers.symm (h : SameLayers s t) : SameLayers t s :=
  ⟨h.layers.symm, h.frames.symm, h.renames.symm⟩

theorem length_allFrames (s : Scope) : s.allFrames.length = s.frames.length + 1 := by
  rw [allFrames, List.length_append, List.length_singleton]

theorem SameLayers.leveled (h : SameLayers s t) (hs : s.Leveled) : t.Leveled := by
  unfold Leveled at *
  rw [h.renames, hs, length_allFrames, length_allFrames, h.frames]

theorem length_layers (h : s.Leveled) : s.layers.length = s.frames.length + 1 := by
  rw [layers, Layer.length_all h, length_allFrames]

theorem map_kind_layers (h : s.Leveled) :
    s.layers.map Layer.kind = s.allFrames.map Frame.kind :=
  Layer.map_kind_all h

/-! ## Look-ups -/

theorem lookupInFunction_slot (h : s.Leveled) (n : String) :
    (s.lookupInFunction n).map Binding.slot =
      (Layer.inner s.layers).findSome? (·.slot? n) :=
  (Layer.findSome?_inner_all h n).symm

theorem resolve?_eq (h : s.Leveled) (n : String) :
    s.renames.resolve? n = s.layers.findSome? (·.ident? n) :=
  (Layer.findSome?_ident_all h n).symm

/-- A name is bound within the innermost function if one of its layers binds it. -/
theorem lookupInFunction_isSome (h : s.Leveled) {n : String} :
    (s.lookupInFunction n).isSome ↔ ∃ l ∈ Layer.inner s.layers, l.Binds n := by
  rw [← Option.isSome_map (f := Binding.slot), lookupInFunction_slot h, List.findSome?_isSome_iff]
  rfl

/-! ## Changes that no layer shows -/

theorem allFrames_onInnermost (f : Frame → Frame) (s : Scope) :
    (s.onInnermost f).allFrames = s.allFrames.modifyHead f := by
  unfold onInnermost allFrames
  split
  · rename_i hframes
    rw [hframes]
    rfl
  · rename_i hframes
    rw [hframes]
    rfl

theorem frames_onInnermost (f : Frame → Frame) (s : Scope) :
    (s.onInnermost f).frames.length = s.frames.length := by
  unfold onInnermost
  split
  · rfl
  · rename_i hframes
    rw [hframes]
    rfl

theorem renames_onInnermost (f : Frame → Frame) (s : Scope) :
    (s.onInnermost f).renames = s.renames := by
  unfold onInnermost
  split <;> rfl

/-- A change of the innermost frame that keeps kind and slots. -/
theorem sameLayers_onInnermost {f : Frame → Frame}
    (h : ∀ a r, Layer.ofFrame (f a) r = Layer.ofFrame a r) (s : Scope) :
    SameLayers s (s.onInnermost f) := by
  refine ⟨?_, frames_onInnermost f s, by rw [renames_onInnermost]⟩
  rw [layers, layers, allFrames_onInnermost, renames_onInnermost]
  exact Layer.all_modifyHead_left h

theorem sameLayers_reserveIdent (s : Scope) (ident : String) :
    SameLayers s (s.reserveIdent ident) :=
  sameLayers_onInnermost (fun _ _ => by rfl) s

theorem sameLayers_recordShadow (s : Scope) (name : String) (ty : Ty) :
    SameLayers s (s.recordShadow name ty) :=
  sameLayers_onInnermost (fun _ _ => by rfl) s

theorem sameLayers_reserveModuleIdent (s : Scope) (ident : String) :
    SameLayers s (s.reserveModuleIdent ident) :=
  ⟨Layer.all_append_last fun _ => rfl, rfl, rfl⟩

/-- A change of bindings that keeps their slots. -/
theorem sameLayers_modifyBinding {change : Binding → Binding}
    (h : ∀ b, (change b).slot = b.slot) (s : Scope) (name : String) :
    SameLayers s (s.modifyBinding name change) := by
  unfold modifyBinding
  split
  · rename_i frames hmod
    obtain ⟨hall, hlen⟩ := Layer.all_modifyIn h hmod
    exact ⟨hall [s.base] s.renames.frames, hlen, rfl⟩
  · exact ⟨Layer.all_append_last (Layer.ofFrame_modify h), rfl, rfl⟩

theorem sameLayers_widen (s : Scope) (name : String) (ty : Ty) :
    SameLayers s (s.widen name ty) := by
  unfold widen
  split
  · exact sameLayers_modifyBinding (fun _ => by rfl) s name
  · exact .refl s

theorem sameLayers_foldl_widen (shadowed : List (String × Ty)) (s : Scope) :
    SameLayers s (shadowed.foldl (fun s e => s.widen e.1 e.2) s) := by
  induction shadowed generalizing s with
  | nil => exact .refl s
  | cons e rest ih => exact (sameLayers_widen s e.1 e.2).trans (ih _)

/-! ## Frames -/

theorem layers_push (s : Scope) (kind : FrameKind) :
    (s.push kind).layers = Layer.new kind :: s.layers := rfl

theorem leveled_push (h : s.Leveled) (kind : FrameKind) : (s.push kind).Leveled :=
  congrArg (· + 1) h

theorem exists_pop (h : s.frames ≠ []) : ∃ left, s.pop = .ok left := by
  unfold pop
  split
  · rename_i hnil
    exact absurd hnil h
  · dsimp only
    split
    · exact ⟨_, rfl⟩
    · exact ⟨_, rfl⟩

/-- Leaving a frame takes its layer away; what it widens shows in no layer. -/
theorem pop_layers (h : s.Leveled) {left : Left} (hpop : s.pop = .ok left) :
    s.frames ≠ [] ∧ left.scope.layers = s.layers.tail ∧ left.scope.Leveled := by
  unfold pop at hpop
  split at hpop
  · cases hpop
  · rename_i f frames hframes
    refine ⟨by rw [hframes]; exact List.cons_ne_nil f frames, ?_⟩
    unfold Leveled at h
    rw [length_allFrames, hframes] at h
    rcases hren : s.renames.frames with _ | ⟨r, _ | ⟨r', rest⟩⟩
    · rw [hren] at h
      cases h
    · rw [hren] at h
      cases h
    · have hpopped : s.renames.pop = ⟨r' :: rest⟩ := by
        unfold RenameTable.pop RenameTable.pop?
        rw [hren]
      have hlayers : ({ s with frames, renames := s.renames.pop } : Scope).layers =
          s.layers.tail := by
        rw [layers, layers, allFrames, allFrames, hframes, hren, hpopped]
        rfl
      have hlevel : ({ s with frames, renames := s.renames.pop } : Scope).Leveled := by
        unfold Leveled
        rw [length_allFrames, hpopped]
        rw [hren] at h
        exact Nat.succ.inj h
      dsimp only at hpop
      split at hpop
      · cases hpop
        have hsame := sameLayers_foldl_widen f.shadowed { s with frames, renames := s.renames.pop }
        exact ⟨hsame.layers.trans hlayers, hsame.leveled hlevel⟩
      · cases hpop
        exact ⟨hlayers, hlevel⟩

/-! ## Declarations -/

theorem ofFrame_bind (f : Frame) (r : NameMap String) (name : String) {ident : String}
    {b : Binding} (hident : b.slot.ident = ident) :
    Layer.ofFrame (f.bind name ident b) (r.insert name ident) =
      (Layer.ofFrame f r).bind name b.slot := by
  subst hident
  ext n : 2
  · rfl
  · show ((f.bindings.insert name b).get? n).map Binding.slot = _
    rw [NameMap.get?_insert]
    by_cases h : name = n <;> simp [Layer.bind, Layer.ofFrame, Frame.get?, h]
  · exact NameMap.get?_insert r name n b.slot.ident

theorem insert_frames (h : s.Leveled) (name ident : String) :
    (s.renames.insert name ident).frames =
      s.renames.frames.modifyHead (·.insert name ident) := by
  unfold RenameTable.insert
  split
  · rename_i hnil
    unfold Leveled at h
    rw [hnil, length_allFrames] at h
    cases h
  · rename_i hcons
    rw [hcons]
    rfl

/-- A declaration binds in the innermost layer. -/
theorem layers_declareAs (h : s.Leveled) (name : String) {ident : String} {b : Binding}
    (hident : b.slot.ident = ident) :
    (s.declareAs name ident b).layers = s.layers.modifyHead (Layer.bind name b.slot) := by
  rw [layers, layers]
  show Layer.all (s.onInnermost (Frame.bind name ident b)).allFrames
    (s.renames.insert name ident).frames = _
  rw [allFrames_onInnermost, insert_frames h]
  exact Layer.all_modifyHead fun f r => ofFrame_bind f r name hident

theorem leveled_declareAs (h : s.Leveled) (name ident : String) (b : Binding) :
    (s.declareAs name ident b).Leveled := by
  unfold Leveled
  show (s.renames.insert name ident).frames.length =
    (s.onInnermost (Frame.bind name ident b)).allFrames.length
  rw [allFrames_onInnermost, insert_frames h, List.length_modifyHead, List.length_modifyHead]
  exact h

/-- Introduce the binding of a name in the innermost layer in another way. -/
theorem layers_modifyBinding_head {l : Layer} {rest : List Layer} {name : String}
    {form : SlotForm} {change : Binding → Binding}
    (hchange : ∀ b, (change b).slot = ⟨b.slot.ident, form⟩) (hlevel : s.Leveled)
    (hlayers : s.layers = l :: rest) (hbinds : l.Binds name) :
    (s.modifyBinding name change).layers = l.settle name form :: rest ∧
      (s.modifyBinding name change).Leveled := by
  have hsettle : ∀ (f : Frame) r, Layer.ofFrame f r = l →
      Layer.ofFrame { f with bindings := f.bindings.modify name change } r =
        l.settle name form := by
    rintro f r rfl
    ext n : 2
    · rfl
    · show ((f.bindings.modify name change).get? n).map Binding.slot =
        if name = n then ((f.bindings.get? n).map Binding.slot).map fun slot => ⟨slot.ident, form⟩
        else (f.bindings.get? n).map Binding.slot
      rw [NameMap.get?_modify]
      split
      · rw [Option.map_map, Option.map_map]
        exact congrArg (Option.map · _) (funext hchange)
      · rfl
    · rfl
  rcases hren : s.renames.frames with _ | ⟨r, rs⟩
  · rw [layers, hren, Layer.all, List.zipWith_nil_right] at hlayers
    cases hlayers
  · unfold layers allFrames at hlayers ⊢
    unfold Leveled allFrames at hlevel ⊢
    rcases hframes : s.frames with _ | ⟨f, frames⟩
    · -- only the module's frame is there
      rw [hframes, hren] at hlayers hlevel
      obtain ⟨hl, hrest⟩ := List.cons.inj hlayers
      simp only [modifyBinding, modifyIn, hframes, hren]
      exact ⟨by rw [← hrest]; exact congrArg (· :: _) (hsettle s.base r hl), hlevel⟩
    · rw [hframes, hren] at hlayers hlevel
      obtain ⟨hl, hrest⟩ := List.cons.inj hlayers
      have hget : (f.get? name).isSome := by
        rw [← hl] at hbinds
        unfold Layer.Binds Layer.ofFrame at hbinds
        rwa [Option.isSome_map] at hbinds
      simp only [modifyBinding, modifyIn, hframes, hren, hget, if_true]
      exact ⟨by rw [← hrest]; exact congrArg (· :: _) (hsettle f r hl), hlevel⟩

theorem insertAt_eq_insert (h : s.Leveled) (name ident : String) :
    s.renames.insertAt (s.depth - 1) name ident = s.renames.insert name ident := by
  have hdepth : s.renames.depth = s.depth := h.trans (length_allFrames s)
  have hpos : 0 < s.depth := Nat.succ_pos _
  have hindex : s.renames.depth - 1 - (s.depth - 1) = 0 := by omega
  unfold RenameTable.insertAt
  rw [if_pos (by omega), hindex]
  rcases hren : s.renames.frames with _ | ⟨r, rest⟩
  · rw [RenameTable.depth, hren] at hdepth
    exact absurd hdepth (Nat.ne_of_lt hpos)
  · rw [RenameTable.insert, hren]
    rfl

/-- In a function's own frame, outside all blocks, a hoisted name is declared like any other. -/
theorem declareInFunction_eq_declareAs (h : s.Leveled)
    (hfun : ∀ f ∈ s.frames.head?, f.isFunction) (name ident : String) (b : Binding) :
    s.declareInFunction name ident b = s.declareAs name ident b := by
  have hrenames := insertAt_eq_insert h name ident
  unfold declareInFunction declareAs
  rcases hframes : s.frames with _ | ⟨f, frames⟩
  · simp only [onFunction, hframes, List.findIdx?_nil, List.any_nil, Bool.false_eq_true,
      if_false, hrenames]
  · have hf : f.isFunction = true := hfun f (by rw [hframes]; rfl)
    have hindex : functionStart (f :: frames) = s.depth - 1 := by
      rw [functionStart, if_pos hf, depth, hframes]
      rfl
    simp only [onFunction, onInnermost, hframes, List.findIdx?_cons, hf, List.any_cons,
      Bool.true_or, if_true, hindex, hrenames, List.modify_zero_cons]

theorem isFunction_of_layers {l : Layer} {rest : List Layer} (hlayers : s.layers = l :: rest)
    (hfun : l.isFunction) : ∀ f ∈ s.frames.head?, f.isFunction := by
  intro f hf
  rcases hframes : s.frames with _ | ⟨g, frames⟩
  · rw [hframes] at hf
    cases hf
  · rw [hframes] at hf
    obtain rfl : g = f := Option.some.inj hf
    rw [layers, allFrames, hframes] at hlayers
    rcases hren : s.renames.frames with _ | ⟨r, rs⟩
    · rw [hren] at hlayers
      cases hlayers
    · rw [hren] at hlayers
      obtain ⟨rfl, -⟩ := List.cons.inj hlayers
      exact hfun

/-- Look-ups in the frames above the module's. -/
theorem exists_frame_iff (h : s.Leveled) {n : String} :
    (∃ f ∈ s.frames, (f.get? n).isSome) ↔ ∃ l ∈ s.layers.dropLast, l.Binds n :=
  Layer.exists_dropLast_all h

end Scope

namespace Assignment

variable {s t : Scope}

theorem plan_shadow {name ident : String} {ty : Ty}
    (h : (plan s name ty).resolution = .shadow ident) : (plan s name ty).ident = ident := by
  unfold plan at h ⊢
  dsimp only at h ⊢
  rw [h]

/-- An assignment to the variable that there is goes to what the name stands for. -/
theorem ident_of_reuse {name : String} {ty : Ty} (h : (plan s name ty).resolution = .reuse) :
    (plan s name ty).ident = s.ident name := by
  change s.resolve name ty = .reuse at h
  simp only [plan, h]

theorem resolution_of_not_declares {a : Assignment} (h : a.declares = false) :
    a.resolution = .reuse := by
  unfold declares at h
  split at h
  · assumption
  · cases h

theorem layers_bind (ht : t.Leveled) (name : String) (ty : Ty) (isMutable : Bool) :
    let a := plan s name ty
    let u := a.bind t isMutable
    u.Leveled ∧ u.layers =
      if a.declares then t.layers.modifyHead (Layer.bind name ⟨a.ident, .declared isMutable⟩)
      else t.layers := by
  intro a u
  rcases hres : a.resolution with _ | _ | ident
  · have hu : u = t.declareAs name a.ident
        { ty := a.ty, slot := ⟨a.ident, .declared isMutable⟩, isMutable } := bind_of_fresh hres
    rw [hu, declares, hres]
    exact ⟨Scope.leveled_declareAs ht .., Scope.layers_declareAs ht name rfl⟩
  · have hsame : Scope.SameLayers t u := by
      rw [show u = _ from bind_of_reuse hres]
      exact Scope.sameLayers_modifyBinding (fun _ => by rfl) t a.name
    rw [declares, hres]
    exact ⟨hsame.leveled ht, hsame.layers⟩
  · have hident : a.ident = ident := plan_shadow hres
    have hsame : Scope.SameLayers (t.declareAs name ident
        { ty := a.ty, slot := ⟨ident, .declared isMutable⟩, isMutable }) u := by
      rw [show u = _ from bind_of_shadow hres]
      split
      · exact Scope.sameLayers_recordShadow ..
      · exact .refl _
    rw [declares, hres, hsame.layers, hident]
    exact ⟨hsame.leveled (Scope.leveled_declareAs ht ..), Scope.layers_declareAs ht name rfl⟩

/-- Carrying out an assignment binds its name if it declares a variable, and changes no layer
otherwise. -/
theorem layers_commit (ht : t.Leveled) (name : String) (ty : Ty) (isMutable : Bool)
    (source : Option String) :
    let a := plan s name ty
    let u := a.commit t isMutable source
    u.Leveled ∧ u.layers =
      if a.declares then t.layers.modifyHead (Layer.bind name ⟨a.ident, .declared isMutable⟩)
      else t.layers := by
  intro a u
  obtain ⟨hlevel, hlayers⟩ := layers_bind (s := s) ht name ty isMutable
  have hsame : Scope.SameLayers (a.bind t isMutable) u := by
    obtain ⟨link, hu⟩ := a.commit_eq t isMutable source
    rw [show u = _ from hu]
    exact Scope.sameLayers_modifyBinding (fun _ => by rfl) _ name
  exact ⟨hsame.leveled hlevel, hsame.layers.trans hlayers⟩

end Assignment

end ClosureConversion
