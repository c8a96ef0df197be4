import ClosureConversion.Proofs.Emit.Entry
import ClosureConversion.Proofs.Emit.Heredity

/-! # What the frame of a closure is opened with -/

set_option autoImplicit false

namespace ClosureConversion

/-! ## The innermost frame -/

/-- Everything that the innermost frame binds is as `P` says. -/
def Scope.Innermost (P : String → Binding → Prop) (s : Scope) : Prop :=
  ∀ f ∈ s.allFrames.head?, ∀ n b, f.get? n = some b → P n b

namespace Scope

variable {P : String → Binding → Prop} {s t : Scope} {name : String}

theorem innermost_push (s : Scope) (kind : FrameKind) : (s.push kind).Innermost P := by
  intro f hf n b hb
  obtain rfl : { kind } = f := Option.some.inj hf
  change (NameMap.empty : NameMap Binding).get? n = some b at hb
  rw [NameMap.get?_empty] at hb
  cases hb

theorem Innermost.onInnermost (h : s.Innermost P) (change : Frame → Frame)
    (hchange : ∀ g : Frame, (∀ n b, g.get? n = some b → P n b) →
      ∀ n b, (change g).get? n = some b → P n b) : (s.onInnermost change).Innermost P := by
  intro f hf
  rw [allFrames_onInnermost, List.head?_modifyHead] at hf
  obtain ⟨g, hg, rfl⟩ := Option.map_eq_some_iff.mp hf
  exact hchange g (h g hg)

theorem Innermost.reserveIdent (h : s.Innermost P) (ident : String) :
    (s.reserveIdent ident).Innermost P :=
  h.onInnermost _ fun _ hg => hg

theorem Innermost.declareAs (h : s.Innermost P) (ident : String) {b : Binding} (hb : P name b) :
    (s.declareAs name ident b).Innermost P := by
  refine h.onInnermost (Frame.bind name ident b) fun g hg n b' hb' => ?_
  change (g.bindings.insert name b).get? n = some b' at hb'
  rw [NameMap.get?_insert] at hb'
  split at hb'
  · rename_i hname
    obtain rfl := Option.some.inj hb'
    exact hname ▸ hb
  · exact hg n b' hb'

/-- One frame after the binding of a name in it was changed. -/
theorem forall_modify {g : Frame} {change : Binding → Binding}
    (hg : ∀ n b, g.get? n = some b → P n b) (hchange : ∀ b, P name b → P name (change b)) :
    ∀ n b, ({ g with bindings := g.bindings.modify name change } : Frame).get? n = some b →
      P n b := by
  intro n b hb
  change (g.bindings.modify name change).get? n = some b at hb
  rw [NameMap.get?_modify] at hb
  split at hb
  · rename_i hname
    obtain ⟨b', hb', rfl⟩ := Option.map_eq_some_iff.mp hb
    subst hname
    exact hchange b' (hg name b' hb')
  · exact hg n b hb

theorem Innermost.modifyBinding {change : Binding → Binding} (h : s.Innermost P)
    (hchange : ∀ b, P name b → P name (change b)) : (s.modifyBinding name change).Innermost P := by
  unfold Scope.modifyBinding
  intro f hf
  rcases hframes : s.frames with _ | ⟨g, rest⟩
  · have hbase : ∀ n b, s.base.get? n = some b → P n b := h s.base (by rw [allFrames, hframes]; rfl)
    rw [hframes] at hf
    obtain rfl := Option.some.inj hf
    exact forall_modify hbase hchange
  · have hhead : ∀ n b, g.get? n = some b → P n b := h g (by rw [allFrames, hframes]; rfl)
    rw [hframes, modifyIn] at hf
    split at hf
    · -- a frame binds the name, and it may be the innermost one
      rename_i frames' hmod
      split at hmod
      · cases hmod
        obtain rfl := Option.some.inj hf
        exact forall_modify hhead hchange
      · obtain ⟨rest', -, rfl⟩ := Option.map_eq_some_iff.mp hmod
        obtain rfl := Option.some.inj hf
        exact hhead
    · rw [allFrames] at hf
      obtain rfl := Option.some.inj hf
      exact hhead

end Scope

/-! ## Computations that preserve it -/

/-- What a capture is bound to in the frame of the closure that holds it. -/
def Capture.binding (receiver : String) (x : Capture) : Binding :=
  { kind := .captured, slot := ⟨x.access receiver, .field (x.mode == .byReference)⟩, ty := x.ty,
    isMutable := x.mode == .byReference }

namespace Emit

variable {α β : Type} {P : String → Binding → Prop} {w : Settings}

/-- What the innermost frame binds is as `P` says afterwards, if it was before. -/
def Preserves (P : String → Binding → Prop) (x : Emit α) : Prop :=
  ∀ w c, c.scope.Innermost P → (x w c).2.scope.Innermost P

theorem Preserves.pure (a : α) : Preserves P (pure a : Emit α) := fun _ _ h => h

theorem Preserves.bind {x : Emit α} {f : α → Emit β} (hx : Preserves P x)
    (hf : ∀ a, Preserves P (f a)) : Preserves P (x >>= f) :=
  fun w c hc => snd_bind (hx w c hc) fun a c₁ _ hfirst => hf a w c₁ hfirst

theorem Preserves.sequential : Sequential (Preserves P) := ⟨.pure, .bind⟩

theorem claimIdent_preserves (base : String) : Preserves P (claimIdent base) :=
  fun _ _ h => h.reserveIdent _

theorem declareAs_preserves {name : String} (ident : String) {b : Binding} (hb : P name b) :
    Preserves P (declareAs name ident b) :=
  fun _ _ h => h.declareAs ident hb

theorem claimReceivers_preserves (shape : Shape) : Preserves P (claimReceivers shape) := by
  cases shape with
  | zeroCapture => exact .pure _
  | structCapture =>
    exact (claimIdent_preserves _).bind fun _ => (claimIdent_preserves _).bind fun _ => .pure _
  | recursiveSelfCapture => exact (claimIdent_preserves _).bind fun _ => .pure _

/-- Formals are declared as parameters. -/
theorem declareFormals_preserves (f : Function) (types : List Ty) (u : Usage)
    (hP : ∀ name b, b.kind = .param → P name b) : Preserves P (declareFormals f types u) := by
  refine Preserves.sequential.sequence fun x hx => ?_
  obtain ⟨p, -, rfl⟩ := List.mem_map.mp hx
  exact (claimIdent_preserves _).bind fun ident =>
    (declareAs_preserves ident (hP _ _ rfl)).bind fun _ => .pure _

/-- Planning a body says of formals how they are bound, and nothing of other names. -/
theorem planFunction_preserves (f : Function) (qualname : String) (formals : List Formal)
    (u : Usage) (hP : ∀ p ∈ formals, ∀ b copied isMutable, P p.name b →
      P p.name { b with slot := ⟨b.slot.ident, .formal copied⟩, isMutable }) :
    Preserves P (planFunction f qualname formals u) := by
  have hsettle : ∀ (ps : List Formal), (∀ p ∈ ps, ∃ q ∈ formals, q.name = p.name) →
      ∀ s : Scope, s.Innermost P → (ps.foldl settleFormal s).Innermost P := by
    intro ps
    induction ps with
    | nil => exact fun _ s hs => hs
    | cons p rest ih =>
      intro hps s hs
      rw [List.forall_mem_cons] at hps
      obtain ⟨q, hq, hname⟩ := hps.1
      refine ih hps.2 _ (hs.modifyBinding fun b hb => ?_)
      rw [← hname] at hb ⊢
      exact hP q hq b _ _ hb
  intro w c hc
  refine hsettle _ (fun p hp => ?_) c.scope hc
  obtain ⟨q, hq, rfl⟩ := List.mem_map.mp hp
  exact ⟨q, hq, rfl⟩

/-! ## Closures -/

/-- What the frame of a closure binds as captured is a capture, held by `receiver`; a handle has the
type of a closure. -/
structure Draft.Opens (d : Draft) (receiver n : String) (b : Binding) : Prop where
  captured : b.kind = .captured →
    ∃ x ∈ d.representation.captures.toList, x.name = n ∧ b = x.binding receiver
  handle : b.kind = .selfHandle → ∃ wrapper signature, b.ty = .closure wrapper signature

theorem Draft.opens_of_unpinned (d : Draft) (receiver n : String) {b : Binding}
    (hcaptured : b.kind ≠ .captured) (hhandle : b.kind ≠ .selfHandle) : d.Opens receiver n b :=
  ⟨fun h => absurd h hcaptured, fun h => absurd h hhandle⟩

theorem declareCaptures_opens (d : Draft) (receiver : Option String) :
    Preserves (d.Opens (receiver.getD "")) (declareCaptures d receiver) := by
  cases receiver with
  | none => exact .pure _
  | some r =>
    refine (Preserves.sequential.sequence fun x hx => ?_).bind fun _ => .pure _
    obtain ⟨c, hc, rfl⟩ := List.mem_map.mp hx
    exact declareAs_preserves _ ⟨fun _ => ⟨c, hc, rfl, rfl⟩, nofun⟩

theorem declareHandle_opens (d : Draft) (assumed : Option Bool) (selfParam : Option String)
    (receiver : String) : Preserves (d.Opens receiver) (declareHandle d assumed selfParam) := by
  unfold declareHandle
  split
  · exact declareAs_preserves _ ⟨nofun, fun _ => ⟨_, _, rfl⟩⟩
  · exact .pure _

/-- **What the frame of a closure is opened with.** -/
theorem enterClosure_opens (d : Draft) (assumed : Option Bool)
    (hown : d.representation.recursive = true →
      ∀ x ∈ d.representation.captures.toList, x.name ≠ d.function.name)
    {c : Context} (hc : ∀ P, c.scope.Innermost P) :
    ∃ receiver, (enterClosure d assumed w c).2.scope.Innermost (d.Opens receiver) := by
  unfold enterClosure
  rw [bind_apply]
  rcases hx : claimReceivers d.representation.shape w c with ⟨r, c₁⟩
  have hc₁ : ∀ P, c₁.scope.Innermost P := fun P => by
    have hpreserved := claimReceivers_preserves (P := P) d.representation.shape w c (hc P)
    rwa [hx] at hpreserved
  cases r with
  | error e => exact ⟨"", hc₁ _⟩
  | ok r =>
    let receiver := (r.1.or r.2).getD ""
    refine ⟨receiver, Preserves.bind (declareCaptures_opens d (r.1.or r.2)) (fun _ => ?_) w c₁
      (hc₁ _)⟩
    refine (declareHandle_opens d assumed r.2 receiver).bind fun _ => ?_
    refine (declareFormals_preserves _ _ _ fun name b hb => ?_).bind fun formals w c hc => ?_
    · exact d.opens_of_unpinned receiver name (by rw [hb]; exact nofun) (by rw [hb]; exact nofun)
    · dsimp only [bind_apply, scope, oracle, options]
      split
      · rename_i hrec
        refine hc.modifyBinding fun b hb => ⟨fun hcaptured => ?_, fun hhandle => ?_⟩
        · obtain ⟨x, hx, hname, -⟩ := hb.captured hcaptured
          exact absurd hname (hown hrec x hx)
        · obtain ⟨wrapper, signature, hty⟩ := hb.handle hhandle
          exact ⟨wrapper, _, by rw [hty]; rfl⟩
      · exact hc

end Emit

end ClosureConversion
