import ClosureConversion.Proofs.Emit.Composed
import ClosureConversion.Proofs.Emit.Written

/-! # Before the `finally` part -/

set_option autoImplicit false

namespace ClosureConversion

/-! ## Exits between two contexts -/

namespace Context

/-- What was noted on the way from `c` to `c'`, the latest first. -/
def notesSince (c c' : Context) : List Note :=
  c'.current.notes.take (c'.current.notes.length - c.current.notes.length)

/-- An exit was noted on the way from `c` to `c'` that leaves whatever was begun in `c`. -/
def Escaped (c c' : Context) : Prop := ∃ e, Note.exit e ∈ c.notesSince c' ∧ e.Leaves c.current

variable {k : Latitude} {c c₁ c₂ d d₁ : Context}

theorem notesSince_eq {new : List Note} (h : c₁.current.notes = new ++ c.current.notes) :
    c.notesSince c₁ = new := by
  rw [notesSince, h, List.length_append, Nat.add_sub_cancel, List.take_left]

theorem escaped_congr (hstart : d.current = c.current) (hend : d₁.current = c₁.current) :
    d.Escaped d₁ ↔ c.Escaped c₁ := by
  unfold Escaped notesSince
  rw [hstart, hend]

namespace Passes

theorem notes_eq (h : c.Passes k c₁) :
    c₁.current.notes = c.notesSince c₁ ++ c.current.notes := by
  obtain ⟨new, hnew, -⟩ := h.notes
  rw [notesSince_eq hnew, hnew]

theorem allowed (h : c.Passes k c₁) {e : Exit} (he : .exit e ∈ c.notesSince c₁) :
    e.Allowed k c.current := by
  obtain ⟨new, hnew, hallowed⟩ := h.notes
  rw [notesSince_eq hnew] at he
  exact hallowed e he

theorem leaves_iff (h : c.Passes k c₁) (e : Exit) : e.Leaves c₁.current ↔ e.Leaves c.current := by
  cases e with
  | failing fault _ | raising fault _ =>
    show fault.catches.length ≤ c₁.current.catches.length ↔
      fault.catches.length ≤ c.current.catches.length
    rw [h.catches]
  | result => exact Iff.rfl
  | jump loops _ =>
    show loops ≤ c₁.current.loops ↔ loops ≤ c.current.loops
    rw [h.loops]

/-- What leaves two computations in a row leaves one of them. -/
theorem escaped_trans (h : c.Passes k c₁) (h' : c₁.Passes k c₂) :
    c.Escaped c₂ ↔ c.Escaped c₁ ∨ c₁.Escaped c₂ := by
  have hboth : c.notesSince c₂ = c₁.notesSince c₂ ++ c.notesSince c₁ := by
    refine notesSince_eq ?_
    rw [h'.notes_eq, h.notes_eq, List.append_assoc]
  constructor
  · rintro ⟨e, he, hleaves⟩
    rw [hboth] at he
    rcases List.mem_append.mp he with hlater | hfirst
    · exact .inr ⟨e, hlater, (h.leaves_iff e).mpr hleaves⟩
    · exact .inl ⟨e, hfirst, hleaves⟩
  · rintro (⟨e, he, hleaves⟩ | ⟨e, he, hleaves⟩)
    · exact ⟨e, hboth ▸ List.mem_append_right _ he, hleaves⟩
    · exact ⟨e, hboth ▸ List.mem_append_left _ he, (h.leaves_iff e).mp hleaves⟩

end Passes

/-- Nothing leaves where no exit was noted. -/
theorem not_escaped_of_notes {new : List Note} (h : c₁.current.notes = new ++ c.current.notes)
    (hnew : ∀ n ∈ new, n.exit? = none) : ¬ c.Escaped c₁ := by
  rintro ⟨e, he, -⟩
  rw [notesSince_eq h] at he
  cases hnew _ he

theorem not_escaped_of_same (h : c₁.current = c.current) : ¬ c.Escaped c₁ := by
  have hnone : c₁.current.notes = [] ++ c.current.notes := by
    rw [h, List.nil_append]
  exact not_escaped_of_notes hnone fun n hn => by cases hn

end Context

namespace Emit

variable {α : Type} {w : Settings} {c c' : Context}

/-- **Control does not leave a guarded body**: its errors go to the block that is written for it. -/
theorem Passes.not_escaped_catching {x : Emit α} (hx : Passes (.held false) x)
    (target : CatchTarget) : ¬ c.Escaped (Emit.catching target x w c).2 := by
  rintro ⟨e, he, hleaves⟩
  let inside : Context :=
    { c with current := { c.current with catches := target :: c.current.catches } }
  have hallowed : e.Allowed (.held false) inside.current := (hx w inside).allowed he
  cases e with
  | failing fault _ | raising fault _ =>
    have hlength := List.IsSuffix.length_le hallowed
    have hcons : inside.current.catches.length = c.current.catches.length + 1 := rfl
    have hleaves : fault.catches.length ≤ c.current.catches.length := hleaves
    omega
  | result => cases hallowed
  | jump loops _ =>
    have hleaves : loops ≤ c.current.loops := hleaves
    rcases hallowed with hlt | ⟨-, hne⟩
    · have hlt : c.current.loops < loops := hlt
      omega
    · exact hne rfl

/-- An error that is raised where it stands leaves. -/
theorem errorExit_escaped (op : Operation) (error : String) (out : Buffer) :
    c.Escaped (errorExit op error out w c).2 := by
  rw [errorExit_eq]
  let exit := Exit.raising ⟨op, c.current.catches⟩ error
  have hnotes : (c.faulted op (.raising · error)).current.notes =
    [.exit exit] ++ c.current.notes := rfl
  refine ⟨exit, ?_, Exit.leaves_of_fault rfl rfl⟩
  rw [Context.notesSince_eq hnotes]
  exact List.mem_singleton_self _

theorem reraise_escaped (payload : String) (first : Bool) (out : Buffer) :
    c.Escaped (reraise payload first out w c).2 := by
  unfold reraise
  split
  · exact errorExit_escaped .rethrown payload out
  · have hescaped := errorExit_escaped (w := w) (c := c) .rethrown payload
      (out.line "\x7d else \x7b").indent
    rw [bind_apply]
    rcases hexit : errorExit .rethrown payload (out.line "\x7d else \x7b").indent w c with ⟨r, c₁⟩
    rw [hexit] at hescaped
    cases r <;> exact hescaped

/-! ## Handlers -/

/-- The handlers up to the first that takes every error; the result says whether there is one. -/
def caught (payload : String) : List Handler → Bool → Buffer → Emit (Buffer × Bool)
  | [], _, out => pure (out, false)
  | ⟨kind, name, body⟩ :: hs, first, out => do
    let test := handlerTest? kind payload
    let out := out.line (handlerHeader test first)
    let out ← inBlock do
      let out ← bindHandler name body payload out.indent
      let out ← stmts body out
      return out.dedent
    match test with
    | none => do
      undecided (Handler.choices hs)
      return (out, true)
    | some _ => caught payload hs false out

/-- **The handlers up to the first that takes every error, then the error raised again** if there
is none. -/
theorem handlers_eq (payload : String) (hs : List Handler) (first : Bool) (out : Buffer) :
    handlers payload hs first out = caught payload hs first out >>= fun p =>
      if p.2 then pure (p.1.line "\x7d") else reraise payload (first && hs.isEmpty) p.1 := by
  induction hs generalizing first out with
  | nil =>
    rw [handlers, caught, List.isEmpty_nil, Bool.and_true]
    rfl
  | cons h hs ih =>
    obtain ⟨kind, name, body⟩ := h
    rw [handlers, caught, bind_assoc, List.isEmpty_cons, Bool.and_false]
    congr 1
    funext out
    cases handlerTest? kind payload with
    | none =>
      dsimp only
      rw [bind_assoc]
      rfl
    | some test => simpa only [Bool.false_and] using ih false out

theorem caught_composed {k : Latitude} (payload : String) (hs : List Handler) (first : Bool)
    (out : Buffer) (h : k.Permits (Handler.anyLeaves · hs)) :
    Composed k (caught payload hs first out) := by
  induction hs generalizing first out with
  | nil => exact .pure _
  | cons handler hs ih =>
    obtain ⟨kind, name, body⟩ := handler
    simp only [Handler.anyLeaves, Latitude.permits_or] at h
    rw [caught]
    refine .bind (.inFrame ?_) fun out => ?_
    · refine .bind (.edits (bindHandler_edits name body payload _)) fun out => ?_
      exact (stmts_composed body out h.1).bind fun _ => .pure _
    · split
      · exact .bind (.edits (undecided_edits _)) fun _ => .pure _
      · exact ih false out h.2

theorem caught_eq_ok {payload : String} {hs : List Handler} {first all : Bool} {out out' : Buffer}
    (h : caught payload hs first out w c = (.ok (out', all), c')) :
    all = false ↔ ∀ handler ∈ hs, (handlerTest? handler.kind payload).isSome := by
  induction hs generalizing first out c with
  | nil =>
    cases h
    simp
  | cons handler hs ih =>
    obtain ⟨kind, name, body⟩ := handler
    rw [caught] at h
    obtain ⟨out₁, c₁, -, h⟩ := bind_eq_ok h
    cases htest : handlerTest? kind payload with
    | none =>
      rw [htest] at h
      cases h
      simp [htest]
    | some test =>
      rw [htest] at h
      rw [ih h]
      simp [htest]

/-- **How control leaves the handlers**: in the body of one of them, or because none takes every
error. -/
theorem handlers_escaped_iff {payload : String} {hs : List Handler} {text : Buffer}
    (hleaves : Handler.anyLeaves false hs = false)
    (h : handling payload (handlers payload hs true {}) w c = (.ok text, c')) :
    c.Escaped c' ↔ (∀ handler ∈ hs, (handlerTest? handler.kind payload).isSome) ∨
      c.Escaped (handling payload (caught payload hs true {}) w c).2 := by
  let held : Context := { c with current := { c.current with
    handlerErrors := payload :: c.current.handlerErrors } }
  obtain ⟨c₂, hinside, rfl⟩ := handling_eq_ok h
  rw [handlers_eq] at hinside
  obtain ⟨⟨out₁, all⟩, c₁, hcaught, hrest⟩ := bind_eq_ok hinside
  have hall := caught_eq_ok hcaught
  have hcomposed : Composed (.held false) (caught payload hs true {}) :=
    caught_composed payload hs true {} (Latitude.held_permits.mpr hleaves)
  have hpasses := hcomposed.passes w held
  rw [hcaught] at hpasses
  show held.Escaped c₂ ↔ _ ∨ held.Escaped (caught payload hs true {} w held).2
  rw [← hall, hcaught]
  cases all with
  | true =>
    cases hrest
    simp
  | false =>
    have hcomposed : Composed (.held false) (reraise payload (true && hs.isEmpty) out₁) :=
      Composed.hereditary.reraise _ _ _ trivial
    have hreraise := hcomposed.passes w c₁
    have hrest : reraise payload (true && hs.isEmpty) out₁ w c₁ = (.ok text, c₂) := hrest
    have hescaped := reraise_escaped (w := w) (c := c₁) payload (true && hs.isEmpty) out₁
    rw [hrest] at hreraise hescaped
    rw [hpasses.escaped_trans hreraise]
    simp [hescaped]

/-! ## The parts in order -/

/-- The slot and the label for the errors of a guarded body. -/
def enterTry : Emit CatchTarget := do
  let n ← nextNumber
  let slot ← claimIdent s!"__err{n}"
  return { slot, label := s!"try{n}" }

/-- The variable that holds an error for its handlers. -/
def enterHandlers (base : String) (target : CatchTarget) : Emit String := do
  let payload ← claimIdent base
  note (.handled target payload)
  return payload

/-- The `else` part was written on the way from `c` to `c'`, if there is one. -/
def Proceeds (w : Settings) (c c' : Context) : Option (Buffer → Emit Buffer) → Prop
  | none => c' = c
  | some orelse => ∃ out out', nested orelse out w c = (.ok out', c')

/-- The contexts that a `try` statement goes through before its `finally` part is written. -/
structure TryStages (body : List Stmt) (hs : List Handler) (orelse : List Stmt) (w : Settings)
    (c : Context) where
  target : CatchTarget
  text : Buffer
  /-- Where the guarded body is begun and ended. -/
  entered : Context
  guarded : Context
  /-- Where the handlers are begun, if there are any to write, with the variable that holds the
  error. -/
  payload : String
  held : Context
  handled : Context
  /-- After the `else` part. -/
  reached : Context
  enter : enterTry w c = (.ok target, entered)
  guard : catching target (inBlock (stmts body {})) w entered = (.ok text, guarded)
  handle : if Text.mentions text.text target.slot then
      ∃ base chain, enterHandlers base target w guarded = (.ok payload, held) ∧
        handling payload (handlers payload hs true {}) w held = (.ok chain, handled)
    else held = guarded ∧ undecided (Handler.choices hs) w guarded = (.ok (), handled)
  proceed : Proceeds w handled reached (if orelse.isEmpty then none else some (stmts orelse))

/-- Entering handlers is no exit. -/
theorem enterHandlers_passes {base payload : String} {target : CatchTarget} {k : Latitude}
    (h : enterHandlers base target w c = (.ok payload, c')) :
    c.Passes k c' ∧ ¬ c.Escaped c' := by
  have hnotes : c'.current.notes = [.handled target payload] ++ c.current.notes := by
    cases h
    rfl
  have hquiet : ∀ n ∈ [Note.handled target payload], n.exit? = none := by
    intro n hn
    rw [List.mem_singleton.mp hn]
    rfl
  refine ⟨Context.passes_of_notes _ ?_ ?_ hnotes fun e he => ?_, ?_⟩
  · cases h
    rfl
  · cases h
    rfl
  · cases hquiet _ he
  · exact Context.not_escaped_of_notes hnotes hquiet

theorem enterTry_current {target : CatchTarget} (h : enterTry w c = (.ok target, c')) :
    c'.current = c.current := by
  cases h
  rfl

theorem handling_composed (payload : String) {hs : List Handler}
    (h : Handler.anyLeaves false hs = false) :
    Composed (.held false) (handling payload (handlers payload hs true {})) :=
  .handling (handlers_composed payload hs true {} (Latitude.held_permits.mpr h))

namespace TryStages

variable {body orelse : List Stmt} {hs : List Handler}

theorem not_escaped_guarded (t : TryStages body hs orelse w c)
    (hbody : Stmt.anyLeaves false body = false) : ¬ c.Escaped t.guarded := by
  have hcomposed : Composed (.held false) (inBlock (stmts body {})) :=
    .inFrame (stmts_composed body {} (Latitude.held_permits.mpr hbody))
  have hstays := hcomposed.passes.not_escaped_catching (w := w) (c := t.entered) t.target
  rw [t.guard] at hstays
  exact fun hescaped => hstays ((Context.escaped_congr (enterTry_current t.enter) rfl).mpr hescaped)

theorem passes_guarded (t : TryStages body hs orelse w c)
    (hbody : Stmt.anyLeaves false body = false) : c.Passes (.held false) t.guarded := by
  have hcomposed : Composed (.held false) (catching t.target (inBlock (stmts body {}))) :=
    .catching (.inFrame (stmts_composed body {} (Latitude.held_permits.mpr hbody)))
  have hpasses := hcomposed.passes w t.entered
  rw [t.guard] at hpasses
  exact hpasses.congr (enterTry_current t.enter).symm rfl

theorem passes_handled (t : TryStages body hs orelse w c)
    (hhandlers : Handler.anyLeaves false hs = false) :
    t.guarded.Passes (.held false) t.handled := by
  have hhandle := t.handle
  split at hhandle
  · obtain ⟨base, chain, henter, hchain⟩ := hhandle
    have hpasses := (handling_composed t.payload hhandlers).passes w t.held
    rw [hchain] at hpasses
    exact (enterHandlers_passes henter).1.trans hpasses
  · have hpasses := (undecided_edits (Handler.choices hs)).passes w t.guarded
    rwa [hhandle.2] at hpasses

theorem passes_reached (t : TryStages body hs orelse w c)
    (horelse : Stmt.anyLeaves false orelse = false) :
    t.handled.Passes (.held false) t.reached := by
  have hproceed := t.proceed
  split at hproceed
  · rw [show t.reached = t.handled from hproceed]
    exact Context.passes_of_same rfl
  · obtain ⟨out, out', hnested⟩ := hproceed
    have hcomposed : Composed (.held false) (nested (stmts orelse) out) :=
      Composed.hereditary.nested out fun out =>
        stmts_composed orelse out (Latitude.held_permits.mpr horelse)
    have hpasses := hcomposed.passes w t.handled
    rwa [hnested] at hpasses

/-- How control leaves between the guarded body and the `else` part. -/
theorem escaped_handled_iff (t : TryStages body hs orelse w c)
    (hhandlers : Handler.anyLeaves false hs = false) :
    t.guarded.Escaped t.handled ↔ Text.mentions t.text.text t.target.slot = true ∧
      ((∀ handler ∈ hs, (handlerTest? handler.kind t.payload).isSome) ∨
        t.held.Escaped (handling t.payload (caught t.payload hs true {}) w t.held).2) := by
  have hhandle := t.handle
  split at hhandle
  · rename_i hmentions
    obtain ⟨base, chain, henter, hchain⟩ := hhandle
    obtain ⟨hentered, hstays⟩ := enterHandlers_passes henter
    have hpasses := (handling_composed t.payload hhandlers).passes w t.held
    rw [hchain] at hpasses
    rw [hentered.escaped_trans hpasses, or_iff_right hstays, handlers_escaped_iff hhandlers hchain]
    exact (and_iff_right hmentions).symm
  · rename_i hmentions
    have hnotes : t.handled.current.notes = [] ++ t.guarded.current.notes :=
      (undecided_edits (Handler.choices hs)).notes_eq hhandle.2
    refine iff_of_false (Context.not_escaped_of_notes hnotes fun n hn => ?_) fun h => hmentions h.1
    cases hn

end TryStages

section Inversion

variable {p : TryParts} {out out' : Buffer}

/-- A `try` statement without its `finally` part, and then that part. -/
theorem tryBlock_finally {finalbody : Buffer → Emit Buffer} (h : p.finally? = some finalbody)
    (out : Buffer) :
    tryBlock p out = tryBlock { p with finally? := none } out >>= braced finalbody := by
  unfold tryBlock
  simp only [bind_assoc, h]
  congr 1
  funext n
  congr 1
  funext slot
  congr 1
  funext text
  split <;> rw [bind_assoc] <;> rfl

/-- What was written of a `try` statement without a `finally` part. -/
theorem tryBlock_eq_ok (hfinally : p.finally? = none)
    (h : tryBlock p out w c = (.ok out', c')) :
    ∃ n target entered text guarded, enterTry w c = (.ok target, entered) ∧
      catching target (inBlock (p.body {})) w entered = (.ok text, guarded) ∧
      if Text.mentions text.text target.slot then
        Emit.guarded p n target text.text out w guarded = (.ok out', c')
      else unguarded p text.text out w guarded = (.ok out', c') := by
  unfold tryBlock at h
  obtain ⟨n, c₁, hnumber, h⟩ := bind_eq_ok h
  obtain ⟨slot, entered, hslot, h⟩ := bind_eq_ok h
  obtain ⟨text, guarded, hguard, h⟩ := bind_eq_ok h
  have henter : enterTry w c = (.ok ⟨slot, s!"try{n}"⟩, entered) := by
    unfold enterTry
    rw [bind_apply, hnumber]
    dsimp only
    rw [bind_apply, hslot]
    rfl
  refine ⟨n, ⟨slot, s!"try{n}"⟩, entered, text, guarded, henter, hguard, ?_⟩
  rw [hfinally] at h
  dsimp only at h
  split at h
  all_goals
    rename_i hmentions
    obtain ⟨out₁, reached, hbefore, hlast⟩ := bind_eq_ok h
    cases hlast
  · rwa [if_pos hmentions]
  · rwa [if_neg hmentions]

theorem proceeds_of_nested {orelse : Buffer → Emit Buffer} {close : Buffer → Buffer}
    (h : (nested orelse out >>= fun o => pure (close o)) w c = (.ok out', c')) :
    Proceeds w c c' (some orelse) := by
  obtain ⟨out₁, c₁, hnested, hlast⟩ := bind_eq_ok h
  cases hlast
  exact ⟨out, out₁, hnested⟩

theorem unguarded_eq_ok {text : String} (h : unguarded p text out w c = (.ok out', c')) :
    ∃ handled, undecided p.choices w c = (.ok (), handled) ∧ Proceeds w handled c' p.orelse := by
  obtain ⟨_, handled, hundecided, h⟩ := bind_eq_ok h
  refine ⟨handled, hundecided, ?_⟩
  cases horelse : p.orelse with
  | none =>
    rw [horelse] at h
    cases h
    rfl
  | some orelse =>
    rw [horelse] at h
    exact proceeds_of_nested h

theorem guarded_eq_ok {n : Nat} {target : CatchTarget} {text : String}
    (h : guarded p n target text out w c = (.ok out', c')) :
    ∃ base payload held chain handled, enterHandlers base target w c = (.ok payload, held) ∧
      handling payload (p.handlers payload {}) w held = (.ok chain, handled) ∧
      Proceeds w handled c' p.orelse := by
  unfold guarded at h
  obtain ⟨payload, claimed, hpayload, h⟩ := bind_eq_ok h
  obtain ⟨_, held, hnote, h⟩ := bind_eq_ok h
  obtain ⟨chain, handled, hchain, h⟩ := bind_eq_ok h
  have henter : enterHandlers s!"__exc{n}" target w c = (.ok payload, held) := by
    unfold enterHandlers
    rw [bind_apply, hpayload]
    dsimp only
    rw [bind_apply, hnote]
    rfl
  refine ⟨_, payload, held, chain, handled, henter, hchain, ?_⟩
  cases horelse : p.orelse with
  | none =>
    rw [horelse] at h
    cases h
    rfl
  | some orelse =>
    rw [horelse] at h
    exact proceeds_of_nested h

end Inversion

/-- A statement whose `finally` part was written was accepted: neither its body nor its handlers nor
its `else` part can leave it by a `return` or a jump. -/
theorem checkFinally_eq_ok {b e f : List Stmt} {hs : List Handler} {u : Unit} (hf : f ≠ [])
    (h : checkFinally b hs e f w c = (.ok u, c')) :
    Stmt.anyLeaves false b = false ∧ Stmt.anyLeaves false e = false ∧
      Handler.anyLeaves false hs = false ∧ c' = c := by
  unfold checkFinally at h
  split at h
  · cases h
  · rename_i hcheck
    cases h
    have hnonempty : f.isEmpty = false := by
      cases f with
      | nil => exact absurd rfl hf
      | cons => rfl
    rw [hnonempty] at hcheck
    simp only [Bool.not_false, Bool.true_and, Bool.not_eq_true, Bool.or_eq_false_iff] at hcheck
    exact ⟨hcheck.1.1, hcheck.1.2, hcheck.2, rfl⟩

/-- **The stages of a `try` statement that has a `finally` part**: it is written as the statement
without that part, and the part follows in braces. -/
theorem exists_stages {b e f : List Stmt} {hs : List Handler} {out out' : Buffer} (hf : f ≠ [])
    (h : stmt (.tryExcept b hs e f) out w c = (.ok out', c')) :
    Stmt.anyLeaves false b = false ∧ Stmt.anyLeaves false e = false ∧
      Handler.anyLeaves false hs = false ∧
      ∃ (t : TryStages b hs e w c) (before : Buffer),
        stmt (.tryExcept b hs e []) out w c = (.ok before, t.reached) ∧
        braced (stmts f) before w t.reached = (.ok out', c') := by
  rw [stmt] at h
  obtain ⟨_, c₀, hcheck, hwritten⟩ := bind_eq_ok h
  obtain ⟨hb, he, hhs, rfl⟩ := checkFinally_eq_ok hf hcheck
  have hfinally : (if f.isEmpty then none else some (stmts f)) = some (stmts f) := by
    cases f with
    | nil => exact absurd rfl hf
    | cons => rfl
  rw [tryBlock_finally hfinally] at hwritten
  obtain ⟨before, reached, hfront, hlast⟩ := bind_eq_ok hwritten
  have hplain : stmt (.tryExcept b hs e []) out w c₀ = (.ok before, reached) := by
    rw [stmt]
    exact hfront
  refine ⟨hb, he, hhs, ?_⟩
  obtain ⟨n, target, entered, text, guarded, henter, hguard, hrest⟩ := tryBlock_eq_ok rfl hfront
  split at hrest
  · rename_i hmentions
    obtain ⟨base, payload, held, chain, handled, hclaim, hchain, hproceed⟩ := guarded_eq_ok hrest
    refine ⟨⟨target, text, entered, guarded, payload, held, handled, reached, henter, hguard, ?_,
      hproceed⟩, before, hplain, hlast⟩
    rw [if_pos hmentions]
    exact ⟨base, chain, hclaim, hchain⟩
  · rename_i hmentions
    obtain ⟨handled, hundecided, hproceed⟩ := unguarded_eq_ok hrest
    refine ⟨⟨target, text, entered, guarded, target.slot, guarded, handled, reached, henter, hguard,
      ?_, hproceed⟩, before, hplain, hlast⟩
    rw [if_neg hmentions]
    exact ⟨rfl, hundecided⟩

/-- What was noted of exits before the `finally` part stands in the text before that part. -/
theorem shows_exits {b e : List Stmt} {hs : List Handler} {out before : Buffer} {reached : Context}
    (hprelude : c.prelude.isEmpty = true)
    (h : stmt (.tryExcept b hs e []) out w c = (.ok before, reached)) {x : Exit}
    (hx : .exit x ∈ c.notesSince reached) :
    Text.Shows before.text x.text ∨
      ∃ operand, Note.dropped operand ∈ c.notesSince reached ∧ Text.Shows operand x.text := by
  obtain ⟨new, hnew, hshown, -⟩ :=
    (stmt_tidy _).shows (fun _ _ => stmt_written (.tryExcept b hs e [])) hprelude h
  rw [Context.notesSince_eq hnew] at hx ⊢
  exact hshown.noted _ hx _ rfl

/-- **When control can leave a `try` statement before its `finally` part.** The statement is written
as the one without that part, and the part follows in braces. Every exit that was noted before stands
in the text before the `finally` part, unless it stood in an operand that was dropped. In an accepted
statement no `return` and no jump leaves before that part, and nothing leaves the guarded body; what
can leave are errors, and they are written as errors were before the statement. One can do so exactly
if something in the guarded body fails and no handler takes every error, or the body of a handler
that is written lets one out, or the `else` part does. -/
theorem leaves_before_finally_iff {b e f : List Stmt} {hs : List Handler} {out out' : Buffer}
    (hf : f ≠ []) (h : stmt (.tryExcept b hs e f) out w c = (.ok out', c')) :
    ∃ (t : TryStages b hs e w c) (before : Buffer),
      stmt (.tryExcept b hs e []) out w c = (.ok before, t.reached) ∧
      braced (stmts f) before w t.reached = (.ok out', c') ∧
      (c.prelude.isEmpty = true → ∀ x, .exit x ∈ c.notesSince t.reached →
        Text.Shows before.text x.text ∨
          ∃ operand, Note.dropped operand ∈ c.notesSince t.reached ∧
            Text.Shows operand x.text) ∧
      (∀ x, .exit x ∈ c.notesSince t.reached → x.Leaves c.current →
        ∃ fault, x.fault? = some fault ∧ fault.catches = c.current.catches) ∧
      ¬ c.Escaped t.guarded ∧
      (c.Escaped t.reached ↔
        (Text.mentions t.text.text t.target.slot = true ∧
          ((∀ handler ∈ hs, (handlerTest? handler.kind t.payload).isSome) ∨
            t.held.Escaped (handling t.payload (caught t.payload hs true {}) w t.held).2)) ∨
        t.handled.Escaped t.reached) := by
  obtain ⟨hb, he, hhs, t, before, hplain, hlast⟩ := exists_stages hf h
  have hguarded := t.passes_guarded hb
  have hhandled := hguarded.trans (t.passes_handled hhs)
  have hreached := t.passes_reached he
  have hstays := t.not_escaped_guarded hb
  refine ⟨t, before, hplain, hlast, fun hprelude x => shows_exits hprelude hplain, fun x hx => ?_,
    hstays, ?_⟩
  · exact Exit.exists_fault_of_leaves ((hhandled.trans hreached).allowed hx)
  · rw [hhandled.escaped_trans hreached, hguarded.escaped_trans (t.passes_handled hhs),
      t.escaped_handled_iff hhs, or_iff_right hstays]

/-- A body that raises, without handlers. -/
def raising : List Stmt := [.raise (some (.name "ValueError"))]

/-- A call to be made at the end. -/
def closing : List Stmt := [.expr (.call (.name "close") [] [])]

/-- What stands before the `finally` part. -/
def skipping : String :=
  String.join [
    "var __err1: ?anyerror = null;\n",
    "try1: \x7b\n",
    "    __err1 = error.ValueError;\n",
    "    break :try1;\n",
    "\x7d\n",
    "if (__err1) |__exc1| \x7b\n",
    "    return __exc1;\n",
    "\x7d\n"]

/-- An error that nothing takes leaves before the `finally` part, and so skips it. -/
theorem leaves_before_finally_raising :
    let w : Settings := ⟨Table.oracle {}, {}⟩
    let c : Context := { scope := ({} : Scope).pushFunction "f" [] }
    ∃ out' c' before, ∃ t : TryStages raising [] [] w c,
      stmt (.tryExcept raising [] [] closing) {} w c = (.ok out', c') ∧
      before.text = skipping ∧
      braced (stmts closing) before w t.reached = (.ok out', c') ∧
      c.Escaped t.reached ∧
      ∃ x, .exit x ∈ c.notesSince t.reached ∧ x.Leaves c.current ∧ x.text = "return __exc1;" ∧
        Text.Shows before.text x.text := by
  intro w c
  have haccepted : (stmt (.tryExcept raising [] [] closing) {} w c).1.isOk = true := by
    decide +kernel
  have htext : (stmt (.tryExcept raising [] [] []) {} w c).1.toOption.map Buffer.text =
      some skipping := by decide +kernel
  have hexit : (stmt (.tryExcept raising [] [] []) {} w c).2.current.notes.any (fun n =>
      n.text? == some "return __exc1;" && n.fault?.any fun fault => fault.catches.isEmpty) = true := by
    decide +kernel
  rcases hwritten : stmt (.tryExcept raising [] [] closing) {} w c with ⟨e | out', c'⟩
  · rw [hwritten] at haccepted
    cases haccepted
  · obtain ⟨t, before, hplain, hlast, -⟩ :=
      leaves_before_finally_iff (by simp [closing]) hwritten
    rw [hplain] at htext hexit
    have hbefore : before.text = skipping := Option.some.inj htext
    have hall : c.notesSince t.reached = t.reached.current.notes :=
      Context.notesSince_eq (List.append_nil _).symm
    obtain ⟨n, hn, hnote⟩ := List.any_eq_true.mp hexit
    simp only [Bool.and_eq_true, beq_iff_eq, Option.any_eq_true] at hnote
    obtain ⟨hline, fault, hfault, hcatches⟩ := hnote
    cases n with
    | exit x =>
      have hx : .exit x ∈ c.notesSince t.reached := hall ▸ hn
      have hleaves : x.Leaves c.current :=
        Exit.leaves_of_fault hfault (List.isEmpty_iff.mp hcatches)
      have hreturn : x.text = "return __exc1;" := Option.some.inj hline
      refine ⟨out', c', before, t, rfl, hbefore, hlast, ⟨x, hx, hleaves⟩, x, hx, hleaves, hreturn, ?_⟩
      rw [hbefore, hreturn]
      decide +kernel
    | _ => cases hfault

end Emit

end ClosureConversion
