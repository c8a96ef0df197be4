import ClosureConversion.Emit.Stmt
import ClosureConversion.Proofs.Emit.Balanced

/-! # Computations that edit the state -/

set_option autoImplicit false

namespace ClosureConversion

/-! ## Captures -/

namespace Capture

/-- No internal error as the failure, and nothing but advice in the report. -/
def Sound : Except ConvertError Resolved → Prop
  | .ok r => ∀ d ∈ r.report, d.IsAdvice
  | .error e => ∀ what, e ≠ .internal what

theorem add_sound (f : Function) (qualname name : String) {r : Resolved} (v : Verdict)
    (h : Sound (.ok r)) : Sound (r.add f qualname name v) := by
  cases v with
  | own | deferred | free => exact h
  | captured c =>
    rw [Resolved.add]
    split
    · exact fun what heq => by cases heq
    · intro d hd
      dsimp only at hd
      split at hd
      · rcases List.mem_append.mp hd with hbefore | hnew
        · exact h d hbefore
        · obtain rfl := List.mem_singleton.mp hnew
          exact ⟨Code.noConfusion, rfl⟩
      · exact h d hd

theorem resolve_sound (f : Function) (u : Usage) (s : Scope) (qualname : String) :
    Sound (resolve f u s qualname) := by
  have hfold : ∀ (names : List String) (r : Resolved), Sound (.ok r) →
      Sound (names.foldlM (fun r name => r.add f qualname name (verdict f u s name)) r) := by
    intro names
    induction names with
    | nil => exact fun r hr => hr
    | cons n rest ih =>
      intro r hr
      have hadd := add_sound f qualname n (verdict f u s n) hr
      rw [List.foldlM_cons]
      cases hstep : r.add f qualname n (verdict f u s n) with
      | error e =>
        rw [hstep] at hadd
        exact hadd
      | ok r' =>
        rw [hstep] at hadd
        exact ih r' hadd
  exact hfold u.candidates {} fun d hd => by cases hd

end Capture

namespace Emit

variable {α β : Type}

/-! ## Putting edits together -/

/-- A computation that only reads, and neither the journal nor the trace. -/
theorem edits_of_read {x : Emit α} {f : Settings → Context → α}
    (h : ∀ w c, x w c = (.ok (f w c), c)) (hcore : ∀ w c, f w c.core = f w c) : Edits x := by
  refine ⟨⟨fun w c => ?_, fun w c => by rw [h], fun w c => ?_, fun w c => ?_⟩,
    fun w c => by rw [h]⟩
  · rw [h]
    exact ⟨.refl c, blameless_ok _⟩
  · rw [h, h, hcore]
    rfl
  · rw [h]
    exact Context.passes_of_same rfl

theorem Edits.pure (a : α) : Edits (pure a : Emit α) :=
  edits_of_read (fun _ _ => rfl) fun _ _ => rfl

theorem Annotates.pure (a : α) : Annotates (pure a : Emit α) := (Edits.pure a).toAnnotates

theorem Annotates.ite {p : Prop} [Decidable p] {x y : Emit α} (hx : Annotates x)
    (hy : Annotates y) : Annotates (if p then x else y) := by
  split
  · exact hx
  · exact hy

theorem Edits.ite {p : Prop} [Decidable p] {x y : Emit α} (hx : Edits x) (hy : Edits y) :
    Edits (if p then x else y) := by
  split
  · exact hx
  · exact hy

theorem Edits.sequential : Sequential Edits := ⟨.pure, .bind⟩

theorem Annotates.sequential : Sequential Annotates := ⟨.pure, .bind⟩

theorem discard_edits {x : Emit α} (h : Edits x) : Edits (discard x) :=
  h.bind fun _ => .pure ()

theorem fail_edits {e : ConvertError} (h : ∀ what, e ≠ .internal what) :
    Edits (fail e : Emit α) :=
  ⟨⟨fun _ c => ⟨.refl c, fun what heq => h what (by cases heq; rfl)⟩, fun _ _ => rfl,
    fun _ _ => rfl, fun _ _ => Context.passes_of_same rfl⟩, fun _ _ => rfl⟩

/-- A change of anything but what is noted, the pending statements, and the loops and `try` bodies
around. -/
theorem modify_edits {f : Context → Context} (h : ∀ c : Context, c.Balanced (f c))
    (hproducts : ∀ c, products (f c) = products c)
    (hcore : ∀ c : Context, (f c.core).core = (f c).core)
    (hcurrent : ∀ c, (f c).current.loops = c.current.loops ∧
      (f c).current.notes = c.current.notes) : Edits (modify f) := by
  refine ⟨⟨fun _ c => ⟨h c, blameless_ok _⟩, fun _ c => hproducts c,
    fun _ c => congrArg (Prod.mk _) (hcore c), fun _ c => ?_⟩, fun _ c => (hcurrent c).2⟩
  exact ⟨(hcurrent c).1, (h c).current.catches, [], (hcurrent c).2, fun e he => by cases he⟩

/-- A change of nothing but the counter, the journal or the trace. -/
theorem modify_edits_of_still {f : Context → Context}
    (h : ∀ c, (f c).scope = c.scope ∧ (f c).current = c.current ∧ (f c).report = c.report)
    (hproducts : ∀ c, products (f c) = products c)
    (hcore : ∀ c : Context, (f c.core).core = (f c).core) : Edits (modify f) := by
  refine modify_edits (fun c => ?_) hproducts hcore fun c => by rw [(h c).2.1]; exact ⟨rfl, rfl⟩
  obtain ⟨hscope, hcurrent, hreport⟩ := h c
  obtain ⟨hclosures, hrest⟩ := Prod.mk.inj (hproducts c)
  refine Context.balanced_of_same ?_ ?_ ?_
  · rw [hscope]
    exact .refl _
  · rw [hcurrent]
    exact .refl _
  · rw [hreport, hclosures, (Prod.mk.inj hrest).2]

theorem modifyScope_edits {f : Scope → Scope} (h : ∀ s : Scope, s.Keeps (f s)) :
    Edits (modifyScope f) :=
  modify_edits (fun c => Context.balanced_of_same (h c.scope) (.refl _) rfl) (fun _ => rfl)
    (fun _ => rfl) fun _ => ⟨rfl, rfl⟩

/-- A change of what is known of the function, apart from its loops and notes. -/
theorem modifyCurrent_edits {f : FunctionState → FunctionState}
    (h : ∀ s : FunctionState, s.Same (f s))
    (hnotes : ∀ s, (f s).loops = s.loops ∧ (f s).notes = s.notes) : Edits (modifyCurrent f) :=
  modify_edits (fun c => Context.balanced_of_same (.refl _) (h c.current) rfl)
    (fun _ => rfl) (fun _ => rfl) fun c => hnotes c.current

/-- Notes on anything but exits. -/
theorem noteAll_annotates {notes : List Note} (h : ∀ n ∈ notes, n.exit? = none) :
    Annotates (noteAll notes) :=
  ⟨noteAll_balanced notes, fun _ _ => rfl, fun _ _ => rfl,
    noteAll_passes fun _ e he => by cases h _ he⟩

theorem note_annotates {n : Note} (h : n.exit? = none) : Annotates (note n) :=
  noteAll_annotates fun _ hm => List.mem_singleton.mp hm ▸ h

/-! ## Single edits -/

theorem options_edits : Edits options := edits_of_read (fun _ _ => rfl) fun _ _ => rfl

theorem oracle_edits : Edits oracle := edits_of_read (fun _ _ => rfl) fun _ _ => rfl

theorem scope_edits : Edits scope := edits_of_read (fun _ _ => rfl) fun _ _ => rfl

theorem current_edits : Edits current := edits_of_read (fun _ _ => rfl) fun _ _ => rfl

theorem typeOf_edits (e : Expr) : Edits (typeOf e) :=
  edits_of_read (fun _ _ => rfl) fun _ _ => rfl

theorem isRead_edits (n : String) : Edits (isRead n) :=
  edits_of_read (fun _ _ => rfl) fun _ _ => rfl

theorem isDeclaredGlobal_edits (n : String) : Edits (isDeclaredGlobal n) :=
  edits_of_read (fun _ _ => rfl) fun _ _ => rfl

theorem qualify_edits (n : String) : Edits (qualify n) :=
  edits_of_read (fun _ _ => rfl) fun _ _ => rfl

theorem unsupported_edits (what : String) : Edits (unsupported what : Emit α) :=
  ⟨⟨fun _ c => ⟨.refl c, fun _ heq => by cases heq⟩, fun _ _ => rfl, fun _ _ => rfl,
    fun _ _ => Context.passes_of_same rfl⟩, fun _ _ => rfl⟩

theorem tell_edits (events : List Event) : Edits (tell events) :=
  modify_edits_of_still (fun _ => ⟨rfl, rfl, rfl⟩) (fun _ => rfl) fun _ => rfl

theorem markFailed_edits : Edits markFailed :=
  modifyCurrent_edits (fun _ => ⟨rfl, rfl, rfl, rfl, rfl, rfl⟩) fun _ => ⟨rfl, rfl⟩

theorem decided_edits (d : Decision) : Edits (decided d) :=
  modifyCurrent_edits (fun _ => ⟨rfl, rfl, rfl, rfl, rfl, rfl⟩) fun _ => ⟨rfl, rfl⟩

theorem undecided_edits (choices : Nat) : Edits (undecided choices) :=
  modifyCurrent_edits (fun _ => ⟨rfl, rfl, rfl, rfl, rfl, rfl⟩) fun _ => ⟨rfl, rfl⟩

/-- An error leaves for where errors go. -/
theorem leaveByError_annotates (op : Operation) {exit : Fault → Exit}
    (h : ∀ fault, (exit fault).fault? = some fault) : Annotates (leaveByError op exit) := by
  refine ⟨leaveByError_balanced op exit, fun _ _ => rfl, fun _ _ => rfl, fun _ c => ?_⟩
  refine Context.passes_of_notes [.exit (exit ⟨op, c.current.catches⟩)] rfl rfl rfl fun e he => ?_
  obtain rfl : e = _ := Note.exit.inj (List.mem_singleton.mp he)
  exact Exit.allowed_of_fault (h _) (List.suffix_refl _)

theorem nextNumber_edits : Edits nextNumber :=
  ⟨⟨fun _ _ => ⟨Context.balanced_of_same (.refl _) (.refl _) rfl, blameless_ok _⟩, fun _ _ => rfl,
    fun _ _ => rfl, fun _ _ => Context.passes_of_same rfl⟩, fun _ _ => rfl⟩

/-- Reports are about the program. -/
theorem reportDiagnostic_edits {d : Diagnostic} (h : d.IsAdvice) : Edits (reportDiagnostic d) := by
  refine (tell_edits _).bind fun _ =>
    modify_edits (fun c => ⟨.refl _, .refl _, ?_, List.prefix_rfl, id⟩) (fun _ => rfl)
      (fun _ => rfl) fun _ => ⟨rfl, rfl⟩
  exact ⟨[d], rfl, fun _ hd => List.mem_singleton.mp hd ▸ h⟩

theorem fallible_annotates {op : Operation} (text : String) : Annotates (fallible op text) := by
  refine (leaveByError_annotates op fun _ => rfl).bind fun catches => ?_
  split
  · exact .pure _
  · exact (markFailed_edits.bind fun _ => .pure _).toAnnotates

theorem fallibleIf_annotates {op : Operation} (fails : Bool) (text : String) :
    Annotates (fallibleIf op fails text) :=
  .ite (fallible_annotates text) (.pure text)

theorem errorExit_annotates {op : Operation} (error : String) (out : Buffer) :
    Annotates (errorExit op error out) := by
  refine (leaveByError_annotates op fun _ => rfl).bind fun catches => ?_
  split
  · exact .pure _
  · exact (markFailed_edits.bind fun _ => .pure _).toAnnotates

/-! ## Names -/

theorem claimIdent_edits (base : String) : Edits (claimIdent base) :=
  ⟨⟨fun _ c => ⟨Context.balanced_of_same (Scope.keeps_reserveIdent c.scope _) (.refl _) rfl,
    blameless_ok _⟩, fun _ _ => rfl, fun _ _ => rfl, fun _ _ => Context.passes_of_same rfl⟩,
    fun _ _ => rfl⟩

theorem claimModuleIdent_edits (base : String) : Edits (claimModuleIdent base) :=
  ⟨⟨fun _ c => ⟨Context.balanced_of_same (Scope.keeps_reserveModuleIdent c.scope _) (.refl _) rfl,
    blameless_ok _⟩, fun _ _ => rfl, fun _ _ => rfl, fun _ _ => Context.passes_of_same rfl⟩,
    fun _ _ => rfl⟩

theorem temporary_edits (stem : String) : Edits (temporary stem) :=
  nextNumber_edits.bind fun _ => claimIdent_edits _

theorem declareAs_edits (name ident : String) (b : Binding) : Edits (declareAs name ident b) :=
  (tell_edits _).bind fun _ => modifyScope_edits fun s => Scope.keeps_declareAs s name ident b

theorem bindPayload_edits (n : String) (ty : Ty) : Edits (bindPayload n ty) :=
  scope_edits.bind fun _ => (declareAs_edits _ _ _).bind fun _ => .pure _

theorem bindCounter_annotates (n start : String) : Annotates (bindCounter n start) :=
  scope_edits.toAnnotates.bind fun _ => (note_annotates rfl).bind fun _ =>
    ((declareAs_edits _ _ _).bind fun _ => .pure _).toAnnotates

theorem planAssignment_edits (n : String) (ty : Ty) : Edits (planAssignment n ty) :=
  scope_edits.bind fun _ => (tell_edits _).bind fun _ => .pure _

theorem commit_edits (a : Assignment) (isMutable : Bool) (source : Option String) :
    Edits (commit a isMutable source) :=
  (tell_edits _).bind fun _ => modifyScope_edits fun s => a.keeps_commit s isMutable source

theorem bindName_annotates (a : Assignment) (text : String) (source : Option String)
    (out : Buffer) : Annotates (bindName a text source out) := by
  refine current_edits.toAnnotates.bind fun state => (isRead_edits _).toAnnotates.bind fun read => ?_
  refine .ite ?_ ?_
  all_goals
    refine (note_annotates rfl).bind fun _ => Edits.toAnnotates ?_
    exact (decided_edits _).bind fun _ => (commit_edits a _ source).bind fun _ => .pure _

theorem updateLine_annotates (isGlobal : Bool) (n ident rest : String) (previous : Option Binding)
    (out : Buffer) : Annotates (updateLine isGlobal n ident rest previous out) :=
  .ite ((note_annotates rfl).bind fun _ => .pure _) (.pure _)

theorem bindHandler_edits (name : Option String) (body : List Stmt) (payload : String)
    (out : Buffer) : Edits (bindHandler name body payload out) := by
  cases name with
  | none => exact .pure _
  | some n =>
    refine (claimIdent_edits n).bind fun ident => (declareAs_edits n ident _).bind fun _ => ?_
    exact (tell_edits _).bind fun _ => .pure _

theorem raiseError_edits (e : Option Expr) : Edits (raiseError e) := by
  cases e with
  | none => exact current_edits.bind fun _ => .pure _
  | some e =>
    refine scope_edits.bind fun s => ?_
    dsimp only
    split <;> exact .pure _

/-! ## Targets of loops -/

mutual

theorem unpackPart_edits (used : List String) :
    ∀ (t : Target) (source : String) (ty : Ty), Edits (unpackPart used t source ty)
  | .name n, _, ty => (bindPayload_edits n ty).bind fun _ => .pure _
  | .tuple parts, source, ty => unpack_edits used parts source ty 0
  | .attribute _ _, _, _ => unsupported_edits _
  | .subscript _ _, _, _ => unsupported_edits _
  | .starred _, _, _ => unsupported_edits _

theorem unpack_edits (used : List String) :
    ∀ (ts : List Target) (source : String) (ty : Ty) (i : Nat), Edits (unpack used ts source ty i)
  | [], _, _, _ => .pure _
  | t :: ts, _, _, _ =>
    (unpackPart_edits used t _ _).bind fun _ => (unpack_edits used ts _ _ _).bind fun _ => .pure _

end

theorem loopPayload_edits (target : Target) (elem : Ty) (used : List String) :
    Edits (loopPayload target elem used) := by
  unfold loopPayload
  split
  · exact (bindPayload_edits _ elem).bind fun _ => .pure _
  · exact (temporary_edits "item").bind fun _ => (unpack_edits used _ _ _ _).bind fun _ => .pure _
  · exact unsupported_edits _

/-! ## Before a body is written -/

theorem paramType_edits (f : Function) (qualname : String) (p : Param) :
    Edits (paramType f qualname p) := by
  refine oracle_edits.bind fun o => scope_edits.bind fun s => ?_
  dsimp only
  split
  all_goals
    split
    · exact (reportDiagnostic_edits ⟨by nofun, rfl⟩).bind fun _ => .pure _
    · exact .pure _

theorem formalTypes_edits (f : Function) (qualname : String) : Edits (formalTypes f qualname) := by
  refine (Edits.sequential.sequence fun x hx => ?_).bind fun params => .pure _
  obtain ⟨p, -, rfl⟩ := List.mem_map.mp hx
  exact paramType_edits f qualname p

theorem declareFormals_edits (f : Function) (types : List Ty) (u : Usage) :
    Edits (declareFormals f types u) := by
  refine Edits.sequential.sequence fun x hx => ?_
  obtain ⟨p, -, rfl⟩ := List.mem_map.mp hx
  exact (claimIdent_edits p.1).bind fun ident => (declareAs_edits _ ident _).bind fun _ => .pure _

theorem returnText_edits (returnType : Option Ty) (fallible : Bool) (qualname : String)
    (f : Function) : Edits (returnText returnType fallible qualname f) := by
  unfold returnText
  dsimp only
  split
  · exact .pure _
  · refine options_edits.bind fun o => ?_
    exact (reportDiagnostic_edits ⟨by nofun, rfl⟩).bind fun _ => .pure _
  · exact .pure _
  · exact .pure _

theorem declareHoisted_annotates (out : Buffer) (name : String) (ty : Ty) :
    Annotates (declareHoisted out name ty) := by
  refine (claimIdent_edits name).toAnnotates.bind fun ident => (note_annotates rfl).bind fun _ => ?_
  exact ((modifyScope_edits fun s => Scope.keeps_declareInFunction s name ident _).bind
    fun _ => .pure _).toAnnotates

theorem planFunction_edits (f : Function) (qualname : String) (formals : List Formal) (u : Usage) :
    Edits (planFunction f qualname formals u) := by
  refine scope_edits.bind fun s => oracle_edits.bind fun o => ?_
  refine Edits.bind ?_ fun _ => (modifyScope_edits fun s => ?_).bind fun _ => .pure _
  · exact modify_edits_of_still (fun _ => ⟨rfl, rfl, rfl⟩) (fun _ => rfl) fun _ => rfl
  · exact Scope.keeps_foldl (fun s (p : Formal) => Scope.keeps_modifyBinding s p.name _) _ s

theorem captures_edits (f : Function) (u : Usage) (qualname : String) :
    Edits (captures f u qualname) := by
  refine scope_edits.bind fun s => (tell_edits _).bind fun _ => ?_
  have hsound := Capture.resolve_sound f u s qualname
  split
  · rename_i r hr
    rw [hr] at hsound
    refine (discard_edits (Edits.sequential.sequence fun x hx => ?_)).bind fun _ => ?_
    · obtain ⟨d, hd, rfl⟩ := List.mem_map.mp hx
      exact reportDiagnostic_edits (hsound d hd)
    · refine Edits.bind ?_ fun _ => .pure _
      exact modify_edits_of_still (fun _ => ⟨rfl, rfl, rfl⟩) (fun _ => rfl) fun _ => rfl
  · rename_i e he
    rw [he] at hsound
    exact fail_edits hsound

theorem claimNames_edits (name : String) (shape : Shape) : Edits (claimNames name shape) := by
  refine options_edits.bind fun o => (claimModuleIdent_edits _).bind fun wrapper => ?_
  cases shape with
  | structCapture =>
    exact (claimModuleIdent_edits _).bind fun _ => (claimModuleIdent_edits _).bind fun _ =>
      .pure _
  | zeroCapture => exact (claimModuleIdent_edits _).bind fun _ => .pure _
  | recursiveSelfCapture => exact .pure _

/-- Whatever is known of a closure before its body is written. -/
theorem prepare_edits (f : Function) : Edits (prepare f) := by
  refine (qualify_edits f.name).bind fun qualname => (tell_edits _).bind fun _ => ?_
  refine (captures_edits f _ qualname).bind fun cs => (tell_edits _).bind fun _ => ?_
  refine (claimNames_edits f.name _).bind fun ⟨wrapper, layout⟩ => ?_
  refine (claimIdent_edits f.name).bind fun ident => (formalTypes_edits f qualname).bind fun _ => ?_
  exact Edits.bind (oracle_edits.bind fun _ => .pure _) fun _ => .pure _

theorem claimReceivers_edits (shape : Shape) : Edits (claimReceivers shape) := by
  cases shape with
  | zeroCapture => exact .pure _
  | structCapture =>
    exact (claimIdent_edits _).bind fun _ => (claimIdent_edits _).bind fun _ => .pure _
  | recursiveSelfCapture => exact (claimIdent_edits _).bind fun _ => .pure _

theorem declareCaptures_edits (d : Draft) (receiver : Option String) :
    Edits (declareCaptures d receiver) := by
  cases receiver with
  | none => exact .pure _
  | some receiver =>
    refine discard_edits (Edits.sequential.sequence fun x hx => ?_)
    obtain ⟨c, -, rfl⟩ := List.mem_map.mp hx
    exact declareAs_edits _ _ _

theorem declareHandle_edits (d : Draft) (assumed : Option Bool) (selfParam : Option String) :
    Edits (declareHandle d assumed selfParam) := by
  unfold declareHandle
  split
  · exact declareAs_edits _ _ _
  · exact .pure _

/-- Everything that the body of a closure finds in its frame. -/
theorem enterClosure_edits (d : Draft) (assumed : Option Bool) :
    Edits (enterClosure d assumed) := by
  refine (claimReceivers_edits _).bind fun ⟨envParam, selfParam⟩ => ?_
  refine (declareCaptures_edits d _).bind fun _ => ?_
  refine (declareHandle_edits d assumed _).bind fun _ => ?_
  refine (declareFormals_edits _ _ _).bind fun formals => scope_edits.bind fun s => ?_
  refine oracle_edits.bind fun oracle => options_edits.bind fun o => ?_
  dsimp only
  refine .ite ((modifyScope_edits fun s => ?_).bind fun _ => .pure _) (.pure _)
  exact Scope.keeps_modifyBinding ..

theorem declareWrapper_annotates (name ident rest : String) (ty : Ty) :
    Annotates (declareWrapper name ident rest ty) :=
  current_edits.toAnnotates.bind fun _ => (note_annotates rfl).bind fun _ =>
    (declareAs_edits _ _ _).toAnnotates

theorem copyNotes_annotates (formals : List Formal) :
    Annotates (noteAll (formals.filterMap Formal.copyNote?)) := by
  refine noteAll_annotates fun n hn => ?_
  obtain ⟨slot, rest, rfl⟩ := Formal.eq_introduced_of_mem_copyNotes hn
  rfl

end Emit

end ClosureConversion
