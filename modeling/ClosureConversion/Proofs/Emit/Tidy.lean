import ClosureConversion.Emit.Stmt
import ClosureConversion.Proofs.Emit.Edits

/-! # Pending statements and indentation -/

set_option autoImplicit false

namespace ClosureConversion

namespace Emit

variable {α β : Type} {P : Context → Prop}

/-- Started as `P` says, success leaves no pending statement and a result as `Q` says. -/
def Ends (P : Context → Prop) (x : Emit α) (Q : α → Prop) : Prop :=
  ∀ w c a c', P c → x w c = (.ok a, c') → c'.prelude.isEmpty = true ∧ Q a

/-- Nothing is pending afterwards if nothing was before. -/
abbrev Clears (x : Emit α) (Q : α → Prop) : Prop := Ends (fun c => c.prelude.isEmpty = true) x Q

/-- Nothing is pending afterwards. -/
abbrev Flushes (x : Emit α) (Q : α → Prop) : Prop := Ends (fun _ => True) x Q

/-- A body that ends without pending statements, at the indentation that it started with. -/
def Tidy (body : Buffer → Emit Buffer) : Prop := ∀ out, Clears (body out) (·.level = out.level)

/-! ## Putting computations together -/

theorem Ends.pure {Q : α → Prop} {a : α} (h : Q a) : Clears (pure a : Emit α) Q := by
  intro w c b c' hc heq
  cases heq
  exact ⟨hc, h⟩

theorem Ends.always {Q : α → Prop} {x : Emit α} (h : Flushes x Q) : Ends P x Q :=
  fun w c a c' _ heq => h w c a c' trivial heq

theorem Ends.bind {Q : α → Prop} {Q' : β → Prop} {x : Emit α} {f : α → Emit β} (hx : Ends P x Q)
    (hf : ∀ a, Q a → Clears (f a) Q') : Ends P (x >>= f) Q' := by
  intro w c b c' hc heq
  obtain ⟨a, c₁, hfirst, hsecond⟩ := bind_eq_ok heq
  obtain ⟨hclear, ha⟩ := hx w c a c₁ hc hfirst
  exact hf a ha w c₁ b c' hclear hsecond

/-- Whatever comes before a flush may queue statements. -/
theorem Ends.after {Q : β → Prop} (x : Emit α) {f : α → Emit β} (hf : ∀ a, Flushes (f a) Q) :
    Flushes (x >>= f) Q := by
  intro w c b c' _ heq
  obtain ⟨a, c₁, -, hsecond⟩ := bind_eq_ok heq
  exact hf a w c₁ b c' trivial hsecond

theorem Ends.ite {p : Prop} [Decidable p] {Q : α → Prop} {x y : Emit α} (hx : Ends P x Q)
    (hy : Ends P y Q) : Ends P (if p then x else y) Q := by
  split
  · exact hx
  · exact hy

theorem Annotates.clears {x : Emit α} (h : Annotates x) : Clears x fun _ => True := by
  intro w c a c' hc heq
  rw [h.prelude heq]
  exact ⟨hc, trivial⟩

/-- An edit before a computation. -/
theorem Annotates.andThen {Q : β → Prop} {x : Emit α} {f : α → Emit β} (hx : Annotates x)
    (hf : ∀ a, Clears (f a) Q) : Clears (x >>= f) Q :=
  hx.clears.bind fun a _ => hf a

/-- A note is not pending. -/
theorem note_clears (n : Note) : Clears (note n) fun _ => True := by
  intro w c a c' hc heq
  cases heq
  exact ⟨hc, trivial⟩

/-- A failure leaves nothing to be said. -/
theorem unsupported_ends {Q : α → Prop} (what : String) :
    Ends P (unsupported what : Emit α) Q :=
  fun _ _ _ _ _ heq => by cases heq

theorem isolated_clears (x : Emit α) : Clears (isolated x) fun _ => True := by
  intro w c ⟨a, text⟩ c' hc heq
  obtain ⟨c₁, -, -, rfl⟩ := isolated_eq_ok heq
  exact ⟨hc, trivial⟩

section Brackets

variable {Q : α → Prop} {x : Emit α}

theorem Ends.inFrame {kind : FrameKind} (hx : Clears x Q) : Clears (inFrame kind x) Q := by
  intro w c a c' hc heq
  obtain ⟨c₁, left, hinside, -, rfl⟩ := inFrame_eq_ok heq
  exact hx w { c with scope := c.scope.push kind } a c₁ hc hinside

theorem Ends.catching {target : CatchTarget} (hx : Clears x Q) : Clears (catching target x) Q := by
  intro w c a c' hc heq
  obtain ⟨c₁, hinside, rfl⟩ := catching_eq_ok heq
  exact hx w { c with current := { c.current with catches := target :: c.current.catches } } a c₁
    hc hinside

theorem Ends.handling {payload : String} (hx : Clears x Q) : Clears (handling payload x) Q := by
  intro w c a c' hc heq
  obtain ⟨c₁, hinside, rfl⟩ := handling_eq_ok heq
  exact hx w { c with current := { c.current with
    handlerErrors := payload :: c.current.handlerErrors } } a c₁ hc hinside

theorem Ends.looping (hx : Clears x Q) : Clears (looping x) Q := by
  intro w c a c' hc heq
  obtain ⟨c₁, hinside, rfl⟩ := looping_eq_ok heq
  exact hx w { c with current := { c.current with loops := c.current.loops + 1 } } a c₁ hc hinside

theorem Ends.inFunction {state : FunctionState} (hx : Clears x Q) :
    Clears (inFunction state x) fun p => Q p.1 := by
  intro w c ⟨a, ended⟩ c' hc heq
  obtain ⟨c₁, hinside, -, rfl⟩ := inFunction_eq_ok heq
  exact hx w { c with current := state } a c₁ hc hinside

end Brackets

theorem flushPrelude_flushes (out : Buffer) : Flushes (flushPrelude out) (·.level = out.level) := by
  intro w c o c' _ heq
  unfold flushPrelude at heq
  split at heq
  · rename_i hempty
    cases heq
    exact ⟨hempty, rfl⟩
  · cases heq
    exact ⟨rfl, Buffer.level_block out _⟩

/-- One body after the other. -/
theorem foldlM_tidy {f : Buffer → α → Emit Buffer} (h : ∀ a, Tidy (f · a)) (as : List α) :
    Tidy (fun out => as.foldlM f out) := by
  intro out
  induction as generalizing out with
  | nil => exact .pure rfl
  | cons a rest ih =>
    show Clears ((a :: rest).foldlM f out) _
    rw [List.foldlM_cons]
    exact (h a out).bind fun out' hlevel => hlevel ▸ ih out'

/-! ## Closures -/

section Bodies

variable {body : Buffer → Emit Buffer}

theorem plannedBody_clears (formals : List Formal) (plan : BodyPlan) (h : Tidy body) :
    Clears (plannedBody formals plan body) fun _ => True := by
  have hhoisted : ∀ es : List (String × Ty), ∀ out,
      Annotates (es.foldlM (fun out e => declareHoisted out e.1 e.2) out) := fun es =>
    Annotates.sequential.foldlM fun out e _ => declareHoisted_annotates out e.1 e.2
  refine (copyNotes_annotates formals).andThen fun _ => (hhoisted _ _).andThen fun out => ?_
  exact fun w c o c' hc heq => ⟨(h out w c o c' hc heq).1, trivial⟩

theorem closureParts_clears (d : Draft) (assumed : Option Bool) (h : Tidy body) :
    Clears (closureParts d assumed body) fun _ => True := by
  refine .inFrame ((enterClosure_edits d assumed).andThen fun e => ?_)
  refine Ends.bind (Q := fun _ => True) ?_ fun _ _ => .pure trivial
  refine (planFunction_edits ..).andThen fun ⟨state, formals⟩ => ?_
  exact Ends.bind (plannedBody_clears formals state.plan h).inFunction fun _ _ => .pure trivial

theorem settledParts_clears (d : Draft) (h : Tidy body) :
    Clears (settledParts d body) fun _ => True := by
  intro w c parts c' hc heq
  rcases settledParts_cases d body w c with hcase | ⟨first, c₁, hfirst, hcase⟩
  · rw [hcase] at heq
    exact closureParts_clears d none h w c parts c' hc heq
  · rw [hcase] at heq
    have hclear := (closureParts_clears d none h w c first c₁ hc hfirst).1
    exact closureParts_clears d (some true) h w (rewound c c₁ d.qualname) parts c' hclear heq

/-- What is left pending when a closure's body was written is thrown away; it is nothing. -/
def DropsNothing (body : Buffer → Emit Buffer) : Prop :=
  ∀ d w c parts text c', isolated (settledParts d body) w c = (.ok (parts, text), c') → text = ""

/-- **A tidy body loses nothing** when it becomes the body of a closure. -/
theorem Tidy.dropsNothing (h : Tidy body) : DropsNothing body := by
  intro d w c parts text c' heq
  obtain ⟨c₁, hinside, rfl, -⟩ := isolated_eq_ok heq
  have hclear := (settledParts_clears d h w { c with prelude := {} } parts c₁ rfl hinside).1
  exact String.isEmpty_iff.mp hclear

theorem synthesize_flushes (f : Function) (decorators : List (Emit String))
    (discardUnused : Bool) (out : Buffer) :
    Flushes (synthesize f body decorators discardUnused out) (·.2.level = out.level) := by
  refine .after _ fun ⟨d, ident⟩ => .after _ fun ⟨parts, _⟩ => .after _ fun signature => ?_
  have hinstance : Flushes (bindInstance d ident signature decorators discardUnused out)
      (·.level = out.level) := by
    refine .after _ fun init => (flushPrelude_flushes out).bind fun out' hlevel => ?_
    refine current_edits.andThen fun state => (isRead_edits _).andThen fun read => ?_
    refine (declareWrapper_annotates ..).andThen fun _ => .pure ?_
    split <;> exact hlevel
  refine hinstance.bind fun out' hlevel => ?_
  exact fun w c p c' hc heq => by cases heq; exact ⟨hc, hlevel⟩

end Bodies

/-! ## Assignments and deletions -/

theorem bindName_tidy (a : Assignment) (text : String) (source : Option String) :
    Tidy (bindName a text source) := by
  intro out
  refine current_edits.andThen fun state => (isRead_edits _).andThen fun read => ?_
  refine .ite ?_ ?_
  all_goals
    refine (note_annotates rfl).andThen fun _ => (decided_edits _).andThen fun _ => ?_
    refine (commit_edits a _ source).andThen fun _ => .pure ?_
  · split <;> rfl
  · rfl

/-- A flush, and then a line. -/
theorem flushLine_flushes (out : Buffer) (text : String) :
    Flushes (flushPrelude out >>= fun out => pure (out.line text)) (·.level = out.level) :=
  (flushPrelude_flushes out).bind fun _ hlevel => .pure hlevel

/-- A flush, and then a planned assignment. -/
theorem flushBind_flushes (out : Buffer) (a : Assignment) (text : String)
    (source : Option String) :
    Flushes (flushPrelude out >>= bindName a text source) (·.level = out.level) :=
  (flushPrelude_flushes out).bind fun out' hlevel => hlevel ▸ bindName_tidy a text source out'

theorem store_flushes (container index : Expr) (value : String) (out : Buffer) :
    Flushes (store container index value out) (·.level = out.level) := by
  refine .after _ fun ty => .after _ fun c => .after _ fun i => ?_
  dsimp only
  split
  · exact flushLine_flushes out _
  · exact .after _ fun o => .after _ fun text => flushLine_flushes out _
  · exact .after _ fun text => flushLine_flushes out _

theorem partAccess_annotates (source : String) (ty : Ty) (i : Nat) :
    Annotates (partAccess source ty i) := by
  unfold partAccess
  split
  · exact .pure _
  · exact .pure _
  · exact fallible_annotates _

mutual

theorem assignPart_tidy : ∀ (t : Target) (access : String) (ty : Ty), Tidy (assignPart t access ty)
  | .name n, access, ty, out => by
    rw [assignPart]
    refine (isDeclaredGlobal_edits n).andThen fun isGlobal =>
      .ite ((decided_edits _).andThen fun _ => .pure rfl) ?_
    exact (planAssignment_edits ..).andThen fun a => bindName_tidy a access none out
  | .tuple parts, access, ty, out => by
    rw [assignPart]
    exact (temporary_edits "tuple").andThen fun tmp => assignParts_tidy parts tmp ty 0 _
  | .attribute e _, access, _, out => by
    rw [assignPart]
    exact Ends.always (.after _ fun o => flushLine_flushes out _)
  | .subscript e i, access, _, out => by
    rw [assignPart]
    exact (store_flushes e i access out).always
  | .starred _, _, _, _ => by
    rw [assignPart]
    exact unsupported_ends _

theorem assignParts_tidy : ∀ (ts : List Target) (source : String) (ty : Ty) (i : Nat),
    Tidy (assignParts ts source ty i)
  | [], _, _, _, _ => by
    rw [assignParts]
    exact .pure rfl
  | t :: ts, source, ty, i, out => by
    rw [assignParts]
    refine (partAccess_annotates source ty i).andThen fun access => ?_
    refine (assignPart_tidy t access _ out).bind fun out' hlevel => ?_
    exact hlevel ▸ assignParts_tidy ts source ty (i + 1) out'

end

theorem assignName_tidy (n : String) (value : Expr) (declared : Option Ty) :
    Tidy (assignName n value declared) := by
  intro out
  refine (isDeclaredGlobal_edits n).andThen fun isGlobal => .ite ?_ ?_
  · exact Ends.always (.after _ fun _ => .after _ fun v => flushLine_flushes out _)
  split
  · exact Ends.always (.after _ fun built => .after _ fun a => flushBind_flushes out a _ none)
  · refine Ends.always (.after _ fun ty => .after _ fun a => .after _ fun s => ?_)
    exact .after _ fun text => flushBind_flushes out a text _

theorem assign_tidy (target : Target) (value : Expr) (declared : Option Ty) :
    Tidy (assign target value declared) := by
  intro out
  cases target with
  | name n => exact assignName_tidy n value declared out
  | tuple parts =>
    refine Ends.always (.after _ fun ty => .after _ fun text => ?_)
    refine (flushPrelude_flushes out).bind fun out' hlevel => ?_
    refine (temporary_edits "tuple").andThen fun tmp => ?_
    exact hlevel ▸ assignParts_tidy parts tmp ty 0 _
  | «attribute» e attr =>
    exact Ends.always (.after _ fun v => .after _ fun o => flushLine_flushes out _)
  | subscript e i => exact Ends.always (.after _ fun v => store_flushes e i v out)
  | starred t => exact unsupported_ends _

theorem updateLine_tidy (isGlobal : Bool) (n ident rest : String) (previous : Option Binding) :
    Tidy (updateLine isGlobal n ident rest previous) := by
  intro out
  exact .ite ((note_clears _).bind fun _ _ => .pure rfl) (.pure rfl)

theorem updateName_flushes (n : String) (op : BinOp) (value : Expr) (out : Buffer) :
    Flushes (updateName n op value out) (·.level = out.level) := by
  refine .after _ fun ty => .after _ fun valueTy => .after _ fun ident => ?_
  refine .after _ fun isGlobal => .after _ fun s => ?_
  unfold writeUpdate
  split
  · refine .after _ fun v => (flushPrelude_flushes out).bind fun out' hlevel => ?_
    exact hlevel ▸ updateLine_tidy isGlobal n ident _ _ out'
  · exact .after _ fun v => .after _ fun o => .after _ fun text => flushLine_flushes out _
  · refine .after _ fun v => (flushPrelude_flushes out).bind fun out' hlevel => ?_
    exact hlevel ▸ updateLine_tidy isGlobal n ident _ _ out'

theorem augAssign_tidy (target : Target) (op : BinOp) (value : Expr) :
    Tidy (augAssign target op value) := by
  intro out
  cases target with
  | name n =>
    refine Ends.always (.after _ fun isGlobal =>
      .ite (.after _ fun _ => updateName_flushes n op value out) ?_)
    refine .after _ fun ty => .after _ fun a => ?_
    split
    · exact .after _ fun text => flushBind_flushes out a text none
    · exact .after _ fun _ => updateName_flushes n op value out
  | «attribute» e attr =>
    exact assign_tidy (.attribute e attr) (.binary op (.attribute e attr) value) none out
  | subscript e i => exact assign_tidy (.subscript e i) (.binary op (.subscript e i) value) none out
  | tuple parts => exact unsupported_ends _
  | starred t => exact unsupported_ends _

mutual

theorem delete_tidy : ∀ t : Target, Tidy (delete t)
  | .subscript e i, out => by
    rw [delete]
    refine Ends.always (.after _ fun ty => .after _ fun c => .after _ fun index => ?_)
    dsimp only
    split
    · exact flushLine_flushes out _
    · exact flushLine_flushes out _
    · exact .after _ fun text => flushLine_flushes out _
  | .name n, out => by
    rw [delete]
    exact (tell_edits _).andThen fun _ => .pure rfl
  | .tuple parts, out => by
    rw [delete]
    exact deleteAll_tidy parts out
  | .attribute _ _, _ => by
    rw [delete]
    exact unsupported_ends _
  | .starred _, _ => by
    rw [delete]
    exact unsupported_ends _

theorem deleteAll_tidy : ∀ ts : List Target, Tidy (deleteAll ts)
  | [], _ => by
    rw [deleteAll]
    exact .pure rfl
  | t :: ts, out => by
    rw [deleteAll]
    exact (delete_tidy t out).bind fun out' hlevel => hlevel ▸ deleteAll_tidy ts out'

end

/-! ## Loops -/

/-- A loop that was opened has flushed what its iterable needs, and is as many levels deeper as it
opened braces. -/
theorem openLoop_flushes (target : Target) (iter : Expr) (iterText : Emit String)
    (argTexts : List (Emit String)) (used : List String) (out : Buffer) :
    Flushes (openLoop target iter iterText argTexts used out)
      (fun p => p.2.level = out.level + p.1) := by
  refine .after _ fun s => ?_
  split
  · refine .after _ fun bounds => (flushPrelude_flushes out).bind fun out' hlevel => ?_
    refine Ends.bind (Q := fun o => o.level = out.level + 2) ?_ fun o ho => .pure ho
    refine (bindCounter_annotates ..).andThen fun ident => .pure ?_
    simp only [Buffer.level_indent, Buffer.level_line, hlevel]
  · refine .after _ fun ty => .after _ fun it => ?_
    refine (flushPrelude_flushes out).bind fun out' hlevel => ?_
    refine (loopPayload_edits target _ used).andThen fun ⟨payload, lines⟩ => ?_
    dsimp only
    split
    · exact .pure (by simp [hlevel])
    · exact .pure (by simp [hlevel])
    · exact .pure (by simp [hlevel])
    · exact (temporary_edits "it").andThen fun cursor => .pure (by simp [hlevel])

theorem level_closeLoop (n : Nat) (out : Buffer) : (closeLoop n out).level = out.level - n := by
  induction n generalizing out with
  | zero => rfl
  | succ n ih =>
    rw [closeLoop, ih, Buffer.level_line, Buffer.level_dedent]
    omega

/-! ## Single statements, given their bodies -/

section Bodies

variable {body : Buffer → Emit Buffer}

theorem errorExit_tidy {op : Operation} (error : String) : Tidy (errorExit op error) := by
  intro out
  refine (leaveByError_annotates op fun _ => rfl).andThen fun catches => ?_
  split
  · exact .pure (Buffer.level_lines out _)
  · exact markFailed_edits.andThen fun _ => .pure rfl

theorem nested_tidy (h : Tidy body) : Tidy (nested body) := by
  intro out
  refine .inFrame ((h out.indent).bind fun o hlevel => .pure ?_)
  rw [Buffer.level_dedent, hlevel, Buffer.level_indent, Nat.add_sub_cancel]

theorem braced_tidy (h : Tidy body) : Tidy (braced body) :=
  fun _ => (nested_tidy h _).bind fun _ hlevel => .pure hlevel

theorem exprStmt_tidy (e : Expr) : Tidy (exprStmt e) := by
  intro out
  unfold exprStmt
  split
  · exact .pure rfl
  · refine Ends.always (.after _ fun ty => .after _ fun text => ?_)
    refine (flushPrelude_flushes out).bind fun out' hlevel => .pure ?_
    split <;> exact hlevel

theorem returnValue_tidy (value : Expr) (text : Emit String) : Tidy (returnValue value text) := by
  intro out
  refine (typeOf_edits value).andThen fun ty => ?_
  have hreturned : Edits (modifyCurrent (·.recordReturn ty)) :=
    modifyCurrent_edits (fun _ => ⟨rfl, rfl, rfl, rfl, rfl, rfl⟩) fun _ => ⟨rfl, rfl⟩
  refine hreturned.andThen fun _ => ?_
  split
  · exact (note_clears _).bind fun _ _ => .pure rfl
  · refine Ends.always (.after _ fun t => (flushPrelude_flushes out).bind fun out' hlevel => ?_)
    exact (note_clears _).bind fun _ _ => .pure hlevel

theorem assertion_tidy (test : Expr) : Tidy (assertion test) := by
  intro out
  refine Ends.always (.after _ fun t => (flushPrelude_flushes out).bind fun out' hlevel => ?_)
  refine (errorExit_tidy _ _).bind fun o ho => .pure ?_
  rw [Buffer.level_line, Buffer.level_dedent, ho, Buffer.level_indent, Buffer.level_line, hlevel,
    Nat.add_sub_cancel]

theorem whileLoop_tidy (test : Expr) (h : Tidy body) : Tidy (whileLoop test body) := by
  intro out
  refine (isolated_clears _).bind fun ⟨t, before⟩ _ => .ite ?_ ?_
  · exact (Ends.looping (nested_tidy h _)).bind fun _ hlevel => .pure hlevel
  · refine (Ends.looping (.inFrame (h _))).bind fun o hlevel => .pure ?_
    simp only [Buffer.level_line, Buffer.level_dedent, hlevel, Buffer.level_block,
      Buffer.level_indent, Nat.add_sub_cancel]

theorem forLoop_tidy (target : Target) (iter : Expr) (stmts : List Stmt) (h : Tidy body) :
    Tidy (forLoop target iter stmts body) := by
  intro out
  refine (tell_edits _).andThen fun _ => .inFrame ?_
  refine Ends.bind (openLoop_flushes _ _ _ _ _ _).always fun ⟨braces, out'⟩ hopen => ?_
  refine (Ends.looping (h out')).bind fun o hlevel => .pure ?_
  rw [level_closeLoop, hlevel, hopen, Nat.add_sub_cancel]

theorem elseIf_tidy (test : Expr) (h : Tidy body) : Tidy (elseIf test body) := by
  intro out
  refine .inFrame ((isolated_clears _).bind fun ⟨t, before⟩ _ => .ite (h _) ?_)
  refine (h _).bind fun o hlevel => .pure ?_
  simp only [Buffer.level_line, Buffer.level_dedent, hlevel, Buffer.level_block,
    Buffer.level_indent, Nat.add_sub_cancel]

theorem withItem_tidy (item : WithItem) : Tidy (withItem · item) := by
  intro out
  refine Ends.always (.after _ fun ty => .after _ fun text => ?_)
  refine (flushPrelude_flushes out).bind fun out' hlevel => ?_
  dsimp only
  split
  · exact (bindPayload_edits ..).andThen fun _ => .pure hlevel
  · exact (temporary_edits "ctx").andThen fun _ => .pure hlevel
  · exact (unsupported_edits _).andThen fun _ => .pure hlevel

theorem withBlock_tidy (items : List WithItem) (h : Tidy body) : Tidy (withBlock items body) := by
  intro out
  refine Ends.bind (Q := (·.level = out.level)) (.inFrame ?_) fun _ hlevel => .pure hlevel
  refine (foldlM_tidy withItem_tidy items _).bind fun out' hitems => ?_
  refine (h out').bind fun o hlevel => .pure ?_
  rw [Buffer.level_dedent, hlevel, hitems, Buffer.level_indent, Buffer.level_line,
    Nat.add_sub_cancel]

theorem bindHandler_tidy (name : Option String) (stmts : List Stmt) (payload : String) :
    Tidy (bindHandler name stmts payload) := by
  intro out
  cases name with
  | none => exact .pure rfl
  | some n =>
    refine (claimIdent_edits n).andThen fun ident => (declareAs_edits n ident _).andThen fun _ => ?_
    refine (tell_edits _).andThen fun _ => .pure ?_
    split <;> rfl

theorem reraise_tidy (payload : String) (first : Bool) : Tidy (reraise payload first) := by
  intro out
  refine .ite (errorExit_tidy payload out) ((errorExit_tidy _ _).bind fun o hlevel => .pure ?_)
  rw [Buffer.level_line, Buffer.level_dedent, hlevel, Buffer.level_indent, Buffer.level_line,
    Nat.add_sub_cancel]

/-- All parts of a `try` statement are tidy. -/
structure TryParts.Tidy (p : TryParts) : Prop where
  body : Emit.Tidy p.body
  handlers : ∀ payload, Emit.Tidy (p.handlers payload)
  orelse : ∀ x ∈ p.orelse, Emit.Tidy x
  finally? : ∀ x ∈ p.finally?, Emit.Tidy x

theorem unguarded_tidy {p : TryParts} (text : String) (h : p.Tidy) : Tidy (unguarded p text) := by
  intro out
  have hnested : (out.nested "\x7b" "\x7d" (·.block text)).level = out.level := by
    simp [Buffer.nested]
  refine (undecided_edits _).andThen fun _ => ?_
  dsimp only
  split
  · rename_i orelse horelse
    exact hnested ▸ braced_tidy (h.orelse orelse horelse) _
  · exact .pure hnested

theorem guarded_tidy {p : TryParts} (number : Nat) (target : CatchTarget) (text : String)
    (h : p.Tidy) : Tidy (guarded p number target text) := by
  intro out
  refine (claimIdent_edits _).andThen fun payload => ?_
  refine (note_clears _).bind fun _ _ => ?_
  refine (Ends.handling (h.handlers payload {})).bind fun chain _ => ?_
  dsimp only
  split
  · refine .pure ?_
    split <;> simp [Buffer.nested]
  · rename_i orelse horelse
    refine (nested_tidy (h.orelse orelse horelse) _).bind fun o hlevel => .pure ?_
    rw [Buffer.level_line, hlevel]
    split <;> simp [Buffer.nested]

theorem tryBlock_tidy {p : TryParts} (h : p.Tidy) : Tidy (tryBlock p) := by
  intro out
  refine nextNumber_edits.andThen fun n => (claimIdent_edits _).andThen fun slot => ?_
  refine (Ends.catching (.inFrame (h.body {}))).bind fun text _ => ?_
  refine .ite ((guarded_tidy n _ _ h out).bind fun out' hlevel => ?_)
    ((unguarded_tidy _ h out).bind fun out' hlevel => ?_)
  all_goals
    rw [← hlevel]
    split
    · rename_i finalbody hfinally
      exact braced_tidy (h.finally? finalbody hfinally) out'
    · exact .pure rfl

end Bodies

/-! ## All statements -/

mutual

/-- **Every statement is tidy**: it leaves nothing pending, and the indentation as it was. -/
theorem stmt_tidy : ∀ s : Stmt, Tidy (stmt s)
  | .assign t v declared, out => by
    rw [stmt]
    exact assign_tidy t v declared out
  | .augAssign t op v, out => by
    rw [stmt]
    exact augAssign_tidy t op v out
  | .expr e, out => by
    rw [stmt]
    exact exprStmt_tidy e out
  | .ret none, out => by
    rw [stmt]
    exact (note_clears _).bind fun _ _ => .pure rfl
  | .ret (some v), out => by
    rw [stmt]
    exact returnValue_tidy v _ out
  | .ifElse test b e, out => by
    rw [stmt]
    refine Ends.always (.after _ fun t => (flushPrelude_flushes out).bind fun out' hlevel => ?_)
    refine (nested_tidy (stmts_tidy b) _).bind fun o ho => ?_
    rw [Buffer.level_line, hlevel] at ho
    exact ho ▸ elseTail_tidy e o
  | .whileLoop test b, out => by
    rw [stmt]
    exact whileLoop_tidy test (stmts_tidy b) out
  | .forLoop t i b, out => by
    rw [stmt]
    exact forLoop_tidy t i b (stmts_tidy b) out
  | .breakLoop, out | .continueLoop, out => by
    rw [stmt]
    exact current_edits.andThen fun _ => (note_clears _).bind fun _ _ => .pure rfl
  | .pass, out => by
    rw [stmt]
    exact .pure rfl
  | .nonlocal _, out => by
    rw [stmt]
    exact .pure rfl
  | .raise e, out => by
    rw [stmt]
    exact (raiseError_edits e).andThen fun error => errorExit_tidy error out
  | .assert test _, out => by
    rw [stmt]
    exact assertion_tidy test out
  | .tryExcept b hs e f, out => by
    rw [stmt]
    refine Annotates.andThen (.ite (unsupported_edits _).toAnnotates (.pure _)) fun _ =>
      tryBlock_tidy ⟨?_, ?_, ?_, ?_⟩ out
    · exact stmts_tidy b
    · exact fun payload => handlers_tidy payload hs true
    · intro x hx
      dsimp only at hx
      split at hx
      · cases hx
      · cases hx
        exact stmts_tidy e
    · intro x hx
      dsimp only at hx
      split at hx
      · cases hx
      · cases hx
        exact stmts_tidy f
  | .withItems items b, out => by
    rw [stmt]
    exact withBlock_tidy items (stmts_tidy b) out
  | .functionDef f, out => by
    rw [stmt]
    exact function_tidy f out
  | .global names, out => by
    rw [stmt]
    have hglobals : Edits (modifyCurrent fun s => { s with globals := s.globals ++ names }) :=
      modifyCurrent_edits (fun _ => ⟨rfl, rfl, rfl, rfl, rfl, rfl⟩) fun _ => ⟨rfl, rfl⟩
    exact hglobals.andThen fun _ => .pure rfl
  | .delete ts, out => by
    rw [stmt]
    exact deleteAll_tidy ts out

theorem stmts_tidy : ∀ ss : List Stmt, Tidy (stmts ss)
  | [], out => by
    rw [stmts]
    exact .pure rfl
  | s :: ss, out => by
    rw [stmts]
    exact (stmt_tidy s out).bind fun out' hlevel => hlevel ▸ stmts_tidy ss out'

theorem elseTail_tidy : ∀ ss : List Stmt, Tidy (elseTail ss)
  | [], out => by
    rw [elseTail]
    exact .pure rfl
  | s :: rest, out => by
    have hblock (hother : ∀ test b e, s = .ifElse test b e → rest = [] → False) :
        Clears (elseTail (s :: rest) out) (·.level = out.level) := by
      rw [elseTail]
      · refine (nested_tidy (fun out => ?_) _).bind fun _ hlevel => .pure hlevel
        exact (stmt_tidy s out).bind fun out' hlevel => hlevel ▸ stmts_tidy rest out'
      · exact hother
    cases s with
    | ifElse test b e =>
      cases rest with
      | nil =>
        rw [elseTail]
        refine elseIf_tidy test (fun out => ?_) out
        exact (nested_tidy (stmts_tidy b) out).bind fun out' hlevel => hlevel ▸ elseTail_tidy e out'
      | cons => exact hblock (by simp)
    | _ => exact hblock (by simp)

theorem handlers_tidy (payload : String) : ∀ (hs : List Handler) (first : Bool),
    Tidy (handlers payload hs first)
  | [], first, out => by
    rw [handlers]
    exact reraise_tidy payload first out
  | ⟨kind, name, body⟩ :: hs, first, out => by
    rw [handlers]
    refine Ends.bind (Q := (·.level = out.level)) (.inFrame ?_) fun out' hlevel => ?_
    · refine (bindHandler_tidy name body payload _).bind fun inner hinner => ?_
      refine (stmts_tidy body inner).bind fun o ho => .pure ?_
      rw [Buffer.level_dedent, ho, hinner, Buffer.level_indent, Buffer.level_line,
        Nat.add_sub_cancel]
    · split
      · exact (undecided_edits _).andThen fun _ => .pure hlevel
      · exact hlevel ▸ handlers_tidy payload hs false out'

theorem function_tidy : ∀ f : Function, Tidy (function f)
  | ⟨name, params, vararg, kwarg, declaredResult, body, decorators, span⟩, out => by
    rw [function]
    refine Ends.always ((synthesize_flushes _ _ true out).bind fun ⟨_, out'⟩ hlevel => ?_)
    exact (decided_edits _).andThen fun _ => .pure hlevel

end

end Emit

end ClosureConversion
