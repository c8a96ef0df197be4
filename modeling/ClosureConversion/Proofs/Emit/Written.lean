import ClosureConversion.Proofs.Emit.Shown
import ClosureConversion.Proofs.Emit.Tidy

/-! # What is noted is written -/

set_option autoImplicit false

namespace ClosureConversion

open Text (Shows)

namespace Emit

variable {α β : Type} {all : Prop} {p : String} {H F : Prop} {T : α → Prop} {U : β → Prop}

/-! ## Results -/

theorem returning_takes (text : String) : Takes all p text (returning (some text)) := by
  intro H out
  refine exitLines_carries _ (fun _ => .result (some text))
    (fun out w c => ⟨_, returning_eq (some text) out w c, rfl, rfl⟩) (fun h _ => ?_) out
  rw [Exit.text_result]
  simp [h]

theorem returning_written (value : Option String) : Written all p (returning value) :=
  exitLines_written _ (fun _ => .result value)
    fun out w c => ⟨_, returning_eq value out w c, rfl, rfl⟩

theorem returnValue_written (value : Expr) {text : Emit String} (h : Shown all p text) :
    Written all p (returnValue value text) := by
  intro H out
  refine (typeOf_edits value).carrying fun ty => Edits.carrying ?_ fun _ => ?_
  · exact modifyCurrent_edits (fun _ => ⟨rfl, rfl, rfl, rfl, rfl, rfl⟩) fun _ => ⟨rfl, rfl⟩
  split
  · exact returning_written none H out
  · exact h.taken (fun t => (returning_takes t).flushing) H out

/-! ## Assignments and deletions -/

/-- A line with the text, given as it is spelled. -/
theorem line_takes {text : String} {line : String} (h : Shows text p → Shows line p) :
    Takes all p text fun out => pure (out.line line) := by
  refine fun H out => .pure ?_
  rintro ((hother | hheld) | hbefore)
  · exact .inl hother
  · exact .inr (Buffer.shows_line.mpr (h hheld.2).append_right)
  · exact .inr (Buffer.shows_line.mpr hbefore.append_left)

/-- A line that was noted, with the text that it was made of. -/
theorem held_line {text line : String} {out : Buffer} (h : Shows text p → Shows line p) :
    ((H ∨ all ∧ Shows text p) ∨ Shows out.text p) ∨ Shows line p →
      H ∨ Shows (out.line line).text p := by
  rintro (((hother | hheld) | hbefore) | hnoted)
  · exact .inl hother
  · exact .inr (Buffer.shows_line.mpr (h hheld.2).append_right)
  · exact .inr (Buffer.shows_line.mpr hbefore.append_left)
  · exact .inr (Buffer.shows_line.mpr hnoted.append_right)

theorem shows_declarationRest (ty : Ty) (isMutable : Bool) {value : String} (h : Shows value p) :
    Shows (Code.declarationRest ty isMutable value) p := by
  unfold Code.declarationRest
  split <;> simp [h]

/-- **The line of an assignment** is the one that was noted, and holds the value. -/
theorem bindName_takes (a : Assignment) (text : String) (source : Option String) :
    Takes all p text (bindName a text source) := by
  intro H out
  refine current_edits.carrying fun state => (isRead_edits _).carrying fun read => .ite ?_ ?_
  · refine (note_carries (Note.text?_declared _ _ _)).bind fun _ => ?_
    refine (decided_edits _).carrying fun _ => (commit_edits a _ source).carrying fun _ => .pure ?_
    intro h
    have hline := held_line (fun hshows => Shows.append_right (shows_declarationRest _ _ hshows)) h
    split
    · exact hline
    · exact hline.imp_right fun hshows => Buffer.shows_line.mpr hshows.append_left
  · refine (note_carries (n := .stored _) rfl).bind fun _ => ?_
    refine (decided_edits _).carrying fun _ => (commit_edits a _ source).carrying fun _ => .pure ?_
    exact held_line fun hshows => Shows.append_right (by simp [hshows])

theorem store_takes (container index : Expr) (value : String) :
    Takes all p value (store container index value) := by
  intro H out
  refine (typeOf_edits container).carrying fun ty => ?_
  refine (renderOperand_shown container).carrying fun c => ?_
  refine (renderExpr_shown index).carrying fun i => ?_
  have hparts {line : String} (hline : Shows value p ∨ Shows c p ∨ Shows i p → Shows line p) :
      (((H ∨ all ∧ Shows value p) ∨ Shows out.text p) ∨ all ∧ Shows c p) ∨ all ∧ Shows i p →
        (H ∨ Shows out.text p) ∨ all ∧ Shows line p := by
    rintro ((((h | h) | h) | h) | h)
    · exact .inl (.inl h)
    · exact .inr ⟨h.1, hline (.inl h.2)⟩
    · exact .inl (.inr h)
    · exact .inr ⟨h.1, hline (.inr (.inl h.2))⟩
    · exact .inr ⟨h.1, hline (.inr (.inr h.2))⟩
  have hwritten (line : String) : Carries all p ((H ∨ Shows out.text p) ∨ all ∧ Shows line p)
      (flushPrelude out >>= fun out' => pure (out'.line line)) fun out' => H ∨ Shows out'.text p :=
    ((line_takes id).flushing H out).mono or_right_comm.mp fun _ => id
  dsimp only
  split
  · exact (hwritten _).mono (hparts (by rintro (h | h | h) <;> simp [h])) fun _ => id
  · refine options_edits.carrying fun o => ?_
    refine (fallibleIf_carries _ (hparts (by rintro (h | h | h) <;> simp [h]))).bind fun put => ?_
    refine (hwritten _).mono ?_ fun _ => id
    exact Or.imp_right (And.imp_right Shows.append_left)
  · refine (fallible_carries _ (hparts (by rintro (h | h | h) <;> simp [h]))).bind fun put => ?_
    refine (hwritten _).mono ?_ fun _ => id
    exact Or.imp_right (And.imp_right Shows.append_left)

theorem partAccess_shown (source : String) (ty : Ty) (i : Nat) :
    Shown all p (partAccess source ty i) := by
  intro H
  unfold partAccess
  split
  · exact .pure .inl
  · exact .pure .inl
  · exact fallible_carries _ .inl

mutual

theorem assignPart_takes : ∀ (t : Target) (access : String) (ty : Ty),
    Takes all p access (assignPart t access ty)
  | .name n, access, ty, H, out => by
    rw [assignPart]
    refine (isDeclaredGlobal_edits n).carrying fun isGlobal => .ite ?_ ?_
    · exact (decided_edits _).carrying fun _ => line_takes (fun h => by simp [h]) H out
    · exact (planAssignment_edits ..).carrying fun a => bindName_takes a access none H out
  | .tuple parts, access, ty, H, out => by
    rw [assignPart]
    refine (temporary_edits "tuple").carrying fun tmp => ?_
    refine (assignParts_written parts tmp ty 0 H _).mono ?_ fun _ => id
    rintro ((h | h) | h) <;> simp [h]
  | .attribute e attr, access, _, H, out => by
    rw [assignPart]
    refine (renderOperand_shown e).carrying fun o => flushing or_right_comm.mp fun out' => .pure ?_
    rintro (((h | h) | h) | h) <;> simp [h]
  | .subscript e i, access, _, H, out => by
    rw [assignPart]
    exact store_takes e i access H out
  | .starred _, _, _, _, _ => by
    rw [assignPart]
    exact unsupported_carries _

theorem assignParts_written : ∀ (ts : List Target) (source : String) (ty : Ty) (i : Nat),
    Written all p (assignParts ts source ty i)
  | [], _, _, _, _, _ => by
    rw [assignParts]
    exact .pure id
  | t :: ts, source, ty, i, H, out => by
    rw [assignParts]
    refine (partAccess_shown source ty i).carrying fun access => ?_
    have hpart := (assignPart_takes t access (ty.part i) H out).mono or_right_comm.mp fun _ => id
    exact hpart.bind fun out' => assignParts_written ts source ty (i + 1) H out'

end

theorem assignName_written (n : String) (value : Expr) (declared : Option Ty) :
    Written all p (assignName n value declared) := by
  intro H out
  refine (isDeclaredGlobal_edits n).carrying fun isGlobal => .ite ?_ ?_
  · refine (decided_edits _).carrying fun _ => ?_
    exact (renderExpr_shown value).taken (fun v => (line_takes fun h => by simp [h]).flushing) H out
  split
  · refine (lambda_carries _ _ _).bind fun built => (planAssignment_edits ..).carrying fun a => ?_
    exact (bindName_takes a built.ident none).flushing.written H out
  · refine (typeOf_edits value).carrying fun ty => (planAssignment_edits ..).carrying fun a => ?_
    refine scope_edits.carrying fun s => ?_
    exact (render_shown value _).taken (fun text => (bindName_takes a text _).flushing) H out

theorem assign_written (target : Target) (value : Expr) (declared : Option Ty) :
    Written all p (assign target value declared) := by
  intro H out
  cases target with
  | name n => exact assignName_written n value declared H out
  | tuple parts =>
    refine (typeOf_edits value).carrying fun ty => (renderExpr_shown value).carrying fun text => ?_
    refine flushing or_right_comm.mp fun out' => (temporary_edits "tuple").carrying fun tmp => ?_
    refine (assignParts_written parts tmp ty 0 H _).mono ?_ fun _ => id
    rintro ((h | h) | h) <;> simp [h]
  | «attribute» e attr =>
    refine (renderExpr_shown value).carrying fun v => (renderOperand_shown e).carrying fun o => ?_
    refine flushing (fun h => or_right_comm.mp (h.imp_left or_right_comm.mp)) fun out' => .pure ?_
    rintro (((h | h) | h) | h) <;> simp [h]
  | subscript e i => exact (renderExpr_shown value).taken (fun v => store_takes e i v) H out
  | starred t => exact unsupported_carries _

theorem updateLine_takes {text rest : String} (isGlobal : Bool) (n ident : String)
    (previous : Option Binding) (h : Shows text p → Shows rest p) :
    Takes all p text (updateLine isGlobal n ident rest previous) := by
  intro H out
  cases isGlobal with
  | true => exact line_takes (fun hshows => Shows.append_right (h hshows)) H out
  | false =>
    refine (note_carries (n := .stored _) rfl).bind fun _ => .pure ?_
    exact held_line fun hshows => Shows.append_right (h hshows)

theorem updateName_written (n : String) (op : BinOp) (value : Expr) :
    Written all p (updateName n op value) := by
  intro H out
  refine (typeOf_edits _).carrying fun ty => (typeOf_edits value).carrying fun valueTy => ?_
  refine (name_edits n).carrying fun ident => (isDeclaredGlobal_edits n).carrying fun isGlobal => ?_
  refine scope_edits.carrying fun s => ?_
  unfold writeUpdate
  split
  · exact (renderExpr_shown value).taken
      (fun v => (updateLine_takes isGlobal n ident _ fun h => by simp [h]).flushing) H out
  · refine (renderExpr_shown value).carrying fun v => options_edits.carrying fun o => ?_
    refine (fallibleIf_carries (F := H ∨ Shows out.text p) _ ?_).bind fun text => ?_
    · rintro (h | h) <;> simp [h]
    · exact ((line_takes fun h => by simp [h]).flushing H out).mono or_right_comm.mp fun _ => id
  · exact (renderExpr_shown _).taken
      (fun v => (updateLine_takes isGlobal n ident _ fun h => by simp [h]).flushing) H out

theorem augAssign_written (target : Target) (op : BinOp) (value : Expr) :
    Written all p (augAssign target op value) := by
  intro H out
  cases target with
  | name n =>
    refine (isDeclaredGlobal_edits n).carrying fun isGlobal => .ite ?_ ?_
    · exact (decided_edits _).carrying fun _ => updateName_written n op value H out
    refine (typeOf_edits _).carrying fun ty => (planAssignment_edits ..).carrying fun a => ?_
    split
    · exact (renderExpr_shown _).taken (fun text => (bindName_takes a text none).flushing) H out
    · exact (decided_edits _).carrying fun _ => updateName_written n op value H out
  | «attribute» e attr => exact assign_written (.attribute e attr) _ none H out
  | subscript e i => exact assign_written (.subscript e i) _ none H out
  | tuple parts => exact unsupported_carries _
  | starred t => exact unsupported_carries _

mutual

theorem delete_written : ∀ t : Target, Written all p (delete t)
  | .subscript e i, H, out => by
    rw [delete]
    refine (typeOf_edits e).carrying fun ty => (renderOperand_shown e).carrying fun c => ?_
    refine (renderExpr_shown i).carrying fun index => ?_
    have hparts {line : String} (hline : Shows c p ∨ Shows index p → Shows line p) :
        ((H ∨ Shows out.text p) ∨ all ∧ Shows c p) ∨ all ∧ Shows index p →
          (H ∨ Shows out.text p) ∨ all ∧ Shows line p := by
      rintro (((h | h) | h) | h)
      · exact .inl (.inl h)
      · exact .inl (.inr h)
      · exact .inr ⟨h.1, hline (.inl h.2)⟩
      · exact .inr ⟨h.1, hline (.inr h.2)⟩
    have hwritten (line : String) : Carries all p ((H ∨ Shows out.text p) ∨ all ∧ Shows line p)
        (flushPrelude out >>= fun out' => pure (out'.line line)) fun out' => H ∨ Shows out'.text p :=
      ((line_takes id).flushing H out).mono or_right_comm.mp fun _ => id
    dsimp only
    split
    · exact (hwritten _).mono (hparts (by rintro (h | h) <;> simp [h])) fun _ => id
    · exact (hwritten _).mono (hparts (by rintro (h | h) <;> simp [h])) fun _ => id
    · refine (fallible_carries _ (hparts (by rintro (h | h) <;> simp [h]))).bind fun text => ?_
      exact (hwritten _).mono (Or.imp_right (And.imp_right Shows.append_left)) fun _ => id
  | .name n, H, out => by
    rw [delete]
    exact (tell_edits _).carrying fun _ => .pure id
  | .tuple parts, H, out => by
    rw [delete]
    exact deleteAll_written parts H out
  | .attribute _ _, _, _ => by
    rw [delete]
    exact unsupported_carries _
  | .starred _, _, _ => by
    rw [delete]
    exact unsupported_carries _

theorem deleteAll_written : ∀ ts : List Target, Written all p (deleteAll ts)
  | [], _, _ => by
    rw [deleteAll]
    exact .pure id
  | t :: ts, H, out => by
    rw [deleteAll]
    exact (delete_written t H out).bind fun out' => deleteAll_written ts H out'

end

/-! ## Single statements, given their bodies -/

section Bodies

variable {body : Buffer → Emit Buffer}

theorem nested_written (h : Written all p body) : Written all p (nested body) := by
  intro H out
  refine Carries.inFrame (Carries.bind (h H out.indent) fun out' => ?_)
  exact .pure id

theorem braced_written (h : Written all p body) : Written all p (braced body) := by
  intro H out
  refine (nested_written h).carrying (F := H) ?_ fun out' => .pure ?_
  all_goals rintro (h | h) <;> simp [h]

theorem exprStmt_written (e : Expr) : Written all p (exprStmt e) := by
  intro H out
  unfold exprStmt
  split
  · exact .pure id
  · refine (typeOf_edits e).carrying fun ty => (renderExpr_shown e).carrying fun text => ?_
    refine flushing or_right_comm.mp fun out' => .pure ?_
    split
    all_goals rintro ((h | h) | h) <;> simp [h]

theorem jump_written (keyword : String) : Written all p (jump keyword) :=
  exitLines_written _ (fun c => .jump c.current.loops keyword)
    fun out w c => ⟨_, jump_eq keyword out w c, rfl, rfl⟩

theorem assertion_written (test : Expr) : Written all p (assertion test) := by
  intro H out
  refine (renderCondition_shown test).carrying fun t => flushing or_right_comm.mp fun out' => ?_
  refine (errorExit_written .raised "error.AssertionError").carrying (F := H) ?_ fun raised => .pure ?_
  · rintro ((h | h) | h) <;> simp [h]
  · rintro (h | h) <;> simp [h]

theorem whileLoop_written (test : Expr) (h : Written all p body) :
    Written all p (whileLoop test body) := by
  intro H out
  refine isolated_carrying (renderCondition_shown test) fun t before => ?_
  dsimp only
  split
  · rename_i hempty
    refine Carries.bind (Carries.looping ((nested_written h H _).mono ?_ fun _ => id)) fun o =>
      .pure ?_
    · -- a test without statements of its own leaves nothing behind
      rw [String.isEmpty_iff.mp hempty]
      rintro ((h | h) | h | h)
      · exact .inl h
      · simp [h]
      · exact .inr h.of_empty
      · simp [h]
    · rintro (h | h) <;> simp [h]
  · refine Carries.bind (Carries.looping (Carries.inFrame ((h H _).mono ?_ fun _ => id))) fun o =>
      .pure ?_
    · rintro ((h | h) | h | h) <;> simp [h]
    · rintro (h | h) <;> simp [h]

theorem forLoop_written (target : Target) (iter : Expr) (stmts : List Stmt)
    (h : Written all p body) : Written all p (forLoop target iter stmts body) := by
  intro H out
  refine (tell_edits _).carrying fun _ => Carries.inFrame ?_
  refine (openLoop_carries target _ out (renderExpr_shown iter) (argTexts_shown iter)
    fun f args kws => length_argTexts).bind fun ⟨braces, opened⟩ => ?_
  refine (Carries.looping (h H opened)).bind fun out' => .pure ?_
  exact Or.imp_right (shows_closeLoop braces)

theorem elseIf_written (test : Expr) (h : Written all p body) :
    Written all p (elseIf test body) := by
  intro H out
  refine Carries.inFrame (isolated_carrying (renderCondition_shown test) fun t before => ?_)
  dsimp only
  split
  · rename_i hempty
    refine (h H _).mono ?_ fun _ => id
    rw [String.isEmpty_iff.mp hempty]
    rintro ((h | h) | h | h)
    · exact .inl h
    · simp [h]
    · exact .inr h.of_empty
    · simp [h]
  · refine h.carrying (F := H) ?_ fun out' => .pure ?_
    · rintro ((h | h) | h | h) <;> simp [h]
    · rintro (h | h) <;> simp [h]

theorem withItem_written (item : WithItem) : Written all p (withItem · item) := by
  intro H out
  refine (typeOf_edits _).carrying fun ty => (renderExpr_shown _).carrying fun text => ?_
  refine flushing or_right_comm.mp fun out' => ?_
  have hlines (ident : String) : (H ∨ all ∧ Shows text p) ∨ Shows out'.text p →
      H ∨ Shows ((out'.line s!"const {ident} = {text};").line s!"defer {ident}.close();").text
        p := by
    rintro ((h | h) | h) <;> simp [h]
  dsimp only
  split
  · exact (bindPayload_edits ..).carrying fun ident => .pure (hlines ident)
  · exact (temporary_edits "ctx").carrying fun ident => .pure (hlines ident)
  · exact (unsupported_edits _).carrying fun ident => .pure (hlines ident)

/-- One body after the other. -/
theorem foldlM_written {f : Buffer → α → Emit Buffer} (h : ∀ a, Written all p (f · a))
    (as : List α) : Written all p fun out => as.foldlM f out := by
  intro H out
  induction as generalizing out with
  | nil => exact .pure id
  | cons a rest ih =>
    show Carries all p _ ((a :: rest).foldlM f out) _
    rw [List.foldlM_cons]
    exact (h a H out).bind fun out' => ih out'

theorem withBlock_written (items : List WithItem) (h : Written all p body) :
    Written all p (withBlock items body) := by
  intro H out
  refine Carries.bind (T := fun out' => H ∨ Shows out'.text p) (Carries.inFrame ?_) fun out' =>
    .pure ?_
  · refine (foldlM_written withItem_written items).carrying (F := H) ?_ fun opened => ?_
    · rintro (h | h) <;> simp [h]
    · exact (h H opened).bind fun out' => .pure id
  · rintro (h | h) <;> simp [h]

theorem bindHandler_written (name : Option String) (stmts : List Stmt) (payload : String) :
    Written all p (bindHandler name stmts payload) := by
  intro H out
  cases name with
  | none => exact .pure id
  | some n =>
    refine (claimIdent_edits n).carrying fun ident => (declareAs_edits n ident _).carrying fun _ => ?_
    refine (tell_edits _).carrying fun _ => .pure ?_
    split
    · rintro (h | h) <;> simp [h]
    · exact id

theorem reraise_written (payload : String) (first : Bool) :
    Written all p (reraise payload first) := by
  intro H out
  refine .ite (errorExit_written .rethrown payload H out) ?_
  refine (errorExit_written .rethrown payload).carrying (F := H) ?_ fun out' => .pure ?_
  all_goals rintro (h | h) <;> simp [h]

/-- All parts of a `try` statement show what was noted of them. -/
structure TryParts.Written (all : Prop) (q : String) (p : TryParts) : Prop where
  body : Emit.Written all q p.body
  handlers : ∀ payload, Emit.Written all q (p.handlers payload)
  orelse : ∀ x ∈ p.orelse, Emit.Written all q x
  finally? : ∀ x ∈ p.finally?, Emit.Written all q x

theorem unguarded_carries {t : TryParts} (text : String) (out : Buffer) (h : t.Written all p) :
    Carries all p ((H ∨ Shows out.text p) ∨ Shows text p) (unguarded t text out)
      fun out' => H ∨ Shows out'.text p := by
  have hnested : (H ∨ Shows out.text p) ∨ Shows text p →
      H ∨ Shows (out.nested "\x7b" "\x7d" (·.block text)).text p := by
    unfold Buffer.nested
    rintro ((h | h) | h) <;> simp [h]
  refine (undecided_edits _).carrying fun _ => ?_
  dsimp only
  split
  · rename_i orelse horelse
    exact (braced_written (h.orelse orelse horelse) H _).mono hnested fun _ => id
  · exact .pure hnested

theorem guarded_carries {t : TryParts} (number : Nat) (target : CatchTarget) (text : String)
    (out : Buffer) (h : t.Written all p) :
    Carries all p ((H ∨ Shows out.text p) ∨ Shows text p) (guarded t number target text out)
      fun out' => H ∨ Shows out'.text p := by
  refine (claimIdent_edits _).carrying fun payload => ?_
  refine (note_carries (n := .handled target payload) rfl).bind fun _ => ?_
  refine Carries.bind (Carries.handling ((h.handlers payload _ {}).mono .inl fun _ => id))
    fun chain => ?_
  dsimp only
  generalize hopened : (((out.line s!"var {target.slot}: ?anyerror = null;").nested
    s!"{target.label}: \x7b" "\x7d" (·.block text)).line
    s!"if ({target.slot}) |{payload}| \x7b").indent = opened
  have hopen : ((H ∨ Shows out.text p) ∨ Shows text p) ∨
      Shows s!"if ({target.slot}) |{payload}| \x7b" p → H ∨ Shows opened.text p := by
    rw [← hopened]
    unfold Buffer.nested
    rintro (((h | h) | h) | h)
    · exact .inl h
    · simp [h]
    · simp [h]
    · exact .inr (Buffer.shows_line.mpr h.append_right)
  have hchain : (((H ∨ Shows out.text p) ∨ Shows text p) ∨
      Shows s!"if ({target.slot}) |{payload}| \x7b" p) ∨ Shows chain.text p →
      H ∨ Shows (((if Text.mentions chain.text payload then opened else
        opened.line s!"_ = {payload};").block chain.text).dedent).text p := by
    rintro (h | h)
    · refine (hopen h).imp_right fun hshows => ?_
      split <;> simp [hshows]
    · split <;> simp [h]
  split
  · refine .pure fun hheld => (hchain hheld).imp_right fun hshows => ?_
    exact Buffer.shows_line.mpr hshows.append_left
  · rename_i orelse horelse
    refine (nested_written (h.orelse orelse horelse)).carrying (F := H) (fun hheld => ?_) fun o =>
      .pure ?_
    · exact (hchain hheld).imp_right fun hshows => Buffer.shows_line.mpr hshows.append_left
    · rintro (h | h) <;> simp [h]

theorem tryBlock_written {t : TryParts} (h : t.Written all p) : Written all p (tryBlock t) := by
  intro H out
  refine nextNumber_edits.carrying fun n => (claimIdent_edits _).carrying fun slot => ?_
  refine Carries.bind (Carries.catching (Carries.inFrame ((h.body _ {}).mono .inl fun _ => id)))
    fun text => ?_
  refine .ite ((guarded_carries n _ _ out h).bind fun out' => ?_)
    ((unguarded_carries _ out h).bind fun out' => ?_)
  all_goals
    split
    · rename_i finalbody hfinally
      exact braced_written (h.finally? finalbody hfinally) H out'
    · exact .pure id

end Bodies

/-! ## All statements -/

mutual

/-- **Every statement shows what was noted of it**, behind what was written before. -/
theorem stmt_written : ∀ s : Stmt, Written all p (stmt s)
  | .assign t v declared, H, out => by
    rw [stmt]
    exact assign_written t v declared H out
  | .augAssign t op v, H, out => by
    rw [stmt]
    exact augAssign_written t op v H out
  | .expr e, H, out => by
    rw [stmt]
    exact exprStmt_written e H out
  | .ret none, H, out => by
    rw [stmt]
    exact returning_written none H out
  | .ret (some v), H, out => by
    rw [stmt]
    exact returnValue_written v (renderExpr_shown v) H out
  | .ifElse test b e, H, out => by
    rw [stmt]
    refine (renderCondition_shown test).carrying fun t => flushing or_right_comm.mp fun out' => ?_
    refine (nested_written (stmts_written b)).carrying (F := H) ?_ fun o => elseTail_written e H o
    rintro ((h | h) | h) <;> simp [h]
  | .whileLoop test b, H, out => by
    rw [stmt]
    exact whileLoop_written test (stmts_written b) H out
  | .forLoop t i b, H, out => by
    rw [stmt]
    exact forLoop_written t i b (stmts_written b) H out
  | .breakLoop, H, out | .continueLoop, H, out => by
    rw [stmt]
    exact jump_written _ H out
  | .pass, _, _ | .nonlocal _, _, _ => by
    rw [stmt]
    exact .pure id
  | .raise e, H, out => by
    rw [stmt]
    exact (raiseError_edits e).carrying fun error => errorExit_written .raised error H out
  | .assert test _, H, out => by
    rw [stmt]
    exact assertion_written test H out
  | .tryExcept b hs e f, H, out => by
    rw [stmt]
    refine Edits.carrying (.ite (unsupported_edits _) (.pure _)) fun _ =>
      tryBlock_written ⟨?_, ?_, ?_, ?_⟩ H out
    · exact stmts_written b
    · exact fun payload => handlers_written payload hs true
    · intro x hx
      dsimp only at hx
      split at hx
      · cases hx
      · cases hx
        exact stmts_written e
    · intro x hx
      dsimp only at hx
      split at hx
      · cases hx
      · cases hx
        exact stmts_written f
  | .withItems items b, H, out => by
    rw [stmt]
    exact withBlock_written items (stmts_written b) H out
  | .functionDef f, H, out => by
    rw [stmt]
    exact function_written f H out
  | .global names, H, out => by
    rw [stmt]
    have hglobals : Edits (modifyCurrent fun s => { s with globals := s.globals ++ names }) :=
      modifyCurrent_edits (fun _ => ⟨rfl, rfl, rfl, rfl, rfl, rfl⟩) fun _ => ⟨rfl, rfl⟩
    exact hglobals.carrying fun _ => .pure id
  | .delete ts, H, out => by
    rw [stmt]
    exact deleteAll_written ts H out

theorem stmts_written : ∀ ss : List Stmt, Written all p (stmts ss)
  | [], _, _ => by
    rw [stmts]
    exact .pure id
  | s :: ss, H, out => by
    rw [stmts]
    exact (stmt_written s H out).bind fun out' => stmts_written ss H out'

theorem elseTail_written : ∀ ss : List Stmt, Written all p (elseTail ss)
  | [], _, _ => by
    rw [elseTail]
    exact .pure (by rintro (h | h) <;> simp [h])
  | s :: rest, H, out => by
    have hblock (hother : ∀ test b e, s = .ifElse test b e → rest = [] → False) :
        Carries all p (H ∨ Shows out.text p) (elseTail (s :: rest) out)
          fun out' => H ∨ Shows out'.text p := by
      rw [elseTail]
      · have hbody : Written all p fun out => stmt s out >>= fun out' => stmts rest out' :=
          fun H out => (stmt_written s H out).bind fun out' => stmts_written rest H out'
        refine (nested_written hbody).carrying (F := H) ?_ fun o => .pure ?_
        all_goals rintro (h | h) <;> simp [h]
      · exact hother
    cases s with
    | ifElse test b e =>
      cases rest with
      | nil =>
        rw [elseTail]
        refine elseIf_written test (fun H out => ?_) H out
        exact (nested_written (stmts_written b) H out).bind fun out' => elseTail_written e H out'
      | cons => exact hblock (by simp)
    | _ => exact hblock (by simp)

theorem handlers_written (payload : String) : ∀ (hs : List Handler) (first : Bool),
    Written all p (handlers payload hs first)
  | [], first, H, out => by
    rw [handlers]
    exact reraise_written payload first H out
  | ⟨kind, name, body⟩ :: hs, first, H, out => by
    rw [handlers]
    refine Carries.bind (T := fun out' => H ∨ Shows out'.text p) (Carries.inFrame ?_) fun out' => ?_
    · refine (bindHandler_written name body payload).carrying (F := H) ?_ fun inner => ?_
      · rintro (h | h) <;> simp [h]
      · refine Carries.bind (stmts_written body H inner) fun o => ?_
        exact .pure id
    · split
      · exact (undecided_edits _).carrying fun _ => .pure (by rintro (h | h) <;> simp [h])
      · exact handlers_written payload hs false H out'

theorem function_written : ∀ f : Function, Written all p (function f)
  | ⟨name, params, vararg, kwarg, declaredResult, body, decorators, span⟩, H, out => by
    rw [function]
    refine (synthesize_carries _ _ true out fun x hx => ?_).bind fun ⟨built, out'⟩ => ?_
    · obtain ⟨d, -, rfl⟩ := List.mem_map.mp hx
      exact renderExpr_shown d
    · exact (decided_edits _).carrying fun _ => .pure id

end

/-! ## Bodies -/

/-- The text shows what was noted. Lines are all there; a piece of an expression is missing only if
it stood in an operand that was dropped. -/
structure ShowsNotes (text : String) (notes : List Note) : Prop where
  lines : ∀ n ∈ notes, n.isInline = false → ∀ piece, n.text? = some piece → Shows text piece
  noted : ∀ n ∈ notes, ∀ piece, n.text? = some piece →
    Shows text piece ∨ ∃ operand, Note.dropped operand ∈ notes ∧ Shows operand piece

theorem ShowsNotes.queued {text piece : String} {notes : List Note} (h : ShowsNotes text notes)
    (hpiece : piece ∈ notes.filterMap Note.queued?) : Shows text piece := by
  obtain ⟨n, hn, hqueued⟩ := List.mem_filterMap.mp hpiece
  cases n with
  | queued t => exact h.lines _ hn rfl piece hqueued
  | _ => cases hqueued

/-- **Where nothing is pending, the text shows what was noted**, and what the caller held. -/
theorem showsNotes_of_carries {x : Emit Buffer} {w : Settings} {c c' : Context} {out : Buffer}
    {H : String → Prop} (hx : ∀ all p, Carries all p (H p) x fun out => Shows out.text p)
    (hend : c'.prelude.isEmpty = true) (heq : x w c = (.ok out, c')) :
    ∃ new, c'.current.notes = new ++ c.current.notes ∧ ShowsNotes out.text new ∧
      ∀ p, H p → Shows out.text p := by
  obtain ⟨new, hnew, -⟩ := hx False "" w c out c' heq
  have hfound (all : Prop) (q : String) : H q ∨ (∃ n ∈ new, n.Traced all q) →
      Shows out.text q ∨ ∃ text, all ∧ Note.dropped text ∈ new ∧ Shows text q := by
    obtain ⟨new', hnew', hfound⟩ := hx all q w c out c' heq
    obtain rfl := List.append_cancel_right (hnew.symm.trans hnew')
    intro h
    rcases hfound (h.imp_right .inr) with hshown | hpending | hdropped
    · exact .inl hshown
    · rw [String.isEmpty_iff.mp hend] at hpending
      exact .inl hpending.of_empty
    · exact .inr hdropped
  refine ⟨new, hnew, ⟨fun n hn hline piece hpiece => ?_, fun n hn piece hpiece => ?_⟩,
    fun q hq => ?_⟩
  · rcases hfound False piece (.inr ⟨n, hn, hpiece, .inr hline⟩) with h | ⟨_, h, -⟩
    · exact h
    · exact h.elim
  · refine (hfound True piece (.inr ⟨n, hn, hpiece, .inl trivial⟩)).imp_right ?_
    exact fun ⟨operand, _, h⟩ => ⟨operand, h⟩
  · rcases hfound False q (.inl hq) with h | ⟨_, h, -⟩
    · exact h
    · exact h.elim

/-- A body that starts without pending statements shows its notes. -/
theorem Tidy.shows {body : Buffer → Emit Buffer} {w : Settings} {c c' : Context}
    {out out' : Buffer} (htidy : Tidy body) (hbody : ∀ all p, Written all p body)
    (hstart : c.prelude.isEmpty = true) (heq : body out w c = (.ok out', c')) :
    ∃ new, c'.current.notes = new ++ c.current.notes ∧ ShowsNotes out'.text new ∧
      ∀ p, Shows out.text p → Shows out'.text p := by
  refine showsNotes_of_carries (fun all p => ?_) (htidy out w c out' c' hstart heq).1 heq
  exact (hbody all p False out).mono .inr fun _ h => h.resolve_left id

theorem declareHoisted_written (name : String) (ty : Ty) :
    Written all p (declareHoisted · name ty) := by
  intro H out
  refine (claimIdent_edits name).carrying fun ident => ?_
  refine (note_carries (Note.text?_var rfl _ _)).bind fun _ => ?_
  refine Edits.carrying ?_ fun _ => .pure ?_
  · exact modifyScope_edits fun s => Scope.keeps_declareInFunction s name ident _
  · rintro ((h | h) | h)
    · exact .inl h
    · exact .inr (Buffer.shows_line.mpr h.append_left)
    · exact .inr (Buffer.shows_line.mpr h.append_right)

/-- The prologue of a body has a line for each copy of a formal that was noted. -/
theorem plannedBody_carries (formals : List Formal) (plan : BodyPlan)
    {body : Buffer → Emit Buffer} (h : Written all p body) :
    Carries all p False (plannedBody formals plan body) fun out => Shows out.text p := by
  let prologue := Buffer.lines {} (formals.filterMap Formal.copyLine?)
  have hcopies : (∃ n ∈ formals.filterMap Formal.copyNote?, n.Traced all p) →
      Shows prologue.text p := by
    rintro ⟨n, hn, htraced, -⟩
    obtain ⟨q, hq, hnote⟩ := List.mem_filterMap.mp hn
    obtain ⟨rest, hrest, rfl⟩ := Option.map_eq_some_iff.mp hnote
    rw [Note.text?_var rfl] at htraced
    have hline : p ∈ formals.filterMap Formal.copyLine? := by
      refine List.mem_filterMap.mpr ⟨q, hq, ?_⟩
      rw [Formal.copyLine?, hrest]
      exact htraced
    exact Buffer.shows_lines.mpr (Text.shows_join_of_mem hline (.refl p)).append_right
  refine ((noteAll_carries hcopies).mono id fun _ => id).bind fun _ => ?_
  have hhoisted (e : String × Ty) : Written all p (declareHoisted · e.1 e.2) :=
    declareHoisted_written e.1 e.2
  refine (foldlM_written hhoisted plan.hoisted).carrying id fun out => ?_
  exact (h False out).mono id fun _ hshown => hshown.resolve_left id

/-- **The text of a body shows its notes.** -/
theorem functionBody_shows {f : Function} {qualname : String} {formals : List Formal} {u : Usage}
    {body : Buffer → Emit Buffer} {w : Settings} {c c' : Context} {written : WrittenBody}
    (htidy : Tidy body) (hbody : ∀ all p, Written all p body) (hstart : c.prelude.isEmpty = true)
    (heq : functionBody f qualname formals u body w c = (.ok written, c')) :
    ShowsNotes written.text written.notes := by
  obtain ⟨⟨state, formals'⟩, c₁, hplan, heq⟩ := bind_eq_ok heq
  obtain ⟨⟨out, ended⟩, c₂, hinside, heq⟩ := bind_eq_ok heq
  obtain ⟨c₃, hplanned, rfl, rfl⟩ := inFunction_eq_ok hinside
  cases heq
  have hprelude : c₁.prelude.isEmpty = true :=
    ((planFunction_edits f qualname formals u).clears w c _ c₁ hstart hplan).1
  have hend := (plannedBody_clears formals' state.plan htidy w { c₁ with current := state } out c₃
    hprelude hplanned).1
  obtain ⟨new, hnew, hshown, -⟩ := showsNotes_of_carries
    (fun all p => plannedBody_carries formals' state.plan (hbody all p)) hend hplanned
  have hnone : state.notes = [] := by
    cases hplan
    rfl
  rw [hnew, hnone, List.append_nil]
  exact hshown

/-- Nothing is lost of a body that is written as the body of a function: nothing is pending in the
end that could be thrown away, and the text shows what was noted. -/
structure LosesNothing (body : Buffer → Emit Buffer) : Prop where
  dropsNothing : DropsNothing body
  shows : ∀ f qualname formals u w c written c', c.prelude.isEmpty = true →
    functionBody f qualname formals u body w c = (.ok written, c') →
    ShowsNotes written.text written.notes

theorem Tidy.losesNothing {body : Buffer → Emit Buffer} (htidy : Tidy body)
    (hbody : ∀ all p, Written all p body) : LosesNothing body :=
  ⟨htidy.dropsNothing, fun _ _ _ _ _ _ _ _ => functionBody_shows htidy hbody⟩

theorem shows_routineText (keyword name : String) (params : List String) (result body : String)
    (out : Buffer) : Shows (Closure.routineText keyword name params result body out).text body := by
  unfold Closure.routineText Buffer.nested
  exact Buffer.shows_line.mpr (Buffer.shows_block.mpr (Shows.refl body).append_right).append_left

theorem shows_forwarder {params : List String} {result target : String} {args : List String}
    {out : Buffer} (h : Shows out.text p) :
    Shows (Closure.forwarder params result target args out).text p := by
  unfold Closure.forwarder Buffer.nested
  simp [h]

/-- **The declarations of a closure hold its body.** -/
theorem shows_declarations (wrapper : String) (layout : Closure.Layout) (captures : CaptureSet)
    (parts : Closure.Parts) (result : String) :
    Shows (Closure.declarations wrapper layout captures parts result).text parts.body := by
  cases layout with
  | aggregate => exact Buffer.shows_line.mpr (shows_routineText ..).append_left
  | «environment» | routine =>
    refine Buffer.shows_line.mpr (Shows.append_left ?_)
    exact shows_forwarder (Buffer.shows_line.mpr (shows_routineText ..).append_left)

end Emit

end ClosureConversion
