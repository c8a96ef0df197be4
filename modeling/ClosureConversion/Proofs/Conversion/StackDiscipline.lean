import ClosureConversion.Proofs.Conversion.Rounds
import ClosureConversion.Proofs.Emit.Composed
import ClosureConversion.Proofs.Emit.Written

/-! # Stack discipline -/

set_option autoImplicit false

namespace ClosureConversion

/-! ## Passes -/

theorem ConvertError.diagnostic_code (e : ConvertError) : e.diagnostic.code = e.code := by
  cases e <;> rfl

/-- No diagnostic is about the converter itself. -/
def Report.Blameless (r : Report) : Prop := ∀ d ∈ r, d.code ≠ .internalError

theorem Pass.step_blameless {m : Module} {sigs : Signatures} {w : Settings} {p : Pass}
    (f : Function) (hp : p.report.Blameless) : (Pass.step m sigs w p f).report.Blameless := by
  let start : Context :=
    { scope := moduleScope m sigs p.claimed, journal := p.journal, trace := p.trace }
  obtain ⟨hbalanced, hresult⟩ := (Emit.topLevel_composed f (sigs.get? f.name)).balanced w start
  have hreport : Report.Blameless (Emit.topLevel f (sigs.get? f.name) w start).2.report := by
    intro d hd
    rcases hbalanced.report.mem hd with hnone | hadvice
    · cases hnone
    · exact hadvice.1
  unfold Pass.step
  dsimp only
  intro d hd
  split at hd
  · rename_i g c htop
    rw [htop] at hreport
    rcases List.mem_append.mp hd with hbefore | hnew
    · exact hp d hbefore
    · exact hreport d hnew
  · rename_i e c htop
    rw [htop] at hreport hresult
    rcases List.mem_append.mp hd with hbefore | hlast
    · rcases List.mem_append.mp hbefore with hbefore | hnew
      · exact hp d hbefore
      · exact hreport d hnew
    · obtain rfl := List.mem_singleton.mp hlast
      rw [ConvertError.diagnostic_code]
      cases e with
      | internal what => exact absurd rfl (hresult what)
      | unsupportedCapture | unsupportedConstruct => exact fun hcode => by cases hcode

/-- **No pass reports an internal error.** -/
theorem convertPass_blameless (m : Module) (sigs : Signatures) (w : Settings) (journal : Journal) :
    (convertPass m sigs w journal).report.Blameless := by
  have hfold : ∀ (fs : List Function) (p : Pass), p.report.Blameless →
      (fs.foldl (Pass.step m sigs w) p).report.Blameless := by
    intro fs
    induction fs with
    | nil => exact fun p hp => hp
    | cons f rest ih => exact fun p hp => ih _ (Pass.step_blameless f hp)
  exact hfold m.functions { journal } fun d hd => by cases hd

/-! ## Statements -/

/-- **Stack discipline.** Whether a statement succeeds or fails, the frames of the scope are as
many as before and of the same kinds, the table of renames is as deep as before, and the state of
the current function still has its name, span, plan and usage, its `try` bodies and its handlers. A
table without any frame, which no scope starts with, has got its outermost one at most.

If the statement succeeds, nothing is pending and the indentation is what it was. The text shows
what it showed before, and every line that was noted on the way, the queued statements among them.
The bodies of nested functions and lambdas are no exception: nothing is pending where one of them
ends, its text shows the lines that were noted in it, and the declarations of the closure show that
text.

No module has a conversion that reports an internal error. -/
theorem stmt_keeps_stacks (s : Stmt) (out : Buffer) (w : Settings) (c : Context)
    (hprelude : c.prelude.isEmpty = true) :
    let r := (Emit.stmt s out w c).1
    let c' := (Emit.stmt s out w c).2
    (c'.scope.allFrames.map Frame.kind = c.scope.allFrames.map Frame.kind ∧
      (c'.scope.renames.depth = c.scope.renames.depth ∨
        c.scope.renames.depth = 0 ∧ c'.scope.renames.depth = 1) ∧
      c.current.Same c'.current) ∧
    (∀ out', r = .ok out' → (c'.prelude.isEmpty = true ∧ out'.level = out.level) ∧
      ∃ new, c'.current.notes = new ++ c.current.notes ∧ Emit.ShowsNotes out'.text new ∧
        ∀ piece, Text.Shows out.text piece → Text.Shows out'.text piece) ∧
    ((∀ body, Emit.LosesNothing (Emit.stmts body)) ∧
      (∀ e, Emit.LosesNothing (Emit.returnValue e (Emit.renderExpr e))) ∧
      ∀ wrapper layout captures parts result,
        Text.Shows (Closure.declarations wrapper layout captures parts result).text parts.body) ∧
    ∀ (m : Module) (oracle : Oracle) (options : Options),
      ∀ d ∈ (convert m oracle options).report, d.code ≠ .internalError := by
  intro r c'
  obtain ⟨hbalanced, -⟩ := (Emit.stmt_composed s out (Latitude.free_permits _)).balanced w c
  refine ⟨⟨hbalanced.scope.kinds, hbalanced.scope.renames, hbalanced.current⟩, ?_, ⟨?_, ?_, ?_⟩, ?_⟩
  · intro out' hok
    have hwritten : Emit.stmt s out w c = (.ok out', c') := Prod.ext hok rfl
    exact ⟨Emit.stmt_tidy s out w c out' c' hprelude hwritten,
      (Emit.stmt_tidy s).shows (fun _ _ => Emit.stmt_written s) hprelude hwritten⟩
  · exact fun body => (Emit.stmts_tidy body).losesNothing fun _ _ => Emit.stmts_written body
  · exact fun e => (Emit.returnValue_tidy e _).losesNothing fun _ _ =>
      Emit.returnValue_written e (Emit.renderExpr_shown e)
  · exact Emit.shows_declarations
  · intro m oracle options d hd
    rw [convert, convertWithJournal_eq] at hd
    exact convertPass_blameless m _ _ _ d hd

/-- A block in a function, inside a `try` body and inside a handler. -/
def deepContext : Context :=
  { scope := ((({} : Scope).pushFunction "outer" ["xs"]).declareAs "xs" "xs"
      { kind := .param, slot := ⟨"xs", .formal false⟩, ty := .list .int }).pushBlock
    current :=
      { qualname := "outer", catches := [⟨"__err7", "try7"⟩], handlerErrors := ["__exc6"] } }

/-- A test that is a comprehension, with a closure in the branch. -/
def chosenPick : Stmt :=
  .ifElse (.listComp (.name "x") [⟨.name "x", .name "xs", []⟩])
    [.functionDef { name := "pick", body := [.ret (some (.name "xs"))] }] []

/-- A closure whose body cannot be written, in a `try` body in a loop. -/
def brokenLoop : Stmt :=
  .forLoop (.name "x") (.name "xs")
    [.tryExcept [.functionDef { name := "drop", body := [.delete [.attribute (.name "x") "y"]] }]
      [] [] []]

/-- What the comprehension queues, before the test can be made. -/
def collecting : String :=
  String.join [
    "const __comp1 = (runtime.List(i64).init(allocator) ",
    "catch |__e| \x7b __err7 = __e; break :try7; \x7d);\n",
    "for (xs.items) |x| \x7b\n",
    "    (__comp1.append(x) catch |__e| \x7b __err7 = __e; break :try7; \x7d);\n",
    "\x7d\n"]

theorem stmt_keeps_stacks_deep :
    (∃ out c',
      Emit.stmt chosenPick { level := 2 } ⟨Table.oracle {}, {}⟩ deepContext = (.ok out, c') ∧
      (c'.prelude.isEmpty = true ∧ out.level = 2) ∧
      c'.current.notes.filterMap Note.queued? = [collecting] ∧ Text.Shows out.text collecting) ∧
    ∃ e c', Emit.stmt brokenLoop { level := 2 } ⟨Table.oracle {}, {}⟩ deepContext = (.error e, c') ∧
      c'.scope.allFrames.map Frame.kind = [.block, .function "outer" ["xs"], .module] ∧
      c'.current.catches = [⟨"__err7", "try7"⟩] ∧ c'.current.handlerErrors = ["__exc6"] := by
  constructor
  · have hsome : (Emit.stmt chosenPick { level := 2 } ⟨Table.oracle {}, {}⟩
        deepContext).1.toOption.isSome = true := by decide +kernel
    have hqueued : (Emit.stmt chosenPick { level := 2 } ⟨Table.oracle {}, {}⟩
        deepContext).2.current.notes.filterMap Note.queued? = [collecting] := by decide +kernel
    have hkept := stmt_keeps_stacks chosenPick { level := 2 } ⟨Table.oracle {}, {}⟩ deepContext rfl
    rcases hx : Emit.stmt chosenPick { level := 2 } ⟨Table.oracle {}, {}⟩ deepContext with ⟨r, c'⟩
    rw [hx] at hsome hqueued hkept
    cases r with
    | ok out =>
      obtain ⟨hclear, new, hnew, hshown, -⟩ := hkept.2.1 out rfl
      have hall : c'.current.notes = new := hnew.trans (List.append_nil _)
      refine ⟨out, c', rfl, hclear, hqueued, hshown.queued ?_⟩
      rw [← hall, hqueued]
      exact List.mem_singleton_self _
    | error e => cases hsome
  · have hnone : (Emit.stmt brokenLoop { level := 2 } ⟨Table.oracle {}, {}⟩
        deepContext).1.toOption.isNone = true := by decide +kernel
    have hkept := stmt_keeps_stacks brokenLoop { level := 2 } ⟨Table.oracle {}, {}⟩ deepContext rfl
    rcases hx : Emit.stmt brokenLoop { level := 2 } ⟨Table.oracle {}, {}⟩ deepContext with ⟨r, c'⟩
    rw [hx] at hnone hkept
    cases r with
    | ok out => cases hnone
    | error e =>
      obtain ⟨⟨hkinds, -, hsame⟩, -⟩ := hkept
      exact ⟨e, c', rfl, hkinds, hsame.catches, hsame.handlerErrors⟩

end ClosureConversion
