import Mathlib.Data.Finset.Card
import ClosureConversion.Effects.Analysis

/-! # Effect analysis as a traversal -/

set_option autoImplicit false

namespace ClosureConversion

namespace Effects

/-! ## Trails -/

/-- Where a traversal is. -/
structure Trail where
  /-- The local functions whose bodies it is in, the outermost first. -/
  visiting : List String := []
  /-- The functions that a call of a plain name may mean. -/
  locals : NameMap LocalFunction
  /-- `visiting` as it was each time a function was entered, the latest first. -/
  entered : List (List String) := []

/-- A traversal says whether what it went through may fail. It has no answer if it would have to
enter more functions than it is allowed to be in. -/
def Walk : Type := Trail → Option (Bool × Trail)

/-- The functions that a call may mean in the body of a local function. -/
def LocalFunction.localsIn : LocalFunction → NameMap LocalFunction → NameMap LocalFunction
  | .lambda _, outer => outer
  | .function body, outer => (boundAll body .empty).orElse outer

namespace Trail

def enter (t : Trail) (name : String) (f : LocalFunction) : Trail where
  visiting := t.visiting ++ [name]
  locals := f.localsIn t.locals
  entered := (t.visiting ++ [name]) :: t.entered

/-- Take the last function off the trail. What a name means is put back after the body of a
function, and was not changed for that of a lambda. -/
def leave (t : Trail) (f : LocalFunction) (saved : NameMap LocalFunction) : Trail where
  visiting := t.visiting.dropLast
  locals := match f with
    | .lambda _ => t.locals
    | .function _ => saved
  entered := t.entered

end Trail

namespace Walk

/-- Nothing to go through. -/
def done (fails : Bool) : Walk := fun t => some (fails, t)

/-- One after the other; the second part is gone through whatever the first one says. -/
def either (x y : Walk) : Walk := fun t =>
  (x t).bind fun a => (y a.2).map fun b => (a.1 || b.1, b.2)

/-- Failures count only where they are not taken care of. -/
def counting (x : Walk) (counts : Bool) : Walk := fun t => (x t).map fun a => (a.1 && counts, a.2)

def all (xs : List Walk) : Walk := xs.foldr either (done false)

/-! ## Traversals of expressions and statements, given those of calls -/

/-- What becomes of the call of a plain name; the answer is given for a name that means no local
function. -/
abbrev Caller := String → Bool → Walk

mutual

def expr (w : Setting) (call : Caller) : Expr → Walk
  | .name _ => done false
  | .constant _ => done false
  | .lambda _ _ => done false
  | .binary op l r =>
    (((expr w call l).either (expr w call r)).either (done (divisionFails op r))).either
      (done (concatFails w.options op (w.exprType l) (w.exprType r)))
  | .unary _ e => expr w call e
  | .boolean _ es => exprs w call es
  | .compare l _ es => (expr w call l).either (exprs w call es)
  | .call f args kws =>
    ((exprs w call args).either (keywords w call kws)).either <|
      match f with
      | .name n => call n (outerCallFails w n (.call (.name n) args kws))
      | .attribute e method => (expr w call e).either (done (methodFails w.options method))
      | f => expr w call f
  | .attribute e _ => expr w call e
  | .subscript e i =>
    ((expr w call e).either (expr w call i)).either (done (subscriptFails (w.exprType e)))
  | .tuple es => exprs w call es
  | .list es => (exprs w call es).either (done w.options.allocationFails)
  | .set es => (exprs w call es).either (done w.options.allocationFails)
  | .dict ks vs =>
    ((exprs w call ks).either (exprs w call vs)).either (done w.options.allocationFails)
  | .ifElse t b e => ((expr w call t).either (expr w call b)).either (expr w call e)
  | .listComp e gs =>
    ((generators w call gs).either (expr w call e)).either (done w.options.allocationFails)
  | .setComp e gs =>
    ((generators w call gs).either (expr w call e)).either (done w.options.allocationFails)
  | .generatorExp e gs =>
    ((generators w call gs).either (expr w call e)).either (done w.options.allocationFails)
  | .dictComp k v gs =>
    (((generators w call gs).either (expr w call k)).either (expr w call v)).either
      (done w.options.allocationFails)
  | .format ps => (parts w call ps).either (done w.options.allocationFails)
  | .starred e => expr w call e

def exprs (w : Setting) (call : Caller) : List Expr → Walk
  | [] => done false
  | e :: es => (expr w call e).either (exprs w call es)

def keywords (w : Setting) (call : Caller) : List Keyword → Walk
  | [] => done false
  | ⟨_, e⟩ :: ks => (expr w call e).either (keywords w call ks)

def generators (w : Setting) (call : Caller) : List Generator → Walk
  | [] => done false
  | ⟨_, iter, ifs⟩ :: gs =>
    ((expr w call iter).either (exprs w call ifs)).either (generators w call gs)

def parts (w : Setting) (call : Caller) : List FormatPart → Walk
  | [] => done false
  | .literal _ :: ps => parts w call ps
  | .interpolation e :: ps => (expr w call e).either (parts w call ps)

end

mutual

def target (w : Setting) (call : Caller) : Target → Walk
  | .name _ => done false
  | .tuple ts => targets w call ts
  | .starred t => target w call t
  | .attribute e _ => expr w call e
  | .subscript e i =>
    ((expr w call e).either (expr w call i)).either <| done <|
      match w.exprType e with
      | .dict _ _ => w.options.allocationFails
      | ty => ty.isUnknown

def targets (w : Setting) (call : Caller) : List Target → Walk
  | [] => done false
  | t :: ts => (target w call t).either (targets w call ts)

end

mutual

def stmt (w : Setting) (call : Caller) : Stmt → Walk
  | .raise _ => done true
  | .assert _ _ => done true
  | .assign t v _ => (expr w call v).either (target w call t)
  | .augAssign t op v =>
    (((expr w call v).either (target w call t)).either (done (divisionFails op v))).either
      (done (concatFails w.options op (updatedType w t) (w.exprType v)))
  | .expr e => expr w call e
  | .ret none => done false
  | .ret (some e) => expr w call e
  | .ifElse t b e => ((expr w call t).either (stmts w call b)).either (stmts w call e)
  | .whileLoop t b => (expr w call t).either (stmts w call b)
  | .forLoop _ i b => (expr w call i).either (stmts w call b)
  | .breakLoop => done false
  | .continueLoop => done false
  | .pass => done false
  | .tryExcept b hs e f =>
    ((((stmts w call b).counting (!hs.any fun h => h.kind.isNone)).either
      (handlers w call hs)).either (stmts w call e)).either (stmts w call f)
  | .withItems ws b => (all (ws.map fun item => expr w call item.context)).either (stmts w call b)
  | .functionDef _ => done false
  | .nonlocal _ => done false
  | .global _ => done false
  | .delete ts => targets w call ts

def stmts (w : Setting) (call : Caller) : List Stmt → Walk
  | [] => done false
  | s :: ss => (stmt w call s).either (stmts w call ss)

def handlers (w : Setting) (call : Caller) : List Handler → Walk
  | [] => done false
  | ⟨_, _, body⟩ :: hs => (stmts w call body).either (handlers w call hs)

end

/-- The body of a local function. -/
def localFunction (w : Setting) (call : Caller) : LocalFunction → Walk
  | .lambda e => expr w call e
  | .function body => stmts w call body

/-- The call of a plain name. It leads into the body of the local function of that name, unless the
traversal is in there already. No more than `room` further functions may be entered. -/
def call (w : Setting) (room : Nat) (name : String) (otherwise : Bool) : Walk := fun t =>
  match t.locals.get? name with
  | none => some (otherwise, t)
  | some f =>
    if name ∈ t.visiting then some (false, t)
    else
      match room with
      | 0 => none
      | room + 1 => (localFunction w (call w room) f (t.enter name f)).map fun a =>
          (a.1, a.2.leave f t.locals)

/-! ## Answers -/

/-- From a trail the traversal comes to an answer and leaves the trail as it was, having noted only
lists that satisfy `P`. -/
def Answers (t : Trail) (P : List String → Prop) (x : Walk) (fails : Bool) : Prop :=
  ∀ log, ∃ new, x { t with entered := log } = some (fails, { t with entered := new ++ log }) ∧
    ∀ v ∈ new, P v

section Answers

variable {t : Trail} {P : List String → Prop} {x y : Walk} {a b : Bool}

theorem done_answers (fails : Bool) : Answers t P (done fails) fails :=
  fun _ => ⟨[], rfl, by simp⟩

theorem Answers.either (hx : Answers t P x a) (hy : Answers t P y b) :
    Answers t P (x.either y) (a || b) := by
  intro log
  obtain ⟨first, hfirst, hP⟩ := hx log
  obtain ⟨second, hsecond, hP'⟩ := hy (first ++ log)
  refine ⟨second ++ first, ?_, ?_⟩
  · rw [Walk.either, hfirst, Option.bind_some, hsecond, Option.map_some, List.append_assoc]
  · intro v hv
    exact (List.mem_append.mp hv).elim (hP' v) (hP v)

theorem Answers.counting (hx : Answers t P x a) (counts : Bool) :
    Answers t P (x.counting counts) (a && counts) := by
  intro log
  obtain ⟨new, hnew, hP⟩ := hx log
  exact ⟨new, by rw [Walk.counting, hnew]; rfl, hP⟩

theorem all_answers {ι : Type} {f : ι → Walk} {g : ι → Bool} (is : List ι)
    (h : ∀ i ∈ is, Answers t P (f i) (g i)) : Answers t P (all (is.map f)) (is.any g) := by
  induction is with
  | nil => exact done_answers false
  | cons i is ih =>
    rw [List.any_cons]
    exact (h i List.mem_cons_self).either (ih fun j hj => h j (List.mem_cons_of_mem i hj))

end Answers

/-! ## Traversals and the analysis -/

section Syntax

/-- Traversals of calls answer what `calls` says of them. -/
def Follow (t : Trail) (P : List String → Prop) (call : Caller) (calls : Calls) : Prop :=
  ∀ n otherwise, Answers t P (call n otherwise) ((calls n).getD otherwise)

variable {w : Setting} {call : Caller} {calls : Calls} {t : Trail} {P : List String → Prop}

mutual

theorem expr_answers (h : Follow t P call calls) :
    ∀ e : Expr, Answers t P (expr w call e) (Effects.expr w calls e)
  | .name _ | .constant _ | .lambda _ _ => done_answers false
  | .binary _ l r =>
    (((expr_answers h l).either (expr_answers h r)).either (done_answers _)).either (done_answers _)
  | .unary _ e | .attribute e _ | .starred e => expr_answers h e
  | .boolean _ es | .tuple es => exprs_answers h es
  | .compare l _ es => (expr_answers h l).either (exprs_answers h es)
  | .call f args kws => by
    have hargs := (exprs_answers h args).either (keywords_answers h kws)
    have hcallee := expr_answers h f
    cases f with
    | name n => exact hargs.either (h n _)
    | «attribute» e method => exact hargs.either (hcallee.either (done_answers _))
    | _ => exact hargs.either hcallee
  | .subscript e i => ((expr_answers h e).either (expr_answers h i)).either (done_answers _)
  | .list es | .set es => (exprs_answers h es).either (done_answers _)
  | .dict ks vs => ((exprs_answers h ks).either (exprs_answers h vs)).either (done_answers _)
  | .ifElse t b e => ((expr_answers h t).either (expr_answers h b)).either (expr_answers h e)
  | .listComp e gs | .setComp e gs | .generatorExp e gs =>
    ((generators_answers h gs).either (expr_answers h e)).either (done_answers _)
  | .dictComp k v gs =>
    (((generators_answers h gs).either (expr_answers h k)).either (expr_answers h v)).either
      (done_answers _)
  | .format ps => (parts_answers h ps).either (done_answers _)

theorem exprs_answers (h : Follow t P call calls) :
    ∀ es : List Expr, Answers t P (exprs w call es) (Effects.exprs w calls es)
  | [] => done_answers false
  | e :: es => (expr_answers h e).either (exprs_answers h es)

theorem keywords_answers (h : Follow t P call calls) :
    ∀ ks : List Keyword, Answers t P (keywords w call ks) (Effects.keywords w calls ks)
  | [] => done_answers false
  | ⟨_, e⟩ :: ks => (expr_answers h e).either (keywords_answers h ks)

theorem generators_answers (h : Follow t P call calls) :
    ∀ gs : List Generator, Answers t P (generators w call gs) (Effects.generators w calls gs)
  | [] => done_answers false
  | ⟨_, iter, ifs⟩ :: gs =>
    ((expr_answers h iter).either (exprs_answers h ifs)).either (generators_answers h gs)

theorem parts_answers (h : Follow t P call calls) :
    ∀ ps : List FormatPart, Answers t P (parts w call ps) (Effects.parts w calls ps)
  | [] => done_answers false
  | .literal _ :: ps => parts_answers h ps
  | .interpolation e :: ps => (expr_answers h e).either (parts_answers h ps)

end

mutual

theorem target_answers (h : Follow t P call calls) :
    ∀ x : Target, Answers t P (target w call x) (Effects.target w calls x)
  | .name _ => done_answers false
  | .tuple xs => targets_answers h xs
  | .starred x => target_answers h x
  | .attribute e _ => expr_answers h e
  | .subscript e i =>
    ((expr_answers h e).either (expr_answers h i)).either (done_answers _)

theorem targets_answers (h : Follow t P call calls) :
    ∀ xs : List Target, Answers t P (targets w call xs) (Effects.targets w calls xs)
  | [] => done_answers false
  | x :: xs => (target_answers h x).either (targets_answers h xs)

end

mutual

theorem stmt_answers (h : Follow t P call calls) :
    ∀ s : Stmt, Answers t P (stmt w call s) (Effects.stmt w calls s)
  | .raise _ | .assert _ _ => done_answers true
  | .assign x v _ => (expr_answers h v).either (target_answers h x)
  | .augAssign x _ v =>
    (((expr_answers h v).either (target_answers h x)).either (done_answers _)).either
      (done_answers _)
  | .expr e | .ret (some e) => expr_answers h e
  | .ret none | .breakLoop | .continueLoop | .pass | .functionDef _ | .nonlocal _ | .global _ =>
    done_answers false
  | .ifElse e b o => ((expr_answers h e).either (stmts_answers h b)).either (stmts_answers h o)
  | .whileLoop e b => (expr_answers h e).either (stmts_answers h b)
  | .forLoop _ i b => (expr_answers h i).either (stmts_answers h b)
  | .tryExcept b hs o f =>
    ((((stmts_answers h b).counting _).either (handlers_answers h hs)).either
      (stmts_answers h o)).either (stmts_answers h f)
  | .withItems items b =>
    (all_answers items fun item _ => expr_answers h item.context).either (stmts_answers h b)
  | .delete xs => targets_answers h xs

/-- **A traversal of statements answers what the analysis says of them**, and leaves the trail as it
was, if the traversals of calls do. -/
theorem stmts_answers (h : Follow t P call calls) :
    ∀ ss : List Stmt, Answers t P (stmts w call ss) (Effects.stmts w calls ss)
  | [] => done_answers false
  | s :: ss => (stmt_answers h s).either (stmts_answers h ss)

theorem handlers_answers (h : Follow t P call calls) :
    ∀ hs : List Handler, Answers t P (handlers w call hs) (Effects.handlers w calls hs)
  | [] => done_answers false
  | ⟨_, _, body⟩ :: hs => (stmts_answers h body).either (handlers_answers h hs)

end

end Syntax

end Walk

/-! ## Names of local functions -/

/-- The functions and named lambdas in the body of a local function. -/
def LocalFunction.names : LocalFunction → List String
  | .lambda _ => []
  | .function body => namesAll body

/-- Local functions that `after` has and `before` has not are among these names, and so is what is
bound in their bodies. -/
def Adds (names : List String) (before after : NameMap LocalFunction) : Prop :=
  ∀ name f, after.get? name = some f →
    (∀ n ∈ name :: f.names, n ∈ names) ∨ before.get? name = some f

theorem Adds.refl (names : List String) (m : NameMap LocalFunction) : Adds names m m :=
  fun _ _ h => .inr h

theorem Adds.insert (m : NameMap LocalFunction) (name : String) (f : LocalFunction) :
    Adds (name :: f.names) m (m.insert name f) := by
  intro k g hget
  rw [NameMap.get?_insert] at hget
  split at hget
  · rename_i hkey
    obtain rfl := Option.some.inj hget
    exact .inl fun n hn => hkey ▸ hn
  · exact .inr hget

theorem Adds.trans {first second : List String} {a b c : NameMap LocalFunction}
    (hab : Adds first a b) (hbc : Adds second b c) : Adds (first ++ second) a c := by
  intro name f hget
  rcases hbc name f hget with hnew | hb
  · exact .inl fun n hn => List.mem_append_right _ (hnew n hn)
  · exact (hab name f hb).imp_left fun hnew n hn => List.mem_append_left _ (hnew n hn)

mutual

theorem bound_adds : ∀ (s : Stmt) (m : NameMap LocalFunction), Adds (names s) m (bound s m)
  | .functionDef ⟨name, _, _, _, _, body, _, _⟩, m => .insert m name (.function body)
  | .assign x v _, m => by
    cases x with
    | name n =>
      cases v with
      | lambda _ e => exact .insert m n (.lambda e)
      | _ => exact .refl _ m
    | _ => exact .refl _ m
  | .ifElse _ b e, m => (boundAll_adds b m).trans (boundAll_adds e _)
  | .whileLoop _ b, m | .forLoop _ _ b, m | .withItems _ b, m => boundAll_adds b m
  | .tryExcept b hs e f, m =>
    (((boundAll_adds b m).trans (boundHandlers_adds hs _)).trans (boundAll_adds e _)).trans
      (boundAll_adds f _)
  | .raise _, m | .assert _ _, m | .augAssign _ _ _, m | .expr _, m | .ret _, m | .breakLoop, m
  | .continueLoop, m | .pass, m | .nonlocal _, m | .global _, m | .delete _, m => .refl _ m

theorem boundAll_adds :
    ∀ (ss : List Stmt) (m : NameMap LocalFunction), Adds (namesAll ss) m (boundAll ss m)
  | [], m => .refl _ m
  | s :: ss, m => (bound_adds s m).trans (boundAll_adds ss _)

theorem boundHandlers_adds :
    ∀ (hs : List Handler) (m : NameMap LocalFunction),
      Adds (namesHandlers hs) m (boundHandlers hs m)
  | [], m => .refl _ m
  | ⟨_, _, body⟩ :: hs, m => (boundAll_adds body m).trans (boundHandlers_adds hs _)

end

/-! ## Calls -/

/-- The names that a traversal may still enter: none of them is on the trail, and every function
that it can come across is among them or on the trail. -/
structure Tracks (t : Trail) (unvisited : List String) : Prop where
  fresh : ∀ n ∈ unvisited, n ∉ t.visiting
  known : ∀ name f, t.locals.get? name = some f →
    ∀ n ∈ name :: f.names, n ∈ unvisited ∨ n ∈ t.visiting

/-- A longer trail: behind `visiting` stand names out of `unvisited`, no two of them alike. -/
def Grown (visiting unvisited v : List String) : Prop :=
  ∃ more, v = visiting ++ more ∧ more ≠ [] ∧ more.Nodup ∧ more ⊆ unvisited

section Calls

variable {w : Setting} {t : Trail} {unvisited visiting v : List String} {name : String}
  {f : LocalFunction} {calls : Calls}

theorem mem_without {n : String} : n ∈ without unvisited name ↔ n ∈ unvisited ∧ n ≠ name := by
  simp [without]

theorem Tracks.enter (h : Tracks t unvisited) (hget : t.locals.get? name = some f) :
    Tracks (t.enter name f) (without unvisited name) where
  fresh := by
    intro n hn
    obtain ⟨hmem, hne⟩ := mem_without.mp hn
    simp [Trail.enter, h.fresh n hmem, hne]
  known := by
    intro k g hk n hn
    have hold : n ∈ unvisited ∨ n ∈ t.visiting := by
      cases f with
      | lambda _ => exact h.known k g hk n hn
      | function body =>
        have hk : ((boundAll body .empty).orElse t.locals).get? k = some g := hk
        rw [NameMap.get?_orElse, Option.or_eq_some_iff] at hk
        rcases hk with hinner | ⟨-, houter⟩
        · have hbody := (boundAll_adds body .empty k g hinner).resolve_right (by simp)
          exact h.known name _ hget n (List.mem_cons_of_mem _ (hbody n hn))
        · exact h.known k g houter n hn
    show n ∈ without unvisited name ∨ n ∈ t.visiting ++ [name]
    rw [mem_without, List.mem_append, List.mem_singleton]
    by_cases hne : n = name
    · exact .inr (.inr hne)
    · exact hold.imp (⟨·, hne⟩) .inl

theorem card_without_lt (h : name ∈ unvisited) :
    (without unvisited name).toFinset.card < unvisited.toFinset.card := by
  refine Finset.card_lt_card (Finset.ssubset_iff_of_subset ?_ |>.mpr ⟨name, ?_, ?_⟩)
  · intro n hn
    exact List.mem_toFinset.mpr (mem_without.mp (List.mem_toFinset.mp hn)).1
  · exact List.mem_toFinset.mpr h
  · simp [mem_without]

theorem grown_enter (h : name ∈ unvisited) : Grown visiting unvisited (visiting ++ [name]) :=
  ⟨[name], rfl, by simp, by simp, by simpa using h⟩

theorem Grown.of_enter (hmem : name ∈ unvisited)
    (h : Grown (visiting ++ [name]) (without unvisited name) v) : Grown visiting unvisited v := by
  obtain ⟨more, rfl, -, hnodup, hsubset⟩ := h
  refine ⟨name :: more, by simp, by simp, ?_, ?_⟩
  · exact List.nodup_cons.mpr ⟨fun hn => (mem_without.mp (hsubset hn)).2 rfl, hnodup⟩
  · intro n hn
    rcases List.mem_cons.mp hn with rfl | hn
    · exact hmem
    · exact (mem_without.mp (hsubset hn)).1

/-- What the analysis says of the body of a local function. -/
def LocalFunction.fails (w : Setting) (calls : Calls) : LocalFunction → Bool
  | .lambda e => expr w calls e
  | .function body => stmts w calls body

theorem callFails_of_mem (hget : t.locals.get? name = some f) (hmem : name ∈ unvisited) :
    callFails w unvisited t.locals name = some
      (f.fails w (callFails w (without unvisited name) (f.localsIn t.locals))) := by
  rw [callFails, hget]
  cases f <;> simp only [if_pos hmem] <;> rfl

theorem callFails_of_notMem (hget : t.locals.get? name = some f) (hmem : name ∉ unvisited) :
    callFails w unvisited t.locals name = some false := by
  rw [callFails, hget]
  exact if_neg hmem

theorem localFunction_answers {P : List String → Prop} {call : Walk.Caller}
    (h : Walk.Follow t P call calls) (f : LocalFunction) :
    Walk.Answers t P (Walk.localFunction w call f) (f.fails w calls) := by
  cases f with
  | lambda e => exact Walk.expr_answers h e
  | function body => exact Walk.stmts_answers h body

/-- What is left of a trail after a function was entered and left again. -/
theorem leave_enter (t : Trail) (name : String) (f : LocalFunction) (log : List (List String)) :
    ({ t.enter name f with entered := log } : Trail).leave f t.locals =
      { t with entered := log } := by
  cases f <;> simp [Trail.leave, Trail.enter, LocalFunction.localsIn]

/-- **A call comes back with its answer and the trail as it was**, if there is room for all the
functions that are not on the trail. Every function that is entered on the way makes the trail
longer. -/
theorem call_answers (room : Nat) {t : Trail} {unvisited : List String} (h : Tracks t unvisited)
    (hroom : unvisited.toFinset.card ≤ room) :
    Walk.Follow t (Grown t.visiting unvisited) (Walk.call w room)
      (callFails w unvisited t.locals) := by
  intro name otherwise log
  cases hget : t.locals.get? name with
  | none =>
    refine ⟨[], ?_, by simp⟩
    rw [Walk.call, callFails, hget]
    rfl
  | some f =>
    by_cases hin : name ∈ t.visiting
    · refine ⟨[], ?_, by simp⟩
      have hmem : name ∉ unvisited := fun hmem => h.fresh name hmem hin
      rw [Walk.call, callFails_of_notMem hget hmem, hget]
      exact if_pos hin
    · have hmem : name ∈ unvisited :=
        (h.known name f hget name List.mem_cons_self).resolve_right hin
      have hfewer := card_without_lt hmem
      cases room with
      | zero => omega
      | succ room =>
        have hbody := localFunction_answers (w := w)
          (call_answers room (h.enter hget) (by omega)) f
        obtain ⟨new, hnew, hgrown⟩ := hbody ((t.visiting ++ [name]) :: log)
        refine ⟨new ++ [t.visiting ++ [name]], ?_, ?_⟩
        · rw [Walk.call, callFails_of_mem hget hmem, hget]
          dsimp only
          rw [if_neg hin]
          change (Walk.localFunction w (Walk.call w room) f
            { t.enter name f with entered := (t.visiting ++ [name]) :: log }).map _ = _
          rw [hnew, Option.map_some, leave_enter, List.append_assoc]
          rfl
        · intro v hv
          rcases List.mem_append.mp hv with hv | hv
          · exact (hgrown v hv).of_enter hmem
          · rw [List.mem_singleton.mp hv]
            exact grown_enter hmem
termination_by room

end Calls

/-- The names of all functions that a traversal can come across from here. -/
def Trail.names (t : Trail) : List String := t.locals.entries.flatMap fun e => e.1 :: e.2.names

/-- Those of them that are not on the trail. -/
def Trail.unvisited (t : Trail) : List String := t.names.filter (· ∉ t.visiting)

theorem tracks_unvisited (t : Trail) : Tracks t t.unvisited where
  fresh := fun n hn => by simpa using (List.mem_filter.mp hn).2
  known := by
    intro name f hget n hn
    have hmem : n ∈ t.names := List.mem_flatMap.mpr ⟨(name, f), NameMap.mem_of_get? hget, hn⟩
    by_cases hvisiting : n ∈ t.visiting
    · exact .inr hvisiting
    · exact .inl (List.mem_filter.mpr ⟨hmem, by simpa using hvisiting⟩)

theorem tracks_start (body : List Stmt) :
    Tracks { locals := boundAll body .empty } (namesAll body) where
  fresh := by simp
  known := fun name f hget n hn =>
    .inl ((boundAll_adds body .empty name f hget).resolve_right (by simp) n hn)

/-- The traversal of a body, which is never in more than `room` of its functions at once. -/
def Walk.body (w : Setting) (room : Nat) (body : List Stmt) : Option (Bool × Trail) :=
  Walk.stmts w (Walk.call w room) body { locals := boundAll body .empty }

end Effects

open Effects in
/-- **The traversal of any body ends.** It is never in more functions at once than the body has
names of functions, at any depth. Its answer is that of the analysis, and it ends with the trail
that it started with. Whenever it entered a function the trail was a list of these names, no two of
them alike. From any trail whatsoever, a call comes back with the trail as it was. The functions
that are entered on the way only add to the trail, and only names that were not on it. -/
theorem mayFail_traversal (scope : Scope) (oracle : Oracle) (options : Options) :
    let w : Setting := { scope, oracle, options }
    (∀ (body : List Stmt) (more : Nat), ∃ entered,
      Walk.body w ((namesAll body).toFinset.card + more) body =
        some (mayFail body scope oracle options, { locals := boundAll body .empty, entered }) ∧
      ∀ v ∈ entered, v ≠ [] ∧ v.Nodup ∧ v ⊆ namesAll body) ∧
    ∀ (t : Trail) (name : String) (otherwise : Bool) (more : Nat), ∃ new,
      Walk.call w (t.unvisited.toFinset.card + more) name otherwise t =
        some ((callFails w t.unvisited t.locals name).getD otherwise,
          { t with entered := new ++ t.entered }) ∧
      ∀ v ∈ new, Grown t.visiting t.unvisited v := by
  intro w
  refine ⟨fun body more => ?_, fun t name otherwise more => ?_⟩
  · have hcalls := call_answers (w := w) _ (tracks_start body) (Nat.le_add_right _ more)
    obtain ⟨entered, hanswer, hgrown⟩ := Walk.stmts_answers hcalls body []
    refine ⟨entered, ?_, fun v hv => ?_⟩
    · rw [List.append_nil] at hanswer
      exact hanswer
    · obtain ⟨names, rfl, hne, hnodup, hsubset⟩ := hgrown v hv
      exact ⟨hne, hnodup, hsubset⟩
  · exact call_answers _ (tracks_unvisited t) (Nat.le_add_right _ more) name otherwise t.entered

open Effects in
/-- Two functions that call each other. -/
example :
    let calls (name : String) : Stmt := .expr (.call (.name name) [] [])
    let w : Setting := ⟨{}, ({} : Table).oracle, {}⟩
    let body : List Stmt := [.functionDef { name := "f", body := [calls "g"] },
      .functionDef { name := "g", body := [calls "f"] }, calls "f"]
    (Walk.body w 2 body).map (fun a => (a.1, a.2.entered)) = some (false, [["f", "g"], ["f"]]) ∧
      (Walk.body w 1 body).isNone := by
  decide +kernel

end ClosureConversion
