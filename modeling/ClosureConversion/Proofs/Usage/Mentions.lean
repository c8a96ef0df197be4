import ClosureConversion.Usage.Basic
import Mathlib.Data.Finset.Basic
import Mathlib.Data.Finset.Union

/-! # Mentions of names -/

set_option autoImplicit false

namespace ClosureConversion

/-- The ways in which a program mentions a name that it does not bind there. -/
inductive Mention where
  | read
  /-- Called, or passed as an argument of a call. -/
  | called
  /-- A container changed in place. -/
  | mutated
  deriving DecidableEq

/-- `names`, for mentions of the kind `kind` only. -/
def Mention.only (kind k : Mention) (names : Finset String) : Finset String :=
  if k = kind then names else ∅

/-! ## A body's own statements -/

mutual

/-- Gather what `here` says of each statement, bodies of nested functions apart. -/
def Stmt.gather (here : Stmt → List String) : Stmt → List String
  | .ifElse t b e => here (.ifElse t b e) ++ Stmt.gatherAll here b ++ Stmt.gatherAll here e
  | .whileLoop t b => here (.whileLoop t b) ++ Stmt.gatherAll here b
  | .forLoop t i b => here (.forLoop t i b) ++ Stmt.gatherAll here b
  | .tryExcept b hs e f =>
    here (.tryExcept b hs e f) ++ Stmt.gatherAll here b ++ Handler.gatherAll here hs ++
      Stmt.gatherAll here e ++ Stmt.gatherAll here f
  | .withItems ws b => here (.withItems ws b) ++ Stmt.gatherAll here b
  | s => here s

def Stmt.gatherAll (here : Stmt → List String) : List Stmt → List String
  | [] => []
  | s :: ss => Stmt.gather here s ++ Stmt.gatherAll here ss

def Handler.gatherAll (here : Stmt → List String) : List Handler → List String
  | [] => []
  | ⟨_, _, body⟩ :: hs => Stmt.gatherAll here body ++ Handler.gatherAll here hs

end

/-- Names that the statement itself binds, once for each binding occurrence. -/
def Stmt.bindsHere : Stmt → List String
  | .assign t _ _ => t.names
  | .augAssign t _ _ => t.names
  | .forLoop t _ _ => t.names
  | .tryExcept _ hs _ _ => hs.filterMap Handler.name
  | .withItems ws _ => Target.allNames (ws.filterMap WithItem.target)
  | .functionDef f => [f.name]
  | .delete ts => Target.allNames ts
  | _ => []

def Stmt.nonlocalsHere : Stmt → List String
  | .nonlocal names => names
  | _ => []

def Stmt.globalsHere : Stmt → List String
  | .global names => names
  | _ => []

/-- Every binding occurrence in a body. -/
def Stmt.bindings (body : List Stmt) : List String := Stmt.gatherAll Stmt.bindsHere body

def Stmt.nonlocals (body : List Stmt) : List String := Stmt.gatherAll Stmt.nonlocalsHere body

def Stmt.globals (body : List Stmt) : List String := Stmt.gatherAll Stmt.globalsHere body

/-! ## Names that belong to a function -/

/-- Names with a binding occurrence in the body that are neither formals nor declared to live
outside. -/
def localNames (formals : List String) (body : List Stmt) : Finset String :=
  (Stmt.bindings body).toFinset \
    ((Stmt.nonlocals body).toFinset ∪ (Stmt.globals body).toFinset ∪ formals.toFinset)

/-- Names that mean nothing outside the function when its body mentions them. -/
def ownNames (formals : List String) (body : List Stmt) : Finset String :=
  formals.toFinset ∪ localNames formals body ∪ (Stmt.globals body).toFinset

/-! ## Writes that go through -/

mutual

/-- Free names that the functions defined by a statement write. -/
def Stmt.innerWrites : Stmt → Finset String
  | .ifElse _ b e => Stmt.allInnerWrites b ∪ Stmt.allInnerWrites e
  | .whileLoop _ b => Stmt.allInnerWrites b
  | .forLoop _ _ b => Stmt.allInnerWrites b
  | .tryExcept b hs e f =>
    Stmt.allInnerWrites b ∪ Handler.allInnerWrites hs ∪ Stmt.allInnerWrites e ∪
      Stmt.allInnerWrites f
  | .withItems _ b => Stmt.allInnerWrites b
  | .functionDef f => Function.freeWrites f
  | _ => ∅

def Stmt.allInnerWrites : List Stmt → Finset String
  | [] => ∅
  | s :: ss => s.innerWrites ∪ Stmt.allInnerWrites ss

def Handler.allInnerWrites : List Handler → Finset String
  | [] => ∅
  | ⟨_, _, body⟩ :: hs => Stmt.allInnerWrites body ∪ Handler.allInnerWrites hs

/-- What a function declares nonlocal, and what the functions in it write that it does not
bind. -/
def Function.freeWrites : Function → Finset String
  | ⟨name, params, vararg, kwarg, declaredResult, body, decorators, span⟩ =>
    let formals := Function.formals
      ⟨name, params, vararg, kwarg, declaredResult, [], decorators, span⟩
    (Stmt.nonlocals body).toFinset ∪
      (Stmt.allInnerWrites body \ (localNames formals body ∪ formals.toFinset))

end

theorem Function.freeWrites_eq (f : Function) :
    f.freeWrites = (Stmt.nonlocals f.body).toFinset ∪
      (Stmt.allInnerWrites f.body \ (localNames f.formals f.body ∪ f.formals.toFinset)) := by
  cases f
  rfl

/-! ## Expressions -/

/-- The name, if this is a plain name. -/
def Expr.plainName (e : Expr) : Finset String := e.name?.toList.toFinset

/-- What a call says of its callee, besides the mentions in it. -/
def Expr.asCallee (k : Mention) : Expr → Finset String
  | .name n => Mention.only .called k {n}
  | .attribute (.name receiver) method =>
    Mention.only .mutated k (if method ∈ mutatingMethods then {receiver} else ∅)
  | _ => ∅

mutual

def Expr.mentions (k : Mention) : Expr → Finset String
  | .name n => Mention.only .read k {n}
  | .constant _ => ∅
  | .binary _ l r => l.mentions k ∪ r.mentions k
  | .unary _ e => e.mentions k
  | .boolean _ es => Expr.allMentions k es
  | .compare l _ es => l.mentions k ∪ Expr.allMentions k es
  | .call f args kws =>
    f.mentions k ∪ f.asCallee k ∪ Expr.argMentions k args ∪ Keyword.allMentions k kws
  | .attribute e _ => e.mentions k
  | .subscript e i => e.mentions k ∪ i.mentions k
  | .list es => Expr.allMentions k es
  | .tuple es => Expr.allMentions k es
  | .set es => Expr.allMentions k es
  | .dict ks vs => Expr.allMentions k ks ∪ Expr.allMentions k vs
  | .ifElse t b e => t.mentions k ∪ b.mentions k ∪ e.mentions k
  | .lambda ps b => Param.allMentions k ps ∪ (b.mentions k \ (ps.map Param.name).toFinset)
  | .listComp e gs => Generator.allMentions k gs ∪ (e.mentions k \ (Generator.names gs).toFinset)
  | .setComp e gs => Generator.allMentions k gs ∪ (e.mentions k \ (Generator.names gs).toFinset)
  | .generatorExp e gs =>
    Generator.allMentions k gs ∪ (e.mentions k \ (Generator.names gs).toFinset)
  | .dictComp key value gs =>
    Generator.allMentions k gs ∪
      ((key.mentions k ∪ value.mentions k) \ (Generator.names gs).toFinset)
  | .format ps => FormatPart.allMentions k ps
  | .starred e => e.mentions k

def Expr.allMentions (k : Mention) : List Expr → Finset String
  | [] => ∅
  | e :: es => e.mentions k ∪ Expr.allMentions k es

/-- Arguments of a call: a plain name is passed along as well as read. -/
def Expr.argMentions (k : Mention) : List Expr → Finset String
  | [] => ∅
  | e :: es => Mention.only .called k e.plainName ∪ e.mentions k ∪ Expr.argMentions k es

def Keyword.allMentions (k : Mention) : List Keyword → Finset String
  | [] => ∅
  | ⟨_, e⟩ :: ks => e.mentions k ∪ Keyword.allMentions k ks

/-- Mentions in the defaults of formals. -/
def Param.allMentions (k : Mention) : List Param → Finset String
  | [] => ∅
  | ⟨_, _, some e⟩ :: ps => e.mentions k ∪ Param.allMentions k ps
  | ⟨_, _, none⟩ :: ps => Param.allMentions k ps

/-- An iterable is evaluated outside its own target, the conditions and all later generators
inside it. -/
def Generator.allMentions (k : Mention) : List Generator → Finset String
  | [] => ∅
  | ⟨target, iter, ifs⟩ :: gs =>
    iter.mentions k ∪
      ((Expr.allMentions k ifs ∪ Generator.allMentions k gs) \ target.names.toFinset)

def FormatPart.allMentions (k : Mention) : List FormatPart → Finset String
  | [] => ∅
  | .literal _ :: ps => FormatPart.allMentions k ps
  | .interpolation e :: ps => e.mentions k ∪ FormatPart.allMentions k ps

end

def Expr.optMentions (k : Mention) : Option Expr → Finset String
  | none => ∅
  | some e => e.mentions k

/-! ## Statements -/

mutual

/-- Mentions in a target that is stored to or deleted. -/
def Target.mentions (k : Mention) : Target → Finset String
  | .name _ => ∅
  | .tuple ts => Target.allMentions k ts
  | .starred t => t.mentions k
  | .attribute e _ => e.mentions k ∪ Mention.only .mutated k e.plainName
  | .subscript e i => e.mentions k ∪ i.mentions k ∪ Mention.only .mutated k e.plainName

def Target.allMentions (k : Mention) : List Target → Finset String
  | [] => ∅
  | t :: ts => t.mentions k ∪ Target.allMentions k ts

end

def WithItem.allMentions (k : Mention) : List WithItem → Finset String
  | [] => ∅
  | ⟨context, none⟩ :: ws => context.mentions k ∪ WithItem.allMentions k ws
  | ⟨context, some t⟩ :: ws =>
    context.mentions k ∪ t.mentions k ∪ WithItem.allMentions k ws

/-- The plain name that an augmented assignment reads before it writes. -/
def Target.plainName : Target → Finset String
  | .name n => {n}
  | _ => ∅

mutual

def Stmt.mentions (k : Mention) : Stmt → Finset String
  | .assign t v _ => v.mentions k ∪ t.mentions k
  | .augAssign t _ v => Mention.only .read k t.plainName ∪ v.mentions k ∪ t.mentions k
  | .expr e => e.mentions k
  | .ret v => Expr.optMentions k v
  | .ifElse t b e => t.mentions k ∪ Stmt.allMentions k b ∪ Stmt.allMentions k e
  | .whileLoop t b => t.mentions k ∪ Stmt.allMentions k b
  | .forLoop t i b => i.mentions k ∪ t.mentions k ∪ Stmt.allMentions k b
  | .breakLoop => ∅
  | .continueLoop => ∅
  | .pass => ∅
  | .raise e => Expr.optMentions k e
  | .assert t m => t.mentions k ∪ Expr.optMentions k m
  | .tryExcept b hs e f =>
    Stmt.allMentions k b ∪ Handler.allMentions k hs ∪ Stmt.allMentions k e ∪
      Stmt.allMentions k f
  | .withItems ws b => WithItem.allMentions k ws ∪ Stmt.allMentions k b
  | .functionDef f => Function.mentions k f
  | .nonlocal _ => ∅
  | .global _ => ∅
  | .delete ts => Target.allMentions k ts

def Stmt.allMentions (k : Mention) : List Stmt → Finset String
  | [] => ∅
  | s :: ss => s.mentions k ∪ Stmt.allMentions k ss

def Handler.allMentions (k : Mention) : List Handler → Finset String
  | [] => ∅
  | ⟨kind, _, body⟩ :: hs =>
    Expr.optMentions k kind ∪ Stmt.allMentions k body ∪ Handler.allMentions k hs

/-- What a definition mentions of the names around it. A name that the function writes
through counts as read. -/
def Function.mentions (k : Mention) : Function → Finset String
  | ⟨name, params, vararg, kwarg, declaredResult, body, decorators, span⟩ =>
    let formals := Function.formals
      ⟨name, params, vararg, kwarg, declaredResult, [], decorators, span⟩
    Expr.allMentions k decorators ∪ Param.allMentions k params ∪
      (Stmt.allMentions k body \ ownNames formals body) ∪
      Mention.only .read k (Function.freeWrites
        ⟨name, params, vararg, kwarg, declaredResult, body, decorators, span⟩)

end

theorem Function.mentions_eq (k : Mention) (f : Function) :
    f.mentions k = Expr.allMentions k f.decorators ∪ Param.allMentions k f.params ∪
      (Stmt.allMentions k f.body \ ownNames f.formals f.body) ∪
      Mention.only .read k f.freeWrites := by
  cases f
  rfl

end ClosureConversion
