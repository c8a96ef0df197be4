import ClosureConversion.Emit.Stmt
import ClosureConversion.Proofs.Effects.Sites

/-! # What computations inherit from their parts -/

set_option autoImplicit false

namespace ClosureConversion

namespace Emit

variable {α β : Type}

/-! ## One computation after the other -/

/-- A property that computations have if the steps have it that they consist of. -/
structure Sequential (P : {α : Type} → Emit α → Prop) : Prop where
  pure {α : Type} (a : α) : P (Pure.pure a : Emit α)
  bind {α β : Type} {x : Emit α} {f : α → Emit β} : P x → (∀ a, P (f a)) → P (x >>= f)

namespace Sequential

variable {P : {α : Type} → Emit α → Prop}

theorem ite (_ : Sequential P) {p : Prop} [Decidable p] {x y : Emit α} (hx : P x) (hy : P y) :
    P (if p then x else y) := by
  split
  · exact hx
  · exact hy

variable (h : Sequential P)

include h

theorem sequence {xs : List (Emit α)} (hxs : ∀ x ∈ xs, P x) : P (sequence xs) := by
  induction xs with
  | nil => exact h.pure _
  | cons x rest ih =>
    refine h.bind (hxs x List.mem_cons_self) fun a => ?_
    exact h.bind (ih fun y hy => hxs y (List.mem_cons_of_mem x hy)) fun as => h.pure _

theorem foldlM {xs : List α} {f : β → α → Emit β} (hf : ∀ b, ∀ x ∈ xs, P (f b x)) (b : β) :
    P (xs.foldlM f b) := by
  induction xs generalizing b with
  | nil => exact h.pure _
  | cons x rest ih =>
    rw [List.foldlM_cons]
    exact h.bind (hf b x List.mem_cons_self) fun b' =>
      ih (fun b y hy => hf b y (List.mem_cons_of_mem x hy)) b'

theorem decorate (init : String) {decorators : List (Emit String)} (hs : ∀ d ∈ decorators, P d) :
    P (decorate init decorators) :=
  h.foldlM (fun _ d hd => h.bind (hs d (List.mem_reverse.mp hd)) fun _ => h.pure _) init

theorem operand (e : Expr) {text : Emit String} (htext : P text) : P (operand e text) :=
  h.bind htext fun _ => h.pure _

end Sequential

/-! ## Expressions -/

/-- A property that expressions inherit from their parts, where the options are as `O` says and
the operations that can fail are as `Q` says. -/
structure Hereditary (O : Options → Prop) (Q : Operation → Prop)
    (P : {α : Type} → Emit α → Prop) : Prop extends Sequential P where
  /-- There are such options. -/
  met : ∃ o, O o
  options {α : Type} {f : Options → Emit α} : (∀ o, O o → P (f o)) → P (Emit.options >>= f)
  typeOf (e : Expr) : P (Emit.typeOf e)
  scope : P Emit.scope
  oracle : P Emit.oracle
  isDeclaredGlobal (n : String) : P (Emit.isDeclaredGlobal n)
  unsupported {α : Type} (what : String) : P (Emit.unsupported what : Emit α)
  fallible {op : Operation} {o : Options} (text : String) :
    O o → op.canFail o = true → Q op → P (Emit.fallible op text)
  errorExit {op : Operation} {o : Options} (error : String) (out : Buffer) :
    O o → op.canFail o = true → Q op → P (Emit.errorExit op error out)
  tell (events : List Event) : P (Emit.tell events)
  temporary (stem : String) : P (Emit.temporary stem)
  dropped (text : String) : P (note (.dropped text))
  pushPrelude (text : String) : P (Emit.pushPrelude text)
  flushPrelude (out : Buffer) : P (Emit.flushPrelude out)
  isolated {α : Type} {x : Emit α} : P x → P (Emit.isolated x)
  inBlock {α : Type} {x : Emit α} : P x → P (Emit.inBlock x)

namespace Hereditary

variable {O : Options → Prop} {Q : Operation → Prop} {P : {α : Type} → Emit α → Prop}
  (h : Hereditary O Q P)

include h

theorem fallibleIf {op : Operation} {o : Options} {fails : Bool} (text : String) (ho : O o)
    (hfails : fails = true → op.canFail o = true) (hop : Q op) : P (fallibleIf op fails text) := by
  unfold Emit.fallibleIf
  split
  · rename_i hyes
    exact h.fallible text ho (hfails hyes) hop
  · exact h.pure text

theorem name (n : String) : P (name n) :=
  h.bind (h.isDeclaredGlobal n) fun _ => h.ite (h.pure _) (h.bind h.scope fun _ => h.pure _)

theorem condition (e : Expr) {text : Emit String} (htext : P text) : P (condition e text) := by
  refine h.bind (h.typeOf e) fun ty => h.bind htext fun t => ?_
  split <;> exact h.pure _

theorem binary {op : BinOp} {left right : Expr} {leftText rightText : Emit String}
    (hleft : P leftText) (hright : P rightText) (hop : Q (.binary op left right)) :
    P (binary op left right leftText rightText) := by
  refine h.bind (h.typeOf left) fun lt => h.bind (h.typeOf right) fun rt => ?_
  refine h.bind (h.operand left hleft) fun l => h.bind (h.operand right hright) fun r => ?_
  refine h.options fun o ho => ?_
  have hbuilds (text : String) :
      P (Emit.fallibleIf (.binary op left right) (concatFails o op lt rt) text) :=
    h.fallibleIf text ho canFail_of_concatFails hop
  cases op with
  | add =>
    refine h.ite (hbuilds _) ?_
    split
    · exact hbuilds _
    · exact h.pure _
  | mult => exact h.ite (hbuilds _) (h.pure _)
  | div | floorDiv | mod => exact h.fallibleIf _ ho canFail_of_divisionFails hop
  | pow | sub | bitAnd | bitOr | bitXor | lShift | rShift => exact h.pure _

theorem boolean (op : BoolOp) {parts : List (Emit String)} (hparts : ∀ x ∈ parts, P x) :
    P (boolean op parts) := by
  refine h.bind (h.sequence hparts) fun texts => ?_
  cases op <;> exact h.pure _

theorem comparisons (left : Expr) (leftText : String)
    {parts : List (CmpOp × Expr × Emit String)} (hparts : ∀ p ∈ parts, P p.2.2) :
    P (comparisons left leftText parts) := by
  induction parts generalizing left leftText with
  | nil => exact h.pure _
  | cons p rest ih =>
    obtain ⟨op, right, text⟩ := p
    refine h.bind (h.operand right (hparts _ List.mem_cons_self)) fun rightText => ?_
    refine h.bind (h.typeOf left) fun lt => h.bind (h.typeOf right) fun rt => ?_
    refine h.bind (ih right rightText fun q hq => hparts q (List.mem_cons_of_mem _ hq)) fun _ => ?_
    exact h.pure _

theorem compare (left : Expr) {leftText : Emit String} (ops : List CmpOp) (rights : List Expr)
    {rightTexts : List (Emit String)} (hleft : P leftText) (hrights : ∀ x ∈ rightTexts, P x) :
    P (compare left leftText ops rights rightTexts) := by
  refine h.bind (h.operand left hleft) fun l => ?_
  refine h.bind (h.comparisons left l fun p hp => ?_) fun parts => ?_
  · exact hrights _ (List.of_mem_zip (List.of_mem_zip hp).2).2
  · split
    · exact h.bind (h.dropped _) fun _ => h.pure _
    · exact h.pure _
    · exact h.pure _

theorem subscript {value index : Expr} {valueText indexText : Emit String}
    (hvalue : P valueText) (hindex : P indexText) (hop : Q (.index value index)) :
    P (subscript value index valueText indexText) := by
  obtain ⟨o, ho⟩ := h.met
  refine h.bind (h.typeOf value) fun container => h.bind (h.operand value hvalue) fun v => ?_
  refine h.bind hindex fun i => ?_
  dsimp only
  split
  · exact h.pure _
  · exact h.pure _
  · exact h.pure _
  · exact h.pure _
  · exact h.pure _
  · exact h.pure _
  · exact h.fallibleIf _ ho (fun _ => rfl) hop
  · exact h.fallible _ ho rfl hop

/-! ## Calls -/

theorem positional {args : List (Expr × Emit String)} (hargs : ∀ p ∈ args, P p.2) :
    P (positional args) := by
  induction args with
  | nil => exact h.pure _
  | cons p rest ih =>
    obtain ⟨e, text⟩ := p
    have hrest : P (do
        let t ← text
        let ts ← Emit.positional rest
        return t :: ts : Emit (List String)) :=
      h.bind (hargs _ List.mem_cons_self) fun t =>
        h.bind (ih fun q hq => hargs q (List.mem_cons_of_mem _ hq)) fun ts => h.pure _
    exact h.ite (h.bind (h.unsupported _) fun _ => hrest) hrest

theorem keywordArgs {args : List (Option String × Emit String)} (hargs : ∀ p ∈ args, P p.2) :
    P (keywordArgs args) := by
  induction args with
  | nil => exact h.pure _
  | cons p rest ih =>
    obtain ⟨arg, text⟩ := p
    have hrest : P (do
        let t ← text
        let ts ← Emit.keywordArgs rest
        return t :: ts : Emit (List String)) :=
      h.bind (hargs _ List.mem_cons_self) fun t =>
        h.bind (ih fun q hq => hargs q (List.mem_cons_of_mem _ hq)) fun ts => h.pure _
    exact h.ite (h.bind (h.unsupported _) fun _ => hrest) hrest

theorem boundCall? {name : String} (args : List String) (hop : Q (.named name)) :
    P (boundCall? name args) := by
  obtain ⟨o, ho⟩ := h.met
  have hcall (fails : Bool) (text : String) : P (do
      let t ← Emit.fallibleIf (.named name) fails text
      return some t : Emit (Option String)) :=
    h.bind (h.fallibleIf text ho (fun _ => rfl) hop) fun _ => h.pure _
  refine h.bind (h.isDeclaredGlobal name) fun isGlobal => h.ite (h.pure _) ?_
  refine h.bind h.scope fun s => ?_
  split
  · exact h.pure _
  · refine h.ite (hcall _ _) ?_
    split
    · exact hcall _ _
    · exact h.ite (h.bind (h.fallible _ ho rfl hop) fun _ => h.pure _) (h.pure _)

/-- However a name is called, it is the call that fails. -/
theorem namedCall {call : Expr} {name : String} (args : List String) (hop : Q (.named name)) :
    P (namedCall call name args) := by
  refine h.bind (h.boundCall? args hop) fun bound => ?_
  split
  · exact h.pure _
  · refine h.options fun o ho => h.bind (h.typeOf call) fun ty => ?_
    have hcall (fails : Bool) (text : String) : P (Emit.fallibleIf (.named name) fails text) :=
      h.fallibleIf text ho (fun _ => rfl) hop
    refine h.ite (hcall _ _) (h.bind h.scope fun s => h.ite ?_ ?_)
    · exact h.options fun _ _ => hcall _ _
    · exact h.bind h.oracle fun _ => hcall _ _

theorem methodCall (receiver : Expr) {receiverText : Emit String} {method : String}
    (args : List String) (hreceiver : P receiverText) (hop : Q (.method method)) :
    P (methodCall receiver receiverText method args) :=
  h.bind (h.operand receiver hreceiver) fun _ => h.options fun _ ho => h.fallibleIf _ ho id hop

theorem valueCall {callee : Expr} {calleeText : Emit String} (args : List String)
    (hcallee : P calleeText) (hop : Q (.computed callee)) :
    P (valueCall callee calleeText args) := by
  obtain ⟨o, ho⟩ := h.met
  refine h.bind (h.operand callee hcallee) fun _ => h.bind (h.typeOf callee) fun _ => ?_
  exact h.ite (h.fallible _ ho rfl hop) (h.fallible _ ho rfl hop)

/-! ## Collections and format strings -/

theorem collectionType (e : Expr) (expected : Option Ty) : P (collectionType e expected) := by
  refine h.bind (h.typeOf e) fun inferred => ?_
  split <;> exact h.pure _

theorem elements (kind elem : String) {items : List (Emit String)} (hitems : ∀ x ∈ items, P x)
    (hop : Q .allocation) : P (elements kind elem items) :=
  h.options fun _ ho => h.bind (h.sequence hitems) fun _ => h.fallibleIf _ ho id hop

theorem dict (ty : Ty) {keys values : List (Emit String)} (hkeys : ∀ x ∈ keys, P x)
    (hvalues : ∀ x ∈ values, P x) (hop : Q .allocation) : P (dict ty keys values) := by
  refine h.options fun o ho =>
    h.bind (h.sequence fun x hx => ?_) fun _ => h.fallibleIf _ ho id hop
  obtain ⟨e, he, rfl⟩ := List.mem_map.mp hx
  refine h.bind (hkeys _ (List.of_mem_zip he).1) fun k => ?_
  exact h.bind (hvalues _ (List.of_mem_zip he).2) fun v => h.pure _

theorem formatParts {parts : List (FormatPart × Emit String)} (hparts : ∀ p ∈ parts, P p.2) :
    P (formatParts parts) := by
  induction parts with
  | nil => exact h.pure _
  | cons p rest ih =>
    obtain ⟨part, text⟩ := p
    have hrest := ih fun q hq => hparts q (List.mem_cons_of_mem _ hq)
    cases part with
    | literal s => exact h.bind hrest fun _ => h.pure _
    | interpolation e =>
      refine h.bind (h.typeOf e) fun ty => h.bind (hparts _ List.mem_cons_self) fun arg => ?_
      exact h.bind hrest fun _ => h.pure _

theorem format {parts : List (FormatPart × Emit String)} (hparts : ∀ p ∈ parts, P p.2)
    (hop : Q .allocation) : P (format parts) :=
  h.options fun _ ho => h.bind (h.formatParts hparts) fun _ => h.fallibleIf _ ho id hop

/-! ## Comprehensions -/

theorem conditions {ifs : List (Expr × Emit String)} (hifs : ∀ p ∈ ifs, P p.2) (out : Buffer) :
    P (conditions ifs out) := by
  induction ifs generalizing out with
  | nil => exact h.pure _
  | cons p rest ih =>
    obtain ⟨e, text⟩ := p
    refine h.bind (h.isolated (h.condition e (hifs _ List.mem_cons_self))) fun ⟨c, before⟩ => ?_
    exact ih (fun q hq => hifs q (List.mem_cons_of_mem _ hq)) _

theorem insertion {text : Emit String} (htext : P text) (hop : Q .allocation) :
    P (insertion text) :=
  h.bind htext fun _ => h.options fun _ ho =>
    h.bind (h.fallibleIf _ ho id hop) fun _ => h.pure _

/-- A comprehension inherits from the block that its loops stand in. -/
theorem comprehension (container : String) (elems : List Expr) {insert : String → Emit String}
    (generators : List Generator) {parts : List GeneratorParts}
    (hloops : ∀ acc used out,
      P (Emit.inBlock (generatorLoops (Emit.insertion (insert acc)) used parts out)))
    (hop : Q .allocation) : P (comprehension container elems insert generators parts) := by
  refine h.bind (h.temporary "comp") fun acc => h.options fun o ho => ?_
  refine h.bind (h.fallibleIf _ ho id hop) fun init => h.bind (h.tell _) fun _ => ?_
  exact h.bind (hloops acc _ _) fun out => h.bind (h.pushPrelude _) fun _ => h.pure _

/-! ## Statements -/

theorem store {container index : Expr} (value : String) (out : Buffer)
    (hcontainer : P (renderOperand container)) (hindex : P (renderExpr index))
    (hop : Q (.entry container)) : P (store container index value out) := by
  obtain ⟨o, ho⟩ := h.met
  refine h.bind (h.typeOf container) fun ty => h.bind hcontainer fun c => h.bind hindex fun i => ?_
  have hline (line : String) : P (do
      let out ← Emit.flushPrelude out
      return out.line line : Emit Buffer) := h.bind (h.flushPrelude out) fun _ => h.pure _
  dsimp only
  split
  · exact hline _
  · exact h.options fun _ ho => h.bind (h.fallibleIf _ ho (fun _ => rfl) hop) fun _ => hline _
  · exact h.bind (h.fallible _ ho rfl hop) fun _ => hline _

theorem partAccess (source : String) (ty : Ty) (i : Nat) (hop : Q .part) :
    P (partAccess source ty i) := by
  obtain ⟨o, ho⟩ := h.met
  unfold Emit.partAccess
  split
  · exact h.pure _
  · exact h.pure _
  · exact h.fallible _ ho rfl hop

theorem delete_subscript {e i : Expr} (out : Buffer) (hcontainer : P (renderOperand e))
    (hindex : P (renderExpr i)) (hop : Q (.entry e)) : P (delete (.subscript e i) out) := by
  obtain ⟨o, ho⟩ := h.met
  rw [delete]
  refine h.bind (h.typeOf e) fun ty => h.bind hcontainer fun c => h.bind hindex fun index => ?_
  have hline (line : String) : P (do
      let out ← Emit.flushPrelude out
      return out.line line : Emit Buffer) := h.bind (h.flushPrelude out) fun _ => h.pure _
  dsimp only
  split
  · exact hline _
  · exact hline _
  · exact h.bind (h.fallible _ ho rfl hop) fun _ => hline _

theorem exprStmt {e : Expr} (out : Buffer) (he : P (renderExpr e)) : P (exprStmt e out) := by
  unfold Emit.exprStmt
  split
  · exact h.pure _
  · refine h.bind (h.typeOf e) fun ty => h.bind he fun text => ?_
    exact h.bind (h.flushPrelude out) fun _ => h.pure _

theorem assertion {test : Expr} (out : Buffer) (htest : P (renderCondition test))
    (hop : Q .raised) : P (assertion test out) := by
  obtain ⟨o, ho⟩ := h.met
  refine h.bind htest fun t => h.bind (h.flushPrelude out) fun out => ?_
  exact h.bind (h.errorExit _ _ ho rfl hop) fun _ => h.pure _

theorem reraise (payload : String) (first : Bool) (out : Buffer) (hop : Q .rethrown) :
    P (reraise payload first out) := by
  obtain ⟨o, ho⟩ := h.met
  refine h.ite (h.errorExit _ _ ho rfl hop) ?_
  exact h.bind (h.errorExit _ _ ho rfl hop) fun _ => h.pure _

section Bodies

variable {body : Buffer → Emit Buffer}

theorem nested (out : Buffer) (hbody : ∀ out, P (body out)) : P (nested body out) :=
  h.inBlock (h.bind (hbody _) fun _ => h.pure _)

theorem braced (out : Buffer) (hbody : ∀ out, P (body out)) : P (braced body out) :=
  h.bind (h.nested _ hbody) fun _ => h.pure _

theorem whileLoop {test : Expr} (out : Buffer) (htest : P (renderCondition test))
    (hnested : ∀ out, P (looping (Emit.nested body out)))
    (hblock : ∀ out, P (looping (Emit.inBlock (body out)))) : P (whileLoop test body out) := by
  refine h.bind (h.isolated htest) fun ⟨t, before⟩ => ?_
  exact h.ite (h.bind (hnested _) fun _ => h.pure _) (h.bind (hblock _) fun _ => h.pure _)

theorem elseIf {test : Expr} (out : Buffer) (htest : P (renderCondition test))
    (hbody : ∀ out, P (body out)) : P (elseIf test body out) := by
  refine h.inBlock (h.bind (h.isolated htest) fun ⟨t, before⟩ => ?_)
  exact h.ite (hbody _) (h.bind (hbody _) fun _ => h.pure _)

theorem unguarded {p : TryParts} (text : String) (out : Buffer)
    (hundecided : ∀ choices, P (undecided choices))
    (horelse : ∀ x ∈ p.orelse, ∀ out, P (x out)) : P (unguarded p text out) := by
  refine h.bind (hundecided _) fun _ => ?_
  dsimp only
  split
  · rename_i orelse hsome
    exact h.braced _ (horelse orelse hsome)
  · exact h.pure _

end Bodies

end Hereditary

/-! ## Loops -/

/-- All computations that a generator is given have the property. -/
structure GeneratorParts.Inherit (P : {α : Type} → Emit α → Prop) (g : GeneratorParts) : Prop where
  iterText : P g.iterText
  argTexts : ∀ x ∈ g.argTexts, P x
  ifs : ∀ p ∈ g.ifs, P p.2

/-- A hereditary property that binding the variables of a loop has as well. -/
structure LoopHereditary (O : Options → Prop) (Q : Operation → Prop)
    (P : {α : Type} → Emit α → Prop) : Prop extends Hereditary O Q P where
  bindPayload (n : String) (ty : Ty) : P (Emit.bindPayload n ty)
  bindCounter (n start : String) : P (Emit.bindCounter n start)

namespace LoopHereditary

variable {O : Options → Prop} {Q : Operation → Prop} {P : {α : Type} → Emit α → Prop}
  (h : LoopHereditary O Q P)

include h

mutual

theorem unpackPart (used : List String) :
    ∀ (t : Target) (source : String) (ty : Ty), P (unpackPart used t source ty)
  | .name n, _, ty => h.bind (h.bindPayload n ty) fun _ => h.pure _
  | .tuple parts, source, ty => unpack used parts source ty 0
  | .attribute _ _, _, _ => h.unsupported _
  | .subscript _ _, _, _ => h.unsupported _
  | .starred _, _, _ => h.unsupported _

theorem unpack (used : List String) :
    ∀ (ts : List Target) (source : String) (ty : Ty) (i : Nat), P (unpack used ts source ty i)
  | [], _, _, _ => h.pure _
  | t :: ts, _, _, _ =>
    h.bind (unpackPart used t _ _) fun _ => h.bind (unpack used ts _ _ _) fun _ => h.pure _

end

theorem loopPayload (target : Target) (elem : Ty) (used : List String) :
    P (loopPayload target elem used) := by
  unfold Emit.loopPayload
  split
  · exact h.bind (h.bindPayload _ elem) fun _ => h.pure _
  · exact h.bind (h.temporary "item") fun _ => h.bind (h.unpack used _ _ _ _) fun _ => h.pure _
  · exact h.unsupported _

theorem openCounted (n : String) (args : List Expr) (bounds : List String) (out : Buffer) :
    P (openCounted n args bounds out) :=
  h.bind (h.bindCounter n _) fun _ => h.pure _

theorem openLoop (target : Target) (iter : Expr) {iterText : Emit String}
    {argTexts : List (Emit String)} (used : List String) (out : Buffer) (hiter : P iterText)
    (hargs : ∀ x ∈ argTexts, P x) : P (openLoop target iter iterText argTexts used out) := by
  refine h.bind h.scope fun s => ?_
  split
  · refine h.bind (h.sequence hargs) fun bounds => h.bind (h.flushPrelude out) fun out => ?_
    exact h.bind (h.openCounted _ _ _ out) fun _ => h.pure _
  · refine h.bind (h.typeOf iter) fun ty => h.bind (h.operand iter hiter) fun it => ?_
    refine h.bind (h.flushPrelude out) fun out => ?_
    refine h.bind (h.loopPayload target _ used) fun ⟨payload, lines⟩ => ?_
    dsimp only
    split
    · exact h.pure _
    · exact h.pure _
    · exact h.pure _
    · exact h.bind (h.temporary "it") fun _ => h.pure _

/-- A comprehension inherits from its loops. -/
theorem comprehension (container : String) (elems : List Expr) {insert : String → Emit String}
    (generators : List Generator) {parts : List GeneratorParts}
    (hloops : ∀ acc used out, P (generatorLoops (Emit.insertion (insert acc)) used parts out))
    (hop : Q .allocation) : P (comprehension container elems insert generators parts) :=
  h.toHereditary.comprehension container elems generators
    (fun acc used out => h.inBlock (hloops acc used out)) hop

theorem generatorLoops {insert : Emit String} (used : List String) {parts : List GeneratorParts}
    (out : Buffer) (hinsert : P insert) (hparts : ∀ g ∈ parts, g.Inherit P) :
    P (generatorLoops insert used parts out) := by
  induction parts generalizing out with
  | nil => exact h.bind (h.isolated hinsert) fun _ => h.pure _
  | cons g rest ih =>
    obtain ⟨hiter, hargs, hifs⟩ := hparts g List.mem_cons_self
    refine h.bind (h.openLoop _ _ used out hiter hargs) fun ⟨braces, out⟩ => ?_
    refine h.bind (h.conditions hifs out) fun out => ?_
    exact h.bind (ih out fun g' hg => hparts g' (List.mem_cons_of_mem _ hg)) fun _ => h.pure _

/-- A comprehension inherits from what it collects and from its generators. -/
theorem collecting (container : String) (elems : List Expr) {insert : String → Emit String}
    (generators : List Generator) {parts : List GeneratorParts} (hinsert : ∀ acc, P (insert acc))
    (hparts : ∀ g ∈ parts, g.Inherit P) (hop : Q .allocation) :
    P (Emit.comprehension container elems insert generators parts) :=
  h.comprehension container elems generators
    (fun acc used out => h.generatorLoops used out (h.insertion (hinsert acc) hop) hparts) hop

theorem withItem (out : Buffer) {item : WithItem} (hitem : P (renderExpr item.context)) :
    P (withItem out item) := by
  refine h.bind (h.typeOf item.context) fun ty => h.bind hitem fun text => ?_
  refine h.bind (h.flushPrelude out) fun out => ?_
  dsimp only
  split
  · exact h.bind (h.bindPayload _ ty) fun _ => h.pure _
  · exact h.bind (h.temporary "ctx") fun _ => h.pure _
  · exact h.bind (h.unsupported _) fun _ => h.pure _

section Bodies

variable {body : Buffer → Emit Buffer}

theorem forLoop (target : Target) {iter : Expr} (stmts : List Stmt) (out : Buffer)
    (hiter : P (renderExpr iter)) (hargs : ∀ x ∈ argTexts iter, P x)
    (hbody : ∀ out, P (looping (body out))) : P (forLoop target iter stmts body out) := by
  refine h.bind (h.tell _) fun _ => h.inBlock ?_
  refine h.bind (h.openLoop target iter _ out hiter hargs) fun ⟨braces, out⟩ => ?_
  exact h.bind (hbody out) fun _ => h.pure _

theorem withBlock {items : List WithItem} (out : Buffer)
    (hitems : ∀ item ∈ items, P (renderExpr item.context)) (hbody : ∀ out, P (body out)) :
    P (withBlock items body out) := by
  refine h.bind (h.inBlock ?_) fun _ => h.pure _
  refine h.bind (h.foldlM (fun out item hi => h.withItem out (hitems item hi)) _) fun out => ?_
  exact h.bind (hbody out) fun _ => h.pure _

end Bodies

end LoopHereditary

/-! ## All expressions -/

/-- A property of loops that lambdas inherit from their bodies as well. -/
structure RenderHereditary (P : {α : Type} → Emit α → Prop) : Prop
    extends LoopHereditary (fun _ => True) (fun _ => True) P where
  lambda (params : List Param) {body : Expr} :
    P (render body none) → P (Emit.lambda params body (render body none))

namespace RenderHereditary

variable {P : {α : Type} → Emit α → Prop}

mutual

/-- **Every expression inherits from its parts.** -/
theorem render (h : RenderHereditary P) : ∀ (e : Expr) (expected : Option Ty), P (render e expected)
  | .name n, _ => by
    rw [Emit.render]
    exact h.name n
  | .constant c, _ => by
    rw [Emit.render]
    exact h.pure _
  | .binary op l r, _ => by
    rw [Emit.render]
    exact h.binary (h.render l none) (h.render r none) trivial
  | .unary op e, _ => by
    rw [Emit.render]
    exact h.bind (h.operand e (h.render e none)) fun _ => h.pure _
  | .boolean op es, _ => by
    rw [Emit.render]
    exact h.boolean op (h.operands es)
  | .compare l ops es, _ => by
    rw [Emit.render]
    exact h.compare l ops es (h.render l none) (h.renders es)
  | .call f args kws, _ => by
    rw [Emit.render]
    refine h.bind (h.positional fun p hp => ?_) fun texts => ?_
    · exact h.renders args _ (List.of_mem_zip hp).2
    refine h.bind (h.keywordArgs (h.keywordTexts kws)) fun more => ?_
    have hvalue : P (Emit.render f none) := h.render f none
    cases f with
    | name n => exact h.namedCall _ trivial
    | «attribute» e method => exact h.methodCall e _ (h.render e none) trivial
    | _ => exact h.valueCall _ hvalue trivial
  | .attribute e _, _ => by
    rw [Emit.render]
    exact h.bind (h.operand e (h.render e none)) fun _ => h.pure _
  | .subscript e i, _ => by
    rw [Emit.render]
    exact h.subscript (h.render e none) (h.render i none) trivial
  | .tuple es, _ => by
    rw [Emit.render]
    exact h.bind (h.sequence (h.renders es)) fun _ => h.pure _
  | .list es, _ | .set es, _ => by
    rw [Emit.render]
    exact h.bind (h.collectionType _ _) fun _ => h.elements _ _ (h.renders es) trivial
  | .dict ks vs, _ => by
    rw [Emit.render]
    exact h.bind (h.collectionType _ _) fun ty => h.dict ty (h.renders ks) (h.renders vs) trivial
  | .ifElse t b e, _ => by
    rw [Emit.render]
    refine h.bind (h.condition t (h.render t none)) fun test => ?_
    refine h.bind (h.operand b (h.render b none)) fun body => ?_
    exact h.bind (h.operand e (h.render e none)) fun _ => h.pure _
  | .lambda ps b, _ => by
    rw [Emit.render]
    exact h.bind (h.lambda ps (h.render b none)) fun _ => h.pure _
  | .listComp e gs, _ | .generatorExp e gs, _ | .setComp e gs, _ => by
    rw [Emit.render]
    refine h.bind (h.collectionType _ _) fun ty => ?_
    refine h.collecting _ _ gs (fun acc => ?_) (h.generatorParts gs) trivial
    exact h.bind (h.render e none) fun _ => h.pure _
  | .dictComp k v gs, _ => by
    rw [Emit.render]
    refine h.bind (h.collectionType _ _) fun ty => ?_
    refine h.collecting _ _ gs (fun acc => ?_) (h.generatorParts gs) trivial
    exact h.bind (h.render k none) fun _ => h.bind (h.render v none) fun _ => h.pure _
  | .format ps, _ => by
    rw [Emit.render]
    exact h.format (fun p hp => h.partTexts ps _ (List.of_mem_zip hp).2) trivial
  | .starred _, _ => by
    rw [Emit.render]
    exact h.unsupported _

theorem renders (h : RenderHereditary P) : ∀ (es : List Expr), ∀ x ∈ renders es, P x
  | [], x, hx => by
    rw [Emit.renders] at hx
    cases hx
  | e :: es, x, hx => by
    rw [Emit.renders] at hx
    rcases List.mem_cons.mp hx with rfl | hmem
    · exact h.render e none
    · exact h.renders es x hmem

theorem operands (h : RenderHereditary P) : ∀ (es : List Expr), ∀ x ∈ operands es, P x
  | [], x, hx => by
    rw [Emit.operands] at hx
    cases hx
  | e :: es, x, hx => by
    rw [Emit.operands] at hx
    rcases List.mem_cons.mp hx with rfl | hmem
    · exact h.operand e (h.render e none)
    · exact h.operands es x hmem

theorem keywordTexts (h : RenderHereditary P) : ∀ (ks : List Keyword), ∀ p ∈ keywordTexts ks, P p.2
  | [], p, hp => by
    rw [Emit.keywordTexts] at hp
    cases hp
  | ⟨_, e⟩ :: ks, p, hp => by
    rw [Emit.keywordTexts] at hp
    rcases List.mem_cons.mp hp with rfl | hmem
    · exact h.render e none
    · exact h.keywordTexts ks p hmem

theorem argTexts (h : RenderHereditary P) (e : Expr) : ∀ x ∈ argTexts e, P x := by
  intro x hx
  cases e with
  | call _ args _ =>
    rw [Emit.argTexts] at hx
    exact h.renders args x hx
  | _ => simp [Emit.argTexts] at hx

theorem conditionTexts (h : RenderHereditary P) : ∀ (es : List Expr), ∀ p ∈ conditionTexts es, P p.2
  | [], p, hp => by
    rw [Emit.conditionTexts] at hp
    cases hp
  | e :: es, p, hp => by
    rw [Emit.conditionTexts] at hp
    rcases List.mem_cons.mp hp with rfl | hmem
    · exact h.render e none
    · exact h.conditionTexts es p hmem

theorem generatorParts (h : RenderHereditary P) :
    ∀ (gs : List Generator), ∀ g ∈ generatorParts gs, g.Inherit P
  | [], g, hg => by
    rw [Emit.generatorParts] at hg
    cases hg
  | ⟨_, iter, ifs⟩ :: gs, g, hg => by
    rw [Emit.generatorParts] at hg
    rcases List.mem_cons.mp hg with rfl | hmem
    · exact ⟨h.render iter none, h.argTexts iter, h.conditionTexts ifs⟩
    · exact h.generatorParts gs g hmem

theorem partTexts (h : RenderHereditary P) : ∀ (ps : List FormatPart), ∀ x ∈ partTexts ps, P x
  | [], x, hx => by
    rw [Emit.partTexts] at hx
    cases hx
  | .literal _ :: ps, x, hx => by
    rw [Emit.partTexts] at hx
    rcases List.mem_cons.mp hx with rfl | hmem
    · exact h.pure _
    · exact h.partTexts ps x hmem
  | .interpolation e :: ps, x, hx => by
    rw [Emit.partTexts] at hx
    rcases List.mem_cons.mp hx with rfl | hmem
    · exact h.render e none
    · exact h.partTexts ps x hmem

end

theorem renderExpr (h : RenderHereditary P) (e : Expr) : P (renderExpr e) := h.render e none

theorem renderOperand (h : RenderHereditary P) (e : Expr) : P (renderOperand e) :=
  h.operand e (h.renderExpr e)

theorem renderCondition (h : RenderHereditary P) (e : Expr) : P (renderCondition e) :=
  h.condition e (h.renderExpr e)

end RenderHereditary

end Emit

end ClosureConversion
