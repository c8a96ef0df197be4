import ClosureConversion.Proofs.Json.Reordering
import ClosureConversion.Tree.Json

/-! # Reading programs back -/

set_option autoImplicit false

namespace ClosureConversion

open Json (Reads)

/-! ## Float constants -/

def Constant.floats : Constant → List Float
  | .float x => [x]
  | _ => []

mutual

/-- The float constants of an expression, defaults of formals included. -/
def Expr.floats : Expr → List Float
  | .name _ => []
  | .constant c => c.floats
  | .binary _ l r => l.floats ++ r.floats
  | .unary _ e | .attribute e _ | .starred e => e.floats
  | .boolean _ es | .list es | .tuple es | .set es => Expr.allFloats es
  | .compare l _ es => l.floats ++ Expr.allFloats es
  | .call f args kws => f.floats ++ (Expr.allFloats args ++ Keyword.allFloats kws)
  | .subscript e i => e.floats ++ i.floats
  | .dict ks vs => Expr.allFloats ks ++ Expr.allFloats vs
  | .ifElse t b e => t.floats ++ (b.floats ++ e.floats)
  | .lambda ps b => Param.allFloats ps ++ b.floats
  | .listComp e gs | .setComp e gs | .generatorExp e gs => e.floats ++ Generator.allFloats gs
  | .dictComp k v gs => k.floats ++ (v.floats ++ Generator.allFloats gs)
  | .format ps => FormatPart.allFloats ps

def Expr.allFloats : List Expr → List Float
  | [] => []
  | e :: es => e.floats ++ Expr.allFloats es

def Keyword.allFloats : List Keyword → List Float
  | [] => []
  | ⟨_, value⟩ :: ks => value.floats ++ Keyword.allFloats ks

def Param.floats : Param → List Float
  | ⟨_, _, none⟩ => []
  | ⟨_, _, some d⟩ => d.floats

def Param.allFloats : List Param → List Float
  | [] => []
  | p :: ps => p.floats ++ Param.allFloats ps

def Target.floats : Target → List Float
  | .name _ => []
  | .tuple ts => Target.allFloats ts
  | .attribute e _ => e.floats
  | .subscript e i => e.floats ++ i.floats
  | .starred t => t.floats

def Target.allFloats : List Target → List Float
  | [] => []
  | t :: ts => t.floats ++ Target.allFloats ts

def Generator.allFloats : List Generator → List Float
  | [] => []
  | ⟨target, iter, ifs⟩ :: gs =>
    target.floats ++ (iter.floats ++ (Expr.allFloats ifs ++ Generator.allFloats gs))

def FormatPart.allFloats : List FormatPart → List Float
  | [] => []
  | .literal _ :: ps => FormatPart.allFloats ps
  | .interpolation e :: ps => e.floats ++ FormatPart.allFloats ps

end

def WithItem.floats (w : WithItem) : List Float :=
  w.context.floats ++ w.target.toList.flatMap Target.floats

mutual

/-- The float constants of a statement, those of nested functions included. -/
def Stmt.floats : Stmt → List Float
  | .assign t v _ | .augAssign t _ v => t.floats ++ v.floats
  | .expr e => e.floats
  | .ret v | .raise v => v.toList.flatMap Expr.floats
  | .ifElse t b e => t.floats ++ (Stmt.allFloats b ++ Stmt.allFloats e)
  | .whileLoop t b => t.floats ++ Stmt.allFloats b
  | .forLoop t i b => t.floats ++ (i.floats ++ Stmt.allFloats b)
  | .breakLoop | .continueLoop | .pass | .nonlocal _ | .global _ => []
  | .assert t m => t.floats ++ m.toList.flatMap Expr.floats
  | .tryExcept b hs e f =>
    Stmt.allFloats b ++ (Handler.allFloats hs ++ (Stmt.allFloats e ++ Stmt.allFloats f))
  | .withItems items b => items.flatMap WithItem.floats ++ Stmt.allFloats b
  | .functionDef f => f.floats
  | .delete ts => ts.flatMap Target.floats

def Stmt.allFloats : List Stmt → List Float
  | [] => []
  | s :: ss => s.floats ++ Stmt.allFloats ss

def Handler.allFloats : List Handler → List Float
  | [] => []
  | ⟨kind, _, body⟩ :: hs =>
    kind.toList.flatMap Expr.floats ++ (Stmt.allFloats body ++ Handler.allFloats hs)

def Function.floats : Function → List Float
  | ⟨_, params, vararg, kwarg, _, body, decorators, _⟩ =>
    params.flatMap Param.floats ++ (vararg.toList.flatMap Param.floats ++
      (kwarg.toList.flatMap Param.floats ++
        (Stmt.allFloats body ++ decorators.flatMap Expr.floats)))

end

def Module.floats (m : Module) : List Float := m.functions.flatMap Function.floats

/-! ## Types -/

theorem Ty.ofJson?_null : Ty.ofJson? .null = Option.none := by
  rw [Ty.ofJson?]
  rfl

mutual

theorem Ty.reads : ∀ t : Ty, Reads Ty.ofJson? t.toJson t
  | .none | .bool | .int | .bigInt | .float | .str | .bytes | .unknown => by
    rintro _ ⟨⟩
    rw [Ty.ofJson?]
    rfl
  | .list t => .of_variant fun j x hv hx => by
    rw [Ty.ofJson?, hv]
    simp only [Ty.reads t _ hx, Option.map_some]
  | .set t => .of_variant fun j x hv hx => by
    rw [Ty.ofJson?, hv]
    simp only [Ty.reads t _ hx, Option.map_some]
  | .dict k v => .of_variant fun j x hv hx => by
    obtain ⟨k', v', hitems, hk, hv'⟩ := Json.Within.items_of_pair hx
    rw [Ty.ofJson?, hv]
    simp only [hitems, Ty.reads k _ hk, Ty.reads v _ hv']
    rfl
  | .tuple ts => .of_variant fun j x hv hx => by
    rw [Ty.ofJson?, hv]
    simp only [Json.Within.list?_val, Ty.reads_all ts _ hx, Option.map_some]
  | .record name => .of_variant fun j x hv hx => by
    rw [Ty.ofJson?, hv]
    simp only [Json.reads_string name _ hx, Option.map_some]
  | .function s => .of_variant fun j x hv hx => by
    rw [Ty.ofJson?, hv]
    simp only [Signature.reads s _ hx, Option.map_some]
  | .closure w s => .of_variant fun j x hv hx => by
    obtain ⟨r, hr, hc⟩ := Json.Within.record_of_reordered hx (by simp) ["wrapper", "signature"]
    rw [Ty.ofJson?, hv]
    simp only [hr, hc.required "wrapper" (by simp) (Json.reads_string w),
      hc.required "signature" (by simp) (Signature.reads s),
      Option.bind_eq_bind, Option.bind_some, Option.pure_def]
  | .union ts => .of_variant fun j x hv hx => by
    rw [Ty.ofJson?, hv]
    simp only [Json.Within.list?_val, Ty.reads_all ts _ hx, Option.map_some]

theorem Signature.reads : ∀ s : Signature, Reads Signature.ofJson? s.toJson s
  | ⟨ps, result, fallible⟩ =>
    .of_record ["params", "return_type", "fallible"] (by simp) fun j r hr hc => by
    rw [Signature.ofJson?, hr]
    simp only [Json.Within.list?_val, hc.required "params" (by simp) (Ty.reads_all ps),
      hc.required "return_type" (by simp) (Ty.reads result),
      hc.required "fallible" (by simp) (Json.reads_bool fallible),
      Option.bind_eq_bind, Option.bind_some, Option.pure_def]

theorem Ty.reads_all : ∀ ts : List Ty, Reads (Json.listOf? Ty.ofJson?) (.arr (Ty.allToJson ts)) ts
  | [] => Json.reads_nil
  | t :: ts => (Ty.reads t).cons (Ty.reads_all ts)

end

/-! ## Operators and constants -/

theorem reads_named {α : Type} {name : α → String} {all : List α} {a : α}
    (h : all.find? (name · == name a) = some a) : Reads (named? name all) (.str (name a)) a := by
  rintro _ ⟨⟩
  exact h

theorem BinOp.reads (op : BinOp) : Reads BinOp.ofJson? (.str op.name) op :=
  reads_named (by cases op <;> decide)

theorem UnaryOp.reads (op : UnaryOp) : Reads UnaryOp.ofJson? (.str op.name) op :=
  reads_named (by cases op <;> decide)

theorem BoolOp.reads (op : BoolOp) : Reads BoolOp.ofJson? (.str op.name) op :=
  reads_named (by cases op <;> decide)

theorem CmpOp.reads (op : CmpOp) : Reads CmpOp.ofJson? (.str op.name) op :=
  reads_named (by cases op <;> decide)

theorem Constant.reads : ∀ c : Constant, (∀ x ∈ c.floats, x.isFinite = true) →
    Reads Constant.ofJson? c.toJson c
  | .none, _ => by
    rintro _ ⟨⟩
    rfl
  | .bool b, _ => .of_variant fun j x hv hx => by
    simp only [Constant.ofJson?, hv, Json.reads_bool b _ hx, Option.map_some]
  | .int i, _ => .of_variant fun j x hv hx => by
    simp only [Constant.ofJson?, hv, Json.reads_int64 i _ hx, Option.map_some]
  | .float y, h => .of_variant fun j x hv hx => by
    have hfinite : y.isFinite = true := h y List.mem_cons_self
    simp only [Constant.ofJson?, hv, Json.reads_float hfinite _ hx, Option.map_some]
  | .str t, _ => .of_variant fun j x hv hx => by
    simp only [Constant.ofJson?, hv, Json.reads_string t _ hx, Option.map_some]

/-! ## Expressions -/

variable (s : Json.Strictness)

theorem Expr.ofJson?_null : Expr.ofJson? s .null = none := by
  rw [Expr.ofJson?]
  rfl

theorem Target.ofJson?_null : Target.ofJson? s .null = none := by
  rw [Target.ofJson?]
  rfl

theorem Param.ofJson?_null : Param.ofJson? s .null = none := by
  rw [Param.ofJson?]
  rfl

mutual

/-- An expression with finite constants is read back. -/
theorem Expr.reads : ∀ e : Expr, (∀ x ∈ e.floats, x.isFinite = true) →
    Reads (Expr.ofJson? s) e.toJson e
  | .name n, _ => .of_variant fun j x hv hx => by
    rw [Expr.ofJson?, hv]
    simp only [Json.reads_string n _ hx, Option.map_some]
  | .constant c, h => .of_variant fun j x hv hx => by
    rw [Expr.ofJson?, hv]
    simp only [Constant.reads c h _ hx, Option.map_some]
  | .binary op l r, h => .of_struct s ["op", "left", "right"] (by simp) fun j x f hv hf hc => by
    obtain ⟨hl, hr⟩ := List.forall_mem_append.mp h
    rw [Expr.ofJson?, hv]
    simp only [hf, hc.required "op" (by simp) (BinOp.reads op),
      hc.required "left" (by simp) (Expr.reads l hl),
      hc.required "right" (by simp) (Expr.reads r hr),
      Option.bind_eq_bind, Option.bind_some, Option.pure_def]
  | .unary op e, h => .of_struct s ["op", "operand"] (by simp) fun j x f hv hf hc => by
    rw [Expr.ofJson?, hv]
    simp only [hf, hc.required "op" (by simp) (UnaryOp.reads op),
      hc.required "operand" (by simp) (Expr.reads e h),
      Option.bind_eq_bind, Option.bind_some, Option.pure_def]
  | .boolean op es, h => .of_struct s ["op", "values"] (by simp) fun j x f hv hf hc => by
    rw [Expr.ofJson?, hv]
    simp only [hf, Json.Within.list?_val, hc.required "op" (by simp) (BoolOp.reads op),
      hc.required "values" (by simp) (Expr.reads_all es h),
      Option.bind_eq_bind, Option.bind_some, Option.pure_def]
  | .compare l ops es, h =>
    .of_struct s ["left", "ops", "comparators"] (by simp) fun j x f hv hf hc => by
    obtain ⟨hl, hes⟩ := List.forall_mem_append.mp h
    have hops : Reads (Json.listOf? CmpOp.ofJson?) (.arr (ops.map fun op => .str op.name)) ops :=
      Json.reads_map fun op _ => CmpOp.reads op
    rw [Expr.ofJson?, hv]
    simp only [hf, Json.Within.list?_val, hc.required "left" (by simp) (Expr.reads l hl),
      hc.required "ops" (by simp) hops,
      hc.required "comparators" (by simp) (Expr.reads_all es hes),
      Option.bind_eq_bind, Option.bind_some, Option.pure_def]
  | .call e args kws, h =>
    .of_struct s ["func", "args", "keywords"] (by simp) fun j x f hv hf hc => by
    obtain ⟨he, hrest⟩ := List.forall_mem_append.mp h
    obtain ⟨hargs, hkws⟩ := List.forall_mem_append.mp hrest
    rw [Expr.ofJson?, hv]
    simp only [hf, Json.Within.list?_val, hc.required "func" (by simp) (Expr.reads e he),
      hc.orDefault "args" (by simp) (Expr.reads_all args hargs),
      hc.orDefault "keywords" (by simp) (Keyword.reads_all kws hkws),
      Option.bind_eq_bind, Option.bind_some, Option.pure_def]
  | .attribute e a, h => .of_struct s ["value", "attr"] (by simp) fun j x f hv hf hc => by
    rw [Expr.ofJson?, hv]
    simp only [hf, hc.required "value" (by simp) (Expr.reads e h),
      hc.required "attr" (by simp) (Json.reads_string a),
      Option.bind_eq_bind, Option.bind_some, Option.pure_def]
  | .subscript e i, h => .of_struct s ["value", "index"] (by simp) fun j x f hv hf hc => by
    obtain ⟨he, hi⟩ := List.forall_mem_append.mp h
    rw [Expr.ofJson?, hv]
    simp only [hf, hc.required "value" (by simp) (Expr.reads e he),
      hc.required "index" (by simp) (Expr.reads i hi),
      Option.bind_eq_bind, Option.bind_some, Option.pure_def]
  | .list es, h => .of_variant fun j x hv hx => by
    rw [Expr.ofJson?, hv]
    simp only [Json.Within.list?_val, Expr.reads_all es h _ hx, Option.map_some]
  | .tuple es, h => .of_variant fun j x hv hx => by
    rw [Expr.ofJson?, hv]
    simp only [Json.Within.list?_val, Expr.reads_all es h _ hx, Option.map_some]
  | .set es, h => .of_variant fun j x hv hx => by
    rw [Expr.ofJson?, hv]
    simp only [Json.Within.list?_val, Expr.reads_all es h _ hx, Option.map_some]
  | .dict ks vs, h => .of_struct s ["keys", "values"] (by simp) fun j x f hv hf hc => by
    obtain ⟨hks, hvs⟩ := List.forall_mem_append.mp h
    rw [Expr.ofJson?, hv]
    simp only [hf, Json.Within.list?_val, hc.required "keys" (by simp) (Expr.reads_all ks hks),
      hc.required "values" (by simp) (Expr.reads_all vs hvs),
      Option.bind_eq_bind, Option.bind_some, Option.pure_def]
  | .ifElse t b e, h =>
    .of_struct s ["test", "body", "orelse"] (by simp) fun j x f hv hf hc => by
    obtain ⟨ht, hrest⟩ := List.forall_mem_append.mp h
    obtain ⟨hb, he⟩ := List.forall_mem_append.mp hrest
    rw [Expr.ofJson?, hv]
    simp only [hf, hc.required "test" (by simp) (Expr.reads t ht),
      hc.required "body" (by simp) (Expr.reads b hb),
      hc.required "orelse" (by simp) (Expr.reads e he),
      Option.bind_eq_bind, Option.bind_some, Option.pure_def]
  | .lambda ps b, h => .of_struct s ["params", "body"] (by simp) fun j x f hv hf hc => by
    obtain ⟨hps, hb⟩ := List.forall_mem_append.mp h
    rw [Expr.ofJson?, hv]
    simp only [hf, Json.Within.list?_val, hc.required "params" (by simp) (Param.reads_all ps hps),
      hc.required "body" (by simp) (Expr.reads b hb),
      Option.bind_eq_bind, Option.bind_some, Option.pure_def]
  | .listComp e gs, h => .of_struct s ["elt", "generators"] (by simp) fun j x f hv hf hc => by
    obtain ⟨he, hgs⟩ := List.forall_mem_append.mp h
    rw [Expr.ofJson?, hv]
    simp only [hf, Json.Within.list?_val, hc.required "elt" (by simp) (Expr.reads e he),
      hc.required "generators" (by simp) (Generator.reads_all gs hgs),
      Option.bind_eq_bind, Option.bind_some, Option.pure_def]
  | .setComp e gs, h => .of_struct s ["elt", "generators"] (by simp) fun j x f hv hf hc => by
    obtain ⟨he, hgs⟩ := List.forall_mem_append.mp h
    rw [Expr.ofJson?, hv]
    simp only [hf, Json.Within.list?_val, hc.required "elt" (by simp) (Expr.reads e he),
      hc.required "generators" (by simp) (Generator.reads_all gs hgs),
      Option.bind_eq_bind, Option.bind_some, Option.pure_def]
  | .generatorExp e gs, h => .of_struct s ["elt", "generators"] (by simp) fun j x f hv hf hc => by
    obtain ⟨he, hgs⟩ := List.forall_mem_append.mp h
    rw [Expr.ofJson?, hv]
    simp only [hf, Json.Within.list?_val, hc.required "elt" (by simp) (Expr.reads e he),
      hc.required "generators" (by simp) (Generator.reads_all gs hgs),
      Option.bind_eq_bind, Option.bind_some, Option.pure_def]
  | .dictComp k v gs, h =>
    .of_struct s ["key", "value", "generators"] (by simp) fun j x f hv hf hc => by
    obtain ⟨hk, hrest⟩ := List.forall_mem_append.mp h
    obtain ⟨hvalue, hgs⟩ := List.forall_mem_append.mp hrest
    rw [Expr.ofJson?, hv]
    simp only [hf, Json.Within.list?_val, hc.required "key" (by simp) (Expr.reads k hk),
      hc.required "value" (by simp) (Expr.reads v hvalue),
      hc.required "generators" (by simp) (Generator.reads_all gs hgs),
      Option.bind_eq_bind, Option.bind_some, Option.pure_def]
  | .format ps, h => .of_variant fun j x hv hx => by
    rw [Expr.ofJson?, hv]
    simp only [Json.Within.list?_val, FormatPart.reads_all ps h _ hx, Option.map_some]
  | .starred e, h => .of_variant fun j x hv hx => by
    rw [Expr.ofJson?, hv]
    simp only [Expr.reads e h _ hx, Option.map_some]

theorem Expr.reads_all : ∀ es : List Expr, (∀ x ∈ Expr.allFloats es, x.isFinite = true) →
    Reads (Json.listOf? (Expr.ofJson? s)) (.arr (Expr.allToJson es)) es
  | [], _ => Json.reads_nil
  | e :: es, h =>
    have ⟨he, hes⟩ := List.forall_mem_append.mp h
    (Expr.reads e he).cons (Expr.reads_all es hes)

theorem Keyword.reads_all : ∀ ks : List Keyword, (∀ x ∈ Keyword.allFloats ks, x.isFinite = true) →
    Reads (Json.listOf? (Keyword.ofJson? s)) (.arr (Keyword.allToJson ks)) ks
  | [], _ => Json.reads_nil
  | ⟨arg, value⟩ :: ks, h => by
    obtain ⟨hvalue, hks⟩ := List.forall_mem_append.mp h
    refine .cons (.of_record ["arg", "value"] (by simp) fun j r hr hc => ?_)
      (Keyword.reads_all ks hks)
    rw [Keyword.ofJson?, hr]
    simp only [hc.nullable "arg" arg (by simp) rfl fun n _ => Json.reads_string n,
      hc.required "value" (by simp) (Expr.reads value hvalue),
      Option.bind_eq_bind, Option.bind_some, Option.pure_def]

theorem Param.reads : ∀ p : Param, (∀ x ∈ p.floats, x.isFinite = true) →
    Reads (Param.ofJson? s) p.toJson p
  | ⟨name, declared, none⟩, _ =>
    .of_record ["name", "annotation", "default"] (by simp) fun j r hr hc => by
    rw [Param.ofJson?, hr]
    simp only [hc.required "name" (by simp) (Json.reads_string name),
      hc.optional "annotation" declared (by simp) Ty.ofJson?_null fun t _ => Ty.reads t,
      hc.optional (g := Expr.toJson) "default" none (by simp [Json.option])
        (Expr.ofJson?_null s) (by simp),
      Option.bind_eq_bind, Option.bind_some, Option.pure_def]
  | ⟨name, declared, some d⟩, h =>
    .of_record ["name", "annotation", "default"] (by simp) fun j r hr hc => by
    have hd := Expr.reads d h
    rw [Param.ofJson?, hr]
    simp only [hc.required "name" (by simp) (Json.reads_string name),
      hc.optional "annotation" declared (by simp) Ty.ofJson?_null fun t _ => Ty.reads t,
      hc.optional (g := Expr.toJson) "default" (some d) (by simp [Json.option])
        (Expr.ofJson?_null s) (by simpa using hd),
      Option.bind_eq_bind, Option.bind_some, Option.pure_def]

theorem Param.reads_all : ∀ ps : List Param, (∀ x ∈ Param.allFloats ps, x.isFinite = true) →
    Reads (Json.listOf? (Param.ofJson? s)) (.arr (Param.allToJson ps)) ps
  | [], _ => Json.reads_nil
  | p :: ps, h =>
    have ⟨hp, hps⟩ := List.forall_mem_append.mp h
    (Param.reads p hp).cons (Param.reads_all ps hps)

theorem Target.reads : ∀ t : Target, (∀ x ∈ t.floats, x.isFinite = true) →
    Reads (Target.ofJson? s) t.toJson t
  | .name n, _ => .of_variant fun j x hv hx => by
    rw [Target.ofJson?, hv]
    simp only [Json.reads_string n _ hx, Option.map_some]
  | .tuple ts, h => .of_variant fun j x hv hx => by
    rw [Target.ofJson?, hv]
    simp only [Json.Within.list?_val, Target.reads_all ts h _ hx, Option.map_some]
  | .attribute e a, h => .of_struct s ["value", "attr"] (by simp) fun j x f hv hf hc => by
    rw [Target.ofJson?, hv]
    simp only [hf, hc.required "value" (by simp) (Expr.reads e h),
      hc.required "attr" (by simp) (Json.reads_string a),
      Option.bind_eq_bind, Option.bind_some, Option.pure_def]
  | .subscript e i, h => .of_struct s ["value", "index"] (by simp) fun j x f hv hf hc => by
    obtain ⟨he, hi⟩ := List.forall_mem_append.mp h
    rw [Target.ofJson?, hv]
    simp only [hf, hc.required "value" (by simp) (Expr.reads e he),
      hc.required "index" (by simp) (Expr.reads i hi),
      Option.bind_eq_bind, Option.bind_some, Option.pure_def]
  | .starred t, h => .of_variant fun j x hv hx => by
    rw [Target.ofJson?, hv]
    simp only [Target.reads t h _ hx, Option.map_some]

theorem Target.reads_all : ∀ ts : List Target, (∀ x ∈ Target.allFloats ts, x.isFinite = true) →
    Reads (Json.listOf? (Target.ofJson? s)) (.arr (Target.allToJson ts)) ts
  | [], _ => Json.reads_nil
  | t :: ts, h =>
    have ⟨ht, hts⟩ := List.forall_mem_append.mp h
    (Target.reads t ht).cons (Target.reads_all ts hts)

theorem Generator.reads_all : ∀ gs : List Generator,
    (∀ x ∈ Generator.allFloats gs, x.isFinite = true) →
    Reads (Json.listOf? (Generator.ofJson? s)) (.arr (Generator.allToJson gs)) gs
  | [], _ => Json.reads_nil
  | ⟨target, iter, ifs⟩ :: gs, h => by
    obtain ⟨htarget, hrest⟩ := List.forall_mem_append.mp h
    obtain ⟨hiter, hrest⟩ := List.forall_mem_append.mp hrest
    obtain ⟨hifs, hgs⟩ := List.forall_mem_append.mp hrest
    refine .cons (.of_record ["target", "iter", "ifs"] (by simp) fun j r hr hc => ?_)
      (Generator.reads_all gs hgs)
    rw [Generator.ofJson?, hr]
    simp only [Json.Within.list?_val, hc.required "target" (by simp) (Target.reads target htarget),
      hc.required "iter" (by simp) (Expr.reads iter hiter),
      hc.orDefault "ifs" (by simp) (Expr.reads_all ifs hifs),
      Option.bind_eq_bind, Option.bind_some, Option.pure_def]

theorem FormatPart.reads_all : ∀ ps : List FormatPart,
    (∀ x ∈ FormatPart.allFloats ps, x.isFinite = true) →
    Reads (Json.listOf? (FormatPart.ofJson? s)) (.arr (FormatPart.allToJson ps)) ps
  | [], _ => Json.reads_nil
  | .literal t :: ps, h => by
    refine .cons (.of_variant fun j x hv hx => ?_) (FormatPart.reads_all ps h)
    rw [FormatPart.ofJson?, hv]
    simp only [Json.reads_string t _ hx, Option.map_some]
  | .interpolation e :: ps, h => by
    obtain ⟨he, hps⟩ := List.forall_mem_append.mp h
    refine .cons (.of_variant fun j x hv hx => ?_) (FormatPart.reads_all ps hps)
    rw [FormatPart.ofJson?, hv]
    simp only [Expr.reads e he _ hx, Option.map_some]

end

/-! ## Statements -/

section Parts

variable {α : Type} {floats : α → List Float} {f : Json → Option α} {g : α → Json}

/-- Parts that stand side by side, each read back. -/
theorem reads_parts {as : List α} (h : ∀ x ∈ as.flatMap floats, x.isFinite = true)
    (hreads : ∀ a, (∀ x ∈ floats a, x.isFinite = true) → Reads f (g a) a) :
    Reads (Json.listOf? f) (.arr (as.map g)) as :=
  Json.reads_map fun a ha => hreads a fun x hx => h x (List.mem_flatMap.mpr ⟨a, ha, hx⟩)

/-- The same for a part that may be missing. -/
theorem reads_part {o : Option α} (h : ∀ x ∈ o.toList.flatMap floats, x.isFinite = true)
    (hreads : ∀ a, (∀ x ∈ floats a, x.isFinite = true) → Reads f (g a) a) (a : α)
    (ha : o = some a) : Reads f (g a) a :=
  hreads a fun x hx => h x (List.mem_flatMap.mpr ⟨a, Option.mem_toList.mpr ha, hx⟩)

end Parts

theorem Span.reads (p : Span) : Reads Span.ofJson? p.toJson p :=
  .of_record ["line", "column"] (by simp) fun j r hr hc => by
    rw [Span.ofJson?, hr]
    simp only [hc.required "line" (by simp) (Json.reads_uint32 p.line),
      hc.required "column" (by simp) (Json.reads_uint32 p.column),
      Option.bind_eq_bind, Option.bind_some, Option.pure_def]

theorem WithItem.reads (w : WithItem) (h : ∀ x ∈ w.floats, x.isFinite = true) :
    Reads (WithItem.ofJson? s) w.toJson w :=
  .of_record ["context", "target"] (by simp) fun j r hr hc => by
    obtain ⟨hcontext, htarget⟩ := List.forall_mem_append.mp h
    rw [WithItem.ofJson?, hr]
    simp only [hc.required "context" (by simp) (Expr.reads s w.context hcontext),
      hc.optional "target" w.target (by simp) (Target.ofJson?_null s)
        (reads_part htarget (Target.reads s)),
      Option.bind_eq_bind, Option.bind_some, Option.pure_def]

mutual

/-- A statement with finite constants is read back. -/
theorem Stmt.reads : ∀ t : Stmt, (∀ x ∈ t.floats, x.isFinite = true) →
    Reads (Stmt.ofJson? s) t.toJson t
  | .assign t v a, h =>
    .of_struct s ["target", "value", "annotation"] (by simp) fun j x f hv hf hc => by
    obtain ⟨ht, hvalue⟩ := List.forall_mem_append.mp h
    rw [Stmt.ofJson?, hv]
    simp only [hf, hc.required "target" (by simp) (Target.reads s t ht),
      hc.required "value" (by simp) (Expr.reads s v hvalue),
      hc.optional "annotation" a (by simp) Ty.ofJson?_null fun t _ => Ty.reads t,
      Option.bind_eq_bind, Option.bind_some, Option.pure_def]
  | .augAssign t op v, h =>
    .of_struct s ["target", "op", "value"] (by simp) fun j x f hv hf hc => by
    obtain ⟨ht, hvalue⟩ := List.forall_mem_append.mp h
    rw [Stmt.ofJson?, hv]
    simp only [hf, hc.required "target" (by simp) (Target.reads s t ht),
      hc.required "op" (by simp) (BinOp.reads op),
      hc.required "value" (by simp) (Expr.reads s v hvalue),
      Option.bind_eq_bind, Option.bind_some, Option.pure_def]
  | .expr e, h => .of_variant fun j x hv hx => by
    rw [Stmt.ofJson?, hv]
    simp only [Expr.reads s e h _ hx, Option.map_some]
  | .ret v, h => .of_variant fun j x hv hx => by
    have hread := Json.Within.option?_of_reordered hx (Expr.ofJson?_null s)
      (reads_part h (Expr.reads s))
    rw [Stmt.ofJson?, hv]
    simp only [hread, Option.map_some]
  | .ifElse t b e, h =>
    .of_struct s ["test", "body", "orelse"] (by simp) fun j x f hv hf hc => by
    obtain ⟨ht, hrest⟩ := List.forall_mem_append.mp h
    obtain ⟨hb, he⟩ := List.forall_mem_append.mp hrest
    rw [Stmt.ofJson?, hv]
    simp only [hf, Json.Within.list?_val, hc.required "test" (by simp) (Expr.reads s t ht),
      hc.required "body" (by simp) (Stmt.reads_all b hb),
      hc.orDefault "orelse" (by simp) (Stmt.reads_all e he),
      Option.bind_eq_bind, Option.bind_some, Option.pure_def]
  | .whileLoop t b, h => .of_struct s ["test", "body"] (by simp) fun j x f hv hf hc => by
    obtain ⟨ht, hb⟩ := List.forall_mem_append.mp h
    rw [Stmt.ofJson?, hv]
    simp only [hf, Json.Within.list?_val, hc.required "test" (by simp) (Expr.reads s t ht),
      hc.required "body" (by simp) (Stmt.reads_all b hb),
      Option.bind_eq_bind, Option.bind_some, Option.pure_def]
  | .forLoop t i b, h =>
    .of_struct s ["target", "iter", "body"] (by simp) fun j x f hv hf hc => by
    obtain ⟨ht, hrest⟩ := List.forall_mem_append.mp h
    obtain ⟨hi, hb⟩ := List.forall_mem_append.mp hrest
    rw [Stmt.ofJson?, hv]
    simp only [hf, Json.Within.list?_val, hc.required "target" (by simp) (Target.reads s t ht),
      hc.required "iter" (by simp) (Expr.reads s i hi),
      hc.required "body" (by simp) (Stmt.reads_all b hb),
      Option.bind_eq_bind, Option.bind_some, Option.pure_def]
  | .breakLoop, _ | .continueLoop, _ | .pass, _ => by
    rintro _ ⟨⟩
    rw [Stmt.ofJson?]
    rfl
  | .raise v, h => .of_variant fun j x hv hx => by
    have hread := Json.Within.option?_of_reordered hx (Expr.ofJson?_null s)
      (reads_part h (Expr.reads s))
    rw [Stmt.ofJson?, hv]
    simp only [hread, Option.map_some]
  | .assert t m, h => .of_struct s ["test", "msg"] (by simp) fun j x f hv hf hc => by
    obtain ⟨ht, hm⟩ := List.forall_mem_append.mp h
    rw [Stmt.ofJson?, hv]
    simp only [hf, hc.required "test" (by simp) (Expr.reads s t ht),
      hc.optional "msg" m (by simp) (Expr.ofJson?_null s) (reads_part hm (Expr.reads s)),
      Option.bind_eq_bind, Option.bind_some, Option.pure_def]
  | .tryExcept b hs e f, h =>
    .of_struct s ["body", "handlers", "orelse", "finalbody"] (by simp) fun j x r hv hf hc => by
    obtain ⟨hb, hrest⟩ := List.forall_mem_append.mp h
    obtain ⟨hhs, hrest⟩ := List.forall_mem_append.mp hrest
    obtain ⟨he, hfinal⟩ := List.forall_mem_append.mp hrest
    rw [Stmt.ofJson?, hv]
    simp only [hf, Json.Within.list?_val, hc.required "body" (by simp) (Stmt.reads_all b hb),
      hc.orDefault "handlers" (by simp) (Handler.reads_all hs hhs),
      hc.orDefault "orelse" (by simp) (Stmt.reads_all e he),
      hc.orDefault "finalbody" (by simp) (Stmt.reads_all f hfinal),
      Option.bind_eq_bind, Option.bind_some, Option.pure_def]
  | .withItems items b, h => .of_struct s ["items", "body"] (by simp) fun j x f hv hf hc => by
    obtain ⟨hitems, hb⟩ := List.forall_mem_append.mp h
    rw [Stmt.ofJson?, hv]
    simp only [hf, Json.Within.list?_val,
      hc.required "items" (by simp) (reads_parts hitems (WithItem.reads s)),
      hc.required "body" (by simp) (Stmt.reads_all b hb),
      Option.bind_eq_bind, Option.bind_some, Option.pure_def]
  | .functionDef f, h => .of_variant fun j x hv hx => by
    rw [Stmt.ofJson?, hv]
    simp only [Function.reads f h _ hx, Option.map_some]
  | .nonlocal names, _ => .of_variant fun j x hv hx => by
    rw [Stmt.ofJson?, hv]
    simp only [Json.reads_strings names _ hx, Option.map_some]
  | .global names, _ => .of_variant fun j x hv hx => by
    rw [Stmt.ofJson?, hv]
    simp only [Json.reads_strings names _ hx, Option.map_some]
  | .delete ts, h => .of_variant fun j x hv hx => by
    rw [Stmt.ofJson?, hv]
    simp only [reads_parts h (Target.reads s) _ hx, Option.map_some]

theorem Stmt.reads_all : ∀ ts : List Stmt, (∀ x ∈ Stmt.allFloats ts, x.isFinite = true) →
    Reads (Json.listOf? (Stmt.ofJson? s)) (.arr (Stmt.allToJson ts)) ts
  | [], _ => Json.reads_nil
  | t :: ts, h =>
    have ⟨ht, hts⟩ := List.forall_mem_append.mp h
    (Stmt.reads t ht).cons (Stmt.reads_all ts hts)

theorem Handler.reads_all : ∀ hs : List Handler, (∀ x ∈ Handler.allFloats hs, x.isFinite = true) →
    Reads (Json.listOf? (Handler.ofJson? s)) (.arr (Handler.allToJson hs)) hs
  | [], _ => Json.reads_nil
  | ⟨kind, name, body⟩ :: hs, h => by
    obtain ⟨hkind, hrest⟩ := List.forall_mem_append.mp h
    obtain ⟨hbody, hhs⟩ := List.forall_mem_append.mp hrest
    refine .cons (.of_record ["kind", "name", "body"] (by simp) fun j r hr hc => ?_)
      (Handler.reads_all hs hhs)
    rw [Handler.ofJson?, hr]
    simp only [Json.Within.list?_val,
      hc.optional "kind" kind (by simp) (Expr.ofJson?_null s) (reads_part hkind (Expr.reads s)),
      hc.optional "name" name (by simp) rfl fun n _ => Json.reads_string n,
      hc.required "body" (by simp) (Stmt.reads_all body hbody),
      Option.bind_eq_bind, Option.bind_some, Option.pure_def]

theorem Function.reads : ∀ f : Function, (∀ x ∈ f.floats, x.isFinite = true) →
    Reads (Function.ofJson? s) f.toJson f
  | ⟨name, params, vararg, kwarg, declaredResult, body, decorators, span⟩, h =>
    .of_record ["name", "params", "vararg", "kwarg", "return_annotation", "body", "decorators",
      "span"] (by simp) fun j r hr hc => by
    obtain ⟨hparams, hrest⟩ := List.forall_mem_append.mp h
    obtain ⟨hvararg, hrest⟩ := List.forall_mem_append.mp hrest
    obtain ⟨hkwarg, hrest⟩ := List.forall_mem_append.mp hrest
    obtain ⟨hbody, hdecorators⟩ := List.forall_mem_append.mp hrest
    rw [Function.ofJson?, hr]
    simp only [Json.Within.list?_val, hc.required "name" (by simp) (Json.reads_string name),
      hc.orDefault "params" (by simp) (reads_parts hparams (Param.reads s)),
      hc.optional "vararg" vararg (by simp) (Param.ofJson?_null s)
        (reads_part hvararg (Param.reads s)),
      hc.optional "kwarg" kwarg (by simp) (Param.ofJson?_null s)
        (reads_part hkwarg (Param.reads s)),
      hc.optional "return_annotation" declaredResult (by simp) Ty.ofJson?_null
        fun t _ => Ty.reads t,
      hc.orDefault "body" (by simp) (Stmt.reads_all body hbody),
      hc.orDefault "decorators" (by simp) (reads_parts hdecorators (Expr.reads s)),
      hc.orDefault "span" (by simp) (Span.reads span),
      Option.bind_eq_bind, Option.bind_some, Option.pure_def]

end

/-! ## Programs -/

theorem GlobalVar.reads (g : GlobalVar) : Reads GlobalVar.ofJson? g.toJson g :=
  .of_record ["name", "ty"] (by simp) fun j r hr hc => by
    rw [GlobalVar.ofJson?, hr]
    simp only [hc.required "name" (by simp) (Json.reads_string g.name),
      hc.required "ty" (by simp) (Ty.reads g.ty),
      Option.bind_eq_bind, Option.bind_some, Option.pure_def]

theorem Module.reads (m : Module) (h : ∀ x ∈ m.floats, x.isFinite = true) :
    Reads (Module.ofJson? s) m.toJson m :=
  .of_record ["name", "globals", "functions"] (by simp) fun j r hr hc => by
    have hglobals : Reads (Json.listOf? GlobalVar.ofJson?) (.arr (m.globals.map GlobalVar.toJson))
        m.globals := Json.reads_map fun g _ => GlobalVar.reads g
    rw [Module.ofJson?, hr]
    simp only [hc.required "name" (by simp) (Json.reads_string m.name),
      hc.orDefault "globals" (by simp) hglobals,
      hc.orDefault "functions" (by simp) (reads_parts h (Function.reads s)),
      Option.bind_eq_bind, Option.bind_some, Option.pure_def]

/-! ## Missing parts -/

theorem Ty.apart_null (t : Ty) : t.toJson.Apart .null :=
  Json.apart_null (by cases t <;> rfl)

theorem Expr.apart_null (e : Expr) : e.toJson.Apart .null :=
  Json.apart_null (by cases e <;> rfl)

/-- A part that is there, whatever it is, is told from one that is missing. -/
structure MissingPartsShow : Prop where
  annotation : ∀ (p p' : Param) (t : Ty), p.declared = some t → p'.declared = none →
    p.toJson.Apart p'.toJson
  result : ∀ (f f' : Function) (t : Ty), f.declaredResult = some t → f'.declaredResult = none →
    f.toJson.Apart f'.toJson
  assigned : ∀ (x x' : Target) (v v' : Expr) (t : Ty),
    (Stmt.assign x v (some t)).toJson.Apart (Stmt.assign x' v' none).toJson
  returned : ∀ e : Expr, (Stmt.ret (some e)).toJson.Apart (Stmt.ret none).toJson
  caught : ∀ (h h' : Handler) (e : Expr), h.kind = some e → h'.kind = none →
    (Json.arr (Handler.allToJson [h])).Apart (.arr (Handler.allToJson [h']))

theorem missingPartsShow : MissingPartsShow where
  annotation := by
    rintro ⟨n, _, d⟩ ⟨n', _, d'⟩ t rfl rfl
    cases d <;> cases d' <;>
      exact Json.apart_of_field (by simp) (by simp) "annotation" (by simp [Json.option])
        (by simp [Json.option]) t.apart_null
  result := by
    rintro ⟨⟩ ⟨⟩ t rfl rfl
    exact Json.apart_of_field (by simp) (by simp) "return_annotation" (by simp [Json.option])
      (by simp [Json.option]) t.apart_null
  assigned x x' v v' t :=
    Json.Apart.variant (Json.apart_of_field (by simp) (by simp) "annotation" (by simp [Json.option])
      (by simp [Json.option]) t.apart_null) "Assign"
  returned e := e.apart_null.variant "Return"
  caught := by
    rintro ⟨_, n, b⟩ ⟨_, n', b'⟩ e rfl rfl
    exact Json.Apart.singleton (Json.apart_of_field (by simp) (by simp) "kind"
      (by simp [Json.option]) (by simp [Json.option]) e.apart_null)

/-- **Programs are read back.** A program whose float constants are finite is read back by every
reader from its written form, with the fields in any order. So no two such programs share a written
form; whether a part is missing shows in it even where a constant is not finite. -/
theorem module_read_back (m : Module) (hfinite : ∀ x ∈ m.floats, x.isFinite = true) :
    (∀ s j, m.toJson.Reordered j → Module.ofJson? s j = some m) ∧
      (∀ m' : Module, (∀ x ∈ m'.floats, x.isFinite = true) → m' ≠ m → m'.toJson.Apart m.toJson) ∧
      MissingPartsShow := by
  refine ⟨fun s => Module.reads s m hfinite, fun m' hfinite' hne j hj' hj => ?_, missingPartsShow⟩
  have hread := Module.reads .strict m hfinite j hj
  have hread' := Module.reads .strict m' hfinite' j hj'
  exact hne (Option.some.inj (hread'.symm.trans hread))

/-- A function with a formal declared as `None` that returns nothing, or 1.5 from a bare handler. -/
def halfPastOne : Module :=
  { name := "m"
    functions := [
      { name := "f"
        params := [{ name := "p", declared := some .none }]
        body := [
          .tryExcept [.ret none] [{ body := [.ret (some (.constant (.float 1.5)))] }] [] []] }] }

/-- It is read back with the fields of the program in reverse. -/
theorem module_read_back_halfPastOne :
    halfPastOne.floats = [1.5] ∧ (∀ x ∈ halfPastOne.floats, x.isFinite = true) ∧
      Module.ofJson? .strict (.obj [("functions", .arr (halfPastOne.functions.map Function.toJson)),
        ("globals", .arr []), ("name", .str "m")]) = some halfPastOne :=
  have hfinite : ∀ x ∈ halfPastOne.floats, x.isFinite = true := by decide +kernel
  ⟨rfl, hfinite, (module_read_back halfPastOne hfinite).1 .strict _
    (.obj (Json.FieldsReordered.refl _) (List.reverse_perm _).symm)⟩

end ClosureConversion
