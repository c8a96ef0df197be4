import ClosureConversion.Emit.Stmt

/-! # Converting a module -/

set_option autoImplicit false

namespace ClosureConversion

/-- Lines that every converted module starts with. -/
def moduleHeader : String :=
  "const std = @import(\"std\");\nconst runtime = @import(\"runtime\");\n"

structure ConvertedFunction where
  name : String
  /-- Declarations of the closures made from the function. -/
  declarations : String
  code : String
  returnType : Ty
  fallible : Bool
  closures : List ClosureSummary
  deriving DecidableEq

structure Converted where
  module : String
  /-- Functions that could be converted, in the order of the source. -/
  functions : List ConvertedFunction
  report : Report

namespace Converted

def function? (c : Converted) (name : String) : Option ConvertedFunction :=
  c.functions.find? (·.name == name)

def closures (c : Converted) : List ClosureSummary := c.functions.flatMap (·.closures)

/-- The whole module as target source. -/
def render (c : Converted) : String :=
  moduleHeader ++ String.join (c.functions.map fun f => "\n" ++ f.declarations ++ f.code)

end Converted

/-! ## One function -/

namespace Emit

/-- Convert a function in the frame that was opened for it. The result type is what the
program declares, else what the signature knows, else what the body returns. -/
def topLevelFrame (f : Function) (signature : Option Signature) (types : List Ty) :
    Emit ConvertedFunction := do
  let usage := Usage.ofFunction f
  tell [.analyzed f.name f.formals f.body]
  let formals ← declareFormals f types usage
  let effectsFail := mayFail f.body (← scope) (← oracle) (← options)
  let written ← functionBody f f.name formals usage (stmts f.body)
  let fallible := written.failed || effectsFail
  let known := (f.declaredResult.or (signature.map Signature.result)).filter (!·.isUnknown)
  let returnType := known.or written.returnType
  let result ← returnText returnType fallible f.name f
  let params := Code.commas (written.formals.map Formal.bodyParam)
  let code := Buffer.nested {} s!"pub fn {f.name}({params}) {result} \x7b" "\x7d"
    (·.block written.text)
  return { name := f.name, declarations := "", code := code.text,
           returnType := returnType.getD .none, fallible, closures := [] }

def topLevel (f : Function) (signature : Option Signature) : Emit ConvertedFunction := do
  let types ← formalTypes f f.name
  inFrame (.function f.name f.formals) (topLevelFrame f signature types)

end Emit

/-! ## Passes -/

abbrev Signatures := NameMap Signature

/-- What is known of a function before the first pass. -/
def Emit.initialSignature (f : Function) : Emit (String × Signature) := do
  let params ← formalTypes f f.name
  let o ← oracle
  let result := (f.declaredResult.or (o.returnType f.name)).getD .unknown
  return (f.name, { params, result, fallible := o.isFallible f.name })

/-- The signatures before the first pass. What is unknown about parameters is reported when
the functions themselves are converted. -/
def initialSignatures (m : Module) (w : Settings) (journal : Journal) : Signatures × Journal :=
  match Emit.sequence (m.functions.map Emit.initialSignature) w { scope := {}, journal } with
  | (.ok sigs, c) => (NameMap.ofList sigs, c.journal)
  | (.error _, c) => (.empty, c.journal)

/-- Adopt what a pass learned of one function: a signature may become fallible, and an unknown
result may become known. -/
def refineSignature (s : Signature) (f : ConvertedFunction) : Signature :=
  { s with
    fallible := s.fallible || f.fallible
    result := if s.result.isUnknown then f.returnType else s.result }

def refineSignatures (sigs : Signatures) (functions : List ConvertedFunction) : Signatures :=
  functions.foldl (fun sigs f => sigs.modify f.name (refineSignature · f)) sigs

structure Pass where
  functions : List ConvertedFunction := []
  report : Report := []
  /-- Identifiers at container level that functions before this point claimed. -/
  claimed : List String := []
  journal : Journal := []
  /-- What was observed in all bodies up to here, the latest first. -/
  trace : List Observation := []

/-- The scope in which the next function of a module is converted. -/
def moduleScope (m : Module) (sigs : Signatures) (claimed : List String) : Scope :=
  let s := m.globals.foldl (fun s g => s.declareGlobal g.name g.ty) {}
  let s := sigs.entries.foldl (fun s e => s.declareGlobal e.1 (.function e.2)) s
  claimed.foldl Scope.reserveModuleIdent s

/-- Convert the next function. One that fails leaves nothing but its report. -/
def Pass.step (m : Module) (sigs : Signatures) (w : Settings) (p : Pass) (f : Function) : Pass :=
  let start : Context :=
    { scope := moduleScope m sigs p.claimed, journal := p.journal, trace := p.trace }
  match Emit.topLevel f (sigs.get? f.name) w start with
  | (.ok g, c) =>
    { functions := p.functions ++
        [{ g with declarations := c.declarations, closures := c.closures }]
      report := p.report ++ c.report
      claimed := c.scope.moduleIdents
      journal := c.journal
      trace := c.trace }
  | (.error e, c) =>
    { p with report := p.report ++ c.report ++ [e.diagnostic]
             journal := .skipped f.name e :: c.journal
             trace := c.trace }

def convertPass (m : Module) (sigs : Signatures) (w : Settings) (journal : Journal) : Pass :=
  m.functions.foldl (Pass.step m sigs w) { journal }

/-- Repeat passes until the signatures settle, for at most `remaining` more after this one. -/
def convertRounds (m : Module) (w : Settings) (sigs : Signatures) (round : Nat)
    (journal : Journal) : Nat → Converted × Journal
  | 0 =>
    let p := convertPass m sigs w journal
    let settled := refineSignatures sigs p.functions = sigs
    finish p (if settled then p.journal else .unsettled m.name round :: p.journal)
  | remaining + 1 =>
    let p := convertPass m sigs w journal
    let refined := refineSignatures sigs p.functions
    if refined = sigs then finish p p.journal
    else convertRounds m w refined (round + 1) (.roundChanged round :: p.journal) remaining
where
  finish (p : Pass) (journal : Journal) : Converted × Journal :=
    ({ module := m.name, functions := p.functions, report := p.report },
      .converted p.functions.length m.functions.length m.name round :: journal)

/-- Convert every function of a module, with the journal of the work. A function that cannot be
converted is reported and left out. -/
def convertWithJournal (m : Module) (w : Settings) (journal : Journal := []) :
    Converted × Journal :=
  let (sigs, journal) := initialSignatures m w journal
  convertRounds m w sigs 1 journal (m.functions.length + 1)

def convert (m : Module) (oracle : Oracle) (options : Options) : Converted :=
  (convertWithJournal m { oracle, options }).1

/-! ## A single nested function -/

structure SynthesizedClosure where
  /-- Declarations at container level, those of closures nested inside included. -/
  declarations : String
  /-- Statements that bind the instance where the function stood. -/
  instanceCode : String
  closure : BuiltClosure
  report : Report

namespace SynthesizedClosure

def code (s : SynthesizedClosure) : String := s.declarations ++ s.instanceCode

end SynthesizedClosure

/-- Make a closure where nothing is known of the function around it but its frames. -/
def synthesizeIn (f : Function) (s : Scope) (w : Settings) :
    Except ConvertError (BuiltClosure × Buffer) × Context :=
  Emit.synthesize f (Emit.stmts f.body) (f.decorators.map Emit.renderExpr) false {} w
    { scope := s, current := { qualname := s.currentFunction?.getD "" } }

/-- Make a closure of a function defined in the innermost function of a scope, with the scope
after it. -/
def synthesizeClosure (f : Function) (s : Scope) (w : Settings) :
    Except ConvertError SynthesizedClosure × Scope :=
  match synthesizeIn f s w with
  | (.ok (closure, out), c) =>
    (.ok { declarations := c.declarations, instanceCode := out.text, closure, report := c.report },
      c.scope)
  | (.error e, c) => (.error e, c.scope)

end ClosureConversion
