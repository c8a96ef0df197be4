import ClosureConversion.Json.Record

/-! # Options -/

set_option autoImplicit false

namespace ClosureConversion

/-- What a signature says when the result type cannot be inferred. -/
inductive UnknownReturn where
  | unknown
  | placeholder
  deriving Repr, DecidableEq

namespace UnknownReturn

def text : UnknownReturn → String
  | .unknown => "unknown"
  | .placeholder => "placeholder"

def ofText? (s : String) : Option UnknownReturn :=
  [unknown, placeholder].find? (·.text == s)

end UnknownReturn

structure Options where
  unknownReturn : UnknownReturn := .unknown
  placeholderType : String := "i64"
  /-- Whether every heap allocation may fail. -/
  allocationFails : Bool := true
  implSuffix : String := "__impl"
  envSuffix : String := "__Env"
  wrapperSuffix : String := "__Closure"
  /-- The allocator that generated code sees. -/
  allocator : String := "allocator"
  deriving Repr, DecidableEq, Inhabited

namespace Options

/-- Spelling of a result type that could not be inferred. -/
def unknownReturnType (o : Options) : String :=
  match o.unknownReturn with
  | .unknown => "runtime.Unknown"
  | .placeholder => o.placeholderType

def toJson (o : Options) : Json :=
  .obj [("unknown_return", .str o.unknownReturn.text), ("placeholder_type", .str o.placeholderType),
    ("allocation_is_fallible", .bool o.allocationFails), ("impl_suffix", .str o.implSuffix),
    ("env_suffix", .str o.envSuffix), ("wrapper_suffix", .str o.wrapperSuffix),
    ("allocator", .str o.allocator)]

/-- Options that are left out keep their defaults. -/
def ofJson? (j : Json) : Option Options := do
  let r ← j.record? ["unknown_return", "placeholder_type", "allocation_is_fallible",
    "impl_suffix", "env_suffix", "wrapper_suffix", "allocator"]
  let d : Options := {}
  return { unknownReturn := ← r.orDefault "unknown_return" d.unknownReturn fun x =>
             x.val.enum?.bind UnknownReturn.ofText?
           placeholderType := ← r.orDefault "placeholder_type" d.placeholderType (·.val.string?)
           allocationFails := ← r.orDefault "allocation_is_fallible" d.allocationFails (·.val.bool?)
           implSuffix := ← r.orDefault "impl_suffix" d.implSuffix (·.val.string?)
           envSuffix := ← r.orDefault "env_suffix" d.envSuffix (·.val.string?)
           wrapperSuffix := ← r.orDefault "wrapper_suffix" d.wrapperSuffix (·.val.string?)
           allocator := ← r.orDefault "allocator" d.allocator (·.val.string?) }

end Options

end ClosureConversion
