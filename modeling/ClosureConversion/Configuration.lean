import ClosureConversion.Json.Printer
import ClosureConversion.Options
import ClosureConversion.Toml.Parser

/-! # Configuration -/

set_option autoImplicit false

namespace ClosureConversion

def configurationFile : String := "ferrule.toml"

/-- A choice is named by a string, or by the one key of a table that says nothing else. -/
def UnknownReturn.ofToml? : Toml → Option UnknownReturn
  | .string name => ofText? name
  | .table _ [(name, .table _ [])] => ofText? name
  | .table _ [(name, .array [])] => ofText? name
  | _ => none

def Toml.string? : Toml → Option String
  | .string s => some s
  | _ => none

def Toml.boolean? : Toml → Option Bool
  | .boolean b => some b
  | _ => none

namespace Options

/-- Options that are left out keep their defaults. -/
def ofToml? (t : Toml) : Option Options := do
  let parts ← t.parts?
  let d : Options := {}
  let read {α : Type} (i : Nat) (name : String) (default : α) (f : Toml → Option α) : Option α :=
    match parts i name with
    | some x => f x
    | none => some default
  return { unknownReturn := ← read 0 "unknown_return" d.unknownReturn UnknownReturn.ofToml?
           placeholderType := ← read 1 "placeholder_type" d.placeholderType Toml.string?
           allocationFails := ← read 2 "allocation_is_fallible" d.allocationFails Toml.boolean?
           implSuffix := ← read 3 "impl_suffix" d.implSuffix Toml.string?
           envSuffix := ← read 4 "env_suffix" d.envSuffix Toml.string?
           wrapperSuffix := ← read 5 "wrapper_suffix" d.wrapperSuffix Toml.string?
           allocator := ← read 6 "allocator" d.allocator Toml.string? }

/-- The options that a configuration file sets. -/
def ofConfiguration? (text : String) : Option Options := do
  match Toml.lookup? "closures" (← Toml.parse? text) with
  | some t => ofToml? t
  | none => some {}

/-- A configuration file that sets these options. -/
def configuration (o : Options) : String :=
  String.join (["[closures]"] ++ [
    "unknown_return = " ++ Json.quoted o.unknownReturn.text,
    "placeholder_type = " ++ Json.quoted o.placeholderType,
    "allocation_is_fallible = " ++ toString o.allocationFails,
    "impl_suffix = " ++ Json.quoted o.implSuffix,
    "env_suffix = " ++ Json.quoted o.envSuffix,
    "wrapper_suffix = " ++ Json.quoted o.wrapperSuffix,
    "allocator = " ++ Json.quoted o.allocator] |>.map (· ++ "\n"))

end Options

end ClosureConversion
