import ClosureConversion.CommandLine.Run

/-! # The program -/

set_option autoImplicit false

namespace ClosureConversion

def FileError.ofIO : IO.Error → FileError
  | .noFileOrDirectory .. => .notFound
  | .alreadyExists .. => .alreadyExists
  | .inappropriateType _ code _ => if code = 21 then .isDirectory else .notDirectory
  | .invalidArgument _ code text => if code = 36 then .nameTooLong else .other text
  | e => .other (toString e)

def attempt {α : Type} (action : IO α) : IO (Except FileError α) := do
  match ← action.toBaseIO with
  | .ok a => return .ok a
  | .error e => return .error (.ofIO e)

/-- Only a path that leads nowhere cannot be opened for want of a file. -/
def isThere (path : String) : IO Bool := do
  match ← attempt (IO.FS.readFile path) with
  | .error .notFound => return false
  | .error .notDirectory => return false
  | _ => return true

/-- Only a folder can be opened and not read. -/
def isFolder (path : String) : IO Bool := do
  match ← attempt (IO.FS.readFile path) with
  | .error .isDirectory => return true
  | _ => return false

def Script.perform {α : Type} : Script α → IO α
  | .done a => return a
  | .read path next => do (next (← attempt (IO.FS.readFile path))).perform
  | .write path text next => do (next (← attempt (IO.FS.writeFile path text))).perform
  | .probe path next => do (next (← isThere path)).perform
  | .probeFolder path next => do (next (← isFolder path)).perform
  | .makeFolder path next => do (next (← attempt (IO.FS.createDir path))).perform

end ClosureConversion

open ClosureConversion CommandLine in
def main (arguments : List String) : IO UInt32 := do
  let exit ← (Request.ofArguments arguments).carryOut.perform
  IO.print exit.stdout
  IO.eprint exit.stderr
  return exit.code.toUInt32
