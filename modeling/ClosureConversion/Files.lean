/-! # Work on files -/

set_option autoImplicit false

namespace ClosureConversion

inductive FileError where
  | notFound
  | alreadyExists
  | notDirectory
  | isDirectory
  | nameTooLong
  | other (text : String)
  deriving Repr, DecidableEq

def FileError.message : FileError → String
  | .notFound => "No such file or directory (os error 2)"
  | .alreadyExists => "File exists (os error 17)"
  | .notDirectory => "Not a directory (os error 20)"
  | .isDirectory => "Is a directory (os error 21)"
  | .nameTooLong => "File name too long (os error 36)"
  | .other text => text

inductive Script (α : Type) where
  | done (result : α)
  | read (path : String) (next : Except FileError String → Script α)
  | write (path text : String) (next : Except FileError Unit → Script α)
  /-- Ask whether there is anything at a path. -/
  | probe (path : String) (next : Bool → Script α)
  /-- Ask whether there is a folder at a path. -/
  | probeFolder (path : String) (next : Bool → Script α)
  /-- Create a folder in one that is there. -/
  | makeFolder (path : String) (next : Except FileError Unit → Script α)

namespace Script

variable {α β : Type}

def bind (s : Script α) (f : α → Script β) : Script β :=
  match s with
  | .done a => f a
  | .read path next => .read path fun r => (next r).bind f
  | .write path text next => .write path text fun r => (next r).bind f
  | .probe path next => .probe path fun r => (next r).bind f
  | .probeFolder path next => .probeFolder path fun r => (next r).bind f
  | .makeFolder path next => .makeFolder path fun r => (next r).bind f

instance : Monad Script where
  pure := .done
  bind := bind

@[simp] theorem bind_done (a : α) (f : α → Script β) : (done a).bind f = f a := rfl

end Script

/-! ## Paths -/

namespace Path

def isAbsolute (path : String) : Bool := path.startsWith "/"

/-- The names that a path is made of. -/
def names (path : String) : List String := (path.splitOn "/").filter (· != "")

def endsInSlash (path : String) : Bool := path.endsWith "/"

/-- A dot says nothing, except that a path starts here. -/
def significant : List String → List String
  | "." :: rest => "." :: rest.filter (· != ".")
  | names => names.filter (· != ".")

/-- The ways that lead to the folders above the last name, from below. -/
def waysAbove (names : List String) : List (List String) :=
  (List.range names.length).reverse.map names.take

/-- The paths to the folders above, from below. -/
def above (path : String) : List String :=
  if isAbsolute path then
    (waysAbove ((names path).filter (· != "."))).map fun ns => "/" ++ "/".intercalate ns
  else
    (waysAbove (significant (names path))).dropLast.map ("/".intercalate ·)

end Path

namespace Script

/-- Make a folder; `above` makes the folders it needs when they are missing. -/
def makeFolderAfter (above : Script (Except FileError Unit)) (path : String) :
    Script (Except FileError Unit) := do
  let orPresent (e : FileError) : Script (Except FileError Unit) := do
    return if ← probeFolder path .done then .ok () else .error e
  match ← makeFolder path .done with
  | .ok () => return .ok ()
  | .error .notFound =>
    match ← above with
    | .error e => return .error e
    | .ok () =>
      match ← makeFolder path .done with
      | .ok () => return .ok ()
      | .error e => orPresent e
  | .error e => orPresent e

/-- Make a folder and those above it, as far as they are missing. Folders made before an error
stay. -/
def createFolder (path : String) : Script (Except FileError Unit) :=
  (path :: Path.above path).foldr (fun p above => makeFolderAfter above p) (return .ok ())

end Script

/-! ## Folders as values -/

/-- Where the way to a place starts. -/
inductive Start where
  /-- The root of the machine. -/
  | root
  /-- So many levels above the top of the folder. -/
  | above (levels : Nat)
  deriving Repr, DecidableEq

/-- A starting point and the names on the way down from it. -/
structure Place where
  start : Start := .above 0
  names : List String := []
  deriving Repr, DecidableEq

namespace Place

def child (p : Place) (name : String) : Place := { p with names := p.names ++ [name] }

/-- The root is its own parent. -/
def parent (p : Place) : Place :=
  if p.names.isEmpty then
    match p.start with
    | .root => p
    | .above n => { start := .above (n + 1) }
  else { p with names := p.names.dropLast }

/-- What is written here is lost, and nothing is ever read. -/
def sink : Place := { start := .root, names := ["dev", "null"] }

end Place

/-- Folders that every machine has at its root. -/
def machineFolders : List String :=
  ["bin", "dev", "etc", "home", "lib", "opt", "proc", "root", "run", "sbin", "sys", "tmp", "usr",
    "var"]

/-- A folder with all that is below it, on a machine that holds little else. Starting points
are always there. -/
structure Directory where
  files : List (Place × String) := [(Place.sink, "")]
  folders : List Place := machineFolders.map fun name => { start := .root, names := [name] }

namespace Directory

def content? (d : Directory) (p : Place) : Option String :=
  (d.files.find? (·.1 == p)).map Prod.snd

def isFolder (d : Directory) (p : Place) : Bool := p.names.isEmpty || d.folders.contains p

def hasFile (d : Directory) (p : Place) : Bool := (d.content? p).isSome

def put (d : Directory) (p : Place) (text : String) : Directory :=
  if p = Place.sink then d
  else if d.hasFile p then
    { d with files := d.files.map fun f => if f.1 == p then (p, text) else f }
  else { d with files := d.files ++ [(p, text)] }

/-- The place of a name in a folder. Names have at most 255 bytes. -/
def child (p : Place) (name : String) : Except FileError Place :=
  if 255 < name.utf8ByteSize then .error .nameTooLong else .ok (p.child name)

/-- Go into the folder that has this name. -/
def enter (d : Directory) (p : Place) (name : String) : Except FileError Place :=
  if name = "." then .ok p
  else if name = ".." then .ok p.parent
  else do
    let q ← child p name
    if d.isFolder q then .ok q
    else if d.hasFile q then .error .notDirectory
    else .error .notFound

/-- The folder in which a path ends, with the last name there unless the path ends in that
folder itself. Paths have at most 4095 bytes. -/
def approach (d : Directory) (path : String) : Except FileError (Place × Option String) :=
  if path.isEmpty then .error .notFound
  else if 4095 < path.utf8ByteSize then .error .nameTooLong
  else do
    let start : Place := { start := if Path.isAbsolute path then .root else .above 0 }
    let names := Path.names path
    let folder ← names.dropLast.foldlM d.enter start
    match names.getLast? with
    | none => return (folder, none)
    | some "." => return (folder, none)
    | some ".." => return (folder.parent, none)
    | some name => return (folder, some name)

def read (d : Directory) (path : String) : Except FileError String := do
  match ← d.approach path with
  | (_, none) => .error .isDirectory
  | (folder, some name) =>
    let p ← child folder name
    if d.isFolder p then .error .isDirectory
    else
      match d.content? p with
      | some text => if Path.endsInSlash path then .error .notDirectory else .ok text
      | none => .error .notFound

def write (d : Directory) (path text : String) : Except FileError Directory := do
  match ← d.approach path with
  | (_, none) => .error .isDirectory
  | (folder, some name) =>
    if Path.endsInSlash path then .error .isDirectory
    else
      let p ← child folder name
      if d.isFolder p then .error .isDirectory else .ok (d.put p text)

def makeFolder (d : Directory) (path : String) : Except FileError Directory := do
  match ← d.approach path with
  | (_, none) => .error .alreadyExists
  | (folder, some name) =>
    let p ← child folder name
    if d.isFolder p || d.hasFile p then .error .alreadyExists
    else .ok { d with folders := d.folders ++ [p] }

def probeFolder (d : Directory) (path : String) : Bool := d.read path matches .error .isDirectory

def probe (d : Directory) (path : String) : Bool :=
  d.probeFolder path || (d.read path).isOk

/-- The folder that holds these files, given by their paths. -/
def ofFiles (files : List (String × String)) : Directory :=
  files.foldl (fun d f =>
    let ns := Path.significant (Path.names f.1)
    let folders := (Path.waysAbove ns).map fun ns => ({ names := ns } : Place)
    let missing := folders.filter fun p => !d.isFolder p
    { d with folders := d.folders ++ missing }.put { names := ns } f.2) {}

/-- All files below the top with their paths. -/
def toFiles (d : Directory) : List (String × String) :=
  (d.files.filter (·.1.start == .above 0)).map fun f => ("/".intercalate f.1.names, f.2)

/-- The files that `old` lacks or holds with another content. -/
def changedSince (d old : Directory) : List (String × String) :=
  d.toFiles.filter fun f => !old.toFiles.contains f

end Directory

/-- Carry a script out in a folder. -/
def Script.runIn {α : Type} (d : Directory) : Script α → α × Directory
  | .done a => (a, d)
  | .read path next => (next (d.read path)).runIn d
  | .write path text next =>
    match d.write path text with
    | .ok d => (next (.ok ())).runIn d
    | .error e => (next (.error e)).runIn d
  | .probe path next => (next (d.probe path)).runIn d
  | .probeFolder path next => (next (d.probeFolder path)).runIn d
  | .makeFolder path next =>
    match d.makeFolder path with
    | .ok d => (next (.ok ())).runIn d
    | .error e => (next (.error e)).runIn d

end ClosureConversion
