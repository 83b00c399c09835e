import Picroom.Files.Path
import Picroom.Files.Visit

/-!
# Calls to a file system

`System` has the calls a program makes, by path.  `traced` writes down every path that is handed
to the system, and `Mount.system` carries the calls out on a tree that is mounted at a root, with
no symbolic links in it.
-/

namespace Files

structure Metadata where
  isDir : Bool
  length : Nat
  modified : Nat
  deriving DecidableEq

structure System (State Data : Type) where
  canonicalize : Path → State → Except Errno Path × State
  read : Path → State → Except Errno Data × State
  metadata : Path → State → Except Errno Metadata × State
  createDirs : Path → State → Except Errno Unit × State
  write : Path → Data → State → Except Errno Unit × State
  rename : Path → Path → State → Except Errno Unit × State
  removeFile : Path → State → Except Errno Unit × State
  readDir : Path → State → Except Errno (List FileName) × State

namespace System

variable {State Data : Type}

/-- `create_dir_all`; there is nothing to do for the empty path. -/
def createDirAll (system : System State Data) (path : Path) (state : State) :
    Except Errno Unit × State :=
  if path.isEmpty then (.ok (), state) else system.createDirs path state

/-- `try_exists(..).unwrap_or(false)`. -/
def exists? (system : System State Data) (path : Path) (state : State) : Bool × State :=
  let (result, next) := system.metadata path state
  match result with
  | .ok _ => (true, next)
  | .error _ => (false, next)

section Traced

/-- Notes the paths of a call. -/
def noted {Result : Type} (paths : State → List Path)
    (call : State → Except Errno Result × State) (state : State × List Path) :
    Except Errno Result × (State × List Path) :=
  let (result, next) := call state.1
  (result, next, state.2 ++ paths state.1)

/-- The system that notes every path it is asked for.  `missing` tells whether making a directory
would answer that its own directory is not there. -/
def traced (system : System State Data) (missing : State → Path → Bool) :
    System (State × List Path) Data where
  canonicalize path := noted (fun _ => [path]) (system.canonicalize path)
  read path := noted (fun _ => [path]) (system.read path)
  metadata path := noted (fun _ => [path]) (system.metadata path)
  createDirs path := noted (fun state => path.climb (missing state)) (system.createDirs path)
  write path data := noted (fun _ => [path]) (system.write path data)
  rename source target := noted (fun _ => [source, target]) (system.rename source target)
  removeFile path := noted (fun _ => [path]) (system.removeFile path)
  readDir path := noted (fun _ => [path]) (system.readDir path)

end Traced

end System

/-- Where a tree is mounted, and what the machine adds to a call. -/
structure Mount where
  root : Path
  workingDir : List FileName
  dirLength : Nat

namespace Mount

/-- The names behind the components of the root. -/
def namesAfter : List Component → List Component → Option (List FileName)
  | [], [] => some []
  | [], .normal name :: rest => (namesAfter [] rest).map (name :: ·)
  | [], .parentDir :: _ => none
  | _ :: _, [] => none
  | first :: front, step :: rest => if first = step then namesAfter front rest else none

theorem namesAfter_append (front : List Component) (names : List FileName) :
    namesAfter front (front ++ names.map Component.normal) = some names := by
  induction front with
  | nil =>
      induction names with
      | nil => rfl
      | cons name rest inductionHypothesis =>
          rw [List.nil_append] at inductionHypothesis ⊢
          rw [List.map_cons, namesAfter, inductionHypothesis, Option.map_some]
  | cons first front inductionHypothesis =>
      rw [List.cons_append, namesAfter, if_pos rfl, inductionHypothesis]

/-- The names of a path in the mounted tree. -/
def locate (mount : Mount) (path : Path) : Option (List FileName) :=
  if path.isEmpty || path.absolute != mount.root.absolute then none
  else namesAfter mount.root.steps path.steps

variable {Data : Type}

/-- The node at a path; a file cannot be spelled as a directory. -/
def nodeAt (mount : Mount) (tree : Tree FileName Data) (path : Path) :
    Except Errno (List FileName × Node Data) :=
  match mount.locate path with
  | none => .error .noEntry
  | some names =>
      match tree.stat names with
      | .error error => .error error
      | .ok (.file data modified) =>
          if path.asDirectory then .error .notDirectory else .ok (names, .file data modified)
      | .ok (.dir modified) => .ok (names, .dir modified)

def canonical (mount : Mount) (names : List FileName) : Path :=
  ⟨true, (mount.root.normalise mount.workingDir ++ names).map FileName.toSegment⟩

/-- The outcome of a call that changes the tree when it succeeds. -/
def changed (tree : Tree FileName Data) :
    Except Errno (Tree FileName Data) → Except Errno Unit × Tree FileName Data
  | .ok next => (.ok (), next)
  | .error error => (.error error, tree)

/-- A rename within one directory; what is outside of the tree does not replace what is in it. -/
def renameAt (mount : Mount) (now : Nat) (source target : Path) (tree : Tree FileName Data) :
    Except Errno (Tree FileName Data) :=
  match mount.locate source, mount.locate target with
  | some old, some new =>
      match old.getLast?, new.getLast? with
      | some oldName, some newName =>
          if target.asDirectory then .error .notDirectory
          else if old.dropLast = new.dropLast then tree.rename new.dropLast oldName newName now
          else .error .noEntry
      | _, _ => .error .busy
  | _, _ => .error .busy

def removeAt (mount : Mount) (now : Nat) (path : Path) (tree : Tree FileName Data) :
    Except Errno (Tree FileName Data) :=
  match mount.nodeAt tree path with
  | .error error => .error error
  | .ok (names, _) =>
      match names.getLast? with
      | none => .error .isDirectory
      | some name => tree.unlink names.dropLast name now

def writeAt (mount : Mount) (now : Nat) (path : Path) (data : Data) (tree : Tree FileName Data) :
    Except Errno (Tree FileName Data) :=
  match mount.locate path with
  | none => .ok tree
  | some names =>
      match names.getLast? with
      | none => .error .isDirectory
      | some name =>
          if path.asDirectory then .error .isDirectory
          else tree.write names.dropLast name data now

/-- The calls, on the mounted tree. -/
def system (mount : Mount) (size : Data → Nat) (order : Tree.Order FileName) (now : Nat) :
    System (Tree FileName Data) Data where
  canonicalize path tree :=
    ((mount.nodeAt tree path).map fun node => mount.canonical node.1, tree)
  read path tree :=
    (match mount.nodeAt tree path with
      | .error error => .error error
      | .ok (_, .dir _) => .error .isDirectory
      | .ok (_, .file data _) => .ok data, tree)
  metadata path tree :=
    (match mount.nodeAt tree path with
      | .error error => .error error
      | .ok (_, .dir modified) => .ok ⟨true, mount.dirLength, modified⟩
      | .ok (_, .file data modified) => .ok ⟨false, size data, modified⟩, tree)
  createDirs path tree :=
    match mount.locate path with
    | none => (.ok (), tree)
    | some names => changed tree (Tree.makeDirs now tree [] names)
  write path data tree := changed tree (mount.writeAt now path data tree)
  rename source target tree := changed tree (mount.renameAt now source target tree)
  removeFile path tree := changed tree (mount.removeAt now path tree)
  readDir path tree :=
    (match mount.nodeAt tree path with
      | .error error => .error error
      | .ok (_, .file _ _) => .error .notDirectory
      | .ok (names, .dir _) => .ok (order.arrange names (tree.children names)), tree)

end Mount

end Files
