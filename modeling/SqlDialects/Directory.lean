/-! A directory of text files. Directories inside it exist by holding files. -/

namespace SqlDialects

/-- Why a path cannot be used. -/
inductive PathFault
  | missing
  | notDirectory
  | isDirectory
  | other (text : String)
deriving Repr, DecidableEq

def PathFault.text : PathFault → String
  | .missing => "no such file or directory"
  | .notDirectory => "not a directory"
  | .isDirectory => "is a directory"
  | .other text => text

/-- An action on a path that failed. -/
structure FileError where
  action : String
  path : String
  fault : PathFault
deriving Repr, DecidableEq

def FileError.message (e : FileError) : String :=
  e.action ++ " " ++ e.path ++ ": " ++ e.fault.text

/-- Files and further directories by the names on the way to them. A file's directories need not be
listed. -/
structure Directory where
  files : List (List String × String) := []
  folders : List (List String) := []
deriving Repr, DecidableEq

namespace Directory

def step (stack : List String) (name : String) : List String :=
  if name = "" || name = "." then stack
  else if name = ".." then stack.drop 1
  else name :: stack

def names (path : String) : List String := ((path.splitOn "/").foldl step []).reverse

def pathOf (names : List String) : String := "/".intercalate names

def ofList (files : List (String × String)) : Directory :=
  { files := files.map fun (path, content) => (names path, content) }

/-- The files with their paths. -/
def toList (d : Directory) : List (String × String) :=
  d.files.map fun (names, content) => (pathOf names, content)

def isFile (d : Directory) (names : List String) : Bool := d.files.any (·.1 == names)

def isFolder (d : Directory) (names : List String) : Bool :=
  names.isEmpty || d.files.any (fun f => names.isPrefixOf f.1 && names != f.1) ||
    d.folders.any (names.isPrefixOf ·)

/-- Whether a file stands where a path needs a directory. -/
def blocked (d : Directory) (names : List String) : Bool :=
  (List.range names.length).any fun n => 0 < n && d.isFile (names.take n)

def read (d : Directory) (path : String) : Except FileError String :=
  let place := names path
  let failed (action : String) (fault : PathFault) : Except FileError String :=
    .error ⟨action, path, fault⟩
  if path = "" || path.startsWith "/" then failed "open" .missing
  else if d.blocked place then failed "open" .notDirectory
  else match d.files.lookup place with
    | some content => if path.endsWith "/" then failed "open" .notDirectory else .ok content
    | none =>
      if d.isFolder place then failed "read" .isDirectory
      else failed "open" .missing

def parent (path : String) : List String :=
  names (String.ofList (path.toList.reverse.dropWhile (· != '/')).reverse)

def makeFolder (d : Directory) (names : List String) : Except FileError Directory :=
  match (List.range names.length).find? fun n => d.isFile (names.take (n + 1)) with
  | some n => .error ⟨"mkdir", pathOf (names.take (n + 1)), .notDirectory⟩
  | none => .ok { d with folders := names :: d.folders }

/-- Replaces or adds a file. -/
def write (d : Directory) (path content : String) : Directory :=
  let place := names path
  { d with files := d.files.filter (·.1 != place) ++ [(place, content)] }

/-- Adds to the end of a file. -/
def append (d : Directory) (path content : String) : Directory :=
  d.write path ((d.files.lookup (names path)).getD "" ++ content)

end Directory

end SqlDialects
