namespace MarketFees.CommandLine.Path

def isAbsolute (path : String) : Bool :=
  path.toList.head? == some '/'

/-- The names in a path, without empty ones and single dots. -/
def names (path : String) : List String :=
  (path.splitOn "/").filter fun name => name != "" && name != "."

/-- The most bytes that a name may have. -/
def nameLimit : Nat :=
  255

/-- From the names on the way to a place to the ones after one more name of a path. -/
def next (place : List String) (name : String) : List String :=
  if name == "" || name == "." then place
  else if name == ".." then place.dropLast
  else place ++ [name]

/-- The path of a name in a directory. -/
def join (directory name : String) : String :=
  if directory.toList.getLast? == some '/' then directory ++ name else directory ++ "/" ++ name

/-- The path of these names, from the root or not. -/
def ofNames (absolute : Bool) (names : List String) : String :=
  (if absolute then "/" else "") ++ "/".intercalate names

/-- The path from the root of what a path names in a directory, where a name may be taken back without
a look at what it stands for. -/
def settled (directory path : String) : String :=
  let start := if isAbsolute path then [] else names directory
  ofNames true ((path.splitOn "/").foldl next start)

/-- The directory that a path names a file in, where the path says so. -/
def parent? (path : String) : Option String :=
  match (names path).dropLast with
  | [] => none
  | names => some (ofNames (isAbsolute path) names)

/-- The directories on the way to a path, from the first on, and the path itself. -/
def leading (path : String) : List String :=
  (List.range (names path).length).map fun n =>
    ofNames (isAbsolute path) ((names path).take (n + 1))

end MarketFees.CommandLine.Path
