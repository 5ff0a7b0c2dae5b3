import MarketFees.Text.Digits

namespace MarketFees.CommandLine

/-- What may be done with the file of a ledger, from the least on. -/
inductive Access where
  | look
  | change
  /-- Makes the file too, where there is none. -/
  | make
  deriving DecidableEq, Repr

namespace Access

def ofName? : String → Option Access
  | "ro" => some .look
  | "rw" => some .change
  | "rwc" => some .make
  | _ => none

/-- Whether an access goes no further than the other. -/
def within : Access → Access → Bool
  | .look, _ => true
  | .change, limit => limit != .look
  | .make, limit => limit == .make

end Access

/-- A place for a ledger. One without a path is kept nowhere. -/
structure Location where
  path : Option String
  access : Access
  deriving DecidableEq, Repr

namespace Location

/-- Whether a ledger with this path is kept nowhere. -/
def isTemporary (path : String) : Bool :=
  path == "" || path == ":memory:"

def ofPath (path : String) : Location :=
  ⟨if isTemporary path then none else some path, .make⟩

/-- The bytes that a part of a URI spells, up to the first that is zero. -/
def bytes : List Char → List UInt8
  | [] => []
  | '%' :: a :: b :: rest =>
    match Text.hexValue? [a, b] with
    | some 0 => []
    | some n => n.toUInt8 :: bytes rest
    | none => String.utf8EncodeChar '%' ++ bytes (a :: b :: rest)
  | c :: rest => String.utf8EncodeChar c ++ bytes rest

/-- The text that a part of a URI spells. -/
def decoded (part : List Char) : String :=
  (String.fromUTF8? ⟨(bytes part).toArray⟩).getD (.ofList part)

/-- The name and value of an option. -/
def option (text : String) : String × String :=
  (decoded (text.toList.takeWhile (· != '=')), decoded ((text.toList.dropWhile (· != '=')).drop 1))

/-- The options after the path of a URI. Ones without a name are passed over. -/
def options (query : List Char) : List (String × String) :=
  (((String.ofList query).splitOn "&").map option).filter (·.1 != "")

/-- How a ledger is opened. -/
structure Opening where
  access : Access
  inMemory : Bool

/-- An option may lower the access that the ones before it left, and a ledger in memory is as if none
had been given. -/
def Opening.apply? (o : Opening) : String × String → Option Opening
  | ("mode", "memory") => some ⟨.make, true⟩
  | ("mode", name) => do
    let access ← Access.ofName? name
    guard (access.within o.access)
    return ⟨access, false⟩
  | ("cache", name) => if name == "shared" || name == "private" then some o else none
  | _ => some o

/-- The ways of keeping files that an option may ask for, of which the last does so in memory. -/
def systems : List String :=
  ["unix", "unix-dotfile", "unix-excl", "unix-none", "memdb"]

/-- Whether a flag is on: a word for yes, or a number other than zero. -/
def isOn (value : String) : Bool :=
  let digits := value.toList.takeWhile Char.isDigit
  if digits.isEmpty then ["on", "yes", "true"].contains (value.map Char.toLower)
  else Text.digitsValue digits != 0

/-- What follows the computer that a URI names, which is this one. -/
def skipAuthority : List Char → Option (List Char)
  | '/' :: '/' :: rest =>
    if ["", "localhost"].contains (.ofList (rest.takeWhile (· != '/'))) then
      some (rest.dropWhile (· != '/'))
    else none
  | rest => some rest

/-- The place that a URI names after its scheme. -/
def ofUri? (uri : List Char) : Option Location := do
  let text := (← skipAuthority uri).takeWhile (· != '#')
  let path := decoded (text.takeWhile (· != '?'))
  let options := options ((text.dropWhile (· != '?')).drop 1)
  let opening ← options.foldlM Opening.apply? ⟨.make, false⟩
  let system := ((options.filter (·.1 == "vfs")).getLast?.map (·.2)).getD "unix"
  guard (systems.contains system)
  let inMemory := isTemporary path || opening.inMemory
  let frozen := !inMemory && (options.lookup "immutable").any isOn
  return {
    path := if inMemory || system == "memdb" then none else some path
    access := if frozen then .look else opening.access }

/-- The place that a text names. No place has a null character in its name. -/
def ofText? (text : String) : Option Location :=
  if text.toList.contains '\x00' then none
  else
    match text.toList with
    | 'f' :: 'i' :: 'l' :: 'e' :: ':' :: uri => ofUri? uri
    | _ => some (ofPath text)

end Location

end MarketFees.CommandLine
