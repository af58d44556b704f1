import TokenBridge.Bytes
import TokenBridge.Config.Basic

namespace TokenBridge

/-- Files that are held in memory, by their names. A slash in a name stands behind a directory. -/
structure Directory where
  files : List (String × Bytes)
deriving DecidableEq

namespace Directory

inductive Place where
  /-- Somewhere above the directory, where nothing is known by name. -/
  | above
  | inside (names : List String)
  | file (content : Bytes)
deriving DecidableEq

def nameLimit : Nat := 255

def pathLimit : Nat := 4095

variable (d : Directory)

def enter (names : List String) : Except FileError Place :=
  match d.files.find? fun f ↦ f.1.splitOn "/" = names with
  | some (_, content) => .ok (.file content)
  | none =>
    if d.files.any fun f ↦ names.isPrefixOf (f.1.splitOn "/") then .ok (.inside names)
    else .error .notFound

/-- One step along a path. A file leads nowhere, and no long name leads anywhere. -/
def step : Place → String → Except FileError Place
  | .file _, _ => .error .notDirectory
  | place, "" => .ok place
  | place, "." => .ok place
  | .above, ".." => .ok .above
  | .inside names, ".." => .ok (if names = [] then .above else .inside names.dropLast)
  | place, name =>
    if nameLimit < name.utf8ByteSize then .error .nameTooLong
    else
      match place with
      | .inside names => d.enter (names ++ [name])
      | _ => .error .notFound

def walk : Place → List String → Except FileError Place
  | place, [] => .ok place
  | place, name :: rest => do walk (← d.step place name) rest

def find (path : String) : Except FileError Place :=
  if path.contains '\x00' then .error .nullInName
  else if path = "" then .error .notFound
  else if pathLimit < path.utf8ByteSize then .error .nameTooLong
  else
    match path.splitOn "/" with
    | "" :: rest => d.walk .above rest
    | names => d.walk (.inside []) names

def text (path : String) : Except FileError String := do
  match ← d.find path with
  | .file content =>
    match String.fromUTF8? ⟨content.toArray⟩ with
    | some s => return s
    | none => throw .notText
  | _ => throw .isDirectory

end Directory

end TokenBridge
