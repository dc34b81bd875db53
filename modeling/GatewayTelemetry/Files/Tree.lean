import GatewayTelemetry.Files.Path

/-! # File trees

A tree holds files and directories by name. A path is walked from the top; every step needs a
directory to stand in, and a step up from the top stays there. Names and paths that are too long
are refused before they are looked for.
-/

namespace GatewayTelemetry

inductive FileTree where
  | file (content : ByteArray)
  | directory (entries : List (String × FileTree))

inductive ReadFault where
  | notFound
  | notDirectory
  | isDirectory
  | nameTooLong
  | nulInPath
  | notText
  deriving Repr, DecidableEq

def ReadFault.message : ReadFault → String
  | notFound => "No such file or directory (os error 2)"
  | notDirectory => "Not a directory (os error 20)"
  | isDirectory => "Is a directory (os error 21)"
  | nameTooLong => "File name too long (os error 36)"
  | nulInPath => "file name contained an unexpected NUL byte"
  | notText => "stream did not contain valid UTF-8"

namespace FileTree

def empty : FileTree := .directory []

instance : Inhabited FileTree := ⟨empty⟩

def nameLimit : Nat := 255

def pathLimit : Nat := 4095

def entry? (entries : List (String × FileTree)) (name : String) : Except ReadFault FileTree :=
  if nameLimit < name.utf8ByteSize then .error .nameTooLong
  else
    match entries.find? fun e => e.1 == name with
    | some e => .ok e.2
    | none => .error .notFound

def walk (above : List FileTree) (here : FileTree) : List Path.Component → Except ReadFault FileTree
  | [] => .ok here
  | step :: rest =>
    match here, step with
    | .file _, _ => .error .notDirectory
    | .directory _, .here => walk above here rest
    | .directory _, .up =>
      match above with
      | [] => walk [] here rest
      | parent :: more => walk more parent rest
    | .directory entries, .child name => do
      walk (here :: above) (← entry? entries name) rest

def lookup (tree : FileTree) (path : String) : Except ReadFault FileTree :=
  if path.isEmpty then .error .notFound
  else if path.toList.contains '\x00' then .error .nulInPath
  else if pathLimit < path.utf8ByteSize then .error .nameTooLong
  else tree.walk [] (Path.components path)

def isDirectory (tree : FileTree) (path : String) : Bool :=
  match tree.lookup path with
  | .ok (.directory _) => true
  | _ => false

def isFile (tree : FileTree) (path : String) : Bool :=
  match tree.lookup path with
  | .ok (.file _) => true
  | _ => false

def readText (tree : FileTree) (path : String) : Except ReadFault String := do
  match ← tree.lookup path with
  | .directory _ => .error .isDirectory
  | .file content =>
    match String.fromUTF8? content with
    | some text => .ok text
    | none => .error .notText

def put (node : FileTree) : List String → FileTree → FileTree
  | [], _ => node
  | name :: rest, tree =>
    let entries := match tree with
      | .directory es => es
      | .file _ => []
    let old := (entries.find? fun e => e.1 == name).map (·.2)
    .directory (entries.filter (fun e => e.1 != name) ++ [(name, put node rest (old.getD empty))])

end FileTree

end GatewayTelemetry
