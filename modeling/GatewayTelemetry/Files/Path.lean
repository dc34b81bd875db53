/-! # Path texts

A path is the text it was given as; joining keeps both texts. Its components are the parts between
slashes, and only they decide what the path leads to.
-/

namespace GatewayTelemetry.Path

def isAbsolute (path : String) : Bool := path.toList.head? = some '/'

/-- One path below another. An absolute path stands for itself. -/
def join (base path : String) : String :=
  if isAbsolute path || base.isEmpty then path
  else if base.toList.getLast? = some '/' then base ++ path
  else base ++ "/" ++ path

def splitSlash : List Char → List (List Char)
  | [] => [[]]
  | c :: rest =>
    if c = '/' then [] :: splitSlash rest
    else
      match splitSlash rest with
      | [] => [[c]]
      | part :: parts => (c :: part) :: parts

inductive Component where
  | here
  | up
  | child (name : String)
  deriving Repr, DecidableEq

def Component.ofChars (part : List Char) : Component :=
  if part = [] || part = ['.'] then here
  else if part = ['.', '.'] then up
  else child (String.ofList part)

def components (path : String) : List Component :=
  (splitSlash path.toList).map Component.ofChars

end GatewayTelemetry.Path
