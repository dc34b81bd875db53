import GatewayTelemetry.Decimal.Read
import GatewayTelemetry.Error
import GatewayTelemetry.Files.Tree
import GatewayTelemetry.Text.Blank
import GatewayTelemetry.Text.Quoted

/-! # Device counters

A network device is a directory below `class/net`. Its byte counters are files that hold a decimal
number: with blanks around it ignored, an optional plus sign and digits whose value fits in a
64-bit word.
-/

namespace GatewayTelemetry.Counter

inductive WordFault where
  | empty
  | invalidDigit
  | tooLarge
  deriving Repr, DecidableEq

def WordFault.message : WordFault → String
  | empty => "cannot parse integer from empty string"
  | invalidDigit => "invalid digit found in string"
  | tooLarge => "number too large to fit in target type"

def readDigits : Nat → List Char → Except WordFault Nat
  | n, [] => .ok n
  | n, c :: rest =>
    if !Decimal.isDigit c then .error .invalidDigit
    else
      let next := n * 10 + Decimal.digitValue c
      if next < UInt64.size then readDigits next rest else .error .tooLarge

def readWord (cs : List Char) : Except WordFault UInt64 :=
  if cs.isEmpty then .error .empty
  else if (Decimal.dropPlus cs).isEmpty then .error .invalidDigit
  else (readDigits 0 (Decimal.dropPlus cs)).map Nat.toUInt64

inductive Direction where
  | received
  | sent
  deriving Repr, DecidableEq

def Direction.fileName : Direction → String
  | received => "rx_bytes"
  | sent => "tx_bytes"

def devicePath (root device : String) : String :=
  Path.join (Path.join (Path.join root "class") "net") device

def filePath (root device : String) (direction : Direction) : String :=
  Path.join (Path.join (devicePath root device) "statistics") direction.fileName

def devicePresent (tree : FileTree) (root device : String) : Bool :=
  tree.isDirectory (devicePath root device)

def countersPresent (tree : FileTree) (root device : String) : Bool :=
  tree.isFile (filePath root device .received) && tree.isFile (filePath root device .sent)

def ofText (path text : String) : Except SourceError UInt64 :=
  let cs := Text.trim text.toList
  match readWord cs with
  | .ok n => .ok n
  | .error fault =>
    .error (.query (path ++ " holds " ++ Text.quoted (String.ofList cs) ++ ", not a counter: "
      ++ fault.message))

/-- Only a file that does not exist is missing; any other trouble is a failed query. -/
def read (tree : FileTree) (root device : String) (direction : Direction) :
    Except SourceError UInt64 :=
  let path := filePath root device direction
  match tree.readText path with
  | .ok text => ofText path text
  | .error .notFound => .error (.missing path)
  | .error fault => .error (.query (path ++ ": " ++ fault.message))

end GatewayTelemetry.Counter
