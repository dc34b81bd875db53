import GatewayTelemetry.Decimal.Read

/-! # Server addresses

A request can be sent to an address that names a scheme for the web, a host and perhaps a port.
What follows them is not looked at.
-/

namespace GatewayTelemetry.Prometheus

/-- The characters of an address; breaks and tabs are not part of it, nor are blanks around it. -/
def addressChars (address : String) : List Char :=
  let inner (cs : List Char) := cs.dropWhile fun c => c.toNat ≤ 0x20
  (inner (inner address.toList).reverse).reverse.filter fun c =>
    !(c = '\t' || c = '\n' || c = '\r')

def endsAuthority (c : Char) : Bool := c = '/' || c = '\\' || c = '?' || c = '#'

def authority? (cs : List Char) : Option (List Char) :=
  let scheme := (cs.takeWhile fun c => c ≠ ':').map Char.toLower
  if scheme = "http".toList || scheme = "https".toList then
    let rest := (cs.drop (scheme.length + 1)).dropWhile fun c => c = '/' || c = '\\'
    some (rest.takeWhile fun c => !endsAuthority c)
  else none

/-- The part behind the last at sign; a user may be named in front of it. -/
def behindUser (cs : List Char) : List Char := (cs.reverse.takeWhile fun c => c ≠ '@').reverse

def splitPort (cs : List Char) : List Char × List Char :=
  match cs with
  | '[' :: rest =>
    let inner := rest.takeWhile fun c => c ≠ ']'
    ('[' :: inner ++ [']'], rest.drop (inner.length + 1))
  | cs => (cs.takeWhile fun c => c ≠ ':', cs.dropWhile fun c => c ≠ ':')

def isPort : List Char → Bool
  | [] => true
  | ':' :: digits => digits.all Decimal.isDigit && Decimal.natOfDigits digits < UInt16.size
  | _ => false

def isHostChar (c : Char) : Bool :=
  0x20 < c.toNat && c.toNat ≠ 0x7F && !"<>^|[]@".toList.contains c

def isHost : List Char → Bool
  | [] => false
  | '[' :: rest => rest.all fun c => c = ':' || c = '.' || c = ']' || c.isAlphanum
  | cs => cs.all isHostChar

def isSendable (address : String) : Bool :=
  (authority? (addressChars address)).any fun cs =>
    let (host, port) := splitPort (behindUser cs)
    isHost host && isPort port

end GatewayTelemetry.Prometheus
