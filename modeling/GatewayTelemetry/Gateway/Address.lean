/-! # The address of the gateways

The gateways of a namespace are listed at one address. A question mark in the name of the namespace
ends the path of the address and a number sign ends the address, and characters that may not stand
in an address leave no request to be sent.
-/

namespace GatewayTelemetry.Gateway

/-- Characters of a path, among them some that are usually escaped. -/
def isPathChar (c : Char) : Bool :=
  let n := c.toNat
  n == 0x21 || n == 0x22 || (0x24 ≤ n && n ≤ 0x3B) || n == 0x3D || (0x40 ≤ n && n ≤ 0x5F) ||
    (0x61 ≤ n && n ≤ 0x7E) || 0x80 ≤ n

def isQueryChar (c : Char) : Bool :=
  let n := c.toNat
  n == 0x21 || (0x24 ≤ n && n ≤ 0x3B) || n == 0x3D || (0x3F ≤ n && n ≤ 0x7E) || 0x80 ≤ n

def addressLimit : Nat := 65534

def endsPath (c : Char) : Bool := c = '?' || c = '#'

def queryOf (address : List Char) : List Char :=
  match address.dropWhile fun c => !endsPath c with
  | '?' :: rest => rest.takeWhile fun c => c ≠ '#'
  | _ => []

def pathOf? (address : String) : Option String :=
  let cs := address.toList
  let path := cs.takeWhile fun c => !endsPath c
  if address.utf8ByteSize ≤ addressLimit && path.all isPathChar && (queryOf cs).all isQueryChar then
    some (String.ofList path)
  else none

def address (space : String) : String :=
  "/apis/submariner.io/v1/namespaces/" ++ space ++ "/gateways?"

def requestPath? (space : String) : Option String := pathOf? (address space)

end GatewayTelemetry.Gateway
