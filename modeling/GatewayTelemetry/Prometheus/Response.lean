import GatewayTelemetry.Error
import GatewayTelemetry.Json.Reader
import GatewayTelemetry.Keyed
import GatewayTelemetry.Text.Blank

/-! # Prometheus responses

A response is an envelope around a result of one of four types. An answer is good only if its body
is an envelope of success with a result of the type asked for; what else is received is a failed
query. The status of an answer is looked at only where its body does not open like an object. Parts
that are not asked for are not looked into.
-/

namespace GatewayTelemetry.Prometheus

abbrev Labels := Keyed String

abbrev RawPoint := Float × String

structure InstantSample where
  labels : Labels
  value : RawPoint

structure RangeSeries where
  labels : Labels
  values : List RawPoint

inductive Result where
  | matrix (series : List RangeSeries)
  | vector (samples : List InstantSample)
  | scalar
  | text

def Result.name : Result → String
  | matrix _ => "matrix"
  | vector _ => "vector"
  | scalar => "scalar"
  | text => "string"

def readLabel (member : Option String × Draft) : Option (String × String) := do
  return (← member.1, ← member.2.text?)

/-- A label given twice has its last value. -/
def readLabels : Draft → Option Labels
  | .obj fields => (fields.mapM readLabel).map Keyed.ofList
  | _ => none

def readPoint : Draft → Option RawPoint
  | .arr [time, raw] => do return (← time.float?, ← raw.text?)
  | _ => none

def readMetric : Option Draft → Option Labels
  | some d => readLabels d
  | none => some ∅

def InstantSample.read (d : Draft) : Option InstantSample := do
  match ← d.fields? ["metric", "value"] with
  | [metric, some value] => return ⟨← readMetric metric, ← readPoint value⟩
  | _ => none

def RangeSeries.read (d : Draft) : Option RangeSeries := do
  match ← d.fields? ["metric", "values"] with
  | [metric, some (.arr values)] => return ⟨← readMetric metric, ← values.mapM readPoint⟩
  | _ => none

inductive ResultType where
  | matrix
  | vector
  | scalar
  | text
  deriving Repr, DecidableEq

def ResultType.ofName? (name : String) : Option ResultType :=
  [("matrix", matrix), ("vector", vector), ("scalar", scalar), ("string", text)].lookup name

/-- A type is its name, or an object with the name as its only key over null. -/
def ResultType.read : Draft → Option ResultType
  | .str name | .obj [(name, .null)] => name.bind ofName?
  | _ => none

/-- The result of a type; scalars and texts are not looked into. -/
def Result.readAs : ResultType → Draft → Option Result
  | .matrix, .arr items => (items.mapM RangeSeries.read).map .matrix
  | .vector, .arr items => (items.mapM InstantSample.read).map .vector
  | .scalar, _ => some .scalar
  | .text, _ => some .text
  | _, _ => none

/-- A result beside its type. It is read as a value first where the type comes behind it. -/
def Result.readPair (room : Nat) : List (Option String × Draft) → Option Result
  | [(first, a), (second, b)] => do
    if first = some "resultType" && second = some "result" then
      readAs (← ResultType.read a) b
    else if first = some "result" && second = some "resultType" then
      let _ ← a.value? room
      readAs (← ResultType.read b) a
    else none
  | _ => none

def Result.read : Draft → Option Result
  | .arr [type, content] => do readAs (← ResultType.read type) content
  | .obj fields =>
    if fields.any fun f => f.1.isNone then none
    else readPair (Json.nestingLimit - 2)
      (fields.filter fun f => f.1 = some "resultType" || f.1 = some "result")
  | _ => none

structure Envelope where
  status : String
  result : Option Result
  errorType : Option String
  error : Option String

def Envelope.read (d : Draft) : Option Envelope := do
  match ← d.fields? ["status", "data", "errorType", "error"] with
  | [some status, data, errorType, error] =>
    return ⟨← status.text?, ← Draft.optional? Result.read data,
      ← Draft.optional? Draft.text? errorType, ← Draft.optional? Draft.text? error⟩
  | _ => none

def success : String := "success"

def malformed : String := "Malformed Prometheus response"

def readBody (body : String) : Except SourceError Result :=
  match (Draft.read? body).bind Envelope.read with
  | some e =>
    if e.status ≠ success then
      .error (.query (e.errorType.getD "error" ++ ": " ++ e.error.getD "unknown error"))
    else
      match e.result with
      | some r => .ok r
      | none => .error (.query "Prometheus response carries no data")
  | none => .error (.query malformed)

inductive Reply where
  /-- No connection, or no answer in time. -/
  | unanswered (detail : String)
  /-- No request was sent, or the transfer broke off. -/
  | broken (detail : String)
  | received (status : Nat) (body : String)
  deriving Repr, DecidableEq

def isSuccess (status : Nat) : Bool := 200 ≤ status && status < 300

def reasons : List (Nat × String) :=
  [(100, "Continue"), (101, "Switching Protocols"), (102, "Processing"), (200, "OK"),
    (201, "Created"), (202, "Accepted"), (203, "Non Authoritative Information"),
    (204, "No Content"), (205, "Reset Content"), (206, "Partial Content"), (207, "Multi-Status"),
    (208, "Already Reported"), (226, "IM Used"), (300, "Multiple Choices"),
    (301, "Moved Permanently"), (302, "Found"), (303, "See Other"), (304, "Not Modified"),
    (305, "Use Proxy"), (307, "Temporary Redirect"), (308, "Permanent Redirect"),
    (400, "Bad Request"), (401, "Unauthorized"), (402, "Payment Required"), (403, "Forbidden"),
    (404, "Not Found"), (405, "Method Not Allowed"), (406, "Not Acceptable"),
    (407, "Proxy Authentication Required"), (408, "Request Timeout"), (409, "Conflict"),
    (410, "Gone"), (411, "Length Required"), (412, "Precondition Failed"),
    (413, "Payload Too Large"), (414, "URI Too Long"), (415, "Unsupported Media Type"),
    (416, "Range Not Satisfiable"), (417, "Expectation Failed"), (418, "I'm a teapot"),
    (421, "Misdirected Request"), (422, "Unprocessable Entity"), (423, "Locked"),
    (424, "Failed Dependency"), (426, "Upgrade Required"), (428, "Precondition Required"),
    (429, "Too Many Requests"), (431, "Request Header Fields Too Large"),
    (451, "Unavailable For Legal Reasons"), (500, "Internal Server Error"),
    (501, "Not Implemented"), (502, "Bad Gateway"), (503, "Service Unavailable"),
    (504, "Gateway Timeout"), (505, "HTTP Version Not Supported"),
    (506, "Variant Also Negotiates"), (507, "Insufficient Storage"), (508, "Loop Detected"),
    (510, "Not Extended"), (511, "Network Authentication Required")]

def statusText (status : Nat) : String :=
  s!"{status} " ++ (reasons.lookup status).getD "<unknown status code>"

/-- Answers of these statuses have no body. -/
def isBodiless (status : Nat) : Bool := status == 204 || status == 304

/-- The text of a body, without a byte order mark in front of it. -/
def bodyText (status : Nat) (body : String) : String :=
  if isBodiless status then ""
  else
    match body.toList with
    | '\ufeff' :: rest => String.ofList rest
    | _ => body

/-- A body that may be an envelope; bad queries are reported in one. -/
def looksLikeEnvelope (body : String) : Bool :=
  (Text.trimStart body.toList).head? = some '\x7b'

def readReply (url : String) : Reply → Except SourceError Result
  | .unanswered detail => .error (.unreachable detail)
  | .broken detail => .error (.query detail)
  | .received status body =>
    let body := bodyText status body
    if !isSuccess status && !looksLikeEnvelope body then
      .error (.query (url ++ " returned " ++ statusText status))
    else readBody body

def unexpected (expected : String) (r : Result) : SourceError :=
  .query ("expected " ++ expected ++ " result, got " ++ r.name)

def readInstant (url : String) (reply : Reply) : Except SourceError (List InstantSample) := do
  match ← readReply url reply with
  | .vector samples => return samples
  | r => .error (unexpected "vector" r)

def readRange (url : String) (reply : Reply) : Except SourceError (List RangeSeries) := do
  match ← readReply url reply with
  | .matrix series => return series
  | r => .error (unexpected "matrix" r)

end GatewayTelemetry.Prometheus
