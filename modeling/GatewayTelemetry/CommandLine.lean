import GatewayTelemetry.Decimal.Read
import GatewayTelemetry.Config.Load

/-! # The command line

Words are read from the left. An option takes its value from the same word or from the next one;
the value is checked once the next option starts or the words end. Four options hold for every
command and may stand on either side of its name; the inner side wins.
-/

namespace GatewayTelemetry.CommandLine

inductive Scope where
  | all
  | node
  | multiCluster
  deriving Repr, DecidableEq

def Scope.includesNodes : Scope → Bool
  | all | node => true
  | multiCluster => false

def Scope.includesMultiCluster : Scope → Bool
  | all | multiCluster => true
  | node => false

def Scope.ofName? (name : String) : Option Scope :=
  if name = "all" then some all
  else if name = "node" then some node
  else if name = "multi-cluster" then some multiCluster
  else none

inductive Command where
  | run (multiCluster noNode : Bool)
  | snapshot (scope : Scope)
  deriving Repr, DecidableEq

structure Invocation where
  verbose : Bool
  config : Option String
  prometheusUrl : Option String
  interval : Option UInt64
  command : Option Command
  deriving Repr, DecidableEq

/-- Why there is no invocation. Asking for help or for the version is one reason. -/
inductive Refusal where
  | unknownOption
  | unknownCommand
  | badValue
  | unreadableValue
  | repeatedOption
  | unexpectedValue
  | help
  | version
  deriving Repr, DecidableEq

inductive Level where
  | top
  | run
  | snapshot
  deriving Repr, DecidableEq

inductive Switch where
  | verbose
  | multiCluster
  | noNode
  | help
  | version
  deriving Repr, DecidableEq

inductive Setting where
  | config
  | prometheusUrl
  | interval
  | scope
  deriving Repr, DecidableEq

inductive Opt where
  | switch (s : Switch)
  | setting (s : Setting)
  deriving Repr, DecidableEq

/-- Long name, short name if there is one, and meaning. -/
abbrev Names := List (String × Option Char × Opt)

def commonNames : Names :=
  [("verbose", some 'v', .switch .verbose), ("config", some 'c', .setting .config),
    ("prometheus-url", none, .setting .prometheusUrl),
    ("interval", some 'i', .setting .interval), ("help", some 'h', .switch .help)]

def Level.names : Level → Names
  | top => commonNames ++ [("version", some 'V', .switch .version)]
  | run =>
    commonNames ++ [("multi-cluster", none, .switch .multiCluster), ("no-node", none, .switch .noNode)]
  | snapshot => commonNames ++ [("target", some 't', .setting .scope)]

def Level.ofLong? (l : Level) (name : String) : Option Opt :=
  (l.names.find? fun n => n.1 == name).map (·.2.2)

def Level.ofShort? (l : Level) (c : Char) : Option Opt :=
  (l.names.find? fun n => n.2.1 == some c).map (·.2.2)

def Level.ofCommand? (name : String) : Option Level :=
  if name = "run" then some run else if name = "snapshot" then some snapshot else none

structure Given where
  switches : List Switch
  config : Option String
  prometheusUrl : Option String
  interval : Option UInt64
  scope : Option Scope
  deriving Repr, DecidableEq

def Given.nothing : Given := ⟨[], none, none, none, none⟩

def readWord? (text : String) : Option UInt64 :=
  let digits := Decimal.dropPlus text.toList
  let n := Decimal.natOfDigits digits
  if !digits.isEmpty && digits.all Decimal.isDigit && n < UInt64.size then some n.toUInt64 else none

def once {α : Type} (old : Option α) (value : Except Refusal α) : Except Refusal (Option α) :=
  match old with
  | some _ => .error .repeatedOption
  | none => value.map some

def orElse {α : Type} (refusal : Refusal) : Option α → Except Refusal α
  | some a => .ok a
  | none => .error refusal

def Given.put (g : Given) (s : Setting) (text : String) : Except Refusal Given :=
  match s with
  | .config => do
    let value := if text.isEmpty then .error .badValue else .ok text
    return { g with config := ← once g.config value }
  | .prometheusUrl => return { g with prometheusUrl := ← once g.prometheusUrl (.ok text) }
  | .interval =>
    return { g with interval := ← once g.interval (orElse .unreadableValue (readWord? text)) }
  | .scope => return { g with scope := ← once g.scope (orElse .badValue (Scope.ofName? text)) }

def Given.turnOn (g : Given) (s : Switch) : Except Refusal Given :=
  match s with
  | .help => .error .help
  | .version => .error .version
  | s =>
    if g.switches.contains s then .error .repeatedOption
    else .ok { g with switches := s :: g.switches }

structure Pending where
  setting : Setting
  value : Option String

structure Progress where
  given : Given
  pending : Option Pending

def Progress.start : Progress := ⟨.nothing, none⟩

def Progress.awaitsValue (p : Progress) : Bool := p.pending.any fun q => q.value.isNone

def Progress.settle (p : Progress) : Except Refusal Given :=
  match p.pending with
  | none => .ok p.given
  | some ⟨_, none⟩ => .error .badValue
  | some ⟨s, some text⟩ => p.given.put s text

def Progress.apply (p : Progress) (o : Opt) (attached : Option String) : Except Refusal Progress := do
  match o, attached with
  | .switch s, _ => return ⟨← (← p.settle).turnOn s, none⟩
  | .setting s, some text => return ⟨← (← p.settle).put s text, none⟩
  | .setting s, none => return ⟨← p.settle, some ⟨s, none⟩⟩

inductive Word where
  | escape
  | long (name : String) (value : Option String)
  | short (letters : List Char)
  | plain

def cutAtEquals (cs : List Char) : String × Option String :=
  match cs.dropWhile fun c => c != '=' with
  | [] => (String.ofList cs, none)
  | _ :: value => (String.ofList (cs.takeWhile fun c => c != '='), some (String.ofList value))

def Word.ofText (text : String) : Word :=
  match text.toList with
  | ['-', '-'] => escape
  | '-' :: '-' :: rest => long (cutAtEquals rest).1 (cutAtEquals rest).2
  | '-' :: c :: rest => short (c :: rest)
  | _ => plain

def Progress.long (p : Progress) (l : Level) (name : String) (value : Option String) :
    Except Refusal Progress :=
  match l.ofLong? name, value with
  | none, _ => .error .unknownOption
  | some (.switch _), some _ => .error .unexpectedValue
  | some o, value => p.apply o value

def attachedValue : List Char → Option String
  | [] => none
  | '=' :: rest => some (String.ofList rest)
  | cs => some (String.ofList cs)

def Progress.short (p : Progress) (l : Level) : List Char → Except Refusal Progress
  | [] => .ok p
  | c :: rest => do
    match l.ofShort? c with
    | none => .error .unknownOption
    | some (.switch s) => (← p.apply (.switch s) none).short l rest
    | some (.setting s) => p.apply (.setting s) (attachedValue rest)

def Progress.take (p : Progress) (text : String) : Progress :=
  { p with pending := p.pending.map fun q => { q with value := some text } }

def stray : Level → Refusal
  | .top => .unknownCommand
  | _ => .unknownOption

def readInner (l : Level) : Progress → List String → Except Refusal Given
  | p, [] => p.settle
  | p, text :: rest =>
    match Word.ofText text with
    | .escape => if rest.isEmpty then p.settle else .error (stray l)
    | .long name value => do readInner l (← p.long l name value) rest
    | .short letters => do readInner l (← p.short l letters) rest
    | .plain => if p.awaitsValue then readInner l (p.take text) rest else .error (stray l)

def readHelp : List String → Refusal
  | [] => .help
  | [name] => if name = "help" || (Level.ofCommand? name).isSome then .help else .unknownCommand
  | _ => .unknownCommand

def isCommandName (name : String) : Bool := name = "help" || (Level.ofCommand? name).isSome

def readTop : Progress → List String → Except Refusal (Given × Option (Level × Given))
  | p, [] => do return (← p.settle, none)
  | p, text :: rest =>
    if !p.awaitsValue && text = "help" then .error (readHelp rest)
    else
      match (if p.awaitsValue then none else Level.ofCommand? text), Word.ofText text with
      | some l, _ => do
        let inner ← readInner l .start rest
        return (← p.settle, some (l, inner))
      | none, .escape =>
        match rest with
        | [] => do return (← p.settle, none)
        | next :: _ => .error (if isCommandName next then .unknownOption else .unknownCommand)
      | none, .long name value => do readTop (← p.long .top name value) rest
      | none, .short letters => do readTop (← p.short .top letters) rest
      | none, .plain => if p.awaitsValue then readTop (p.take text) rest else .error (stray .top)

def commandOf : Level × Given → Option Command
  | (.top, _) => none
  | (.run, g) => some (.run (g.switches.contains .multiCluster) (g.switches.contains .noNode))
  | (.snapshot, g) => some (.snapshot (g.scope.getD .all))

def read (words : List String) : Except Refusal Invocation := do
  let (outer, inner) ← readTop .start words
  let g := (inner.map (·.2)).getD .nothing
  return ⟨outer.switches.contains .verbose || g.switches.contains .verbose, g.config <|> outer.config,
    g.prometheusUrl <|> outer.prometheusUrl, g.interval <|> outer.interval, inner.bind commandOf⟩

def Invocation.overrides (i : Invocation) : Config.Overrides := ⟨i.interval, i.prometheusUrl⟩

end GatewayTelemetry.CommandLine
