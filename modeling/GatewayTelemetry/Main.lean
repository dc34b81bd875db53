import GatewayTelemetry.Snapshot
import GatewayTelemetry.Stream

/-! # The program

Reads the command line, the configuration and the files of the host, and prints what the command
asks for. No service of the cluster is contacted from here.
-/

namespace GatewayTelemetry.Program

def version : String := "0.1.0"

def usage : String :=
  "\n".intercalate
    ["Usage: meshgate [OPTIONS] [COMMAND]", "", "Commands:",
      "  run       Run the polling loops and stream change events as JSON lines",
      "  snapshot  Collect once and print the cached metrics", "", "Options:",
      "  -v, --verbose", "  -c, --config <PATH>", "      --prometheus-url <URL>",
      "  -i, --interval <SECONDS>", "  -h, --help", "  -V, --version"]

def refusalText : CommandLine.Refusal → String
  | .unknownOption => "unexpected argument"
  | .unknownCommand => "unrecognized subcommand"
  | .badValue => "a value is missing or not possible"
  | .unreadableValue => "a value is invalid"
  | .repeatedOption => "an argument cannot be used multiple times"
  | .unexpectedValue => "an argument takes no value"
  | .help => usage
  | .version => "meshgate " ++ version

def addFile (tree : FileTree) (path : String) : IO FileTree := do
  let names := (Path.components path).filterMap fun
    | .child name => some name
    | _ => none
  try
    return FileTree.put (.file (← IO.FS.readBinFile path)) names tree
  catch _ => return tree

def readFiles (paths : List String) : IO FileTree := paths.foldlM addFile .empty

def watchedFiles (c : Config) : List String :=
  [c.settingsPath, Counter.filePath c.sysfsRoot c.device .received,
    Counter.filePath c.sysfsRoot c.device .sent]

def execute (c : Config) : CommandLine.Command → IO (Except RunError (List String))
  | .run multiCluster noNode => do
    let site := Site.ofFiles (← readFiles (watchedFiles c))
    return .ok (Stream.firstLines site c 0 multiCluster noNode)
  | .snapshot scope => do
    let site := Site.ofFiles (← readFiles (watchedFiles c))
    return (Snapshot.document site c 0 scope).map fun text => [text]

def fail (text : String) : IO UInt32 := do
  IO.eprintln text
  return 1

def invoke (i : CommandLine.Invocation) : IO UInt32 := do
  match i.command with
  | none => fail "No command specified. Use --help for usage information."
  | some command =>
    let tree ← readFiles i.config.toList
    let outcome ← match Config.load tree i.config i.overrides with
      | .ok c => execute c command
      | .error e => pure (.error e)
    match outcome with
    | .ok lines =>
      lines.forM IO.println
      return 0
    | .error e => fail ("Error: " ++ e.message)

end GatewayTelemetry.Program

open GatewayTelemetry

def main (words : List String) : IO UInt32 := do
  match CommandLine.read words with
  | .ok i => Program.invoke i
  | .error .help =>
    IO.println Program.usage
    return 0
  | .error .version =>
    IO.println (Program.refusalText .version)
    return 0
  | .error r => do
    IO.eprintln ("error: " ++ Program.refusalText r)
    return 2
