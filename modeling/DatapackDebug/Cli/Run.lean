import DatapackDebug.Cli.Arguments
import DatapackDebug.Cli.Breakpoints
import DatapackDebug.Config.Basic
import DatapackDebug.Dialogue
import DatapackDebug.File.Variables

namespace DatapackDebug.Cli

/-!
# Running a command

* `CliRequest` — what a command asks of the file system;
* `run` — the outcome of a command line: what is printed, or the settings of a debug adapter that is
  to be started;
* `answerFrom` — the replies of a file store.
-/

/-- The version of the program. -/
def version : Text := "0.3.0"

/-- What a command asks for. -/
inductive CliRequest where
  /-- the value of a variable of the environment -/
  | variable (name : Text)
  | read (path : Text)
  | findTree (path : Text)
  /-- open a log file for appending, and make the directories that lead to it -/
  | openLog (path : Text)
  | replaceDir (dir : Text) (files : List (Text × Text))
deriving DecidableEq, Repr

/-- The environment of a command. -/
def cliSignature : Signature where
  Request := CliRequest
  Reply
    | .variable _ => Text
    | .read _ => Except FileError Text
    | .findTree _ => Except FileFailure FileTree
    | .openLog _ => Option FileError
    | .replaceDir _ _ => Option FileError

/-- Why a command fails. -/
inductive CliError where
  | usage (e : UsageError)
  | config (e : ConfigError)
  | file (e : FileError)
  | grammar (e : Config.GrammarFileError)
  | datapack (e : DatapackError)
  | breakpoint (e : BreakpointFlag.Error)
  | packConfig (e : PackConfigError)
  | cancelled
  | invalidPort (port : Int)
  /-- the adapter is to listen on a port -/
  | unsupportedPort
  /-- a script for a shell is asked for -/
  | unsupportedScript

/-- The wording of the error. -/
def CliError.message : CliError → Text
  | .usage e => e.message
  | .config e => e.message
  | .file e => e.message
  | .grammar e => e.message
  | .datapack e => e.message
  | .breakpoint e => e.message
  | .packConfig e => e.message
  | .cancelled => "cancelled"
  | .invalidPort port => "listen tcp: address " ++ Text.ofInt port ++ ": invalid port"
  | .unsupportedPort => "listening on a port is not supported"
  | .unsupportedScript => "completion scripts are not supported"

/-- What a command comes to. -/
inductive Outcome where
  | printed (text : Text)
  /-- a text for the error output, although nothing failed -/
  | noted (text : Text)
  /-- a debug adapter is to be started -/
  | adapter (config : Config)

/-- A computation of a command. -/
abbrev CliM := ExceptT CliError (Dialogue cliSignature)

/-- Ask the environment. -/
def ask (r : CliRequest) : CliM (cliSignature.Reply r) :=
  ExceptT.lift (Dialogue.perform (S := cliSignature) r)

/-- Go on with the value of a computation, or fail with its error. -/
def orFail {ε α : Type} (wrap : ε → CliError) (r : Except ε α) : CliM α :=
  match r with
  | .ok a => return a
  | .error e => throw (wrap e)

/-- Fail if there is an error. -/
def check {ε : Type} (wrap : ε → CliError) : Option ε → CliM Unit
  | none => return ()
  | some e => throw (wrap e)

/-- A path with its variables replaced. -/
def expand (path : Text) : CliM Text := do
  let pieces ← (PathPiece.ofPath path).mapM fun
    | .literal t => pure t
    | .variable name => ask (.variable name)
  return pieces.flatten

/-- The settings, with those of the command line, and the log file opened. -/
def loadConfig (i : Invocation) : CliM Config := do
  let path ← expand (Config.fileName i.config)
  let c ← orFail .config (Config.ofFile i.config.isEmpty path (← ask (.read path)))
  let c := if i.logFile.isEmpty then c else { c with log.file := i.logFile }
  let c := if i.logLevel.isEmpty then c else { c with log.level := i.logLevel }
  check .file (← ask (.openLog c.log.file))
  return c

/-- The grammar of the settings. -/
def loadGrammar (c : Config) : CliM Grammar := do
  if c.grammarFile.isEmpty then return .builtin
  orFail .grammar (Config.grammarOf c.grammarFile (← ask (.read c.grammarFile)))

/-- Generate a datapack. -/
def generate (c : Config) (i : Invocation) (datapack output : Text) : CliM Text := do
  let pack := if i.ns.isEmpty then c.pack else { c.pack with ns := i.ns }
  let g ← loadGrammar c
  let tree ← ask (.findTree (Path.clean datapack))
  let functions ← orFail .datapack (Datapack.load g datapack tree false)
  let breakpoints ← orFail .breakpoint (BreakpointFlag.parseAll i.breakpoints)
  let wrap : GenerateError → CliError := fun
    | .config e => .packConfig e
    | .cancelled => .cancelled
  let generated ← orFail wrap (GeneratedPack.generate pack functions breakpoints false)
  check .file (← ask (.replaceDir output generated.files))
  return "generated " ++ Text.ofNat generated.files.length ++ " files for " ++
    Text.ofNat functions.length ++ " functions into " ++ output ++ "\n"

/-- The help for the command that arguments name. -/
def helpFor (arguments : List Text) : Outcome :=
  match findCommand arguments with
  | .ok (c, _) => .printed c.helpText
  | .error _ =>
    .noted ("Unknown help topic [" ++ Text.join " " (arguments.map Text.verbatim) ++ "]\n" ++
      Subcommand.root.usageText Subcommand.globalFlags)

/-- Start the adapter. -/
def startAdapter (c : Config) (port : Int) : CliM Outcome := do
  if port == 0 then return .adapter c
  else if port < 0 || 65535 < port then throw (.invalidPort port)
  else throw .unsupportedPort

/-- Run a command whose arguments were read. -/
def runCommand (i : Invocation) : CliM Outcome := do
  if i.help then return .printed i.command.helpText
  match i.command with
  | .root | .completion => return .printed i.command.helpText
  | .help =>
    let _ ← loadConfig i
    return helpFor i.arguments
  | .version =>
    let _ ← loadConfig i
    return .printed ("Version: " ++ version ++ "\n")
  | .dap =>
    let c ← loadConfig i
    startAdapter c (i.port.getD c.port)
  | .generate =>
    match i.arguments with
    | [datapack] =>
      let c ← loadConfig i
      match i.output with
      | none => throw (.usage .noOutput)
      | some output => return .printed (← generate c i datapack output)
    | arguments => throw (.usage (.argumentCount arguments.length))
  | .script _ =>
    match i.arguments with
    | [] =>
      let _ ← loadConfig i
      throw .unsupportedScript
    | argument :: _ => throw (.usage (.unexpectedArgument i.command argument))

/-- Run a command line. -/
def run (args : List Text) : CliM Outcome := do
  let (command, args) ← orFail .usage (findCommand args)
  let i ← orFail .usage (({ command } : Invocation).read args.length args)
  runCommand i

/-- What is written to the error output for an error. -/
def errorOutput (e : CliError) : Text :=
  let hint : Text := match e with
    | .usage (.unknownCommand _) => "Run 'mcfd --help' for usage.\n"
    | _ => []
  "Error: " ++ e.message ++ "\n" ++ hint

/-- The replies of a file store, in an environment without variables. -/
def answerFrom : (r : CliRequest) → FileStore → cliSignature.Reply r × FileStore
  | .variable _, s => ([], s)
  | .read path, s => (s.read path, s)
  | .findTree path, s => (s.find path, s)
  | .openLog path, s =>
    let (s, e) := s.openFile path id
    (e, s)
  | .replaceDir dir files, s =>
    let (s, e) := s.replaceDir dir files
    (e, s)

end DatapackDebug.Cli
