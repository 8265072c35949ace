import DatapackDebug.Text.Quoted

namespace DatapackDebug.Cli

/-!
# Commands and flags

* `Subcommand`, `Flag` — what the program can be told;
* `Subcommand.usageText`, `Subcommand.helpText` — what it tells of itself.
-/

/-- What a flag is followed by. -/
inductive FlagKind where
  | text
  /-- a text; the flag can be given several times -/
  | texts
  | integer
  /-- nothing -/
  | switch
deriving DecidableEq, Repr

/-- What the help calls the value of a flag. -/
def FlagKind.name : FlagKind → Text
  | .text => "string"
  | .texts => "stringArray"
  | .integer => "int"
  | .switch => []

/-- A flag. -/
structure Flag where
  name : Text
  letter : Option UInt8 := none
  kind : FlagKind
  usage : Text
deriving DecidableEq, Repr

/-- The shells for which the program can complete command lines. -/
inductive Shell where
  | bash
  | fish
  | powershell
  | zsh
deriving DecidableEq, Repr

/-- The name of a shell. -/
def Shell.name : Shell → Text
  | .bash => "bash"
  | .fish => "fish"
  | .powershell => "powershell"
  | .zsh => "zsh"

/-- The commands. -/
inductive Subcommand where
  | root
  | version
  | dap
  | generate
  | help
  | completion
  /-- the script that makes a shell complete command lines -/
  | script (shell : Shell)
deriving DecidableEq, Repr

/-- The name of the program. -/
def program : Text := "mcfd"

namespace Subcommand

/-- The commands that can be named after a command, in the order of their names. -/
def children : Subcommand → List Subcommand
  | .root => [.completion, .dap, .generate, .help, .version]
  | .completion => [.script .bash, .script .fish, .script .powershell, .script .zsh]
  | _ => []

/-- The name of a command. -/
def name : Subcommand → Text
  | .root => program
  | .version => "version"
  | .dap => "dap"
  | .generate => "generate"
  | .help => "help"
  | .completion => "completion"
  | .script shell => shell.name

/-- The command of a name after a command. -/
def child? (c : Subcommand) (name : Text) : Option Subcommand :=
  c.children.find? fun child => child.name == name

/-- The names that lead to a command, from that of the program on. -/
def path : Subcommand → Text
  | .root => program
  | .script shell => program ++ " completion " ++ shell.name
  | c => program ++ " " ++ c.name

/-- The flags of all commands. -/
def globalFlags : List Flag :=
  [{ name := "config", kind := .text, usage := "config file (default: ./mcfd.toml)" },
    { name := "log-file", kind := .text, usage := "log file" },
    { name := "log-level", kind := .text, usage := "log level" }]

/-- The flag that asks for help. -/
def helpFlag (c : Subcommand) : Flag :=
  { name := "help", letter := some 0x68, kind := .switch, usage := "help for " ++ c.name }

/-- The flags that are declared by a command, in the order of their names. -/
def localFlags (c : Subcommand) : List Flag :=
  match c with
  | .root => globalFlags.take 1 ++ [c.helpFlag] ++ globalFlags.drop 1
  | .version | .help | .completion => [c.helpFlag]
  | .dap =>
    [c.helpFlag, { name := "port", kind := .integer, usage := "TCP port to listen on" }]
  | .generate =>
    [{ name := "breakpoint", letter := some 0x62, kind := .texts
       usage := "breakpoint as <namespace>:<path>:<line>" },
      c.helpFlag,
      { name := "namespace", kind := .text, usage := "namespace of the generated datapack" },
      { name := "output", letter := some 0x6f, kind := .text, usage := "output directory" }]
  | .script _ =>
    [c.helpFlag, { name := "no-descriptions", kind := .switch
                   usage := "disable completion descriptions" }]

/-- The flags that a command has from the program. -/
def inheritedFlags (c : Subcommand) : List Flag := if c == .root then [] else globalFlags

/-- All flags of a command. -/
def flags (c : Subcommand) : List Flag := c.localFlags ++ c.inheritedFlags

/-- What a command does, in a line. -/
def short : Subcommand → Text
  | .root => "mcfunction debugger"
  | .version => "Show the version number"
  | .dap => "Start the debug adapter"
  | .generate => "Compile a datapack into a debug datapack"
  | .help => "Help about any command"
  | .completion => "Generate the autocompletion script for the specified shell"
  | .script shell => "Generate the autocompletion script for " ++ shell.name

end Subcommand

/-- What there is to know about the script for a shell. -/
def Shell.instructions : Shell → Text
  | .bash =>
    "Generate the autocompletion script for the bash shell.\n\n" ++
      "This script depends on the 'bash-completion' package.\n" ++
      "If it is not installed already, you can install it via your OS's package manager.\n\n" ++
      "To load completions in your current shell session:\n\n" ++
      "\tsource <(mcfd completion bash)\n\n" ++
      "To load completions for every new session, execute once:\n\n" ++
      "#### Linux:\n\n" ++
      "\tmcfd completion bash > /etc/bash_completion.d/mcfd\n\n" ++
      "#### macOS:\n\n" ++
      "\tmcfd completion bash > $(brew --prefix)/etc/bash_completion.d/mcfd\n\n" ++
      "You will need to start a new shell for this setup to take effect."
  | .fish =>
    "Generate the autocompletion script for the fish shell.\n\n" ++
      "To load completions in your current shell session:\n\n" ++
      "\tmcfd completion fish | source\n\n" ++
      "To load completions for every new session, execute once:\n\n" ++
      "\tmcfd completion fish > ~/.config/fish/completions/mcfd.fish\n\n" ++
      "You will need to start a new shell for this setup to take effect."
  | .powershell =>
    "Generate the autocompletion script for powershell.\n\n" ++
      "To load completions in your current shell session:\n\n" ++
      "\tmcfd completion powershell | Out-String | Invoke-Expression\n\n" ++
      "To load completions for every new session, add the output of the above command\n" ++
      "to your powershell profile."
  | .zsh =>
    "Generate the autocompletion script for the zsh shell.\n\n" ++
      "If shell completion is not already enabled in your environment you will need\n" ++
      "to enable it.  You can execute the following once:\n\n" ++
      "\techo \"autoload -U compinit; compinit\" >> ~/.zshrc\n\n" ++
      "To load completions in your current shell session:\n\n" ++
      "\tsource <(mcfd completion zsh)\n\n" ++
      "To load completions for every new session, execute once:\n\n" ++
      "#### Linux:\n\n" ++
      "\tmcfd completion zsh > \"$\x7bfpath[1]\x7d/_mcfd\"\n\n" ++
      "#### macOS:\n\n" ++
      "\tmcfd completion zsh > $(brew --prefix)/share/zsh/site-functions/_mcfd\n\n" ++
      "You will need to start a new shell for this setup to take effect."

namespace Subcommand

/-- What a command does. -/
def long : Subcommand → Text
  | .root => "mcfd 把数据包编译成可以暂停和单步执行的调试数据包，\n并通过调试适配器协议（DAP）与编辑器通信。"
  | .dap => "Start the debug adapter. Without --port it speaks DAP over stdin/stdout."
  | .help =>
    "Help provides help for any command in the application.\n" ++
      "Simply type mcfd help [path to command] for full details."
  | .completion =>
    "Generate the autocompletion script for mcfd for the specified shell.\n" ++
      "See each sub-command's help for details on how to use the generated script."
  | .script shell => shell.instructions
  | c => c.short

/-- How a command is used. -/
def useLine : Subcommand → Text
  | .root => program ++ " [command]"
  | .completion => "mcfd completion [command]"
  | .generate => "mcfd generate <datapack> [flags]"
  | .help => "mcfd help [command] [flags]"
  | .script .bash => "mcfd completion bash"
  | c => c.path ++ " [flags]"

end Subcommand

/-! ### Help -/

/-- A text filled up with blanks. -/
def padded (width : Nat) (t : Text) : Text := t ++ List.replicate (width - t.length) Text.blank

/-- The part of a line of help that names a flag. -/
def Flag.title (f : Flag) : Text :=
  let letter : Text := match f.letter with
    | some b => "  -" ++ [b] ++ ", "
    | none => "      "
  letter ++ "--" ++ f.name ++ (if f.kind == .switch then [] else 0x20 :: f.kind.name)

/-- The line of help for a flag. -/
def Flag.line (width : Nat) (f : Flag) : Text :=
  padded width f.title ++ "   " ++ f.usage ++ "\n"

/-- The lines of help for flags under a heading, or nothing if there are none. -/
def flagLines (heading : Text) (fs : List Flag) : Text :=
  let width := (fs.map (·.title.length)).foldl max 0
  if fs.isEmpty then [] else "\n" ++ heading ++ ":\n" ++ fs.flatMap (·.line width)

namespace Subcommand

/-- The line of help for a command among others. -/
def line (c : Subcommand) : Text := "  " ++ padded 11 c.name ++ " " ++ c.short ++ "\n"

/-- The lines of help for the commands that can be named after a command. -/
def childLines (c : Subcommand) : Text :=
  if c.children.isEmpty then [] else "\nAvailable Commands:\n" ++ c.children.flatMap line

/-- How a command with some flags of its own is used. -/
def usageText (c : Subcommand) (fs : List Flag) : Text :=
  let more : Text := if c.children.isEmpty then [] else
    "\nUse \"" ++ c.path ++ " [command] --help\" for more information about a command.\n"
  "Usage:\n  " ++ c.useLine ++ "\n" ++ c.childLines ++ flagLines "Flags" fs ++
    flagLines "Global Flags" c.inheritedFlags ++ more

/-- The help for a command. -/
def helpText (c : Subcommand) : Text := c.long ++ "\n\n" ++ c.usageText c.localFlags

end Subcommand

end DatapackDebug.Cli
