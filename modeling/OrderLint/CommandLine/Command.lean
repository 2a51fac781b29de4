import OrderLint.CommandLine.Flag
import OrderLint.Settings

/-!
# Commands and their help

The program has a few commands, each with flags of its own. Their help shows how they are used, the
commands below them and their flags, sorted by name.
-/
namespace OrderLint

inductive Command where
  | main
  | check
  | printConfig
  | completion
  | help
  deriving DecidableEq

def programName : Bytes := utf8 "cakesort"

def programVersion : Bytes := utf8 "master"

namespace Command

def all : List Command := [.check, .completion, .help, .printConfig]

def name : Command → Bytes
  | .main => programName
  | .check => utf8 "check"
  | .printConfig => utf8 "print-config"
  | .completion => utf8 "completion"
  | .help => utf8 "help"

def summary : Command → Bytes
  | .main =>
    programName ++ utf8 " checks the order of imports and class members in JavaScript files."
  | .check => utf8 "Check the order of imports, methods and properties in JavaScript files."
  | .printConfig => utf8 "Print the configuration"
  | .completion => utf8 "Generates completion scripts"
  | .help => utf8 "Help about any command"

def description : Command → Bytes
  | .main => programName ++ utf8 " checks that import declarations and class members of JavaScript
files are sorted. Imports go external first, then by binding form (unnamed,
destructured, wildcard, default), then alphabetically. Class methods and
properties are sorted alphabetically inside sections opened by a
\"// -- Section name\" comment."
  | .help => utf8 "Help provides help for any command in the application.
Simply type " ++ programName ++ utf8 " help [path to command] for full details."
  | command => command.summary

def usageLine : Command → Bytes
  | .main => programName ++ utf8 " [command]"
  | .check => programName ++ utf8 " check [flags] [file.js|directory|stdin]"
  | .printConfig => programName ++ utf8 " print-config"
  | .completion => programName ++ utf8 " completion [bash|zsh|fish|powershell]"
  | .help => programName ++ utf8 " help [command]"

def examples : Command → List Bytes
  | .main =>
    [utf8 "$ " ++ programName ++ utf8 " check ./src",
      utf8 "$ " ++ programName ++ utf8 " check --exclude '**/vendor/**' --jobs 4 .",
      utf8 "$ cat file.js | " ++ programName ++ utf8 " check"]
  | .completion =>
    ["bash", "bash -no-descriptions", "zsh", "fish", "powershell"].map fun shell =>
      utf8 "$ " ++ programName ++ utf8 " completion " ++ utf8 shell
  | _ => []

end Command

/-! ## Flags -/

def helpLetter : UInt8 := 104
def versionLetter : UInt8 := 118
def verboseLetter : UInt8 := 118
def jobsLetter : UInt8 := 106

def helpFlag (command : Command) : Flag where
  name := utf8 "help"
  letter := some helpLetter
  usage := utf8 "help for " ++ command.name
  value := .switch false

def settingFlags (settings : Settings) : List Flag :=
  [{ name := utf8 "constructor-first"
     usage := utf8 "Allow a constructor as first class member, out of alphabetical order"
     value := .switch settings.constructorFirst },
   { name := utf8 "delimiter"
     usage := utf8 "Text starting a line comment that opens a new class section, as in \"// -- Private Methods --\""
     value := .text settings.delimiter },
   { name := utf8 "exclude"
     usage := utf8 "Glob patterns (with ** support) of paths to skip"
     value := .list settings.exclude false },
   { name := utf8 "ext"
     usage := utf8 "File extensions to check when walking directories"
     value := .list settings.extensions false },
   { name := utf8 "jobs"
     letter := some jobsLetter
     usage := utf8 "Number of files analyzed in parallel"
     value := .count settings.jobs },
   { name := utf8 "verbose"
     letter := some verboseLetter
     usage := utf8 "Verbose output"
     value := .switch settings.verbose }]

def Settings.ofFlags (defaults : Settings) (flags : List Flag) : Settings :=
  let switch := fun (name : String) (missing : Bool) => match Flags.value? flags (utf8 name) with
    | some (.switch on) => on
    | _ => missing
  let list := fun (name : String) (missing : List Bytes) => match Flags.value? flags (utf8 name) with
    | some (.list items _) => items
    | _ => missing
  { verbose := switch "verbose" defaults.verbose
    constructorFirst := switch "constructor-first" defaults.constructorFirst
    delimiter := match Flags.value? flags (utf8 "delimiter") with
      | some (.text s) => s
      | _ => defaults.delimiter
    extensions := list "ext" defaults.extensions
    exclude := list "exclude" defaults.exclude
    jobs := match Flags.value? flags (utf8 "jobs") with
      | some (.count n) => n
      | _ => defaults.jobs }

def insertFlag (flag : Flag) : List Flag → List Flag
  | [] => [flag]
  | first :: rest =>
    if flag.name < first.name then flag :: first :: rest else first :: insertFlag flag rest

def Command.flags (defaults : Settings) (command : Command) : List Flag :=
  match command with
  | .main =>
    [helpFlag .main,
      { name := utf8 "version"
        letter := some versionLetter
        usage := utf8 "version for " ++ programName
        value := .switch false }]
  | .check => insertFlag (helpFlag .check) (settingFlags defaults)
  | .completion =>
    [{ name := utf8 "bashv1", usage := utf8 "Use bash version 1 completion", value := .switch false },
      helpFlag .completion,
      { name := utf8 "no-documentation"
        usage := utf8 "Do not include documentation"
        value := .switch false }]
  | command => [helpFlag command]

/-! ## Help -/

def paddedTo (width : Nat) (s : Bytes) : Bytes := s ++ List.replicate (width - s.length) 32

def FlagValue.kind : FlagValue → Bytes
  | .switch _ => []
  | .count _ => utf8 " int"
  | .text _ => utf8 " string"
  | .list _ _ => utf8 " strings"

def FlagValue.defaultNote : FlagValue → Bytes
  | .switch on => if on then utf8 " (default true)" else []
  | .count n => if n = 0 then [] else utf8 " (default " ++ decimal n ++ utf8 ")"
  | .text s => if s = [] then [] else utf8 " (default " ++ quoted s ++ utf8 ")"
  | .list items _ =>
    if items = [] then [] else utf8 " (default [" ++ Bytes.joined [44] items ++ utf8 "])"

def Flag.heading (flag : Flag) : Bytes :=
  let short := match flag.letter with
    | some letter => utf8 "  -" ++ letter :: utf8 ", "
    | none => utf8 "      "
  short ++ utf8 "--" ++ flag.name ++ flag.value.kind

def flagLines (flags : List Flag) : List Bytes :=
  let width := (flags.map fun flag => flag.heading.length).foldl max 0
  flags.map fun flag =>
    paddedTo (width + 3) flag.heading ++ flag.usage ++ flag.value.defaultNote

def nameWidth : Nat := (Command.all.map fun command => command.name.length).foldl max 11

def commandLines : List Bytes :=
  Command.all.map fun command =>
    utf8 "  " ++ paddedTo nameWidth command.name ++ utf8 " " ++ command.summary

def helpBlock (heading : String) (lines : List Bytes) : Bytes :=
  if lines = [] then []
  else utf8 "\n\n" ++ utf8 heading ++ lines.flatMap fun line => 10 :: line

namespace Command

/-- Whether a usage line says itself where the flags go. -/
def placesFlags (command : Command) : Bool := command == .check

def usage (command : Command) (flags : List Flag) : Bytes :=
  let line := if flags = [] || command.placesFlags then command.usageLine
    else command.usageLine ++ utf8 " [flags]"
  let below := if command = .main then utf8 "\n  " ++ programName ++ utf8 " [command]" else []
  let hint := if command = .main then
      utf8 "\n\nUse \"" ++ programName
        ++ utf8 " [command] --help\" for more information about a command."
    else []
  utf8 "Usage:\n  " ++ line ++ below ++ helpBlock "Examples:" command.examples
    ++ helpBlock "Available Commands:" (if command = .main then commandLines else [])
    ++ helpBlock "Flags:" (flagLines flags) ++ hint ++ utf8 "\n"

def helpText (defaults : Settings) (command : Command) : Bytes :=
  command.description ++ utf8 "\n\n" ++ command.usage (command.flags defaults)

end Command

end OrderLint
