import OrderLint.CommandLine.Dispatch
import OrderLint.Configuration
import OrderLint.Run

/-!
# The program

A call is dispatched to a command. Its flags are read; help and the version are answered at once.
Otherwise the settings that were not given are taken from their sources, and the command does its
work. What goes wrong is reported, after `Error: `, to the stream for errors.
-/
namespace OrderLint

structure Invocation where
  arguments : List Bytes
  environment : List (Bytes × Bytes)
  tree : FileTree
  order : VisitOrder := .asWritten
  input : Option Bytes
  processors : Int64

def Invocation.sources (call : Invocation) : Except ConfigurationError Sources :=
  loadSources call.order call.tree call.environment

inductive Failure where
  | unknownCommand (name : Bytes)
  | flag (e : FlagError)
  | configuration (e : ConfigurationError)
  | binding (e : BindingError)
  | noCommand
  | noShell
  | unknownShell (name : Bytes)
  | noInput
  | badJobs (jobs : Int64)
  | noExtensions
  | badPattern (pattern : Bytes)
  | run (e : RunError)
  deriving DecidableEq

def suggestionText (name : Bytes) : Bytes :=
  match Dispatch.suggestions name with
  | [] => []
  | commands =>
    utf8 "\n\nDid you mean this?\n" ++ commands.flatMap fun command => 9 :: command.name ++ [10]

def Failure.message : Failure → Bytes
  | .unknownCommand name =>
    utf8 "unknown command " ++ quoted name ++ utf8 " for " ++ quoted programName
      ++ suggestionText name
  | .flag e => e.message
  | .configuration e => e.message
  | .binding e => e.message
  | .noCommand => utf8 "You need to specify a command or an option"
  | .noShell => utf8 "shell type required"
  | .unknownShell name => utf8 "unsupported shell type " ++ quoted name
  | .noInput => utf8 "You should provide a file or a directory or stream content to stdin."
  | .badJobs jobs => utf8 "Invalid jobs count " ++ decimal jobs ++ utf8 ", it must be at least 1"
  | .noExtensions => utf8 "At least one file extension is required"
  | .badPattern pattern => utf8 "Invalid exclude pattern " ++ quoted pattern
  | .run e => e.message

def Failure.report (failure : Failure) : Bytes :=
  let line := utf8 "Error: " ++ failure.message ++ utf8 "\n"
  match failure with
  | .unknownCommand _ => line ++ utf8 "Run '" ++ programName ++ utf8 " --help' for usage.\n"
  | _ => line

structure Outcome where
  output : Bytes := []
  failure : Option Failure := none
  log : List LogRecord := []

namespace Outcome

def failed (failure : Failure) : Outcome := { failure := some failure }

def errors (outcome : Outcome) : Bytes :=
  match outcome.failure with
  | some failure => failure.report
  | none => []

end Outcome

/-! ## Commands -/

def Settings.fault? (settings : Settings) : Option Failure :=
  if settings.jobs < 1 then some (.badJobs settings.jobs)
  else if settings.extensions = [] then some .noExtensions
  else (settings.exclude.find? fun pattern => !Glob.isValid pattern).map .badPattern

def runCheck (call : Invocation) (settings : Settings) (arguments : List Bytes) : Outcome :=
  if arguments = [] ∧ call.input = none then .failed .noInput
  else match settings.fault? with
    | some failure => .failed failure
    | none =>
      let result := run settings call.tree (call.input.getD []) arguments
      { output := result.output
        failure := result.error.map .run
        log := shown settings.verbose result.log }

def runPrintConfig (sources : Sources) (defaults : Settings) : Outcome :=
  match bindFlags sources (settingFlags defaults) with
  | .error e => .failed (.binding e)
  | .ok flags => { output := (Settings.ofFlags defaults flags).print }

def shells : List Bytes := [utf8 "bash", utf8 "zsh", utf8 "fish", utf8 "powershell"]

/-- Looks at the shell that a completion script is asked for. The scripts themselves are no part of
this library. -/
def runCompletion (arguments : List Bytes) : Outcome :=
  match arguments with
  | [] => .failed .noShell
  | shell :: _ => if shells.contains shell then {} else .failed (.unknownShell shell)

def graveQuoted (s : Bytes) : Bytes :=
  let isRaw := fun (piece : Piece) => match piece with
    | .char code _ => code != 0x60 && code != 0x7F && code != 0xFEFF && (32 ≤ code || code == 9)
    | .invalid _ => false
  if (pieces s).all isRaw then 96 :: s ++ [96] else quoted s

def runHelp (defaults : Settings) (arguments : List Bytes) : Outcome :=
  match Dispatch.find arguments with
  | .ok found => { output := found.command.helpText defaults }
  | .error _ =>
    { output := utf8 "Unknown help topic [" ++ Bytes.joined [32] (arguments.map graveQuoted)
        ++ utf8 "]\n" ++ Command.main.usage [] }

def runCommand (call : Invocation) (sources : Sources) (defaults : Settings) (command : Command)
    (flags : List Flag) (arguments : List Bytes) : Outcome :=
  match command with
  | .main => .failed .noCommand
  | .check => runCheck call (.ofFlags defaults flags) arguments
  | .printConfig => runPrintConfig sources defaults
  | .completion => runCompletion arguments
  | .help => runHelp defaults arguments

def runBound (call : Invocation) (defaults : Settings) (command : Command) (parsed : Flags.Parsed) :
    Outcome :=
  match call.sources with
  | .error e => .failed (.configuration e)
  | .ok sources => match bindFlags sources parsed.flags with
    | .error e => .failed (.binding e)
    | .ok flags => runCommand call sources defaults command flags parsed.arguments

def Invocation.outcome (call : Invocation) : Outcome :=
  let defaults := Settings.default call.processors
  match Dispatch.find call.arguments with
  | .error name => .failed (.unknownCommand name)
  | .ok found =>
    match Flags.parse (found.command.flags defaults) found.arguments with
    | .error e => .failed (.flag e)
    | .ok parsed =>
      if Flags.isOn parsed.flags (utf8 "help") then
        { output := found.command.helpText defaults }
      else if Flags.isOn parsed.flags (utf8 "version") then
        { output := programName ++ utf8 " version " ++ programVersion ++ utf8 "\n" }
      else runBound call defaults found.command parsed

end OrderLint
