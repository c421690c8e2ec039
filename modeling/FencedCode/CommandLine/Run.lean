import FencedCode.CommandLine.Arguments
import FencedCode.CommandLine.HelpText
import FencedCode.Config.Parse
import FencedCode.Document.File
import FencedCode.Output.Writer
import FencedCode.Scan.Scanner

/-!
# Runs

What the program does with its arguments, given the files it can read and the state of its standard
output. A run yields the bytes it has written, all log lines whatever the filter, and the failure
that ended it, if one did. Only the text on standard error depends on the filter, and on the times
at which the log lines are shown. Two of the texts that it holds are not the program's own
(`Wording`).
-/
namespace FencedCode

namespace CommandLine

/-- What the program passes on in the words of others. -/
structure Wording where
  /-- what the reader of TOML says of a text that is not well-formed -/
  syntaxError : Text → Text
  /-- what the reader of arguments says, after `error: `, of arguments that are not usable -/
  usageError : List Text → Text

/-- What ends a run before its time. -/
inductive Failure where
  /-- the arguments are not usable -/
  | usage
  | config (fault : LoadFault)
  /-- the language asked for, or a marker that goes with it, is invalid -/
  | language (tag : InvalidTag)
  | document (fault : DocumentFault)
  | output (e : WriteError)
  deriving DecidableEq, Repr

namespace Failure

/-- The cause of a failure, as one text. -/
def cause (wording : Wording) : Failure → Text
  | usage => []
  | config fault => fault.message wording.syntaxError
  | language tag => tag.message
  | document fault => fault.message
  | output e => e.message

/-- What is printed about a failure. -/
def report (wording : Wording) : Failure → Text
  | usage => usageLine
  | failure => "Error: ".toList ++ failure.cause wording ++ ['\n']

end Failure

/-- The state of standard output. -/
inductive Stdout where
  /-- it takes everything -/
  | working
  /-- its device has no space, behind a line buffer of the given size -/
  | full (buffer : Nat)
  deriving DecidableEq, Repr

/-- The size of the line buffer in front of standard output. -/
def bufferSize : Nat := 1024

/-- All that a run brings about. -/
structure Outcome where
  /-- the bytes on standard output -/
  stdout : Bytes
  /-- the log lines, shown or not -/
  log : List LogLine
  /-- what ended the run before its time -/
  failure : Option Failure

namespace Outcome

/-- The exit code: zero unless the run failed. -/
def exitCode (outcome : Outcome) : Nat :=
  if outcome.failure.isSome then 1 else 0

/-- The text on standard error: the log lines that the filter admits, each with the stamp of its
place, then the failure. -/
def stderr (outcome : Outcome) (wording : Wording) (stamps : Nat → Text) (filter : LogFilter) :
    Text :=
  LogLine.renderAll stamps (outcome.log.filter fun line => filter.admits line.level) ++
    match outcome.failure with
    | some failure => failure.report wording
    | none => []

/-- A run that printed a text and did nothing else. -/
def printed (stdout : Stdout) (text : Text) : Outcome where
  stdout := match stdout with
    | .working => text.utf8
    | .full _ => []
  log := []
  failure := none

/-- A run that failed. -/
def failed (log : List LogLine) (failure : Failure) : Outcome where
  stdout := []
  log := log
  failure := some failure

end Outcome

/-- The part of the program that reports what a run does. -/
def runTarget : Text :=
  "extract_code_blocks".toList

/-- The part of the program that reports on blocks. -/
def scanTarget : Text :=
  "extract_code_blocks::scanner".toList

/-- A log line about the run. -/
def notice (message : Text) : LogLine :=
  ⟨.debug, runTarget, message⟩

/-- A log line about a block. -/
def remark (record : Scan.Record) : LogLine :=
  ⟨record.level, scanTarget, record.message⟩

/-- The notice of why the arguments are not usable. -/
def usageNotice (wording : Wording) (arguments : List Text) : LogLine :=
  notice ("error: ".toList ++ wording.usageError arguments)

/-- The notice of the settings in force. -/
def settingsNotice (config : Config) : LogLine :=
  notice ("Using configuration: ".toList ++ config.describe)

/-- The notice that a scan begins. -/
def scanNotice (file : Text) (language : Language) : LogLine :=
  notice ("Scanning ".toList ++ file ++ " for ".toList ++ language.name ++ " blocks".toList)

/-- The notice of how many blocks were written. -/
def countNotice (count : Nat) (file : Text) : LogLine :=
  notice ("Extracted ".toList ++ Text.ofNat count ++ " block(s) from ".toList ++ file)

/-- The settings in force: those of the configuration file, if one is named, with the language and
the format asked for. A language that is asked for is checked together with all markers. -/
def settings (files : TextFiles) (invocation : Invocation) : Except Failure Config := do
  let config ← match invocation.config with
    | some path => (Config.load files path).mapError .config
    | none => pure .standard
  let config ← match invocation.language with
    | some language =>
      let config := { config with language := language }
      config.validate.mapError Failure.language
      pure config
    | none => pure config
  return { config with format := invocation.format.getD config.format }

/-- What writing to standard output came to. -/
structure Written where
  result : Except WriteError Nat
  stdout : Bytes
  records : List Scan.Record

/-- Writes the blocks of a scan to standard output. -/
def writeScan (stdout : Stdout) (format : Format) (scanner : Scanner) : Written :=
  match stdout with
  | .working =>
    let report := writeBlocks format scanner LimitedSink.unlimited
    ⟨report.result, report.sink.out.toList, report.source.records⟩
  | .full buffer =>
    let report := writeBlocks format scanner (FullDevice.empty buffer)
    ⟨report.result, [], report.source.records⟩

/-- Extracts the blocks of a file. -/
def run (files : TextFiles) (stdout : Stdout) (invocation : Invocation) : Outcome :=
  match settings files invocation with
  | .error failure => .failed [] failure
  | .ok config =>
    let language := config.target
    match Document.read files invocation.file with
    | .error fault => .failed [settingsNotice config] (.document fault)
    | .ok document =>
      let written := writeScan stdout config.format (document.scan language)
      let log := [settingsNotice config, scanNotice invocation.file language] ++
        written.records.map remark
      match written.result with
      | .error e => ⟨written.stdout, log, some (.output e)⟩
      | .ok count => ⟨written.stdout, log ++ [countNotice count invocation.file], none⟩

/-- The whole program. -/
def execute (wording : Wording) (files : TextFiles) (stdout : Stdout) (arguments : List Text) :
    Outcome :=
  match parse arguments with
  | none => .failed [usageNotice wording arguments] .usage
  | some (.help long) => .printed stdout (if long then longHelp else shortHelp)
  | some .version => .printed stdout versionText
  | some (.run invocation) => run files stdout invocation

end CommandLine

end FencedCode
