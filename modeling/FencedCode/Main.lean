import FencedCode.CommandLine.Run

/-!
# The program

Reads the files that the arguments name, runs on their contents, and prints what the run brings
about. `RUST_LOG` names the least serious level of log lines to show.
-/
namespace FencedCode.CommandLine

/-- The fault that a failed system call stands for. The number of the error may come with either
sign. -/
def readFault (e : IO.Error) : ReadFault :=
  match e with
  | .noFileOrDirectory .. => .notFound
  | .inappropriateType _ code _ | .invalidArgument _ code _ | .otherError code _ =>
    match min code (0 - code) with
    | 20 => .notADirectory
    | 21 => .isADirectory
    | 36 => .nameTooLong
    | _ => .refused e.toString.toList
  | e => .refused e.toString.toList

/-- The text in a file. -/
def readText (path : Text) : IO (Except ReadFault Text) := do
  if path.contains '\x00' then
    return .error .nulInName
  try
    let content ← IO.FS.readBinFile (String.ofList path)
    return decodeFile content.toList
  catch e =>
    return .error (readFault e)

/-- The paths that a run reads. -/
def Request.paths : Request → List Text
  | .run invocation => invocation.config.toList ++ [invocation.file]
  | .help _ | .version => []

/-- The texts of the files at some paths. -/
def readTexts (paths : List Text) : IO TextFiles := do
  let texts ← paths.mapM fun path => do
    return (path, ← readText path)
  return fun path => (texts.lookup path).getD (.error .notFound)

/-- The filter that the environment asks for. -/
def logFilter : IO LogFilter := do
  let asked ← IO.getEnv "RUST_LOG"
  return (asked.bind fun name => LogFilter.ofName? name.toList).getD .standard

/-- What is said in short where the readers give no account. -/
def shortWording : Wording where
  syntaxError _ := parseHeading
  usageError _ := "the arguments are not usable".toList

/-- Prints an outcome, the log lines without times, and gives its exit code. -/
def finish (outcome : Outcome) : IO UInt32 := do
  let shown := outcome.stderr shortWording (fun _ => []) (← logFilter)
  (← IO.getStderr).putStr (String.ofList shown)
  return outcome.exitCode.toUInt32

end FencedCode.CommandLine

open FencedCode FencedCode.CommandLine in
def main (arguments : List String) : IO UInt32 := do
  let arguments := arguments.map String.toList
  let paths := ((parse arguments).map Request.paths).getD []
  let files ← readTexts paths
  let outcome := execute shortWording files .working arguments
  try
    let out ← IO.getStdout
    out.write outcome.stdout.toByteArray
    out.flush
    finish outcome
  catch _ =>
    finish (execute shortWording files (.full bufferSize) arguments)
