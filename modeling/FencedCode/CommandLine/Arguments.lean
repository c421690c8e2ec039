import FencedCode.Output.Format

/-!
# Arguments

What the arguments of the program ask for: a run on a file with up to three options, the help text
or the version. The arguments are taken from left to right, and the first that does not fit makes
the whole command line unusable; a request for help or the version is answered as soon as it is
reached.
-/
namespace FencedCode.CommandLine

/-- The settings of a run. -/
structure Invocation where
  file : Text
  language : Option Text
  format : Option Format
  config : Option Text
  deriving DecidableEq, Repr

/-- What the arguments ask for. -/
inductive Request where
  | run (invocation : Invocation)
  /-- the help text, short or long -/
  | help (long : Bool)
  | version
  deriving DecidableEq, Repr

/-- The settings that have been given so far. -/
structure Given where
  file : Option Text
  language : Option Text
  format : Option Format
  config : Option Text
  deriving DecidableEq, Repr

/-- The options that take a value. -/
inductive OptionName where
  | language
  | format
  | config
  deriving DecidableEq, Repr

/-- The option of a name after two hyphens. -/
def OptionName.ofName? (name : Text) : Option OptionName :=
  [("lang".toList, language), ("format".toList, format), ("config".toList, config)].lookup name

namespace Given

/-- Nothing. -/
def nothing : Given :=
  ⟨none, none, none, none⟩

/-- Adds the file, which is given once and is not empty. -/
def setFile (given : Given) (path : Text) : Option Given :=
  if given.file.isSome || path.isEmpty then none else some { given with file := path }

/-- Adds the value of an option, which is given at most once. A format has to be one that there is,
the path of a configuration must not be empty. -/
def setOption (given : Given) (name : OptionName) (value : Text) : Option Given :=
  match name with
  | .language => if given.language.isSome then none else some { given with language := value }
  | .format =>
    if given.format.isSome then none
    else (Format.ofName? value).map fun format => { given with format := some format }
  | .config =>
    if given.config.isSome || value.isEmpty then none else some { given with config := value }

/-- The run that is asked for, once there is a file. -/
def invocation? (given : Given) : Option Invocation :=
  given.file.map fun file => ⟨file, given.language, given.format, given.config⟩

end Given

/-- Whether an argument is a value or a file, not an option: it does not start with a hyphen, or is
nothing but a hyphen. -/
def isValue (argument : Text) : Bool :=
  argument == ['-'] || argument.head? != some '-'

/-- The arguments after `--`, all of them files. -/
def parseFiles : List Text → Given → Option Request
  | [], given => given.invocation?.map .run
  | path :: arguments, given => given.setFile path >>= parseFiles arguments

/-- What an option without a value asks for. -/
def Request.ofFlag? (name : Text) : Option Request :=
  [("help".toList, help true), ("version".toList, version)].lookup name

/-- What a group of one-letter options asks for. The first letter decides. -/
def Request.ofLetters? : Text → Option Request
  | 'h' :: _ => some (help false)
  | 'V' :: _ => some version
  | _ => none

/-- The name and, after the first equals sign, the value of an option that starts with two
hyphens. -/
def splitOption (argument : Text) : Text × Option Text :=
  let body := argument.drop 2
  match body.dropWhile (· != '=') with
  | [] => (body, none)
  | _ :: value => (body.takeWhile (· != '='), some value)

/-- What the arguments ask for, after some have been taken; nothing if they are not usable. -/
def parseFrom : List Text → Given → Option Request
  | [], given => given.invocation?.map .run
  | argument :: arguments, given =>
    if argument = ['-', '-'] then parseFiles arguments given
    else if isValue argument then given.setFile argument >>= parseFrom arguments
    -- one hyphen, then letters
    else if !(['-', '-'].isPrefixOf argument) then Request.ofLetters? (argument.drop 1)
    else
      match splitOption argument with
      | (name, some value) => do
        let name ← OptionName.ofName? name
        let given ← given.setOption name value
        parseFrom arguments given
      | (name, none) =>
        match Request.ofFlag? name, OptionName.ofName? name, arguments with
        | some request, _, _ => some request
        | none, some name, value :: arguments =>
          if isValue value then given.setOption name value >>= parseFrom arguments else none
        | none, _, _ => none

/-- What the arguments ask for; nothing if they are not usable. -/
def parse (arguments : List Text) : Option Request :=
  parseFrom arguments .nothing

end FencedCode.CommandLine
