import SceneTree.Decimal.Read
import SceneTree.TextFormat
import SceneTree.Time

/-!
This module contains the arguments of the command line and their meaning.
-/

namespace SceneTree.CommandLine

inductive Flag where
  | workDirectory
  | inputFile
  | inputDirectory
  | outputFormat
  | time
  | flattened
  | help
  | version
deriving DecidableEq

namespace Flag

def all : List Flag :=
  [workDirectory, inputFile, inputDirectory, outputFormat, time, flattened, help, version]

def longName : Flag → String
  | workDirectory => "directory"
  | inputFile => "input-file"
  | inputDirectory => "input-dir"
  | outputFormat => "output-format"
  | time => "time"
  | flattened => "flattened"
  | help => "help"
  | version => "version"

def shortName? : Flag → Option Char
  | workDirectory => some 'C'
  | inputFile => some 'f'
  | inputDirectory => some 'd'
  | outputFormat => some 'F'
  | time => some 't'
  | flattened => none
  | help => some 'h'
  | version => some 'V'

def takesValue : Flag → Bool
  | flattened | help | version => false
  | _ => true

end Flag

inductive Command where
  | flatten
  | dump
deriving DecidableEq

namespace Command

def name : Command → String
  | flatten => "flatten"
  | dump => "dump"

def ofName? (name : String) : Option Command :=
  [flatten, dump].find? (·.name = name)

def flags : Command → List Flag
  | flatten => [.workDirectory, .inputFile, .inputDirectory, .outputFormat, .time, .help]
  | dump => [.workDirectory, .inputFile, .inputDirectory, .flattened, .time, .help]

def leadingFlags : List Flag := [.workDirectory, .help, .version]

end Command

/--
What options and other arguments say. `none` is what was not said.
-/
structure Settings where
  workDirectories : List String := []
  files : List String := []
  directories : List String := []
  format : Option TextFormat := none
  time : Option Time := none
  isFlattened : Bool := false
  prims : List String := []

inductive Stop where
  | refused
  | help
  | version
deriving DecidableEq

namespace Settings

def path (value : String) : Except Stop String :=
  if value = "" then throw .refused else return value

/--
Take note of an option. Only the options that name files and directories may be repeated.
-/
def add (settings : Settings) (flag : Flag) (value : String) : Except Stop Settings := do
  match flag with
  | .workDirectory =>
    return { settings with workDirectories := settings.workDirectories ++ [← path value] }
  | .inputFile => return { settings with files := settings.files ++ [← path value] }
  | .inputDirectory =>
    return { settings with directories := settings.directories ++ [← path value] }
  | .outputFormat =>
    match settings.format, TextFormat.ofName? value with
    | none, some format => return { settings with format }
    | _, _ => throw .refused
  | .time =>
    match settings.time, Decimal.bits? .single value with
    | none, some bits => return { settings with time := some ⟨.ofNat bits⟩ }
    | _, _ => throw .refused
  | .flattened =>
    if settings.isFlattened then throw .refused else return { settings with isFlattened := true }
  | .help => throw .help
  | .version => throw .version

end Settings

structure Mention where
  flag : Flag
  value : Option String

def Mention.ofLong? (flags : List Flag) (text : List Char) : Option Mention :=
  let name := String.ofList (text.takeWhile (· ≠ '='))
  let value := (text.dropWhile (· ≠ '=')).tail?.map String.ofList
  (flags.find? (·.longName = name)).map fun flag => ⟨flag, value⟩

/--
Read an argument with one dash. What is behind the letter is the value, with an equals sign or none.
-/
def Mention.ofShort? (flags : List Flag) : List Char → Option Mention
  | [] => none
  | letter :: rest =>
    (flags.find? (·.shortName? = some letter)).map fun flag =>
      if flag.takesValue then
        match rest with
        | [] => ⟨flag, none⟩
        | '=' :: value => ⟨flag, some (String.ofList value)⟩
        | value => ⟨flag, some (String.ofList value)⟩
      else ⟨flag, none⟩

inductive Kind where
  | option (mention : Option Mention)
  /-- The sign behind which there are no options. -/
  | separator
  | word

/--
Tell apart options, one of which may be unknown, and words. A lone dash is a word.
-/
def Kind.of (flags : List Flag) (argument : String) : Kind :=
  match argument.toList with
  | ['-', '-'] => separator
  | '-' :: '-' :: text => option (Mention.ofLong? flags text)
  | '-' :: c :: text => option (Mention.ofShort? flags (c :: text))
  | _ => word

/--
Read options. The answer holds the arguments from the first word or separator on.
-/
def readOptions (flags : List Flag) (settings : Settings) :
    List String → Except Stop (Settings × List String)
  | [] => return (settings, [])
  | argument :: rest => do
    match Kind.of flags argument with
    | .word | .separator => return (settings, argument :: rest)
    | .option none => throw .refused
    | .option (some ⟨flag, value⟩) =>
      if !flag.takesValue then
        if value.isSome then throw .refused
        readOptions flags (← settings.add flag "") rest
      else match value with
        | some value => readOptions flags (← settings.add flag value) rest
        | none =>
          match rest with
          | value :: rest =>
            match Kind.of flags value with
            | .word => readOptions flags (← settings.add flag value) rest
            | _ => throw .refused
          | [] => throw .refused

def readArguments (flags : List Flag) (settings : Settings) :
    Nat → List String → Except Stop Settings
  | 0, _ => return settings
  | fuel + 1, arguments => do
    let (settings, rest) ← readOptions flags settings arguments
    match rest with
    | [] => return settings
    | word :: rest =>
      if word = "--" then return { settings with prims := settings.prims ++ rest }
      else readArguments flags { settings with prims := settings.prims ++ [word] } fuel rest

def helpWord : String := "help"

/--
Read all arguments. Work directories that are named behind the command replace those before it.
-/
def read (arguments : List String) : Except Stop (Command × Settings) := do
  let (leading, rest) ← readOptions Command.leadingFlags {} arguments
  match rest with
  | [] => throw .refused
  | word :: rest =>
    match Command.ofName? word with
    | some command =>
      let settings ← readArguments command.flags {} (rest.length + 1) rest
      return (command, {
        settings with
        workDirectories :=
          if settings.workDirectories.isEmpty then leading.workDirectories
          else settings.workDirectories })
    | none =>
      let isTopic (word : String) := word = helpWord ∨ (Command.ofName? word).isSome
      if word = helpWord ∧ rest.length ≤ 1 ∧ rest.all isTopic then throw .help
      else throw .refused

end SceneTree.CommandLine
