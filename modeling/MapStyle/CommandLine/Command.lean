/-
  This file defines the commands that can be given on the
  command line, and how they are read from its arguments.

  Key definitions include:
    * `Command`
    * `Misuse`
    * `Request`
    * `Request.ofArguments`
-/

namespace MapStyle

------------------------------------------------------------
-- Commands
------------------------------------------------------------

/- Compile a file and write the document. -/
structure Command where
  input : String
  output : Option String
  references : Bool
  compact : Bool
  verbose : Bool
deriving DecidableEq

/- What is asked for on a command line. -/
inductive Request
  | compile (command : Command)
  | help
deriving DecidableEq

/- Why a command line cannot be understood. -/
inductive Misuse
  | unknownOption (option : String)
  | valueNotTaken (option : String)
  | valueMissing (option : String)
  | valueEmpty (option : String)
  | repeated (option : String)
  | tooMany (argument : String)
  | inputMissing
deriving DecidableEq

namespace Misuse

/- The wording of a misuse. -/
def message : Misuse → String
  | .unknownOption option => "unknown option " ++ option
  | .valueNotTaken option => option ++ " takes no value"
  | .valueMissing option => option ++ " requires a value"
  | .valueEmpty option => option ++ " requires a value"
  | .repeated option => option ++ " is given more than once"
  | .tooMany argument => "one file only, not also " ++ argument
  | .inputMissing => "no file is given"

end Misuse

------------------------------------------------------------
-- What has been read
------------------------------------------------------------

/- What has been read from the arguments so far. -/
structure Draft where
  input : Option String
  output : Option String
  references : Bool
  compact : Bool
  verbose : Bool

namespace Draft

/- Nothing read yet. -/
def empty : Draft :=
  ⟨none, none, false, false, false⟩

/- Take the file to compile. -/
def withInput
    (draft : Draft)
    (path : String) : Except Misuse Draft :=
  if draft.input.isSome then
    .error (.tooMany path)
  else if path.isEmpty then
    .error (.valueEmpty "FILE")
  else
    .ok { draft with input := some path }

/- Take the file to write. -/
def withOutput
    (draft : Draft)
    (path : String) : Except Misuse Draft :=
  if path.isEmpty then
    .error (.valueEmpty "--output")
  else if draft.output.isSome then
    .error (.repeated "--output")
  else
    .ok { draft with output := some path }

/- Take a flag that has not been set yet. -/
def withFlag
    (name : String)
    (seen : Bool)
    (draft : Draft) : Except Misuse Draft :=
  if seen then .error (.repeated name) else .ok draft

/- Let layers refer to each other. -/
def withReferences (draft : Draft) : Except Misuse Draft :=
  withFlag "--dedupe-refs" draft.references
    { draft with references := true }

/- Write on a single line. -/
def withCompact (draft : Draft) : Except Misuse Draft :=
  withFlag "--compact" draft.compact
    { draft with compact := true }

/- Report what happens on the way. -/
def withVerbose (draft : Draft) : Except Misuse Draft :=
  withFlag "--verbose" draft.verbose
    { draft with verbose := true }

/- The command, once all arguments have been read. -/
def command? (draft : Draft) : Except Misuse Command :=
  match draft.input with
  | none => .error .inputMissing
  | some input =>
      .ok
        { input := input
          output := draft.output
          references := draft.references
          compact := draft.compact
          verbose := draft.verbose }

end Draft

------------------------------------------------------------
-- Options
------------------------------------------------------------

/-
  What an argument leaves to do: go on, go on with the next
  argument as the file to write, or show the help.
-/
inductive Progress
  | next (draft : Draft)
  | output (draft : Draft)
  | help

namespace Progress

/- Go on after a flag, unless it is refused. -/
def ofFlag (flag : Except Misuse Draft) : Except Misuse Progress :=
  flag.map .next

/- A long option without a value. -/
def ofLong
    (draft : Draft)
    (name : String) : Except Misuse Progress :=
  match name with
  | "output" => .ok (.output draft)
  | "dedupe-refs" => ofFlag draft.withReferences
  | "compact" => ofFlag draft.withCompact
  | "verbose" => ofFlag draft.withVerbose
  | "help" => .ok .help
  | _ => .error (.unknownOption ("--" ++ name))

/- A long option with a value after an equals sign. -/
def ofLongValue
    (draft : Draft)
    (name value : String) : Except Misuse Progress :=
  match name with
  | "output" => ofFlag (draft.withOutput value)
  | "dedupe-refs" | "compact" | "verbose" | "help" =>
      .error (.valueNotTaken ("--" ++ name))
  | _ => .error (.unknownOption ("--" ++ name))

/- The value that is written right behind a short option. -/
def attached : List Char → String
  | '=' :: rest => String.ofList rest
  | rest => String.ofList rest

/-
  A row of short options. What follows the one that takes a
  value is its value.
-/
def ofShort
    (draft : Draft) : List Char → Except Misuse Progress
  | [] => .ok (.next draft)
  | 'o' :: [] => .ok (.output draft)
  | 'o' :: rest => ofFlag (draft.withOutput (attached rest))
  | 'v' :: rest => do
      let more ← draft.withVerbose
      ofShort more rest
  | 'h' :: _ => .ok .help
  | c :: _ => .error (.unknownOption (String.ofList ['-', c]))

/-
  The name and the value of a long option that has its value
  after an equals sign.
-/
def splitLong (option : List Char) : String × Option String :=
  let name := option.takeWhile fun c => c ≠ '='
  match option.dropWhile fun c => c ≠ '=' with
  | [] => (String.ofList name, none)
  | _ :: value =>
      (String.ofList name, some (String.ofList value))

/-
  One argument where options are understood. A lone dash is a
  file like any other.
-/
def ofArgument
    (draft : Draft)
    (argument : String) : Except Misuse Progress :=
  match argument.toList with
  | '-' :: '-' :: option =>
      match splitLong option with
      | (name, none) => ofLong draft name
      | (name, some value) => ofLongValue draft name value
  | '-' :: c :: option => ofShort draft (c :: option)
  | _ => ofFlag (draft.withInput argument)

end Progress

------------------------------------------------------------
-- Command lines
------------------------------------------------------------

namespace Request

/- The value of an option cannot look like an option. -/
def isValue (argument : String) : Bool :=
  match argument.toList with
  | '-' :: _ :: _ => false
  | _ => true

/- Arguments after two dashes: all of them are files. -/
def readFiles
    (draft : Draft) : List String → Except Misuse Draft
  | [] => .ok draft
  | path :: rest => do
      let more ← draft.withInput path
      readFiles more rest

/- The end of the arguments. -/
def finish (draft : Draft) : Except Misuse Request :=
  draft.command?.map .compile

mutual

/- Arguments where an option or a file can follow. -/
def read (draft : Draft) : List String → Except Misuse Request
  | [] => finish draft
  | argument :: rest =>
      if argument = "--" then do
        let more ← readFiles draft rest
        finish more
      else do
        match ← Progress.ofArgument draft argument with
        | .next more => read more rest
        | .output more => readOutput more rest
        | .help => pure .help

/- Arguments where the file to write follows. -/
def readOutput
    (draft : Draft) : List String → Except Misuse Request
  | [] => .error (.valueMissing "--output")
  | argument :: rest =>
      if isValue argument then do
        let more ← draft.withOutput argument
        read more rest
      else
        .error (.valueMissing "--output")

end

/- What the arguments of a command line ask for. -/
def ofArguments
    (arguments : List String) : Except Misuse Request :=
  read .empty arguments

end Request

end MapStyle
