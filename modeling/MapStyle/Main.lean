import MapStyle.CommandLine

/-
  This file defines the program of the command line: it reads
  and writes the files of a command.

  Key definitions include:
    * `main`
-/

namespace MapStyle

namespace Main

/- The number of a system error, which comes with either sign. -/
def errorNumber (code : UInt32) : UInt32 :=
  min code (0 - code)

/- The reason of a failed operation on a file. -/
def reason : IO.Error → ReadError
  | .noFileOrDirectory _ _ _ => .notFound
  | .inappropriateType _ code _ =>
      if errorNumber code = 21 then
        .isDirectory
      else
        .notDirectory
  | e@(.invalidArgument _ code _) =>
      if errorNumber code = 36 then
        .nameTooLong
      else
        .other (toString e)
  | e => .other (toString e)

/- Read the text of a file. -/
def readText (path : String) : IO (Except ReadError String) := do
  match ← (IO.FS.readBinFile path).toBaseIO with
  | .error e => pure (.error (reason e))
  | .ok content =>
      match String.fromUTF8? content with
      | some text => pure (.ok text)
      | none => pure (.error .notText)

/- The texts that have been read so far. -/
def known
    (read : List (String × Except ReadError String)) : Texts :=
  fun path =>
    match read.lookup path with
    | some text => text
    | none => .error (.pending path)

/-
  The document of a command: as long as a file is asked for
  that has not been read yet, read it and begin again.
-/
partial def document
    (command : Command)
    (read : List (String × Except ReadError String)) :
    IO (Traced Failure String) := do
  let traced := command.document (known read)
  match traced.outcome with
  | .error (.compile (.unreadable _ (.pending path))) => do
      let text ← readText path
      document command ((path, text) :: read)
  | _ => pure traced

/- Print a text, or write it to the file that is asked for. -/
def deliver
    (command : Command)
    (text : String) : IO UInt32 :=
  match command.output with
  | none => do
      IO.print text
      pure 0
  | some path => do
      match ← (IO.FS.writeFile path text).toBaseIO with
      | .ok _ =>
          if command.verbose then
            IO.eprintln ("INFO wrote " ++ path)
          pure 0
      | .error e =>
          let report := Command.writeReport path (reason e)
          IO.eprint report.text
          pure 1

/- Run a command. -/
def run (command : Command) : IO UInt32 := do
  let traced ← document command []
  for line in logLines command.level traced.events do
    IO.eprintln line
  match traced.outcome with
  | .ok text => deliver command text
  | .error failure => do
      IO.eprint (command.compileReport failure).text
      pure 1

end Main

end MapStyle

/- Compile the file that the arguments name. -/
def main (arguments : List String) : IO UInt32 := do
  match MapStyle.Request.ofArguments arguments with
  | .ok (.compile command) => MapStyle.Main.run command
  | .ok .help => do
      IO.print MapStyle.Request.usage
      pure 0
  | .error misuse => do
      IO.eprintln ("error: " ++ misuse.message)
      pure 2
