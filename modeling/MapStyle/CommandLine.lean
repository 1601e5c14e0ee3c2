import MapStyle.CommandLine.Command
import MapStyle.CommandLine.ErrorReport
import MapStyle.Document
import MapStyle.FileTree
import MapStyle.Json.Printer

/-
  This file defines the runs of commands: the text that a
  command writes, the reports of its errors, and its run on a
  tree of files.

  Key definitions include:
    * `Command.document`
    * `Run`
    * `Request.run`
-/

namespace MapStyle

namespace Command

/- The text of a document, with a line end. -/
def render
    (command : Command)
    (document : Json) : String :=
  if command.compact then
    document.compact ++ "\n"
  else
    document.pretty ++ "\n"

/- The text of the document of the file to compile. -/
def document
    (command : Command)
    (texts : Texts) : Traced Failure String := do
  let document ←
    Document.ofFile texts ⟨command.references⟩ command.input
  pure (command.render document)

/- The events that weigh enough to be reported. -/
def level (command : Command) : Level :=
  if command.verbose then .debug else .warn

/- The report of a file that cannot be compiled. -/
def compileReport
    (command : Command)
    (failure : Failure) : ErrorReport where
  title := "failed to compile " ++ command.input
  causes := failure.chain

/- The report of a document that cannot be written. -/
def writeReport
    (path : String)
    (cause : ReadError) : ErrorReport where
  title := "failed to write " ++ path
  causes := [cause.message]

end Command

------------------------------------------------------------
-- Runs
------------------------------------------------------------

/-
  What is left after a run: its exit code, what it has printed,
  the report of its error, and the files.
-/
structure Run where
  code : Nat
  output : String
  error : Option ErrorReport
  files : FileTree

namespace Run

/- A run that ends well. -/
def success
    (output : String)
    (files : FileTree) : Run :=
  ⟨0, output, none, files⟩

/- A run that ends with an error; it leaves the files alone. -/
def failed
    (report : ErrorReport)
    (files : FileTree) : Run :=
  ⟨1, "", some report, files⟩

/- A run that does not begin. -/
def misused (files : FileTree) : Run :=
  ⟨2, "", none, files⟩

end Run

/- Print a text, or write it to the file that is asked for. -/
def Command.deliver
    (command : Command)
    (files : FileTree)
    (text : String) : Run :=
  match command.output with
  | none => .success text files
  | some path =>
      match files.write path text with
      | .ok written => .success "" written
      | .error cause =>
          .failed (Command.writeReport path cause) files

/- Run a command on a tree of files. -/
def Command.run
    (command : Command)
    (files : FileTree) : Run :=
  match (command.document files.read).outcome with
  | .ok text => command.deliver files text
  | .error failure =>
      .failed (command.compileReport failure) files

namespace Request

/- How to use the command line. -/
def usage : String :=
  "Compile a map stylesheet to style JSON\n\n"
    ++ "Usage: mapstyle [OPTIONS] <INPUT>\n\n"
    ++ "Options:\n"
    ++ "  -o, --output <OUTPUT>  "
    ++ "Write the document here instead of stdout\n"
    ++ "      --dedupe-refs      "
    ++ "Let identical layers refer to the first of them\n"
    ++ "      --compact          "
    ++ "Single-line JSON instead of pretty output\n"
    ++ "  -v, --verbose          "
    ++ "Log layer derivation and dropped layers\n"
    ++ "  -h, --help             Print help\n"

/- Run a request on a tree of files. -/
def run
    (request : Request)
    (files : FileTree) : Run :=
  match request with
  | .help => .success usage files
  | .compile command => command.run files

/- Run a command line on a tree of files. -/
def runArguments
    (arguments : List String)
    (files : FileTree) : Run :=
  match ofArguments arguments with
  | .ok request => request.run files
  | .error _ => .misused files

end Request

end MapStyle
