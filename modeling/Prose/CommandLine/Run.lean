import Prose.Code.Convert
import Prose.CommandLine.Arguments
import Prose.Document.Read
import Prose.Form.Json
import Prose.Form.Outline
import Prose.Machine.Run
import Prose.Settings.Load
import Prose.Tree.Form

/- The command line: reads a document, reports what could not be read and prints
   what was asked for. -/
namespace Prose.CommandLine

/-- What a call of the program comes to. -/
structure Outcome where
  exit : Nat
  output : String
  errors : String

/-- The program's name and version. -/
def versionText : String := "englang 0.1.5"

/-- The outcome of a call whose arguments make no sense. -/
def misuse : Outcome := ⟨2, "", "error: the arguments make no sense\n"⟩

/-- The outcome of a call that fails with a message. -/
def failure (message : String) : Outcome := ⟨1, "", message ++ "\n"⟩

/-- The warning about a statement that could not be read, with a suggestion for the
    first of its names that has one. -/
def warning (source : SourceText) (s : Stmt) : String :=
  match s with
  | .invalid tokens span =>
    let names := tokens.filter fun t => t.kind == .identifier
    renderReport "warning" ("could not understand '" ++ Token.joinTexts tokens ++ "'")
      (source.locate span.start) (names.findSome? fun t => suggestKeyword t.text)
  | _ => ""

/-- The values of all variables, each on a line of its own. -/
def showMemory (memory : Machine.Memory) : String :=
  String.join (memory.listing.map fun v => v.name ++ ": " ++ v.shape ++ " = " ++ v.value.show ++ "\n")

/-- What is printed for a document, or the message of a failure. -/
def produce (emit : Emit) (target : Target) (d : Document) : Except String String :=
  match emit with
  | .tree => .ok (d.form.outline ++ "\n")
  | .json => .ok (d.form.toJson.pretty ++ "\n")
  | .code => (Node.convert target (.document d)).mapError fun u => "Error: " ++ u.message
  | .run =>
    match Machine.execute d {} with
    | (.ok _, memory) => .ok (showMemory memory)
    | (.error e, _) => .error ("Runtime error: " ++ e.message)

/-- The outcome for a document that was read from a text. Statements that could not
    be read make the call fail, though all else is done. -/
def finish (settings : Settings) (a : Arguments) (source : SourceText) : Outcome :=
  let d := Document.parse settings.reading source.text
  let invalid := d.invalidStatements
  let warnings := String.join (invalid.map (warning source))
  match produce (a.emit.getD .code) (a.target.getD settings.target) d with
  | .ok output => ⟨if invalid.isEmpty then 0 else 1, output, warnings⟩
  | .error message => ⟨1, "", warnings ++ message ++ "\n"⟩

variable {m : Type → Type} [Monad m]

/-- Processes a file. Settings are loaded before the file is read. -/
def process (s : Surroundings m) (file : String) (a : Arguments) : m Outcome := do
  match ← Settings.load s a.config with
  | .error e => return failure ("Error: " ++ e.message)
  | .ok settings =>
    match ← s.text file with
    | none => return failure ("Error reading file '" ++ file ++ "'")
    | some text => return finish settings a ⟨file, text⟩

/-- The outcome of a call with some arguments. -/
def run (s : Surroundings m) (args : List String) : m Outcome :=
  match request? args with
  | none => pure misuse
  | some .version => pure ⟨0, versionText ++ "\n", ""⟩
  | some (.process file a) => process s file a

end Prose.CommandLine
