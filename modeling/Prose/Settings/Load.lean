import Prose.Settings.Decode
import Prose.Settings.Surroundings

/- Finding and loading settings. A file named by a variable comes first, then the
   one in the user's directory for settings, then the one in the working
   directory. -/
namespace Prose.Settings

/-- Why settings could not be loaded. -/
inductive LoadError where
  | unreadable (path : String)
  | invalid (path : String)
  deriving DecidableEq

/-- The message of a failed load. -/
def LoadError.message : LoadError → String
  | unreadable path => "could not read config file " ++ path
  | invalid path => "invalid config file " ++ path

/-- The path of something in a directory. -/
def joinPath (directory name : String) : String :=
  if directory.isEmpty || directory.endsWith "/" then directory ++ name
  else directory ++ "/" ++ name

variable {m : Type → Type} [Monad m]

/-- A path, if there is something at it. -/
def ifPresent (s : Surroundings m) (path : String) : m (Option String) := do
  return if ← s.present path then some path else none

/-- The path that a variable names, if there is something at it. -/
def fromVariable (s : Surroundings m) : m (Option String) := do
  match ← s.environment "ENGLANG_CONFIG" with
  | some path => ifPresent s path
  | none => return none

/-- The user's directory for settings. -/
def userDirectory (s : Surroundings m) : m (Option String) := do
  match ← s.environment "XDG_CONFIG_HOME" with
  | some directory => return some directory
  | none =>
    match ← s.environment "HOME" with
    | some home => return some (joinPath home ".config")
    | none => return none

/-- The settings in the user's directory, if they are there. -/
def fromUser (s : Surroundings m) : m (Option String) := do
  match ← userDirectory s with
  | some directory => ifPresent s (joinPath (joinPath directory "englang") "config.toml")
  | none => return none

/-- The path of the settings that apply. -/
def find (s : Surroundings m) : m (Option String) := do
  match ← fromVariable s with
  | some path => return some path
  | none =>
    match ← fromUser s with
    | some path => return some path
    | none => ifPresent s "englang.toml"

/-- The settings of a file. -/
def ofFile (s : Surroundings m) (path : String) : m (Except LoadError Settings) := do
  match ← s.text path with
  | none => return .error (.unreadable path)
  | some text =>
    match parse text with
    | some settings => return .ok settings
    | none => return .error (.invalid path)

/-- The settings of a file that was asked for, or of the file that is found, or the
    usual ones. -/
def load (s : Surroundings m) (asked : Option String) : m (Except LoadError Settings) := do
  match asked with
  | some path => ofFile s path
  | none =>
    match ← find s with
    | some path => ofFile s path
    | none => return .ok {}

end Prose.Settings
