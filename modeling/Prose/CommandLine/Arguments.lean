import Prose.Code.Target

/- The arguments of the command line. Options may stand before and behind the file;
   each may be given once. -/
namespace Prose.CommandLine

/-- What is to be produced. -/
inductive Emit where
  | tree | json | code | run
  deriving DecidableEq

/-- The product of a name. -/
def Emit.ofKey? : String → Option Emit
  | "tree" => some tree
  | "json" => some json
  | "code" => some code
  | "run" => some run
  | _ => none

/-- What the arguments ask for. -/
structure Arguments where
  file : Option String := none
  emit : Option Emit := none
  target : Option Target := none
  config : Option String := none
  verbose : Bool := false

/-- What is to be done. -/
inductive Request where
  | process (file : String) (arguments : Arguments)
  | version

/-- How a reading of arguments may end early. -/
inductive Stop where
  | misuse
  | version

/-- A path. It must not be empty. -/
def path? (s : String) : Option String := if s.isEmpty then none else some s

namespace Arguments

/-- The arguments with a file. -/
def setFile (a : Arguments) (s : String) : Option Arguments :=
  if a.file.isSome then none else (path? s).map fun f => { a with file := some f }

/-- The arguments with the value of an option. -/
def setOption (a : Arguments) (name value : String) : Option Arguments :=
  match name with
  | "emit" =>
    if a.emit.isSome then none else (Emit.ofKey? value).map fun e => { a with emit := some e }
  | "target" =>
    if a.target.isSome then none
    else (Target.ofKey? value).map fun t => { a with target := some t }
  | "config" =>
    if a.config.isSome then none else (path? value).map fun f => { a with config := some f }
  | _ => none

/-- The arguments with the flag for more output. -/
def setVerbose (a : Arguments) : Option Arguments :=
  if a.verbose then none else some { a with verbose := true }

end Arguments

/-- A result, or the end of the reading because of misuse. -/
def orMisuse {α : Type} : Option α → Except Stop α
  | some a => .ok a
  | none => .error .misuse

/-- The letters of an argument with a single hyphen. -/
def shortFlags (a : Arguments) : List Char → Except Stop Arguments
  | [] => .ok a
  | 'v' :: rest => do shortFlags (← orMisuse a.setVerbose) rest
  | 'V' :: _ => .error .version
  | _ => .error .misuse

/-- Whether an argument is one that names an option. A single hyphen is a value. -/
def isOption (s : String) : Bool := s.startsWith "-" && s != "-"

/-- The name and the value of an option that are joined by an equals sign. -/
def splitOption (s : String) : String × Option String :=
  let cs := s.toList
  let name := cs.takeWhile (· != '=')
  (String.ofList name,
    match cs.drop name.length with
    | [] => none
    | _ :: value => some (String.ofList value))

/-- The options that need a value. -/
def valueOptions : List String := ["emit", "target", "config"]

/-- Reads arguments from left to right. -/
def readArguments (a : Arguments) : List String → Except Stop Arguments
  | [] => .ok a
  | s :: rest =>
    if s = "--" then orMisuse (rest.foldlM Arguments.setFile a)
    else if s.startsWith "--" then
      match splitOption (String.ofList (s.toList.drop 2)) with
      | (name, some value) => do readArguments (← orMisuse (a.setOption name value)) rest
      | (name, none) =>
        if name = "version" then .error .version
        else if name = "verbose" then do readArguments (← orMisuse a.setVerbose) rest
        else if valueOptions.contains name then
          match rest with
          | value :: rest =>
            -- what looks like an option is never taken as a value
            if isOption value then .error .misuse
            else do readArguments (← orMisuse (a.setOption name value)) rest
          | [] => .error .misuse
        else .error .misuse
    else if isOption s then do readArguments (← shortFlags a (s.toList.drop 1)) rest
    else do readArguments (← orMisuse (a.setFile s)) rest

/-- The request that some arguments make, or `none` if they make none. -/
def request? (args : List String) : Option Request :=
  match readArguments {} args with
  | .error .version => some .version
  | .error .misuse => none
  | .ok a => a.file.map fun f => .process f a

end Prose.CommandLine
