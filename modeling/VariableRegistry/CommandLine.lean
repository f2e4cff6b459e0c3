/-
# The command line

The command dumps variables of a table file: all of them, or those that further arguments name.
Nothing is printed before every name has been found.
-/
import VariableRegistry.Registry.Dump
import VariableRegistry.TableFile

namespace VariableRegistry

/-! ## Outcomes -/

/-- What a command leaves behind. -/
structure Outcome where
  exitCode : UInt32
  output : String
  errors : String
deriving DecidableEq, Repr

/-- Why the command stops. -/
inductive CommandFailure where
  /-- No file is named. -/
  | usage
  /-- The file does not give a table set. -/
  | loading (path : String) (cause : Failure)
  /-- The table set gives no registry. -/
  | initialising (cause : Failure)
  /-- No variable has a name. -/
  | unknownName (name : String)

namespace CommandFailure

/-- What the command was about to do. -/
def headline : CommandFailure → String
  | usage => "usage: varcore-dump <tables.toml|tables.json> [NAME...]"
  | loading path _ => "loading " ++ path
  | initialising _ => "initialising registry"
  | unknownName name => "no variable named " ++ Text.quote name

/-- The wordings of the causes, the outermost first. -/
def causes : CommandFailure → List String
  | loading _ cause => cause.causes
  | initialising cause => cause.causes
  | _ => []

/-- Numbered lines from a number on. -/
def numbered : Nat → List String → String
  | _, [] => ""
  | n, s :: rest =>
    "\n" ++ String.ofList (Registry.alignRight 5 (Numeral.decimal n)) ++ ": " ++ s
      ++ numbered (n + 1) rest

/-- The causes below a headline; several of them are numbered. -/
def listed : List String → String
  | [] => ""
  | [s] => "\n\nCaused by:\n    " ++ s
  | causes => "\n\nCaused by:" ++ numbered 0 causes

/-- What is reported. -/
def report (f : CommandFailure) : String := "Error: " ++ f.headline ++ listed f.causes ++ "\n"

end CommandFailure

/-! ## The command -/

namespace CommandLine

/-- The handle of the first variable with a name. -/
def resolve (r : Registry) (name : String) : Except CommandFailure Handle :=
  match r.find? name with
  | some h => .ok h
  | none => .error (.unknownName name)

/-- The handles of the variables that arguments name; of all variables if there are none. -/
def selection (r : Registry) : List String → Except CommandFailure (List Handle)
  | [] => .ok r.directory.handles
  | names => names.mapM (resolve r)

/-- The text that the command prints, given the bytes of the file that the first argument names if
it can be read. -/
def output (F : Formats) (bytes? : Option (List UInt8)) :
    List String → Except CommandFailure String
  | [] => .error .usage
  | path :: names => do
    let t ← (F.ofFile path bytes?).mapError (.loading path)
    let r ← (Registry.init t).mapError fun fault => .initialising (.table fault)
    return r.dumpAll (← selection r names)

/-- Runs the command. -/
def run (F : Formats) (args : List String) (bytes? : Option (List UInt8)) : Outcome :=
  match output F bytes? args with
  | .ok text => ⟨0, text, ""⟩
  | .error failure => ⟨1, "", failure.report⟩

/-- Runs the command in a folder. -/
def runIn (F : Formats) (f : Folder) (args : List String) : Outcome :=
  run F args (args.head?.bind f.read?)

end CommandLine

end VariableRegistry
