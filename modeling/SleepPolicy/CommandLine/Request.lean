import SleepPolicy.Journal.Level
import SleepPolicy.Operation

/-!
# Requests

What the arguments of the program ask for.  Options come before the command, each at most once; they
take a value, which stands in the next argument or after an equals sign.  Anything else is a usage
error, for which there is no request.
-/

namespace SleepPolicy

inductive Command
  | showPolicy
  | can (operation : Operation)
  deriving DecidableEq, Repr

structure Options where
  root : Option String
  level : Option Threshold
  deriving DecidableEq, Repr

inductive Request
  | version
  | run (options : Options) (command : Command)
  deriving DecidableEq, Repr

def Options.unset : Options :=
  ⟨none, none⟩

/-- The directory that settings files are looked up below. -/
def Options.rootPath (o : Options) : String :=
  o.root.getD "/"

inductive OptionName
  | root | level
  deriving DecidableEq, Repr

namespace OptionName

def text : OptionName → String
  | root => "--root"
  | level => "--log-level"

def ofText? (text : String) : Option OptionName :=
  [root, level].find? (·.text == text)

end OptionName

/-- Sets an option that is not set yet.  A root is not empty, and a level has to be known. -/
def Options.set? (o : Options) (name : OptionName) (value : String) : Option Options :=
  match name with
  | .root => if o.root.isNone && !value.isEmpty then some { o with root := some value } else none
  | .level =>
      if o.level.isNone then
        (Threshold.ofName? value).map fun level => { o with level := some level }
      else none

namespace Request

/-- Whether an argument has the form of an option; a lone dash has not. -/
def isOption (argument : String) : Bool :=
  argument.toList.head? == some '-' && argument != "-"

/-- A long option asks for the version, and so does a group of short ones that begins with `V`. -/
def asksVersion (argument : String) : Bool :=
  argument == "--version" || "-V".toList.isPrefixOf argument.toList

/-- An option with its value after an equals sign. -/
def splitOption? (argument : String) : Option (OptionName × String) := do
  let name ← OptionName.ofText? (String.ofList (argument.toList.takeWhile (· != '=')))
  match argument.toList.dropWhile (· != '=') with
  | [] => none
  | _ :: value => some (name, String.ofList value)

/-- The command that the arguments after the options name.  One double dash may stand among the
arguments of a command. -/
def command? (name : String) (rest : List String) : Option Command :=
  match name, rest.erase "--" with
  | "show-config", [] => some .showPolicy
  | "can", [verb] => (Operation.ofVerb verb).toOption.map .can
  | _, _ => none

/-- Reads arguments after some options; the version is answered as soon as it is asked for. -/
def after (o : Options) : List String → Option Request
  | [] => none
  | argument :: rest =>
      if asksVersion argument then some version
      else if isOption argument then
        match splitOption? argument with
        | some (name, value) =>
            match o.set? name value with
            | some o => after o rest
            | none => none
        | none =>
            match OptionName.ofText? argument, rest with
            | some name, value :: rest =>
                if isOption value then none
                else match o.set? name value with
                  | some o => after o rest
                  | none => none
            | _, _ => none
      else (command? argument rest).map (run o)

def ofArguments (arguments : List String) : Option Request :=
  after .unset arguments

end Request

end SleepPolicy
