/-!
# Arguments

The arguments of the command line.  Options with a value take it from the next
argument or after an equals sign; every option may be given once, and there are
no other arguments.
-/

namespace Chartbook.CommandLine

structure Arguments where
  input : String
  classification : String
  plan : String
  config : Option String := none
  axisLabel : Option String := none
  keepZeroMonths : Bool := false
  skipFailed : Bool := false
  output : Option String := none
  deriving DecidableEq, Repr

inductive UsageFault where
  | unexpected (argument : String)
  | repeated (option : String)
  | valueMissing (option : String)
  | valueUnwanted (option : String)
  | emptyPath (option : String)
  | optionMissing (option : String)
  deriving DecidableEq, Repr

def UsageFault.message : UsageFault → String
  | unexpected a => s!"unexpected argument '{a}' found"
  | repeated o => s!"the argument '{o}' cannot be used multiple times"
  | valueMissing o => s!"a value is required for '{o}' but none was supplied"
  | valueUnwanted o =>
      s!"unexpected value for '{o}' found; no more were expected"
  | emptyPath o => s!"a value is required for '{o}' but none was supplied"
  | optionMissing o => s!"the required argument '{o}' was not provided"

inductive Request where
  | run (arguments : Arguments)
  | help
  | misuse (fault : UsageFault)
  deriving DecidableEq, Repr

inductive OptionKind where
  | flag
  | path
  | word
  deriving DecidableEq, Repr

def optionKinds : List (String × OptionKind) :=
  [("--input", .path), ("--classification", .path), ("--plan", .path),
   ("--config", .path), ("--agg-mode", .word), ("--keep-zero-months", .flag),
   ("--skip-failed", .flag), ("--output", .path)]

def looksLikeOption (s : String) : Bool :=
  match s.toList with
  | '-' :: _ :: _ => true
  | _ => false

def splitEquals (s : String) : String × Option String :=
  match s.toList.dropWhile (· ≠ '=') with
  | [] => (s, none)
  | _ :: value =>
      (String.ofList (s.toList.takeWhile (· ≠ '=')), some (String.ofList value))

abbrev Given := List (String × String)

def give (given : Given) (name value : String) (kind : OptionKind) :
    Except UsageFault Given :=
  if (given.lookup name).isSome then .error (.repeated name)
  else if kind = .path ∧ value = "" then .error (.emptyPath name)
  else .ok ((name, value) :: given)

inductive Scanned where
  | given (options : Given)
  | help
  | fault (fault : UsageFault)

/-- A request for help: the long option, or the short one with anything after
it. -/
def isHelp (s : String) : Bool := s == "--help" || s.startsWith "-h"

def scan (given : Given) : List String → Scanned
  | [] => .given given
  | argument :: rest =>
      if isHelp argument then .help
      else if argument = "--" then
        match rest with
        | [] => .given given
        | extra :: _ => .fault (.unexpected extra)
      else
        let (name, value) := splitEquals argument
        match optionKinds.lookup name, value, rest with
        | none, _, _ => .fault (.unexpected argument)
        | some .flag, some _, _ => .fault (.valueUnwanted name)
        | some .flag, none, rest =>
            match give given name "" .flag with
            | .ok given => scan given rest
            | .error fault => .fault fault
        | some kind, some value, rest =>
            match give given name value kind with
            | .ok given => scan given rest
            | .error fault => .fault fault
        | some _, none, [] => .fault (.valueMissing name)
        | some kind, none, value :: rest =>
            if looksLikeOption value then .fault (.valueMissing name)
            else
              match give given name value kind with
              | .ok given => scan given rest
              | .error fault => .fault fault

def needed (given : Given) (name : String) : Except UsageFault String :=
  match given.lookup name with
  | some value => .ok value
  | none => .error (.optionMissing name)

def argumentsOf (given : Given) : Except UsageFault Arguments := do
  return {
    input := ← needed given "--input"
    classification := ← needed given "--classification"
    plan := ← needed given "--plan"
    config := given.lookup "--config"
    axisLabel := given.lookup "--agg-mode"
    keepZeroMonths := (given.lookup "--keep-zero-months").isSome
    skipFailed := (given.lookup "--skip-failed").isSome
    output := given.lookup "--output" }

def Request.ofArguments (arguments : List String) : Request :=
  match scan [] arguments with
  | .help => .help
  | .fault fault => .misuse fault
  | .given given =>
      match argumentsOf given with
      | .ok arguments => .run arguments
      | .error fault => .misuse fault

end Chartbook.CommandLine
