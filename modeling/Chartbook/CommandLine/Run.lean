import Chartbook.CommandLine.Arguments
import Chartbook.Service.Pipeline

/-!
# Running the command line

One run of the pipeline over files, as a function of what the files hold.  The
first step that fails ends the run, and nothing is printed then.
-/

namespace Chartbook.CommandLine

inductive ReadFault where
  | notOpened (reason : String)
  | notRead (reason : String)
  deriving DecidableEq, Repr

def ReadFault.reason : ReadFault → String
  | notOpened r | notRead r => r

/-- The world around a run: files, environment variables, and whether a file can
be written. -/
structure Surroundings where
  read : String → Except ReadFault ByteArray
  writeFault : String → Option String
  environment : String → Option String

inductive Failure where
  | settings (error : Error)
  | reading (path reason : String)
  | loading (path : String) (error : Error)
  | pipeline (error : Error)
  | writing (path reason : String)
  deriving DecidableEq, Repr

inductive ReportLine where
  | text (s : String)
  | error (e : Error)
  | expression (e : ExpressionError)
  deriving DecidableEq, Repr

def ReportLine.message : ReportLine → String
  | text s => s
  | error e => e.message
  | expression e => e.message

def errorLines (e : Error) : List ReportLine :=
  .error e :: match e with
  | .kpi _ source => [.expression source]
  | .csv source | .io source | .json source => [.text source]
  | _ => []

def Failure.report : Failure → List ReportLine
  | settings e => .text "Failed to load settings" :: errorLines e
  | reading path reason => [.text s!"Failed to read {path}", .text reason]
  | loading path e => .text s!"Failed to load {path}" :: errorLines e
  | pipeline e => .text "Dashboard pipeline failed" :: errorLines e
  | writing path reason => [.text s!"Failed to write {path}", .text reason]

def causeLines : List String → List String
  | [cause] => [s!"    {cause}"]
  | causes => causes.mapIdx fun i cause => s!"    {i}: {cause}"

def Failure.text (f : Failure) : String :=
  match f.report.map ReportLine.message with
  | [] => "Error"
  | [line] => s!"Error: {line}"
  | line :: causes => "\n".intercalate
      (s!"Error: {line}" :: "" :: "Caused by:" :: causeLines causes)

structure Outcome where
  stdout : String := ""
  written : Option (String × String) := none
  failure : Option Failure := none
  deriving DecidableEq

def Outcome.exitCode (o : Outcome) : Nat := if o.failure.isSome then 1 else 0

def notText : String := "stream did not contain valid UTF-8"

def readText (w : Surroundings) (path : String) : Except String String :=
  match w.read path with
  | .error fault => .error fault.reason
  | .ok bytes =>
      match String.fromUTF8? bytes with
      | some s => .ok s
      | none => .error notText

/-- The settings of a run: built-in values, the settings file, the environment,
and the arguments. -/
def loadSettings (w : Surroundings) (a : Arguments) :
    Except Error Settings := do
  let overlay ← match a.config with
    | none => pure none
    | some path =>
        match readText w path with
        | .ok s => pure (some s)
        | .error reason => throw (.settings (.unreadable path reason))
  let settings := (← Settings.ofOverlay overlay).withEnvironment w.environment
  return if a.skipFailed then { settings with policy := .skipFailed }
    else settings

def loadTable (w : Surroundings) (path : String) : Except Error Table :=
  match w.read path with
  | .ok bytes => Table.ofBytes bytes
  | .error (.notOpened reason) =>
      .error (ImportFault.unopened path reason).error
  | .error (.notRead reason) => .error (.io reason)

def optionsOf (a : Arguments) : Options where
  axisLabel := a.axisLabel
  dropZero := if a.keepZeroMonths then some false else none

def compute (w : Surroundings) (x : Circumstances) (a : Arguments) :
    Except Failure PipelineResult := do
  let settings ← (loadSettings w a).mapError .settings
  let columns ←
    (readText w a.classification).mapError (.reading a.classification)
  let plan ← (readText w a.plan).mapError (.reading a.plan)
  let table ← (loadTable w a.input).mapError (.loading a.input)
  let answer := Store.runPipeline {} settings table
    (.fixed (.ok columns) (.ok plan)) (optionsOf a) x
  answer.result.mapError .pipeline

/-- The whole run: the result goes to the output file if one is named, and is
printed otherwise. -/
def run (w : Surroundings) (x : Circumstances) (a : Arguments) : Outcome :=
  match compute w x a with
  | .error failure => { failure := some failure }
  | .ok result =>
      let text := result.toJson.renderIndented
      match a.output with
      | none => { stdout := text.push '\n' }
      | some path =>
          match w.writeFault path with
          | none => { written := some (path, text) }
          | some reason => { failure := some (.writing path reason) }

end Chartbook.CommandLine
