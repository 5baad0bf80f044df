import Chartbook.CommandLine.Help
import Chartbook.CommandLine.Run
import Std.Time.DateTime

/-!
# The program

The outer layer of the command line: it reads the named files, the environment
and the clock, draws identifiers, and carries out what a run leaves behind.
-/

namespace Chartbook.CommandLine

def systemReason : IO.Error → String
  | .noFileOrDirectory _ code details | .interrupted _ code details
  | .alreadyExists _ code details | .invalidArgument _ code details
  | .permissionDenied _ code details | .resourceExhausted _ code details
  | .inappropriateType _ code details | .noSuchThing _ code details
  | .otherError code details | .resourceBusy code details
  | .resourceVanished code details
  | .unsupportedOperation code details | .hardwareFault code details
  | .unsatisfiedConstraints code details | .illegalOperation code details
  | .protocolError code details | .timeExpired code details =>
      s!"{details} (os error {code})"
  | .unexpectedEof => "unexpected end of file"
  | .userError reason => reason

def readContents (path : String) : IO (Except ReadFault ByteArray) := do
  match ← (IO.FS.Handle.mk path .read).toBaseIO with
  | .error e => return .error (.notOpened (systemReason e))
  | .ok handle =>
      match ← handle.readBinToEnd.toBaseIO with
      | .error e => return .error (.notRead (systemReason e))
      | .ok bytes => return .ok bytes

def readNamed (a : Arguments) :
    IO (List (String × Except ReadFault ByteArray)) :=
  ([a.input, a.classification, a.plan] ++ a.config.toList).mapM fun path => do
    return (path, ← readContents path)

def surroundings (a : Arguments) : IO Surroundings := do
  let files ← readNamed a
  let values ← ["DEFAULT_AGG_MODE", "DEFAULT_DROP_ALL_ZERO"].mapM fun name => do
    return (name, ← IO.getEnv name)
  return {
    read := fun path =>
      (files.lookup path).getD (.error (.notOpened "not read"))
    writeFault := fun _ => none
    environment := fun name => (values.lookup name).join }

def randomTag : IO Tag := do
  let bytes ← IO.getRandomBytes 3
  return Fin.ofNat 0x1000000
    (bytes.toList.foldl (fun n b => 256 * n + b.toNat) 0)

def clockText (t : Std.Time.PlainDateTime) : String :=
  let two (n : Int) : List Char := Number.padded 2 n.toNat
  String.ofList (Number.padded 4 t.date.year.toInt.toNat ++
    '-' :: two t.date.month.val ++ '-' :: two t.date.day.val ++
    'T' :: two t.time.hour.val ++ ':' :: two t.time.minute.val ++
    ':' :: two t.time.second.val ++ '.' ::
    Number.padded 3 (t.time.nanosecond.val / 1000000).toNat ++ ['Z'])

def versionText (t : Std.Time.PlainDateTime) : String :=
  let two (n : Int) : List Char := Number.padded 2 n.toNat
  String.ofList (Number.padded 4 t.date.year.toInt.toNat ++
    '.' :: two t.date.month.val ++ '.' :: two t.date.day.val)

/-- What a run takes from outside; all its stages have the time at which it
began. -/
def circumstances : IO Circumstances := do
  let now := Std.Time.PlainDateTime.ofWallTime
    (.ofTimestamp (← Std.Time.Timestamp.now) .zero)
  return {
    tableDraws := [← randomTag]
    datasetDraws := [← randomTag]
    clock := fun _ => clockText now
    version := versionText now }

def reportFailure (failure : Failure) : IO UInt32 := do
  IO.eprintln failure.text
  return 1

def writeContents (path content : String) : IO Unit := do
  let handle ← IO.FS.Handle.mk path .write
  handle.putStr content
  handle.flush

def carryOut (o : Outcome) : IO UInt32 := do
  match o.failure, o.written with
  | some failure, _ => reportFailure failure
  | none, some (path, content) =>
      match ← (writeContents path content).toBaseIO with
      | .ok _ => return 0
      | .error e => reportFailure (.writing path (systemReason e))
  | none, none =>
      IO.print o.stdout
      return 0

def execute (arguments : List String) : IO UInt32 := do
  match Request.ofArguments arguments with
  | .help =>
      IO.print (helpText "chartbook")
      return 0
  | .misuse fault =>
      IO.eprintln s!"error: {fault.message}"
      return 2
  | .run a => carryOut (run (← surroundings a) (← circumstances) a)

end Chartbook.CommandLine

def main (arguments : List String) : IO UInt32 :=
  Chartbook.CommandLine.execute arguments
