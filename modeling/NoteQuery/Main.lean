import NoteQuery.Cli.Program
import NoteQuery.Cli.Usage
import Std.Time.DateTime.Timestamp

/-!
# The program

Everything that talks to the system: arguments, environment, files, clocks and streams. What the
program does with them is `Program.run`.
-/

set_option autoImplicit false

namespace NoteQuery.Program

def pieces (t : Text) : List Text :=
  t.foldr (fun c acc =>
    if c.toNat == 0 then [] :: acc
    else
      match acc with
      | p :: ps => (c :: p) :: ps
      | [] => [[c]]) [[]]

def variablesIn (t : Text) : List (Text × Text) :=
  (pieces t).filterMap fun p =>
    match p.dropWhile (· != '=') with
    | _ :: value => some (p.takeWhile (· != '='), value)
    | [] => none

def readBytes (path : Text) : IO (Except FileError ByteArray) := do
  if path.any (·.toNat == 0) then return .error .nullCharacter
  try
    return .ok (← IO.FS.readBinFile (String.ofList path))
  catch e =>
    match e with
    | .permissionDenied _ _ _ => return .error .denied
    | .inappropriateType (some _) _ _ => return .error .notDirectory
    | .inappropriateType none _ _ => return .error .isDirectory
    | .invalidArgument _ _ _ => return .error .nameTooLong
    | _ => return .error .missing

def readText? (path : Text) : IO (Option Text) := do
  match ← readBytes path with
  | .ok bytes => return Text.ofUtf8? bytes
  | .error _ => return none

def randomHex (count : USize) : IO Text := do
  let bytes ← IO.getRandomBytes count
  return bytes.toList.flatMap fun b => Text.hex 2 b.toNat

/-- Fresh ids; a run takes one pair of them at most. -/
def freshIds : IO IdSource := do
  let trace ← randomHex 16
  let span ← randomHex 8
  return ⟨fun _ => trace, fun _ => span⟩

def complainLine (t : Text) : IO Unit :=
  IO.eprintln (String.ofList t)

def writeLog (setup : LogSetup) (created : Int) (elapsed : Text) (logged : Event × Context) :
    IO Unit := do
  let record := LogRecord.ofEvent created elapsed logged.1
  if setup.json then
    match LogLine.render logged.2 record with
    | .ok line => complainLine line
    | .error e => complainLine e.message
  else
    let m := Moment.ofMicros created
    let time := m.date.render ++ ' ' :: Text.ofNatPadded 2 m.hour ++
      ':' :: Text.ofNatPadded 2 m.minute ++ ':' :: Text.ofNatPadded 2 m.second ++
      ',' :: Text.ofNatPadded 3 (m.micro / 1000)
    complainLine (time ++ ' ' :: LogLine.plain record.level record.logger record.template)

def finish : Ending → IO UInt32
  | .exit code => return code.toUInt32
  | .stopped (.help name) => do
    (Invocation.helpOn name).forM IO.println
    return 0
  | .stopped (.misuse name misuse) => do
    IO.eprintln (Invocation.usageOf name)
    complainLine (name ++ ": error: ".toList ++ misuse.message)
    return 2
  | .broken refusal => do
    complainLine refusal.message
    return 1
  | .noLogging e => do
    complainLine e.message
    return 1
  | .unprinted e => do
    complainLine e.message
    return 1

end NoteQuery.Program

open NoteQuery in
/-- The program. -/
def main (arguments : List String) : IO UInt32 := do
  let arguments := arguments.map String.toList
  let notes := (Invocation.read arguments).toOption.bind (·.command.notes?)
  let bytes ←
    match notes with
    | some path => Program.readBytes path
    | none => pure (.error .missing)
  let environment := ((← Program.readText? "/proc/self/environ".toList).map
    Program.variablesIn).getD []
  let surroundings : Program.Surroundings :=
    { environment := environment
      settingsFile := ← Program.readText? ".env".toList
      readFile := fun _ => bytes
      ids := ← Program.freshIds
      undecoded := fun _ => false
      encodes := fun _ => true }
  let before ← IO.monoNanosNow
  let run ← IO.lazyPure fun _ => Program.run surroundings arguments
  let after ← IO.monoNanosNow
  let elapsed := Float.ofNat (after - before) / 1e6
  let created := (← Std.Time.Timestamp.now).toNanosecondsSinceUnixEpoch.val / 1000
  let elapsedText := Decimal.fixed 2 elapsed ++ "ms".toList
  run.logged.forM (Program.writeLog run.logSetup created elapsedText)
  match run.complaint with
  | some c => Program.complainLine c
  | none => pure ()
  match run.output with
  | some o => IO.print (String.ofList (o.render elapsed))
  | none => pure ()
  Program.finish run.ending
