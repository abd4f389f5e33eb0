import ChangeImpact.CommandLine.Layout
import ChangeImpact.Disk.Image
import Std.Time.Zoned

/-!
# Main

The program: takes an image of the files that a command line can reach, runs the command line on
it, shows what it shows and carries out its changes.
-/

namespace ChangeImpact.CommandLine

def locationOf (path : String) : List String :=
  Path.climbAll true ((Path.segments path).filter fun s => !Path.isDot s)

def pathOf (location : List String) : String := "/" ++ String.intercalate "/" location

/-- The node at an absolute path; what cannot be read is left out. -/
partial def readNode (path : String) : IO (Option Node) := do
  let here ← IO.currentDir
  try
    match (← (here / path).symlinkMetadata).type with
    | .dir =>
      let listed ← (here / path).readDir
      let mut entries : Entries := []
      for e in listed do
        if let some node ← readNode (Path.join path e.fileName) then
          entries := entries.set e.fileName node
      return some (.dir entries)
    | .file => return some (.file (← IO.FS.readBinFile path))
    | .symlink => return some (.link (← IO.FS.realPath path).toString)
    | .other => return none
  catch _ => return none

/-- Takes a part of the system's files into the image unless it is there already. -/
def take (d : Disk) (path : String) : IO Disk := do
  let location := locationOf (Path.join (pathOf d.here) path)
  if (d.at? location).isSome then return d
  match ← readNode (pathOf location) with
  | some node => return { d with top := d.top.graft location node }
  | none => return d

/-- A place for a file that does not exist yet. -/
def takeAbove (d : Disk) (path : String) : IO Disk := do
  let above := pathOf (locationOf (Path.join (pathOf d.here) path)).dropLast
  let here ← IO.currentDir
  if ← (here / above).isDir then
    let location := locationOf above
    if (d.at? location).isSome then return d
    return { d with top := d.top.graft location (.dir []) }
  return d

def home : IO String := do
  match ← IO.getEnv "SAFECHANGE_HOME" with
  | some path => return Path.tidy path
  | none => return Path.child ((← IO.getEnv "HOME").getD "/") ".safechange"

/-- An image of the working directory, the program's own files, and all that the command line or
the settings name. -/
def openConsole (words : List String) : IO Console := do
  let here := (← IO.currentDir).toString
  let locations : Locations := { home := ← home }
  let mut d : Disk := { here := locationOf here, hereShown := here }
  for path in [here, locations.home] do
    d ← take d path
  for path in locations.home :: words do
    d ← takeAbove d path
    d ← take d path
  if let (.ok settings, _) := Settings.load locations d none then
    d ← take d settings.root
  return { disk := d, locations }

def carryOut : Change → IO Unit
  | .makeDirectory location => IO.FS.createDirAll (pathOf location)
  | .write location bytes => IO.FS.writeBinFile (pathOf location) bytes
  | .remove location => IO.FS.removeFile (pathOf location)

def currentMoment : IO Moment := do
  let now ← Std.Time.PlainDateTime.now
  return {
    year := now.date.year.toNat
    month := now.date.month.toNat
    day := now.date.day.toNat
    hour := now.time.hour.toNat
    minute := now.time.minute.toNat
    second := now.time.second.toNat
    micro := now.time.nanosecond.toNat / 1000 }

def currentCircumstances : IO Circumstances := do
  let millis := (← Std.Time.Timestamp.now).toMillisecondsSinceUnixEpoch.val
  let bytes ← IO.getRandomBytes 16
  let token := String.ofList (bytes.toList.flatMap fun b => Text.hex 2 b.toNat)
  return { now := ← currentMoment, millis, token := fun _ => token }

def display (events : List Event) : IO Unit :=
  events.forM fun e => e.lines.forM fun line => IO.println line

/-- Reads lines until one of them is an answer. -/
partial def readAnswer (input : IO.FS.Stream) : IO (Option Bool) := do
  let line ← input.getLine
  if line.isEmpty then return none
  match answerOf? line false with
  | some answer => return some answer
  | none => readAnswer input

def explain : Ending → IO Unit
  | .exit _ => pure ()
  | .usage => usageLines.forM fun line => IO.eprintln line
  | .rejected message => IO.eprintln ("Error: " ++ message)
  | .failed cause => IO.eprintln ("Error: " ++ cause.message)
  | .unanswered => IO.eprintln "Aborted."

def finish (before after : Console) (ending : Ending) : IO UInt32 := do
  (before.disk.changes after.disk).forM carryOut
  after.log.forM fun e => IO.eprintln e.line
  explain ending
  return UInt32.ofNat ending.code

/-- A command line that asks a question is run again with the answer. -/
def runProgram (words : List String) : IO UInt32 := do
  let before ← openConsole words
  let circumstances ← currentCircumstances
  let (ending, after) := run { circumstances } words before
  display after.events
  match ending with
  | .unanswered =>
    let answer ← readAnswer (← IO.getStdin)
    let (ending, answered) := run { circumstances, answer } words before
    display (answered.events.drop after.events.length)
    finish before answered ending
  | ending =>
    if (Request.parse? words).any (·.command = .help) then
      usageLines.forM fun line => IO.println line
    finish before after ending

end ChangeImpact.CommandLine

def main (words : List String) : IO UInt32 := ChangeImpact.CommandLine.runProgram words
