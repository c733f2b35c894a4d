import Shaping.CommandLine.Help
import Shaping.Storage

/-!
# The program

Everything is decided elsewhere.  Here files are read and written, texts are printed, and a shaper under load
is given the time of the clock.
-/

set_option autoImplicit false

namespace Shaping.Main

/-- Why a file could not be used, from what the system says. -/
def fileError : IO.Error → FileError
  | .noFileOrDirectory .. => .notFound
  | .inappropriateType _ 21 _ => .isDirectory
  | .inappropriateType _ _ _ => .notDirectory
  | .alreadyExists .. => .exists
  | e => .other (toString e)

/-- Try to use a file. -/
def attempt {α : Type} (action : IO α) : IO (Except FileError α) := do
  try return .ok (← action)
  catch e => return .error (fileError e)

/-- The files of the system. -/
def disk : Storage IO where
  read path := do
    match ← attempt (IO.FS.readBinFile path) with
    | .error e => return .error e
    | .ok bytes =>
      match String.fromUTF8? bytes with
      | some text => return .ok text
      | none => return .error .notText
  makeDirectory path := attempt (if path.isEmpty then pure () else IO.FS.createDirAll path)
  write path text := attempt (IO.FS.writeFile path text)

/-- The configuration file that is used if none is named. -/
def usualConfig : IO (Option String) := do
  let base ← match ← IO.getEnv "XDG_CONFIG_HOME" with
    | some directory =>
      if directory.startsWith "/" then pure (some directory) else fromHome
    | none => fromHome
  return base.map (· ++ "/tiershaper/config.json")
where
  /-- The directory for configuration files below that of the user. -/
  fromHome : IO (Option String) := do return (← IO.getEnv "HOME").map (· ++ "/.config")

/-- Let every worker send packets until the time is over. -/
partial def send (options : ShapingOptions) (w : Workload) (stop : Option Nat) (s : Stress.State) :
    IO Shaper := do
  let time ← IO.monoNanosNow
  if stop.any (· ≤ time) then return s.shaper
  else send options w stop (Stress.round options w s (UInt64.ofNat time))

/-- Put a shaper under load, and report. -/
def drive (l : Load) : IO (Except Trap String) := do
  match l with
  | ⟨shaper, options, workload, workers, duration⟩ =>
    let started ← IO.monoNanosNow
    let stop := duration.map fun seconds => started + seconds.toNat * second.toNat
    let shaper ← send options workload stop (Stress.start shaper workers.toNat)
    let elapsed := (← IO.monoNanosNow) - started
    let counters : PerDirection Counters :=
      ⟨shaper.lanes.ingress.counters, shaper.lanes.egress.counters⟩
    return Stress.report shaper ⟨elapsed, counters⟩

/-- Report something that ended before it was done.  The answer is the exit status. -/
def explain : Stop → IO UInt32
  | .failed f => do
    IO.eprint f.report
    return 1
  | .trapped t => do
    IO.eprintln t.message
    return 101

/-- Carry out what was asked for.  The answer is the exit status. -/
def carryOut (i : Invocation) : IO UInt32 := do
  match ← i.perform disk (← usualConfig) with
  | ⟨output, _, result⟩ =>
    IO.print output
    (← IO.getStdout).flush
    match result with
    | .error stop => explain stop
    | .ok none => return 0
    | .ok (some l) =>
      match ← drive l with
      | .error t => explain (.trapped t)
      | .ok text =>
        IO.print text
        return 0

/-- Carry out a command line. -/
def run (words : List String) : IO UInt32 := do
  match Invocation.ofWords words with
  | .ok i => carryOut i
  | .error refusal =>
    if refusal.isRequest then IO.print refusal.text else IO.eprint refusal.text
    return refusal.status

end Shaping.Main

/-- The program. -/
def main (words : List String) : IO UInt32 := Shaping.Main.run words
