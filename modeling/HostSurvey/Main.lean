import HostSurvey.Command.Arguments
import HostSurvey.Files.Disk

/-!
# The program

Reads the command line, runs the command on the files of the disk, and prints its transcript.
-/

namespace HostSurvey.Program

def usage : String :=
"Usage: hostfacts derive [OPTIONS] HOST_DIR...
       hostfacts init [PATH]
       hostfacts validate [-c PATH]

Options of derive:
  -c, --config PATH      Path to the configuration file
      --color WHEN       always, never or auto
      --log-level LEVEL  none, error, warn, info, debug or trace
      --json PATH        Output derived facts to a JSON file
      --console          Output derived facts to the console as well
      --error-if-failed  Exit with status 1 if anything failed
"

/-- Prints the transcript of a command and gives the exit status of the program. -/
def report (transcript : Command.Transcript) : IO UInt32 := do
  (← IO.getStdout).putStr transcript.stdout
  (← IO.getStderr).putStr transcript.stderr
  match transcript.exit, transcript.result with
  | some code, _ => return UInt32.ofNat code
  | none, .ok () => return 0
  | none, .error e =>
    (← IO.getStderr).putStrLn s!"Error: {e.message}"
    return 1

def run (arguments : List String) : IO UInt32 := do
  match Command.ofArguments arguments with
  | .error e =>
    (← IO.getStderr).putStr s!"error: {e.message}\n\n{usage}"
    return 2
  | .ok command =>
    let terminal ← (← IO.getStdout).isTty
    report (← command.run Disk.access terminal)

end HostSurvey.Program

/-- The entry point of the program. -/
def main (arguments : List String) : IO UInt32 := HostSurvey.Program.run arguments
