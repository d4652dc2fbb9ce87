import Sidescroller.Json.Pretty
import Sidescroller.World.Document
import Sidescroller.World.Tour

/-!
# Command line

Takes the tour of the campus under the name given as the first argument, and prints the journal and
the last view of the world. What the journal shows is chosen by the environment variable
`SIDESCROLLER_LOG`.
-/

open Sidescroller

/-- The filter of the journal. Without a setting, or with one that cannot be read, everything down
to the level of information is shown. -/
def journalFilter (setting : Option String) : Journal.Filter :=
  (setting.bind Journal.Filter.read?).getD ⟨[⟨"", Journal.Severity.info.rank⟩]⟩

/-- Runs the tour and prints what it leaves behind. -/
def main (args : List String) : IO UInt32 := do
  let filter := journalFilter (← IO.getEnv "SIDESCROLLER_LOG")
  match Tour.ofStudent (args.headD "") with
  | .error (.story error) =>
    IO.eprintln error.message
    return 1
  | .error .scrollRange =>
    IO.eprintln "the scroll range of the camera is not ordered"
    return 1
  | .ok progress =>
    for line in filter.lines progress.journal do
      IO.println line
    IO.println (Sidescroller.Json.pretty progress.world.view.toDatum)
    return 0
