import TaskSeries.Text.Blank

/-!
Where the log goes.
-/

namespace TaskSeries.CommandLine

/-- Where the log goes. -/
inductive LogTarget
  | off | stdout | stderr
  | file (path : String)
deriving DecidableEq, Repr

/-- The target that a text names: a number, a word, or else the path of a file. -/
def LogTarget.ofText (s : String) : LogTarget :=
  match s with
  | "0" | "off" => off
  | "1" | "stdout" => stdout
  | "2" | "stderr" => stderr
  | path => file path

end TaskSeries.CommandLine
