import Easel.CommandLine.Directory
import Easel.CommandLine.Listing

/-!
# The command line

What each command does.
-/

namespace Easel.CommandLine

/-- The script of a command. -/
def Command.script : Command → Script
  | run options => runScript options
  | parse input => parseScript input
  | colors => .print colorsText (.exit 0)
  | formats => .print formatsText (.exit 0)

end Easel.CommandLine
