/-
  What the command line says about itself.
-/

namespace Ls8.CommandLine

/-- How the command is called. -/
def usage : String :=
  "usage: ls8 [-h] [--tick-interval TICK_INTERVAL]\n" ++
  "           [--timer-interval TIMER_INTERVAL] [--trace N]\n" ++
  "           program\n"

/-- The help text. -/
def help : String :=
  usage ++
  "\nLS-8 8-bit virtual machine\n" ++
  "\npositional arguments:\n" ++
  "  program               Path to an .ls8 program (one binary byte per line)\n" ++
  "\noptions:\n" ++
  "  -h, --help            show this help message and exit\n" ++
  "  --tick-interval TICK_INTERVAL\n" ++
  "                        Seconds between instruction ticks (default: 0.001)\n" ++
  "  --timer-interval TIMER_INTERVAL\n" ++
  "                        Seconds between timer interrupts (default: 1.0)\n" ++
  "  --trace N             Keep the last N ticks and print them if the program\n" ++
  "                        faults\n"

/-- What is printed for a usage error. -/
def complaint (message : String) : String := usage ++ "ls8: error: " ++ message ++ "\n"

end Ls8.CommandLine
