import Acceptor.Command.Flag

/-!
# Help and complaints

The texts are laid out for 80 columns.
-/

namespace Acceptor.Command

def synopsis : String :=
  "usage: pydfa [-h] [-s STRINGS]\n" ++
  "             [--log-level \x7bDEBUG,INFO,WARNING,ERROR,CRITICAL\x7d]\n" ++
  "             [dfa_file]\n"

def helpText : String :=
  synopsis ++
  "\nTest strings against a DFA described in a text file.\n" ++
  "\npositional arguments:\n" ++
  "  dfa_file              DFA description file (prompted for when omitted)\n" ++
  "\noptions:\n" ++
  "  -h, --help            show this help message and exit\n" ++
  "  -s STRINGS, --string STRINGS\n" ++
  "                        String to test; may be repeated. Skips the interactive\n" ++
  "                        prompt.\n" ++
  "  --log-level \x7bDEBUG,INFO,WARNING,ERROR,CRITICAL\x7d\n" ++
  "                        Logging level (default: WARNING)\n"

/-- What is shown for a mistake in the arguments. -/
def Usage.complaint (u : Usage) : String := synopsis ++ "pydfa: error: " ++ u.message ++ "\n"

end Acceptor.Command
