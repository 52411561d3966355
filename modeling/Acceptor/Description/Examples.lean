import Acceptor.Description.Format

/-!
# Two example descriptions
-/

namespace Acceptor.Examples

/-- The words (ab)*; state 2 is dead. -/
def abStar : String := "0\n0 a 1\n0 b 2\n1 a 2\n1 b 0\n2 a 2\n2 b 2\n"

/-- The words ab*a; state 4 is dead. -/
def abStarA : String :=
  "2\n0 a 1\n0 b 4\n1 a 2\n1 b 3\n2 a 4\n2 b 4\n3 a 2\n3 b 3\n4 a 4\n4 b 4\n"

end Acceptor.Examples
