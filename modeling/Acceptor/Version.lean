/-!
# The version of the library
-/

namespace Acceptor

def version : String := "0.1.0"

end Acceptor
