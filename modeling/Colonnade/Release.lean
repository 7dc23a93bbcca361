/-
Which release of the library this is.

Chain: told across the boundary and by the command line.
-/

namespace Colonnade

/-- The release, as a text. -/
def release : String := "0.3.0"

end Colonnade
