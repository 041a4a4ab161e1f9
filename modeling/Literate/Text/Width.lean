import Literate.Unicode.Combining
import Literate.Unicode.Unassigned
import Literate.Unicode.Wide
import Literate.Text.Basic

namespace Literate

open Unicode

/-- Combining characters take no column, wide ones and unassigned code points two. -/
def columns (c : Char) : Nat :=
  if isCombining c then 0 else if isWide c || isUnassigned c then 2 else 1

def Text.width : Text → Nat
  | [] => 0
  | c :: rest => columns c + Text.width rest

end Literate
