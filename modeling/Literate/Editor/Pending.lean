namespace Literate

structure Pending where
  start : Nat
  removed : Nat
  added : Nat
deriving DecidableEq, Repr

namespace Pending

def stop (p : Pending) : Nat := p.start + p.added

def merge (p later : Pending) : Pending :=
  let start := min p.start later.start
  ⟨start, p.removed + later.removed, max p.stop later.stop - start⟩

def join : Option Pending → Pending → Pending
  | none, later => later
  | some p, later => p.merge later

end Pending

end Literate
