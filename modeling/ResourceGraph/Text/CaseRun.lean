/-!
Runs of letters whose other case lies at one distance.
-/

namespace ResourceGraph.Text

/-- Letters that lie a fixed step apart and have their other case at one distance. -/
structure CaseRun where
  first : Nat
  last : Nat
  step : Nat
  offset : Int

/-- The code point of the other case, when the run holds this letter. -/
def CaseRun.apply? (run : CaseRun) (code : Nat) : Option Nat :=
  if run.first ≤ code && code ≤ run.last && (code - run.first) % run.step == 0 then
    some (Int.toNat (code + run.offset))
  else none

end ResourceGraph.Text
