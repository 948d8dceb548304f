/-
# What a step says

The notices of a step, in the order in which its events happened.
-/

import Handheld.Machine.Step

namespace Handheld

/-- The notices of a bus transaction at a timestamp. -/
def Transfer.notices (transfer : Transfer) (ticks : UInt64) : List Notice :=
  match transfer with
  | .none => []
  | .read bus fetch served => fetch.notices ticks ++ .busRead ticks bus :: served
  | .write bus store => .busWrite ticks bus :: store.notices ticks

/-- The notices of an optional report. -/
def noticesOf {α : Type} (tell : α → List Notice) (report : Option α) : List Notice :=
  (report.map tell).getD []

/-- The notices of a step. -/
def StepReport.notices (report : StepReport) : List Notice :=
  let ticks := report.timestamp
  report.edges.notices ticks ++
    noticesOf Presentation.notices report.rendered ++
    noticesOf (RefreshTick.notices · ticks report.rate) report.refresh ++
    noticesOf Presentation.notices report.refreshed ++
    report.complaints.map (.complaint ticks) ++
    noticesOf Boundary.notices report.boundary ++
    (if report.interruptEntry then [.interruptEntry ticks] else []) ++
    report.transfer.notices ticks

/-- Enter the notices of a step into a journal. -/
def Journal.addStep (journal : Journal) (report : Option StepReport) : Journal :=
  match journal.limit with
  | none => journal
  | some _ => journal.add (noticesOf StepReport.notices report)

end Handheld
