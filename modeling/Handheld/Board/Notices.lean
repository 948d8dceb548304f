/-
# What the board's reports say

The notices that belong to each report of the board, in the order in which the
events happened.
-/

import Handheld.Board.Basic
import Handheld.Notice

namespace Handheld

/-- The notice of a successful load. -/
def Rom.loadNotices (rom : Rom) (image : Array UInt8) : List Notice :=
  [.imageLoaded rom.kind image rom.window]

/-- The notices of a bus read at a timestamp. -/
def Fetch.notices (fetch : Fetch) (ticks : UInt64) : List Notice :=
  match fetch.origin with
  | .bios kind offset => [.romRead kind offset fetch.data]
  | .ram offset => [.ramRead offset fetch.data]
  | .register offset =>
    (if Register.isTimer offset then [.timerRead ticks offset] else []) ++
      [.registerRead ticks offset fetch.data]
  | .cartridge kind offset =>
    (if Board.needsBank fetch.address fetch.codeBank then
      [.bankIgnored ticks fetch.address fetch.codeBank] else []) ++
      [.romRead kind offset fetch.data]

/-- The notices of the refresh controller on a rate write. -/
def RegisterWrite.matchNotices (write : RegisterWrite) : List Notice :=
  match write.outcome with
  | .rematched => [.matchChosen (RefreshController.matchOf write.data)]
  | _ => []

/-- The notices of a register write at a timestamp. -/
def RegisterWrite.notices (write : RegisterWrite) (ticks : UInt64) : List Notice :=
  let outcome : Notice :=
    match write.outcome with
    | .stored | .acknowledged =>
      .registerStored ticks write.offset (write.stored.getD write.data)
    | .rematched => .rateChanged ticks write.data (RefreshController.matchOf write.data)
    | .unknown => .unknownWritten ticks write.offset write.data
    | .readOnly => .readOnlyWritten ticks write.offset
    | .dropped => .writeDropped ticks write.offset write.data
  write.matchNotices ++ outcome :: (write.lcd.map (.lcdCommand ticks)).toList

/-- The notices of a bus write at a timestamp. -/
def Store.notices (store : Store) (ticks : UInt64) : List Notice :=
  match store with
  | .refused region address => [.romWriteRefused ticks region address]
  | .ram offset data => [.ramWritten offset data]
  | .register write => write.notices ticks

/-- The notices of a register tick at a timestamp, with the rate after it. -/
def RefreshTick.notices (tick : RefreshTick) (ticks : UInt64) (rate : UInt8) : List Notice :=
  match tick with
  | .hunt => [.refreshHunt ticks rate]
  | .frame => [.refreshFrame ticks]
  | .counting | .wrap => []

/-- The notices of risen lines at a timestamp. -/
def Edges.notices (edges : Edges) (ticks : UInt64) : List Notice :=
  (if edges.renderDone then [.renderDone ticks] else []) ++
    (if edges.copyComplete then [.copyComplete ticks] else [])

/-- The notice of a frame. -/
def Presentation.notices (presentation : Presentation) : List Notice :=
  [.framePresented presentation.frames presentation.contrast]

/-- The notices of an instruction boundary. -/
def Boundary.notices (found : Boundary) : List Notice :=
  .boundary found :: (found.discrepancy.map .discrepancy).toList

end Handheld
