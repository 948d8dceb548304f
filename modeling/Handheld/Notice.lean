/-
# Notices

What the machine tells its host while it runs. A notice is the event itself;
its level and its wording are functions of it, so that nothing is formatted
unless somebody reads it.
-/

import Handheld.Audit.Coverage
import Handheld.Digest.Md5
import Handheld.Register.Bank

namespace Handheld

/-- How important a notice is. -/
inductive Level
  | error
  | warn
  | info
  | debug
  | trace
  deriving DecidableEq, Repr

namespace Level

/-- The rank of a level, the most important first. -/
def rank : Level → Nat
  | .error => 1
  | .warn => 2
  | .info => 3
  | .debug => 4
  | .trace => 5

/-- The name of a level. -/
def name : Level → String
  | .error => "ERROR"
  | .warn => "WARN"
  | .info => "INFO"
  | .debug => "DEBUG"
  | .trace => "TRACE"

end Level

/-- An event worth telling. Events on the board carry its timestamp. -/
inductive Notice
  | imageLoaded (kind : RomKind) (image : Array UInt8) (window : Nat)
  | romRead (kind : RomKind) (offset : Nat) (data : UInt8)
  | ramRead (offset : Nat) (data : UInt8)
  | ramWritten (offset : Nat) (data : UInt8)
  | timerRead (ticks : UInt64) (offset : UInt8)
  | registerRead (ticks : UInt64) (offset data : UInt8)
  | bankIgnored (ticks : UInt64) (address : UInt32) (bank : UInt8)
  | romWriteRefused (ticks : UInt64) (region : Region) (address : UInt32)
  | registerStored (ticks : UInt64) (offset data : UInt8)
  | matchChosen (rateMatch : UInt8)
  | rateChanged (ticks : UInt64) (data rateMatch : UInt8)
  | unknownWritten (ticks : UInt64) (offset data : UInt8)
  | readOnlyWritten (ticks : UInt64) (offset : UInt8)
  | writeDropped (ticks : UInt64) (offset data : UInt8)
  | lcdCommand (ticks : UInt64) (command : Lcd.Command)
  | refreshHunt (ticks : UInt64) (rate : UInt8)
  | refreshFrame (ticks : UInt64)
  | renderDone (ticks : UInt64)
  | copyComplete (ticks : UInt64)
  | framePresented (frames : UInt64) (contrast : UInt8)
  | boundary (found : Boundary)
  | discrepancy (found : Discrepancy)
  | complaint (ticks : UInt64) (made : Complaint)
  | interruptEntry (ticks : UInt64)
  | busRead (ticks : UInt64) (bus : Transaction)
  | busWrite (ticks : UInt64) (bus : Transaction)
  | scriptServed (address : UInt32) (data : UInt8)
  | loadingBios
  | loadingCartridge
  | tableSet (known : Nat)
  | running (on : Bool)
  | keysSet (keys : Keys)
  | coverageLine (words : String)

namespace Notice

/-- The level of a notice. -/
def level : Notice → Level
  | .imageLoaded .. | .tableSet .. | .coverageLine .. => .info
  | .timerRead .. | .bankIgnored .. | .romWriteRefused .. | .unknownWritten ..
  | .readOnlyWritten .. | .writeDropped .. => .warn
  | .rateChanged .. | .refreshFrame .. | .renderDone .. | .copyComplete .. => .debug
  | .discrepancy .. => .error
  | .lcdCommand _ command => if command.isHazard then .warn else .debug
  | .complaint _ made =>
    match made with
    | .stackOverflow _ => .error
    | _ => .warn
  | .romRead .. | .ramRead .. | .ramWritten .. | .registerRead .. | .registerStored ..
  | .matchChosen .. | .refreshHunt .. | .framePresented .. | .boundary .. | .interruptEntry ..
  | .busRead .. | .busWrite .. | .scriptServed .. | .loadingBios | .loadingCartridge
  | .running .. | .keysSet .. => .trace

/-- A byte in hexadecimal, as messages show it. -/
def byte (value : UInt8) : String :=
  "0x" ++ Digits.hex 2 value.toNat

/-- A bus address in hexadecimal, as messages show it. -/
def line (address : UInt32) : String :=
  "0x" ++ Digits.hex 6 address.toNat

/-- The digest of an image in hexadecimal. -/
def digest (image : Array UInt8) : String :=
  String.join ((Md5.digest image).toList.map fun value => Digits.hex 2 value.toNat)

/-- The wording of a notice. -/
def text : Notice → String
  | .imageLoaded kind image window =>
    s!"{Enumeration.name kind} loaded: {image.size} bytes, window 0x{Digits.hex 1 window}, " ++
      s!"md5 {digest image}"
  | .romRead kind offset data =>
    s!"< Peek {Enumeration.name kind} 0x{Digits.hex 6 offset} -> {byte data}"
  | .ramRead offset data => s!"< Peek RAM 0x{Digits.hex 3 offset} -> {byte data}"
  | .ramWritten offset data => s!"> Poke RAM 0x{Digits.hex 3 offset} = {byte data}"
  | .timerRead ticks offset =>
    s!"[{ticks}] Reading hardware register {byte offset} which is a timer register " ++
      "and is not implemented"
  | .registerRead ticks offset data =>
    s!"[{ticks}] < Peek {Register.label offset} ({byte offset}) -> {byte data}"
  | .bankIgnored ticks address bank =>
    s!"[{ticks}] Code bank not implemented {line address}, CB {byte bank}"
  | .romWriteRefused ticks region address =>
    s!"[{ticks}] Program trying to write to {Enumeration.name region} at {line address}"
  | .registerStored ticks offset data =>
    s!"[{ticks}] > Poke {Register.label offset} ({byte offset}) = {byte data}"
  | .matchChosen rateMatch => s!"PRC rate match -> {byte rateMatch}"
  | .rateChanged ticks data rateMatch =>
    s!"[{ticks}] PRC_RATE = {byte data}, rate match {byte rateMatch}"
  | .unknownWritten ticks offset data =>
    s!"[{ticks}] Writing hardware register Unknown ({byte offset}) = {byte data}"
  | .readOnlyWritten ticks offset =>
    s!"[{ticks}] Write to read-only {Register.label offset} dropped"
  | .writeDropped ticks offset data =>
    s!"[{ticks}] Write to unrecognized register {byte offset} = {byte data} dropped"
  | .lcdCommand ticks command => s!"[{ticks}] LCD_CTRL: {command.text}"
  | .refreshHunt ticks rate => s!"[{ticks}] PRC hunt, rate {byte rate}"
  | .refreshFrame ticks => s!"[{ticks}] PRC frame"
  | .renderDone ticks => s!"[{ticks}] Render done {ticks / 2}"
  | .copyComplete ticks => s!"[{ticks}] Copy complete {ticks / 2}"
  | .framePresented frames contrast => s!"frame {frames} presented, contrast {byte contrast}"
  | .boundary found =>
    s!"[{found.timestamp}] boundary 0x{Digits.hex 3 found.opcode.toNat} " ++
      s!"after {found.cycles} cycles"
  | .discrepancy found => s!"[{found.timestamp}] ** {found.text} **"
  | .complaint ticks made => s!"[{ticks}] ** {made.text}, timestamp: {ticks} **"
  | .interruptEntry ticks => s!"[{ticks}] Interrupt entry"
  | .busRead ticks bus => s!"[{ticks}] < Peek {bus.text}"
  | .busWrite ticks bus => s!"[{ticks}] > Poke {bus.text}"
  | .scriptServed address data => s!"scripted core < {line address} = {byte data}"
  | .loadingBios => "Load bios"
  | .loadingCartridge => "Load cart"
  | .tableSet known => s!"Cycle table: {known} known opcodes"
  | .running on => s!"Running: {on}"
  | .keysSet keys => "Keys: " ++ Digits.padded 2 8 keys.bits.toNat
  | .coverageLine words => words

/-- A notice with its level in front. -/
def render (notice : Notice) : String :=
  s!"{notice.level.name} {notice.text}"

end Notice

/-- Notices up to a level, the latest last. No level keeps none. -/
structure Journal where
  limit : Option Level
  entries : Array Notice

namespace Journal

/-- An empty journal. -/
def opened (limit : Option Level) : Journal :=
  ⟨limit, #[]⟩

/-- Whether the journal keeps a notice. -/
def keeps (journal : Journal) (notice : Notice) : Bool :=
  match journal.limit with
  | none => false
  | some limit => notice.level.rank ≤ limit.rank

/-- Enter notices in order. -/
def add (journal : Journal) (notices : List Notice) : Journal :=
  { journal with entries := journal.entries ++ notices.filter journal.keeps }

end Journal

end Handheld
