/-
# LCD commands

The panel's display memory lives in the core. On this side a byte written to
the LCD control register is only classified, for diagnostics and to follow the
contrast setting.
-/

import Handheld.Text.Digits

namespace Handheld.Lcd

/-- A classified control byte. -/
inductive Command
  | columnLow (value : UInt8)
  | columnHigh (value : UInt8)
  | startLine (value : UInt8)
  | setContrast
  | contrastValue (value : UInt8)
  | segmentReverse (on : Bool)
  | darkerBias (on : Bool)
  | allPixels (on : Bool)
  | invertPixels (on : Bool)
  | display (on : Bool)
  | page (value : UInt8)
  | scanMirrored (on : Bool)
  | readModifyWriteStart
  | readModifyWriteEnd
  | reset
  | nop
  /-- Documented as able to damage the panel. -/
  | hazard (data : UInt8)
  | unknown (data : UInt8)
  deriving DecidableEq, Repr

namespace Command

/-- Classify a control byte that is not a contrast value. -/
def decode (data : UInt8) : Command :=
  let low := data &&& 0x0F
  let on := data &&& 1 != 0
  if data ≤ 0x0F then .columnLow low
  else if data ≤ 0x1F then .columnHigh low
  else if data ≤ 0x27 then .unknown data
  else if data ≤ 0x2F then .hazard data
  else if data ≤ 0x3F then .unknown data
  else if data ≤ 0x7F then .startLine (data &&& 0x3F)
  else if data = 0x81 then .setContrast
  else if data ≤ 0x9F then .unknown data
  else if data ≤ 0xA1 then .segmentReverse on
  else if data ≤ 0xA3 then .darkerBias on
  else if data ≤ 0xA5 then .allPixels on
  else if data ≤ 0xA7 then .invertPixels on
  else if data ≤ 0xAB then .unknown data
  else if data ≤ 0xAD then .hazard data
  else if data ≤ 0xAF then .display on
  else if data ≤ 0xB8 then .page low
  else if data ≤ 0xBF then .unknown data
  else if data ≤ 0xC7 then .scanMirrored false
  else if data ≤ 0xCF then .scanMirrored true
  else if data ≤ 0xDF then .unknown data
  else if data = 0xE0 then .readModifyWriteStart
  else if data = 0xE2 then .reset
  else if data = 0xE3 then .nop
  else if data = 0xEE then .readModifyWriteEnd
  else .hazard data

/-- Whether a command may damage the panel. -/
def isHazard : Command → Bool
  | .hazard _ => true
  | _ => false

/-- What a command does, in words. -/
def text : Command → String
  | .columnLow value => "Set column low " ++ Digits.hex 1 value.toNat
  | .columnHigh value => "Set column high " ++ Digits.hex 1 value.toNat
  | .startLine value => s!"Display start line {value}"
  | .setContrast => "Set contrast"
  | .contrastValue value => "Contrast 0x" ++ Digits.hex 2 value.toNat
  | .segmentReverse false => "Segment driver direction normal"
  | .segmentReverse true => "Segment driver direction reverse"
  | .darkerBias false => "Normal voltage bias"
  | .darkerBias true => "Darker voltage bias"
  | .allPixels on => "Set all pixels " ++ (if on then "enable" else "disable")
  | .invertPixels on => "Invert all pixels " ++ (if on then "enable" else "disable")
  | .display true => "Display on"
  | .display false => "Display off"
  | .page value => s!"Set page {value}"
  | .scanMirrored false => "Scan direction normal"
  | .scanMirrored true => "Scan direction mirrored"
  | .readModifyWriteStart => "Read modify write start"
  | .readModifyWriteEnd => "Read modify write end"
  | .reset => "Reset display"
  | .nop => "No operation"
  | .hazard data => "Damage 0x" ++ Digits.hex 2 data.toNat
  | .unknown data => "??? 0x" ++ Digits.hex 2 data.toNat

/-- What a command carries. -/
inductive Operand
  | nothing
  | byte (value : UInt8)
  | flag (on : Bool)
  deriving DecidableEq, Repr

/-- A kind of command: its name, and how to build one from its content. -/
inductive Form
  | bare (name : String) (command : Command)
  | ofByte (name : String) (build : UInt8 → Command)
  | ofFlag (name : String) (build : Bool → Command)

/-- The name of a kind of command. -/
def Form.name : Form → String
  | .bare name _ => name
  | .ofByte name _ => name
  | .ofFlag name _ => name

/-- All kinds of command, in the order of their numbers. -/
def forms : List Form :=
  [ .ofByte "ColumnLow" .columnLow,
    .ofByte "ColumnHigh" .columnHigh,
    .ofByte "StartLine" .startLine,
    .bare "SetContrast" .setContrast,
    .ofByte "ContrastValue" .contrastValue,
    .ofFlag "SegmentReverse" .segmentReverse,
    .ofFlag "DarkerBias" .darkerBias,
    .ofFlag "AllPixels" .allPixels,
    .ofFlag "InvertPixels" .invertPixels,
    .ofFlag "Display" .display,
    .ofByte "Page" .page,
    .ofFlag "ScanMirrored" .scanMirrored,
    .bare "ReadModifyWriteStart" .readModifyWriteStart,
    .bare "ReadModifyWriteEnd" .readModifyWriteEnd,
    .bare "Reset" .reset,
    .bare "Nop" .nop,
    .ofByte "Hazard" .hazard,
    .ofByte "Unknown" .unknown ]

/-- The number of a command's kind, its position in `forms`. -/
def number : Command → Nat
  | .columnLow _ => 0
  | .columnHigh _ => 1
  | .startLine _ => 2
  | .setContrast => 3
  | .contrastValue _ => 4
  | .segmentReverse _ => 5
  | .darkerBias _ => 6
  | .allPixels _ => 7
  | .invertPixels _ => 8
  | .display _ => 9
  | .page _ => 10
  | .scanMirrored _ => 11
  | .readModifyWriteStart => 12
  | .readModifyWriteEnd => 13
  | .reset => 14
  | .nop => 15
  | .hazard _ => 16
  | .unknown _ => 17

/-- The content of a command. -/
def operand : Command → Operand
  | .columnLow value => .byte value
  | .columnHigh value => .byte value
  | .startLine value => .byte value
  | .setContrast => .nothing
  | .contrastValue value => .byte value
  | .segmentReverse on => .flag on
  | .darkerBias on => .flag on
  | .allPixels on => .flag on
  | .invertPixels on => .flag on
  | .display on => .flag on
  | .page value => .byte value
  | .scanMirrored on => .flag on
  | .readModifyWriteStart => .nothing
  | .readModifyWriteEnd => .nothing
  | .reset => .nothing
  | .nop => .nothing
  | .hazard data => .byte data
  | .unknown data => .byte data

/-- The name of a command's kind. -/
def name (command : Command) : String :=
  (forms[command.number]?.map Form.name).getD ""

/-- A command as a term: its name, and its content in parentheses. -/
def term (command : Command) : String :=
  match command.operand with
  | .nothing => command.name
  | .byte value => s!"{command.name}({value})"
  | .flag on => s!"{command.name}({on})"

end Command

end Handheld.Lcd
