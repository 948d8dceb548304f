/-
# Hardware registers by offset

The register window has 256 offsets. Some carry a name, some exist without a
known function, a few are timers that cannot be read back, and the rest are
absent. A register's role says how the bank serves it.
-/

namespace Handheld.Register

/-- The interrupt latch that the board itself raises. -/
def irqAct1 : UInt8 := 0x27

/-- The named registers. -/
def names : List (UInt8 × String) :=
  [ (0x00, "SYS_CTRL1"), (0x01, "SYS_CTRL2"), (0x02, "SYS_CTRL3"),
    (0x08, "SEC_CTRL"), (0x09, "SEC_CNT_LO"), (0x0A, "SEC_CNT_MID"), (0x0B, "SEC_CNT_HI"),
    (0x10, "SYS_BATT"), (0x19, "TMR1_OSC"),
    (0x20, "IRQ_PRI1"), (0x21, "IRQ_PRI2"), (0x22, "IRQ_PRI3"),
    (0x23, "IRQ_ENA1"), (0x24, "IRQ_ENA2"), (0x25, "IRQ_ENA3"), (0x26, "IRQ_ENA4"),
    (0x27, "IRQ_ACT1"), (0x28, "IRQ_ACT2"), (0x29, "IRQ_ACT3"), (0x2A, "IRQ_ACT4"),
    (0x40, "TMR256_CTRL"), (0x52, "KEY_PAD"), (0x53, "CART_BUS"),
    (0x60, "IO_DIR"), (0x61, "IO_DATA"), (0x70, "AUD_CTRL"), (0x71, "AUD_VOL"),
    (0x80, "PRC_MODE"), (0x81, "PRC_RATE"),
    (0x82, "PRC_MAP_LO"), (0x83, "PRC_MAP_MID"), (0x84, "PRC_MAP_HI"),
    (0x85, "PRC_SCROLL_Y"), (0x86, "PRC_SCROLL_X"),
    (0x87, "PRC_SPR_LO"), (0x88, "PRC_SPR_MID"), (0x89, "PRC_SPR_HI"),
    (0xFE, "LCD_CTRL"), (0xFF, "LCD_DATA") ]

/-- The name of the register at an offset. -/
def name? (offset : UInt8) : Option String :=
  names.lookup offset

/-- The name of a register as messages show it. -/
def label (offset : UInt8) : String :=
  (name? offset).getD "???"

/-- Registers that the hardware has and whose function is not known. -/
def unknown : List UInt8 :=
  [0x44, 0x45, 0x46, 0x47, 0x50, 0x51, 0x54, 0x55, 0x62]

/-- Timer registers, whose read-back is not modelled. -/
def timers : List UInt8 :=
  [0x36, 0x37, 0x3E, 0x3F, 0x41, 0x4E, 0x4F]

/-- Whether the function of a register is not known. -/
def isUnknown (offset : UInt8) : Bool :=
  unknown.contains offset

/-- Whether a register is a timer. -/
def isTimer (offset : UInt8) : Bool :=
  timers.contains offset

/-- How the bank serves a register. -/
inductive Role
  | secondsControl
  | secondsByte (index : Nat)
  | interruptLatch
  | keyPad
  | cartridgeBus
  | refreshMode
  | refreshRate
  | mapByte (index : Nat)
  | lcdControl
  /-- Named, and nothing but a stored byte. -/
  | plain
  /-- On the hardware without a known function; stored as it is. -/
  | unknown
  | absent
  deriving DecidableEq, Repr

/-- The role of the register at an offset. -/
def role (offset : UInt8) : Role :=
  match offset.toNat with
  | 0x08 => .secondsControl
  | 0x09 => .secondsByte 0
  | 0x0A => .secondsByte 1
  | 0x0B => .secondsByte 2
  | 0x27 => .interruptLatch
  | 0x28 => .interruptLatch
  | 0x29 => .interruptLatch
  | 0x2A => .interruptLatch
  | 0x52 => .keyPad
  | 0x53 => .cartridgeBus
  | 0x80 => .refreshMode
  | 0x81 => .refreshRate
  | 0x82 => .mapByte 0
  | 0x83 => .mapByte 1
  | 0x84 => .mapByte 2
  | 0xFE => .lcdControl
  | _ =>
    if (name? offset).isSome then .plain
    else if isUnknown offset then .unknown
    else .absent

end Handheld.Register
