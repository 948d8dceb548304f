/-
# Reset

A reset takes a machine back to where a new one stands that has been given the same
images and the same cycle table. Nothing of its history is left on the board: not
what has been read or executed, not what a snapshot has brought, and not a halt.

A core is put into reset, which is all that a board can do to it. For a scripted core
this is enough: what is left of its script, and what it exposes to the display, decide
everything that comes.
-/

import Handheld.Proofs.Machine.Handling
import Handheld.Proofs.Machine.ScriptedPairs

namespace Handheld

open Checked

namespace Rom

variable {image : Array UInt8}

theorem ofImage_empty (kind : RomKind) : ofImage kind #[] = empty kind := by
  simp [ofImage, empty, windowFor, Bitmap.empty]

/-- A boot image that a socket holds can be put into a socket, unless it is empty. -/
theorem bios_eq_ok (filled : image.isEmpty = false) : bios image = .ok (ofImage .bios image) := by
  rw [bios, filled]
  rfl

theorem cartridge_eq_ok (small : image.size ≤ cartridgeLimit) :
    cartridge image = .ok (ofImage .cartridge image) :=
  if_neg (Nat.not_lt.mpr small)

end Rom

namespace Machine

variable {σ : Type} [Core σ]

/-- Put a boot image into its socket. There is no empty one, so in its place the
socket stays as it is. -/
def boot (machine : Machine σ) (image : Array UInt8) : Except Error (Machine σ) :=
  if image.isEmpty then .ok machine else machine.loadBios image

/-- A new machine with these images and this table. -/
def prepared (core : σ) (settings : Settings) (bios cartridge : Array UInt8)
    (table : CycleTable) : Except Error (Machine σ) := do
  let machine ← (start core settings).boot bios
  let machine ← machine.loadCartridge cartridge
  .ok (machine.setTable table)

omit [Core σ] in
theorem loadCartridge_eq_ok (machine : Machine σ) {image : Array UInt8}
    (small : image.size ≤ Rom.cartridgeLimit) :
    machine.loadCartridge image =
      .ok { machine with board :=
        { machine.board with cartridge := .ofImage .cartridge image } } := by
  rw [loadCartridge, Rom.cartridge_eq_ok small]
  rfl

/-- Images that are accepted are on the board of the prepared machine, and nothing else
is different from a new one. -/
theorem prepared_eq_ok (core : σ) (settings : Settings) (bios : Array UInt8)
    {cartridge : Array UInt8} (small : cartridge.size ≤ Rom.cartridgeLimit) (table : CycleTable) :
    ∃ fresh, prepared core settings bios cartridge table = .ok fresh ∧
      fresh.board =
        { Board.initial settings with
          bios := .ofImage .bios bios
          cartridge := .ofImage .cartridge cartridge
          audit := .initial table settings.stackLimit } := by
  have board : (start core settings).board = Board.initial settings := board_holdReset _
  have boots : ∃ booted, (start core settings).boot bios = .ok booted ∧
      booted.board = { Board.initial settings with bios := .ofImage .bios bios } := by
    unfold boot
    cases filled : bios.isEmpty with
    | true =>
        rw [Array.isEmpty_iff] at filled
        subst filled
        exact ⟨_, rfl, by rw [board, Rom.ofImage_empty]; rfl⟩
    | false =>
        refine ⟨{ start core settings with board :=
          { (start core settings).board with bios := .ofImage .bios bios } }, ?_, ?_⟩
        · rw [if_neg Bool.false_ne_true, loadBios, Rom.bios_eq_ok filled]
          rfl
        · rw [board]
  obtain ⟨booted, boots, bootedBoard⟩ := boots
  have loads := booted.loadCartridge_eq_ok small
  refine ⟨_, bind_eq_ok.mpr ⟨booted, boots, bind_eq_ok.mpr ⟨_, loads, rfl⟩⟩, ?_⟩
  dsimp only [Machine.setTable, Board.setTable]
  rw [bootedBoard]
  rfl

/-- The board after a reset, by the images in its sockets. -/
theorem board_reset (machine : Machine σ) {bios cartridge : Array UInt8}
    (holdsBios : machine.board.bios.Holds .bios bios)
    (holdsCartridge : machine.board.cartridge.Holds .cartridge cartridge) :
    machine.reset.board =
      { Board.initial machine.settings with
        bios := .ofImage .bios bios
        cartridge := .ofImage .cartridge cartridge
        audit := .initial machine.board.audit.table machine.settings.stackLimit } := by
  rw [reset, board_holdReset]
  dsimp only [Board.powerOn]
  rw [holdsBios.clearTouched_eq, holdsCartridge.clearTouched_eq]

/-- A reset lifts a halt and leaves the settings alone. -/
theorem flags_reset (machine : Machine σ) :
    machine.reset.settings = machine.settings ∧ machine.reset.haltedAt = none :=
  ⟨(flags_holdReset _).1, (flags_holdReset _).2.2⟩

/-- A machine is young again after a reset, so it gets through any number of steps that a
request can ask for. -/
theorem run_reset_eq_ok {machine : Machine σ} (intact : machine.board.Intact) {steps : Nat}
    (short : steps < 2 ^ 32) :
    ∃ overflow after, machine.reset.run steps = .ok (overflow, after) := by
  have aged : machine.reset.board.Aged 0 0 := by
    rw [reset, board_holdReset]
    exact intact.aged_powerOn machine.settings
  have taken : machine.reset.stepsTaken steps ≤ steps := stepsTaken_le steps machine.reset
  have room : 0 + 99 * machine.reset.stepsTaken steps < 2 ^ 62 := by omega
  have young : 0 + machine.reset.stepsTaken steps < 2 ^ 32 := by omega
  obtain ⟨overflow, after, ran, -⟩ := run_aged aged room young
  exact ⟨overflow, after, ran⟩

/-- A scripted core that is held in reset shows nothing and has its clocks low. What is
left of its script, its records and its display stay. -/
theorem core_reset (machine : Machine ScriptedCore) :
    ∃ keys realTimeEdges, machine.reset.core =
      { machine.core with
        current := {}, clock := false, reset := true, realTimeClock := false
        keys, realTimeEdges } := by
  unfold reset holdReset forwardKeys
  dsimp only
  split
  · exact ⟨_, _, rfl⟩
  · exact ⟨_, _, rfl⟩

/-- Machines with the same settings, images and cycle table, whose cores have the same
script left and expose the same to the display. -/
structure SameOutfit (first second : Machine ScriptedCore) : Prop where
  settings : first.settings = second.settings
  bios : first.board.bios.image = second.board.bios.image
  cartridge : first.board.cartridge.image = second.board.cartridge.image
  table : first.board.audit.table = second.board.audit.table
  script : first.core.script = second.core.script
  lcd : first.core.lcd = second.core.lcd
  contrast : first.core.contrast = second.core.contrast

end Machine

/-- The images of a stocked board, as they are held and as they are shown. -/
theorem Board.Stocked.images {board : Board} (stocked : board.Stocked) :
    ∃ bios cartridge, (board.bios.Holds .bios bios ∧ board.bios.image = .ok bios) ∧
      cartridge.size ≤ Rom.cartridgeLimit ∧
      board.cartridge.Holds .cartridge cartridge ∧ board.cartridge.image = .ok cartridge := by
  obtain ⟨bios, biosFits, biosHolds⟩ := stocked.bios
  obtain ⟨cartridge, small, cartridgeHolds⟩ := stocked.accepted
  exact ⟨bios, cartridge, ⟨biosHolds, biosHolds.image_eq (biosFits.trans (by decide))⟩, small,
    cartridgeHolds, cartridgeHolds.image_eq (small.trans_lt (by decide))⟩

namespace Machine

/-- After a reset, machines with the same outfit differ in what their cores have
recorded and in nothing that matters. -/
theorem SameOutfit.paired_reset {first second : Machine ScriptedCore}
    (same : SameOutfit first second) (stocked : first.board.Stocked)
    (otherStocked : second.board.Stocked) :
    Paired (ScriptedCore.Twins Eq first.core.served second.core.served) Eq first.settings
      first.settings first.reset second.reset := by
  obtain ⟨bios, cartridge, ⟨biosHolds, biosImage⟩, -, cartridgeHolds, cartridgeImage⟩ :=
    stocked.images
  obtain ⟨otherBios, otherCartridge, ⟨otherBiosHolds, otherBiosImage⟩, -, otherCartridgeHolds,
    otherCartridgeImage⟩ := otherStocked.images
  have sameBios := same.bios
  have sameCartridge := same.cartridge
  rw [biosImage, otherBiosImage] at sameBios
  rw [cartridgeImage, otherCartridgeImage] at sameCartridge
  cases sameBios
  cases sameCartridge
  obtain ⟨keys, edges, core⟩ := core_reset first
  obtain ⟨otherKeys, otherEdges, otherCore⟩ := core_reset second
  constructor
  · rw [core, otherCore]
    constructor
    · dsimp only
      rw [same.script, List.forall₂_eq_eq_eq]
    · rfl
    · rfl
    · rfl
    · rfl
    · exact same.lcd
    · exact same.contrast
    · exact ⟨[], rfl, rfl⟩
  · rw [board_reset first biosHolds cartridgeHolds,
      board_reset second otherBiosHolds otherCartridgeHolds, same.settings, same.table]
  · rw [first.flags_reset.2, second.flags_reset.2]
  · exact first.flags_reset.1
  · exact second.flags_reset.1.trans same.settings.symm

/-- A reset erases history. Whatever led to a machine, its halt is gone afterwards and
its board is that of a new machine with the same images and table; a scripted core is
back in reset with nothing to show. So two machines with the same outfit take the same
course from there, on the board, in what they report and in what their cores read. -/
theorem reset_erases_history :
    (∀ {σ : Type} [Core σ] {n : Nat} {machine : Machine σ}, History n (.ok machine) →
      machine.reset.haltedAt = none ∧
      ∃ bios cartridge, machine.board.bios.image = .ok bios ∧
        machine.board.cartridge.image = .ok cartridge ∧
        ∀ core : σ, ∃ fresh,
          prepared core machine.settings bios cartridge machine.board.audit.table = .ok fresh ∧
          machine.reset.board = fresh.board) ∧
    (∀ machine : Machine ScriptedCore,
      machine.reset.core.reset = true ∧ machine.reset.core.current = {} ∧
        machine.reset.core.clock = false ∧ machine.reset.core.realTimeClock = false) ∧
    ∀ {m n : Nat} {first second : Machine ScriptedCore}, History m (.ok first) →
      History n (.ok second) → SameOutfit first second → ∀ steps < 2 ^ 32,
        ∃ overflow after otherAfter recent,
          first.reset.run steps = .ok (overflow, after) ∧
          second.reset.run steps = .ok (overflow, otherAfter) ∧
          after.board = otherAfter.board ∧
          after.core.reads = first.core.reads ++ recent ∧
          otherAfter.core.reads = second.core.reads ++ recent := by
  refine ⟨?_, ?_, ?_⟩
  · intro σ _ n machine history
    obtain ⟨bios, cartridge, ⟨biosHolds, biosImage⟩, small, cartridgeHolds, cartridgeImage⟩ :=
      (history.stocked machine rfl).images
    refine ⟨machine.flags_reset.2, bios, cartridge, biosImage, cartridgeImage, fun core => ?_⟩
    obtain ⟨fresh, made, board⟩ :=
      prepared_eq_ok core machine.settings bios small machine.board.audit.table
    exact ⟨fresh, made, (board_reset machine biosHolds cartridgeHolds).trans board.symm⟩
  · intro machine
    obtain ⟨keys, edges, core⟩ := core_reset machine
    rw [core]
    exact ⟨rfl, rfl, rfl, rfl⟩
  · intro m n first second history otherHistory same steps short
    have stocked := history.stocked first rfl
    have otherStocked := otherHistory.stocked second rfl
    obtain ⟨overflow, after, ran⟩ := run_reset_eq_ok stocked.toIntact short
    obtain ⟨otherOverflow, otherAfter, otherRan⟩ := run_reset_eq_ok otherStocked.toIntact short
    have pairing : Core.Pairing Eq
        (ScriptedCore.Twins Eq first.core.served second.core.served) :=
      ScriptedCore.Twins.pairing rfl fun same => congrArg (·.pins.address) same
    obtain ⟨sameOverflow, together⟩ :=
      (run_agree pairing (Board.pairing_eq _) (same.paired_reset stocked otherStocked)
        steps).of_ok _ _ ran otherRan
    cases sameOverflow
    obtain ⟨recent, reads, otherReads⟩ := together.core.reads
    exact ⟨overflow, after, otherAfter, recent, ran, otherRan, together.board, reads, otherReads⟩

/-- What a machine keeps when it restores a snapshot. -/
theorem sameOutfit_restored (host : Machine ScriptedCore) {saved : Board}
    (table : saved.audit.table = host.board.audit.table) :
    SameOutfit host { host with board := saved.carriedTo host.board } :=
  ⟨rfl, rfl, rfl, table.symm, rfl, rfl, rfl⟩

/-- A machine with a read in its script has restored a snapshot of one that had another
cartridge and held a key. After a reset this is forgotten. -/
theorem reset_erases_history_restored :
    ∃ (unused restored : Machine ScriptedCore) (n : Nat),
      History 0 (.ok unused) ∧ History n (.ok restored) ∧ SameOutfit unused restored ∧
      restored.board.registers.keys ≠ unused.board.registers.keys ∧
      ∃ overflow after otherAfter recent,
        unused.reset.run 1000 = .ok (overflow, after) ∧
        restored.reset.run 1000 = .ok (overflow, otherAfter) ∧
        after.board = otherAfter.board ∧
        after.core.reads = unused.core.reads ++ recent ∧
        otherAfter.core.reads = restored.core.reads ++ recent := by
  let unused : Machine ScriptedCore := start { script := ScriptedCore.read 0x2100 } {}
  have unusedPast : History 0 (.ok unused) := .start _ _
  have unusedBoard : unused.board = Board.initial {} := board_holdReset _
  let loaded : Machine ScriptedCore := { start {} {} with board :=
    { (start ({} : ScriptedCore) {}).board with
      cartridge := .ofImage .cartridge (.replicate 128 7) } }
  have loadedPast : History 1 (.ok loaded) := by
    have loading := History.act (.loadCartridge (.replicate 128 7)) trivial
      (.start ({} : ScriptedCore) {})
    rwa [perform, loadCartridge_eq_ok _ (by rw [Array.size_replicate]; decide)] at loading
  have heldPast : History 2 (.ok (loaded.setKeys ⟨0x01⟩)) := .act (.setKeys _) trivial loadedPast
  have heldBoard : (loaded.setKeys ⟨0x01⟩).board = loaded.board.setKeys ⟨0x01⟩ := board_setKeys _ _
  have restoredPast := History.restore unusedPast heldPast (isSnapshot_snapshot _)
  rw [restore_eq_carriedTo (heldPast.stocked _ rfl).toIntact (isSnapshot_snapshot _), accept]
    at restoredPast
  have table : (loaded.setKeys ⟨0x01⟩).board.audit.table = unused.board.audit.table := by
    rw [heldBoard, unusedBoard]
    show (start ({} : ScriptedCore) {}).board.audit.table = _
    rw [start, board_holdReset]
  have same := unused.sameOutfit_restored table
  refine ⟨unused, _, _, unusedPast, restoredPast, same, ?_,
    reset_erases_history.2.2 unusedPast restoredPast same 1000 (by decide)⟩
  rw [unusedBoard, heldBoard]
  decide

end Machine

end Handheld
