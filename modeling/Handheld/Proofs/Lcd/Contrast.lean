/-
# The contrast protocol

A control byte after a set-contrast command is the contrast, and every other one is a
command. Set-contrast commands may follow each other, as the byte of the command is a
contrast like any other: of a row of such bytes the first is the command, the second its
contrast, the third a command again. So it is the length of the row just before a byte
that tells what the byte means, and a byte is a contrast if that length is odd.

The controller keeps one bit of this, in a register bank where other things happen between
two control bytes.
-/

import Mathlib.Algebra.Ring.Parity
import Mathlib.Data.List.DropRight
import Handheld.Proofs.Register.Writes

namespace Handheld

open Checked

namespace Lcd

/-- The byte of the set-contrast command. -/
def setContrastByte : UInt8 := 0x81

/-- How many set-contrast bytes a row of control bytes ends with. -/
def setRun (bytes : List UInt8) : Nat :=
  (bytes.rtakeWhile (· = setContrastByte)).length

/-- The contrasts among control bytes, which are the bytes that come after an odd number of
set-contrast bytes. -/
def contrasts (bytes : List UInt8) : List UInt8 :=
  bytes |> toldInTurn fun earlier data =>
    if Odd (setRun earlier) then some (data &&& 0x3F) else none

/-- What a control byte means by those before it. -/
def classify (earlier : List UInt8) (data : UInt8) : Command :=
  if Odd (setRun earlier) then .contrastValue (data &&& 0x3F) else Command.decode data

variable {bytes : List UInt8} {commands : List Command}

theorem setRun_concat (bytes : List UInt8) (data : UInt8) :
    setRun (bytes ++ [data]) = if data = setContrastByte then setRun bytes + 1 else 0 := by
  rw [setRun, List.rtakeWhile_concat]
  split <;> simp_all [setRun]

theorem contrasts_concat (bytes : List UInt8) (data : UInt8) :
    contrasts (bytes ++ [data]) =
      contrasts bytes ++ if Odd (setRun bytes) then [data &&& 0x3F] else [] := by
  rw [contrasts, toldInTurn_concat]
  split <;> rfl

namespace Command

theorem decode_eq_setContrast_iff (data : UInt8) : decode data = .setContrast ↔ data = 0x81 := by
  constructor
  · let Right (command : Command) : Prop := command = .setContrast → data = 0x81
    show Right (decode data)
    unfold decode
    -- Six ranges come before the byte in question.
    iterate 6 refine iteInduction (fun _ => nofun) fun _ => ?_
    refine iteInduction (motive := Right) (fun isByte _ => isByte) fun _ => ?_
    repeat refine iteInduction (fun _ => nofun) fun _ => ?_
    exact nofun
  · rintro rfl
    rfl

theorem decode_ne_contrastValue (data value : UInt8) : decode data ≠ .contrastValue value := by
  let Right (command : Command) : Prop := command ≠ .contrastValue value
  show Right (decode data)
  unfold decode
  repeat refine iteInduction (fun _ => nofun) fun _ => ?_
  exact nofun

end Command

/-- The byte after an odd number of set-contrast bytes is a contrast, and no other is. -/
theorem classify_eq_contrastValue_iff (earlier : List UInt8) (data value : UInt8) :
    classify earlier data = .contrastValue value ↔
      Odd (setRun earlier) ∧ value = data &&& 0x3F := by
  unfold classify
  split
  · simp_all [eq_comm]
  · simp_all [Command.decode_ne_contrastValue]

/-- Commands that give the meaning of control bytes, one for each. -/
structure Classified (bytes : List UInt8) (commands : List Command) : Prop where
  length : commands.length = bytes.length
  meaning : ∀ i byte, bytes[i]? = some byte →
    commands[i]? = some (classify (bytes.take i) byte)

theorem classified_nil : Classified [] [] :=
  ⟨rfl, nofun⟩

theorem Classified.concat (classified : Classified bytes commands) (data : UInt8) :
    Classified (bytes ++ [data]) (commands ++ [classify bytes data]) := by
  constructor
  · simp [classified.length]
  · intro i byte found
    by_cases before : i < bytes.length
    · rw [List.getElem?_append_left before] at found
      rw [List.getElem?_append_left (classified.length ▸ before),
        List.take_append_of_le_length before.le]
      exact classified.meaning i byte found
    · obtain ⟨inside, -⟩ := List.getElem?_eq_some_iff.mp found
      have last : i = bytes.length := by
        rw [List.length_append, List.length_singleton] at inside
        omega
      subst last
      rw [List.getElem?_concat_length, Option.some.injEq] at found
      rw [← classified.length, List.getElem?_concat_length, classified.length, List.take_left,
        found]

/-- The controller knows of the control bytes what it needs: whether the next one is a
contrast, and the last contrast that there was. -/
structure Controller.Tracks (controller : Controller) (bytes : List UInt8) : Prop where
  pending : controller.contrastPending = true ↔ Odd (setRun bytes)
  contrast : controller.contrast = (contrasts bytes).getLastD 0x20

namespace Controller

variable {controller : Controller}

theorem tracks_initial : initial.Tracks [] where
  pending := by decide
  contrast := rfl

/-- One control byte. -/
theorem Tracks.command (tracks : controller.Tracks bytes) (data : UInt8) :
    (controller.command data).1 = classify bytes data ∧
      (controller.command data).2.Tracks (bytes ++ [data]) := by
  unfold Controller.command classify
  by_cases pending : controller.contrastPending = true
  · have odd := tracks.pending.mp pending
    rw [if_pos pending, if_pos odd]
    refine ⟨rfl, ?_, ?_⟩
    · rw [setRun_concat]
      split
      · simp [odd, parity_simps]
      · simp
    · rw [contrasts_concat, if_pos odd, List.getLastD_concat]
  · have even := mt tracks.pending.mpr pending
    rw [if_neg pending, if_neg even]
    refine ⟨rfl, ?_, ?_⟩
    · rw [decide_eq_true_iff, Command.decode_eq_setContrast_iff, setRun_concat]
      split
      · simp_all [setContrastByte, parity_simps]
      · simp_all [setContrastByte]
    · rw [contrasts_concat, if_neg even, List.append_nil]
      exact tracks.contrast

end Controller

end Lcd

namespace RegisterBank

/-- Carry out an operation, with the LCD command that it reports. -/
def respond (bank : RegisterBank) : Operation → Checked (Option Lcd.Command × RegisterBank)
  | .write offset data => (bank.write offset data).map fun done => (done.1.lcd, done.2)
  | operation => (bank.perform operation).map fun after => (none, after)

/-- Carry out operations, the first one first, and collect the LCD commands. -/
def respondAll (bank : RegisterBank) (operations : List Operation) :
    Checked (List Lcd.Command × RegisterBank) :=
  operations.foldlM
    (fun done operation => (done.2.respond operation).map fun next =>
      (done.1 ++ next.1.toList, next.2))
    ([], bank)

/-- The bytes written to the LCD control register. -/
def Operation.controlBytes (operations : List Operation) : List UInt8 :=
  operations.filterMap (written 0xFE)

open Operation (controlBytes)

variable {bank after : RegisterBank} {operation : Operation} {command : Option Lcd.Command}

theorem controlBytes_concat (earlier : List Operation) (operation : Operation) :
    controlBytes (earlier ++ [operation]) =
      controlBytes earlier ++ (operation.written 0xFE).toList := by
  unfold controlBytes
  rw [List.filterMap_append]
  cases told : operation.written 0xFE with
  | none => rw [List.filterMap_cons_none told, List.filterMap_nil, Option.toList_none]
  | some data => rw [List.filterMap_cons_some told, List.filterMap_nil, Option.toList_some]

/-- Responding is performing, and reports are all that is added. -/
theorem perform_eq_respond (bank : RegisterBank) (operation : Operation) :
    bank.perform operation = (bank.respond operation).map Prod.snd := by
  cases operation with
  | write offset data =>
      rw [perform, respond]
      cases bank.write offset data <;> rfl
  | raise offset mask =>
      show _ = ((bank.perform (.raise offset mask)).map _).map _
      cases bank.perform (.raise offset mask) <;> rfl
  | tick onSeconds onRefresh =>
      show _ = ((bank.perform (.tick onSeconds onRefresh)).map _).map _
      cases bank.perform (.tick onSeconds onRefresh) <;> rfl
  | setKeys keys => rfl

/-- The controller hears of control bytes and of nothing else. -/
theorem lcd_of_respond (done : bank.respond operation = .ok (command, after)) :
    command = (operation.written 0xFE).map (fun data => (bank.lcd.command data).1) ∧
      after.lcd = (operation.written 0xFE).elim bank.lcd fun data => (bank.lcd.command data).2 := by
  cases operation with
  | write offset data =>
      obtain ⟨⟨report, changed⟩, written, same⟩ := of_map_eq_ok done
      cases same
      obtain ⟨reported, heard⟩ := lcd_of_write written
      rw [reported, heard, Operation.written]
      split <;> exact ⟨rfl, rfl⟩
  | raise offset mask =>
      obtain ⟨changed, performed, same⟩ := of_map_eq_ok done
      cases same
      obtain ⟨⟨raised, _⟩, raising, rfl⟩ := of_map_eq_ok performed
      obtain ⟨cells, -, rfl⟩ := of_raise raising
      exact ⟨rfl, rfl⟩
  | tick onSeconds onRefresh =>
      obtain ⟨changed, performed, same⟩ := of_map_eq_ok done
      cases same
      obtain ⟨⟨tick, _⟩, ticking, rfl⟩ := of_map_eq_ok performed
      obtain ⟨seconds, -, rfl, -⟩ := of_tick ticking
      exact ⟨rfl, rfl⟩
  | setKeys keys =>
      cases done
      exact ⟨rfl, rfl⟩

/-- The bank and the commands so far are those of the operations. -/
structure Obeys (bank : RegisterBank) (commands : List Lcd.Command)
    (operations : List Operation) : Prop where
  follows : bank.Follows operations
  tracks : bank.lcd.Tracks (controlBytes operations)
  classified : Lcd.Classified (controlBytes operations) commands

theorem obeys_initial : initial.Obeys [] [] :=
  ⟨follows_initial, Lcd.Controller.tracks_initial, Lcd.classified_nil⟩

/-- One operation. -/
theorem Obeys.respond {commands : List Lcd.Command} {earlier : List Operation}
    (obeys : bank.Obeys commands earlier) (operation : Operation) :
    ∃ command after, bank.respond operation = .ok (command, after) ∧
      after.Obeys (commands ++ command.toList) (earlier ++ [operation]) := by
  obtain ⟨_, performed, follows⟩ := obeys.follows.perform operation
  rw [perform_eq_respond] at performed
  obtain ⟨⟨command, after⟩, responded, rfl⟩ := of_map_eq_ok performed
  have understood : after.lcd.Tracks (controlBytes (earlier ++ [operation])) ∧
      Lcd.Classified (controlBytes (earlier ++ [operation])) (commands ++ command.toList) := by
    obtain ⟨reported, heard⟩ := lcd_of_respond responded
    rw [controlBytes_concat, reported, heard]
    cases operation.written 0xFE with
    | none =>
        simp only [Option.map_none, Option.elim_none, Option.toList_none, List.append_nil]
        exact ⟨obeys.tracks, obeys.classified⟩
    | some data =>
        simp only [Option.map_some, Option.elim_some, Option.toList_some]
        obtain ⟨meant, tracks⟩ := obeys.tracks.command data
        rw [meant]
        exact ⟨tracks, obeys.classified.concat data⟩
  exact ⟨command, after, responded, follows, understood.1, understood.2⟩

theorem respondAll_obeys (operations : List Operation) :
    ∃ commands bank, initial.respondAll operations = .ok (commands, bank) ∧
      initial.performAll operations = .ok bank ∧ bank.Obeys commands operations := by
  induction operations using List.reverseRecOn with
  | nil => exact ⟨[], initial, rfl, rfl, obeys_initial⟩
  | append_singleton earlier operation ih =>
      obtain ⟨commands, middle, responded, performed, obeys⟩ := ih
      obtain ⟨command, after, last, stillObeys⟩ := obeys.respond operation
      refine ⟨_, after, ?_, ?_, stillObeys⟩
      · unfold respondAll at responded ⊢
        rw [List.foldlM_append, responded]
        simp [last, Except.map]
      · unfold performAll at performed ⊢
        rw [List.foldlM_append, performed]
        simp [perform_eq_respond, last, Except.map]

/-- Whatever else is done with a bank from power-on, each byte written to the LCD control
register is reported as a command. It is a contrast exactly if an odd number of
set-contrast bytes came just before it, and then has the low six bits of the byte; else it
is what the byte stands for. The contrast is the last one there was, or that of
power-on. -/
theorem contrast_protocol (operations : List Operation) :
    ∃ commands bank, initial.respondAll operations = .ok (commands, bank) ∧
      initial.performAll operations = .ok bank ∧
      commands.length = (controlBytes operations).length ∧
      (∀ i byte, (controlBytes operations)[i]? = some byte →
        ∃ command, commands[i]? = some command ∧
          ((∃ value, command = .contrastValue value) ↔
            Odd (Lcd.setRun ((controlBytes operations).take i))) ∧
          (Odd (Lcd.setRun ((controlBytes operations).take i)) →
            command = .contrastValue (byte &&& 0x3F)) ∧
          (¬ Odd (Lcd.setRun ((controlBytes operations).take i)) →
            command = Lcd.Command.decode byte)) ∧
      bank.lcd.contrast = (Lcd.contrasts (controlBytes operations)).getLastD 0x20 := by
  obtain ⟨commands, bank, responded, performed, obeys⟩ := respondAll_obeys operations
  refine ⟨commands, bank, responded, performed, obeys.classified.length, ?_,
    obeys.tracks.contrast⟩
  intro i byte found
  refine ⟨_, obeys.classified.meaning i byte found, ?_, fun odd => if_pos odd,
    fun even => if_neg even⟩
  simp only [Lcd.classify_eq_contrastValue_iff, exists_and_left, exists_eq, and_true]

end RegisterBank

end Handheld
