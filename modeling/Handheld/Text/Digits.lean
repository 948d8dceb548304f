/-
# Numbers as text

Words are written in lower-case hexadecimal with a least width, and read from
numerals of a base. A numeral may carry one leading plus sign and any number of
leading zeroes, and must stay below a limit.
-/

namespace Handheld.Digits

/-- `n` in `base`, with zeroes in front up to `width` digits. -/
def padded (base width n : Nat) : String :=
  let digits := Nat.toDigits base n
  String.ofList (List.replicate (width - digits.length) '0' ++ digits)

/-- Lower-case hexadecimal with at least `width` digits. -/
def hex (width n : Nat) : String :=
  padded 16 width n

/-- The value of a digit, if the base has it. Letters may have either case. -/
def value? (base : Nat) (c : Char) : Option Nat :=
  let value :=
    if '0' ≤ c ∧ c ≤ '9' then c.toNat - '0'.toNat
    else if 'a' ≤ c ∧ c ≤ 'z' then c.toNat - 'a'.toNat + 10
    else if 'A' ≤ c ∧ c ≤ 'Z' then c.toNat - 'A'.toNat + 10
    else base
  if value < base then some value else none

/-- The number that a non-empty run of digits spells. -/
def natural? (base : Nat) (digits : List Char) : Option Nat :=
  if digits.isEmpty then none
  else digits.foldlM (fun n c => (value? base c).map (base * n + ·)) 0

/-- The number below `limit` that a numeral spells. -/
def below? (limit base : Nat) (numeral : List Char) : Option Nat := do
  let digits := match numeral with
    | '+' :: rest => rest
    | _ => numeral
  let n ← natural? base digits
  if n < limit then some n else none

end Handheld.Digits
