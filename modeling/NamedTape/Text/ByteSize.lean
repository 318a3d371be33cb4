/-!
# Sizes in bytes

A number of bytes in the largest binary unit that is not larger, with three digits.

* The number is first rounded to 53 binary digits and then to the digits that are shown, each time
  to the nearest and a tie to the even neighbour.
* Units after the first carry a point even where no digit follows it.
-/

namespace NamedTape

/-- The whole number nearest to a quotient; of two that are equally near, the even one. -/
def roundHalfEven (num den : Nat) : Nat :=
  let below := num / den
  let twice := 2 * (num % den)
  if twice < den ∨ twice = den ∧ below % 2 = 0 then below else below + 1

/-- A quotient below 1000 with three digits and a point. -/
def threeDigits (num den : Nat) : String :=
  let hundredths := roundHalfEven (100 * num) den
  let tenths := roundHalfEven (10 * num) den
  if hundredths < 1000 then
    s!"{hundredths / 100}.{hundredths / 10 % 10}{hundredths % 10}"
  else if tenths < 1000 then s!"{tenths / 10}.{tenths % 10}"
  else s!"{roundHalfEven num den}."

/-- The units, each 1024 times the one before. -/
def byteUnits : List String := ["bytes", "KiB", "MiB", "GiB", "TiB", "PiB", "EiB"]

/-- A number with all its binary digits after the 53rd rounded off. -/
def roundBinary (n : Nat) : Nat :=
  let step := Nat.pow 2 (n.log2 + 1 - 53)
  roundHalfEven n step * step

/-- The exponent of the unit: one more where the digits would round up to the next unit. -/
def byteUnit (bytes : Nat) : Nat :=
  let exponent := bytes.log2 / 10
  if roundHalfEven (roundBinary bytes) (Nat.pow 1024 exponent) = 1024 then exponent + 1 else exponent

/-- A number of bytes, below 1024 of the last unit, in words. -/
def byteSize (bytes : Nat) : String :=
  let exponent := byteUnit bytes
  let unit := byteUnits.getD exponent ""
  let rounded := roundBinary bytes
  let whole := roundHalfEven rounded (Nat.pow 1024 exponent)
  if exponent = 0 then s!"{bytes} {unit}"
  else if whole < 1000 then threeDigits rounded (Nat.pow 1024 exponent) ++ " " ++ unit
  else s!"{whole}. {unit}"

end NamedTape
