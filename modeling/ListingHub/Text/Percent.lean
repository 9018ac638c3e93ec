/-!
# Percent-encoded bytes

`%` with two hexadecimal digits stands for one byte; any other `%` stands for itself.
-/

namespace ListingHub.Text

/-- The value of a hexadecimal digit in either case. -/
def hexValue? (b : UInt8) : Option UInt8 :=
  if 0x30 ≤ b ∧ b ≤ 0x39 then some (b - 0x30)
  else if 0x41 ≤ b ∧ b ≤ 0x46 then some (b - 0x41 + 10)
  else if 0x61 ≤ b ∧ b ≤ 0x66 then some (b - 0x61 + 10)
  else none

/-- The bytes that percent-encoded bytes stand for. -/
def percentDecode : List UInt8 → List UInt8
  | [] => []
  | [b] => [b]
  | [b, c] => [b, c]
  | b :: hi :: lo :: rest =>
      match b == 0x25, hexValue? hi, hexValue? lo with
      | true, some h, some l => (16 * h + l) :: percentDecode rest
      | _, _, _ => b :: percentDecode (hi :: lo :: rest)

end ListingHub.Text
