/-!
# The fewest digits that read back

A finite binary floating-point number is taken from its bits as `significand * 2 ^ exponent`. All
reals nearer to it than to its neighbours read back as that number; `shortest` finds a decimal in
this interval with as few digits as possible, and among those one next to the number itself. All
arithmetic is exact.
-/

namespace ListingHub.Decimal

/-- The magnitude `significand * 2 ^ exponent` of a finite number. -/
structure Binary where
  significand : Nat
  exponent : Int
  /-- The neighbour below is half as far away as the one above. -/
  narrowBelow : Bool
  deriving Repr, DecidableEq

/-- The magnitude that the bits of a finite double denote. -/
def Binary.ofBits (bits : UInt64) : Binary :=
  let stored : Nat := bits.toNat / 4_503_599_627_370_496 % 2048
  let fraction : Nat := bits.toNat % 4_503_599_627_370_496
  if stored = 0 then ⟨fraction, -1074, false⟩
  else ⟨4_503_599_627_370_496 + fraction, (stored : Int) - 1075, fraction == 0 && stored != 1⟩

/-- The decimal `digits * 10 ^ exponent`. -/
structure Scientific where
  digits : Nat
  exponent : Int
  deriving Repr, DecidableEq

/-- `n * b ^ e` over `b ^ (-e)`, as a numerator and a denominator. -/
def scaled (n b : Nat) (e : Int) : Nat × Nat :=
  if 0 ≤ e then (n * b.pow e.toNat, 1) else (n, b.pow (-e).toNat)

/-- `digits * 10 ^ exponent` reads back as the number: it lies no further away than half the way to
the neighbours, and on the halfway points only for an even significand. -/
def Binary.readsBack (x : Binary) (d : Scientific) : Bool :=
  let (n, dn) := scaled d.digits 10 d.exponent
  let (u, du) := scaled 1 2 (x.exponent - 2)
  let value := n * du
  let unit := u * dn
  let low := (4 * x.significand - (if x.narrowBelow then 1 else 2)) * unit
  let high := (4 * x.significand + 2) * unit
  if x.significand % 2 = 0 then low ≤ value && value ≤ high else low < value && value < high

/-- The integer part of `x / 10 ^ exponent`. -/
def Binary.quotient (x : Binary) (exponent : Int) : Nat :=
  let (n, dn) := scaled x.significand 2 x.exponent
  let (m, dm) := scaled 1 10 exponent
  n * dm / (dn * m)

/-- Compares the number with the middle of a decimal and the next one on its grid. -/
def Binary.compareMiddle (x : Binary) (d : Scientific) : Ordering :=
  let (n, dn) := scaled (2 * x.significand) 2 x.exponent
  let (m, dm) := scaled (2 * d.digits + 1) 10 d.exponent
  compare (n * dm) (m * dn)

/-- The decimal magnitude: the least `k` with `x < 10 ^ k`. -/
def Binary.magnitude (x : Binary) : Int :=
  (Nat.toDigits 10 (x.quotient (-400))).length - 400

/-- The nearer of the two neighbours on the grid `10 ^ exponent` that read back; halfway between
them the even one. -/
def Binary.onGrid? (x : Binary) (exponent : Int) : Option Scientific :=
  let below : Scientific := ⟨x.quotient exponent, exponent⟩
  let above : Scientific := ⟨below.digits + 1, exponent⟩
  match x.readsBack below, x.readsBack above with
  | true, true =>
      match x.compareMiddle below with
      | .lt => some below
      | .gt => some above
      | .eq => some (if below.digits % 2 = 0 then below else above)
  | true, false => some below
  | false, true => some above
  | false, false => none

/-- A shortest decimal that reads back; seventeen digits always suffice. -/
def Binary.shortest (x : Binary) : Scientific :=
  let grids := (List.range 17).map fun k => x.magnitude - (k + 1 : Nat)
  (grids.findSome? x.onGrid?).getD ⟨0, 0⟩

/-- How a format writes a decimal. -/
structure Layout where
  /-- Magnitudes above `lowest` and up to `highest` are written positionally. -/
  lowest : Int
  highest : Int

/-- The digits of `n` without its trailing zeros, and how many those are. -/
def trimmed (n : Nat) : List Char × Nat :=
  let digits := Nat.toDigits 10 n
  let kept := (digits.reverse.dropWhile (· == '0')).reverse
  if n = 0 then (['0'], 0) else (kept, digits.length - kept.length)

/-- Writes a decimal: positionally with a point and at least one digit on either side of it, or with
a signed exponent and a point only before further digits. -/
def Layout.write (layout : Layout) (d : Scientific) : List Char :=
  let (digits, zeros) := trimmed d.digits
  let exponent : Int := d.exponent + zeros
  let point : Int := digits.length + exponent
  if digits = ['0'] then ['0', '.', '0']
  else if layout.lowest < point ∧ point ≤ layout.highest then
    if 0 ≤ exponent then digits ++ List.replicate exponent.toNat '0' ++ ['.', '0']
    else if 0 < point then digits.take point.toNat ++ '.' :: digits.drop point.toNat
    else '0' :: '.' :: (List.replicate (-point).toNat '0' ++ digits)
  else
    let rest := digits.drop 1
    let mark := if point - 1 < 0 then '-' else '+'
    digits.take 1 ++ (if rest = [] then [] else '.' :: rest) ++
      'e' :: mark :: Nat.toDigits 10 (point - 1).natAbs

/-- Writes the bits of a finite double with the fewest digits that read back. -/
def Layout.writeBits (layout : Layout) (bits : UInt64) : List Char :=
  let magnitude := layout.write (Binary.ofBits bits).shortest
  if bits.toNat / 9_223_372_036_854_775_808 = 1 then '-' :: magnitude else magnitude

end ListingHub.Decimal
