import ComponentSurvey.Number.Binary64

/-!
# Shortest decimals

The decimal with the fewest digits that lies nearer to a binary fraction than to any other.  Of
several with the same number of digits the nearest is taken, and of two equally near the even one.
-/

namespace ComponentSurvey.Binary64

structure Fraction where
  significand : Nat
  exponent : Int
deriving DecidableEq, Repr

def fractionOf (bits : Nat) : Fraction :=
  let stored : Nat := bits / hiddenBit % 2048
  let low : Nat := bits % hiddenBit
  if stored = 0 then ⟨low, -1074⟩ else ⟨low + hiddenBit, (stored : Int) - 1075⟩

def scaleUp (base value : Nat) (exponent : Int) : Nat := value * Nat.pow base exponent.toNat

def compareScaled (first : Nat) (tens : Int) (second : Nat) (twos : Int) : Ordering :=
  compare (scaleUp 2 (scaleUp 10 first tens) (-twos)) (scaleUp 2 (scaleUp 10 second (-tens)) twos)

/-- The decimals that are read back as a fraction, in quarters of its last place. -/
structure Interval where
  low : Nat
  centre : Nat
  high : Nat
  twos : Int
  isClosed : Bool
deriving DecidableEq, Repr

def Interval.around (fraction : Fraction) : Interval :=
  let centre := 4 * fraction.significand
  let isBoundary := fraction.significand = hiddenBit && -1074 < fraction.exponent
  { low := if isBoundary then centre - 1 else centre - 2
    centre := centre
    high := centre + 2
    twos := fraction.exponent - 2
    isClosed := fraction.significand % 2 = 0 }

namespace Interval

def contains (interval : Interval) (digits : Nat) (tens : Int) : Bool :=
  let low := compareScaled digits tens interval.low interval.twos
  let high := compareScaled digits tens interval.high interval.twos
  (low = .gt || (interval.isClosed && low = .eq)) &&
    (high = .lt || (interval.isClosed && high = .eq))

def neighbours (interval : Interval) (tens : Int) : Nat × Nat :=
  let below :=
    scaleUp 2 (scaleUp 10 interval.centre (-tens)) interval.twos /
      scaleUp 2 (scaleUp 10 1 tens) (-interval.twos)
  (below, below + 1)

/-- Whether the decimal below the centre is at least as near as the next one. -/
def prefersBelow (interval : Interval) (below : Nat) (tens : Int) : Bool :=
  match compareScaled (2 * below + 1) tens (2 * interval.centre) interval.twos with
  | .gt => true
  | .eq => below % 2 = 0
  | .lt => false

def onGrid? (interval : Interval) (tens : Int) : Option Nat :=
  let (below, above) := interval.neighbours tens
  match interval.contains below tens, interval.contains above tens with
  | true, true => some (if interval.prefersBelow below tens then below else above)
  | true, false => some below
  | false, true => some above
  | false, false => none

def search (interval : Interval) : Nat → Int → Nat × Int
  | 0, tens => (interval.neighbours tens).1 |> fun below => (below, tens)
  | fuel + 1, tens =>
    match interval.onGrid? tens with
    | some digits => (digits, tens)
    | none => search interval fuel (tens - 1)

end Interval

def withoutZeros : Nat → Nat → Int → Nat × Int
  | 0, digits, tens => (digits, tens)
  | fuel + 1, digits, tens =>
    if digits ≠ 0 && digits % 10 = 0 then withoutZeros fuel (digits / 10) (tens + 1)
    else (digits, tens)

/-- Digits and exponent of the shortest decimal for a positive finite pattern. -/
def shortest (bits : Nat) : Nat × Int :=
  let fraction := fractionOf bits
  let order : Int := (Nat.log2 fraction.significand : Int) + fraction.exponent
  let coarse : Int := order * 30103 / 100000 + 1
  let (digits, tens) := (Interval.around fraction).search 25 coarse
  withoutZeros 20 digits tens

def zeros (count : Int) : List Char := List.replicate count.toNat '0'

/-- Up to sixteen places are written out; what is longer, or smaller than a ten-thousandth, has an
exponent. -/
def decimalText (digits : Nat) (tens : Int) : List Char :=
  let text := (toString digits).toList
  let point : Int := text.length + tens
  if 0 ≤ tens && point ≤ 16 then text ++ zeros tens ++ ['.', '0']
  else if 0 < point && point ≤ 16 then
    text.take point.toNat ++ ['.'] ++ text.drop point.toNat
  else if -5 < point && point ≤ 0 then ['0', '.'] ++ zeros (-point) ++ text
  else
    let fraction := if text.length = 1 then [] else '.' :: text.drop 1
    text.take 1 ++ fraction ++ ['e'] ++ (toString (point - 1)).toList

def toText (bits : Nat) : String :=
  let sign := if bits < signBit then "" else "-"
  let magnitude := bits % signBit
  let text :=
    if magnitude = 0 then ['0', '.', '0']
    else
      let (digits, tens) := shortest magnitude
      decimalText digits tens
  sign ++ String.ofList text

end ComponentSurvey.Binary64
