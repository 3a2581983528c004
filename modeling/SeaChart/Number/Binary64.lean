/-!
Binary floating-point numbers of 64 bits, kept as exact values: a sign, a whole mantissa and a power
of two. Results are rounded to the nearest such number, a tie to the even mantissa.
-/

namespace SeaChart

/-- A finite value is `± mantissa * 2 ^ exponent`. -/
inductive Binary64 where
  | finite (negative : Bool) (mantissa : Nat) (exponent : Int)
  | infinite (negative : Bool)
  | nan
deriving DecidableEq, Repr, Inhabited

namespace Binary64

def minExponent : Int := -1074

def maxExponent : Int := 971

def mantissaBound : Nat := Nat.pow 2 53

def zero (negative : Bool) : Binary64 :=
  .finite negative 0 minExponent

def roundToEven (numerator denominator : Nat) : Nat :=
  let q := numerator / denominator
  let r := numerator % denominator
  if 2 * r < denominator ∨ (2 * r = denominator ∧ q % 2 = 0) then q else q + 1

def roundHalfUp (numerator denominator : Nat) : Nat :=
  (2 * numerator + denominator) / (2 * denominator)

def scale (numerator denominator : Nat) : Int → Nat × Nat
  | .ofNat k => (numerator, denominator * Nat.pow 2 k)
  | .negSucc k => (numerator * Nat.pow 2 (k + 1), denominator)

def floorLog2 (numerator denominator : Nat) : Int :=
  let k : Int := numerator.log2 - denominator.log2
  let (n, d) := scale numerator denominator k
  if d ≤ n then k else k - 1

def ofFraction (negative : Bool) (numerator denominator : Nat) : Binary64 :=
  if numerator = 0 then zero negative
  else
    let e := max minExponent (floorLog2 numerator denominator - 52)
    let (n, d) := scale numerator denominator e
    let m := roundToEven n d
    let (m, e) := if m = mantissaBound then (m / 2, e + 1) else (m, e)
    if maxExponent < e then .infinite negative else .finite negative m e

def ofNat (n : Nat) : Binary64 :=
  ofFraction false n 1

def ofInt : Int → Binary64
  | .ofNat n => ofFraction false n 1
  | .negSucc n => ofFraction true (n + 1) 1

def fraction (mantissa : Nat) : Int → Nat × Nat
  | .ofNat k => (mantissa * Nat.pow 2 k, 1)
  | .negSucc k => (mantissa, Nat.pow 2 (k + 1))

def isZero : Binary64 → Bool
  | .finite _ m _ => m == 0
  | _ => false

def mul : Binary64 → Binary64 → Binary64
  | .finite s m e, .finite t n f =>
    let (numerator, denominator) := fraction (m * n) (e + f)
    ofFraction (s != t) numerator denominator
  | .nan, _ => .nan
  | _, .nan => .nan
  | .infinite s, .infinite t => .infinite (s != t)
  | .infinite s, .finite t n _ => if n = 0 then .nan else .infinite (s != t)
  | .finite s m _, .infinite t => if m = 0 then .nan else .infinite (s != t)

def round : Binary64 → Binary64
  | .finite s m e =>
    let (numerator, denominator) := fraction m e
    ofFraction s (roundHalfUp numerator denominator) 1
  | x => x

def clampInt32 (n : Int) : Int :=
  max (-2147483648) (min 2147483647 n)

def toInt32 : Binary64 → Int
  | .finite s m e =>
    let (numerator, denominator) := fraction m e
    let n : Int := roundHalfUp numerator denominator
    clampInt32 (if s then -n else n)
  | .infinite s => if s then -2147483648 else 2147483647
  | .nan => 0

def lt : Binary64 → Binary64 → Bool
  | .finite s m e, .finite t n f =>
    let (a, b) := fraction m e
    let (c, d) := fraction n f
    let x : Int := (if s then -(a : Int) else a) * d
    let y : Int := (if t then -(c : Int) else c) * b
    x < y
  | .infinite s, .infinite t => s && !t
  | .infinite s, .finite .. => s
  | .finite .., .infinite t => !t
  | .nan, _ => false
  | _, .nan => false

end Binary64

end SeaChart
