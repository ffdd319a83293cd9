import Mathlib.Data.List.DropRight
import Mathlib.Data.Rat.Floor

/-!
# Numbers and strings of JavaScript

A string is a sequence of UTF-16 code units. A number is the value of a double or one of the
special ones. Reading a number from a text rounds its value; the functions take the rounding as
an argument, so that a result holds of doubles and of exact values alike.
-/

namespace OpenEverest.Framework

abbrev JsString := List UInt16

def js (s : String) : JsString := s.toList.map fun c => c.toNat.toUInt16

/-- Both zeros are `finite 0`. -/
inductive JsNumber where
  | nan
  | infinity (negative : Bool)
  | finite (q : ℚ)
  deriving DecidableEq

namespace JsNumber

/-- The operator `<`. -/
def lt : JsNumber → JsNumber → Bool
  | .nan, _ => false
  | _, .nan => false
  | .finite p, .finite q => decide (p < q)
  | .infinity negative, .infinity negative' => negative && !negative'
  | .infinity negative, .finite _ => negative
  | .finite _, .infinity negative => !negative

/-- The operator `===`. -/
def equal (x y : JsNumber) : Bool := decide (x ≠ .nan) && decide (x = y)

/-- `Number.isInteger`. -/
def isInteger : JsNumber → Bool
  | .finite q => decide (q.den = 1)
  | _ => false

/-- `x % 2 === 0`. -/
def isEven : JsNumber → Bool
  | .finite q => decide (q.den = 1 ∧ q.num % 2 = 0)
  | _ => false

def ofInt (n : Int) : JsNumber := .finite n

@[simp] theorem lt_ofInt (m n : Int) : lt (ofInt m) (ofInt n) = decide (m < n) := by
  simp [lt, ofInt]

@[simp] theorem equal_ofInt (m n : Int) : equal (ofInt m) (ofInt n) = decide (m = n) := by
  simp [equal, ofInt]

@[simp] theorem isEven_ofInt (n : Int) : isEven (ofInt n) = decide (n % 2 = 0) := by
  simp [isEven, ofInt]

end JsNumber

namespace JsString

def isSpace (c : UInt16) : Bool :=
  decide (9 ≤ c ∧ c ≤ 13 ∨ c = 32 ∨ c = 160 ∨ c = 0x1680 ∨ 0x2000 ≤ c ∧ c ≤ 0x200A ∨ c = 0x2028 ∨
    c = 0x2029 ∨ c = 0x202F ∨ c = 0x205F ∨ c = 0x3000 ∨ c = 0xFEFF)

def isDigit (c : UInt16) : Bool := decide (48 ≤ c ∧ c ≤ 57)

def trim (s : JsString) : JsString := (s.dropWhile isSpace).rdropWhile isSpace

def decimalValue (digits : JsString) : Nat :=
  digits.foldl (fun acc c => acc * 10 + (c.toNat - 48)) 0

/-- The value of digits of a radix up to 36, or `none` where one is no such digit. -/
def digitsValue (radix : Nat) (digits : JsString) : Option Nat :=
  digits.foldlM (fun acc c =>
    let d := if isDigit c then c.toNat - 48
      else if 97 ≤ c ∧ c ≤ 122 then c.toNat - 87
      else if 65 ≤ c ∧ c ≤ 90 then c.toNat - 55
      else radix
    if d < radix then some (acc * radix + d) else none) 0

def takeSign : JsString → Bool × JsString
  | 45 :: s => (true, s)
  | 43 :: s => (false, s)
  | s => (false, s)

def signed (negative : Bool) (q : ℚ) : ℚ := if negative then -q else q

def takeFraction : JsString → JsString × JsString
  | 46 :: s => (s.takeWhile isDigit, s.dropWhile isDigit)
  | s => ([], s)

def takeNumber (s : JsString) : Option (ℚ × JsString) :=
  let whole := s.takeWhile isDigit
  let (fraction, rest) := takeFraction (s.dropWhile isDigit)
  if whole = [] ∧ fraction = [] then none
  else some ((decimalValue (whole ++ fraction) : ℚ) / 10 ^ fraction.length, rest)

/-- `e` or `E` and an integer in front, and the rest; the whole when there is none. -/
def takeExponent : JsString → Int × JsString
  | [] => (0, [])
  | c :: s =>
    let (negative, s') := takeSign s
    let digits := s'.takeWhile isDigit
    if (c = 101 ∨ c = 69) ∧ digits ≠ [] then
      (if negative then -decimalValue digits else decimalValue digits, s'.dropWhile isDigit)
    else (0, c :: s)

def takeDecimal (s : JsString) : Option (ℚ × JsString) :=
  (takeNumber s).map fun (q, rest) =>
    let (exponent, rest) := takeExponent rest
    (q * 10 ^ exponent, rest)

section Read

variable (round : ℚ → JsNumber)

/-- `parseInt(s, 10)`. -/
def parseInt (s : JsString) : JsNumber :=
  let (negative, s) := takeSign (s.dropWhile isSpace)
  let digits := s.takeWhile isDigit
  if digits = [] then .nan else round (signed negative (decimalValue digits))

def toNumberRadix (radix : Nat) (digits : JsString) : JsNumber :=
  match digits, digitsValue radix digits with
  | _ :: _, some n => round n
  | _, _ => .nan

/-- `Number(s)`, and `+s`. -/
def toNumber (s : JsString) : JsNumber :=
  match trim s with
  | [] => .finite 0
  | 48 :: 120 :: digits => toNumberRadix round 16 digits
  | 48 :: 88 :: digits => toNumberRadix round 16 digits
  | 48 :: 111 :: digits => toNumberRadix round 8 digits
  | 48 :: 79 :: digits => toNumberRadix round 8 digits
  | 48 :: 98 :: digits => toNumberRadix round 2 digits
  | 48 :: 66 :: digits => toNumberRadix round 2 digits
  | s =>
    let (negative, s) := takeSign s
    if s = js "Infinity" then .infinity negative
    else match takeDecimal s with
      | some (q, []) => round (signed negative q)
      | _ => .nan

/-- `parseFloat(s)`. -/
def parseFloat (s : JsString) : JsNumber :=
  let (negative, s) := takeSign (s.dropWhile isSpace)
  if js "Infinity" <+: s then .infinity negative
  else match takeDecimal s with
    | some (q, _) => round (signed negative q)
    | none => .nan

end Read

example : parseInt .finite (js " 12 nodes") = .ofInt 12 := by decide +kernel

example : toNumber .finite (js "1.5e2 ") = .ofInt 150 ∧ toNumber .finite (js "1,5") = .nan := by
  decide +kernel

end JsString

end OpenEverest.Framework
