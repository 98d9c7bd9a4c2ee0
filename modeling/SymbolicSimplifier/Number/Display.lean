import SymbolicSimplifier.Decimal.Shortest
import SymbolicSimplifier.Number.Basic

set_option autoImplicit false

namespace SymbolicSimplifier

-- The bounds are for the position of the point, which is 0 in `0.125` and 2 in `12.5`.
structure DecimalLayout where
  smallest : Int
  largest : Int
  exponentDigits : Nat

namespace DecimalLayout

def padLeft (width : Nat) (text : String) : String :=
  "".pushn '0' (width - text.length) ++ text

def significant (digits : Nat) : List Char :=
  ((Nat.toDigits 10 digits).reverse.dropWhile (· == '0')).reverse

def positional (digits : List Char) (point : Int) : String :=
  let count : Int := digits.length
  if point ≤ 0 then "0." ++ "".pushn '0' (-point).toNat ++ String.ofList digits
  else if count ≤ point then String.ofList digits ++ "".pushn '0' (point - count).toNat ++ ".0"
  else String.ofList (digits.take point.toNat) ++ "." ++ String.ofList (digits.drop point.toNat)

def scientific (layout : DecimalLayout) (digits : List Char) (exponent : Int) : String :=
  let sign := if exponent < 0 then "-" else "+"
  let size := padLeft layout.exponentDigits (toString exponent.natAbs)
  let fraction :=
    match digits.drop 1 with
    | [] => ""
    | more => "." ++ String.ofList more
  String.ofList (digits.take 1) ++ fraction ++ "e" ++ sign ++ size

def render (layout : DecimalLayout) (d : Decimal) : String :=
  let digits := significant d.digits
  let point := d.exponent + Decimal.digitCount d.digits
  if layout.smallest < point ∧ point ≤ layout.largest then positional digits point
  else layout.scientific digits (point - 1)

end DecimalLayout

namespace Number

def layout : DecimalLayout where
  smallest := -4
  largest := 16
  exponentDigits := 2

def textBound : Nat :=
  tenTo 4300

def hasText : Number → Bool
  | .int n => decide (n.natAbs < textBound)
  | .float _ => true

def floatText (undefinedText infinityText : String) : Binary64 → String
  | .undefined => undefinedText
  | .infinite negative => if negative then "-" ++ infinityText else infinityText
  | .finite negative mantissa exponent =>
    let size :=
      if mantissa = 0 then "0.0" else layout.render (Decimal.shortest mantissa exponent)
    if negative then "-" ++ size else size

def display : Number → String
  | .int n => toString n
  | .float x => floatText "NaN" "Infinity" (Binary64.ofFloat x)

def describe? : Number → Option String
  | .int n => if (Number.int n).hasText then some (toString n) else none
  | .float x => some (floatText "nan" "inf" (Binary64.ofFloat x))

end Number

end SymbolicSimplifier
