import SymbolicSimplifier.Expr.Arithmetic
import SymbolicSimplifier.Rule.Table

set_option autoImplicit false

namespace SymbolicSimplifier

namespace Identities

def rule (name : String) (pattern replacement : Expr) : Rule :=
  ⟨pattern, replacement, some name, none⟩

def described (name description : String) (pattern replacement : Expr) : Rule :=
  ⟨pattern, replacement, some name, some description⟩

def w : Expr :=
  .var "w"

def x : Expr :=
  .var "x"

def y : Expr :=
  .var "y"

def z : Expr :=
  .var "z"

def arithmetic : RuleTable where
  rules := [
    rule "add-zero" (x + 0) x,
    rule "zero-add" (0 + x) x,
    rule "add-self" (x + x) (2 * x),
    rule "sub-zero" (x - 0) x,
    rule "zero-sub" (0 - x) (-x),
    rule "sub-self" (x - x) 0,
    rule "pos" x.plus x,
    rule "neg-neg" (-(-x)) x,
    rule "mul-one" (x * 1) x,
    rule "one-mul" (1 * x) x,
    rule "mul-zero" (x * 0) 0,
    rule "zero-mul" (0 * x) 0,
    rule "mul-self" (x * x) (x.power 2),
    described "div-zero" "division by zero is NaN" (x / 0) .nan,
    rule "zero-div" (0 / x) 0,
    rule "div-one" (x / 1) x,
    rule "div-self" (x / x) 1,
    described "zero-pow-zero" "0 ** 0 is 1" (.power 0 0) 1,
    rule "pow-zero" (x.power 0) 1,
    rule "zero-pow" (.power 0 x) 0,
    rule "one-pow" (.power 1 x) 1,
    rule "pow-one" (x.power 1) x,
    rule "pow-neg-one" (x.power (.ofInt (-1))) (1 / x),
    rule "mul-div-cancel" (x * (y / x)) y,
    rule "div-mul-cancel" ((y / x) * x) y,
    rule "mul-right-div-cancel" ((y * x) / x) y,
    rule "mul-left-div-cancel" ((x * y) / x) y,
    rule "add-neg" (x + -x) 0,
    rule "neg-add" (-x + x) 0,
    rule "add-sub-cancel" (x + y - x) y,
    rule "sub-sub-cancel" (x - y - x) (-y),
    rule "pow-product" (x.power y * x.power z) (x.power (y + z)),
    rule "pow-quotient" (x.power y / x.power z) (x.power (y - z)),
    rule "add-assoc" ((w + x) + y) (w + (x + y)),
    rule "mul-assoc" ((w * x) * y) (w * (x * y))]

end Identities

end SymbolicSimplifier
