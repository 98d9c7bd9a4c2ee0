import SymbolicSimplifier.Identities.Arithmetic

set_option autoImplicit false

namespace SymbolicSimplifier

namespace Expr

def euler : Expr :=
  .named "e" (.float (Float.ofBits 0x4005bf0a8b145769))

def pi : Expr :=
  .named "pi" (.float (Float.ofBits 0x400921fb54442d18))

def log (argument : Expr) : Expr :=
  .apply "log" [argument]

def exp (argument : Expr) : Expr :=
  .apply "exp" [argument]

end Expr

namespace Identities

def logarithm : RuleTable where
  rules := [
    rule "log-one" (.log 1) 0,
    rule "log-zero" (.log 0) .nan,
    rule "log-e" (.log .euler) 1,
    rule "log-exp" x.exp.log x,
    rule "exp-log" x.log.exp x,
    rule "log-sum" (x.log + y.log) (x * y).log,
    rule "log-difference" (x.log - y.log) (x / y).log]

def standard : RuleTable :=
  arithmetic ++ logarithm

end Identities

end SymbolicSimplifier
