import SymbolicSimplifier.Expr.Basic
import SymbolicSimplifier.Number.Display

set_option autoImplicit false

namespace SymbolicSimplifier

namespace BinaryOp

def strength : BinaryOp → Nat
  | .pow => 80
  | .mul | .div => 60
  | .add | .sub => 50
  | .and => 40
  | .or => 30
  | .lt | .le | .gt | .ge => 20
  | .eq => 10

def isTight : BinaryOp → Bool
  | .mul | .pow => true
  | _ => false

def separator (op : BinaryOp) : String :=
  if op.isTight then op.symbol else " " ++ op.symbol ++ " "

end BinaryOp

def atomStrength : Nat :=
  100

def unaryStrength : Nat :=
  70

def Head.strength : Head → Nat
  | .unary _ => unaryStrength
  | .binary op => op.strength
  | .function _ => atomStrength

structure Rendering where
  text : String
  strength : Nat

def Rendering.within (r : Rendering) (strength : Nat) : String :=
  if r.strength < strength then "(" ++ r.text ++ ")" else r.text

namespace Head

-- A unary plus is not written.
def displayText : Head → List Rendering → String
  | .unary .plus, args => String.join (args.map (·.text))
  | .unary op, args => op.symbol ++ String.join (args.map (·.within unaryStrength))
  | .binary op, args => op.separator.intercalate (args.map (·.within op.strength))
  | .function name, args => name ++ "(" ++ ", ".intercalate (args.map (·.text)) ++ ")"

def fullText : Head → List String → String
  | .unary op, args => op.symbol ++ "(" ++ String.join args ++ ")"
  | .binary op, args => "(" ++ (" " ++ op.symbol ++ " ").intercalate args ++ ")"
  | .function name, args => name ++ "(" ++ ", ".intercalate args ++ ")"

end Head

namespace Expr

-- A negative number binds like a negation, because its text starts with a minus sign.
def strength : Expr → Nat
  | .literal n => if n.isNegative then unaryStrength else atomStrength
  | .named _ _ | .var _ => atomStrength
  | .node head _ => head.strength

def leafText : Expr → String
  | .literal n => n.display
  | .named name _ => name
  | .var name => name
  | .node _ _ => ""

def rendering : Expr → Rendering :=
  bottomUp (fun e => ⟨e.leafText, e.strength⟩)
    (fun head args => ⟨head.displayText args, head.strength⟩)

def display (e : Expr) : String :=
  e.rendering.text

def full : Expr → String :=
  bottomUp leafText Head.fullText

def hasText : Expr → Bool :=
  bottomUp
    (fun
      | .literal n => n.hasText
      | _ => true)
    (fun _ args => args.all id)

def display? (e : Expr) : Option String :=
  if e.hasText then some e.display else none

def full? (e : Expr) : Option String :=
  if e.hasText then some e.full else none

end Expr

end SymbolicSimplifier
