import SymbolicSimplifier.Number.Basic

set_option autoImplicit false

namespace SymbolicSimplifier

inductive UnaryOp where
  | plus
  | minus
  | complement
deriving DecidableEq, Inhabited

inductive BinaryOp where
  | add
  | sub
  | mul
  | div
  | pow
  | eq
  | lt
  | le
  | gt
  | ge
  | and
  | or
deriving DecidableEq, Inhabited

namespace UnaryOp

def all : List UnaryOp :=
  [.plus, .minus, .complement]

def symbol : UnaryOp → String
  | .plus => "+"
  | .minus => "-"
  | .complement => "~"

def ofSymbol? (symbol : String) : Option UnaryOp :=
  all.find? (·.symbol == symbol)

end UnaryOp

namespace BinaryOp

def all : List BinaryOp :=
  [.add, .sub, .mul, .div, .pow, .eq, .lt, .le, .gt, .ge, .and, .or]

def symbol : BinaryOp → String
  | .add => "+"
  | .sub => "-"
  | .mul => "*"
  | .div => "/"
  | .pow => "**"
  | .eq => "=="
  | .lt => "<"
  | .le => "<="
  | .gt => ">"
  | .ge => ">="
  | .and => "&"
  | .or => "|"

def ofSymbol? (symbol : String) : Option BinaryOp :=
  all.find? (·.symbol == symbol)

end BinaryOp

inductive Head where
  | unary (op : UnaryOp)
  | binary (op : BinaryOp)
  | function (name : String)
deriving DecidableEq, Inhabited

namespace Head

/-- The name under which a prelude knows how to evaluate the head. The unary and the binary minus
share one, and so does a function of that name. -/
def key : Head → String
  | .unary op => op.symbol
  | .binary op => op.symbol
  | .function name => name

def admits : Head → Nat → Bool
  | .unary _, count => count == 1
  | .binary _, count => count == 2
  | .function _, count => 0 < count

end Head

inductive Expr where
  | literal (value : Number)
  | named (name : String) (value : Number)
  | var (name : String)
  | node (head : Head) (args : List Expr)
deriving Inhabited

namespace Expr

def ofInt (n : Int) : Expr :=
  .literal (.int n)

def unary (op : UnaryOp) (operand : Expr) : Expr :=
  .node (.unary op) [operand]

def binary (op : BinaryOp) (left right : Expr) : Expr :=
  .node (.binary op) [left, right]

def apply (name : String) (args : List Expr) : Expr :=
  .node (.function name) args

def children : Expr → List Expr
  | .node _ args => args
  | _ => []

def literal? : Expr → Option Number
  | .literal n => some n
  | _ => none

mutual

def same : Expr → Expr → Bool
  | .literal a, .literal b => a.same b
  | .named name a, .named name' b => name == name' && a.same b
  | .var name, .var name' => name == name'
  | .node head args, .node head' args' => head == head' && sameAll args args'
  | _, _ => false

def sameAll : List Expr → List Expr → Bool
  | [], [] => true
  | a :: as, b :: bs => a.same b && sameAll as bs
  | _, _ => false

end

mutual

def bottomUp {α : Type} (leaf : Expr → α) (node : Head → List α → α) : Expr → α
  | .literal n => leaf (.literal n)
  | .named name n => leaf (.named name n)
  | .var name => leaf (.var name)
  | .node head args => node head (bottomUpAll leaf node args)

def bottomUpAll {α : Type} (leaf : Expr → α) (node : Head → List α → α) : List Expr → List α
  | [] => []
  | e :: es => bottomUp leaf node e :: bottomUpAll leaf node es

end

theorem bottomUpAll_eq_map {α : Type} (leaf : Expr → α) (node : Head → List α → α)
    (es : List Expr) : bottomUpAll leaf node es = es.map (bottomUp leaf node) := by
  induction es with
  | nil => rfl
  | cons e es ih => simp [bottomUpAll, ih]

theorem bottomUp_node {α : Type} (leaf : Expr → α) (node : Head → List α → α) (head : Head)
    (args : List Expr) :
    bottomUp leaf node (.node head args) = node head (args.map (bottomUp leaf node)) := by
  rw [bottomUp, bottomUpAll_eq_map]

theorem induction {P : Expr → Prop} (literal : ∀ n, P (.literal n))
    (named : ∀ name n, P (.named name n)) (var : ∀ name, P (.var name))
    (node : ∀ head args, (∀ e ∈ args, P e) → P (.node head args)) (e : Expr) : P e :=
  Expr.rec (motive_1 := P) (motive_2 := fun es => ∀ e ∈ es, P e)
    literal named var node
    (fun _ h => nomatch h)
    (fun _ _ first rest e h => by
      cases h with
      | head => exact first
      | tail _ h => exact rest e h)
    e

def isConstant : Expr → Bool :=
  bottomUp
    (fun
      | .var _ => false
      | _ => true)
    (fun _ args => args.all id)

mutual

-- Whether more than `limit` nodes are nested in each other.
def deeperThan : Expr → Nat → Bool
  | .node _ _, 0 => true
  | .node _ args, limit + 1 => anyDeeperThan args limit
  | _, _ => false

def anyDeeperThan : List Expr → Nat → Bool
  | [], _ => false
  | e :: es, limit => e.deeperThan limit || anyDeeperThan es limit

end

end Expr

instance : BEq Expr :=
  ⟨Expr.same⟩

end SymbolicSimplifier
