import SymbolicSimplifier.Value

set_option autoImplicit false

namespace SymbolicSimplifier

inductive Owner where
  | literal
  | namedConstant
  | var
  | function
deriving DecidableEq

namespace Owner

def title : Owner → String
  | .literal => "Literal"
  | .namedConstant => "NamedConstant"
  | .var => "Variable"
  | .function => "Function"

end Owner

inductive Error where
  | notNumeric (owner : Owner) (got : Value)
  | nameNotText (owner : Owner) (got : Value)
  | nameEmpty (owner : Owner)
  | unknownUnary (symbol : String)
  | unknownBinary (symbol : String)
  | operandNotExpr (got : Value)
  | argumentNotExpr (got : Value)
  | noArguments (function : String)
  | operandCount (symbol : String) (count : Nat)
  | notLiftable (got : Value)
  | unsupportedOperand
  | childCount
  | badKey (got : Value)
  | unusableKey
  | unbound
  | noMatchUnbound (key : Value)
  | patternNotExpr (got : Value)
  | ruleArity
  | entryNotRule (got : Value)
  | extensionNotRule (got : Value)
  | noSource
  | noRuleNamed (name : String)
  | noRuleAt (index : Int)
  | notTable
  | unknownStyle (style : String)
  | badLimit (got : Value)
  | unsettled (steps : Nat) (last : Expr)
  | tooDeep (steps : Nat)
  | unprintable

inductive ErrorKind where
  | type
  | value
  | key
  | index
  | limit
deriving DecidableEq

structure Report where
  kind : ErrorKind
  message : Option String
deriving DecidableEq

namespace Error

-- A message that describes a value. If the value has no description, that is the error.
def about (kind : ErrorKind) (before : String) (got : Value) (after : String) : Report :=
  match got.describe? with
  | some text => ⟨kind, some (before ++ text ++ after)⟩
  | none => ⟨.value, none⟩

def saying (kind : ErrorKind) (message : String) : Report :=
  ⟨kind, some message⟩

def silent (kind : ErrorKind) : Report :=
  ⟨kind, none⟩

def report : Error → Report
  | .notNumeric owner got => about .type (owner.title ++ " value must be a number, got ") got ""
  | .nameNotText owner got => about .type (owner.title ++ " name must be a string, got ") got ""
  | .nameEmpty owner => saying .value (owner.title ++ " name must not be empty")
  | .unknownUnary symbol => saying .value ("Unknown unary operator: " ++ Text.quote symbol)
  | .unknownBinary symbol => saying .value ("Unknown binary operator: " ++ Text.quote symbol)
  | .operandNotExpr got => about .type "Operand must be an Expression, got " got ""
  | .argumentNotExpr got => about .type "Argument must be an Expression, got " got ""
  | .noArguments function =>
    saying .value ("Function " ++ Text.quote function ++ " must have at least one argument")
  | .operandCount symbol count =>
    saying .value
      ("Operator " ++ Text.quote symbol ++ " takes one or two operands, got " ++ toString count)
  | .notLiftable got => about .type "" got " is not a number or a symbolic expression"
  | .unsupportedOperand => silent .type
  | .childCount => silent .value
  | .badKey got => about .type "Binding key must be a variable or a name, got " got ""
  | .unusableKey => silent .type
  | .unbound => silent .key
  | .noMatchUnbound key => about .key "NoMatch has no binding for " key ""
  | .patternNotExpr got => about .type "Pattern must be an Expression, got " got ""
  | .ruleArity => silent .type
  | .entryNotRule got => about .type "RuleTable entries must be Rule objects, got " got ""
  | .extensionNotRule got => about .type "Expected a Rule, got " got ""
  | .noSource => silent .type
  | .noRuleNamed name => saying .key ("No rule named '" ++ name ++ "'")
  | .noRuleAt _ => silent .index
  | .notTable => silent .type
  | .unknownStyle style =>
    saying .value
      ("Unknown trace style: " ++ style ++ ". Valid options: verbose, compact, rules, chain")
  | .badLimit got => about .value "max_steps must be a positive integer, got " got ""
  | .unsettled steps _ =>
    saying .limit ("No fixed point reached after " ++ toString steps ++ " rewrite steps")
  | .tooDeep steps =>
    saying .limit
      ("Expression too deep to simplify (after " ++ toString steps ++ " rewrite steps)")
  | .unprintable => silent .value

end Error

end SymbolicSimplifier
