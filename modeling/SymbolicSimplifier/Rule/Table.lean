import SymbolicSimplifier.Rule.Basic

set_option autoImplicit false

namespace SymbolicSimplifier

structure RuleTable where
  rules : List Rule
deriving Inhabited

namespace RuleTable

def empty : RuleTable :=
  ⟨[]⟩

def append (a b : RuleTable) : RuleTable :=
  ⟨a.rules ++ b.rules⟩

instance : Append RuleTable :=
  ⟨append⟩

@[simp] theorem append_rules (a b : RuleTable) : (a ++ b).rules = a.rules ++ b.rules :=
  rfl

def size (table : RuleTable) : Nat :=
  table.rules.length

def names (table : RuleTable) : List String :=
  table.rules.filterMap Rule.title?

def position? (length : Nat) (index : Int) : Option Nat :=
  let shifted := if index < 0 then index + length else index
  if 0 ≤ shifted ∧ shifted < length then some shifted.toNat else none

def byIndex (table : RuleTable) (index : Int) : Except Error Rule :=
  match (position? table.size index).bind (table.rules[·]?) with
  | some rule => .ok rule
  | none => .error (.noRuleAt index)

def record (known : OrderedMap Nat) (position : Nat) (rule : Rule) : OrderedMap Nat :=
  match rule.title? with
  | some name => known.insert name position
  | none => known

def recordFrom (position : Nat) (known : OrderedMap Nat) : List Rule → OrderedMap Nat
  | [] => known
  | rule :: rest => recordFrom (position + 1) (record known position rule) rest

def positions (table : RuleTable) : OrderedMap Nat :=
  recordFrom 0 .empty table.rules

def contains (table : RuleTable) (name : String) : Bool :=
  table.positions.contains name

def byName (table : RuleTable) (name : String) : Except Error Rule :=
  match table.positions.find? name with
  | some position => table.byIndex position
  | none => .error (.noRuleNamed name)

def sameRules : List Rule → List Rule → Bool
  | [], [] => true
  | a :: as, b :: bs => a.same b && sameRules as bs
  | _, _ => false

def same (a b : RuleTable) : Bool :=
  sameRules a.rules b.rules

def listFrom? : Nat → List Rule → Option (List String)
  | _, [] => some []
  | index, rule :: rules => do
    let text ← rule.display?
    let rest ← listFrom? (index + 1) rules
    return ("[" ++ toString index ++ "] " ++ text) :: rest

def list? (table : RuleTable) : Option (List String) :=
  listFrom? 0 table.rules

def describe (table : RuleTable) : String :=
  "RuleTable(" ++ toString table.size ++ " rules)"

end RuleTable

end SymbolicSimplifier
