import SymbolicSimplifier.Rule.Table

set_option autoImplicit false

namespace SymbolicSimplifier

inductive Entry where
  | rule (rule : Rule)
  | other (value : Value)

namespace RuleTable

def entries (table : RuleTable) : List Entry :=
  table.rules.map .rule

def ofEntries (entries : List Entry) : Except Error RuleTable := do
  let rules ← entries.mapM fun
    | .rule rule => .ok rule
    | .other value => .error (.entryNotRule value)
  return ⟨rules⟩

end RuleTable

namespace Rule

-- A name or description among the parts of a rule. Anything but a text counts as missing.
def part? : Value → Option String
  | .text s => some s
  | _ => none

def ofParts : List Value → Except Error Rule
  | [pattern, replacement] => ofValues pattern replacement none none
  | [pattern, replacement, name] => ofValues pattern replacement (part? name) none
  | [pattern, replacement, name, description] =>
    ofValues pattern replacement (part? name) (part? description)
  | _ => .error .ruleArity

-- A rule, or a sequence of its parts; the parts of a text are its characters.
def ofEntry : Entry → Except Error Rule
  | .rule rule => .ok rule
  | .other (.tuple parts) => ofParts parts
  | .other (.list parts) => ofParts parts
  | .other (.text s) => ofParts (s.toList.map fun c => .text (String.singleton c))
  | .other _ => .error .ruleArity

end Rule

inductive RuleSource where
  | table (table : RuleTable)
  | entries (entries : List Entry)

namespace RuleSource

def toEntries : RuleSource → List Entry
  | .table rules => rules.entries
  | .entries offered => offered

def toTable : RuleSource → Except Error RuleTable
  | .table rules => .ok rules
  | .entries offered => do
    let rules ← offered.mapM Rule.ofEntry
    return ⟨rules⟩

end RuleSource

end SymbolicSimplifier
