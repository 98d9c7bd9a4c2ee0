import SymbolicSimplifier.Rule.Source

set_option autoImplicit false

namespace SymbolicSimplifier

structure RuleBuilder where
  entries : List Entry

namespace RuleBuilder

def empty : RuleBuilder :=
  ⟨[]⟩

def size (builder : RuleBuilder) : Nat :=
  builder.entries.length

def add (builder : RuleBuilder) (rule : Rule) : RuleBuilder :=
  ⟨builder.entries ++ [.rule rule]⟩

def offer (builder : RuleBuilder) (pattern replacement : Value)
    (name description : Option String) : RuleBuilder × Option Error :=
  match Rule.ofValues pattern replacement name description with
  | .ok rule => (builder.add rule, none)
  | .error error => (builder, some error)

-- Add rules up to the first entry that is none, which is the error.
def extend (builder : RuleBuilder) : List Entry → RuleBuilder × Option Error
  | [] => (builder, none)
  | .rule rule :: rest => (builder.add rule).extend rest
  | .other value :: _ => (builder, some (.extensionNotRule value))

def build (builder : RuleBuilder) : Except Error RuleTable :=
  RuleTable.ofEntries builder.entries

end RuleBuilder

end SymbolicSimplifier
