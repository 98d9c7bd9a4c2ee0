import Mathlib.Data.List.Induction
import SymbolicSimplifier.Identities.Arithmetic

set_option autoImplicit false

namespace SymbolicSimplifier

theorem Rule.title?_eq_some_iff (rule : Rule) (name : String) :
    rule.title? = some name ↔ rule.name = some name ∧ name ≠ "" := by
  simp [Rule.title?, given?, Option.filter_eq_some_iff]

structure IsLastNamed (rules : List Rule) (name : String) (position : Nat) (rule : Rule) :
    Prop where
  here : rules[position]? = some rule
  named : rule.name = some name
  last : ∀ later, position < later → ∀ other, rules[later]? = some other → other.name ≠ some name

namespace IsLastNamed

variable {rules : List Rule} {name : String} {position : Nat} {rule : Rule}

theorem behind (earlier : List Rule) (found : IsLastNamed rules name position rule) :
    IsLastNamed (earlier ++ rules) name (earlier.length + position) rule where
  here := by rw [List.getElem?_append_right (by omega), Nat.add_sub_cancel_left, found.here]
  named := found.named
  last := by
    intro later after other there
    rw [List.getElem?_append_right (by omega)] at there
    exact found.last _ (by omega) other there

theorem append_iff {others : List Rule} (absent : ∀ other ∈ others, other.name ≠ some name) :
    IsLastNamed (rules ++ others) name position rule ↔ IsLastNamed rules name position rule := by
  constructor
  · intro found
    have inside : position < rules.length := by
      refine Nat.lt_of_not_le fun outside => ?_
      have there := found.here
      rw [List.getElem?_append_right (by omega)] at there
      exact absent rule (List.mem_of_getElem? there) found.named
    refine ⟨?_, found.named, fun later after other there => found.last later after other ?_⟩
    · rw [← found.here, List.getElem?_append_left inside]
    · rw [List.getElem?_append_left (List.getElem?_eq_some_iff.mp there).1, there]
  · intro found
    have inside := (List.getElem?_eq_some_iff.mp found.here).1
    refine ⟨by rw [List.getElem?_append_left inside, found.here], found.named, ?_⟩
    intro later after other there
    by_cases within : later < rules.length
    · rw [List.getElem?_append_left within] at there
      exact found.last later after other there
    · rw [List.getElem?_append_right (by omega)] at there
      exact absent other (List.mem_of_getElem? there)

theorem concat (rules : List Rule) (named : rule.name = some name) :
    IsLastNamed (rules ++ [rule]) name rules.length rule := by
  have alone : IsLastNamed [rule] name 0 rule := by
    refine ⟨rfl, named, fun later after other there => ?_⟩
    have outside : [rule].length ≤ later := after
    rw [List.getElem?_eq_none outside] at there
    cases there
  exact alone.behind rules

theorem position_unique {position' : Nat} {rule' : Rule}
    (found : IsLastNamed rules name position rule)
    (found' : IsLastNamed rules name position' rule') : position = position' := by
  rcases Nat.lt_trichotomy position position' with before | same | after
  · exact absurd found'.named (found.last position' before rule' found'.here)
  · exact same
  · exact absurd found.named (found'.last position after rule found.here)

end IsLastNamed

theorem exists_isLastNamed_iff (rules : List Rule) (name : String) :
    (∃ position rule, IsLastNamed rules name position rule) ↔
      ∃ rule ∈ rules, rule.name = some name := by
  constructor
  · rintro ⟨position, rule, found⟩
    exact ⟨rule, List.mem_of_getElem? found.here, found.named⟩
  · rintro ⟨rule, member, named⟩
    induction rules using List.reverseRecOn with
    | nil => cases member
    | append_singleton rules last ih =>
      by_cases lastNamed : last.name = some name
      · exact ⟨rules.length, last, .concat rules lastNamed⟩
      · have earlier : rule ∈ rules := by
          rcases List.mem_append.mp member with earlier | same
          · exact earlier
          · cases List.mem_singleton.mp same
            exact absurd named lastNamed
        obtain ⟨position, rule, found⟩ := ih earlier
        exact ⟨position, rule, (IsLastNamed.append_iff (by simpa using lastNamed)).mpr found⟩

namespace RuleTable

def Locates (known : OrderedMap Nat) (rules : List Rule) : Prop :=
  ∀ name position, known.find? name = some position ↔
    name ≠ "" ∧ ∃ rule, IsLastNamed rules name position rule

variable {known : OrderedMap Nat} {rules : List Rule}

-- A rule without a name, or with an empty one, leaves all positions as they are.
theorem Locates.record (locates : Locates known rules) (rule : Rule) :
    Locates (record known rules.length rule) (rules ++ [rule]) := by
  intro name position
  by_cases titled : rule.title? = some name
  · obtain ⟨named, nonempty⟩ := (rule.title?_eq_some_iff name).mp titled
    rw [RuleTable.record, titled]
    simp only [OrderedMap.find?_insert, if_true, Option.some.injEq]
    constructor
    · rintro rfl
      exact ⟨nonempty, rule, .concat rules named⟩
    · rintro ⟨-, other, found⟩
      exact (IsLastNamed.concat rules named).position_unique found
  · have kept : (RuleTable.record known rules.length rule).find? name = known.find? name := by
      cases other : rule.title? with
      | none => rw [RuleTable.record, other]
      | some title =>
        have different : title ≠ name := fun same => titled (same ▸ other)
        simp [RuleTable.record, other, OrderedMap.find?_insert, different]
    rw [kept, locates name position]
    refine and_congr_right fun nonempty => exists_congr fun found => ?_
    have absent : rule.name ≠ some name :=
      fun named => titled ((rule.title?_eq_some_iff name).mpr ⟨named, nonempty⟩)
    exact (IsLastNamed.append_iff (by simpa using absent)).symm

theorem Locates.recordFrom {seen : List Rule} (locates : Locates known seen) (rules : List Rule) :
    Locates (recordFrom seen.length known rules) (seen ++ rules) := by
  induction rules generalizing known seen with
  | nil => simpa [RuleTable.recordFrom] using locates
  | cons rule rules ih =>
    have next := ih (locates.record rule)
    simpa [RuleTable.recordFrom] using next

theorem positions_locates (table : RuleTable) : Locates table.positions table.rules := by
  have initial : Locates .empty [] := by
    intro name position
    constructor
    · intro found
      cases found
    · rintro ⟨-, rule, found⟩
      cases found.here
  exact initial.recordFrom table.rules

theorem position?_natCast (length index : Nat) :
    position? length index = if index < length then some index else none := by
  have forward : ¬ (index : Int) < 0 := by omega
  simp [position?, forward]

theorem position?_negSucc (length index : Nat) :
    position? length (.negSucc index) =
      if index < length then some (length - 1 - index) else none := by
  have backward : Int.negSucc index < 0 := by omega
  by_cases inside : index < length
  · have within : 0 ≤ Int.negSucc index + length ∧ Int.negSucc index + length < length := by omega
    rw [position?, if_pos backward, if_pos within, if_pos inside, Option.some.injEq]
    omega
  · have outside : ¬ (0 ≤ Int.negSucc index + length ∧ Int.negSucc index + length < length) := by
      omega
    rw [position?, if_pos backward, if_neg outside, if_neg inside]

def ruleAt? (rules : List Rule) : Int → Option Rule
  | .ofNat index => rules[index]?
  | .negSucc index => rules.reverse[index]?

theorem position?_bind (rules : List Rule) (index : Int) :
    (position? rules.length index).bind (rules[·]?) = ruleAt? rules index := by
  cases index with
  | ofNat index =>
    rw [Int.ofNat_eq_natCast, position?_natCast]
    by_cases inside : index < rules.length <;> simp [ruleAt?, inside]
  | negSucc index =>
    rw [position?_negSucc]
    by_cases inside : index < rules.length <;> simp [ruleAt?, inside]

theorem ruleAt?_eq_none_iff (rules : List Rule) (index : Int) :
    ruleAt? rules index = none ↔ ¬ (-(rules.length : Int) ≤ index ∧ index < rules.length) := by
  cases index with
  | ofNat index =>
    rw [ruleAt?, List.getElem?_eq_none_iff, Int.ofNat_eq_natCast]
    omega
  | negSucc index =>
    rw [ruleAt?, List.getElem?_eq_none_iff, List.length_reverse]
    omega

theorem byIndex_eq (table : RuleTable) (index : Int) :
    table.byIndex index =
      match ruleAt? table.rules index with
      | some rule => .ok rule
      | none => .error (.noRuleAt index) := by
  have found := position?_bind table.rules index
  cases here : ruleAt? table.rules index <;> simp [byIndex, size, found, here]

theorem byIndex_natCast_iff (table : RuleTable) (index : Nat) (rule : Rule) :
    table.byIndex index = .ok rule ↔ table.rules[index]? = some rule := by
  rw [byIndex_eq, ← Int.ofNat_eq_natCast, ruleAt?]
  cases table.rules[index]? <;> simp

variable {table : RuleTable} {name : String}

theorem contains_iff : table.contains name = true ↔
    name ≠ "" ∧ ∃ rule ∈ table.rules, rule.name = some name := by
  rw [contains, OrderedMap.contains, Option.isSome_iff_exists, ← exists_isLastNamed_iff]
  simp only [positions_locates table name, exists_and_left]

theorem mem_names_iff : name ∈ table.names ↔
    name ≠ "" ∧ ∃ rule ∈ table.rules, rule.name = some name := by
  simp only [names, List.mem_filterMap, Rule.title?_eq_some_iff]
  tauto

theorem byName_of_isLastNamed {position : Nat} {rule : Rule} (nonempty : name ≠ "")
    (found : IsLastNamed table.rules name position rule) : table.byName name = .ok rule := by
  have put := (positions_locates table name position).mpr ⟨nonempty, rule, found⟩
  rw [byName, put]
  exact (byIndex_natCast_iff ..).mpr found.here

theorem byName_of_contains (known : table.contains name = true) :
    ∃ position rule, IsLastNamed table.rules name position rule ∧ table.byName name = .ok rule := by
  obtain ⟨nonempty, named⟩ := contains_iff.mp known
  obtain ⟨position, rule, found⟩ := (exists_isLastNamed_iff ..).mpr named
  exact ⟨position, rule, found, byName_of_isLastNamed nonempty found⟩

theorem byName_of_not_contains (unknown : table.contains name = false) :
    table.byName name = .error (.noRuleNamed name) := by
  rw [contains, OrderedMap.contains, Option.isSome_eq_false_iff, Option.isNone_iff_eq_none]
    at unknown
  rw [byName, unknown]

theorem contains_append (a b : RuleTable) :
    (a ++ b).contains name = (a.contains name || b.contains name) := by
  rw [Bool.eq_iff_iff, Bool.or_eq_true, contains_iff, contains_iff, contains_iff, append_rules]
  simp only [List.mem_append, or_and_right, exists_or, and_or_left]

theorem byName_append (a b : RuleTable) (name : String) :
    (a ++ b).byName name =
      if b.contains name then b.byName name
      else if a.contains name then a.byName name
      else .error (.noRuleNamed name) := by
  split
  case isTrue second =>
    obtain ⟨position, rule, found, here⟩ := byName_of_contains second
    rw [here]
    exact byName_of_isLastNamed (contains_iff.mp second).1 (found.behind a.rules)
  case isFalse second =>
    split
    case isTrue first =>
      obtain ⟨position, rule, found, here⟩ := byName_of_contains first
      have nonempty := (contains_iff.mp first).1
      have absent : ∀ other ∈ b.rules, other.name ≠ some name :=
        fun other member named => second (contains_iff.mpr ⟨nonempty, other, member, named⟩)
      rw [here]
      exact byName_of_isLastNamed nonempty ((IsLastNamed.append_iff absent).mpr found)
    case isFalse first =>
      apply byName_of_not_contains
      simp [contains_append, first, second]

/-- In two tables appended a name leads to a rule of the second, or else of the first, and an index
counts through the rules of both. The names that lead anywhere in a table are those that it lists,
and each leads to the last rule that has it. -/
theorem lookup_in_appended_tables (a b : RuleTable) :
    (∀ name, (a ++ b).byName name =
        if b.contains name then b.byName name
        else if a.contains name then a.byName name
        else .error (.noRuleNamed name)) ∧
      (∀ name, (Error.noRuleNamed name).report =
        ⟨.key, some ("No rule named '" ++ name ++ "'")⟩) ∧
      (∀ (table : RuleTable) (name : String),
        (table.contains name = true ↔ name ∈ table.names) ∧
        (name ∈ table.names → ∃ position rule,
          IsLastNamed table.rules name position rule ∧ table.byName name = .ok rule) ∧
        (name ∉ table.names → table.byName name = .error (.noRuleNamed name))) ∧
      ∀ index : Int,
        (∀ rule, (a ++ b).byIndex index = .ok rule ↔
          ruleAt? (a.rules ++ b.rules) index = some rule) ∧
        ((a ++ b).byIndex index = .error (.noRuleAt index) ↔
          ¬ (-(a.size + b.size : Int) ≤ index ∧ index < a.size + b.size)) ∧
        (Error.noRuleAt index).report.kind = .index := by
  refine ⟨byName_append a b, fun _ => rfl, ?names, ?indices⟩
  case names =>
    intro table name
    have listed : table.contains name = true ↔ name ∈ table.names :=
      contains_iff.trans mem_names_iff.symm
    refine ⟨listed, fun member => byName_of_contains (listed.mpr member), fun absent => ?_⟩
    exact byName_of_not_contains (Bool.eq_false_iff.mpr fun known => absent (listed.mp known))
  case indices =>
    intro index
    have outside := ruleAt?_eq_none_iff (a.rules ++ b.rules) index
    rw [List.length_append, Int.natCast_add] at outside
    rw [byIndex_eq, append_rules, size, size, ← outside]
    cases ruleAt? (a.rules ++ b.rules) index <;> simp [Error.report, Error.silent]

def sums : RuleTable :=
  ⟨[Identities.rule "zero" (Identities.x + 0) Identities.x,
    Identities.rule "" (0 + Identities.x) Identities.x]⟩

def products : RuleTable :=
  ⟨[Identities.rule "zero" (Identities.x * 0) 0, ⟨Identities.x * 1, Identities.x, none, none⟩]⟩

theorem shared_name_leads_to_second :
    "zero" ∈ (sums ++ products).names ∧ "" ∉ (sums ++ products).names ∧
      (∃ position rule, IsLastNamed (sums ++ products).rules "zero" position rule ∧
        (sums ++ products).byName "zero" = .ok rule) ∧
      (sums ++ products).byName "zero" = products.byName "zero" ∧
      (sums ++ products).byName "" = .error (.noRuleNamed "") := by
  obtain ⟨continued, -, found, -⟩ := lookup_in_appended_tables sums products
  have listed : "zero" ∈ (sums ++ products).names := by decide
  have unlisted : "" ∉ (sums ++ products).names := by decide
  have second : products.contains "zero" = true := by decide
  exact ⟨listed, unlisted, (found _ _).2.1 listed, by rw [continued, if_pos second],
    (found _ _).2.2 unlisted⟩

end RuleTable

end SymbolicSimplifier
