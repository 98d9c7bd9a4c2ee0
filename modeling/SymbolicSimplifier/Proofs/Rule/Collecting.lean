import Mathlib.Data.List.Infix
import SymbolicSimplifier.Identities.Arithmetic
import SymbolicSimplifier.Proofs.Display.Description
import SymbolicSimplifier.Rule.Builder

set_option autoImplicit false

namespace SymbolicSimplifier

namespace RuleBuilder

def leadingRules : List Entry → List Rule
  | .rule rule :: rest => rule :: leadingRules rest
  | _ => []

theorem exists_leadingRules (entries : List Entry) :
    entries = (leadingRules entries).map .rule ∨
      ∃ value rest, entries = (leadingRules entries).map .rule ++ .other value :: rest := by
  fun_induction leadingRules entries with
  | case1 rule rest ih =>
    obtain equal | ⟨value, others, equal⟩ := ih
    · exact .inl (by rw [List.map_cons, ← equal])
    · exact .inr ⟨value, others, by rw [List.map_cons, List.cons_append, ← equal]⟩
  | case2 entries none =>
    cases entries with
    | nil => exact .inl rfl
    | cons entry rest =>
      cases entry with
      | rule rule => exact (none rule rest rfl).elim
      | other value => exact .inr ⟨value, rest, rfl⟩

theorem extend_rules (builder : RuleBuilder) (rules : List Rule) :
    builder.extend (rules.map .rule) = (⟨builder.entries ++ rules.map .rule⟩, none) := by
  induction rules generalizing builder with
  | nil => simp [extend]
  | cons rule rules ih => simp [extend, add, ih]

theorem extend_append_other (builder : RuleBuilder) (rules : List Rule) (value : Value)
    (rest : List Entry) :
    builder.extend (rules.map .rule ++ .other value :: rest) =
      (⟨builder.entries ++ rules.map .rule⟩, some (.extensionNotRule value)) := by
  induction rules generalizing builder with
  | nil => simp [extend]
  | cons rule rules ih => simp [extend, add, ih]

theorem build_rules (rules : List Rule) :
    (⟨rules.map .rule⟩ : RuleBuilder).build = .ok ⟨rules⟩ := by
  have read : rules.mapM (fun rule => (pure rule : Except Error Rule)) = pure rules := by
    simpa using List.mapM_pure (m := Except Error) (l := rules) (f := id)
  change RuleTable.ofEntries (rules.map .rule) = _
  rw [RuleTable.ofEntries, List.mapM_map]
  exact congrArg (Except.map RuleTable.mk) read

end RuleBuilder

inductive BuilderCall where
  | offer (pattern replacement : Value) (name description : Option String)
  | extend (entries : List Entry)
  | build

namespace BuilderCall

def accepted : BuilderCall → List Rule
  | .offer pattern replacement name description =>
    match pattern.lift, replacement.lift with
    | .ok pattern, .ok replacement => [⟨pattern, replacement, name, description⟩]
    | _, _ => []
  | .extend entries => RuleBuilder.leadingRules entries
  | .build => []

end BuilderCall

structure Workbench where
  builder : RuleBuilder
  tables : List RuleTable

namespace Workbench

def start (rules : List Rule) : Workbench :=
  ⟨⟨rules.map .rule⟩, []⟩

def perform (bench : Workbench) : BuilderCall → Workbench × Option Error
  | .offer pattern replacement name description =>
    let (builder, error) := bench.builder.offer pattern replacement name description
    (⟨builder, bench.tables⟩, error)
  | .extend entries =>
    let (builder, error) := bench.builder.extend entries
    (⟨builder, bench.tables⟩, error)
  | .build =>
    match bench.builder.build with
    | .ok table => (⟨bench.builder, bench.tables ++ [table]⟩, none)
    | .error error => (bench, some error)

-- A call that has failed does not keep the next one from being made.
def performAll (bench : Workbench) (calls : List BuilderCall) : Workbench :=
  calls.foldl (fun bench call => (bench.perform call).1) bench

structure Holds (bench : Workbench) (accepted : List Rule) : Prop where
  entries : bench.builder.entries = accepted.map .rule
  stages : ∀ table ∈ bench.tables, table.rules <+: accepted
  growing : bench.tables.Pairwise fun earlier later => earlier.rules <+: later.rules

structure Answers (bench : Workbench) (accepted : List Rule) : Prop where
  adds : ∀ pattern replacement name description left right, pattern.lift = .ok left →
    replacement.lift = .ok right → bench.perform (.offer pattern replacement name description) =
      (⟨⟨(accepted ++ [Rule.mk left right name description]).map .rule⟩, bench.tables⟩, none)
  refuses : ∀ pattern replacement name description error,
    pattern.lift = .error error ∨
        (∃ left, pattern.lift = .ok left) ∧ replacement.lift = .error error →
      bench.perform (.offer pattern replacement name description) = (bench, some error)
  collects : ∀ before, bench.perform (.extend (before.map .rule)) =
    (⟨⟨(accepted ++ before).map .rule⟩, bench.tables⟩, none)
  stops : ∀ before value after,
    bench.perform (.extend (before.map .rule ++ .other value :: after)) =
      (⟨⟨(accepted ++ before).map .rule⟩, bench.tables⟩, some (.extensionNotRule value))
  builds : bench.perform .build = (⟨bench.builder, bench.tables ++ [⟨accepted⟩]⟩, none)

section Offer

variable {pattern replacement : Value} {name description : Option String}

theorem offer_refused {builder : RuleBuilder} {error : Error}
    (refused : pattern.lift = .error error ∨
      (∃ left, pattern.lift = .ok left) ∧ replacement.lift = .error error) :
    builder.offer pattern replacement name description = (builder, some error) := by
  obtain lifted | ⟨⟨left, lifted⟩, lifted'⟩ := refused
  · simp [RuleBuilder.offer, Rule.ofValues, lifted, bind, Except.bind]
  · simp [RuleBuilder.offer, Rule.ofValues, lifted, lifted', bind, Except.bind]

theorem offer_added {builder : RuleBuilder} {left right : Expr} (lifted : pattern.lift = .ok left)
    (lifted' : replacement.lift = .ok right) :
    builder.offer pattern replacement name description =
      (builder.add ⟨left, right, name, description⟩, none) := by
  simp [RuleBuilder.offer, Rule.ofValues, lifted, lifted', bind, Except.bind, pure, Except.pure]

end Offer

variable {bench : Workbench} {accepted : List Rule}

theorem Holds.answers (holds : bench.Holds accepted) : bench.Answers accepted := by
  obtain ⟨⟨entries⟩, tables⟩ := bench
  obtain rfl : entries = accepted.map .rule := holds.entries
  refine ⟨?adds, ?refuses, ?collects, ?stops, ?builds⟩
  case adds =>
    intro pattern replacement name description left right lifted lifted'
    simp [perform, offer_added lifted lifted', RuleBuilder.add]
  case refuses =>
    intro pattern replacement name description error refused
    simp [perform, offer_refused refused]
  case collects =>
    intro before
    simp [perform, RuleBuilder.extend_rules]
  case stops =>
    intro before value after
    simp [perform, RuleBuilder.extend_append_other]
  case builds => simp [perform, RuleBuilder.build_rules]

theorem start_holds (rules : List Rule) : (start rules).Holds rules :=
  ⟨rfl, by simp [start], by simp [start]⟩

theorem Holds.extended (holds : bench.Holds accepted) (more : List Rule) :
    Holds ⟨⟨(accepted ++ more).map .rule⟩, bench.tables⟩ (accepted ++ more) :=
  ⟨rfl, fun table built => (holds.stages table built).trans (List.prefix_append ..),
    holds.growing⟩

theorem Holds.built (holds : bench.Holds accepted) :
    Holds ⟨bench.builder, bench.tables ++ [⟨accepted⟩]⟩ accepted := by
  refine ⟨holds.entries, ?_, ?_⟩
  · intro table built
    obtain built | built := List.mem_append.mp built
    · exact holds.stages table built
    · obtain rfl := List.mem_singleton.mp built
      exact List.prefix_rfl
  · rw [List.pairwise_append]
    refine ⟨holds.growing, List.pairwise_singleton .., ?_⟩
    intro table built last new
    obtain rfl := List.mem_singleton.mp new
    exact holds.stages table built

theorem Holds.perform (holds : bench.Holds accepted) (call : BuilderCall) :
    (bench.perform call).1.Holds (accepted ++ call.accepted) ∧
      bench.tables <+: (bench.perform call).1.tables := by
  have answers := holds.answers
  cases call with
  | offer pattern replacement name description =>
    cases lifted : pattern.lift with
    | error error =>
      rw [answers.refuses _ _ name description error (.inl lifted)]
      simpa [BuilderCall.accepted, lifted] using holds
    | ok left =>
      cases lifted' : replacement.lift with
      | error error =>
        rw [answers.refuses _ _ name description error (.inr ⟨⟨left, lifted⟩, lifted'⟩)]
        simpa [BuilderCall.accepted, lifted, lifted'] using holds
      | ok right =>
        have added : BuilderCall.accepted (.offer pattern replacement name description) =
            [⟨left, right, name, description⟩] := by
          simp [BuilderCall.accepted, lifted, lifted']
        rw [answers.adds _ _ name description left right lifted lifted', added]
        exact ⟨holds.extended _, List.prefix_rfl⟩
  | extend entries =>
    obtain equal | ⟨value, rest, equal⟩ := RuleBuilder.exists_leadingRules entries
    · have collected := answers.collects (RuleBuilder.leadingRules entries)
      rw [← equal] at collected
      rw [collected]
      exact ⟨holds.extended _, List.prefix_rfl⟩
    · have stopped := answers.stops (RuleBuilder.leadingRules entries) value rest
      rw [← equal] at stopped
      rw [stopped]
      exact ⟨holds.extended _, List.prefix_rfl⟩
  | build =>
    rw [answers.builds]
    simpa [BuilderCall.accepted] using holds.built

theorem Holds.performAll (holds : bench.Holds accepted) (calls : List BuilderCall) :
    (bench.performAll calls).Holds (accepted ++ calls.flatMap BuilderCall.accepted) ∧
      bench.tables <+: (bench.performAll calls).tables := by
  induction calls generalizing bench accepted with
  | nil => simpa [Workbench.performAll] using holds
  | cons call calls ih =>
    obtain ⟨next, kept⟩ := holds.perform call
    obtain ⟨last, keptLater⟩ := ih next
    refine ⟨?_, kept.trans keptLater⟩
    rw [List.flatMap_cons, ← List.append_assoc]
    exact last

theorem performAll_append (bench : Workbench) (earlier later : List BuilderCall) :
    bench.performAll (earlier ++ later) = (bench.performAll earlier).performAll later :=
  List.foldl_append

/-- A builder over a list of rules holds after any calls these rules and all that the calls have
added, and takes the next call as one that has accepted just them. The error for an entry that is no
rule is a wrong type if the entry can be described. Calls that come later leave the tables that have
been built as they are. -/
theorem builder_logs_accepted (rules : List Rule) (calls : List BuilderCall) :
    ((start rules).performAll calls).Holds (rules ++ calls.flatMap BuilderCall.accepted) ∧
      ((start rules).performAll calls).Answers (rules ++ calls.flatMap BuilderCall.accepted) ∧
      (∀ value : Value, value.hasDescription = true → ∃ text, value.describe? = some text ∧
        (Error.extensionNotRule value).report = ⟨.type, some ("Expected a Rule, got " ++ text)⟩) ∧
      (∀ value : Value, value.hasDescription = false →
        (Error.extensionNotRule value).report = ⟨.value, none⟩) ∧
      ∀ (later : List BuilderCall) (index : Nat) (table : RuleTable),
        ((start rules).performAll calls).tables[index]? = some table →
        ((start rules).performAll (calls ++ later)).tables[index]? = some table := by
  obtain ⟨holds, -⟩ := (start_holds rules).performAll calls
  refine ⟨holds, holds.answers, ?described, ?undescribed, ?kept⟩
  case described =>
    intro value describable
    obtain ⟨text, described, report⟩ :=
      Error.about_of_hasDescription describable .type "Expected a Rule, got " ""
    exact ⟨text, described, by rw [Error.report, report, String.append_empty]⟩
  case undescribed =>
    exact fun _ undescribable => Error.about_of_not_hasDescription undescribable ..
  case kept =>
    intro later index table built
    obtain ⟨inside, -⟩ := List.getElem?_eq_some_iff.mp built
    obtain ⟨newer, kept⟩ := (holds.performAll later).2
    rw [performAll_append, ← kept, List.getElem?_append_left inside]
    exact built

theorem builder_logs_arithmetic :
    ((start []).performAll [.build, .offer (.text "x") (.expr Identities.x) none none,
        .extend (Identities.arithmetic.entries ++ [.other (.number (.int 3))]), .build]).tables =
        [⟨[]⟩, Identities.arithmetic] ∧
      ((start []).performAll [.build, .offer (.text "x") (.expr Identities.x) none none,
        .extend (Identities.arithmetic.entries ++ [.other (.number (.int 3))]), .build]).Answers
        Identities.arithmetic.rules :=
  ⟨rfl, (builder_logs_accepted [] _).2.1⟩

theorem long_literal_is_no_type_error :
    ¬ ∀ (rules before : List Rule) (value : Value) (after : List Entry), ∃ error,
      ((start rules).perform (.extend (before.map .rule ++ .other value :: after))).2 = some error ∧
        error.report.kind = .type := by
  intro claimed
  obtain ⟨error, stopped, kind⟩ := claimed [] [] (.expr (.literal (.int Number.textBound))) []
  obtain rfl := Option.some.inj stopped
  have long := Nat.le_of_eq (Int.natAbs_natCast Number.textBound).symm
  rw [Error.report, Error.about_of_not_hasDescription (Value.not_hasDescription_of_long long)]
    at kind
  cases kind

end Workbench

end SymbolicSimplifier
