import Mathlib.Data.List.TakeWhile
import SymbolicSimplifier.Proofs.Simplifier.Replay
import SymbolicSimplifier.Simplifier.Log

set_option autoImplicit false

namespace SymbolicSimplifier

open SymbolicSimplifier.Expr

def Run.trees (run : Run) : List Expr :=
  match run.ending with
  | .limited next => run.states ++ [next.after]
  | _ => run.states

namespace Step

def HasLabel (step : Step) (label : String) : Prop :=
  (step.rule = none ∧ label = "fold") ∨
    ∃ rule, step.rule = some rule ∧
      (rule.title? = some label ∨ rule.title? = none ∧ label = "<anonymous>")

def IsLoggedAs (step : Step) (line : LogLine) : Prop :=
  ∃ label before after, step.HasLabel label ∧ step.before.display? = some before ∧
    step.after.display? = some after ∧ line = ⟨.debug, label ++ ": " ++ before ++ " -> " ++ after⟩

theorem logLabel_hasLabel (step : Step) : step.HasLabel step.logLabel := by
  unfold HasLabel logLabel
  cases step.rule with
  | none => exact .inl ⟨rfl, rfl⟩
  | some rule =>
    refine .inr ⟨rule, rfl, ?_⟩
    cases titled : rule.title? with
    | none => exact .inr ⟨rfl, by simp [Rule.label, titled, anonymousLabel]⟩
    | some title => exact .inl (by simp [Rule.label, titled])

theorem isLoggedAs_of_logLine? {step : Step} {line : LogLine} (logged : step.logLine? = some line) :
    step.IsLoggedAs line := by
  simp only [logLine?, Option.bind_eq_bind, Option.bind_eq_some_iff, Option.pure_def,
    Option.some.injEq] at logged
  obtain ⟨before, displayed, after, displayed', rfl⟩ := logged
  exact ⟨step.logLabel, before, after, logLabel_hasLabel step, displayed, displayed', rfl⟩

theorem logLine?_isSome {step : Step} (before : step.before.display?.isSome = true)
    (after : step.after.display?.isSome = true) : step.logLine?.isSome = true := by
  obtain ⟨text, displayed⟩ := Option.isSome_iff_exists.mp before
  obtain ⟨text', displayed'⟩ := Option.isSome_iff_exists.mp after
  simp [logLine?, displayed, displayed']

end Step

theorem exists_eq_map_some {α : Type} {options : List (Option α)}
    (each : ∀ option ∈ options, option.isSome = true) : ∃ as : List α, options = as.map some := by
  induction options with
  | nil => exact ⟨[], rfl⟩
  | cons option rest ih =>
    obtain ⟨here, others⟩ := List.forall_mem_cons.mp each
    obtain ⟨a, rfl⟩ := Option.isSome_iff_exists.mp here
    obtain ⟨as, rfl⟩ := ih others
    exact ⟨a :: as, rfl⟩

abbrev Logged :=
  ExceptT Error (StateM (List LogLine))

namespace Logged

variable {α β : Type}

def after (action : Logged α) (log : List LogLine) : Except Error α × List LogLine :=
  action.run log

-- The handler formats every line at once and lets a failure through, as for `Run.loggedResult`.
def write : Option LogLine → Logged Unit
  | some line => modify (· ++ [line])
  | none => throw .unprintable

def announce : Option Step → Logged (Option Step)
  | some step => do
    write step.logLine?
    return some step
  | none => return none

theorem after_bind (action : Logged α) (next : α → Logged β) (log : List LogLine) :
    (action >>= next).after log =
      match action.after log with
      | (.ok a, log) => (next a).after log
      | (.error error, log) => (.error error, log) := by
  change ExceptT.bindCont next (action.after log).1 (action.after log).2 = _
  generalize action.after log = result
  obtain ⟨_ | _, _⟩ := result <;> rfl

theorem after_write_some (line : LogLine) (log : List LogLine) :
    (write (some line)).after log = (.ok (), log ++ [line]) :=
  rfl

theorem after_write_none (log : List LogLine) :
    (write none).after log = (.error .unprintable, log) :=
  rfl

theorem after_throw (error : Error) (log : List LogLine) :
    (throw error : Logged α).after log = (.error error, log) :=
  rfl

theorem after_announce_some (step : Step) (log : List LogLine) :
    (announce (some step)).after log =
      match step.logLine? with
      | some line => (.ok (some step), log ++ [line])
      | none => (.error .unprintable, log) := by
  rw [announce, after_bind]
  cases step.logLine? <;> rfl

end Logged

namespace Run

def logged (run : Run) : Except Error (Expr × Trace) × List LogLine :=
  (run.loggedResult.map fun result => (result, run.trace), run.writtenLog)

variable {run : Run} {log : List LogLine}

theorem logged_of_steps (written : run.steps.map Step.logLine? = log.map some) :
    run.logged =
      (if run.closingLines.all Option.isSome then run.result.map fun result => (result, run.trace)
        else .error .unprintable,
        log ++ (run.closingLines.takeWhile Option.isSome).filterMap id) := by
  simp only [logged, loggedResult, writtenLog, Run.log, written]
  simp
  split <;> rfl

theorem logged_of_unprintable {earlier later : List Step} {step : Step}
    (steps : run.steps = earlier ++ step :: later)
    (written : earlier.map Step.logLine? = log.map some) (missing : step.logLine? = none) :
    run.logged = (.error .unprintable, log) := by
  simp [logged, loggedResult, writtenLog, Run.log, steps, written, missing, Except.map]

end Run

namespace Simplifier

def changeLine? (label : String) (before after : Expr) : Option LogLine := do
  let before ← before.display?
  let after ← after.display?
  return ⟨.debug, label ++ ": " ++ before ++ " -> " ++ after⟩

def searchRules (handlers : Prelude) (e : Expr) : Int → List Rule → Logged (Option Step)
  | _, [] => return none
  | index, rule :: rules => do
    let after := rule.rewrite handlers e
    if after == e then searchRules handlers e (index + 1) rules
    else
      Logged.write (changeLine? rule.label e after)
      return some ⟨index, some rule, e, after⟩

def searchFolding (handlers : Prelude) (e : Expr) : Logged (Option Step) := do
  let after := e.fold handlers
  if after == e then return none
  else
    Logged.write (changeLine? "fold" e after)
    return some ⟨-1, none, e, after⟩

def search (simplifier : Simplifier) (e : Expr) : Logged (Option Step) := do
  match ← searchRules simplifier.handlers e 0 simplifier.rules.rules with
  | some step => return some step
  | none => searchFolding simplifier.handlers e

def logRound (simplifier : Simplifier) (depth taken : Nat) (trace : Trace) (e : Expr)
    (proceed : Step → Logged (Expr × Trace)) : Logged (Expr × Trace) := do
  if e.deeperThan depth then
    Logged.write
      (some ⟨.warning, "Expression too deep to simplify after " ++ toString taken ++ " steps"⟩)
    throw (.tooDeep taken)
  else
    match ← simplifier.search e with
    | none => return (e, { trace with final := some e })
    | some step => proceed step

def logFrom (simplifier : Simplifier) (depth : Nat) :
    Nat → Nat → Trace → Expr → Logged (Expr × Trace)
  | 0, taken, trace, e => simplifier.logRound depth taken trace e fun _ => do
    Logged.write (e.display?.map fun text =>
      ⟨.warning, "No fixed point after " ++ toString taken ++ " steps: " ++ text⟩)
    throw (.unsettled taken e)
  | limit + 1, taken, trace, e => simplifier.logRound depth taken trace e fun step =>
    logFrom simplifier depth limit (taken + 1) { trace with steps := trace.steps ++ [step] }
      step.after

def logSimplify (simplifier : Simplifier) (depth limit : Nat) (e : Expr) :
    Except Error (Expr × Trace) × List LogLine :=
  (simplifier.logFrom depth limit 0 ⟨some e, none, []⟩ e).after []

theorem searchRules_eq (handlers : Prelude) (e : Expr) (index : Int) (rules : List Rule) :
    searchRules handlers e index rules =
      Logged.announce (firstChange? handlers e index rules) := by
  induction rules generalizing index with
  | nil => rfl
  | cons rule rules ih =>
    simp only [searchRules, firstChange?]
    split
    · exact ih (index + 1)
    · rfl

theorem searchFolding_eq (handlers : Prelude) (e : Expr) :
    searchFolding handlers e = Logged.announce (foldingStep? handlers e) := by
  simp only [searchFolding, foldingStep?]
  split <;> rfl

theorem search_eq (simplifier : Simplifier) (e : Expr) :
    simplifier.search e = Logged.announce (simplifier.advance? e) := by
  rw [search, searchRules_eq, searchFolding_eq, advance?]
  cases firstChange? simplifier.handlers e 0 simplifier.rules.rules with
  | none => rfl
  | some step => simp [Logged.announce]

section Round

variable {simplifier : Simplifier} {depth : Nat} {e : Expr}
  {proceed : Step → Logged (Expr × Trace)}

theorem logRound_deep (deep : e.deeperThan depth = true) (taken : Nat) (trace : Trace)
    (log : List LogLine) :
    (simplifier.logRound depth taken trace e proceed).after log =
      (.error (.tooDeep taken), log ++
        [⟨.warning, "Expression too deep to simplify after " ++ toString taken ++ " steps"⟩]) := by
  simp only [logRound, deep, if_true, Logged.after_bind, Logged.after_write_some,
    Logged.after_throw]

theorem logRound_shallow (shallow : e.deeperThan depth = false) (taken : Nat) (trace : Trace)
    (log : List LogLine) :
    (simplifier.logRound depth taken trace e proceed).after log =
      match simplifier.advance? e with
      | none => (.ok (e, { trace with final := some e }), log)
      | some step =>
        match step.logLine? with
        | none => (.error .unprintable, log)
        | some line => (proceed step).after (log ++ [line]) := by
  rw [logRound, if_neg (by simp [shallow]), search_eq, Logged.after_bind]
  cases simplifier.advance? e with
  | none => rfl
  | some step =>
    rw [Logged.after_announce_some]
    cases printed : step.logLine? <;> simp [printed]

end Round

theorem exists_logRound (simplifier : Simplifier) (depth limit taken : Nat) (trace : Trace)
    (e : Expr) :
    ∃ proceed, simplifier.logFrom depth limit taken trace e =
      simplifier.logRound depth taken trace e proceed := by
  cases limit <;> exact ⟨_, rfl⟩

-- The log by now is that of the steps taken before, so both go on as if the run had begun there.
theorem logFrom_eq_logged (simplifier : Simplifier) (start : Expr) (depth limit : Nat) (e : Expr)
    (earlier : List Step) (log : List LogLine)
    (written : earlier.map Step.logLine? = log.map some) :
    (simplifier.logFrom depth limit earlier.length ⟨some start, none, earlier⟩ e).after log =
      ((simplifier.run depth limit e).prepend start earlier).logged := by
  fun_induction Simplifier.run simplifier depth limit e generalizing earlier log with
  | case1 limit e deep =>
    obtain ⟨proceed, round⟩ := exists_logRound simplifier depth limit earlier.length
      ⟨some start, none, earlier⟩ e
    rw [round, logRound_deep deep, Run.logged_of_steps (by simpa [Run.prepend] using written)]
    simp [Run.prepend, Run.closingLines, Run.length, Run.result, Except.map]
  | case2 limit e shallow settled =>
    rw [Bool.not_eq_true] at shallow
    obtain ⟨proceed, round⟩ := exists_logRound simplifier depth limit earlier.length
      ⟨some start, none, earlier⟩ e
    rw [round, logRound_shallow shallow, settled,
      Run.logged_of_steps (by simpa [Run.prepend] using written)]
    simp [Run.prepend, Run.closingLines, Run.result, Except.map, Run.trace]
  | case3 e shallow step advanced =>
    rw [Bool.not_eq_true] at shallow
    rw [logFrom, logRound_shallow shallow, advanced,
      Run.logged_of_steps (by simpa [Run.prepend] using written)]
    cases printed : step.logLine? with
    | none => simp [Run.prepend, Run.closingLines, printed]
    | some line =>
      cases displayed : e.display? with
      | none =>
        simp [Run.prepend, Run.closingLines, printed, displayed, Logged.after_bind,
          Logged.after_write_none]
      | some text =>
        simp [Run.prepend, Run.closingLines, Run.length, Run.result, Except.map, printed, displayed,
          Logged.after_bind, Logged.after_write_some, Logged.after_throw]
  | case4 e shallow step limit advanced rest ih =>
    rw [Bool.not_eq_true] at shallow
    rw [logFrom, logRound_shallow shallow, advanced]
    cases printed : step.logLine? with
    | none => simpa [printed] using (Run.logged_of_unprintable rfl written printed).symm
    | some line =>
      have recorded : (earlier ++ [step]).map Step.logLine? = (log ++ [line]).map some := by
        simp [written, printed]
      have next := ih _ _ recorded
      rw [List.length_append] at next
      simpa [Run.prepend, printed] using next

theorem logSimplify_eq_logged (simplifier : Simplifier) (depth limit : Nat) (e : Expr) :
    simplifier.logSimplify depth limit e = (simplifier.run depth limit e).logged := by
  have logged := logFrom_eq_logged simplifier e depth limit e [] [] rfl
  rwa [run_prepend_nil] at logged

section Printable

variable {simplifier : Simplifier} {depth limit : Nat} {e : Expr}

theorem mem_states_of_step {step : Step} (member : step ∈ (simplifier.run depth limit e).steps) :
    step.before ∈ (simplifier.run depth limit e).states ∧
      step.after ∈ (simplifier.run depth limit e).states := by
  have joined := (run_path simplifier depth limit e).joined
  rw [Run.states, run_initial, ← joined]
  constructor
  · exact List.mem_append_left _ (List.mem_map_of_mem member)
  · rw [joined]
    exact .tail _ (List.mem_map_of_mem member)

theorem final_mem_states :
    (simplifier.run depth limit e).final ∈ (simplifier.run depth limit e).states := by
  rw [Run.states, run_initial, ← (run_path simplifier depth limit e).joined]
  exact List.mem_append_right _ (.head _)

variable (printable : ∀ f ∈ (simplifier.run depth limit e).trees, f.display?.isSome = true)
include printable

theorem display?_isSome_of_states {f : Expr}
    (passed : f ∈ (simplifier.run depth limit e).states) :
    f.display?.isSome = true := by
  apply printable
  unfold Run.trees
  split
  · exact List.mem_append_left _ passed
  · exact passed

theorem logLine?_isSome_of_steps :
    ∀ line ∈ (simplifier.run depth limit e).steps.map Step.logLine?, line.isSome = true := by
  intro line member
  obtain ⟨step, taken, rfl⟩ := List.mem_map.mp member
  obtain ⟨before, after⟩ := mem_states_of_step taken
  exact Step.logLine?_isSome (display?_isSome_of_states printable before)
    (display?_isSome_of_states printable after)

theorem closingLines_isSome :
    ∀ line ∈ (simplifier.run depth limit e).closingLines, line.isSome = true := by
  have final := display?_isSome_of_states printable final_mem_states
  unfold Run.closingLines
  cases ending : (simplifier.run depth limit e).ending with
  | settled => simp
  | tooDeep => simp
  | limited next =>
    have before : next.before = (simplifier.run depth limit e).final :=
      advance?_before (advance?_of_limited ending).2
    have after : next.after.display?.isSome = true := by
      apply printable
      simp [Run.trees, ending]
    have line := Step.logLine?_isSome (before ▸ final) after
    simp [line, final]

theorem logged_of_printable :
    ∃ lines closing, List.Forall₂ Step.IsLoggedAs (simplifier.run depth limit e).steps lines ∧
      (simplifier.run depth limit e).closingLines = closing.map some ∧
      (simplifier.run depth limit e).logged =
        ((simplifier.run depth limit e).result.map fun result =>
          (result, (simplifier.run depth limit e).trace), lines ++ closing) := by
  obtain ⟨lines, written⟩ := exists_eq_map_some (logLine?_isSome_of_steps printable)
  obtain ⟨closing, closed⟩ := exists_eq_map_some (closingLines_isSome printable)
  refine ⟨lines, closing, ?_, closed, ?_⟩
  · rw [← List.forall₂_eq_eq_eq, List.forall₂_map_left_iff, List.forall₂_map_right_iff] at written
    exact written.imp fun _ _ => Step.isLoggedAs_of_logLine?
  · have whole : (closing.map some).takeWhile Option.isSome = closing.map some :=
      List.takeWhile_eq_self_iff.mpr (by simp)
    rw [Run.logged_of_steps written, closed, whole]
    simp

end Printable

/-- If all that a run comes to can be written, the log of a simplification that returns has one line
for every step of its trace. The log of one that stops at the limit has one for every step that has
been taken, one for the step that would have been the next, and a warning. -/
theorem log_tells_trace (simplifier : Simplifier) (depth limit : Nat) (e : Expr)
    (printable : ∀ f ∈ (simplifier.run depth limit e).trees, f.display?.isSome = true) :
    simplifier.logSimplify depth limit e =
        ((simplifier.run depth limit e).result.map fun result =>
          (result, (simplifier.run depth limit e).trace),
          (simplifier.run depth limit e).writtenLog) ∧
      (∀ result trace, (simplifier.logSimplify depth limit e).1 = .ok (result, trace) →
        List.Forall₂ Step.IsLoggedAs trace.steps (simplifier.logSimplify depth limit e).2) ∧
      ∀ count last, (simplifier.logSimplify depth limit e).1 = .error (.unsettled count last) →
        count = limit ∧ ∃ steps next lines line text,
          simplifier.Path e steps last ∧ steps.length = limit ∧
          simplifier.advance? last = some next ∧ next.before = last ∧
          List.Forall₂ Step.IsLoggedAs steps lines ∧ next.IsLoggedAs line ∧
          last.display? = some text ∧
          (simplifier.logSimplify depth limit e).2 = lines ++
            [line,
              ⟨.warning, "No fixed point after " ++ toString limit ++ " steps: " ++ text⟩] := by
  obtain ⟨lines, closing, written, closed, logged⟩ := logged_of_printable printable
  rw [logSimplify_eq_logged, logged]
  refine ⟨?executed, ?returns, ?stops⟩
  case executed =>
    have log : (simplifier.run depth limit e).logged.2 =
        (simplifier.run depth limit e).writtenLog := rfl
    rw [← log, logged]
  case returns =>
    intro result trace returned
    cases ran : (simplifier.run depth limit e).result with
    | error error => simp [ran, Except.map] at returned
    | ok final =>
      obtain ⟨rfl, rfl⟩ : final = result ∧ (simplifier.run depth limit e).trace = trace := by
        simpa [ran, Except.map] using returned
      rw [Run.closingLines, (Run.result_eq_ok ran).1] at closed
      obtain rfl : closing = [] := List.map_eq_nil_iff.mp closed.symm
      simpa [Run.trace] using written
  case stops =>
    intro count last stopped
    cases ran : (simplifier.run depth limit e).result with
    | ok final => simp [ran, Except.map] at stopped
    | error error =>
      obtain rfl : error = .unsettled count last := by simpa [ran, Except.map] using stopped
      obtain ⟨⟨next, limited⟩, rfl, rfl⟩ := Run.result_eq_unsettled ran
      obtain ⟨length, advanced⟩ := advance?_of_limited limited
      rw [Run.closingLines, limited, length] at closed
      obtain ⟨line, rest, rfl, found, closed⟩ := List.map_eq_cons_iff.mp closed.symm
      obtain ⟨warning, rest, rfl, warned, closed⟩ := List.map_eq_cons_iff.mp closed
      obtain rfl := List.map_eq_nil_iff.mp closed
      obtain ⟨text, displayed, rfl⟩ := Option.map_eq_some_iff.mp warned.symm
      exact ⟨length, _, next, lines, line, text, run_path .., length, advanced,
        advance?_before advanced, written, Step.isLoggedAs_of_logLine? found.symm, displayed, rfl⟩

theorem log_tells_trace_of_mul_one :
    (∀ limit ∈ [1, 2], ∀ f ∈ (standard.run standardDepth limit (Identities.x * 1 + 0)).trees,
        f.display?.isSome = true) ∧
      (standard.logSimplify standardDepth 2 (Identities.x * 1 + 0) =
          (.ok (Identities.x, (standard.run standardDepth 2 (Identities.x * 1 + 0)).trace),
            [⟨.debug, "add-zero: x*1 + 0 -> x*1"⟩, ⟨.debug, "mul-one: x*1 -> x"⟩]) ∧
        List.Forall₂ Step.IsLoggedAs
          (standard.run standardDepth 2 (Identities.x * 1 + 0)).trace.steps
          [⟨.debug, "add-zero: x*1 + 0 -> x*1"⟩, ⟨.debug, "mul-one: x*1 -> x"⟩]) ∧
      standard.logSimplify standardDepth 1 (Identities.x * 1 + 0) =
        (.error (.unsettled 1 (Identities.x * 1)),
          [⟨.debug, "add-zero: x*1 + 0 -> x*1"⟩, ⟨.debug, "mul-one: x*1 -> x"⟩,
            ⟨.warning, "No fixed point after 1 steps: x*1"⟩]) ∧
      ∃ steps next lines line text,
        standard.Path (Identities.x * 1 + 0) steps (Identities.x * 1) ∧ steps.length = 1 ∧
        standard.advance? (Identities.x * 1) = some next ∧ next.before = Identities.x * 1 ∧
        List.Forall₂ Step.IsLoggedAs steps lines ∧ next.IsLoggedAs line ∧
        (Identities.x * 1).display? = some text ∧
        (standard.logSimplify standardDepth 1 (Identities.x * 1 + 0)).2 = lines ++
          [line, ⟨.warning, "No fixed point after " ++ toString 1 ++ " steps: " ++ text⟩] := by
  have printable : ∀ limit ∈ [1, 2],
      ∀ f ∈ (standard.run standardDepth limit (Identities.x * 1 + 0)).trees,
        f.display?.isSome = true := by decide +kernel
  refine ⟨printable, ?returns, ?stops⟩
  case returns =>
    obtain ⟨executed, returns, -⟩ :=
      log_tells_trace standard standardDepth 2 (Identities.x * 1 + 0) (printable 2 (by simp))
    have result : (standard.run standardDepth 2 (Identities.x * 1 + 0)).result =
        .ok Identities.x := rfl
    have written : (standard.run standardDepth 2 (Identities.x * 1 + 0)).writtenLog =
        [⟨.debug, "add-zero: x*1 + 0 -> x*1"⟩, ⟨.debug, "mul-one: x*1 -> x"⟩] := by
      decide +kernel
    rw [result, written] at executed
    have lines := returns _ _ (congrArg Prod.fst executed)
    rw [executed] at lines
    exact ⟨executed, lines⟩
  case stops =>
    obtain ⟨executed, -, stops⟩ :=
      log_tells_trace standard standardDepth 1 (Identities.x * 1 + 0) (printable 1 (by simp))
    have result : (standard.run standardDepth 1 (Identities.x * 1 + 0)).result =
        .error (.unsettled 1 (Identities.x * 1)) := rfl
    have written : (standard.run standardDepth 1 (Identities.x * 1 + 0)).writtenLog =
        [⟨.debug, "add-zero: x*1 + 0 -> x*1"⟩, ⟨.debug, "mul-one: x*1 -> x"⟩,
          ⟨.warning, "No fixed point after 1 steps: x*1"⟩] := by decide +kernel
    rw [result, written] at executed
    exact ⟨executed, (stops _ _ (congrArg Prod.fst executed)).2⟩

end Simplifier

end SymbolicSimplifier
