import SymbolicSimplifier.Matching
import SymbolicSimplifier.Proofs.Expr.Structure

set_option autoImplicit false

namespace SymbolicSimplifier

namespace Bindings

def Extends (first second : Bindings) : Prop :=
  ∀ name e, first.find? name = some e → second.find? name = some e

def Respects (solution : Bindings) (names : List String) (bindings : Bindings) : Prop :=
  ∀ name ∈ names, ∀ bound, bindings.find? name = some bound →
    (solution.lookup name).same bound = true

theorem Extends.refl (bindings : Bindings) : bindings.Extends bindings :=
  fun _ _ bound => bound

theorem Extends.trans {first second third : Bindings} (left : first.Extends second)
    (right : second.Extends third) : first.Extends third :=
  fun name e bound => right name e (left name e bound)

theorem lookup_of_find? {bindings : Bindings} {name : String} {e : Expr}
    (bound : bindings.find? name = some e) : bindings.lookup name = e := by
  simp [lookup, bound]

theorem bind?_eq_some_iff (bindings result : Bindings) (name : String) (e : Expr) :
    bindings.bind? name e = some result ↔
      (∃ bound, bindings.find? name = some bound ∧ bound.same e = true ∧ result = bindings) ∨
        (bindings.find? name = none ∧ result = bindings.insert name e) := by
  cases bound : bindings.find? name <;> simp [bind?, bound, eq_comm (b := result)]

theorem Extends.insert {bindings : Bindings} {name : String} (e : Expr)
    (fresh : bindings.find? name = none) : bindings.Extends (bindings.insert name e) := by
  intro other bound found
  have different : name ≠ other := by
    rintro rfl
    simp [fresh] at found
  simp [OrderedMap.find?_insert, different, found]

theorem Extends.bind? {bindings result : Bindings} {name : String} {e : Expr}
    (bound : bindings.bind? name e = some result) : bindings.Extends result := by
  obtain ⟨_, _, _, rfl⟩ | ⟨fresh, rfl⟩ := (bind?_eq_some_iff ..).mp bound
  · exact .refl _
  · exact .insert e fresh

theorem find?_of_bind? {bindings result : Bindings} {name : String} {e : Expr}
    (bound : bindings.bind? name e = some result) :
    ∃ value, result.find? name = some value ∧ value.same e = true := by
  obtain ⟨value, found, equal, rfl⟩ | ⟨_, rfl⟩ := (bind?_eq_some_iff ..).mp bound
  · exact ⟨value, found, equal⟩
  · exact ⟨e, by simp [OrderedMap.find?_insert], Expr.same_refl e⟩

theorem Respects.bind? {solution bindings : Bindings} {names : List String} {name : String}
    {e : Expr} (respects : solution.Respects names bindings) (known : name ∈ names)
    (equal : (solution.lookup name).same e = true) :
    ∃ result, bindings.bind? name e = some result ∧ solution.Respects names result := by
  cases found : bindings.find? name with
  | some bound =>
    have agree := Expr.same_trans (Expr.same_symm (respects name known bound found)) equal
    exact ⟨bindings, (bind?_eq_some_iff ..).mpr (.inl ⟨bound, found, agree, rfl⟩), respects⟩
  | none =>
    refine ⟨_, (bind?_eq_some_iff ..).mpr (.inr ⟨found, rfl⟩), ?_⟩
    intro other member bound there
    rw [OrderedMap.find?_insert] at there
    split at there
    case isTrue here =>
      cases there
      exact here ▸ equal
    case isFalse => exact respects other member bound there

end Bindings

namespace Expr

theorem matchFrom_induction {P : Expr → Expr → Bindings → Bindings → Prop}
    {Q : List Expr → List Expr → Bindings → Bindings → Prop}
    (var : ∀ name e start result, start.bind? name e = some result → P (.var name) e start result)
    (literal : ∀ n e start, (literal n).same e = true → P (.literal n) e start start)
    (named : ∀ name n e start, (named name n).same e = true → P (.named name n) e start start)
    (node : ∀ head patterns args start result,
      Q patterns args start result → P (.node head patterns) (.node head args) start result)
    (nil : ∀ start, Q [] [] start start)
    (cons : ∀ pattern patterns e es start middle result, P pattern e start middle →
      Q patterns es middle result → Q (pattern :: patterns) (e :: es) start result)
    {pattern e : Expr} {start result : Bindings}
    (matched : pattern.matchFrom e start = some result) : P pattern e start result := by
  induction pattern using Expr.induction generalizing e start result with
  | literal n =>
    simp only [matchFrom, Option.ite_none_right_eq_some, Option.some.injEq] at matched
    exact matched.2 ▸ literal n e start matched.1
  | named name n =>
    simp only [matchFrom, Option.ite_none_right_eq_some, Option.some.injEq] at matched
    exact matched.2 ▸ named name n e start matched.1
  | var name => exact var name e start result matched
  | node head patterns ih =>
    cases e with
    | node head' args =>
      simp only [matchFrom, Option.ite_none_right_eq_some] at matched
      obtain ⟨rfl, matched⟩ := matched
      apply node
      induction patterns generalizing args start with
      | nil =>
        cases args with
        | nil => exact Option.some.inj matched ▸ nil start
        | cons => simp [matchAllFrom] at matched
      | cons first rest all =>
        cases args with
        | nil => simp [matchAllFrom] at matched
        | cons e es =>
          simp only [List.forall_mem_cons] at ih
          rw [matchAllFrom] at matched
          split at matched
          case h_1 middle inner => exact cons _ _ _ _ _ middle _ (ih.1 inner) (all ih.2 es matched)
          case h_2 => simp at matched
    | _ => simp [matchFrom] at matched

section Soundness

-- A later match may bind more variables, so this is about every extension of the result.
def Solves (pattern e : Expr) (result : Bindings) : Prop :=
  ∀ later, result.Extends later →
    (∀ name ∈ pattern.varNames, ∃ value, later.find? name = some value) ∧
      (pattern.substitute later).same e = true

def SolvesAll (patterns es : List Expr) (result : Bindings) : Prop :=
  ∀ later, result.Extends later →
    (∀ name ∈ patterns.flatMap varNames, ∃ value, later.find? name = some value) ∧
      List.Forall₂ (fun a b => a.same b = true) (patterns.map (substitute later)) es

theorem Solves.var {start result : Bindings} {name : String} {e : Expr}
    (bound : start.bind? name e = some result) : Solves (.var name) e result := by
  intro later extended
  obtain ⟨value, found, equal⟩ := Bindings.find?_of_bind? bound
  have kept := extended name value found
  constructor
  · simp [kept]
  · rwa [substitute_var, Bindings.lookup_of_find? kept]

theorem Solves.node {head : Head} {patterns args : List Expr} {result : Bindings}
    (all : SolvesAll patterns args result) :
    Solves (.node head patterns) (.node head args) result := by
  intro later extended
  obtain ⟨covered, equal⟩ := all later extended
  rw [varNames_node, substitute_node]
  exact ⟨covered, (node_same_iff ..).mpr ⟨args, rfl, equal⟩⟩

theorem SolvesAll.cons {pattern e : Expr} {patterns es : List Expr} {middle result : Bindings}
    (extended : middle.Extends result) (first : Solves pattern e middle)
    (rest : SolvesAll patterns es result) :
    SolvesAll (pattern :: patterns) (e :: es) result := by
  intro later further
  obtain ⟨covered, equal⟩ := first later (extended.trans further)
  obtain ⟨coveredAll, equalAll⟩ := rest later further
  constructor
  · intro name member
    rcases List.mem_append.mp (List.flatMap_cons ▸ member) with here | there
    · exact covered name here
    · exact coveredAll name there
  · exact .cons equal equalAll

theorem matchFrom_solves {pattern e : Expr} {start result : Bindings}
    (matched : pattern.matchFrom e start = some result) :
    start.Extends result ∧ Solves pattern e result := by
  refine matchFrom_induction (P := fun pattern e start result =>
      start.Extends result ∧ Solves pattern e result)
    (Q := fun patterns es start result => start.Extends result ∧ SolvesAll patterns es result)
    ?var ?literal ?named ?node ?nil ?cons matched
  case var =>
    intro name e start result bound
    exact ⟨.bind? bound, .var bound⟩
  case literal =>
    intro n e start equal
    exact ⟨.refl _, fun _ _ => ⟨by simp, equal⟩⟩
  case named =>
    intro name n e start equal
    exact ⟨.refl _, fun _ _ => ⟨by simp, equal⟩⟩
  case node =>
    intro head patterns args start result all
    exact ⟨all.1, .node all.2⟩
  case nil =>
    intro start
    exact ⟨.refl _, fun _ _ => ⟨by simp, .nil⟩⟩
  case cons =>
    intro pattern patterns e es start middle result first rest
    exact ⟨first.1.trans rest.1, .cons rest.1 first.2 rest.2⟩

theorem find?_of_matchFrom {pattern e : Expr} {start result : Bindings}
    (matched : pattern.matchFrom e start = some result) {name : String} {value : Expr}
    (found : result.find? name = some value) :
    start.find? name = some value ∨ Subterm value e := by
  revert name value
  refine matchFrom_induction (P := fun _ e start result => ∀ {name value},
      result.find? name = some value → start.find? name = some value ∨ Subterm value e)
    (Q := fun _ es start result => ∀ {name value},
      result.find? name = some value →
        start.find? name = some value ∨ ∃ e ∈ es, Subterm value e)
    ?var ?literal ?named ?node ?nil ?cons matched
  case var =>
    intro name e start result bound other value found
    obtain ⟨_, _, _, rfl⟩ | ⟨_, rfl⟩ := (Bindings.bind?_eq_some_iff ..).mp bound
    · exact .inl found
    · rw [OrderedMap.find?_insert] at found
      split at found
      · cases found
        exact .inr (.refl e)
      · exact .inl found
  case literal => exact fun _ _ _ _ _ _ found => .inl found
  case named => exact fun _ _ _ _ _ _ _ found => .inl found
  case node =>
    intro head patterns args start result all name value found
    exact (all found).imp_right fun ⟨a, member, inside⟩ => .arg member inside
  case nil => exact fun _ _ _ found => .inl found
  case cons =>
    intro pattern patterns e es start middle result first rest name value found
    rcases rest found with before | ⟨a, member, inside⟩
    · exact (first before).imp_right fun inside => ⟨e, .head _, inside⟩
    · exact .inr ⟨a, .tail _ member, inside⟩

end Soundness

section Completeness

variable {solution : Bindings} {names : List String}

-- The names are fixed along the pattern, so that what later arguments need stays in the invariant.
theorem matchAllFrom_of_respects {patterns : List Expr}
    (ih : ∀ pattern ∈ patterns, ∀ e start, (∀ name ∈ pattern.varNames, name ∈ names) →
      solution.Respects names start → (pattern.substitute solution).same e = true →
      ∃ result, pattern.matchFrom e start = some result ∧ solution.Respects names result)
    {es : List Expr} {start : Bindings}
    (known : ∀ name ∈ patterns.flatMap varNames, name ∈ names)
    (respects : solution.Respects names start)
    (equal : List.Forall₂ (fun a b => a.same b = true) (patterns.map (substitute solution)) es) :
    ∃ result, matchAllFrom patterns es start = some result ∧ solution.Respects names result := by
  induction patterns generalizing es start with
  | nil =>
    cases equal
    exact ⟨start, rfl, respects⟩
  | cons pattern patterns all =>
    obtain _ | ⟨first, rest⟩ := equal
    simp only [List.forall_mem_cons] at ih
    simp only [List.flatMap_cons, List.mem_append] at known
    obtain ⟨middle, matched, kept⟩ :=
      ih.1 _ start (fun name here => known name (.inl here)) respects first
    obtain ⟨result, matchedAll, keptAll⟩ :=
      all ih.2 (fun name there => known name (.inr there)) kept rest
    exact ⟨result, by simp [matchAllFrom, matched, matchedAll], keptAll⟩

theorem matchFrom_of_respects {pattern e : Expr} {start : Bindings}
    (known : ∀ name ∈ pattern.varNames, name ∈ names)
    (respects : solution.Respects names start)
    (equal : (pattern.substitute solution).same e = true) :
    ∃ result, pattern.matchFrom e start = some result ∧ solution.Respects names result := by
  induction pattern using Expr.induction generalizing e start with
  | literal n => exact ⟨start, if_pos equal, respects⟩
  | named name n => exact ⟨start, if_pos equal, respects⟩
  | var name => exact respects.bind? (known name (by simp)) equal
  | node head patterns ih =>
    rw [substitute_node] at equal
    rw [varNames_node] at known
    obtain ⟨args, rfl, all⟩ := (node_same_iff ..).mp equal
    obtain ⟨result, matched, kept⟩ :=
      matchAllFrom_of_respects (fun pattern member _ _ => ih pattern member) known respects all
    exact ⟨result, by simp [matchFrom, matched], kept⟩

end Completeness

structure Unifies (pattern e : Expr) (start solution : Bindings) : Prop where
  total : ∀ name ∈ pattern.varNames, ∃ value, solution.find? name = some value
  respects : solution.Respects pattern.varNames start
  equal : (pattern.substitute solution).same e = true

theorem unifies_of_matchFrom {pattern e : Expr} {start result : Bindings}
    (matched : pattern.matchFrom e start = some result) : Unifies pattern e start result := by
  obtain ⟨extended, solved⟩ := matchFrom_solves matched
  obtain ⟨total, equal⟩ := solved result (.refl _)
  refine ⟨total, ?_, equal⟩
  intro name _ bound found
  rw [Bindings.lookup_of_find? (extended name bound found)]
  exact same_refl bound

theorem matchFrom_isSome_iff_unifies (pattern e : Expr) (start : Bindings) :
    ((pattern.matchFrom e start).isSome = true ↔ ∃ solution, Unifies pattern e start solution) ∧
      ∀ result, pattern.matchFrom e start = some result →
        Unifies pattern e start result ∧
          ∀ solution, Unifies pattern e start solution →
            ∀ name ∈ pattern.varNames, (result.lookup name).same (solution.lookup name) = true := by
  refine ⟨⟨?sound, ?complete⟩, ?unique⟩
  case sound =>
    intro matched
    obtain ⟨result, matched⟩ := Option.isSome_iff_exists.mp matched
    exact ⟨result, unifies_of_matchFrom matched⟩
  case complete =>
    rintro ⟨solution, unifies⟩
    obtain ⟨result, matched, _⟩ :=
      matchFrom_of_respects (fun _ member => member) unifies.respects unifies.equal
    exact Option.isSome_iff_exists.mpr ⟨result, matched⟩
  case unique =>
    intro result matched
    have solved := unifies_of_matchFrom matched
    refine ⟨solved, ?_⟩
    intro solution unifies name member
    obtain ⟨other, again, kept⟩ :=
      matchFrom_of_respects (fun _ member => member) unifies.respects unifies.equal
    obtain rfl := Option.some.inj (matched.symm.trans again)
    obtain ⟨value, found⟩ := solved.total name member
    rw [Bindings.lookup_of_find? found]
    exact same_symm (kept name member value found)

end Expr

end SymbolicSimplifier
