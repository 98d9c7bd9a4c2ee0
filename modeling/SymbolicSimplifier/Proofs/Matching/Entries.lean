import SymbolicSimplifier.Proofs.Expr.Congruence
import SymbolicSimplifier.Proofs.Matching.Unification

set_option autoImplicit false

namespace SymbolicSimplifier

theorem eraseDups_removeAll_append {α : Type} [BEq α] [LawfulBEq α] {as known known' : List α}
    (more : ∀ a, a ∈ known' ↔ a ∈ known ∨ a ∈ as) (bs : List α) :
    ((as ++ bs).removeAll known).eraseDups =
      (as.removeAll known).eraseDups ++ (bs.removeAll known').eraseDups := by
  have rest : (bs.removeAll known).removeAll (as.removeAll known) = bs.removeAll known' := by
    simp only [List.removeAll, List.filter_filter]
    refine List.filter_congr fun b _ => ?_
    rw [Bool.eq_iff_iff]
    simp [more]
    tauto
  rw [← rest, ← List.eraseDups_append, List.removeAll, List.filter_append]
  rfl

namespace Expr

def FirstAt (pattern : Expr) (name : String) (position : List Nat) : Prop :=
  pattern.at? position = some (.var name) ∧
    ∀ other, List.Lex (· < ·) other position → pattern.at? other ≠ some (.var name)

theorem mem_varNames_of_at? {pattern : Expr} {name : String} {position : List Nat}
    (here : pattern.at? position = some (.var name)) : name ∈ pattern.varNames := by
  induction position generalizing pattern with
  | nil =>
    cases here
    simp
  | cons index rest ih =>
    cases pattern with
    | node head patterns =>
      obtain ⟨inner, found, inside⟩ := Option.bind_eq_some_iff.mp here
      rw [varNames_node, List.mem_flatMap]
      exact ⟨inner, List.mem_of_getElem? found, ih inside⟩
    | _ => cases here

section Arguments

variable {head : Head} {pattern : Expr} {patterns : List Expr} {name : String}

theorem FirstAt.first_arg {rest : List Nat} (first : pattern.FirstAt name rest) :
    (node head (pattern :: patterns)).FirstAt name (0 :: rest) := by
  refine ⟨first.1, ?_⟩
  intro other before
  cases before with
  | nil => simp [at?]
  | rel less => exact absurd less (Nat.not_lt_zero _)
  | cons before => exact first.2 _ before

theorem FirstAt.later_arg {index : Nat} {rest : List Nat} (absent : name ∉ pattern.varNames)
    (first : (node head patterns).FirstAt name (index :: rest)) :
    (node head (pattern :: patterns)).FirstAt name ((index + 1) :: rest) := by
  refine ⟨first.1, ?_⟩
  intro other before
  cases before with
  | nil => simp [at?]
  | @rel earlier inner _ _ less =>
    cases earlier with
    | zero => exact fun here => absent (mem_varNames_of_at? here)
    | succ earlier => exact first.2 (earlier :: inner) (.rel (Nat.lt_of_succ_lt_succ less))
  | @cons _ inner _ before => exact first.2 (index :: inner) (.cons before)

end Arguments

/-- The entries are those of the free variables of the pattern, in the order of their first
occurrences, with the parts of the expression that stand there. -/
structure Supplies (pattern e : Expr) (start : Bindings) (fresh : List (String × Expr)) : Prop where
  names : fresh.map (·.1) = (pattern.varNames.removeAll start.keys).eraseDups
  values : ∀ entry ∈ fresh, ∃ position,
    pattern.FirstAt entry.1 position ∧ e.at? position = some entry.2

namespace Supplies

theorem none {pattern e : Expr} (constant : pattern.varNames = []) (start : Bindings) :
    Supplies pattern e start [] where
  names := by simp [constant, List.removeAll]
  values := by simp

variable {start : Bindings}

theorem bound {name : String} (known : name ∈ start.keys) (e : Expr) :
    Supplies (.var name) e start [] where
  names := by simp [List.removeAll, known]
  values := by simp

theorem free {name : String} (unknown : name ∉ start.keys) (e : Expr) :
    Supplies (.var name) e start [(name, e)] where
  names := by simp [List.removeAll, unknown, List.eraseDups_cons]
  values := by
    intro entry member
    obtain rfl := List.mem_singleton.mp member
    exact ⟨[], ⟨rfl, fun _ before => nomatch before⟩, rfl⟩

theorem mem_keys_iff {pattern e : Expr} {result : Bindings} {fresh : List (String × Expr)}
    (supplied : Supplies pattern e start fresh) (extended : result.entries = start.entries ++ fresh)
    (name : String) : name ∈ result.keys ↔ name ∈ start.keys ∨ name ∈ pattern.varNames := by
  have keys : result.keys = start.keys ++ (pattern.varNames.removeAll start.keys).eraseDups := by
    rw [← supplied.names, OrderedMap.keys, extended, List.map_append, OrderedMap.keys]
  rw [keys, List.mem_append, List.mem_eraseDups]
  simp [List.removeAll]
  tauto

theorem cons {head : Head} {pattern e : Expr} {patterns es : List Expr} {middle : Bindings}
    {fresh later : List (String × Expr)} (extended : middle.entries = start.entries ++ fresh)
    (here : Supplies pattern e start fresh)
    (rest : Supplies (.node head patterns) (.node head es) middle later) :
    Supplies (.node head (pattern :: patterns)) (.node head (e :: es)) start (fresh ++ later) where
  names := by
    have names := rest.names
    rw [varNames_node] at names ⊢
    rw [List.flatMap_cons, eraseDups_removeAll_append (here.mem_keys_iff extended),
      List.map_append, here.names, names]
  values := by
    intro entry member
    rcases List.mem_append.mp member with first | second
    · obtain ⟨position, first, found⟩ := here.values entry first
      exact ⟨0 :: position, first.first_arg, found⟩
    · obtain ⟨position, first, found⟩ := rest.values entry second
      have unknown : entry.1 ∉ middle.keys := by
        have listed : entry.1 ∈ later.map (·.1) := List.mem_map_of_mem second
        rw [rest.names, List.mem_eraseDups] at listed
        simpa [List.removeAll] using (List.mem_filter.mp listed).2
      have absent : entry.1 ∉ pattern.varNames :=
        fun occurs => unknown ((here.mem_keys_iff extended _).mpr (.inr occurs))
      cases position with
      | nil => cases first.1
      | cons index position => exact ⟨(index + 1) :: position, first.later_arg absent, found⟩

end Supplies

theorem matchFrom_supplies {pattern e : Expr} {start result : Bindings}
    (matched : pattern.matchFrom e start = some result) :
    ∃ fresh, result.entries = start.entries ++ fresh ∧ Supplies pattern e start fresh := by
  refine matchFrom_induction (P := fun pattern e start result =>
      ∃ fresh, result.entries = start.entries ++ fresh ∧ Supplies pattern e start fresh)
    (Q := fun patterns es start result => ∀ head, ∃ fresh,
      result.entries = start.entries ++ fresh ∧
        Supplies (.node head patterns) (.node head es) start fresh)
    ?var ?literal ?named ?node ?nil ?cons matched
  case var =>
    intro name e start result bound
    obtain ⟨_, found, _, rfl⟩ | ⟨unbound, rfl⟩ := (Bindings.bind?_eq_some_iff ..).mp bound
    · have known : name ∈ result.keys := by
        by_contra unknown
        simp [(OrderedMap.find?_eq_none_iff ..).mpr unknown] at found
      exact ⟨[], (List.append_nil _).symm, .bound known e⟩
    · have unknown := (OrderedMap.find?_eq_none_iff ..).mp unbound
      exact ⟨[(name, e)], OrderedMap.insertEntry_eq_append e unknown, .free unknown e⟩
  case literal => exact fun _ _ _ _ => ⟨[], (List.append_nil _).symm, .none rfl _⟩
  case named => exact fun _ _ _ _ _ => ⟨[], (List.append_nil _).symm, .none rfl _⟩
  case node => exact fun head _ _ _ _ all => all head
  case nil => exact fun _ _ => ⟨[], (List.append_nil _).symm, .none rfl _⟩
  case cons =>
    intro pattern patterns e es start middle result first rest head
    obtain ⟨fresh, extended, here⟩ := first
    obtain ⟨later, extended', there⟩ := rest head
    refine ⟨fresh ++ later, ?_, .cons extended here there⟩
    rw [extended', extended, List.append_assoc]

/-- A match puts new entries behind those it starts from: one for each variable of the pattern that
is not bound there, in the order of their first occurrences. The value of each is the part of the
expression at the position of the first occurrence. -/
theorem match_adds_first_occurrences {pattern e : Expr} {start result : Bindings}
    (matched : pattern.matchFrom e start = some result) :
    ∃ fresh, result.entries = start.entries ++ fresh ∧
      fresh.map (·.1) = (pattern.varNames.removeAll start.keys).eraseDups ∧
      ∀ entry ∈ fresh, ∃ position,
        pattern.FirstAt entry.1 position ∧ e.at? position = some entry.2 := by
  obtain ⟨fresh, extended, supplied⟩ := matchFrom_supplies matched
  exact ⟨fresh, extended, supplied.names, supplied.values⟩

def sharedPattern : Expr :=
  .apply "f" [.var "x", .var "y" + .var "x", .var "z"]

def mixedOnes : Expr :=
  .apply "f" [1, 2 + .literal (.float 1.0), 3]

def boundThree : Bindings :=
  .ofList [("z", .literal (.float 3.0))]

theorem shared_match_adds_first_occurrences :
    sharedPattern.matchFrom mixedOnes boundThree =
        some ⟨[("z", .literal (.float 3.0)), ("x", 1), ("y", 2)]⟩ ∧
      (sharedPattern.varNames.removeAll boundThree.keys).eraseDups = ["x", "y"] ∧
      ∃ fresh, [("z", .literal (.float 3.0)), ("x", 1), ("y", 2)] = boundThree.entries ++ fresh ∧
        fresh.map (·.1) = (sharedPattern.varNames.removeAll boundThree.keys).eraseDups ∧
        ∀ entry ∈ fresh, ∃ position,
          sharedPattern.FirstAt entry.1 position ∧ mixedOnes.at? position = some entry.2 := by
  have matched : sharedPattern.matchFrom mixedOnes boundThree =
      some ⟨[("z", .literal (.float 3.0)), ("x", 1), ("y", 2)]⟩ := rfl
  exact ⟨matched, by decide, match_adds_first_occurrences matched⟩

end Expr

end SymbolicSimplifier
