import Mathlib.Algebra.BigOperators.Group.Finset.Basic
import Mathlib.Algebra.Order.Ring.Nat
import SymbolicSimplifier.Simplifier.Trace

set_option autoImplicit false

namespace SymbolicSimplifier

section EraseDups

variable {α : Type} [DecidableEq α]

theorem eraseDups_concat (as : List α) (a : α) :
    (as ++ [a]).eraseDups = if a ∈ as then as.eraseDups else as.eraseDups ++ [a] := by
  rw [List.eraseDups_append]
  by_cases seen : a ∈ as <;> simp [List.removeAll, seen, List.eraseDups_cons]

theorem pairwise_eraseDups (as : List α) :
    as.eraseDups.Pairwise fun earlier later => as.idxOf earlier < as.idxOf later := by
  induction as using List.reverseRecOn with
  | nil => simp
  | append_singleton as a ih =>
    have kept : as.eraseDups.Pairwise fun earlier later =>
        (as ++ [a]).idxOf earlier < (as ++ [a]).idxOf later := by
      refine ih.imp_of_mem fun before after less => ?_
      rw [List.idxOf_append_of_mem (List.mem_eraseDups.mp before),
        List.idxOf_append_of_mem (List.mem_eraseDups.mp after)]
      exact less
    rw [eraseDups_concat]
    split
    case isTrue seen => exact kept
    case isFalse new =>
      refine List.pairwise_append.mpr ⟨kept, List.pairwise_singleton .., ?_⟩
      intro earlier before last same
      obtain rfl := List.mem_singleton.mp same
      have seen := List.mem_eraseDups.mp before
      rw [List.idxOf_append_of_mem seen, List.idxOf_append_of_notMem new]
      exact Nat.lt_of_lt_of_le (List.idxOf_lt_length_of_mem seen) (Nat.le_add_right ..)

theorem nodup_eraseDups (as : List α) : as.eraseDups.Nodup :=
  (pairwise_eraseDups as).imp fun less same => absurd (same ▸ less) (Nat.lt_irrefl _)

theorem toFinset_eraseDups (as : List α) : as.eraseDups.toFinset = as.toFinset := by
  ext a
  simp

end EraseDups

namespace OrderedMap

section Tabulated

variable {α : Type} (value : String → α) {keys : List String} {key : String}

theorem findIn?_tabulated (keys : List String) (key : String) :
    findIn? key (keys.map fun key => (key, value key)) =
      if key ∈ keys then some (value key) else none := by
  induction keys with
  | nil => simp [findIn?]
  | cons first keys ih => grind [findIn?]

theorem insertEntry_tabulated (nodup : keys.Nodup) (known : key ∈ keys) (new : α) :
    insertEntry key new (keys.map fun key => (key, value key)) =
      keys.map fun other => (other, if other = key then new else value other) := by
  induction keys with
  | nil => cases known
  | cons first keys ih =>
    obtain ⟨unseen, nodup⟩ := List.nodup_cons.mp nodup
    rw [List.map_cons, List.map_cons, insertEntry]
    by_cases same : first = key
    · have others : ∀ other ∈ keys, other ≠ key :=
        fun other member equal => unseen (by rwa [same, ← equal])
      have kept : keys.map (fun other => (other, value other)) =
          keys.map fun other => (other, if other = key then new else value other) :=
        List.map_congr_left fun other member => by rw [if_neg (others other member)]
      rw [if_pos same, if_pos same, same, kept]
    · have later : key ∈ keys := (List.mem_cons.mp known).resolve_left (Ne.symm same)
      rw [if_neg same, if_neg same, ih nodup later]

end Tabulated

def Tallies (counts : OrderedMap Nat) (seen : List String) : Prop :=
  counts.entries = seen.eraseDups.map fun key => (key, seen.count key)

theorem Tallies.increment {counts : OrderedMap Nat} {seen : List String}
    (tallies : Tallies counts seen) (key : String) :
    Tallies (counts.increment key) (seen ++ [key]) := by
  have found : (counts.find? key).getD 0 = seen.count key := by
    rw [find?, tallies, findIn?_tabulated]
    by_cases known : key ∈ seen <;> simp [known, List.count_eq_zero_of_not_mem]
  rw [Tallies, OrderedMap.increment, insert, found, tallies, eraseDups_concat]
  split
  case isTrue known =>
    rw [insertEntry_tabulated _ (nodup_eraseDups seen) (List.mem_eraseDups.mpr known)]
    refine List.map_congr_left fun other _ => ?_
    by_cases same : other = key
    · simp [same, List.count_append]
    · simp [same, List.count_append, Ne.symm same]
  case isFalse new =>
    have unlisted : key ∉ (seen.eraseDups.map fun key => (key, seen.count key)).map (·.1) := by
      simpa using new
    have kept : ∀ other ∈ seen.eraseDups, seen.count other = (seen ++ [key]).count other := by
      intro other member
      have different : key ≠ other := fun same => new (same ▸ List.mem_eraseDups.mp member)
      simp [List.count_append, different]
    rw [insertEntry_eq_append _ unlisted, List.map_append,
      List.map_congr_left fun other member => by rw [kept other member]]
    simp [List.count_append]

theorem Tallies.foldl {counts : OrderedMap Nat} {seen : List String}
    (tallies : Tallies counts seen) (keys : List String) :
    Tallies (keys.foldl OrderedMap.increment counts) (seen ++ keys) := by
  induction keys generalizing counts seen with
  | nil => simpa using tallies
  | cons key keys ih => simpa using ih (tallies.increment key)

theorem tally_entries (keys : List String) :
    (tally keys).entries = keys.eraseDups.map fun key => (key, keys.count key) := by
  have initial : Tallies empty [] := rfl
  exact initial.foldl keys

end OrderedMap

def FirstGreatest (entries : List (String × Nat)) (top : String × Nat) : Prop :=
  ∃ before after, entries = before ++ top :: after ∧
    (∀ entry ∈ before, entry.2 < top.2) ∧ ∀ entry ∈ after, entry.2 ≤ top.2

namespace FirstGreatest

variable {entries : List (String × Nat)} {entry best top : String × Nat}

theorem le (first : FirstGreatest entries top) (member : entry ∈ entries) : entry.2 ≤ top.2 := by
  obtain ⟨before, after, rfl, less, least⟩ := first
  rcases List.mem_append.mp member with early | late
  · exact Nat.le_of_lt (less entry early)
  · rcases List.mem_cons.mp late with rfl | late
    · exact Nat.le_refl _
    · exact least entry late

theorem overtaken (first : FirstGreatest (entry :: entries) top) (less : best.2 < entry.2) :
    FirstGreatest (best :: entry :: entries) top := by
  have below : best.2 < top.2 := Nat.lt_of_lt_of_le less (first.le List.mem_cons_self)
  obtain ⟨before, after, split, less, least⟩ := first
  exact ⟨best :: before, after, by rw [split]; rfl, by simpa [below] using less, least⟩

theorem passed (first : FirstGreatest (best :: entries) top) (atMost : entry.2 ≤ best.2) :
    FirstGreatest (best :: entry :: entries) top := by
  obtain ⟨before, after, split, less, least⟩ := first
  cases before with
  | nil =>
    obtain ⟨rfl, rfl⟩ := List.cons.inj split
    exact ⟨[], entry :: entries, rfl, by simp, by simpa [atMost] using least⟩
  | cons _ before =>
    obtain ⟨rfl, rfl⟩ := List.cons.inj split
    have below := less best List.mem_cons_self
    refine ⟨best :: entry :: before, after, rfl, ?_, least⟩
    simp only [List.mem_cons, forall_eq_or_imp] at less ⊢
    exact ⟨below, Nat.lt_of_le_of_lt atMost below, less.2⟩

end FirstGreatest

structure IsMostUsed (names : List String) (top : String) : Prop where
  used : top ∈ names
  greatest : ∀ name ∈ names, names.count name ≤ names.count top
  earliest : ∀ name ∈ names, names.count name = names.count top →
    names.idxOf top ≤ names.idxOf name

theorem FirstGreatest.isMostUsed {names : List String} {top : String × Nat}
    (first : FirstGreatest (names.eraseDups.map fun name => (name, names.count name)) top) :
    top.2 = names.count top.1 ∧ IsMostUsed names top.1 := by
  obtain ⟨before, after, split, less, least⟩ := first
  obtain ⟨early, rest, listed, rfl, split'⟩ := List.map_eq_append_iff.mp split
  obtain ⟨name, late, rfl, rfl, rfl⟩ := List.map_eq_cons_iff.mp split'
  have ordered := pairwise_eraseDups names
  rw [listed, List.pairwise_append, List.pairwise_cons] at ordered
  have placed : ∀ other ∈ names, other ∈ early ∨ other = name ∨ other ∈ late := by
    intro other member
    simpa [listed] using List.mem_eraseDups.mpr member
  have below : ∀ other ∈ early, names.count other < names.count name := by simpa using less
  have most : ∀ other ∈ late, names.count other ≤ names.count name := by simpa using least
  refine ⟨rfl, ⟨?used, ?greatest, ?earliest⟩⟩
  case used => exact List.mem_eraseDups.mp (by simp [listed])
  case greatest =>
    intro other member
    rcases placed other member with before | rfl | after
    · exact Nat.le_of_lt (below other before)
    · exact Nat.le_refl _
    · exact most other after
  case earliest =>
    intro other member equal
    rcases placed other member with before | rfl | after
    · exact absurd equal (Nat.ne_of_lt (below other before))
    · exact Nat.le_refl _
    · exact Nat.le_of_lt (ordered.2.1.1 other after)

namespace Trace

theorem mostUsed_firstGreatest (best : String × Nat) (entries : List (String × Nat)) :
    FirstGreatest (best :: entries) (mostUsed best entries) := by
  induction entries generalizing best with
  | nil => exact ⟨[], [], rfl, by simp, by simp⟩
  | cons entry entries ih =>
    rw [mostUsed]
    split
    case isTrue less => exact (ih entry).overtaken less
    case isFalse atMost => exact (ih best).passed (Nat.le_of_not_lt atMost)

theorem nameCounts_eq (trace : Trace) :
    trace.nameCounts =
      trace.stepNames.eraseDups.map fun name => (name, trace.stepNames.count name) :=
  OrderedMap.tally_entries trace.stepNames

theorem nameCounts_keys (trace : Trace) :
    trace.nameCounts.map (·.1) = trace.stepNames.eraseDups := by
  rw [nameCounts_eq, List.map_map]
  exact List.map_id _

theorem sum_nameCounts (trace : Trace) : (trace.nameCounts.map (·.2)).sum = trace.length := by
  have distinct := nodup_eraseDups trace.stepNames
  calc (trace.nameCounts.map (·.2)).sum
      = (trace.stepNames.eraseDups.map fun name => trace.stepNames.count name).sum := by
        rw [nameCounts_eq, List.map_map]
        rfl
    _ = ∑ name ∈ trace.stepNames.toFinset, trace.stepNames.count name := by
        rw [← toFinset_eraseDups, List.sum_toFinset _ distinct]
    _ = trace.stepNames.length := List.sum_toFinset_count_eq_length _
    _ = trace.length := List.length_map ..

theorem length_nameCounts (trace : Trace) :
    trace.nameCounts.length = trace.stepNames.toFinset.card := by
  have distinct := nodup_eraseDups trace.stepNames
  rw [nameCounts_eq, List.length_map, ← toFinset_eraseDups,
    List.toFinset_card_of_nodup distinct]

theorem summary_names_most_used {trace : Trace} (nonempty : trace.steps ≠ []) :
    ∃ name, IsMostUsed trace.stepNames name ∧
      trace.summary = toString trace.length ++ " steps using " ++
        toString trace.stepNames.toFinset.card ++ " unique rules. Most used: " ++ name ++ " (" ++
          toString (trace.stepNames.count name) ++ "x)" := by
  cases listed : trace.nameCounts with
  | nil =>
    have none : trace.length = 0 := by rw [← sum_nameCounts, listed]; rfl
    exact absurd (List.length_eq_zero_iff.mp none) nonempty
  | cons entry rest =>
    have first := mostUsed_firstGreatest entry rest
    rw [← listed, nameCounts_eq] at first
    obtain ⟨uses, most⟩ := first.isMostUsed
    refine ⟨_, most, ?_⟩
    rw [summary, listed, ← length_nameCounts, listed, ← uses]
    rfl

/-- The counts of a trace list the names of its steps, each once, in the order in which they first
appear, with the number of steps that have the name, and they add up to the number of all steps.
The summary of a trace that has steps tells their number, the number of different names, and the
first of the names that are used most. -/
theorem statistics_count_steps (trace : Trace) :
    (∀ name uses, (name, uses) ∈ trace.nameCounts ↔
        name ∈ trace.stepNames ∧ uses = trace.stepNames.count name) ∧
      (trace.nameCounts.map (·.1)).Nodup ∧
      ((trace.nameCounts.map (·.1)).Pairwise fun earlier later =>
        trace.stepNames.idxOf earlier < trace.stepNames.idxOf later) ∧
      (trace.nameCounts.map (·.2)).sum = trace.length ∧
      (trace.steps ≠ [] → ∃ name, IsMostUsed trace.stepNames name ∧
        trace.summary = toString trace.length ++ " steps using " ++
          toString trace.stepNames.toFinset.card ++ " unique rules. Most used: " ++ name ++ " (" ++
            toString (trace.stepNames.count name) ++ "x)") := by
  refine ⟨?counts, ?once, ?ordered, sum_nameCounts trace, summary_names_most_used⟩
  case counts =>
    intro name uses
    rw [nameCounts_eq]
    simp [eq_comm]
  case once =>
    rw [nameCounts_keys]
    exact nodup_eraseDups _
  case ordered =>
    rw [nameCounts_keys]
    exact pairwise_eraseDups _

def sharedNames : Trace where
  initial := none
  final := none
  steps := [
    ⟨3, some ⟨.var "x" * 1, .var "x", none, none⟩, 2 * 1 + 0, 2 + 0⟩,
    ⟨-1, none, 2 + 0, 2⟩,
    ⟨0, some ⟨.var "x", .var "x" + 0, some "fold", none⟩, 2, 2 + 0⟩,
    ⟨1, some ⟨.var "x" + 0, .var "x", some "rule[3]", none⟩, 2 + 0, 2⟩]

theorem shared_names_count_together :
    sharedNames.nameCounts = [("rule[3]", 2), ("fold", 2)] ∧
      sharedNames.summary = "4 steps using 2 unique rules. Most used: rule[3] (2x)" ∧
      sharedNames.steps ≠ [] ∧ ∃ name, IsMostUsed sharedNames.stepNames name ∧
        sharedNames.summary = toString sharedNames.length ++ " steps using " ++
          toString sharedNames.stepNames.toFinset.card ++ " unique rules. Most used: " ++ name ++
            " (" ++ toString (sharedNames.stepNames.count name) ++ "x)" := by
  have steps : sharedNames.steps ≠ [] := List.cons_ne_nil _ _
  exact ⟨by decide, by decide, steps, (statistics_count_steps sharedNames).2.2.2.2 steps⟩

end Trace

end SymbolicSimplifier
