import SymbolicSimplifier.Proofs.Rewriting.Measure
import SymbolicSimplifier.Rewriting

set_option autoImplicit false

namespace SymbolicSimplifier

theorem Prelude.literalValue?_empty (head : Head) (args : List Expr) :
    Prelude.literalValue? .empty head args = none := by
  simp [literalValue?, result?, OrderedMap.find?_empty]

namespace Expr

def passNode (handlers : Prelude) (contract : Expr → Expr) (head : Head) (args : List Expr) :
    Expr :=
  match handlers.literalValue? head args with
  | some n => .literal n
  | none => contract (.node head args)

def pass (handlers : Prelude) (contract : Expr → Expr) : Expr → Expr :=
  bottomUp contract (passNode handlers contract)

theorem pass_node (handlers : Prelude) (contract : Expr → Expr) (head : Head)
    (args : List Expr) :
    (node head args).pass handlers contract =
      passNode handlers contract head (args.map (pass handlers contract)) :=
  bottomUp_node _ _ head args

theorem rewrite_eq_pass (handlers : Prelude) (rule : Rule) :
    rule.rewrite handlers = pass handlers rule.contract :=
  rfl

theorem fold_eq_pass (handlers : Prelude) : fold handlers = pass handlers id :=
  rfl

def Quiet (handlers : Prelude) (contract : Expr → Expr) (e : Expr) : Prop :=
  ∀ s, Subterm s e → handlers.nodeValue? s = none ∧ contract s = s

theorem quiet_node_iff (handlers : Prelude) (contract : Expr → Expr) (head : Head)
    (args : List Expr) :
    Quiet handlers contract (.node head args) ↔
      passNode handlers contract head args = .node head args ∧
        ∀ a ∈ args, Quiet handlers contract a := by
  constructor
  · intro quiet
    obtain ⟨unfolded, still⟩ := quiet _ (.refl _)
    refine ⟨?_, fun a member s inside => quiet s (.arg member inside)⟩
    rw [passNode, show handlers.literalValue? head args = none from unfolded]
    exact still
  · rintro ⟨still, quiet⟩ s inside
    rcases (Subterm.node_iff ..).mp inside with rfl | ⟨a, member, inside⟩
    · rw [passNode] at still
      split at still
      case h_1 => cases still
      case h_2 unfolded => exact ⟨unfolded, still⟩
    · exact quiet a member s inside

theorem quiet_leaf_iff (handlers : Prelude) (contract : Expr → Expr) {e : Expr}
    (leaf : ∀ head args, e ≠ .node head args) :
    Quiet handlers contract e ↔ contract e = e := by
  cases e with
  | node head args => exact absurd rfl (leaf head args)
  | _ =>
    constructor
    · exact fun quiet => (quiet _ (.refl _)).2
    · intro still s inside
      cases inside
      exact ⟨rfl, still⟩

theorem pass_eq_of_quiet {handlers : Prelude} {contract : Expr → Expr} {e : Expr}
    (quiet : Quiet handlers contract e) : e.pass handlers contract = e := by
  induction e using Expr.induction with
  | node head args ih =>
    obtain ⟨still, parts⟩ := (quiet_node_iff ..).mp quiet
    rw [pass_node, List.map_congr_left fun a member => ih a member (parts a member), List.map_id',
      still]
  | _ => exact (quiet_leaf_iff handlers contract (by simp)).mp quiet

theorem id_lighter (e : Expr) : LighterEq (id e) e :=
  .refl e

structure Descends (below : Expr → Expr → Prop) : Prop where
  refl : ∀ e, below e e
  trans : ∀ {a b c}, below a b → below b c → below a c
  literal : ∀ n head args, below (.literal n) (.node head args)
  node_map : ∀ head args f, (∀ a ∈ args, below (f a) a) →
    below (.node head (args.map f)) (.node head args)

theorem lighterEq_descends : Descends LighterEq where
  refl := .refl
  trans := .trans
  literal n head args := .inr (.literal_node n head args)
  node_map := .node_map

namespace Descends

variable {below : Expr → Expr → Prop} {handlers : Prelude} {contract : Expr → Expr}
  (descends : Descends below) (contracts : ∀ e, below (contract e) e)
include descends contracts

theorem passNode (head : Head) (args : List Expr) :
    below (passNode handlers contract head args) (.node head args) := by
  unfold Expr.passNode
  split
  · exact descends.literal _ head args
  · exact contracts _

theorem pass (e : Expr) : below (e.pass handlers contract) e := by
  induction e using Expr.induction with
  | node head args ih =>
    rw [pass_node]
    exact descends.trans (descends.passNode contracts ..) (descends.node_map head args _ ih)
  | _ => exact contracts _

end Descends

section Lighter

variable {handlers : Prelude} {contract : Expr → Expr}
  (lighter : ∀ e, LighterEq (contract e) e)
include lighter

theorem pass_lighter (e : Expr) : LighterEq (e.pass handlers contract) e :=
  lighterEq_descends.pass lighter e

theorem pass_eq_iff_quiet (e : Expr) :
    e.pass handlers contract = e ↔ Quiet handlers contract e := by
  refine ⟨fun unchanged => ?_, pass_eq_of_quiet⟩
  induction e using Expr.induction with
  | node head args ih =>
    rw [pass_node] at unchanged
    -- The node over the new arguments lies between the old node and the result.
    have between : node head (args.map (pass handlers contract)) = .node head args := by
      apply LighterEq.antisymm
      · exact .node_map head args _ fun a _ => pass_lighter lighter a
      · exact unchanged ▸ lighterEq_descends.passNode lighter ..
    have still : args.map (pass handlers contract) = args := (node.inj between).2
    rw [still] at unchanged
    refine (quiet_node_iff ..).mpr ⟨unchanged, fun a member => ih a member ?_⟩
    exact List.map_inj_left.mp (still.trans (List.map_id args).symm) a member
  | _ => exact (quiet_leaf_iff handlers contract (by simp)).mpr unchanged

theorem pass_same_iff_quiet (e : Expr) :
    (e.pass handlers contract).same e = true ↔ Quiet handlers contract e := by
  rw [← pass_eq_iff_quiet lighter]
  constructor
  · exact (pass_lighter lighter e).eq_of_same
  · intro unchanged
    rw [unchanged]
    exact same_refl e

end Lighter

end Expr

end SymbolicSimplifier
