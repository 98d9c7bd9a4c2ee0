import SymbolicSimplifier.Proofs.Display.Grouping
import SymbolicSimplifier.Proofs.Expr.WellFormed

/-!
What the unary plus does to the display text. It is not written, but it binds like the other
prefixes, so that its operand may lose the parentheses that it needs, or get some that it does not
need. Apart from brackets the text is the same with the pluses and without them, and as deep in
brackets at every operator between two arguments; so one missing pair of brackets is never made up
for by another one elsewhere.
-/

set_option autoImplicit false

namespace SymbolicSimplifier

namespace Text

def isBracket (c : Char) : Bool :=
  c == '(' || c == ')'

/-- The texts have as many characters besides brackets, and as many open brackets at the end. -/
structure Alike (u v : List Char) : Prop where
  words : u.countP (!isBracket ·) = v.countP (!isBracket ·)
  depth : u.count '(' + v.count ')' = v.count '(' + u.count ')'

namespace Alike

theorem refl (u : List Char) : Alike u u :=
  ⟨rfl, rfl⟩

theorem append {u u' v v' : List Char} (first : Alike u v) (second : Alike u' v') :
    Alike (u ++ u') (v ++ v') := by
  obtain ⟨words, depth⟩ := first
  obtain ⟨words', depth'⟩ := second
  constructor
  · simp only [List.countP_append]
    omega
  · simp only [List.count_append]
    omega

theorem cons (c : Char) {u v : List Char} (alike : Alike u v) : Alike (c :: u) (c :: v) :=
  append (refl [c]) alike

theorem enclosed {u v : List Char} (alike : Alike u v) : Alike ('(' :: (u ++ [')'])) v := by
  obtain ⟨words, depth⟩ := alike
  constructor
  · simpa [isBracket] using words
  · simp
    omega

theorem symm {u v : List Char} (alike : Alike u v) : Alike v u :=
  ⟨alike.words.symm, alike.depth.symm⟩

theorem trans {u v w : List Char} (first : Alike u v) (second : Alike v w) : Alike u w := by
  obtain ⟨words, depth⟩ := first
  obtain ⟨words', depth'⟩ := second
  exact ⟨words.trans words', by omega⟩

end Alike

theorem append_cons_inj {u v : List Char}
    (words : u.countP (!isBracket ·) = v.countP (!isBracket ·)) {c : Char}
    (outside : isBracket c = false) {rest rest' : List Char}
    (equal : u ++ c :: rest = v ++ c :: rest') : u = v ∧ rest = rest' := by
  induction u generalizing v with
  | nil =>
    cases v with
    | nil => exact ⟨rfl, (List.cons.inj equal).2⟩
    | cons d v =>
      obtain ⟨rfl, _⟩ := List.cons.inj equal
      simp [outside] at words
  | cons d u ih =>
    cases v with
    | nil =>
      obtain ⟨rfl, _⟩ := List.cons.inj equal
      simp [outside] at words
    | cons d' v =>
      obtain ⟨rfl, tails⟩ := List.cons.inj equal
      simp only [List.countP_cons, Nat.add_right_cancel_iff] at words
      obtain ⟨rfl, rests⟩ := ih words tails
      exact ⟨rfl, rests⟩

theorem Alike.append_cons_iff {u v : List Char} (alike : Alike u v) {c : Char}
    (outside : isBracket c = false) (rest rest' : List Char) :
    u ++ c :: rest = v ++ c :: rest' ↔ u = v ∧ rest = rest' := by
  constructor
  · exact append_cons_inj alike.words outside
  · rintro ⟨rfl, rfl⟩
    rfl

def Anchored (u v : List Char) : Prop :=
  ∃ before before' c after after', u = before ++ c :: after ∧ v = before' ++ c :: after' ∧
    isBracket c = false ∧ Alike before before'

namespace Anchored

theorem symm {u v : List Char} (anchored : Anchored u v) : Anchored v u := by
  obtain ⟨before, before', c, after, after', left, right, outside, alike⟩ := anchored
  exact ⟨before', before, c, after', after, right, left, outside, alike.symm⟩

theorem append_left {u v : List Char} (anchored : Anchored u v) (text : List Char) :
    Anchored (text ++ u) (text ++ v) := by
  obtain ⟨before, before', c, after, after', rfl, rfl, outside, alike⟩ := anchored
  exact ⟨text ++ before, text ++ before', c, after, after', (List.append_assoc ..).symm,
    (List.append_assoc ..).symm, outside, (Alike.refl text).append alike⟩

theorem append_right {u v : List Char} (anchored : Anchored u v) (rest rest' : List Char) :
    Anchored (u ++ rest) (v ++ rest') := by
  obtain ⟨before, before', c, after, after', rfl, rfl, outside, alike⟩ := anchored
  exact ⟨before, before', c, after ++ rest, after' ++ rest', List.append_assoc ..,
    List.append_assoc .., outside, alike⟩

end Anchored

theorem ne_enclosed {u v : List Char} (related : u = v ∨ Anchored u v) :
    u ≠ '(' :: (v ++ [')']) := by
  intro equal
  obtain rfl | ⟨before, before', c, after, after', rfl, rfl, outside, words, depth⟩ := related
  · have longer := congrArg List.length equal
    simp only [List.length_cons, List.length_append] at longer
    omega
  -- One more bracket before the common character would leave it one deeper.
  rw [List.append_assoc, List.cons_append, ← List.cons_append] at equal
  have deeper : before.countP (!isBracket ·) = ('(' :: before').countP (!isBracket ·) := by
    simpa [isBracket] using words
  obtain ⟨rfl, _⟩ := append_cons_inj deeper outside equal
  simp at depth

end Text

open Text

namespace UnaryOp

theorem exists_symbol (op : UnaryOp) : ∃ c, op.symbol.toList = [c] ∧ isBracket c = false := by
  cases op <;> exact ⟨_, rfl, rfl⟩

end UnaryOp

namespace BinaryOp

theorem exists_separator (op : BinaryOp) :
    ∃ c rest, op.separator.toList = c :: rest ∧ isBracket c = false := by
  cases op <;> exact ⟨_, _, rfl, rfl⟩

end BinaryOp

def Head.encloses : Head → Bool
  | .unary op => op != .plus
  | .binary _ => true
  | .function _ => false

namespace Expr

def nodeWithoutPlus : Head → List Expr → Expr
  | .unary .plus, [a] => a
  | head, args => .node head args

def withoutPlus : Expr → Expr :=
  bottomUp id nodeWithoutPlus

/-- No operator is misled by the pluses: its arguments bind less tightly than it exactly if they do
so without them. -/
def PlusUnnoticed (e : Expr) : Prop :=
  ∀ head args, Subterm (.node head args) e → head.encloses = true → ∀ a ∈ args,
    (a.strength < head.strength ↔ a.withoutPlus.strength < head.strength)

theorem withoutPlus_node (head : Head) (args : List Expr) :
    (node head args).withoutPlus = nodeWithoutPlus head (args.map withoutPlus) :=
  bottomUp_node _ _ head args

theorem withoutPlus_unary {op : UnaryOp} (written : op ≠ .plus) (a : Expr) :
    (node (.unary op) [a]).withoutPlus = .node (.unary op) [a.withoutPlus] := by
  cases op with
  | plus => contradiction
  | minus | complement => exact withoutPlus_node ..

theorem withoutPlus_plus (a : Expr) : (node (.unary .plus) [a]).withoutPlus = a.withoutPlus :=
  withoutPlus_node ..

theorem withoutPlus_binary (op : BinaryOp) (a b : Expr) :
    (node (.binary op) [a, b]).withoutPlus = .node (.binary op) [a.withoutPlus, b.withoutPlus] :=
  withoutPlus_node ..

theorem withoutPlus_function (name : String) (args : List Expr) :
    (node (.function name) args).withoutPlus = .node (.function name) (args.map withoutPlus) :=
  withoutPlus_node ..

theorem plusUnnoticed_node (head : Head) (args : List Expr) :
    (node head args).PlusUnnoticed ↔
      (head.encloses = true → ∀ a ∈ args,
        (a.strength < head.strength ↔ a.withoutPlus.strength < head.strength)) ∧
      ∀ a ∈ args, a.PlusUnnoticed := by
  constructor
  · intro unnoticed
    exact ⟨unnoticed head args (.refl _), fun a member inner others inside =>
      unnoticed inner others (.arg member inside)⟩
  · rintro ⟨here, below⟩ inner others inside
    obtain equal | ⟨a, member, inside⟩ := (Subterm.node_iff ..).mp inside
    · cases equal
      exact here
    · exact below a member inner others inside

theorem hasText_withoutPlus {e : Expr} (formed : e.isWellFormed = true) :
    e.withoutPlus.hasText = e.hasText := by
  induction e, formed using induction_of_isWellFormed with
  | literal | named | var => rfl
  | unary op a _ _ ih =>
    cases op <;> simp [withoutPlus_node, nodeWithoutPlus, hasText_node, ih]
  | binary op a b _ _ _ left right =>
    simp [withoutPlus_node, nodeWithoutPlus, hasText_node, left, right]
  | function name args _ _ ih =>
    rw [withoutPlus_function, hasText_node, hasText_node, List.map_map]
    exact congrArg (List.all · id) (List.map_congr_left ih)

theorem display_plus (a : Expr) : (node (.unary .plus) [a]).display = a.display := by
  simp [display, rendering_node, Head.displayText]

theorem joined_map (text : Expr → List Char) (f : Expr → Expr) (args : List Expr) :
    joined text (args.map f) = joined (fun a => text (f a)) args := by
  simp [joined, Function.comp_def]

section

variable {f g : Expr → List Char}

theorem joined_alike {args : List Expr} (each : ∀ a ∈ args, Alike (f a) (g a)) :
    Alike (joined f args) (joined g args) := by
  induction args with
  | nil => exact .refl _
  | cons a args ih =>
    obtain ⟨first, others⟩ := List.forall_mem_cons.mp each
    cases args with
    | nil => rwa [joined_singleton, joined_singleton]
    | cons b args =>
      rw [joined_cons_cons, joined_cons_cons]
      exact first.append (((ih others).cons ' ').cons ',')

theorem joined_eq_iff {args : List Expr} (each : ∀ a ∈ args, Alike (f a) (g a)) :
    joined f args = joined g args ↔ ∀ a ∈ args, f a = g a := by
  induction args with
  | nil => exact iff_of_true rfl (List.forall_mem_nil _)
  | cons a args ih =>
    obtain ⟨first, others⟩ := List.forall_mem_cons.mp each
    rw [List.forall_mem_cons, ← ih others]
    cases args with
    | nil => simp [joined]
    | cons b args =>
      rw [joined_cons_cons, joined_cons_cons, first.append_cons_iff rfl, List.cons_inj_right]

theorem joined_eq_or_anchored {args : List Expr}
    (each : ∀ a ∈ args, f a = g a ∨ Anchored (f a) (g a)) :
    joined f args = joined g args ∨ Anchored (joined f args) (joined g args) := by
  induction args with
  | nil => exact .inl rfl
  | cons a args ih =>
    obtain ⟨first, others⟩ := List.forall_mem_cons.mp each
    cases args with
    | nil => rwa [joined_singleton, joined_singleton]
    | cons b args =>
      rw [joined_cons_cons, joined_cons_cons]
      obtain equal | anchored := first
      · obtain equals | anchored := ih others
        · exact .inl (by rw [equal, equals])
        · rw [equal]
          exact .inr ((anchored.append_left [',', ' ']).append_left (g a))
      · exact .inr (anchored.append_right _ _)

end

theorem within_alike_display (e : Expr) (strength : Nat) :
    Alike (e.within strength) e.display.toList := by
  by_cases weak : e.strength < strength
  · rw [within_of_lt weak]
    exact (Alike.refl _).enclosed
  · rw [within_of_le (Nat.not_lt.mp weak)]
    exact .refl _

theorem within_alike {a b : Expr} (alike : Alike a.display.toList b.display.toList)
    (strength : Nat) : Alike (a.within strength) (b.within strength) :=
  (within_alike_display a strength).trans (alike.trans (within_alike_display b strength).symm)

theorem display_alike {e : Expr} (formed : e.isWellFormed = true) :
    Alike e.withoutPlus.display.toList e.display.toList := by
  induction e, formed using induction_of_isWellFormed with
  | literal | named | var => exact .refl _
  | unary op a _ _ ih =>
    by_cases written : op = .plus
    · subst written
      rwa [withoutPlus_plus, display_plus]
    · rw [withoutPlus_unary written, display_unary written, display_unary written]
      exact (Alike.refl _).append (within_alike ih _)
  | binary op a b _ _ _ left right =>
    rw [withoutPlus_binary, display_binary, display_binary]
    exact (within_alike left _).append ((Alike.refl _).append (within_alike right _))
  | function name args _ _ ih =>
    rw [withoutPlus_function, display_function, display_function, joined_map]
    exact (Alike.refl _).append (((joined_alike ih).append (.refl _)).cons '(')

theorem display_eq_or_anchored {e : Expr} (formed : e.isWellFormed = true) :
    e.withoutPlus.display.toList = e.display.toList ∨
      Anchored e.withoutPlus.display.toList e.display.toList := by
  induction e, formed using induction_of_isWellFormed with
  | literal | named | var => exact .inl rfl
  | unary op a _ _ ih =>
    by_cases written : op = .plus
    · subst written
      rwa [withoutPlus_plus, display_plus]
    · obtain ⟨c, symbol, outside⟩ := op.exists_symbol
      rw [withoutPlus_unary written, display_unary written, display_unary written, symbol]
      exact .inr ⟨[], [], c, _, _, rfl, rfl, outside, .refl _⟩
  | binary op a b inner _ _ _ _ =>
    obtain ⟨c, rest, separator, outside⟩ := op.exists_separator
    rw [withoutPlus_binary, display_binary, display_binary, separator]
    exact .inr ⟨_, _, c, _, _, rfl, rfl, outside, within_alike (display_alike inner) _⟩
  | function name args _ _ ih =>
    rw [withoutPlus_function, display_function, display_function, joined_map]
    obtain equal | anchored := joined_eq_or_anchored ih
    · exact .inl (by rw [equal])
    · exact .inr (((anchored.append_right _ _).append_left ['(']).append_left _)

theorem within_withoutPlus_eq_iff {a : Expr} (formed : a.isWellFormed = true) (strength : Nat) :
    a.withoutPlus.within strength = a.within strength ↔
      (a.strength < strength ↔ a.withoutPlus.strength < strength) ∧
        a.withoutPlus.display = a.display := by
  have related := display_eq_or_anchored formed
  by_cases weak : a.strength < strength <;> by_cases weak' : a.withoutPlus.strength < strength
  · rw [within_of_lt weak, within_of_lt weak']
    simp [weak, weak', String.toList_inj]
  · rw [within_of_lt weak, within_of_le (Nat.not_lt.mp weak')]
    simp [weak, weak', ne_enclosed related]
  · rw [within_of_le (Nat.not_lt.mp weak), within_of_lt weak']
    simp [weak, weak', (ne_enclosed (related.imp Eq.symm Anchored.symm)).symm]
  · rw [within_of_le (Nat.not_lt.mp weak), within_of_le (Nat.not_lt.mp weak')]
    simp [weak, weak', String.toList_inj]

theorem display_withoutPlus_eq_iff {e : Expr} (formed : e.isWellFormed = true) :
    e.withoutPlus.display = e.display ↔ e.PlusUnnoticed := by
  induction e, formed using induction_of_isWellFormed with
  | literal | named | var => exact iff_of_true rfl nofun
  | unary op a inner _ ih =>
    rw [plusUnnoticed_node]
    by_cases written : op = .plus
    · subst written
      rw [withoutPlus_plus, display_plus, ih]
      simp [Head.encloses]
    · rw [withoutPlus_unary written, ← String.toList_inj, display_unary written,
        display_unary written, List.append_cancel_left_eq, within_withoutPlus_eq_iff inner, ih]
      simp [Head.encloses, written, Head.strength]
  | binary op a b inner inner' _ left right =>
    obtain ⟨c, rest, separator, outside⟩ := op.exists_separator
    -- The left arguments are alike, so the texts can only agree argument by argument.
    have alike := within_alike (display_alike inner) op.strength
    rw [plusUnnoticed_node, withoutPlus_binary, ← String.toList_inj, display_binary,
      display_binary, separator, List.cons_append, List.cons_append,
      alike.append_cons_iff outside, List.append_cancel_left_eq,
      within_withoutPlus_eq_iff inner, within_withoutPlus_eq_iff inner', left, right]
    simp only [Head.encloses, Head.strength, List.forall_mem_cons]
    tauto
  | function name args inner _ ih =>
    have alike := fun a member => display_alike (inner a member)
    rw [plusUnnoticed_node, withoutPlus_function, ← String.toList_inj, display_function,
      display_function, joined_map, List.append_cancel_left_eq, List.cons_inj_right,
      List.append_cancel_right_eq, joined_eq_iff alike]
    simp only [Head.encloses, String.toList_inj]
    simpa using forall₂_congr ih

/-- A unary plus is written as its operand, up to brackets. The text is the one without any pluses
exactly if no operator is misled by the strength of a plus. -/
theorem pluses_invisible_iff {e : Expr} (formed : e.isWellFormed = true) :
    (e.withoutPlus.display? = none ↔ e.display? = none) ∧
      ∀ text, e.display? = some text →
        (e.withoutPlus.display? = some text ↔ e.PlusUnnoticed) := by
  have printable := hasText_withoutPlus formed
  refine ⟨by simp [display?, printable], fun text shown => ?_⟩
  obtain ⟨whole, rfl⟩ := display?_eq_some_iff.mp shown
  rw [display?_eq_some_iff, printable, ← display_withoutPlus_eq_iff formed]
  exact and_iff_right whole

def plusesInProduct : Expr :=
  -(.plus (.var "x")) * .plus (.power (.var "y") (.var "z"))

theorem pluses_in_product_invisible :
    plusesInProduct.isWellFormed = true ∧ plusesInProduct.display? = some "-x*y**z" ∧
      plusesInProduct.withoutPlus = -(.var "x") * .power (.var "y") (.var "z") ∧
      plusesInProduct.withoutPlus.display? = some "-x*y**z" := by
  have formed : plusesInProduct.isWellFormed = true := by decide
  have shown : plusesInProduct.display? = some "-x*y**z" := by decide
  have unnoticed : plusesInProduct.PlusUnnoticed := by
    have leaf (name : String) : (var name).PlusUnnoticed := nofun
    simp only [plusesInProduct, mul_eq, neg_eq, plus, power, unary, binary, plusUnnoticed_node,
      List.forall_mem_cons, List.not_mem_nil, false_implies, implies_true, leaf]
    decide
  exact ⟨formed, shown, rfl, ((pluses_invisible_iff formed).2 _ shown).mpr unnoticed⟩

-- The product sees a prefix, and writes the sum without brackets.
def productOfPlus : Expr :=
  .plus (.var "x" + .var "y") * .var "z"

theorem plus_hides_sum :
    productOfPlus.isWellFormed = true ∧ productOfPlus.display? = some "x + y*z" ∧
      productOfPlus.withoutPlus.display? = some "(x + y)*z" ∧
      ¬ productOfPlus.withoutPlus.display? = productOfPlus.display? := by
  decide

end Expr

end SymbolicSimplifier
