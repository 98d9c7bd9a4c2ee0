import SymbolicSimplifier.Proofs.Display.Legible
import SymbolicSimplifier.Proofs.Display.Regrouping

/-!
The display text of an expression determines it up to the grouping of operators that bind equally.
Of the expressions that are regrouped to the right, no two have the same text: what follows an
argument tells where it ends, because an operator inside it binds at least as tightly as the one
above it, and a weaker one stands in parentheses.
-/

set_option autoImplicit false

namespace SymbolicSimplifier

open Text

namespace BinaryOp

theorem strength_lt_atom (op : BinaryOp) : op.strength < atomStrength := by
  cases op <;> decide

theorem strength_ne_unary (op : BinaryOp) : op.strength ≠ unaryStrength := by
  cases op <;> decide

theorem separator_append_inj {op op' : BinaryOp} {rest rest' : List Char}
    (other : rest.head? ≠ some '*') (other' : rest'.head? ≠ some '*')
    (equal : op.separator.toList ++ rest = op'.separator.toList ++ rest') :
    op = op' ∧ rest = rest' := by
  cases op <;> cases op' <;> simp_all [separator, isTight, symbol]
  -- A power read as a product of something that starts with a star.
  exact other' (by rw [← equal, List.head?_cons])

end BinaryOp

namespace Expr

/-- Expressions of natural numbers, variables and functions, without the unary plus, which is not
written. -/
abbrev Plain : Expr → Prop :=
  Legible (fun n => 0 ≤ n) (fun op => op ≠ .plus) (fun _ _ => True)

abbrev RightGrouped : Expr → Prop :=
  Legible (fun n => 0 ≤ n) (fun op => op ≠ .plus) (fun op left => left.strength ≠ op.strength)

theorem LegibleLeaf.strength_eq {e : Expr} (leaf : LegibleLeaf (fun n => 0 ≤ n) e) :
    e.strength = atomStrength := by
  cases leaf with
  | @literal n natural =>
    have notNegative : ¬ (n : Rat) < 0 := Rat.not_lt.mpr (Rat.intCast_nonneg.mpr natural)
    simp [strength, Number.isNegative, Number.exact, ExactValue.less, notNegative]
  | var => rfl

theorem joinRight_rightGrouped (op : BinaryOp) {left right : Expr} (first : RightGrouped left)
    (second : RightGrouped right) : RightGrouped (joinRight op right left) := by
  fun_induction joinRight op right left with
  | case1 op' a b _ ih =>
    cases first with
    | leaf leaf => cases leaf
    | binary different inner outer => exact .binary different inner (ih outer)
  | case2 op' a b different => exact .binary different first second
  | case3 left other =>
    refine .binary ?_ first second
    cases first with
    | leaf leaf => exact leaf.strength_eq ▸ op.strength_lt_atom.ne'
    | unary => exact op.strength_ne_unary.symm
    | binary => exact (other _ _ _ rfl).elim
    | function => exact op.strength_lt_atom.ne'

theorem Legible.toRight {e : Expr} (plain : Plain e) : RightGrouped e.toRight := by
  induction plain with
  | leaf leaf =>
    cases leaf with
    | literal natural bounded => exact .leaf (.literal natural bounded)
    | var identifier => exact .leaf (.var identifier)
  | unary sign _ ih => rw [toRight_node]; exact .unary sign ih
  | binary _ _ _ first second => rw [toRight_node]; exact joinRight_rightGrouped _ first second
  | function identifier some _ ih =>
    rw [toRight_node]
    exact .function identifier (by simpa using some) (by simpa using ih)

def within (e : Expr) (strength : Nat) : List Char :=
  (e.rendering.within strength).toList

theorem within_of_lt {e : Expr} {strength : Nat} (weak : e.strength < strength) :
    e.within strength = '(' :: (e.display.toList ++ [')']) := by
  simp [within, Rendering.within, weak, display]

theorem within_of_le {e : Expr} {strength : Nat} (strong : strength ≤ e.strength) :
    e.within strength = e.display.toList := by
  simp [within, Rendering.within, Nat.not_lt.mpr strong, display]

theorem within_succ {e : Expr} {strength : Nat} (different : e.strength ≠ strength) :
    e.within (strength + 1) = e.within strength := by
  by_cases weak : e.strength < strength
  · rw [within_of_lt weak, within_of_lt (by omega)]
  · rw [within_of_le (by omega), within_of_le (by omega)]

theorem display_leaf {number : Int → Prop} {e : Expr} (leaf : LegibleLeaf number e) :
    e.display = e.leafText := by
  cases leaf <;> rfl

theorem display_unary {op : UnaryOp} (written : op ≠ .plus) (a : Expr) :
    (node (.unary op) [a]).display.toList = op.symbol.toList ++ a.within unaryStrength := by
  cases op with
  | plus => contradiction
  | minus | complement => simp [display, rendering_node, Head.displayText, within]

theorem display_binary (op : BinaryOp) (a b : Expr) :
    (node (.binary op) [a, b]).display.toList =
      a.within op.strength ++ (op.separator.toList ++ b.within op.strength) := by
  simp [display, rendering_binary, within]

theorem display_function (name : String) (args : List Expr) :
    (node (.function name) args).display.toList =
      name.toList ++ '(' :: (joined (fun a => a.display.toList) args ++ [')']) := by
  simp [display, rendering_node, Head.displayText, joined, String.toList_intercalate,
    Function.comp_def]

def isSign (c : Char) : Bool :=
  ['+', '-', '~'].contains c

/-- The text does not start with a star, and with a sign only at the strength of prefixes or
below. -/
def Starts (strength : Nat) (text : List Char) : Prop :=
  ∃ first rest, text = first :: rest ∧ first ≠ '*' ∧
    (isSign first = true → strength ≤ unaryStrength)

namespace Starts

theorem of_isAlphanum (strength : Nat) {first : Char} (rest : List Char)
    (alphanum : first.isAlphanum = true) : Starts strength (first :: rest) := by
  refine ⟨first, rest, rfl, ?_, fun sign => ?_⟩
  · rintro rfl
    cases alphanum
  · have others : ['+', '-', '~'].all (fun c => !c.isAlphanum) = true := by decide
    have outside := List.all_eq_true.mp others first (List.contains_iff_mem.mp sign)
    rw [alphanum] at outside
    cases outside

theorem append {strength : Nat} {text : List Char} (starts : Starts strength text)
    (more : List Char) : Starts strength (text ++ more) := by
  obtain ⟨first, rest, rfl, star, sign⟩ := starts
  exact ⟨first, rest ++ more, rfl, star, sign⟩

theorem head?_ne_star {strength : Nat} {text : List Char} (starts : Starts strength text)
    (more : List Char) : (text ++ more).head? ≠ some '*' := by
  obtain ⟨first, rest, rfl, star, _⟩ := starts
  simpa using star

theorem within {e : Expr} (starts : Starts e.strength e.display.toList) (strength : Nat) :
    Starts strength (e.within strength) := by
  by_cases weak : e.strength < strength
  · rw [within_of_lt weak]
    exact ⟨'(', _, rfl, by decide, nofun⟩
  · obtain ⟨first, rest, text, star, sign⟩ := starts
    rw [within_of_le (by omega)]
    exact ⟨first, rest, text, star, fun signed => by have := sign signed; omega⟩

end Starts

theorem LegibleLeaf.starts {e : Expr} (leaf : LegibleLeaf (fun n => 0 ≤ n) e) (strength : Nat) :
    Starts strength e.leafText.toList := by
  cases leaf with
  | literal natural =>
    obtain ⟨first, rest, numeral, digit⟩ := exists_digit_of_numeral natural
    exact numeral ▸ .of_isAlphanum strength rest (by simp [Char.isAlphanum, digit])
  | var identifier =>
    obtain ⟨first, rest, letters, letter, _⟩ := exists_of_isIdentifier identifier
    exact letters ▸ .of_isAlphanum strength rest (by simp [Char.isAlphanum, letter])

theorem Legible.starts {e : Expr} (grouped : RightGrouped e) :
    Starts e.strength e.display.toList := by
  induction grouped with
  | leaf leaf => exact display_leaf leaf ▸ leaf.starts _
  | @unary op a written =>
    rw [display_unary written]
    refine Starts.append ?_ _
    cases op <;> exact ⟨_, [], rfl, by decide, fun _ => Nat.le_refl _⟩
  | @binary op a b _ _ _ first =>
    rw [display_binary]
    exact (first.within op.strength).append _
  | function identifier =>
    obtain ⟨first, rest, letters, letter, _⟩ := exists_of_isIdentifier identifier
    rw [display_function, letters]
    exact .of_isAlphanum _ _ (by simp [Char.isAlphanum, letter])

/-- What can follow an argument of something that binds with the given strength: a bracket that
closes, a comma, or an operator that binds less. -/
inductive Follows (strength : Nat) : List Char → Prop where
  | nil : Follows strength []
  | closing (rest : List Char) : Follows strength (')' :: rest)
  | comma (rest : List Char) : Follows strength (',' :: rest)
  | operator {op : BinaryOp} {rest : List Char} : op.strength < strength →
      rest.head? ≠ some '*' → Follows strength (op.separator.toList ++ rest)

namespace Follows

theorem mono {strength strength' : Nat} {rest : List Char} (follows : Follows strength rest)
    (stronger : strength ≤ strength') : Follows strength' rest := by
  cases follows with
  | nil => exact .nil
  | closing => exact .closing _
  | comma => exact .comma _
  | operator weak star => exact .operator (Nat.lt_of_lt_of_le weak stronger) star

theorem endsAtom {strength : Nat} {rest : List Char} (follows : Follows strength rest) :
    EndsAtom rest := by
  cases follows with
  | nil => exact endsAtom_nil
  | closing => exact endsAtom_closing _
  | comma => exact endsAtom_comma _
  | @operator op => cases op <;> exact endsAtom_cons _ rfl (by decide)

theorem strength_lt {strength : Nat} {op : BinaryOp} {rest : List Char}
    (follows : Follows strength (op.separator.toList ++ rest)) (star : rest.head? ≠ some '*') :
    op.strength < strength := by
  generalize equal : op.separator.toList ++ rest = text at follows
  cases follows with
  | nil => cases op <;> cases equal
  | closing => cases op <;> cases equal
  | comma => cases op <;> cases equal
  | operator weak star' =>
    obtain ⟨rfl, _⟩ := BinaryOp.separator_append_inj star star' equal
    exact weak

end Follows

/-- As arguments at any strength, texts of the two expressions show where they end, and they are
the same only if the expressions are. -/
def Separates (a b : Expr) : Prop :=
  ∀ strength rest rest', Follows strength rest → Follows strength rest' →
    a.within strength ++ rest = b.within strength ++ rest' → a = b ∧ rest = rest'

def SeparatesBelow (bound : Nat) : Prop :=
  ∀ a b, RightGrouped a → RightGrouped b → a.size + b.size < bound → Separates a b

-- The first operand of a chain of operators ends before one of them, and the other text goes on
-- with an operator that binds less than they do.
theorem chain_append_ne {op : BinaryOp} {a b other : Expr} {strength : Nat} {rest rest' : List Char}
    (separates : Separates a other) (different : a.strength ≠ op.strength) (second : RightGrouped b)
    (bare : strength ≤ op.strength) (same : other.within strength = other.within (op.strength + 1))
    (follows' : Follows strength rest') :
    (node (.binary op) [a, b]).display.toList ++ rest ≠ other.within strength ++ rest' := by
  intro equal
  rw [display_binary, ← within_succ different, same, List.append_assoc, List.append_assoc] at equal
  have star := (second.starts.within op.strength).head?_ne_star rest
  obtain ⟨_, rfl⟩ := separates (op.strength + 1) _ _ (.operator (Nat.lt_succ_self _) star)
    (follows'.mono (by omega)) equal
  have weak := follows'.strength_lt star
  omega

theorem chain_append_inj {op op' : BinaryOp} {a a' b b' : Expr} {strength : Nat}
    {rest rest' : List Char} (equally : op.strength = op'.strength) (firsts : Separates a a')
    (seconds : Separates b b') (different : a.strength ≠ op.strength)
    (different' : a'.strength ≠ op'.strength) (second : RightGrouped b) (second' : RightGrouped b')
    (bare : strength ≤ op.strength) (follows : Follows strength rest)
    (follows' : Follows strength rest')
    (equal : (node (.binary op) [a, b]).display.toList ++ rest =
      (node (.binary op') [a', b']).display.toList ++ rest') :
    node (.binary op) [a, b] = node (.binary op') [a', b'] ∧ rest = rest' := by
  rw [display_binary, display_binary, ← within_succ different, ← within_succ different',
    List.append_assoc, List.append_assoc, List.append_assoc, List.append_assoc, ← equally] at equal
  have star := (second.starts.within op.strength).head?_ne_star rest
  have star' := (second'.starts.within op.strength).head?_ne_star rest'
  obtain ⟨rfl, operators⟩ := firsts (op.strength + 1) _ _ (.operator (Nat.lt_succ_self _) star)
    (.operator (equally ▸ Nat.lt_succ_self _) star') equal
  obtain ⟨rfl, others⟩ := BinaryOp.separator_append_inj star star' operators
  obtain ⟨rfl, rfl⟩ := seconds op.strength _ _ (follows.mono bare) (follows'.mono bare) others
  exact ⟨rfl, rfl⟩

theorem prefix_append_inj {op op' : UnaryOp} {a a' : Expr} {strength : Nat}
    {rest rest' : List Char} (written : op ≠ .plus) (written' : op' ≠ .plus)
    (separates : Separates a a') (bare : strength ≤ unaryStrength)
    (follows : Follows strength rest) (follows' : Follows strength rest')
    (equal : (node (.unary op) [a]).display.toList ++ rest =
      (node (.unary op') [a']).display.toList ++ rest') :
    node (.unary op) [a] = node (.unary op') [a'] ∧ rest = rest' := by
  rw [display_unary written, display_unary written', List.append_assoc, List.append_assoc] at equal
  obtain ⟨rfl, arguments⟩ := UnaryOp.symbol_append_inj equal
  obtain ⟨rfl, rfl⟩ :=
    separates unaryStrength _ _ (follows.mono bare) (follows'.mono bare) arguments
  exact ⟨rfl, rfl⟩

theorem prefix_append_ne {op : UnaryOp} {a other : Expr} {rest rest' : List Char}
    (written : op ≠ .plus) (grouped : RightGrouped other)
    (tighter : unaryStrength < other.strength) :
    (node (.unary op) [a]).display.toList ++ rest ≠ other.display.toList ++ rest' := by
  intro equal
  obtain ⟨first, others, text, _, sign⟩ := grouped.starts
  rw [display_unary written, text, List.append_assoc] at equal
  have signed : isSign first = true := by
    cases op <;> obtain ⟨rfl, _⟩ := List.cons.inj equal <;> rfl
  exact absurd (sign signed) (Nat.not_le.mpr tighter)

theorem Legible.strength_le {e : Expr} (grouped : RightGrouped e) : e.strength ≤ atomStrength := by
  cases grouped with
  | leaf leaf => exact leaf.strength_eq.le
  | unary => exact (by decide : unaryStrength ≤ atomStrength)
  | @binary op => exact op.strength_lt_atom.le
  | function => exact Nat.le_refl _

theorem looser_append_ne {a b : Expr} (left : RightGrouped a) (right : RightGrouped b)
    (smaller : SeparatesBelow (a.size + b.size)) {strength : Nat} {rest rest' : List Char}
    (bare : strength ≤ a.strength) (looser : a.strength < b.strength)
    (follows' : Follows strength rest') :
    a.display.toList ++ rest ≠ b.display.toList ++ rest' := by
  cases left with
  | leaf leaf => exact absurd right.strength_le (by have := leaf.strength_eq; omega)
  | unary written => exact prefix_append_ne written right looser
  | @binary op a c different first second =>
    have separates : Separates a b := smaller a b first right (by rw [size_binary]; omega)
    have weaker : op.strength + 1 ≤ b.strength := looser
    have bare' : strength ≤ b.strength := Nat.le_trans bare (Nat.le_of_lt looser)
    rw [← within_of_le bare']
    refine chain_append_ne separates different second bare ?_ follows'
    rw [within_of_le bare', within_of_le weaker]
  | function => exact absurd right.strength_le (Nat.not_le.mpr looser)

theorem equally_append_inj {a b : Expr} (left : RightGrouped a) (right : RightGrouped b)
    (smaller : SeparatesBelow (a.size + b.size)) {strength : Nat} {rest rest' : List Char}
    (bare : strength ≤ a.strength) (equally : a.strength = b.strength)
    (follows : Follows strength rest) (follows' : Follows strength rest')
    (equal : a.display.toList ++ rest = b.display.toList ++ rest') : a = b ∧ rest = rest' := by
  cases left with
  | leaf leaf =>
    rw [leaf.strength_eq] at equally
    cases right with
    | leaf leaf' =>
      rw [display_leaf leaf, display_leaf leaf'] at equal
      exact leaf.append_inj leaf' follows.endsAtom follows'.endsAtom equal
    | unary => cases equally
    | @binary op' => exact absurd equally op'.strength_lt_atom.ne'
    | function identifier' =>
      rw [display_leaf leaf, display_function, List.append_assoc] at equal
      exact absurd equal
        (leaf.append_ne_bracketed (isWord_of_isIdentifier identifier') follows.endsAtom)
  | @unary op a written inner =>
    cases right with
    | leaf leaf' => cases leaf'.strength_eq.symm.trans equally.symm
    | @unary op' b written' inner' =>
      have separates : Separates a b :=
        smaller a b inner inner' (by rw [size_unary, size_unary]; omega)
      exact prefix_append_inj written written' separates bare follows follows' equal
    | @binary op' => exact absurd equally.symm op'.strength_ne_unary
    | function => cases equally
  | @binary op a b different first second =>
    cases right with
    | leaf leaf' => exact absurd (equally.trans leaf'.strength_eq) op.strength_lt_atom.ne
    | unary => exact absurd equally op.strength_ne_unary
    | @binary op' a' b' different' first' second' =>
      rw [size_binary, size_binary] at smaller
      have firsts : Separates a a' := smaller a a' first first' (by omega)
      have seconds : Separates b b' := smaller b b' second second' (by omega)
      exact chain_append_inj equally firsts seconds different different' second second' bare
        follows follows' equal
    | function => exact absurd equally op.strength_lt_atom.ne
  | @function name args identifier some each =>
    cases right with
    | leaf leaf' =>
      rw [display_leaf leaf', display_function, List.append_assoc] at equal
      exact absurd equal.symm
        (leaf'.append_ne_bracketed (isWord_of_isIdentifier identifier) follows'.endsAtom)
    | unary => cases equally
    | @binary op' => exact absurd equally.symm op'.strength_lt_atom.ne
    | @function name' args' identifier' some' each' =>
      simp only [display_function, List.append_assoc, List.cons_append] at equal
      refine function_append_inj (Follows 0) .closing .comma identifier identifier' ?_ some some'
        equal
      intro a member b member' rest rest' follows follows' equal
      have separates : Separates a b := by
        refine smaller a b (each a member) (each' b member') ?_
        have less := size_lt_of_mem (.function name) member
        have less' := size_lt_of_mem (.function name') member'
        omega
      rw [← within_of_le (Nat.zero_le a.strength), ← within_of_le (Nat.zero_le b.strength)] at equal
      exact separates 0 rest rest' follows follows' equal

theorem bare_append_inj {a b : Expr} (left : RightGrouped a) (right : RightGrouped b)
    (smaller : SeparatesBelow (a.size + b.size)) {strength : Nat} {rest rest' : List Char}
    (bare : strength ≤ a.strength) (bare' : strength ≤ b.strength)
    (follows : Follows strength rest) (follows' : Follows strength rest')
    (equal : a.display.toList ++ rest = b.display.toList ++ rest') : a = b ∧ rest = rest' := by
  rcases Nat.lt_trichotomy a.strength b.strength with looser | equally | tighter
  · exact absurd equal (looser_append_ne left right smaller bare looser follows')
  · exact equally_append_inj left right smaller bare equally follows follows' equal
  · rw [Nat.add_comm] at smaller
    exact absurd equal.symm (looser_append_ne right left smaller bare' tighter follows)

-- A text in parentheses is not the start of a text without: after the parentheses it ends.
theorem enclosed_append_ne {a b : Expr} (left : RightGrouped a) (right : RightGrouped b)
    (smaller : SeparatesBelow (a.size + b.size)) {strength : Nat} {rest rest' : List Char}
    (enclosed : a.strength < strength) (bare' : strength ≤ b.strength)
    (follows : Follows strength rest) (follows' : Follows strength rest') :
    a.within strength ++ rest ≠ b.display.toList ++ rest' := by
  intro equal
  cases right with
  | leaf leaf' =>
    rw [within_of_lt enclosed, display_leaf leaf'] at equal
    exact leaf'.append_ne_bracketed isWord_nil follows'.endsAtom equal.symm
  | @unary op' b written' =>
    rw [within_of_lt enclosed, display_unary written', List.append_assoc] at equal
    cases op' <;> cases equal
  | @binary op' b c different' first' second' =>
    have separates : Separates b a := smaller b a first' left (by rw [size_binary]; omega)
    have weaker : a.strength < op'.strength + 1 :=
      Nat.lt_of_lt_of_le enclosed (Nat.le_succ_of_le bare')
    refine chain_append_ne separates different' second' bare' ?_ follows equal.symm
    rw [within_of_lt enclosed, within_of_lt weaker]
  | function identifier' =>
    rw [within_of_lt enclosed, display_function, List.append_assoc] at equal
    exact bracketed_append_ne isWord_nil (isWord_of_isIdentifier identifier')
      (nil_ne_identifier identifier') equal

-- By induction on the nodes of both together: a chain on one side is read up to its first operator
-- while the other side stays whole.
theorem separates {a b : Expr} (left : RightGrouped a) (right : RightGrouped b) :
    Separates a b := by
  induction total : a.size + b.size using Nat.strong_induction_on generalizing a b with
  | _ total ih =>
    subst total
    have smaller : SeparatesBelow (a.size + b.size) :=
      fun a' b' left' right' less => ih _ less left' right' rfl
    intro strength rest rest' follows follows' equal
    by_cases enclosed : a.strength < strength <;> by_cases enclosed' : b.strength < strength
    · rw [within_of_lt enclosed, within_of_lt enclosed'] at equal
      simp only [List.cons_append, List.append_assoc, List.cons.injEq, true_and] at equal
      obtain ⟨rfl, rests⟩ := bare_append_inj left right smaller (Nat.zero_le _) (Nat.zero_le _)
        (.closing _) (.closing _) equal
      exact ⟨rfl, (List.cons.inj rests).2⟩
    · rw [within_of_le (Nat.not_lt.mp enclosed')] at equal
      exact absurd equal (enclosed_append_ne left right smaller enclosed (Nat.not_lt.mp enclosed')
        follows follows')
    · rw [within_of_le (Nat.not_lt.mp enclosed)] at equal
      rw [Nat.add_comm] at smaller
      exact absurd equal.symm (enclosed_append_ne right left smaller enclosed'
        (Nat.not_lt.mp enclosed) follows' follows)
    · rw [within_of_le (Nat.not_lt.mp enclosed), within_of_le (Nat.not_lt.mp enclosed')] at equal
      exact bare_append_inj left right smaller (Nat.not_lt.mp enclosed) (Nat.not_lt.mp enclosed')
        follows follows' equal

theorem RightGrouped.display_inj {a b : Expr} (left : RightGrouped a) (right : RightGrouped b)
    (equal : a.display = b.display) : a = b := by
  have texts : a.within 0 ++ [] = b.within 0 ++ [] := by
    rw [within_of_le (Nat.zero_le _), within_of_le (Nat.zero_le _), equal]
  exact (separates left right 0 [] [] .nil .nil texts).1

/-- Expressions of natural numbers, variables and functions have a display text, and two of them
have the same one if and only if they differ in the grouping of operators that bind equally. -/
theorem display_eq_iff_regrouped {a b : Expr} (left : Plain a) (right : Plain b) :
    a.display?.isSome = true ∧ (a.display? = b.display? ↔ Regrouped a b) := by
  have texts : a.display? = some a.display ∧ b.display? = some b.display := by
    simp [display?, left.hasText, right.hasText]
  rw [texts.1, texts.2]
  refine ⟨rfl, fun equal => ?_, fun regrouped => ?_⟩
  · have moved : a.toRight.display = b.toRight.display :=
      calc a.toRight.display = a.display := (toRight_regrouped a).symm.display_eq
        _ = b.display := Option.some.inj equal
        _ = b.toRight.display := (toRight_regrouped b).display_eq
    exact regrouped_of_toRight_eq (left.toRight.display_inj right.toRight moved)
  · rw [regrouped.display_eq]

theorem sub_add_display_eq_iff_regrouped :
    let left := apply "f" [binary .add (binary .sub (var "x") (ofInt 2)) (unary .minus (var "y"))]
    let right := apply "f" [binary .sub (var "x") (binary .add (ofInt 2) (unary .minus (var "y")))]
    Plain left ∧ Plain right ∧ left.display = "f(x - 2 + -y)" ∧ left.display?.isSome = true ∧
      Regrouped left right := by
  intro left right
  have x : Plain (var "x") := .leaf (.var (by decide))
  have y : Plain (unary .minus (var "y")) := .unary (by decide) (.leaf (.var (by decide)))
  have two : Plain (ofInt 2) := .leaf (.literal (by decide) (lt_textBound (by decide)))
  have function {a : Expr} (argument : Plain a) : Plain (apply "f" [a]) :=
    .function (by decide) (by simp) (List.forall_mem_singleton.mpr argument)
  have leftPlain : Plain left := function (.binary trivial (.binary trivial x two) y)
  have rightPlain : Plain right := function (.binary trivial x (.binary trivial two y))
  have result := display_eq_iff_regrouped leftPlain rightPlain
  have texts : left.display? = right.display? := by
    simp only [display?, leftPlain.hasText, rightPlain.hasText]
    decide
  exact ⟨leftPlain, rightPlain, by decide, result.1, result.2.mp texts⟩

end Expr

end SymbolicSimplifier
