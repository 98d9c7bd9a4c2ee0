import SymbolicSimplifier.Proofs.Display.Legible

set_option autoImplicit false

namespace SymbolicSimplifier

open Text

theorem BinaryOp.symbol_append_inj {op op' : BinaryOp} {rest rest' : List Char}
    (equal : op.symbol.toList ++ ' ' :: rest = op'.symbol.toList ++ ' ' :: rest') :
    op = op' ∧ rest = rest' := by
  cases op <;> cases op' <;> simp_all [symbol]

namespace Expr

abbrev Spelled : Expr → Prop :=
  Legible (fun _ => True) (fun _ => True) (fun _ _ => True)

theorem full_leaf {number : Int → Prop} {e : Expr} (leaf : LegibleLeaf number e) :
    e.full = e.leafText := by
  cases leaf <;> rfl

theorem full_node (head : Head) (args : List Expr) :
    (node head args).full = head.fullText (args.map full) :=
  bottomUp_node _ _ head args

theorem full_unary (op : UnaryOp) (a : Expr) :
    (node (.unary op) [a]).full.toList =
      op.symbol.toList ++ '(' :: (a.full.toList ++ [')']) := by
  simp [full_node, Head.fullText]

theorem full_binary (op : BinaryOp) (a b : Expr) :
    (node (.binary op) [a, b]).full.toList =
      '(' :: (a.full.toList ++ ' ' :: (op.symbol.toList ++ ' ' :: (b.full.toList ++ [')']))) := by
  simp [full_node, Head.fullText]

theorem full_function (name : String) (args : List Expr) :
    (node (.function name) args).full.toList =
      name.toList ++ '(' :: (joined (fun a => a.full.toList) args ++ [')']) := by
  simp [full_node, Head.fullText, joined, String.toList_intercalate, Function.comp_def]

theorem full_append_inj {a b : Expr} {rest rest' : List Char} (left : Spelled a) (right : Spelled b)
    (ends : EndsAtom rest) (ends' : EndsAtom rest')
    (equal : a.full.toList ++ rest = b.full.toList ++ rest') : a = b ∧ rest = rest' := by
  induction left generalizing b rest rest' with
  | leaf leaf =>
    cases right with
    | leaf leaf' =>
      rw [full_leaf leaf, full_leaf leaf'] at equal
      exact leaf.append_inj leaf' ends ends' equal
    | @unary op' =>
      rw [full_leaf leaf, full_unary, List.append_assoc] at equal
      exact absurd equal (leaf.append_ne_bracketed op'.isWord_symbol ends)
    | binary =>
      rw [full_leaf leaf, full_binary] at equal
      exact absurd equal (leaf.append_ne_bracketed isWord_nil ends)
    | function identifier' =>
      rw [full_leaf leaf, full_function, List.append_assoc] at equal
      exact absurd equal (leaf.append_ne_bracketed (isWord_of_isIdentifier identifier') ends)
  | @unary op a _ _ ih =>
    cases right with
    | leaf leaf' =>
      rw [full_leaf leaf', full_unary, List.append_assoc] at equal
      exact absurd equal.symm (leaf'.append_ne_bracketed op.isWord_symbol ends')
    | @unary op' b _ inner' =>
      simp only [full_unary, List.append_assoc, List.cons_append] at equal
      obtain ⟨rfl, inners⟩ := UnaryOp.symbol_append_inj equal
      obtain ⟨rfl, rests⟩ :=
        ih inner' (endsAtom_closing _) (endsAtom_closing _) (List.cons.inj inners).2
      exact ⟨rfl, (List.cons.inj rests).2⟩
    | binary =>
      rw [full_unary, full_binary, List.append_assoc] at equal
      exact absurd equal (bracketed_append_ne op.isWord_symbol isWord_nil op.symbol_ne_nil)
    | function identifier' =>
      rw [full_unary, full_function, List.append_assoc, List.append_assoc] at equal
      exact absurd equal (bracketed_append_ne op.isWord_symbol
        (isWord_of_isIdentifier identifier') (op.symbol_ne_identifier identifier'))
  | binary _ _ _ ihInner ihOuter =>
    cases right with
    | leaf leaf' =>
      rw [full_leaf leaf', full_binary] at equal
      exact absurd equal.symm (leaf'.append_ne_bracketed isWord_nil ends')
    | @unary op' =>
      rw [full_unary, full_binary, List.append_assoc] at equal
      exact absurd equal.symm (bracketed_append_ne op'.isWord_symbol isWord_nil op'.symbol_ne_nil)
    | binary _ inner' outer' =>
      simp only [full_binary, List.append_assoc, List.cons_append, List.cons.injEq, true_and]
        at equal
      obtain ⟨rfl, signs⟩ := ihInner inner' (endsAtom_blank _) (endsAtom_blank _) equal
      obtain ⟨rfl, outers⟩ := BinaryOp.symbol_append_inj (List.cons.inj signs).2
      obtain ⟨rfl, rests⟩ := ihOuter outer' (endsAtom_closing _) (endsAtom_closing _) outers
      exact ⟨rfl, (List.cons.inj rests).2⟩
    | function identifier' =>
      rw [full_binary, full_function, List.append_assoc] at equal
      exact absurd equal (bracketed_append_ne isWord_nil (isWord_of_isIdentifier identifier')
        (nil_ne_identifier identifier'))
  | function identifier some _ ih =>
    cases right with
    | leaf leaf' =>
      rw [full_leaf leaf', full_function, List.append_assoc] at equal
      exact absurd equal.symm
        (leaf'.append_ne_bracketed (isWord_of_isIdentifier identifier) ends')
    | @unary op' =>
      rw [full_unary, full_function, List.append_assoc, List.append_assoc] at equal
      exact absurd equal.symm (bracketed_append_ne op'.isWord_symbol
        (isWord_of_isIdentifier identifier) (op'.symbol_ne_identifier identifier))
    | binary =>
      rw [full_binary, full_function, List.append_assoc] at equal
      exact absurd equal.symm (bracketed_append_ne isWord_nil (isWord_of_isIdentifier identifier)
        (nil_ne_identifier identifier))
    | function identifier' some' each' =>
      simp only [full_function, List.append_assoc, List.cons_append] at equal
      exact function_append_inj EndsAtom endsAtom_closing endsAtom_comma identifier identifier'
        (fun a left b right _ _ ends ends' => ih a left (each' b right) ends ends')
        some some' equal

/-- Expressions of integers, variables and functions have a full text, and only equal ones have the
same. -/
theorem full_eq_iff {a b : Expr} (left : Spelled a) (right : Spelled b) :
    a.full?.isSome = true ∧ (a.full? = b.full? ↔ a = b) := by
  have texts : a.full? = some a.full ∧ b.full? = some b.full := by
    simp [full?, left.hasText, right.hasText]
  rw [texts.1, texts.2]
  refine ⟨rfl, fun equal => ?_, fun equal => by rw [equal]⟩
  have characters : a.full.toList ++ [] = b.full.toList ++ [] := by rw [Option.some.inj equal]
  exact (full_append_inj left right endsAtom_nil endsAtom_nil characters).1

theorem negation_and_negative_full_eq_iff :
    let negation := apply "f" [binary .pow (var "x_1") (unary .minus (ofInt 5)), var "f"]
    let negative := apply "f" [binary .pow (var "x_1") (ofInt (-5)), var "f"]
    Spelled negation ∧ Spelled negative ∧ negation.full?.isSome = true ∧
      (negation.full? = negative.full? ↔ negation = negative) := by
  intro negation negative
  have power {exponent : Expr} (spelled : Spelled exponent) :
      Spelled (apply "f" [binary .pow (var "x_1") exponent, var "f"]) := by
    refine .function (by decide) (by simp) (List.forall_mem_cons.mpr ⟨?_, ?_⟩)
    · exact .binary trivial (.leaf (.var (by decide))) spelled
    · exact List.forall_mem_singleton.mpr (.leaf (.var (by decide)))
  have small {n : Int} (digit : n.natAbs < 10) : Spelled (ofInt n) :=
    .leaf (.literal trivial (lt_textBound digit))
  have left : Spelled negation := power (.unary trivial (small (by decide)))
  have right : Spelled negative := power (small (by decide))
  exact ⟨left, right, full_eq_iff left right⟩

end Expr

end SymbolicSimplifier
