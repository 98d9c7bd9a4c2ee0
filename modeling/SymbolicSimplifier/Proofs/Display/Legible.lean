import SymbolicSimplifier.Expr.Display
import SymbolicSimplifier.Proofs.Display.Words
import SymbolicSimplifier.Proofs.Expr.Structure

set_option autoImplicit false

namespace SymbolicSimplifier

open Text

theorem lt_tenTo {n exponent : Nat} (digit : n < 10) (positive : exponent ≠ 0) :
    n < tenTo exponent :=
  Nat.lt_of_lt_of_le digit (Nat.le_self_pow positive 10)

theorem lt_textBound {n : Nat} (digit : n < 10) : n < Number.textBound :=
  lt_tenTo digit (by decide)

namespace UnaryOp

theorem isWord_symbol (op : UnaryOp) : IsWord op.symbol.toList :=
  List.all_eq_true.mp (by cases op <;> decide)

theorem symbol_ne_nil (op : UnaryOp) : op.symbol.toList ≠ [] := by
  cases op <;> decide

theorem symbol_append_inj {op op' : UnaryOp} {rest rest' : List Char}
    (equal : op.symbol.toList ++ rest = op'.symbol.toList ++ rest') : op = op' ∧ rest = rest' := by
  cases op <;> cases op' <;> simp_all [symbol]

theorem symbol_ne_identifier (op : UnaryOp) {name : String} (identifier : isIdentifier name) :
    op.symbol.toList ≠ name.toList := by
  obtain ⟨first, rest, letters, letter, _⟩ := exists_of_isIdentifier identifier
  intro equal
  rw [letters] at equal
  cases op <;> obtain ⟨rfl, _⟩ := List.cons.inj equal <;> cases letter

end UnaryOp

namespace Expr

inductive LegibleLeaf (number : Int → Prop) : Expr → Prop where
  | literal {n : Int} : number n → n.natAbs < Number.textBound →
      LegibleLeaf number (.literal (.int n))
  | var {name : String} : isIdentifier name = true → LegibleLeaf number (.var name)

inductive Legible (number : Int → Prop) (sign : UnaryOp → Prop)
    (grouping : BinaryOp → Expr → Prop) : Expr → Prop where
  | leaf {e : Expr} : LegibleLeaf number e → Legible number sign grouping e
  | unary {op : UnaryOp} {a : Expr} : sign op → Legible number sign grouping a →
      Legible number sign grouping (.node (.unary op) [a])
  | binary {op : BinaryOp} {a b : Expr} : grouping op a → Legible number sign grouping a →
      Legible number sign grouping b → Legible number sign grouping (.node (.binary op) [a, b])
  | function {name : String} {args : List Expr} : isIdentifier name = true → args ≠ [] →
      (∀ a ∈ args, Legible number sign grouping a) →
      Legible number sign grouping (.node (.function name) args)

variable {number : Int → Prop} {sign : UnaryOp → Prop} {grouping : BinaryOp → Expr → Prop}

theorem hasText_node (head : Head) (args : List Expr) :
    (node head args).hasText = (args.map Expr.hasText).all id :=
  bottomUp_node _ _ head args

theorem display?_eq_some_iff {e : Expr} {text : String} :
    e.display? = some text ↔ e.hasText = true ∧ e.display = text := by
  rw [display?, Option.ite_none_right_eq_some, Option.some.injEq]

theorem LegibleLeaf.hasText {e : Expr} (leaf : LegibleLeaf number e) : e.hasText = true := by
  cases leaf with
  | literal _ bounded =>
    simp only [Expr.hasText, bottomUp, Number.hasText, decide_eq_true_eq]
    exact bounded
  | var => rfl

theorem Legible.hasText {e : Expr} (legible : Legible number sign grouping e) :
    e.hasText = true := by
  induction legible with
  | leaf leaf => exact leaf.hasText
  | unary _ _ ih => simpa [hasText_node] using ih
  | binary _ _ _ left right => simpa [hasText_node] using ⟨left, right⟩
  | function _ _ _ ih => simpa [hasText_node] using ih

namespace LegibleLeaf

theorem isWord_text {e : Expr} (leaf : LegibleLeaf number e) : IsWord e.leafText.toList := by
  cases leaf with
  | literal => exact isWord_numeral _
  | var identifier => exact isWord_of_isIdentifier identifier

theorem text_inj {a b : Expr} (left : LegibleLeaf number a) (right : LegibleLeaf number b)
    (equal : a.leafText.toList = b.leafText.toList) : a = b := by
  cases left with
  | @literal n =>
    cases right with
    | literal => exact congrArg (fun n => Expr.literal (.int n)) (numeral_inj equal)
    | var identifier => exact absurd equal (numeral_ne_identifier n identifier)
  | var identifier =>
    cases right with
    | literal => exact absurd equal.symm (numeral_ne_identifier _ identifier)
    | var => exact congrArg Expr.var (String.toList_injective equal)

end LegibleLeaf

def joined (text : Expr → List Char) (args : List Expr) : List Char :=
  [',', ' '].intercalate (args.map text)

theorem joined_singleton (text : Expr → List Char) (a : Expr) : joined text [a] = text a :=
  List.intercalate_singleton

theorem joined_cons_cons (text : Expr → List Char) (a b : Expr) (args : List Expr) :
    joined text (a :: b :: args) = text a ++ ',' :: ' ' :: joined text (b :: args) := by
  simp [joined, List.intercalate_cons_of_ne_nil]

theorem joined_append_inj {text : Expr → List Char} {ends : List Char → Prop}
    (bracket : ∀ rest, ends (')' :: rest)) (comma : ∀ rest, ends (',' :: rest))
    {as bs : List Expr} {rest rest' : List Char}
    (each : ∀ a ∈ as, ∀ b ∈ bs, ∀ rest rest', ends rest → ends rest' →
      text a ++ rest = text b ++ rest' → a = b ∧ rest = rest')
    (some : as ≠ []) (some' : bs ≠ [])
    (equal : joined text as ++ ')' :: rest = joined text bs ++ ')' :: rest') :
    as = bs ∧ rest = rest' := by
  induction as generalizing bs with
  | nil => contradiction
  | cons a as ih =>
    obtain ⟨b, bs, rfl⟩ := List.exists_cons_of_ne_nil some'
    have first := each a (.head _) b (.head _)
    cases as with
    | nil =>
      cases bs with
      | nil =>
        simp only [joined_singleton] at equal
        obtain ⟨rfl, after⟩ := first _ _ (bracket _) (bracket _) equal
        exact ⟨rfl, (List.cons.inj after).2⟩
      | cons b' bs =>
        simp only [joined_singleton, joined_cons_cons, List.append_assoc] at equal
        have after := (first _ _ (bracket _) (comma _) equal).2
        cases after
    | cons a' as =>
      cases bs with
      | nil =>
        simp only [joined_singleton, joined_cons_cons, List.append_assoc] at equal
        have after := (first _ _ (comma _) (bracket _) equal).2
        cases after
      | cons b' bs =>
        simp only [joined_cons_cons, List.append_assoc, List.cons_append] at equal
        obtain ⟨rfl, after⟩ := first _ _ (comma _) (comma _) equal
        simp only [List.cons.injEq, true_and] at after
        obtain ⟨others, rests⟩ := ih (fun a left b right => each a (.tail _ left) b (.tail _ right))
          (by simp) (by simp) after
        exact ⟨by rw [others], rests⟩

def EndsAtom (rest : List Char) : Prop :=
  EndsWord rest ∧ rest.head? ≠ some '('

theorem endsAtom_cons {c : Char} (rest : List Char) (outside : isWordChar c = false)
    (other : c ≠ '(') : EndsAtom (c :: rest) :=
  ⟨(endsWord_cons _ _).mpr outside, by simpa using other⟩

theorem endsAtom_nil : EndsAtom [] :=
  ⟨endsWord_nil, by simp⟩

theorem endsAtom_closing (rest : List Char) : EndsAtom (')' :: rest) :=
  endsAtom_cons rest rfl (by decide)

theorem endsAtom_comma (rest : List Char) : EndsAtom (',' :: rest) :=
  endsAtom_cons rest rfl (by decide)

theorem endsAtom_blank (rest : List Char) : EndsAtom (' ' :: rest) :=
  endsAtom_cons rest rfl (by decide)

theorem bracketed_append_inj {word word' rest rest' : List Char} (left : IsWord word)
    (right : IsWord word') (equal : word ++ '(' :: rest = word' ++ '(' :: rest') :
    word = word' ∧ rest = rest' := by
  have outside (rest : List Char) : EndsWord ('(' :: rest) := (endsWord_cons _ _).mpr rfl
  obtain ⟨words, brackets⟩ := word_append_inj left right (outside _) (outside _) equal
  exact ⟨words, (List.cons.inj brackets).2⟩

theorem bracketed_append_ne {word word' rest rest' : List Char} (left : IsWord word)
    (right : IsWord word') (different : word ≠ word') :
    word ++ '(' :: rest ≠ word' ++ '(' :: rest' :=
  fun equal => different (bracketed_append_inj left right equal).1

theorem isWord_nil : IsWord [] :=
  List.forall_mem_nil _

theorem nil_ne_identifier {name : String} (identifier : isIdentifier name = true) :
    [] ≠ name.toList := by
  obtain ⟨first, rest, letters, _⟩ := exists_of_isIdentifier identifier
  rw [letters]
  exact (List.cons_ne_nil _ _).symm

namespace LegibleLeaf

theorem append_inj {a b : Expr} {rest rest' : List Char} (left : LegibleLeaf number a)
    (right : LegibleLeaf number b) (ends : EndsAtom rest) (ends' : EndsAtom rest')
    (equal : a.leafText.toList ++ rest = b.leafText.toList ++ rest') : a = b ∧ rest = rest' := by
  obtain ⟨words, rests⟩ :=
    word_append_inj left.isWord_text right.isWord_text ends.1 ends'.1 equal
  exact ⟨left.text_inj right words, rests⟩

theorem append_ne_bracketed {a : Expr} {word rest rest' : List Char} (left : LegibleLeaf number a)
    (right : IsWord word) (ends : EndsAtom rest) :
    a.leafText.toList ++ rest ≠ word ++ '(' :: rest' := by
  intro equal
  have bracket : EndsWord ('(' :: rest') := (endsWord_cons _ _).mpr rfl
  obtain ⟨_, rests⟩ := word_append_inj left.isWord_text right ends.1 bracket equal
  exact ends.2 (by rw [rests, List.head?_cons])

end LegibleLeaf

theorem function_append_inj {text : Expr → List Char} (ends : List Char → Prop)
    (bracket : ∀ rest, ends (')' :: rest)) (comma : ∀ rest, ends (',' :: rest))
    {name name' : String} {as bs : List Expr} {rest rest' : List Char}
    (identifier : isIdentifier name = true) (identifier' : isIdentifier name' = true)
    (each : ∀ a ∈ as, ∀ b ∈ bs, ∀ rest rest', ends rest → ends rest' →
      text a ++ rest = text b ++ rest' → a = b ∧ rest = rest')
    (some : as ≠ []) (some' : bs ≠ [])
    (equal : name.toList ++ '(' :: (joined text as ++ ')' :: rest) =
      name'.toList ++ '(' :: (joined text bs ++ ')' :: rest')) :
    node (.function name) as = node (.function name') bs ∧ rest = rest' := by
  obtain ⟨names, arguments⟩ := bracketed_append_inj (isWord_of_isIdentifier identifier)
    (isWord_of_isIdentifier identifier') equal
  obtain ⟨rfl, rests⟩ := joined_append_inj bracket comma each some some' arguments
  exact ⟨by rw [String.toList_injective names], rests⟩

end Expr

end SymbolicSimplifier
