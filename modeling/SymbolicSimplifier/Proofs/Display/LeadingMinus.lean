import SymbolicSimplifier.Proofs.Display.Grouping
import SymbolicSimplifier.Proofs.Expr.Symbols
import SymbolicSimplifier.Proofs.Expr.WellFormed
import SymbolicSimplifier.Proofs.Number.Exact

set_option autoImplicit false

namespace SymbolicSimplifier

namespace Text

theorem head?_digits_append_ne {digits rest : List Char}
    (each : ∀ c ∈ digits, c.isDigit = true) (unsigned : rest.head? ≠ some '-') :
    (digits ++ rest).head? ≠ some '-' := by
  cases digits with
  | nil => exact unsigned
  | cons c digits =>
    intro sign
    obtain rfl : c = '-' := Option.some.inj sign
    cases each '-' (.head _)

theorem head?_append_cons {c : Char} (other : c ≠ '-') {text rest : List Char} :
    (text ++ c :: rest).head? = some '-' ↔ text.head? = some '-' := by
  cases text <;> simp [other]

theorem toList_pushn (text : String) (c : Char) (count : Nat) :
    (text.pushn c count).toList = text.toList ++ List.replicate count c := by
  rw [String.pushn]
  induction count with
  | zero => simp [Nat.repeat]
  | succ count ih =>
    rw [Nat.repeat, String.toList_push, ih, List.append_assoc, ← List.replicate_succ']

end Text

open Text

namespace DecimalLayout

theorem isDigit_of_mem_significant {digits : Nat} {c : Char} (member : c ∈ significant digits) :
    c.isDigit = true := by
  have kept := (List.dropWhile_suffix _).subset (List.mem_reverse.mp member)
  exact Nat.isDigit_of_mem_toDigits (by decide) (by decide) (List.mem_reverse.mp kept)

theorem head?_positional_ne {digits : List Char} (each : ∀ c ∈ digits, c.isDigit = true)
    (point : Int) : (positional digits point).toList.head? ≠ some '-' := by
  simp only [positional]
  split
  · simp
  · split
    · have zeros (count : Nat) : ∀ c ∈ List.replicate count '0', c.isDigit = true :=
        fun c member => List.eq_of_mem_replicate member ▸ rfl
      simp only [String.toList_append, String.toList_ofList, toList_pushn, String.toList_empty,
        List.nil_append, List.append_assoc]
      exact head?_digits_append_ne each (head?_digits_append_ne (zeros _) (by simp))
    · simp only [String.toList_append, String.toList_ofList, List.append_assoc]
      exact head?_digits_append_ne (fun c member => each c (List.mem_of_mem_take member)) (by simp)

theorem head?_scientific_ne (layout : DecimalLayout) {digits : List Char}
    (each : ∀ c ∈ digits, c.isDigit = true) (exponent : Int) :
    (layout.scientific digits exponent).toList.head? ≠ some '-' := by
  simp only [scientific, String.toList_append, String.toList_ofList, List.append_assoc]
  apply head?_digits_append_ne fun c member => each c (List.mem_of_mem_take member)
  split <;> simp

theorem head?_render_ne (layout : DecimalLayout) (d : Decimal) :
    (layout.render d).toList.head? ≠ some '-' := by
  have each (c : Char) (member : c ∈ significant d.digits) : c.isDigit = true :=
    isDigit_of_mem_significant member
  simp only [render]
  split
  · exact head?_positional_ne each _
  · exact head?_scientific_ne layout each _

end DecimalLayout

namespace Number

def isNegativeZero : Number → Bool
  | .int _ => false
  | .float x =>
    match Binary64.ofFloat x with
    | .finite negative mantissa _ => negative && mantissa == 0
    | _ => false

theorem isNegative_finite {x : Float} {negative : Bool} {mantissa : Nat} {exponent : Int}
    (fields : Binary64.ofFloat x = .finite negative mantissa exponent) :
    (float x).isNegative = true ↔ negative = true ∧ mantissa ≠ 0 := by
  have power : (0 : Rat) < 2 ^ exponent := zpow_pos (by decide) exponent
  have size : 0 ≤ (mantissa : Rat) * 2 ^ exponent := mul_nonneg (Nat.cast_nonneg _) power.le
  rw [isNegative, (Stands.finite fields).exact_eq, ExactValue.less, decide_eq_true_eq]
  cases negative with
  | false => simpa using size
  | true => simp [mul_pos_iff_of_pos_right power, Nat.pos_iff_ne_zero]

theorem isNegative_of_isNegativeZero {n : Number} (zero : n.isNegativeZero = true) :
    n.isNegative = false := by
  cases n with
  | int => cases zero
  | float x =>
    cases fields : Binary64.ofFloat x with
    | finite negative mantissa exponent =>
      simp only [isNegativeZero, fields, Bool.and_eq_true, beq_iff_eq] at zero
      rw [← Bool.not_eq_true, isNegative_finite fields]
      exact fun negative => negative.2 zero.2
    | _ => simp [isNegativeZero, fields] at zero

theorem head?_display (n : Number) :
    n.display.toList.head? = some '-' ↔ n.isNegative = true ∨ n.isNegativeZero = true := by
  cases n with
  | int n =>
    rw [display, head?_numeral]
    simp [isNegative, exact, ExactValue.less, isNegativeZero]
  | float x =>
    cases fields : Binary64.ofFloat x with
    | undefined => simp [display, fields, floatText, isNegative, exact, Binary64.exact,
        ExactValue.less, isNegativeZero]
    | infinite negative =>
      cases negative <;> simp [display, fields, floatText, isNegative, exact, Binary64.exact,
        ExactValue.less, isNegativeZero]
    | finite negative mantissa exponent =>
      have unsigned : (if mantissa = 0 then "0.0" else
          layout.render (Decimal.shortest mantissa exponent)).toList.head? ≠ some '-' := by
        split
        · decide
        · exact layout.head?_render_ne _
      rw [isNegative_finite fields]
      cases negative with
      | false => simpa [display, fields, floatText, isNegativeZero] using unsigned
      | true => simp [display, fields, floatText, isNegativeZero, em']

end Number

theorem BinaryOp.eq_pow_of_strength (op : BinaryOp) (strong : BinaryOp.pow.strength ≤ op.strength) :
    op = .pow := by
  cases op <;> first | rfl | exact absurd strong (by decide)

namespace Expr

def leadsWithNegativeZero : Expr → Bool :=
  bottomUp
    (fun
      | .literal n => n.isNegativeZero
      | _ => false)
    (fun
      | .binary .pow, base :: _ => base
      | _, _ => false)

theorem leadsWithNegativeZero_power (base exponent : Expr) :
    (node (.binary .pow) [base, exponent]).leadsWithNegativeZero = base.leadsWithNegativeZero := by
  rw [leadsWithNegativeZero, bottomUp_node]
  rfl

theorem strength_of_leadsWithNegativeZero {e : Expr} (leads : e.leadsWithNegativeZero = true) :
    BinaryOp.pow.strength ≤ e.strength := by
  cases e with
  | literal n =>
    rw [strength, Number.isNegative_of_isNegativeZero leads]
    decide
  | node head args =>
    rw [leadsWithNegativeZero, bottomUp_node] at leads
    split at leads
    · exact Nat.le_refl _
    · cases leads
  | _ => cases leads

theorem head?_display_iff {e : Expr} (formed : e.isWellFormed = true)
    (unsigned : ∀ symbol ∈ e.symbols, symbol.name.toList.head? ≠ some '-')
    (strong : BinaryOp.pow.strength ≤ e.strength) :
    e.display.toList.head? = some '-' ↔ e.leadsWithNegativeZero = true := by
  induction e, formed using induction_of_isWellFormed with
  | literal n =>
    have notNegative : n.isNegative ≠ true := by
      intro negative
      rw [strength, if_pos negative] at strong
      exact absurd strong (by decide)
    exact n.head?_display.trans (or_iff_right notNegative)
  | named name n => exact iff_of_false (unsigned (.constant name) (by simp)) Bool.false_ne_true
  | var name => exact iff_of_false (unsigned (.var name) (by simp)) Bool.false_ne_true
  | unary op a => exact absurd strong (by decide : ¬ BinaryOp.pow.strength ≤ unaryStrength)
  | binary op base exponent _ _ _ ih =>
    obtain rfl := op.eq_pow_of_strength strong
    rw [leadsWithNegativeZero_power, display_binary]
    by_cases weak : base.strength < BinaryOp.pow.strength
    · rw [within_of_lt weak]
      refine iff_of_false (by simp) fun leads => ?_
      exact absurd (strength_of_leadsWithNegativeZero leads) (Nat.not_le.mpr weak)
    · have strongBase := Nat.not_lt.mp weak
      rw [within_of_le strongBase]
      refine Iff.trans (head?_append_cons (by decide)) (ih ?_ strongBase)
      exact fun symbol member => unsigned symbol (by simp [member])
  | function name args =>
    rw [display_function, head?_append_cons (by decide)]
    refine iff_of_false (unsigned (.function name) (by simp [Head.symbols])) fun leads => ?_
    rw [leadsWithNegativeZero, bottomUp_node] at leads
    cases leads

/-- If no name starts with a minus sign, the text of a power does so exactly if the power starts
with a negative zero. Every other base that starts with a minus sign stands in parentheses. -/
theorem power_signed_iff {base exponent : Expr} {text : String}
    (formed : (power base exponent).isWellFormed = true)
    (unsigned : ∀ symbol ∈ (power base exponent).symbols, symbol.name.toList.head? ≠ some '-')
    (shown : (power base exponent).display? = some text) :
    (text.toList.head? = some '-' ↔ base.leadsWithNegativeZero = true) ∧
      (base.display.toList.head? = some '-' → base.leadsWithNegativeZero = false →
        ∃ rest, text = "(" ++ base.display ++ ")**" ++ rest) := by
  obtain ⟨_, rfl⟩ := display?_eq_some_iff.mp shown
  refine ⟨head?_display_iff formed unsigned (Nat.le_refl _), fun signed other => ?_⟩
  have formedBase : base.isWellFormed = true :=
    ((isWellFormed_node ..).mp formed).2 base (.head _)
  have weak : base.strength < BinaryOp.pow.strength := by
    by_contra strong
    have leads := (head?_display_iff formedBase
      (fun symbol member => unsigned symbol (by simp [member])) (Nat.not_lt.mp strong)).mp signed
    cases leads.symm.trans other
  refine ⟨exponent.rendering.within BinaryOp.pow.strength, String.toList_injective ?_⟩
  refine (display_binary .pow base exponent).trans ?_
  rw [within_of_lt weak]
  simp [within, BinaryOp.separator, BinaryOp.isTight, BinaryOp.symbol]

def powerOfNegation : Expr :=
  .power (-(.var "x")) (.var "y")

theorem power_of_negation_unsigned :
    powerOfNegation.isWellFormed = true ∧
      (∀ symbol ∈ powerOfNegation.symbols, symbol.name.toList.head? ≠ some '-') ∧
      powerOfNegation.display? = some "(-x)**y" ∧
      "(-x)**y".toList.head? ≠ some '-' ∧
      ∃ rest, "(-x)**y" = "(" ++ (-(var "x")).display ++ ")**" ++ rest := by
  have formed : powerOfNegation.isWellFormed = true := by decide
  have unsigned : ∀ symbol ∈ powerOfNegation.symbols, symbol.name.toList.head? ≠ some '-' := by
    decide
  have shown : powerOfNegation.display? = some "(-x)**y" := by decide
  obtain ⟨signed, enclosed⟩ := power_signed_iff formed unsigned shown
  exact ⟨formed, unsigned, shown, mt signed.mp (by decide), enclosed (by decide) (by decide)⟩

-- The base is not below zero, so it is written without parentheses, but with its sign.
def powerOfNegativeZero : Expr :=
  .power (.literal (.float (Float.ofBits 0x8000000000000000))) (.var "x")

theorem power_of_negative_zero_signed :
    powerOfNegativeZero.isWellFormed = true ∧
      (∀ symbol ∈ powerOfNegativeZero.symbols, symbol.name.toList.head?.any Char.isAlpha = true) ∧
      powerOfNegativeZero.display? = some "-0.0**x" ∧ "-0.0**x".toList.head? = some '-' := by
  decide

end Expr

end SymbolicSimplifier
