import Mathlib.Data.List.Basic

set_option autoImplicit false

namespace SymbolicSimplifier

namespace Text

def isWordChar (c : Char) : Bool :=
  !(['(', ')', ',', ' ', '*'].contains c)

-- Letters and digits of other scripts are characters of names, but no name starts with one.
def isNameChar (c : Char) : Bool :=
  c.isAlphanum || c == '_' || decide (0x80 ≤ c.toNat)

def isIdentifier (name : String) : Bool :=
  match name.toList with
  | [] => false
  | first :: rest => first.isAlpha && rest.all isNameChar

def EndsWord (rest : List Char) : Prop :=
  ∀ c ∈ rest.head?, isWordChar c = false

@[simp] theorem endsWord_nil : EndsWord [] := by
  simp [EndsWord]

@[simp] theorem endsWord_cons (c : Char) (rest : List Char) :
    EndsWord (c :: rest) ↔ isWordChar c = false := by
  simp [EndsWord]

def IsWord (word : List Char) : Prop :=
  ∀ c ∈ word, isWordChar c = true

theorem word_append_inj {word word' rest rest' : List Char} (left : IsWord word)
    (right : IsWord word') (ends : EndsWord rest) (ends' : EndsWord rest')
    (equal : word ++ rest = word' ++ rest') : word = word' ∧ rest = rest' := by
  induction word generalizing word' with
  | nil =>
    cases word' with
    | nil => exact ⟨rfl, equal⟩
    | cons c word' =>
      subst equal
      have inside : isWordChar c = true := right c (.head _)
      simp [inside] at ends
  | cons c word ih =>
    cases word' with
    | nil =>
      subst equal
      have inside : isWordChar c = true := left c (.head _)
      simp [inside] at ends'
    | cons c' word' =>
      obtain ⟨rfl, tails⟩ := List.cons.inj equal
      obtain ⟨rfl, rests⟩ :=
        ih (List.forall_mem_cons.mp left).2 (List.forall_mem_cons.mp right).2 tails
      exact ⟨rfl, rests⟩

theorem isWordChar_of_isNameChar {c : Char} (inside : isNameChar c = true) :
    isWordChar c = true := by
  have others : ['(', ')', ',', ' ', '*'].all (fun p => !isNameChar p) = true := by decide
  rw [isWordChar, Bool.not_eq_true', ← Bool.not_eq_true, List.contains_iff_mem]
  intro punctuation
  have outside := List.all_eq_true.mp others c punctuation
  rw [inside] at outside
  cases outside

theorem exists_of_isIdentifier {name : String} (identifier : isIdentifier name = true) :
    ∃ first rest, name.toList = first :: rest ∧ first.isAlpha = true ∧ IsWord (first :: rest) := by
  unfold isIdentifier at identifier
  cases letters : name.toList with
  | nil => simp [letters] at identifier
  | cons first rest =>
    simp only [letters, Bool.and_eq_true, List.all_eq_true] at identifier
    obtain ⟨letter, others⟩ := identifier
    refine ⟨first, rest, rfl, letter, List.forall_mem_cons.mpr ⟨?_, ?_⟩⟩
    · exact isWordChar_of_isNameChar (by simp [isNameChar, Char.isAlphanum, letter])
    · exact fun c member => isWordChar_of_isNameChar (others c member)

theorem isWord_of_isIdentifier {name : String} (identifier : isIdentifier name = true) :
    IsWord name.toList := by
  obtain ⟨first, rest, letters, _, word⟩ := exists_of_isIdentifier identifier
  exact letters ▸ word

theorem isWordChar_of_isDigit {c : Char} (digit : c.isDigit = true) : isWordChar c = true :=
  isWordChar_of_isNameChar (by simp [isNameChar, Char.isAlphanum, digit])

theorem isDigit_of_mem_numeral {n : Nat} {c : Char} (member : c ∈ (toString n).toList) :
    c.isDigit = true := by
  rw [Nat.toString_eq_ofList_toDigits, String.toList_ofList] at member
  exact Nat.isDigit_of_mem_toDigits (by decide) (by decide) member

theorem numeral_eq_if (n : Int) :
    toString n = if 0 ≤ n then toString n.toNat else "-" ++ toString (-n).toNat :=
  Int.repr_eq_if

theorem isWord_numeral (n : Int) : IsWord (toString n).toList := by
  have digits (k : Nat) : IsWord (toString k).toList :=
    fun c member => isWordChar_of_isDigit (isDigit_of_mem_numeral member)
  rw [numeral_eq_if]
  split
  · exact digits _
  · rw [String.toList_append]
    exact List.forall_mem_cons.mpr ⟨rfl, digits _⟩

theorem exists_digit_of_numeral {n : Int} (nonneg : 0 ≤ n) :
    ∃ c rest, (toString n).toList = c :: rest ∧ c.isDigit = true := by
  rw [numeral_eq_if, if_pos nonneg]
  cases digits : (toString n.toNat).toList with
  | nil =>
    rw [Nat.toString_eq_ofList_toDigits, String.toList_ofList] at digits
    exact absurd digits Nat.toDigits_ne_nil
  | cons c rest => exact ⟨c, rest, rfl, isDigit_of_mem_numeral (by rw [digits]; exact .head _)⟩

theorem numeral_of_neg {n : Int} (negative : n < 0) :
    (toString n).toList = '-' :: (toString (-n).toNat).toList := by
  rw [numeral_eq_if, if_neg (by omega), String.toList_append]
  rfl

theorem digits_inj {m n : Nat} (equal : (toString m).toList = (toString n).toList) : m = n := by
  simp only [Nat.toString_eq_ofList_toDigits, String.toList_ofList] at equal
  rw [← Nat.ofDigitChars_ten_toDigits (n := m), equal, Nat.ofDigitChars_ten_toDigits]

theorem head?_numeral (n : Int) : (toString n).toList.head? = some '-' ↔ n < 0 := by
  by_cases nonneg : 0 ≤ n
  · obtain ⟨c, rest, numeral, digit⟩ := exists_digit_of_numeral nonneg
    rw [numeral, List.head?_cons, Option.some.injEq]
    refine iff_of_false ?_ (by omega)
    rintro rfl
    cases digit
  · rw [numeral_of_neg (by omega)]
    exact iff_of_true rfl (by omega)

theorem numeral_inj {m n : Int} (equal : (toString m).toList = (toString n).toList) : m = n := by
  have signs : m < 0 ↔ n < 0 := by rw [← head?_numeral, equal, head?_numeral]
  by_cases negative : n < 0
  · rw [numeral_of_neg (signs.mpr negative), numeral_of_neg negative] at equal
    have sizes := digits_inj (List.cons.inj equal).2
    omega
  · rw [numeral_eq_if, if_pos (by omega), numeral_eq_if, if_pos (by omega)] at equal
    have sizes := digits_inj equal
    omega

theorem isDigit_of_isAlpha {c : Char} (letter : c.isAlpha = true) : c.isDigit = false := by
  have above : 'A'.val ≤ c.val := by
    rcases (Bool.or_eq_true ..).mp letter with upper | lower
    · exact (of_decide_eq_true upper).1
    · have fromA : 'a'.val ≤ c.val := of_decide_eq_true ((Bool.and_eq_true ..).mp lower).1
      exact UInt32.le_trans (by decide) fromA
  have beyond : ¬ c.val ≤ '9'.val := fun below =>
    absurd (UInt32.le_trans above below) (by decide)
  exact Bool.and_eq_false_iff.mpr (.inr (decide_eq_false beyond))

theorem numeral_ne_identifier (n : Int) {name : String} (identifier : isIdentifier name = true) :
    (toString n).toList ≠ name.toList := by
  obtain ⟨first, others, letters, letter, _⟩ := exists_of_isIdentifier identifier
  intro equal
  rw [letters] at equal
  by_cases nonneg : 0 ≤ n
  · obtain ⟨c, rest, numeral, digit⟩ := exists_digit_of_numeral nonneg
    rw [numeral] at equal
    obtain ⟨rfl, _⟩ := List.cons.inj equal
    rw [isDigit_of_isAlpha letter] at digit
    cases digit
  · rw [numeral_of_neg (by omega)] at equal
    obtain ⟨rfl, _⟩ := List.cons.inj equal
    cases letter

end Text

end SymbolicSimplifier
