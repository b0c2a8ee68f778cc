import Gapk.Library.FixedWidth
import Mathlib.Data.List.TakeWhile

/-!
# Texts as the C library reads them

`strtok` with a single delimiter, and `atoi`, which reads the number that a text
starts with and takes no offence at what follows it.
-/

namespace CText

open FixedWidth

set_option autoImplicit false

section Tokens

/-- The next token of a text, and what follows the delimiter behind it. -/
def strtok (delimiter : Char) (text : List Char) : Option (List Char × List Char) :=
  let found := text.dropWhile (· == delimiter)
  if found = [] then none
  else some (found.takeWhile (· != delimiter), (found.dropWhile (· != delimiter)).drop 1)

/-- A text that can stand between delimiters. -/
def IsToken (delimiter : Char) (token : List Char) : Prop := token ≠ [] ∧ delimiter ∉ token

variable {delimiter : Char} {token : List Char}

theorem token_clean (isToken : IsToken delimiter token) : ∀ c ∈ token, (c != delimiter) = true := by
  intro c member
  apply bne_iff_ne.mpr
  rintro rfl
  exact isToken.2 member

theorem drop_delimiters (isToken : IsToken delimiter token) (rest : List Char) :
    (token ++ rest).dropWhile (· == delimiter) = token ++ rest := by
  cases token with
  | nil => exact absurd rfl isToken.1
  | cons first others =>
      have clean : first ≠ delimiter := fun same => isToken.2 (same ▸ List.mem_cons_self)
      apply List.dropWhile_cons_of_neg
      simpa using clean

theorem strtok_token (isToken : IsToken delimiter token) (rest : List Char) :
    strtok delimiter (token ++ delimiter :: rest) = some (token, rest) := by
  have clean := token_clean isToken
  have some : token ++ delimiter :: rest ≠ [] := List.append_ne_nil_of_left_ne_nil isToken.1 _
  simp only [strtok, drop_delimiters isToken, if_neg some]
  rw [List.takeWhile_append_of_pos clean, List.dropWhile_append_of_pos clean,
    List.takeWhile_cons_of_neg (by simp), List.dropWhile_cons_of_neg (by simp), List.append_nil]
  rfl

theorem strtok_last (isToken : IsToken delimiter token) :
    strtok delimiter token = some (token, []) := by
  have clean := token_clean isToken
  have same := drop_delimiters isToken []
  rw [List.append_nil] at same
  simp only [strtok, same, if_neg isToken.1]
  rw [List.takeWhile_eq_self_iff.mpr clean, List.dropWhile_eq_nil_iff.mpr clean]
  rfl

/-- Whatever is found is a token. -/
theorem strtok_is_token {text rest : List Char} (found : strtok delimiter text = some (token, rest)) :
    IsToken delimiter token := by
  have leading := List.head?_dropWhile_not (· == delimiter) text
  simp only [strtok] at found
  cases trimmed : text.dropWhile (· == delimiter) with
  | nil =>
      rw [trimmed, if_pos rfl] at found
      cases found
  | cons first others =>
      rw [trimmed] at leading found
      have clean : (first != delimiter) = true := by
        apply bne_iff_ne.mpr
        simpa using leading
      rw [if_neg (List.cons_ne_nil _ _), List.takeWhile_cons_of_pos (p := (· != delimiter)) clean] at found
      cases found
      refine ⟨List.cons_ne_nil _ _, fun member => ?_⟩
      rcases List.mem_cons.mp member with same | member
      · exact bne_iff_ne.mp clean same.symm
      · exact bne_iff_ne.mp (List.mem_takeWhile_imp (p := (· != delimiter)) member) rfl

end Tokens

section Numbers

/-- `isspace` of the C locale. -/
def isSpace (c : Char) : Bool := c == ' ' || (9 ≤ c.toNat && c.toNat ≤ 13)

/-- The number that the digits at the start of a text make. -/
def digitsValue (text : List Char) : Nat := Nat.ofDigitChars 10 (text.takeWhile Char.isDigit) 0

/-- `strtol` in base ten: a `long` of 64 bits that stays at its bounds. -/
def strtol (text : List Char) : Int :=
  match text.dropWhile isSpace with
  | '-' :: rest => max (-2 ^ 63) (-(digitsValue rest : Int))
  | '+' :: rest => min (2 ^ 63 - 1) (digitsValue rest : Int)
  | rest => min (2 ^ 63 - 1) (digitsValue rest : Int)

/-- `atoi`, which keeps the lower half of it. -/
def atoi (text : List Char) : Int := toInt32 (strtol text)

/-- No sign and no space starts with a digit. -/
theorem strtol_of_digit {first : Char} (digit : first.isDigit = true) (rest : List Char) :
    strtol (first :: rest) = min (2 ^ 63 - 1) (digitsValue (first :: rest) : Int) := by
  have noSpace : ¬isSpace first = true := by
    intro space
    rw [isSpace, Bool.or_eq_true, beq_iff_eq, Bool.and_eq_true, decide_eq_true_iff,
      decide_eq_true_iff] at space
    rcases space with rfl | bounds
    · exact absurd digit (by decide)
    · have low : 48 ≤ first.toNat := Char.isDigit_iff_toNat.mp digit |>.1
      omega
  rw [strtol, List.dropWhile_cons_of_neg noSpace]
  split
  · next minus =>
      cases minus
      exact absurd digit (by decide)
  · next plus =>
      cases plus
      exact absurd digit (by decide)
  · rfl

/-- A decimal number is read as itself. -/
theorem atoi_decimal {number : Nat} (small : number < 2 ^ 31) :
    atoi (Nat.toDigits 10 number) = number := by
  have digits : ∀ c ∈ Nat.toDigits 10 number, c.isDigit = true :=
    fun c member => Nat.isDigit_of_mem_toDigits (by decide) (by decide) member
  have value : digitsValue (Nat.toDigits 10 number) = number := by
    rw [digitsValue, List.takeWhile_eq_self_iff.mpr digits, Nat.ofDigitChars_ten_toDigits]
  obtain ⟨first, rest, split⟩ := List.exists_cons_of_ne_nil (Nat.toDigits_ne_nil (n := number) (b := 10))
  rw [split] at digits value ⊢
  rw [atoi, strtol_of_digit (digits first List.mem_cons_self), value, min_eq_right (by omega)]
  apply to_int32_eq
  · omega
  · omega

end Numbers

end CText
