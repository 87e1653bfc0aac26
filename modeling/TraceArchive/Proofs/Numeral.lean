import Mathlib.Algebra.Group.Nat.Defs
import Mathlib.Data.List.Basic
import Mathlib.Data.List.Induction
import Mathlib.Tactic.Ring
import TraceArchive.Text.Numeral

/-!
# Laws of padded numerals

* `length_decimal`: a number below a power of ten fills the width exactly.
* `decimal_inj`: a padded numeral determines its number.
* `significant`: a numeral without its leading zeros.
* `isLowerHexDigit_iff`: the sixteen hexadecimal digits.
* `digitsValue_toDigits`, `digitsValue_inj`: hexadecimal digits and what they stand for.
-/

set_option autoImplicit false

namespace TraceArchive
namespace Text

/-- Padding with zeros does not change what a numeral stands for. -/
theorem ofDigitChars_decimal (width n : Nat) :
    Nat.ofDigitChars 10 (decimal width n) 0 = n := by
  rw [decimal, padZeros, Nat.ofDigitChars_append, Nat.ofDigitChars_replicate_zero, Nat.mul_zero]
  exact Nat.ofDigitChars_ten_toDigits

/-- A padded numeral determines its number. -/
theorem decimal_inj {width m n : Nat} : decimal width m = decimal width n ↔ m = n := by
  refine ⟨fun h => ?_, fun h => h ▸ rfl⟩
  rw [← ofDigitChars_decimal width m, h, ofDigitChars_decimal]

/-- A number below a power of ten fills the width exactly. -/
theorem length_decimal
    {width n : Nat}
    (hwidth : 0 < width)
    (h : n < 10 ^ width) :
    (decimal width n).length = width := by
  have hle := (Nat.length_toDigits_le_iff (by decide) hwidth).mpr h
  rw [decimal, length_padZeros, Nat.max_eq_left hle]

theorem isDigit_of_mem_decimal
    {width n : Nat} {c : Char}
    (h : c ∈ decimal width n) :
    c.isDigit := by
  rcases List.mem_append.mp h with hzero | hdigit
  · rw [List.eq_of_mem_replicate hzero]
    decide
  · exact Nat.isDigit_of_mem_toDigits (by decide) (by decide) hdigit

theorem decimal_ne_nil (width n : Nat) : decimal width n ≠ [] := by
  simp [decimal, padZeros]

/-! ### Leading zeros -/

/-- The digits of a numeral from its first one that is not zero. -/
def significant (digits : List Char) : List Char :=
  digits.dropWhile (· = '0')

theorem exists_zeros_append_significant (digits : List Char) :
    ∃ count, digits = List.replicate count '0' ++ significant digits := by
  refine ⟨(digits.takeWhile (· = '0')).length, ?_⟩
  have hzeros : digits.takeWhile (· = '0') =
      List.replicate (digits.takeWhile (· = '0')).length '0' :=
    List.eq_replicate_of_mem fun c hc => of_decide_eq_true (List.all_eq_true.mp List.all_takeWhile c hc)
  rw [← hzeros]
  exact (List.takeWhile_append_dropWhile (p := (· = '0'))).symm

theorem significant_zeros_append (count : Nat) (digits : List Char) :
    significant (List.replicate count '0' ++ digits) = significant digits := by
  rw [significant, List.dropWhile_append_of_pos (by simp), significant]

@[simp] theorem significant_padZeros (width : Nat) (digits : List Char) :
    significant (padZeros width digits) = significant digits :=
  significant_zeros_append _ digits

/-- Padding does not depend on the leading zeros that are there already. -/
theorem padZeros_significant
    {width : Nat} {digits : List Char}
    (h : digits.length ≤ width) :
    padZeros width (significant digits) = padZeros width digits := by
  obtain ⟨count, hdigits⟩ := exists_zeros_append_significant digits
  have hlength : digits.length = count + (significant digits).length := by
    conv_lhs => rw [hdigits]
    simp
  have hcount : width - (significant digits).length = width - digits.length + count := by omega
  calc
    padZeros width (significant digits) =
        List.replicate (width - digits.length) '0' ++
          (List.replicate count '0' ++ significant digits) := by
      rw [padZeros, hcount, ← List.replicate_append_replicate, List.append_assoc]
    _ = padZeros width digits := by rw [← hdigits, padZeros]

/-! ### What digits stand for -/

theorem digitsValue_concat (base : Nat) (digits : List Char) (c : Char) :
    digitsValue base (digits ++ [c]) =
      base * digitsValue base digits + (digitValue c).getD 0 := by
  simp [digitsValue]

theorem digitsValue_append (base : Nat) (first last : List Char) :
    digitsValue base (first ++ last) =
      base ^ last.length * digitsValue base first + digitsValue base last := by
  induction last using List.reverseRecOn with
  | nil => simp
  | append_singleton last c ih =>
      rw [← List.append_assoc, digitsValue_concat, ih, digitsValue_concat, List.length_append,
        List.length_singleton, Nat.pow_succ]
      ring

theorem digitsValue_replicate_zero (base count : Nat) :
    digitsValue base (List.replicate count '0') = 0 := by
  induction count with
  | zero => rfl
  | succ count ih =>
      rw [List.replicate_succ', digitsValue_concat, ih]
      rfl

@[simp] theorem digitsValue_zeros_append (base count : Nat) (digits : List Char) :
    digitsValue base (List.replicate count '0' ++ digits) = digitsValue base digits := by
  rw [digitsValue_append, digitsValue_replicate_zero, Nat.mul_zero, Nat.zero_add]

@[simp] theorem digitsValue_padZeros (base width : Nat) (digits : List Char) :
    digitsValue base (padZeros width digits) = digitsValue base digits :=
  digitsValue_zeros_append base _ digits

@[simp] theorem digitsValue_significant (base : Nat) (digits : List Char) :
    digitsValue base (significant digits) = digitsValue base digits := by
  obtain ⟨count, hdigits⟩ := exists_zeros_append_significant digits
  conv_rhs => rw [hdigits, digitsValue_zeros_append]

/-! ### Hexadecimal digits -/

theorem digitValue_digitChar : ∀ n < 16, digitValue (Nat.digitChar n) = some n := by
  decide

/-- A hexadecimal digit is the sign of a number below sixteen. -/
theorem isLowerHexDigit_iff {c : Char} :
    isLowerHexDigit c = true ↔ ∃ n < 16, c = Nat.digitChar n := by
  constructor
  · intro h
    have hc : c = Char.ofNat c.toNat := (Char.ofNat_toNat c).symm
    simp only [isLowerHexDigit, isDecimalDigit, Bool.or_eq_true, Bool.and_eq_true,
      decide_eq_true_eq, Char.le_def, UInt32.le_iff_toNat_le] at h
    rcases h with ⟨hleast, hmost⟩ | ⟨hleast, hmost⟩
    · have hsigns : ∀ n < 10, Char.ofNat (48 + n) = Nat.digitChar n := by decide
      change 48 ≤ c.toNat at hleast
      change c.toNat ≤ 57 at hmost
      refine ⟨c.toNat - 48, by omega, ?_⟩
      rw [← hsigns _ (by omega), Nat.add_sub_cancel' hleast, ← hc]
    · have hsigns : ∀ n < 6, Char.ofNat (97 + n) = Nat.digitChar (10 + n) := by decide
      change 97 ≤ c.toNat at hleast
      change c.toNat ≤ 102 at hmost
      refine ⟨10 + (c.toNat - 97), by omega, ?_⟩
      rw [← hsigns _ (by omega), Nat.add_sub_cancel' hleast, ← hc]
  · rintro ⟨n, hn, rfl⟩
    revert n
    decide

/-- All of the characters are hexadecimal digits. -/
def IsLowerHex (digits : List Char) : Prop :=
  ∀ c ∈ digits, isLowerHexDigit c = true

theorem IsLowerHex.append
    {first last : List Char}
    (hfirst : IsLowerHex first)
    (hlast : IsLowerHex last) :
    IsLowerHex (first ++ last) :=
  List.forall_mem_append.mpr ⟨hfirst, hlast⟩

theorem isLowerHex_padZeros
    {digits : List Char}
    (h : IsLowerHex digits)
    (width : Nat) :
    IsLowerHex (padZeros width digits) := by
  refine IsLowerHex.append (fun c hc => ?_) h
  rw [List.eq_of_mem_replicate hc]
  decide

theorem isLowerHex_toDigits (n : Nat) : IsLowerHex (Nat.toDigits 16 n) := by
  induction n using Nat.strongRecOn with
  | ind n ih =>
      rw [Nat.toDigits_eq_if (by decide)]
      split
      · rename_i hn
        intro c hc
        exact isLowerHexDigit_iff.mpr ⟨n, hn, List.mem_singleton.mp hc⟩
      · refine IsLowerHex.append (ih _ (by omega)) fun c hc => ?_
        exact isLowerHexDigit_iff.mpr ⟨n % 16, Nat.mod_lt n (by decide), List.mem_singleton.mp hc⟩

theorem isLowerHex_lowerHex (width n : Nat) : IsLowerHex (lowerHex width n) :=
  isLowerHex_padZeros (isLowerHex_toDigits n) width

/-- Writing a number in base sixteen and reading it gives the number. -/
theorem digitsValue_toDigits (n : Nat) : digitsValue 16 (Nat.toDigits 16 n) = n := by
  induction n using Nat.strongRecOn with
  | ind n ih =>
      rw [Nat.toDigits_eq_if (by decide)]
      split
      · rename_i hn
        rw [← List.nil_append [n.digitChar], digitsValue_concat, digitValue_digitChar n hn]
        simp
      · rw [digitsValue_concat, ih _ (by omega),
          digitValue_digitChar _ (Nat.mod_lt n (by decide)), Option.getD_some]
        omega

@[simp] theorem digitsValue_lowerHex (width n : Nat) : digitsValue 16 (lowerHex width n) = n := by
  rw [lowerHex, digitsValue_padZeros, digitsValue_toDigits]

theorem length_lowerHex
    {width n : Nat}
    (hwidth : 0 < width)
    (h : n < 16 ^ width) :
    (lowerHex width n).length = width := by
  have hle := (Nat.length_toDigits_le_iff (by decide) hwidth).mpr h
  rw [lowerHex, length_padZeros, Nat.max_eq_left hle]

theorem digitsValue_lt
    {digits : List Char}
    (h : IsLowerHex digits) :
    digitsValue 16 digits < 16 ^ digits.length := by
  induction digits using List.reverseRecOn with
  | nil => decide
  | append_singleton digits c ih =>
      obtain ⟨hdigits, hc⟩ := List.forall_mem_append.mp h
      obtain ⟨n, hn, rfl⟩ := isLowerHexDigit_iff.mp (hc c (List.mem_singleton_self c))
      have hlt := ih hdigits
      rw [digitsValue_concat, digitValue_digitChar n hn, List.length_append, Option.getD_some,
        List.length_singleton, Nat.pow_succ]
      omega

/-- As many hexadecimal digits are determined by what they stand for. -/
theorem digitsValue_inj
    {first second : List Char}
    (hfirst : IsLowerHex first)
    (hsecond : IsLowerHex second)
    (hlength : first.length = second.length)
    (h : digitsValue 16 first = digitsValue 16 second) :
    first = second := by
  induction first using List.reverseRecOn generalizing second with
  | nil => exact (List.length_eq_zero_iff.mp hlength.symm).symm
  | append_singleton first c ih =>
      obtain rfl | ⟨second, d, rfl⟩ := List.eq_nil_or_concat' second
      · simp at hlength
      obtain ⟨hinit, hc⟩ := List.forall_mem_append.mp hfirst
      obtain ⟨hinit', hd⟩ := List.forall_mem_append.mp hsecond
      obtain ⟨m, hm, rfl⟩ := isLowerHexDigit_iff.mp (hc c (List.mem_singleton_self c))
      obtain ⟨n, hn, rfl⟩ := isLowerHexDigit_iff.mp (hd d (List.mem_singleton_self d))
      rw [digitsValue_concat, digitsValue_concat, digitValue_digitChar m hm,
        digitValue_digitChar n hn, Option.getD_some, Option.getD_some] at h
      have hlast : m = n := by omega
      have hrest : digitsValue 16 first = digitsValue 16 second := by omega
      have hcount : first.length = second.length := by simpa using hlength
      rw [ih hinit hinit' hcount hrest, hlast]

end Text
end TraceArchive
