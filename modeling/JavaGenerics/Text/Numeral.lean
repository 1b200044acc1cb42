/-!
# Numerals

* `number` — the number that digits denote in a base up to sixteen.
* `Decimal` — digits times a power of ten.
* `Decimal.exceedsDouble` — whether a decimal number is beyond every finite double, which the number
  of its digits tells for almost all of them.  `Decimal.exceedsDouble_iff` says that **this comes to
  the same as comparing values**.
-/

namespace JavaGenerics

/-- The value of a digit in any base up to sixteen. -/
def digitValue (c : Char) : Nat :=
  if c.isDigit then c.toNat - '0'.toNat
  else if 'a' ≤ c then c.toNat - 'a'.toNat + 10
  else c.toNat - 'A'.toNat + 10

/-- The number that digits denote. -/
def number (base : Nat) (digits : List Char) : Nat :=
  digits.foldl (fun n c => n * base + digitValue c) 0

/-! ## Size -/

/-- A one and `k` zeros. -/
def powerOfTen (k : Nat) : Nat :=
  Nat.pow 10 k

theorem powerOfTen_succ (k : Nat) : powerOfTen (k + 1) = powerOfTen k * 10 :=
  rfl

theorem powerOfTen_add (j k : Nat) : powerOfTen (j + k) = powerOfTen j * powerOfTen k :=
  Nat.pow_add 10 j k

theorem powerOfTen_pos (k : Nat) : 0 < powerOfTen k :=
  Nat.pow_pos (by decide)

theorem powerOfTen_le {j k : Nat} (h : j ≤ k) : powerOfTen j ≤ powerOfTen k :=
  Nat.pow_le_pow_right (by decide) h

theorem number_cons (c : Char) (digits : List Char) :
    number 10 (c :: digits) = digitValue c * powerOfTen digits.length + number 10 digits := by
  have shift : ∀ n, digits.foldl (fun n c => n * 10 + digitValue c) n =
      n * powerOfTen digits.length + number 10 digits := by
    induction digits with
    | nil => intro n; exact (Nat.mul_one n).symm
    | cons d rest ih =>
      intro n
      simp only [number, List.foldl_cons, List.length_cons, powerOfTen_succ]
      rw [ih, ih (0 * 10 + digitValue d)]
      grind
  simpa [number] using shift (digitValue c)

theorem digitValue_lt_ten {c : Char} (h : c.isDigit = true) : digitValue c < 10 := by
  have high : c.toNat ≤ 57 := by simp [Char.isDigit] at h; exact h.2
  simp only [digitValue, h, if_true]
  have : '0'.toNat = 48 := rfl
  omega

theorem digitValue_pos {c : Char} (h : c.isDigit = true) (nonzero : c ≠ '0') :
    0 < digitValue c := by
  have low : 48 ≤ c.toNat := by simp [Char.isDigit] at h; exact h.1
  have : c.toNat ≠ 48 := fun e => nonzero (Char.toNat_inj.1 e)
  simp only [digitValue, h, if_true]
  have : '0'.toNat = 48 := rfl
  omega

theorem number_lt {digits : List Char} (h : ∀ c ∈ digits, c.isDigit = true) :
    number 10 digits < powerOfTen digits.length := by
  induction digits with
  | nil => decide
  | cons c rest ih =>
    have first := digitValue_lt_ten (h c (by simp))
    have later := ih fun d hd => h d (by simp [hd])
    rw [number_cons, List.length_cons, powerOfTen_succ]
    have := Nat.mul_le_mul_right (powerOfTen rest.length) (Nat.le_of_lt_succ first)
    omega

theorem le_number {c : Char} {rest : List Char} (h : c.isDigit = true) (nonzero : c ≠ '0') :
    powerOfTen rest.length ≤ number 10 (c :: rest) := by
  rw [number_cons]
  have := Nat.mul_le_mul_right (powerOfTen rest.length) (digitValue_pos h nonzero)
  omega

theorem number_dropWhile_zero (digits : List Char) :
    number 10 (digits.dropWhile (· == '0')) = number 10 digits := by
  induction digits with
  | nil => rfl
  | cons c rest ih =>
    by_cases h : c = '0'
    · subst h
      simpa [number_cons, digitValue] using ih
    · simp [h]

/-! ## Decimal numbers -/

/-- A number in decimal notation. -/
structure Decimal where
  digits : List Char
  /-- The power of ten by which the digits are multiplied. -/
  exponent : Int
deriving DecidableEq, Repr

/-- The least number that is too large for a double: it lies halfway between the largest double and
the next power of two, and of these two the power of two is even. -/
def doubleBound : Nat :=
  Nat.pow 2 1024 - Nat.pow 2 970

namespace Decimal

/-- Whether no finite double is nearest to a number.  The power of ten is formed only where the
number of digits before the point does not decide. -/
def exceedsDouble (decimal : Decimal) : Bool :=
  let significant := decimal.digits.dropWhile (· == '0')
  let magnitude := significant.length + decimal.exponent
  if significant.isEmpty || magnitude < 309 then false
  else if 309 < magnitude then true
  else
    doubleBound * powerOfTen (-decimal.exponent).toNat ≤
      number 10 significant * powerOfTen decimal.exponent.toNat

theorem powerOfTen_le_doubleBound : powerOfTen 308 ≤ doubleBound := by decide +kernel

theorem doubleBound_le_powerOfTen : doubleBound ≤ powerOfTen 309 := by decide +kernel

/-- Moving the point does not take a number to a bound that it has too few digits for. -/
theorem lt_mul_of_length {n length k bound : Nat} {exponent : Int} (h : n < powerOfTen length)
    (few : length + exponent ≤ k) (large : powerOfTen k ≤ bound) :
    n * powerOfTen exponent.toNat < bound * powerOfTen (-exponent).toNat := by
  have powers : powerOfTen length * powerOfTen exponent.toNat ≤
      powerOfTen k * powerOfTen (-exponent).toNat := by
    rw [← powerOfTen_add, ← powerOfTen_add]
    exact powerOfTen_le (by omega)
  calc n * powerOfTen exponent.toNat
      < powerOfTen length * powerOfTen exponent.toNat :=
        Nat.mul_lt_mul_of_pos_right h (powerOfTen_pos _)
    _ ≤ powerOfTen k * powerOfTen (-exponent).toNat := powers
    _ ≤ bound * powerOfTen (-exponent).toNat := Nat.mul_le_mul_right _ large

/-- Moving the point does not take a number below a bound that it has enough digits for. -/
theorem mul_le_of_length {n length k bound : Nat} {exponent : Int} (h : powerOfTen length ≤ n)
    (many : k ≤ length + exponent) (small : bound ≤ powerOfTen k) :
    bound * powerOfTen (-exponent).toNat ≤ n * powerOfTen exponent.toNat := by
  have powers : powerOfTen k * powerOfTen (-exponent).toNat ≤
      powerOfTen length * powerOfTen exponent.toNat := by
    rw [← powerOfTen_add, ← powerOfTen_add]
    exact powerOfTen_le (by omega)
  calc bound * powerOfTen (-exponent).toNat
      ≤ powerOfTen k * powerOfTen (-exponent).toNat := Nat.mul_le_mul_right _ small
    _ ≤ powerOfTen length * powerOfTen exponent.toNat := powers
    _ ≤ n * powerOfTen exponent.toNat := Nat.mul_le_mul_right _ h

/-- **A number exceeds the doubles if its value is at least the bound.** -/
theorem exceedsDouble_iff (decimal : Decimal) (h : ∀ c ∈ decimal.digits, c.isDigit = true) :
    decimal.exceedsDouble = true ↔
      doubleBound * powerOfTen (-decimal.exponent).toNat ≤
        number 10 decimal.digits * powerOfTen decimal.exponent.toNat := by
  rw [← number_dropWhile_zero]
  have head := List.head?_dropWhile_not (· == '0') decimal.digits
  have significant : ∀ c ∈ decimal.digits.dropWhile (· == '0'), c.isDigit = true :=
    fun c hc => h c ((List.dropWhile_sublist _).subset hc)
  unfold exceedsDouble
  generalize decimal.digits.dropWhile (· == '0') = digits at head significant
  cases digits with
  | nil =>
    have positive : 0 < doubleBound * powerOfTen (-decimal.exponent).toNat :=
      Nat.mul_pos (by decide +kernel) (powerOfTen_pos _)
    have zero : number 10 [] * powerOfTen decimal.exponent.toNat = 0 := Nat.zero_mul _
    rw [zero]
    exact iff_of_false (by simp) (Nat.not_le_of_gt positive)
  | cons c rest =>
    have nonzero : c ≠ '0' := by simpa using head
    have upper := number_lt significant
    have lower : powerOfTen rest.length ≤ number 10 (c :: rest) :=
      le_number (significant c (by simp)) nonzero
    simp only [List.isEmpty_cons, Bool.false_or, decide_eq_true_eq]
    split
    next few =>
      simpa using lt_mul_of_length upper (Int.le_of_lt_add_one few) powerOfTen_le_doubleBound
    next =>
      split
      next many =>
        simp only [List.length_cons] at many
        have enough : ((309 : Nat) : Int) ≤ rest.length + decimal.exponent := by omega
        simpa using mul_le_of_length lower enough doubleBound_le_powerOfTen
      next => simp

/-! What is nearest to the largest double is not beyond it, and zero never is. -/

example : exceedsDouble ⟨"17976931348623158".toList, 292⟩ = false := by decide +kernel

example : exceedsDouble ⟨"17976931348623159".toList, 292⟩ = true := by decide +kernel

example : exceedsDouble ⟨"0".toList, 999999999999⟩ = false := by decide +kernel

end Decimal

end JavaGenerics
