import SearchAndIdna.ProcessLabel
import SearchAndIdna.Lib.Bootstring

/-!
# Punycode digits

The parameters of `punycode.cpp`, which is the same file in `common/`, `Icuuc/`
and `icu_demo/`, and what its encoder and its decoder share: the digits, the
bias, and the end of the output buffer.

* `scheme`: the parameters as a Bootstring scheme;
* `basicToDigit_digitToBasic`: a digit is read back;
* `adaptBias_le`: the bias of any delta that the functions meet.
-/

namespace SearchAndIdna.Punycode

open Uts46

/-! ## Parameters -/

def BASE : Nat := 36

def TMIN : Nat := 1

def TMAX : Nat := 26

def SKEW : Nat := 38

def DAMP : Nat := 700

def INITIAL_BIAS : Nat := 72

def INITIAL_N : Nat := 0x80

def DELIMITER : WChar := 0x2d

def MAX_CP_COUNT : Nat := 200

def U_STRING_NOT_TERMINATED_WARNING : UErrorCode := -124

def U_INTERNAL_PROGRAM_ERROR : UErrorCode := 5

def U_INDEX_OUTOFBOUNDS_ERROR : UErrorCode := 8

def U_INVALID_CHAR_FOUND : UErrorCode := 10

def U_ILLEGAL_CHAR_FOUND : UErrorCode := 12

def IS_BASIC (c : WChar) : Bool := c < 0x80

/-! ## Digits -/

/-- `digitToBasic`, in lowercase. -/
def digitToBasic (digit : Nat) : WChar :=
  if digit < 26 then UInt16.ofNat (0x61 + digit) else UInt16.ofNat (0x30 - 26 + digit)

/-- -1 if the byte represents no value. -/
def basicToDigitTable : List Int := [
  -1, -1, -1, -1, -1, -1, -1, -1, -1, -1, -1, -1, -1, -1, -1, -1,
  -1, -1, -1, -1, -1, -1, -1, -1, -1, -1, -1, -1, -1, -1, -1, -1,
  -1, -1, -1, -1, -1, -1, -1, -1, -1, -1, -1, -1, -1, -1, -1, -1,
  26, 27, 28, 29, 30, 31, 32, 33, 34, 35, -1, -1, -1, -1, -1, -1,
  -1,  0,  1,  2,  3,  4,  5,  6,  7,  8,  9, 10, 11, 12, 13, 14,
  15, 16, 17, 18, 19, 20, 21, 22, 23, 24, 25, -1, -1, -1, -1, -1,
  -1,  0,  1,  2,  3,  4,  5,  6,  7,  8,  9, 10, 11, 12, 13, 14,
  15, 16, 17, 18, 19, 20, 21, 22, 23, 24, 25, -1, -1, -1, -1, -1,
  -1, -1, -1, -1, -1, -1, -1, -1, -1, -1, -1, -1, -1, -1, -1, -1,
  -1, -1, -1, -1, -1, -1, -1, -1, -1, -1, -1, -1, -1, -1, -1, -1,
  -1, -1, -1, -1, -1, -1, -1, -1, -1, -1, -1, -1, -1, -1, -1, -1,
  -1, -1, -1, -1, -1, -1, -1, -1, -1, -1, -1, -1, -1, -1, -1, -1,
  -1, -1, -1, -1, -1, -1, -1, -1, -1, -1, -1, -1, -1, -1, -1, -1,
  -1, -1, -1, -1, -1, -1, -1, -1, -1, -1, -1, -1, -1, -1, -1, -1,
  -1, -1, -1, -1, -1, -1, -1, -1, -1, -1, -1, -1, -1, -1, -1, -1,
  -1, -1, -1, -1, -1, -1, -1, -1, -1, -1, -1, -1, -1, -1, -1, -1]

/-- `basicToDigit[(uint8_t)c]`: only the low byte counts. -/
def basicToDigit (c : WChar) : Int := basicToDigitTable.getD (c.toNat % 256) (-1)

/-- The digit that is read from a unit, written again. -/
def lowercaseDigit (c : WChar) : WChar := digitToBasic (basicToDigit c).toNat

theorem basicToDigit_digitToBasic {d : Nat} (h : d < BASE) :
    basicToDigit (digitToBasic d) = d := by
  have hall : ∀ e ∈ List.range BASE, basicToDigit (digitToBasic e) = e := by decide
  exact hall d (List.mem_range.mpr h)

theorem digitToBasic_ne_delimiter {d : Nat} (h : d < BASE) : digitToBasic d ≠ DELIMITER := by
  have hall : ∀ e ∈ List.range BASE, digitToBasic e ≠ DELIMITER := by decide
  exact hall d (List.mem_range.mpr h)

theorem basicToDigit_lt (c : WChar) : basicToDigit c < BASE := by
  have hall : ∀ d ∈ basicToDigitTable, d < BASE := by decide +kernel
  rw [basicToDigit, List.getD_eq_getElem?_getD]
  cases hd : basicToDigitTable[c.toNat % 256]? with
  | none => decide
  | some d => exact hall d (List.mem_of_getElem? hd)

/-! ## The bias -/

/-- The loop of `adaptBias`. -/
def adaptLoop (delta count : Nat) : Nat × Nat :=
  if (BASE - TMIN) * TMAX / 2 < delta then adaptLoop (delta / (BASE - TMIN)) (count + BASE)
  else (delta, count)
termination_by delta
decreasing_by exact Nat.div_lt_self (by omega) (by decide)

def adaptBias (delta length : Nat) (firstTime : Bool) : Nat :=
  let delta := if firstTime then delta / DAMP else delta / 2
  let delta := delta + delta / length
  let r := adaptLoop delta 0
  r.2 + (BASE - TMIN + 1) * r.1 / (r.1 + SKEW)

/-- `t`, from `t=k-bias`, which may be negative, on. -/
def threshold (bias k : Nat) : Nat :=
  if k < bias + TMIN then TMIN else if bias + TMAX ≤ k then TMAX else k - bias

theorem threshold_pos (bias k : Nat) : 0 < threshold bias k := by
  unfold threshold TMIN TMAX
  split
  · decide
  · split
    · decide
    · omega

theorem threshold_le (bias k : Nat) : threshold bias k ≤ TMAX := by
  unfold threshold TMIN TMAX
  split
  · decide
  · split
    · decide
    · omega

theorem threshold_lt (bias k : Nat) : threshold bias k < BASE :=
  Nat.lt_of_le_of_lt (threshold_le bias k) (by decide)

/-- The parameters of Punycode. -/
def scheme : Bootstring.Scheme where
  base := BASE
  threshold := threshold
  adapt := adaptBias
  threshold_pos := threshold_pos
  threshold_lt := threshold_lt

/-- Four divisions bring such a delta down. -/
theorem adaptLoop_le {delta n : Nat} (h : delta < 456 * 35 ^ n) (count : Nat) :
    (adaptLoop delta count).2 ≤ count + 36 * n := by
  induction n generalizing delta count with
  | zero =>
    rw [adaptLoop, if_neg (by simp only [BASE, TMIN, TMAX]; omega)]
    exact Nat.le_add_right _ _
  | succ n ih =>
    rw [adaptLoop]
    split
    · have hdiv : delta / (BASE - TMIN) < 456 * 35 ^ n := by
        rw [Nat.div_lt_iff_lt_mul (by decide)]
        calc delta < 456 * 35 ^ (n + 1) := h
          _ = 456 * 35 ^ n * (BASE - TMIN) := by rw [Nat.pow_succ, Nat.mul_assoc]; rfl
      have hle := ih hdiv (count + BASE)
      have hbase : BASE = 36 := rfl
      omega
    · exact Nat.le_add_right _ _

theorem adaptBias_le {delta length : Nat} (h : delta < 0x7fffffff / 4) (firstTime : Bool) :
    adaptBias delta length firstTime ≤ 179 := by
  have hstart : ∀ d, d ≤ delta / 2 →
      (adaptLoop (d + d / length) 0).2 + (BASE - TMIN + 1) * (adaptLoop (d + d / length) 0).1 /
        ((adaptLoop (d + d / length) 0).1 + SKEW) ≤ 179 := by
    intro d hd
    have hsmall : d + d / length < 456 * 35 ^ 4 := by
      have := Nat.div_le_self d length
      omega
    have hcount := adaptLoop_le hsmall 0
    generalize adaptLoop (d + d / length) 0 = r at hcount
    have hfrac : (BASE - TMIN + 1) * r.1 / (r.1 + SKEW) < 36 := by
      rw [Nat.div_lt_iff_lt_mul (by simp only [SKEW]; omega)]
      simp only [BASE, TMIN, SKEW]
      omega
    omega
  unfold adaptBias
  cases firstTime with
  | true => exact hstart _ (Nat.div_le_div_left (by decide) (by decide))
  | false => exact hstart _ (Nat.le_refl _)

/-! ## The output buffer -/

/-- `u_terminateUChars`, with the first units of the buffer. -/
def u_terminateUChars (dest : WString) (destCapacity length : Nat) (errorCode : UErrorCode) :
    PunycodeResult :=
  if U_SUCCESS errorCode then
    if length < destCapacity then
      { written := dest.take length ++ 0 :: dest.drop (length + 1)
        length := length
        errorCode :=
          if errorCode = U_STRING_NOT_TERMINATED_WARNING then U_ZERO_ERROR else errorCode }
    else if length = destCapacity then ⟨dest, length, U_STRING_NOT_TERMINATED_WARNING⟩
    else ⟨dest, length, U_BUFFER_OVERFLOW_ERROR⟩
  else ⟨dest, length, errorCode⟩

theorem u_terminateUChars_length (dest : WString) (destCapacity length : Nat)
    (errorCode : UErrorCode) :
    (u_terminateUChars dest destCapacity length errorCode).length = length := by
  unfold u_terminateUChars
  split
  · split
    · rfl
    · split <;> rfl
  · rfl

/-- The text itself is left as it is. -/
theorem u_terminateUChars_written {dest : WString} {length : Nat} (hd : length ≤ dest.length)
    (destCapacity : Nat) (errorCode : UErrorCode) :
    (u_terminateUChars dest destCapacity length errorCode).written.take length =
      dest.take length := by
  unfold u_terminateUChars
  split
  · split
    · simp [List.length_take, Nat.min_eq_left hd]
    · split <;> rfl
  · rfl

/-- The only failure of its own is that the text does not fit. -/
theorem u_terminateUChars_errorCode {destCapacity length : Nat} {errorCode : UErrorCode}
    (h : U_SUCCESS errorCode = true) (dest : WString) :
    let r := u_terminateUChars dest destCapacity length errorCode
    if length ≤ destCapacity then U_SUCCESS r.errorCode = true
    else r.errorCode = U_BUFFER_OVERFLOW_ERROR := by
  unfold u_terminateUChars
  rw [if_pos h]
  by_cases hlt : length < destCapacity
  · rw [if_pos hlt, if_pos (Nat.le_of_lt hlt)]
    dsimp only
    split
    · rfl
    · exact h
  · rw [if_neg hlt]
    by_cases heq : length = destCapacity
    · rw [if_pos heq, if_pos (Nat.le_of_eq heq)]
      rfl
    · rw [if_neg heq, if_neg (by omega)]

end SearchAndIdna.Punycode
