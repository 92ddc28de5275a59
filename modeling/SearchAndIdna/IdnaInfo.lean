import SearchAndIdna.WideString
import SearchAndIdna.Lib.Bits
import SearchAndIdna.Lib.Utf16

/-!
# What UTS #46 processing reads and writes

The option and error bits of `uidna.h`, `IDNAInfo`, `UErrorCode`, and of
`UnicodeString` what `uts46.cpp` uses.  Memory for a string is always found, and
lengths do not overflow.

* `IDNAInfo.clear`: the info without the error bits of a mask, and what setting
  a bit, flushing a label's errors and testing for severe errors make of it.
-/

namespace SearchAndIdna.Uts46

open Bits

/-! ## `UErrorCode` -/

/-- Warnings are negative, errors positive. -/
abbrev UErrorCode := Int

def U_ZERO_ERROR : UErrorCode := 0

def U_ILLEGAL_ARGUMENT_ERROR : UErrorCode := 1

def U_MEMORY_ALLOCATION_ERROR : UErrorCode := 7

def U_BUFFER_OVERFLOW_ERROR : UErrorCode := 15

def U_FAILURE (code : UErrorCode) : Bool := decide (U_ZERO_ERROR < code)

def U_SUCCESS (code : UErrorCode) : Bool := decide (code ≤ U_ZERO_ERROR)

/-! ## Options and errors -/

def UIDNA_USE_STD3_RULES : UInt32 := 2

def UIDNA_CHECK_BIDI : UInt32 := 4

def UIDNA_CHECK_CONTEXTJ : UInt32 := 8

def UIDNA_NONTRANSITIONAL_TO_ASCII : UInt32 := 0x10

def UIDNA_NONTRANSITIONAL_TO_UNICODE : UInt32 := 0x20

def UIDNA_CHECK_CONTEXTO : UInt32 := 0x40

def UIDNA_ERROR_EMPTY_LABEL : UInt32 := 1

def UIDNA_ERROR_LABEL_TOO_LONG : UInt32 := 2

def UIDNA_ERROR_DOMAIN_NAME_TOO_LONG : UInt32 := 4

def UIDNA_ERROR_LEADING_HYPHEN : UInt32 := 8

def UIDNA_ERROR_TRAILING_HYPHEN : UInt32 := 0x10

def UIDNA_ERROR_HYPHEN_3_4 : UInt32 := 0x20

def UIDNA_ERROR_LEADING_COMBINING_MARK : UInt32 := 0x40

def UIDNA_ERROR_DISALLOWED : UInt32 := 0x80

def UIDNA_ERROR_PUNYCODE : UInt32 := 0x100

def UIDNA_ERROR_LABEL_HAS_DOT : UInt32 := 0x200

def UIDNA_ERROR_INVALID_ACE_LABEL : UInt32 := 0x400

def UIDNA_ERROR_BIDI : UInt32 := 0x800

def UIDNA_ERROR_CONTEXTJ : UInt32 := 0x1000

def UIDNA_ERROR_CONTEXTO_PUNCTUATION : UInt32 := 0x2000

def UIDNA_ERROR_CONTEXTO_DIGITS : UInt32 := 0x4000

/-- Errors which usually result in a U+FFFD in the result string. -/
def severeErrors : UInt32 :=
  UIDNA_ERROR_LEADING_COMBINING_MARK ||| UIDNA_ERROR_DISALLOWED ||| UIDNA_ERROR_PUNYCODE |||
    UIDNA_ERROR_LABEL_HAS_DOT ||| UIDNA_ERROR_INVALID_ACE_LABEL

/-- The two bits that `checkLabelContextO` sets. -/
def contextOErrors : UInt32 := UIDNA_ERROR_CONTEXTO_PUNCTUATION ||| UIDNA_ERROR_CONTEXTO_DIGITS

/-! ## `IDNAInfo` -/

structure IDNAInfo where
  errors : UInt32
  labelErrors : UInt32
  isTransDiff : Bool
  isBiDi : Bool
  isOkBiDi : Bool
  deriving DecidableEq, Repr

namespace IDNAInfo

/-- What `reset` and the constructor leave. -/
def reset : IDNAInfo := ⟨0, 0, false, false, true⟩

/-- `errors|=e`. -/
def addErrors (info : IDNAInfo) (e : UInt32) : IDNAInfo := { info with errors := info.errors ||| e }

/-- `labelErrors|=e`. -/
def addLabelErrors (info : IDNAInfo) (e : UInt32) : IDNAInfo :=
  { info with labelErrors := info.labelErrors ||| e }

/-- `if(bad) labelErrors|=e`. -/
def addLabelErrorsIf (info : IDNAInfo) (bad : Bool) (e : UInt32) : IDNAInfo :=
  if bad then info.addLabelErrors e else info

/-- `if(bad) isOkBiDi=FALSE`. -/
def notOkBiDiIf (info : IDNAInfo) (bad : Bool) : IDNAInfo :=
  if bad then { info with isOkBiDi := false } else info

/-- `errors|=labelErrors; labelErrors=0`. -/
def endLabel (info : IDNAInfo) : IDNAInfo :=
  { info.addErrors info.labelErrors with labelErrors := 0 }

/-- The info without the error bits of `m`. -/
def clear (m : UInt32) (info : IDNAInfo) : IDNAInfo :=
  { info with errors := Bits.clear m info.errors, labelErrors := Bits.clear m info.labelErrors }

variable {m : UInt32}

@[simp]
theorem clear_zero (info : IDNAInfo) : info.clear 0 = info := by
  simp [clear]

@[simp]
theorem clear_reset : reset.clear m = reset := by
  simp [clear, reset]

theorem clear_addErrors {e : UInt32} (h : e &&& m = 0) (info : IDNAInfo) :
    (info.addErrors e).clear m = (info.clear m).addErrors e := by
  simp [clear, addErrors, clear_or, clear_of_disjoint h]

theorem clear_addLabelErrors {e : UInt32} (h : e &&& m = 0) (info : IDNAInfo) :
    (info.addLabelErrors e).clear m = (info.clear m).addLabelErrors e := by
  simp [clear, addLabelErrors, clear_or, clear_of_disjoint h]

theorem clear_addLabelErrorsIf {e : UInt32} (h : e &&& m = 0) (bad : Bool) (info : IDNAInfo) :
    (info.addLabelErrorsIf bad e).clear m = (info.clear m).addLabelErrorsIf bad e := by
  cases bad with
  | false => rfl
  | true => exact clear_addLabelErrors h info

/-- Adding errors of the mask leaves no trace. -/
theorem clear_addLabelErrors_of_subset {e : UInt32} (h : Bits.clear m e = 0) (info : IDNAInfo) :
    (info.addLabelErrors e).clear m = info.clear m := by
  simp [clear, addLabelErrors, clear_or_of_subset h]

@[simp]
theorem clear_notOkBiDiIf (bad : Bool) (info : IDNAInfo) :
    (info.notOkBiDiIf bad).clear m = (info.clear m).notOkBiDiIf bad := by
  cases bad <;> rfl

@[simp]
theorem clear_endLabel (info : IDNAInfo) : (info.endLabel).clear m = (info.clear m).endLabel := by
  simp [clear, endLabel, addErrors, clear_or]

/-- The errors that are added at the end of a name. -/
@[simp]
theorem clear_addErrors_labelErrors (info : IDNAInfo) :
    (info.addErrors info.labelErrors).clear m
      = (info.clear m).addErrors (info.clear m).labelErrors := by
  simp [clear, addErrors, clear_or]

theorem clear_labelErrors_and {k : UInt32} (h : k &&& m = 0) (info : IDNAInfo) :
    (info.clear m).labelErrors &&& k = info.labelErrors &&& k :=
  clear_and_of_disjoint h _

theorem clear_errors_and {k : UInt32} (h : k &&& m = 0) (info : IDNAInfo) :
    (info.clear m).errors &&& k = info.errors &&& k :=
  clear_and_of_disjoint h _

end IDNAInfo

/-! ## `UnicodeString` and the UTF-16 macros -/

/-- A bogus string has no units. -/
inductive UnicodeString
  | bogus
  | text (units : WString)
  deriving DecidableEq, Repr

namespace UnicodeString

def units : UnicodeString → WString
  | bogus => []
  | text s => s

def length (s : UnicodeString) : Nat := s.units.length

def isBogus : UnicodeString → Bool
  | bogus => true
  | text _ => false

/-- Writing through `getBuffer()`. -/
def setBuffer : UnicodeString → WString → UnicodeString
  | bogus, _ => bogus
  | text _, s => text s

/-- Positions beyond the end are pinned to it. -/
def replace (start length : Nat) (src : WString) : UnicodeString → UnicodeString
  | bogus => bogus
  | text s => text (s.take start ++ src ++ s.drop (start + length))

def insert (start : Nat) (srcChar : WChar) (s : UnicodeString) : UnicodeString :=
  s.replace start 0 [srcChar]

end UnicodeString

abbrev UChar32 := Int

/-- A pointer into a buffer; what lies outside the buffer reads as 0. -/
structure UCharPointer where
  buffer : WString
  offset : Nat

/-- `label[i]`. -/
def UCharPointer.at (label : UCharPointer) (i : Int) : WChar :=
  if label.offset + i < 0 then 0 else label.buffer.getD (label.offset + i).toNat 0

/-- The units `label[0]` to `label[length-1]`. -/
def UCharPointer.take (label : UCharPointer) (length : Nat) : WString :=
  (label.buffer.drop label.offset).take length

def U16_GET_SUPPLEMENTARY (lead trail : WChar) : UChar32 :=
  (lead.toNat : Int) * 0x400 + trail.toNat - 0x35fdc00

/-- `U16_NEXT_UNSAFE(s, i, c)`: `c`, and the new `i`. -/
def U16_NEXT_UNSAFE (s : UCharPointer) (i : Int) : UChar32 × Int :=
  if Utf16.isHigh (s.at i) then (U16_GET_SUPPLEMENTARY (s.at i) (s.at (i + 1)), i + 2)
  else ((s.at i).toNat, i + 1)

/-- `U16_PREV_UNSAFE(s, i, c)`. -/
def U16_PREV_UNSAFE (s : UCharPointer) (i : Int) : UChar32 × Int :=
  if Utf16.isLow (s.at (i - 1)) then
    (U16_GET_SUPPLEMENTARY (s.at (i - 2)) (s.at (i - 1)), i - 2)
  else ((s.at (i - 1)).toNat, i - 1)

/-- `U16_NEXT(s, i, length, c)`. -/
def U16_NEXT (s : UCharPointer) (i length : Int) : UChar32 × Int :=
  if Utf16.isHigh (s.at i) && i + 1 != length && Utf16.isLow (s.at (i + 1)) then
    (U16_GET_SUPPLEMENTARY (s.at i) (s.at (i + 1)), i + 2)
  else ((s.at i).toNat, i + 1)

/-- `U16_PREV(s, start, i, c)`. -/
def U16_PREV (s : UCharPointer) (start i : Int) : UChar32 × Int :=
  if Utf16.isLow (s.at (i - 1)) && decide (start < i - 1) && Utf16.isHigh (s.at (i - 2)) then
    (U16_GET_SUPPLEMENTARY (s.at (i - 2)) (s.at (i - 1)), i - 2)
  else ((s.at (i - 1)).toNat, i - 1)

theorem U16_NEXT_UNSAFE_lt (s : UCharPointer) (i : Int) : i < (U16_NEXT_UNSAFE s i).2 := by
  unfold U16_NEXT_UNSAFE
  split
  · change i < i + 2; omega
  · change i < i + 1; omega

theorem U16_PREV_UNSAFE_lt (s : UCharPointer) (i : Int) : (U16_PREV_UNSAFE s i).2 < i := by
  unfold U16_PREV_UNSAFE
  split
  · change i - 2 < i; omega
  · change i - 1 < i; omega

theorem U16_NEXT_lt (s : UCharPointer) (i length : Int) : i < (U16_NEXT s i length).2 := by
  unfold U16_NEXT
  split
  · change i < i + 2; omega
  · change i < i + 1; omega

end SearchAndIdna.Uts46
