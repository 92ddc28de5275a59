import SearchAndIdna.IdnaInfo

/-!
# Checks of a label

The checks that `UTS46::processLabel` makes on the characters of a label: the
STD3 data, the BiDi rule, CONTEXTJ, and CONTEXTO, which only the copy in
`common/` has.

* `clear_checkLabelBiDi`: the BiDi rule does not look at the error bits;
* `clear_checkLabelContextO`: CONTEXTO sets its own two bits and nothing else.
-/

namespace SearchAndIdna.Uts46

/-! ## Character properties -/

/-- `UCharDirection`, in the order of its numbers. -/
inductive UCharDirection
  | leftToRight | rightToLeft | europeanNumber | europeanNumberSeparator
  | europeanNumberTerminator | arabicNumber | commonNumberSeparator | blockSeparator
  | segmentSeparator | whiteSpaceNeutral | otherNeutral | leftToRightEmbedding
  | leftToRightOverride | rightToLeftArabic | rightToLeftEmbedding | rightToLeftOverride
  | popDirectionalFormat | dirNonSpacingMark | boundaryNeutral | firstStrongIsolate
  | leftToRightIsolate | rightToLeftIsolate | popDirectionalIsolate
  deriving DecidableEq, Repr

/-- `UCharCategory`, in the order of its numbers. -/
inductive UCharCategory
  | unassigned | uppercaseLetter | lowercaseLetter | titlecaseLetter | modifierLetter
  | otherLetter | nonSpacingMark | enclosingMark | combiningSpacingMark | decimalDigitNumber
  | letterNumber | otherNumber | spaceSeparator | lineSeparator | paragraphSeparator
  | controlChar | formatChar | privateUseChar | surrogate | dashPunctuation
  | startPunctuation | endPunctuation | connectorPunctuation | otherPunctuation
  | mathSymbol | currencySymbol | modifierSymbol | otherSymbol | initialPunctuation
  | finalPunctuation
  deriving DecidableEq, Repr

inductive UJoiningType
  | nonJoining | joinCausing | dualJoining | leftJoining | rightJoining | transparent
  deriving DecidableEq, Repr

/-- `UScriptCode`, as far as it is told apart. -/
inductive UScriptCode
  | invalidCode | greek | han | hebrew | hiragana | katakana | other
  deriving DecidableEq, Repr

/-- The character properties that the checks look up. -/
structure CharacterProperties where
  u_charDirection : UChar32 → UCharDirection
  u_charType : UChar32 → UCharCategory
  ubidi_getJoiningType : UChar32 → UJoiningType
  getCombiningClass : UChar32 → UInt8
  uscript_getScript : UChar32 → UScriptCode

def U_MASK (x : Nat) : UInt32 := 1 <<< UInt32.ofNat x

def UCharDirection.mask (dir : UCharDirection) : UInt32 := U_MASK dir.ctorIdx

/-- `U_GET_GC_MASK`, of a category. -/
def UCharCategory.mask (category : UCharCategory) : UInt32 := U_MASK category.ctorIdx

def U_GC_M_MASK : UInt32 :=
  UCharCategory.nonSpacingMark.mask ||| UCharCategory.enclosingMark.mask |||
    UCharCategory.combiningSpacingMark.mask

/-! ## ASCII -/

/-- -1: disallowed, 0: valid, 1: mapped (lowercase). -/
def asciiTable : List Int := [
  -1, -1, -1, -1, -1, -1, -1, -1, -1, -1, -1, -1, -1, -1, -1, -1,
  -1, -1, -1, -1, -1, -1, -1, -1, -1, -1, -1, -1, -1, -1, -1, -1,
  -1, -1, -1, -1, -1, -1, -1, -1, -1, -1, -1, -1, -1,  0,  0, -1,
   0,  0,  0,  0,  0,  0,  0,  0,  0,  0, -1, -1, -1, -1, -1, -1,
  -1,  1,  1,  1,  1,  1,  1,  1,  1,  1,  1,  1,  1,  1,  1,  1,
   1,  1,  1,  1,  1,  1,  1,  1,  1,  1,  1, -1, -1, -1, -1, -1,
  -1,  0,  0,  0,  0,  0,  0,  0,  0,  0,  0,  0,  0,  0,  0,  0,
   0,  0,  0,  0,  0,  0,  0,  0,  0,  0,  0, -1, -1, -1, -1, -1]

/-- `asciiData[c]`, for `c<=0x7f`. -/
def asciiData (c : WChar) : Int := asciiTable.getD c.toNat 0

def isASCIIString (dest : UnicodeString) : Bool := dest.units.all fun c => c ≤ 0x7f

def isNonASCIIDisallowedSTD3Valid (c : WChar) : Bool := c == 0x2260 || c == 0x226e || c == 0x226f

/-- A mapped letter. -/
def isLowerAZ (c : WChar) : Bool := 0x61 ≤ c && c ≤ 0x7a

/-- The loop of `isASCIIOkBiDi`, from `i` on, with `n` units to go. -/
def isASCIIOkBiDiFrom (s : WString) : (n i labelStart : Nat) → Bool
  | 0, _, _ => true
  | n + 1, i, labelStart =>
    let c := s.getD i 0
    if c = 0x2e then
      let last := s.getD (i - 1) 0
      if labelStart < i && !isLowerAZ last && !(0x30 ≤ last && last ≤ 0x39) then false
      else isASCIIOkBiDiFrom s n (i + 1) (i + 1)
    else if i = labelStart then
      if !isLowerAZ c then false else isASCIIOkBiDiFrom s n (i + 1) labelStart
    else if c ≤ 0x20 && (0x1c ≤ c || (9 ≤ c && c ≤ 0xd)) then false
    else isASCIIOkBiDiFrom s n (i + 1) labelStart

def isASCIIOkBiDi (s : WString) (length : Nat) : Bool := isASCIIOkBiDiFrom s length 0 0

/-! ## The BiDi rule -/

def L_MASK : UInt32 := UCharDirection.leftToRight.mask

def R_AL_MASK : UInt32 :=
  UCharDirection.rightToLeft.mask ||| UCharDirection.rightToLeftArabic.mask

def L_R_AL_MASK : UInt32 := L_MASK ||| R_AL_MASK

def R_AL_AN_MASK : UInt32 := R_AL_MASK ||| UCharDirection.arabicNumber.mask

def EN_AN_MASK : UInt32 :=
  UCharDirection.europeanNumber.mask ||| UCharDirection.arabicNumber.mask

def R_AL_EN_AN_MASK : UInt32 := R_AL_MASK ||| EN_AN_MASK

def L_EN_MASK : UInt32 := L_MASK ||| UCharDirection.europeanNumber.mask

def ES_CS_ET_ON_BN_NSM_MASK : UInt32 :=
  UCharDirection.europeanNumberSeparator.mask ||| UCharDirection.commonNumberSeparator.mask |||
    UCharDirection.europeanNumberTerminator.mask ||| UCharDirection.otherNeutral.mask |||
    UCharDirection.boundaryNeutral.mask ||| UCharDirection.dirNonSpacingMark.mask

def L_EN_ES_CS_ET_ON_BN_NSM_MASK : UInt32 := L_EN_MASK ||| ES_CS_ET_ON_BN_NSM_MASK

def R_AL_AN_EN_ES_CS_ET_ON_BN_NSM_MASK : UInt32 :=
  R_AL_MASK ||| EN_AN_MASK ||| ES_CS_ET_ON_BN_NSM_MASK

section

variable (props : CharacterProperties)

/-- The direction of the last character that is no NSM, and the length up to it. -/
def lastNonNSM (label : UCharPointer) (i : Int) (firstMask : UInt32) (labelLength : Int) :
    UInt32 × Int :=
  if labelLength ≤ i then (firstMask, labelLength)
  else
    let prev := U16_PREV_UNSAFE label labelLength
    let dir := props.u_charDirection prev.1
    if dir ≠ .dirNonSpacingMark then (dir.mask, prev.2)
    else lastNonNSM label i firstMask prev.2
  termination_by (labelLength - i).toNat
  decreasing_by
    have := U16_PREV_UNSAFE_lt label labelLength
    omega

/-- The directions of the characters from `i` on. -/
def directionMask (label : UCharPointer) (labelLength i : Int) (mask : UInt32) : UInt32 :=
  if i < labelLength then
    let next := U16_NEXT_UNSAFE label i
    directionMask label labelLength next.2 (mask ||| (props.u_charDirection next.1).mask)
  else mask
  termination_by (labelLength - i).toNat
  decreasing_by
    have := U16_NEXT_UNSAFE_lt label i
    omega

/-- `UTS46::checkLabelBiDi`; the numbers are those of the IDNA2008 BiDi rule. -/
def checkLabelBiDi (label : UCharPointer) (labelLength : Int) (info : IDNAInfo) : IDNAInfo :=
  let first := U16_NEXT_UNSAFE label 0
  let firstMask := (props.u_charDirection first.1).mask
  -- 1.
  let info := info.notOkBiDiIf (firstMask &&& ~~~L_R_AL_MASK != 0)
  let last := lastNonNSM props label first.2 firstMask labelLength
  let lastMask := last.1
  -- 3. and 6.
  let info := info.notOkBiDiIf
    (if firstMask &&& L_MASK ≠ 0 then lastMask &&& ~~~L_EN_MASK != 0
      else lastMask &&& ~~~R_AL_EN_AN_MASK != 0)
  let mask := directionMask props label last.2 first.2 0
  let info :=
    if firstMask &&& L_MASK ≠ 0 then
      -- 5.
      info.notOkBiDiIf (mask &&& ~~~L_EN_ES_CS_ET_ON_BN_NSM_MASK != 0)
    else
      -- 2. and 4.
      (info.notOkBiDiIf (mask &&& ~~~R_AL_AN_EN_ES_CS_ET_ON_BN_NSM_MASK != 0)).notOkBiDiIf
        (mask &&& EN_AN_MASK == EN_AN_MASK)
  if (firstMask ||| mask ||| lastMask) &&& R_AL_AN_MASK ≠ 0 then { info with isBiDi := true }
  else info

theorem clear_checkLabelBiDi {m : UInt32} (label : UCharPointer) (labelLength : Int)
    (info : IDNAInfo) :
    (checkLabelBiDi props label labelLength info).clear m
      = checkLabelBiDi props label labelLength (info.clear m) := by
  unfold checkLabelBiDi
  simp only
  split <;> split <;> simp [← IDNAInfo.clear_notOkBiDiIf] <;> rfl

/-! ## CONTEXTJ -/

/-- `(Joining_Type:{L,D})(Joining_Type:T)*` before `j`, where `c` was read last. -/
def precontext (label : UCharPointer) (j : Int) (c : UChar32) : Bool :=
  match props.ubidi_getJoiningType c with
  | .transparent =>
    if j = 0 then false
    else if label.offset + j ≤ 0 then
      -- Only an unpaired surrogate gets here: the source reads before the buffer.
      false
    else
      let prev := U16_PREV_UNSAFE label j
      precontext label prev.2 prev.1
  | .leftJoining | .dualJoining => true
  | _ => false
  termination_by (label.offset + j).toNat
  decreasing_by
    have := U16_PREV_UNSAFE_lt label j
    omega

/-- `(Joining_Type:T)*(Joining_Type:{R,D})` from `j` on. -/
def postcontext (label : UCharPointer) (labelLength j : Int) : Bool :=
  if j = labelLength then false
  else if label.buffer.length ≤ label.offset + j then
    -- Only an unpaired surrogate gets here: the source reads past the buffer.
    false
  else
    let next := U16_NEXT_UNSAFE label j
    match props.ubidi_getJoiningType next.1 with
    | .transparent => postcontext label labelLength next.2
    | .rightJoining | .dualJoining => true
    | _ => false
  termination_by (label.buffer.length - (label.offset + j)).toNat
  decreasing_by
    have := U16_NEXT_UNSAFE_lt label j
    omega

/-- The rules for `label[i]`. -/
def isContextJOkAt (label : UCharPointer) (labelLength : Int) (i : Nat) : Bool :=
  if label.at i = 0x200c then
    if i = 0 then false
    else
      let prev := U16_PREV_UNSAFE label i
      if props.getCombiningClass prev.1 = 9 then true
      else precontext props label prev.2 prev.1 && postcontext props label labelLength (i + 1)
  else if label.at i = 0x200d then
    if i = 0 then false
    else props.getCombiningClass (U16_PREV_UNSAFE label i).1 == 9
  else true

/-- `UTS46::isLabelOkContextJ`. -/
def isLabelOkContextJ (label : UCharPointer) (labelLength : Nat) : Bool :=
  (List.range labelLength).all (isContextJOkAt props label labelLength)

/-! ## CONTEXTO -/

/-- The loop over the whole label for KATAKANA MIDDLE DOT: no character of the label
from `j` on is Hiragana, Katakana or Han. -/
def noKana (label : UCharPointer) (labelLength j : Int) : Bool :=
  if labelLength - 1 < j then true
  else
    let next := U16_NEXT label j labelLength
    match props.uscript_getScript next.1 with
    | .hiragana | .katakana | .han => false
    | _ => noKana label labelLength next.2
  termination_by (labelLength - j).toNat
  decreasing_by
    have := U16_NEXT_lt label j labelLength
    omega

/-- The errors of `label[i]` alone, with the `arabicDigits` of the units before it:
-1 after 066x, 1 after 06Fx. -/
def contextOAt (label : UCharPointer) (labelLength : Int) (i : Int) (arabicDigits : Int)
    (info : IDNAInfo) : Int × IDNAInfo :=
  let labelEnd := labelLength - 1
  let c := label.at i
  if c < 0xb7 then (arabicDigits, info)
  else if c ≤ 0x6f9 then
    if c = 0xb7 then
      -- MIDDLE DOT
      (arabicDigits, info.addLabelErrorsIf
        (!(decide (0 < i) && label.at (i - 1) == 0x6c &&
          decide (i < labelEnd) && label.at (i + 1) == 0x6c))
        UIDNA_ERROR_CONTEXTO_PUNCTUATION)
    else if c = 0x375 then
      -- GREEK LOWER NUMERAL SIGN
      let script := if i < labelEnd then
          props.uscript_getScript (U16_NEXT label (i + 1) labelLength).1
        else .invalidCode
      (arabicDigits, info.addLabelErrorsIf (script != .greek) UIDNA_ERROR_CONTEXTO_PUNCTUATION)
    else if c = 0x5f3 ∨ c = 0x5f4 then
      -- HEBREW PUNCTUATION GERESH, GERSHAYIM
      let script := if 0 < i then
          props.uscript_getScript (U16_PREV label 0 i).1
        else .invalidCode
      (arabicDigits, info.addLabelErrorsIf (script != .hebrew) UIDNA_ERROR_CONTEXTO_PUNCTUATION)
    else if 0x660 ≤ c then
      if c ≤ 0x669 then
        -- ARABIC-INDIC DIGITS
        (-1, info.addLabelErrorsIf (decide (0 < arabicDigits)) UIDNA_ERROR_CONTEXTO_DIGITS)
      else if 0x6f0 ≤ c then
        -- EXTENDED ARABIC-INDIC DIGITS
        (1, info.addLabelErrorsIf (decide (arabicDigits < 0)) UIDNA_ERROR_CONTEXTO_DIGITS)
      else (arabicDigits, info)
    else (arabicDigits, info)
  else if c = 0x30fb then
    -- KATAKANA MIDDLE DOT
    (arabicDigits,
      info.addLabelErrorsIf (noKana props label labelLength 0) UIDNA_ERROR_CONTEXTO_PUNCTUATION)
  else (arabicDigits, info)

/-- The loop of `checkLabelContextO`, with `n` units to go. -/
def checkLabelContextOFrom (label : UCharPointer) (labelLength : Int) :
    (n : Nat) → (i : Int) → (arabicDigits : Int) → IDNAInfo → IDNAInfo
  | 0, _, _, info => info
  | n + 1, i, arabicDigits, info =>
    let r := contextOAt props label labelLength i arabicDigits info
    checkLabelContextOFrom label labelLength n (i + 1) r.1 r.2

/-- `UTS46::checkLabelContextO`. -/
def checkLabelContextO (label : UCharPointer) (labelLength : Nat) (info : IDNAInfo) : IDNAInfo :=
  checkLabelContextOFrom props label labelLength labelLength 0 0 info

theorem clear_addContextOError {e : UInt32} (he : Bits.clear contextOErrors e = 0) (bad : Bool)
    (info : IDNAInfo) :
    (info.addLabelErrorsIf bad e).clear contextOErrors = info.clear contextOErrors := by
  cases bad with
  | false => rfl
  | true => exact IDNAInfo.clear_addLabelErrors_of_subset he info

theorem clear_contextOAt (label : UCharPointer) (labelLength i arabicDigits : Int)
    (info : IDNAInfo) :
    (contextOAt props label labelLength i arabicDigits info).2.clear contextOErrors
      = info.clear contextOErrors := by
  have hp : Bits.clear contextOErrors UIDNA_ERROR_CONTEXTO_PUNCTUATION = 0 := by decide
  have hd : Bits.clear contextOErrors UIDNA_ERROR_CONTEXTO_DIGITS = 0 := by decide
  unfold contextOAt
  simp only
  repeat' split
  all_goals first
    | rfl
    | exact clear_addContextOError hp _ _
    | exact clear_addContextOError hd _ _

theorem clear_checkLabelContextOFrom (label : UCharPointer) (labelLength : Int) (n : Nat)
    (i arabicDigits : Int) (info : IDNAInfo) :
    (checkLabelContextOFrom props label labelLength n i arabicDigits info).clear contextOErrors
      = info.clear contextOErrors := by
  induction n generalizing i arabicDigits info with
  | zero => rfl
  | succ n ih =>
    unfold checkLabelContextOFrom
    rw [ih, clear_contextOAt]

theorem clear_checkLabelContextO (label : UCharPointer) (labelLength : Nat) (info : IDNAInfo) :
    (checkLabelContextO props label labelLength info).clear contextOErrors
      = info.clear contextOErrors :=
  clear_checkLabelContextOFrom props label labelLength labelLength 0 0 info

end

end SearchAndIdna.Uts46
