import SearchAndIdna.LabelChecks

/-!
# One label

`UTS46::processLabel` of `common/uts46.cpp` and `icu_demo/uts46.cpp`, and what it
calls.  The two copies are one text, but for the call of `checkLabelContextO`,
which `icu_demo` has commented out; that call is a parameter here.  The
normalizer, the character properties and the Punycode codec are parameters too,
the same for both copies.

* `clear_markBadACELabel`, `clear_checkUnits`, `clear_encodeLabel`: no step looks
  at the error bits of CONTEXTO;
* `clear_processLabel`: so two labels processed with different checks of CONTEXTO
  come out the same up to the bits in which the checks differ.
-/

namespace SearchAndIdna.Uts46

open UnicodeString

/-! ## The surroundings -/

/-- What `u_strFromPunycode` and `u_strToPunycode` return, and without an error the text that
they leave in the buffer; with one, the callers do not look at the buffer. -/
structure PunycodeResult where
  written : WString
  length : Nat
  errorCode : UErrorCode

structure Environment extends CharacterProperties where
  normalize : WString → UErrorCode → UnicodeString × UErrorCode
  normalizeSecondAndAppend : UnicodeString → WString → UErrorCode → UnicodeString × UErrorCode
  isNormalized : WString → UErrorCode → Bool × UErrorCode
  /-- The source, the capacity of the buffer and the error code before the call. -/
  u_strFromPunycode : WString → Nat → UErrorCode → PunycodeResult
  u_strToPunycode : WString → Nat → UErrorCode → PunycodeResult
  /-- The capacity of a new string, and after `getBuffer(minCapacity)`. -/
  stackCapacity : Nat
  capacity : Nat → Nat

/-- What the functions of `UTS46` change. -/
structure Output where
  dest : UnicodeString
  info : IDNAInfo
  errorCode : UErrorCode
  deriving DecidableEq, Repr

namespace Output

def addLabelErrors (o : Output) (e : UInt32) : Output :=
  { o with info := o.info.addLabelErrors e }

def addLabelErrorsIf (o : Output) (bad : Bool) (e : UInt32) : Output :=
  { o with info := o.info.addLabelErrorsIf bad e }

def endLabel (o : Output) : Output := { o with info := o.info.endLabel }

/-- `isTransDiff=TRUE`. -/
def transDiff (o : Output) : Output := { o with info := { o.info with isTransDiff := true } }

/-- `labelString` is `dest`, or a string of its own. -/
def labelBuffer (o : Output) : Option WString → WString
  | none => o.dest.units
  | some s => s

/-- The output without the error bits of `m`. -/
def clear (m : UInt32) (o : Output) : Output := { o with info := o.info.clear m }

end Output

section

variable (env : Environment) (options : UInt32)

def disallowNonLDHDot : Bool := options &&& UIDNA_USE_STD3_RULES != 0

/-! ## Pieces of `processLabel` -/

def xnDashDash : WString := [0x78, 0x6e, 0x2d, 0x2d]

/-- The un-Punycoded label, and the error code. -/
def fromPunycode (label : WString) : WString × UErrorCode :=
  let r := env.u_strFromPunycode label env.stackCapacity U_ZERO_ERROR
  let r := if r.errorCode = U_BUFFER_OVERFLOW_ERROR then
      env.u_strFromPunycode label (env.capacity r.length) U_ZERO_ERROR
    else r
  (r.written.take r.length, r.errorCode)

/-- The label with "xn--" in Punycode, its length, and the error code. -/
def toPunycode (label : WString) (errorCode : UErrorCode) : WString × Nat × UErrorCode :=
  let r := env.u_strToPunycode label (env.capacity 63 - 4) errorCode
  let r := if r.errorCode = U_BUFFER_OVERFLOW_ERROR then
      env.u_strToPunycode label (env.capacity (4 + r.length) - 4) U_ZERO_ERROR
    else r
  ((xnDashDash ++ r.written).take (r.length + 4), r.length + 4, r.errorCode)

/-- `replaceLabel`; without a string of its own the label is part of `dest`. -/
def replaceLabel (destLabelStart destLabelLength : Nat) (label : Option WString)
    (labelLength : Nat) (o : Output) : Nat × Output :=
  if U_FAILURE o.errorCode then (0, o)
  else
    match label with
    | none => (labelLength, o)
    | some label =>
      let o := { o with dest := o.dest.replace destLabelStart destLabelLength label }
      if o.dest.isBogus then (0, { o with errorCode := U_MEMORY_ALLOCATION_ERROR })
      else (labelLength, o)

/-- The variables of the loop of `markBadACELabel`. -/
structure BadACE where
  buffer : WString
  isASCII : Bool
  onlyLDH : Bool
  info : IDNAInfo

/-- The body of the loop, for the unit `c` at `s`. -/
def markUnit (c : WChar) (s : Nat) (st : BadACE) : BadACE :=
  if c ≤ 0x7f then
    if c = 0x2e then
      { buffer := st.buffer.set s 0xfffd, isASCII := false, onlyLDH := false
        info := st.info.addLabelErrors UIDNA_ERROR_LABEL_HAS_DOT }
    else if asciiData c < 0 then
      if disallowNonLDHDot options then
        { st with buffer := st.buffer.set s 0xfffd, isASCII := false, onlyLDH := false }
      else { st with onlyLDH := false }
    else st
  else { st with isASCII := false, onlyLDH := false }

/-- The loop of `markBadACELabel`, over `n` units from `s` on. -/
def markUnits : (n s : Nat) → BadACE → BadACE
  | 0, _, st => st
  | n + 1, s, st => markUnits n (s + 1) (markUnit options (st.buffer.getD s 0) s st)

/-- `UTS46::markBadACELabel`. -/
def markBadACELabel (labelStart labelLength : Nat) (toASCII : Bool) (o : Output) :
    Nat × Output :=
  if U_FAILURE o.errorCode then (0, o)
  else
    -- A do-while loop: it looks at one unit even behind a bare "xn--".
    let st := markUnits options (max 1 (labelLength - 4)) (labelStart + 4)
      ⟨o.dest.units, true, true, o.info⟩
    let o := { o with dest := o.dest.setBuffer st.buffer, info := st.info }
    if st.onlyLDH then
      let o := { o with dest := o.dest.insert (labelStart + labelLength) 0xfffd }
      if o.dest.isBogus then (0, { o with errorCode := U_MEMORY_ALLOCATION_ERROR })
      else (labelLength + 1, o)
    else
      (labelLength, o.addLabelErrorsIf (toASCII && st.isASCII && decide (63 < labelLength))
        UIDNA_ERROR_LABEL_TOO_LONG)

/-- The variables of `processLabel` after the label was un-Punycoded. -/
structure Label where
  labelString : Option WString
  labelStart : Nat
  labelLength : Nat
  destLabelStart : Nat
  destLabelLength : Nat
  toASCII : Bool

namespace Label

variable (l : Label)

def wasPunycode : Bool := l.labelString.isSome

/-- `label`. -/
def pointer (o : Output) : UCharPointer := ⟨o.labelBuffer l.labelString, l.labelStart⟩

end Label

/-- The errors for "??--", "-..." and "...-". -/
def hyphenErrors (l : Label) (o : Output) : Output :=
  let label := l.pointer o
  ((o.addLabelErrorsIf
      (decide (4 ≤ l.labelLength) && label.at 2 == 0x2d && label.at 3 == 0x2d)
      UIDNA_ERROR_HYPHEN_3_4).addLabelErrorsIf
    (label.at 0 == 0x2d) UIDNA_ERROR_LEADING_HYPHEN).addLabelErrorsIf
  (label.at (l.labelLength - 1) == 0x2d) UIDNA_ERROR_TRAILING_HYPHEN

/-- The variables of the loop over the label. -/
structure Validity where
  buffer : WString
  oredChars : WChar
  info : IDNAInfo

/-- The body of the loop, for the unit `c` at `s`. -/
def checkUnit (c : WChar) (s : Nat) (st : Validity) : Validity :=
  if c ≤ 0x7f then
    if c = 0x2e then
      { st with buffer := st.buffer.set s 0xfffd
                info := st.info.addLabelErrors UIDNA_ERROR_LABEL_HAS_DOT }
    else if disallowNonLDHDot options && decide (asciiData c < 0) then
      { st with buffer := st.buffer.set s 0xfffd
                info := st.info.addLabelErrors UIDNA_ERROR_DISALLOWED }
    else st
  else if disallowNonLDHDot options && isNonASCIIDisallowedSTD3Valid c then
    { buffer := st.buffer.set s 0xfffd, oredChars := st.oredChars ||| c
      info := st.info.addLabelErrors UIDNA_ERROR_DISALLOWED }
  else
    { st with oredChars := st.oredChars ||| c
              info := st.info.addLabelErrorsIf (c == 0xfffd) UIDNA_ERROR_DISALLOWED }

/-- The loop over the label, over `n` units from `s` on. -/
def checkUnits : (n s : Nat) → Validity → Validity
  | 0, _, st => st
  | n + 1, s, st => checkUnits n (s + 1) (checkUnit options (st.buffer.getD s 0) s st)

/-- Writing to the label's buffer. -/
def writeLabel (buffer : WString) (l : Label) (o : Output) : Label × Output :=
  match l.labelString with
  | none => (l, { o with dest := o.dest.setBuffer buffer })
  | some _ => ({ l with labelString := some buffer }, o)

/-- A leading combining mark becomes a U+FFFD. -/
def leadingCombiningMark (l : Label) (o : Output) : Label × Output :=
  let first := U16_NEXT_UNSAFE (l.pointer o) 0
  let cpLength := first.2.toNat
  if (env.u_charType first.1).mask &&& U_GC_M_MASK ≠ 0 then
    let o := o.addLabelErrors UIDNA_ERROR_LEADING_COMBINING_MARK
    let labelLength := l.labelLength + 1 - cpLength
    match l.labelString with
    | none =>
      ({ l with labelLength := labelLength, destLabelLength := labelLength },
        { o with dest := o.dest.replace l.labelStart cpLength [0xfffd] })
    | some s =>
      ({ l with labelLength := labelLength
                labelString := some (s.take l.labelStart ++ [0xfffd] ++
                  s.drop (l.labelStart + cpLength)) }, o)
  else (l, o)

section

variable (contextO : UCharPointer → Nat → IDNAInfo → IDNAInfo)

/-- The block of `processLabel` that guards the call of `checkLabelContextO`. -/
def contextOBlock (label : UCharPointer) (labelLength : Nat) (oredChars : WChar)
    (info : IDNAInfo) : IDNAInfo :=
  if options &&& UIDNA_CHECK_CONTEXTO ≠ 0 ∧ 0xb7 ≤ oredChars then
    contextO label labelLength info
  else info

/-- The block that guards the call of `checkLabelBiDi`. -/
def bidiBlock (label : UCharPointer) (labelLength : Nat) (info : IDNAInfo) : IDNAInfo :=
  if options &&& UIDNA_CHECK_BIDI ≠ 0 ∧ (!info.isBiDi || info.isOkBiDi) then
    checkLabelBiDi env.toCharacterProperties label labelLength info
  else info

/-- The contextual checks of a label without severe errors. -/
def contextualChecks (l : Label) (oredChars : WChar) (o : Output) : Output :=
  let label := l.pointer o
  let info := (bidiBlock env options label l.labelLength o.info).addLabelErrorsIf
    (options &&& UIDNA_CHECK_CONTEXTJ != 0 && oredChars &&& 0x200c == 0x200c &&
      !isLabelOkContextJ env.toCharacterProperties label l.labelLength)
    UIDNA_ERROR_CONTEXTJ
  { o with info := contextOBlock options contextO label l.labelLength oredChars info }

/-- `toASCII` of a label without severe errors. -/
def encodeLabel (l : Label) (oredChars : WChar) (o : Output) : Nat × Output :=
  if l.wasPunycode then
    (l.destLabelLength,
      o.addLabelErrorsIf (decide (63 < l.destLabelLength)) UIDNA_ERROR_LABEL_TOO_LONG)
  else if 0x80 ≤ oredChars then
    let punycode := toPunycode env ((l.pointer o).take l.labelLength) o.errorCode
    let o := { o with errorCode := punycode.2.2 }
    if U_FAILURE o.errorCode then (l.destLabelLength, o)
    else
      replaceLabel l.destLabelStart l.destLabelLength (some punycode.1) punycode.2.1
        (o.addLabelErrorsIf (decide (63 < punycode.2.1)) UIDNA_ERROR_LABEL_TOO_LONG)
  else
    replaceLabel l.destLabelStart l.destLabelLength l.labelString l.labelLength
      (o.addLabelErrorsIf (decide (63 < l.labelLength)) UIDNA_ERROR_LABEL_TOO_LONG)

/-- What becomes of a label after the validity checks. -/
def finishLabel (l : Label) (oredChars : WChar) (o : Output) : Nat × Output :=
  if o.info.labelErrors &&& severeErrors = 0 then
    let o := contextualChecks env options contextO l oredChars o
    if l.toASCII then encodeLabel env l oredChars o
    else replaceLabel l.destLabelStart l.destLabelLength l.labelString l.labelLength o
  else if l.wasPunycode then
    markBadACELabel options l.destLabelStart l.destLabelLength l.toASCII
      (o.addLabelErrors UIDNA_ERROR_INVALID_ACE_LABEL)
  else replaceLabel l.destLabelStart l.destLabelLength l.labelString l.labelLength o

/-- `processLabel` from the validity check on. -/
def checkLabel (l : Label) (o : Output) : Nat × Output :=
  if l.labelLength = 0 then
    replaceLabel l.destLabelStart l.destLabelLength l.labelString l.labelLength
      (o.addLabelErrors UIDNA_ERROR_EMPTY_LABEL)
  else
    let o := hyphenErrors l o
    let st := checkUnits options l.labelLength l.labelStart
      ⟨o.labelBuffer l.labelString, 0, o.info⟩
    let r := writeLabel st.buffer l { o with info := st.info }
    let r := leadingCombiningMark env r.1 r.2
    finishLabel env options contextO r.1 st.oredChars r.2

/-- `UTS46::processLabel`: the new length of the label. -/
def processLabel (labelStart labelLength : Nat) (toASCII : Bool) (o : Output) : Nat × Output :=
  if U_FAILURE o.errorCode then (0, o)
  else
    let label := UCharPointer.take ⟨o.dest.units, labelStart⟩ labelLength
    if xnDashDash <+: label then
      let decoded := fromPunycode env (label.drop 4)
      if U_FAILURE decoded.2 then
        markBadACELabel options labelStart labelLength toASCII
          (o.addLabelErrors UIDNA_ERROR_PUNYCODE)
      else
        let isValid := env.isNormalized decoded.1 o.errorCode
        let o := { o with errorCode := isValid.2 }
        if U_FAILURE o.errorCode then (labelLength, o)
        else if isValid.1 then
          checkLabel env options contextO
            ⟨some decoded.1, 0, decoded.1.length, labelStart, labelLength, toASCII⟩ o
        else
          markBadACELabel options labelStart labelLength toASCII
            (o.addLabelErrors UIDNA_ERROR_INVALID_ACE_LABEL)
    else
      checkLabel env options contextO
        ⟨none, labelStart, labelLength, labelStart, labelLength, toASCII⟩ o

end

/-- The label after the loop over it and the mark in front, and its units beyond ASCII. -/
def markedLabel (l : Label) (o : Output) : WChar × Label × Output :=
  let o := hyphenErrors l o
  let st := checkUnits options l.labelLength l.labelStart
    ⟨o.labelBuffer l.labelString, 0, o.info⟩
  let r := writeLabel st.buffer l { o with info := st.info }
  (st.oredChars, leadingCombiningMark env r.1 r.2)

theorem checkLabel_eq (contextO : UCharPointer → Nat → IDNAInfo → IDNAInfo) (l : Label)
    (o : Output) :
    checkLabel env options contextO l o =
      if l.labelLength = 0 then
        replaceLabel l.destLabelStart l.destLabelLength l.labelString l.labelLength
          (o.addLabelErrors UIDNA_ERROR_EMPTY_LABEL)
      else
        finishLabel env options contextO (markedLabel env options l o).2.1
          (markedLabel env options l o).1 (markedLabel env options l o).2.2 := rfl

end

/-! ## Without the bits of a mask -/

/-- The result without the error bits of `m`. -/
def clearResult {α : Type} (m : UInt32) (r : α × Output) : α × Output := (r.1, r.2.clear m)

/-- A branch on what both sides test alike. -/
theorem map_ite {α β : Type} (f : α → β) {p : Prop} {d d' : Decidable p} {x y : α} {x' y' : β}
    (hp : p → f x = x') (hn : ¬p → f y = y') : f (@ite _ p d x y) = @ite _ p d' x' y' := by
  by_cases h : p
  · simp only [h, ↓reduceIte, hp h]
  · simp only [h, ↓reduceIte, hn h]

/-- `m` has no other bits than those of CONTEXTO. -/
def WithinContextO (m : UInt32) : Prop := m &&& contextOErrors = m

theorem WithinContextO.disjoint {m e : UInt32} (hm : WithinContextO m)
    (he : e &&& contextOErrors = 0) : e &&& m = 0 := by
  calc e &&& m = e &&& (contextOErrors &&& m) := by rw [UInt32.and_comm contextOErrors, hm]
    _ = 0 := by rw [← UInt32.and_assoc, he, UInt32.zero_and]

/-- No other error has a bit of the mask. -/
structure OthersKept (m : UInt32) : Prop where
  emptyLabel : UIDNA_ERROR_EMPTY_LABEL &&& m = 0
  labelTooLong : UIDNA_ERROR_LABEL_TOO_LONG &&& m = 0
  domainNameTooLong : UIDNA_ERROR_DOMAIN_NAME_TOO_LONG &&& m = 0
  leadingHyphen : UIDNA_ERROR_LEADING_HYPHEN &&& m = 0
  trailingHyphen : UIDNA_ERROR_TRAILING_HYPHEN &&& m = 0
  hyphen34 : UIDNA_ERROR_HYPHEN_3_4 &&& m = 0
  leadingCombiningMark : UIDNA_ERROR_LEADING_COMBINING_MARK &&& m = 0
  disallowed : UIDNA_ERROR_DISALLOWED &&& m = 0
  punycode : UIDNA_ERROR_PUNYCODE &&& m = 0
  labelHasDot : UIDNA_ERROR_LABEL_HAS_DOT &&& m = 0
  invalidACELabel : UIDNA_ERROR_INVALID_ACE_LABEL &&& m = 0
  bidi : UIDNA_ERROR_BIDI &&& m = 0
  contextJ : UIDNA_ERROR_CONTEXTJ &&& m = 0
  severe : severeErrors &&& m = 0

theorem WithinContextO.others {m : UInt32} (hm : WithinContextO m) : OthersKept m where
  emptyLabel := hm.disjoint rfl
  labelTooLong := hm.disjoint rfl
  domainNameTooLong := hm.disjoint rfl
  leadingHyphen := hm.disjoint rfl
  trailingHyphen := hm.disjoint rfl
  hyphen34 := hm.disjoint rfl
  leadingCombiningMark := hm.disjoint rfl
  disallowed := hm.disjoint rfl
  punycode := hm.disjoint rfl
  labelHasDot := hm.disjoint rfl
  invalidACELabel := hm.disjoint rfl
  bidi := hm.disjoint rfl
  contextJ := hm.disjoint rfl
  severe := hm.disjoint rfl

namespace Output

variable {m : UInt32} (o : Output)

@[simp]
theorem clear_zero : o.clear 0 = o := by
  simp [clear]

@[simp]
theorem clear_dest : (o.clear m).dest = o.dest := rfl

@[simp]
theorem clear_errorCode : (o.clear m).errorCode = o.errorCode := rfl

@[simp]
theorem clear_info : (o.clear m).info = o.info.clear m := rfl

@[simp]
theorem clear_labelBuffer (label : Option WString) :
    (o.clear m).labelBuffer label = o.labelBuffer label := by
  cases label <;> rfl

@[simp]
theorem clear_endLabel : (o.endLabel).clear m = (o.clear m).endLabel := by
  simp [clear, endLabel]

@[simp]
theorem clear_transDiff : (o.transDiff).clear m = (o.clear m).transDiff := rfl

theorem clear_addLabelErrors {e : UInt32} (h : e &&& m = 0) :
    (o.addLabelErrors e).clear m = (o.clear m).addLabelErrors e := by
  simp [clear, addLabelErrors, IDNAInfo.clear_addLabelErrors h]

theorem clear_addLabelErrorsIf {e : UInt32} (h : e &&& m = 0) (bad : Bool) :
    (o.addLabelErrorsIf bad e).clear m = (o.clear m).addLabelErrorsIf bad e := by
  simp [clear, addLabelErrorsIf, IDNAInfo.clear_addLabelErrorsIf h]

end Output

@[simp]
theorem pointer_clear {m : UInt32} (l : Label) (o : Output) :
    l.pointer (o.clear m) = l.pointer o := by
  simp [Label.pointer]

theorem clear_replaceLabel {m : UInt32} (destLabelStart destLabelLength : Nat)
    (label : Option WString) (labelLength : Nat) (o : Output) :
    clearResult m (replaceLabel destLabelStart destLabelLength label labelLength o)
      = replaceLabel destLabelStart destLabelLength label labelLength (o.clear m) := by
  unfold replaceLabel
  cases hf : U_FAILURE o.errorCode with
  | true => simp [clearResult, hf]
  | false =>
    cases label with
    | none => simp [clearResult, hf]
    | some label =>
      cases hb : (o.dest.replace destLabelStart destLabelLength label).isBogus with
      | true => simp [clearResult, hf, hb, Output.clear]
      | false => simp [clearResult, hf, hb, Output.clear]

theorem clear_writeLabel {m : UInt32} (buffer : WString) (l : Label) (o : Output) :
    clearResult m (writeLabel buffer l o) = writeLabel buffer l (o.clear m) := by
  unfold writeLabel
  cases l.labelString with
  | none => rfl
  | some s => rfl

theorem clear_bidiBlock {m : UInt32} (env : Environment) (options : UInt32)
    (label : UCharPointer) (labelLength : Nat) (info : IDNAInfo) :
    (bidiBlock env options label labelLength info).clear m
      = bidiBlock env options label labelLength (info.clear m) := by
  unfold bidiBlock
  by_cases hb : options &&& UIDNA_CHECK_BIDI ≠ 0 ∧ (!info.isBiDi || info.isOkBiDi)
  · rw [if_pos hb]
    exact (clear_checkLabelBiDi _ _ _ _).trans (if_pos hb).symm
  · rw [if_neg hb]
    exact (if_neg hb).symm

def BadACE.clear (m : UInt32) (st : BadACE) : BadACE := { st with info := st.info.clear m }

def Validity.clear (m : UInt32) (st : Validity) : Validity := { st with info := st.info.clear m }

section

variable {m : UInt32} (hm : WithinContextO m) (options : UInt32)

include hm

theorem clear_markUnit (c : WChar) (s : Nat) (st : BadACE) :
    (markUnit options c s st).clear m = markUnit options c s (st.clear m) := by
  unfold markUnit
  simp only [BadACE.clear]
  by_cases hc : c ≤ 0x7f
  · by_cases hd : c = 0x2e
    · simp [hd, IDNAInfo.clear_addLabelErrors hm.others.labelHasDot]
    · by_cases ha : asciiData c < 0
      · cases disallowNonLDHDot options <;> simp [hc, hd, ha]
      · simp [hc, hd, ha]
  · simp [hc]

theorem clear_markUnits (n s : Nat) (st : BadACE) :
    (markUnits options n s st).clear m = markUnits options n s (st.clear m) := by
  induction n generalizing s st with
  | zero => rfl
  | succ n ih =>
    unfold markUnits
    rw [ih, clear_markUnit hm]
    rfl

theorem clear_markBadACELabel (labelStart labelLength : Nat) (toASCII : Bool) (o : Output) :
    clearResult m (markBadACELabel options labelStart labelLength toASCII o)
      = markBadACELabel options labelStart labelLength toASCII (o.clear m) := by
  have hst := clear_markUnits hm options (max 1 (labelLength - 4)) (labelStart + 4)
    ⟨o.dest.units, true, true, o.info⟩
  unfold markBadACELabel
  cases hf : U_FAILURE o.errorCode with
  | true => simp [clearResult, hf]
  | false =>
    simp only [BadACE.clear] at hst
    simp only [Output.clear_errorCode, Output.clear_dest, Output.clear_info, hf, ← hst]
    generalize markUnits options (max 1 (labelLength - 4)) (labelStart + 4)
      ⟨o.dest.units, true, true, o.info⟩ = st
    cases hl : st.onlyLDH with
    | true =>
      cases ((o.dest.setBuffer st.buffer).insert (labelStart + labelLength) 0xfffd).isBogus with
      | true => rfl
      | false => rfl
    | false =>
      simp only [clearResult, Bool.false_eq_true, ↓reduceIte,
        Output.clear_addLabelErrorsIf _ hm.others.labelTooLong]
      rfl

theorem clear_hyphenErrors (l : Label) (o : Output) :
    (hyphenErrors l o).clear m = hyphenErrors l (o.clear m) := by
  unfold hyphenErrors
  simp only [pointer_clear, Output.clear_addLabelErrorsIf _ hm.others.hyphen34,
    Output.clear_addLabelErrorsIf _ hm.others.leadingHyphen,
    Output.clear_addLabelErrorsIf _ hm.others.trailingHyphen]

theorem clear_checkUnit (c : WChar) (s : Nat) (st : Validity) :
    (checkUnit options c s st).clear m = checkUnit options c s (st.clear m) := by
  unfold checkUnit
  simp only [Validity.clear]
  by_cases hc : c ≤ 0x7f
  · by_cases hd : c = 0x2e
    · simp [hd, IDNAInfo.clear_addLabelErrors hm.others.labelHasDot]
    · cases disallowNonLDHDot options && decide (asciiData c < 0) with
      | true => simp [hc, hd, IDNAInfo.clear_addLabelErrors hm.others.disallowed]
      | false => simp [hc, hd]
  · cases disallowNonLDHDot options && isNonASCIIDisallowedSTD3Valid c with
    | true => simp [hc, IDNAInfo.clear_addLabelErrors hm.others.disallowed]
    | false => simp [hc, IDNAInfo.clear_addLabelErrorsIf hm.others.disallowed]

theorem clear_checkUnits (n s : Nat) (st : Validity) :
    (checkUnits options n s st).clear m = checkUnits options n s (st.clear m) := by
  induction n generalizing s st with
  | zero => rfl
  | succ n ih =>
    unfold checkUnits
    rw [ih, clear_checkUnit hm]
    rfl

theorem clear_encodeLabel (env : Environment) (l : Label) (oredChars : WChar) (o : Output) :
    clearResult m (encodeLabel env l oredChars o) = encodeLabel env l oredChars (o.clear m) := by
  unfold encodeLabel
  cases l.wasPunycode with
  | true => simp [clearResult, Output.clear_addLabelErrorsIf _ hm.others.labelTooLong]
  | false =>
    by_cases ho : 0x80 ≤ oredChars
    · simp only [ho, Bool.false_eq_true, ↓reduceIte, pointer_clear, Output.clear_errorCode]
      generalize toPunycode env ((l.pointer o).take l.labelLength) o.errorCode = punycode
      cases U_FAILURE punycode.2.2 with
      | true => rfl
      | false =>
        simp only [Bool.false_eq_true, ↓reduceIte]
        rw [clear_replaceLabel, Output.clear_addLabelErrorsIf _ hm.others.labelTooLong]
        rfl
    · simp only [ho, Bool.false_eq_true, ↓reduceIte]
      rw [clear_replaceLabel, Output.clear_addLabelErrorsIf _ hm.others.labelTooLong]

theorem clear_leadingCombiningMark (env : Environment) (l : Label) (o : Output) :
    clearResult m (leadingCombiningMark env l o) = leadingCombiningMark env l (o.clear m) := by
  unfold leadingCombiningMark
  simp only [pointer_clear, ← Output.clear_addLabelErrors _ hm.others.leadingCombiningMark]
  by_cases hc : (env.u_charType (U16_NEXT_UNSAFE (l.pointer o) 0).1).mask &&& U_GC_M_MASK = 0
  · simp only [hc, ne_eq, not_true_eq_false, ↓reduceIte]
    rfl
  · simp only [hc, ne_eq, not_false_eq_true, ↓reduceIte]
    cases l.labelString with
    | none => rfl
    | some s => rfl

theorem clear_markedLabel (env : Environment) (l : Label) (o : Output) :
    markedLabel env options l (o.clear m) =
      ((markedLabel env options l o).1, clearResult m (markedLabel env options l o).2) := by
  unfold markedLabel
  rw [← clear_hyphenErrors hm]
  generalize hyphenErrors l o = o
  have hst := clear_checkUnits hm options l.labelLength l.labelStart
    ⟨o.labelBuffer l.labelString, 0, o.info⟩
  simp only [Validity.clear] at hst
  simp only [Output.clear_labelBuffer, Output.clear_info, ← hst]
  generalize checkUnits options l.labelLength l.labelStart
    ⟨o.labelBuffer l.labelString, 0, o.info⟩ = st
  rw [clear_leadingCombiningMark hm]
  have hwrite := clear_writeLabel (m := m) st.buffer l { o with info := st.info }
  simp only [clearResult, Output.clear] at hwrite ⊢
  rw [← hwrite]

section

variable (env : Environment) {c₁ c₂ : UCharPointer → Nat → IDNAInfo → IDNAInfo}
  (hc : ∀ label labelLength oredChars info,
    (contextOBlock options c₁ label labelLength oredChars info).clear m
      = contextOBlock options c₂ label labelLength oredChars (info.clear m))

include hc

theorem clear_contextualChecks (l : Label) (oredChars : WChar) (o : Output) :
    (contextualChecks env options c₁ l oredChars o).clear m
      = contextualChecks env options c₂ l oredChars (o.clear m) := by
  unfold contextualChecks
  simp only [pointer_clear, Output.clear_info, ← clear_bidiBlock,
    ← IDNAInfo.clear_addLabelErrorsIf hm.others.contextJ, ← hc]
  rfl

theorem clear_finishLabel (l : Label) (oredChars : WChar) (o : Output) :
    clearResult m (finishLabel env options c₁ l oredChars o)
      = finishLabel env options c₂ l oredChars (o.clear m) := by
  unfold finishLabel
  rw [Output.clear_info, IDNAInfo.clear_labelErrors_and hm.others.severe]
  by_cases hs : o.info.labelErrors &&& severeErrors = 0
  · simp only [hs, ↓reduceIte, ← clear_contextualChecks hm options env hc]
    cases l.toASCII with
    | true => exact clear_encodeLabel hm env l oredChars _
    | false => exact clear_replaceLabel _ _ _ _ _
  · simp only [hs, ↓reduceIte]
    cases l.wasPunycode with
    | true =>
      simp only [↓reduceIte, clear_markBadACELabel hm,
        Output.clear_addLabelErrors _ hm.others.invalidACELabel]
    | false => exact clear_replaceLabel _ _ _ _ _

theorem clear_checkLabel (l : Label) (o : Output) :
    clearResult m (checkLabel env options c₁ l o) = checkLabel env options c₂ l (o.clear m) := by
  rw [checkLabel_eq, checkLabel_eq]
  refine map_ite (clearResult m) (fun _ => ?_) (fun _ => ?_)
  · rw [clear_replaceLabel, Output.clear_addLabelErrors _ hm.others.emptyLabel]
  · rw [clear_markedLabel hm options env, clear_finishLabel hm options env hc]
    rfl

theorem clear_processLabel (labelStart labelLength : Nat) (toASCII : Bool) (o : Output) :
    clearResult m (processLabel env options c₁ labelStart labelLength toASCII o)
      = processLabel env options c₂ labelStart labelLength toASCII (o.clear m) := by
  unfold processLabel
  refine map_ite (clearResult m) (fun _ => rfl) (fun _ => ?_)
  refine map_ite (clearResult m) (fun _ => ?_) (fun _ => clear_checkLabel hm options env hc _ _)
  refine map_ite (clearResult m) (fun _ => ?_) (fun _ => ?_)
  · rw [clear_markBadACELabel hm, Output.clear_addLabelErrors _ hm.others.punycode]
  · refine map_ite (clearResult m) (fun _ => rfl) (fun _ => ?_)
    refine map_ite (clearResult m) (fun _ => clear_checkLabel hm options env hc _ _) (fun _ => ?_)
    rw [clear_markBadACELabel hm, Output.clear_addLabelErrors _ hm.others.invalidACELabel]
    rfl

end

end

end SearchAndIdna.Uts46
