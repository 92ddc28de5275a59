import SearchAndIdna.Uts46
import SearchAndIdna.Punycode.RoundTrip

/-!
# A label without errors

What `UTS46::processLabel` leaves of a label for ToASCII when it reports no error,
with the Punycode functions of `punycode.cpp`.

* `IDNAInfo.Grows`: errors and flags are only ever added, so an info without errors at
  the end had none at any time;
* `Checked`: what the loop over the label and the tests for hyphens let through;
* `checkLabel_clean`, `checkLabel_ok`: a label without errors is `Checked`, and only the
  contextual checks are left to make;
* `aceLabel_toASCII`, `plainLabel_toASCII`: such a label stays, or becomes an ACE label.
-/

namespace SearchAndIdna.Uts46

open UnicodeString Punycode Bits

/-! ## Errors are only added -/

namespace IDNAInfo

/-- No errors, neither of the name nor of the label. -/
def Clean (info : IDNAInfo) : Prop := info.errors = 0 ∧ info.labelErrors = 0

/-- The errors of the name and of the label. -/
def allErrors (info : IDNAInfo) : UInt32 := info.errors ||| info.labelErrors

/-- From `a` to `b`, no error is taken back, nor a flag. -/
structure Grows (a b : IDNAInfo) : Prop where
  errors : ∀ m, b.errors &&& m = 0 → a.errors &&& m = 0
  all : ∀ m, b.allErrors &&& m = 0 → a.allErrors &&& m = 0
  transDiff : b.isTransDiff = false → a.isTransDiff = false
  isBiDi : b.isBiDi = false → a.isBiDi = false
  isOkBiDi : b.isOkBiDi = true → a.isOkBiDi = true

variable {a b c : IDNAInfo}

theorem allErrors_and_eq_zero_iff {info : IDNAInfo} {m : UInt32} :
    info.allErrors &&& m = 0 ↔ info.errors &&& m = 0 ∧ info.labelErrors &&& m = 0 :=
  or_and_eq_zero_iff

theorem clean_iff {info : IDNAInfo} : info.Clean ↔ info.allErrors &&& -1 = 0 := by
  rw [UInt32.and_neg_one, allErrors, UInt32.or_eq_zero_iff, Clean]

theorem Grows.clean (h : Grows a b) (hb : b.Clean) : a.Clean :=
  clean_iff.mpr (h.all _ (clean_iff.mp hb))

theorem Grows.errors_eq_zero (h : Grows a b) (hb : b.errors = 0) : a.errors = 0 := by
  have hnone := h.errors (-1) (by rw [hb, UInt32.zero_and])
  rwa [UInt32.and_neg_one] at hnone

theorem Grows.refl (a : IDNAInfo) : Grows a a := ⟨fun _ => id, fun _ => id, id, id, id⟩

theorem Grows.trans (h : Grows a b) (h' : Grows b c) : Grows a c :=
  ⟨fun m hc => h.errors m (h'.errors m hc), fun m hc => h.all m (h'.all m hc),
    fun hc => h.transDiff (h'.transDiff hc), fun hc => h.isBiDi (h'.isBiDi hc),
    fun hc => h.isOkBiDi (h'.isOkBiDi hc)⟩

theorem grows_addErrors (info : IDNAInfo) (e : UInt32) : Grows info (info.addErrors e) := by
  refine ⟨fun m h => (or_and_eq_zero_iff.mp h).1, fun m h => ?_, id, id, id⟩
  obtain ⟨herrors, hlabel⟩ := allErrors_and_eq_zero_iff.mp h
  exact allErrors_and_eq_zero_iff.mpr ⟨(or_and_eq_zero_iff.mp herrors).1, hlabel⟩

theorem grows_addErrorsIf (info : IDNAInfo) (bad : Bool) (e : UInt32) :
    Grows info (if bad then info.addErrors e else info) := by
  cases bad with
  | false => exact Grows.refl info
  | true => exact grows_addErrors info e

theorem grows_addLabelErrors (info : IDNAInfo) (e : UInt32) : Grows info (info.addLabelErrors e) := by
  refine ⟨fun _ => id, fun m h => ?_, id, id, id⟩
  obtain ⟨herrors, hlabel⟩ := allErrors_and_eq_zero_iff.mp h
  exact allErrors_and_eq_zero_iff.mpr ⟨herrors, (or_and_eq_zero_iff.mp hlabel).1⟩

theorem grows_addLabelErrorsIf (info : IDNAInfo) (bad : Bool) (e : UInt32) :
    Grows info (info.addLabelErrorsIf bad e) := by
  cases bad with
  | false => exact Grows.refl info
  | true => exact grows_addLabelErrors info e

theorem grows_notOkBiDiIf (info : IDNAInfo) (bad : Bool) : Grows info (info.notOkBiDiIf bad) := by
  cases bad with
  | false => exact Grows.refl info
  | true => exact ⟨fun _ => id, fun _ => id, id, id, fun h => absurd h Bool.false_ne_true⟩

theorem grows_endLabel (info : IDNAInfo) : Grows info info.endLabel :=
  ⟨fun _ h => (or_and_eq_zero_iff.mp h).1, fun _ h => (allErrors_and_eq_zero_iff.mp h).1, id, id, id⟩

theorem clean_endLabel (h : a.Clean) : a.endLabel.Clean := by
  refine ⟨?_, rfl⟩
  show a.errors ||| a.labelErrors = 0
  rw [h.1, h.2]
  rfl

/-- An error that is set is set. -/
theorem not_clean_addLabelErrors {e : UInt32} (he : e ≠ 0) (info : IDNAInfo) :
    ¬ (info.addLabelErrors e).Clean := fun h => he (UInt32.or_eq_zero_iff.mp h.2).2

theorem clean_addLabelErrorsIf {bad : Bool} {e : UInt32} (he : e ≠ 0)
    (h : (a.addLabelErrorsIf bad e).Clean) : a.Clean ∧ bad = false := by
  cases bad with
  | false => exact ⟨h, rfl⟩
  | true => exact absurd h (not_clean_addLabelErrors he a)

end IDNAInfo

open IDNAInfo

/-! ## The checks of a label -/

/-- What the loop over the label lets through. -/
structure UnitOk (options : UInt32) (c : WChar) : Prop where
  dot : c ≠ 0x2e
  replacement : c ≠ 0xfffd
  ldh : disallowNonLDHDot options = true → c ≤ 0x7f → 0 ≤ asciiData c
  std3 : disallowNonLDHDot options = true → isNonASCIIDisallowedSTD3Valid c = false

/-- A label that passes the loop over its units and the tests for hyphens. -/
structure Checked (options : UInt32) (label : WString) : Prop where
  nonempty : label ≠ []
  units : ∀ c ∈ label, UnitOk options c
  leading : label.head? ≠ some 0x2d
  trailing : label.getLast? ≠ some 0x2d
  hyphen34 : ¬ (label.getD 2 0 = 0x2d ∧ label.getD 3 0 = 0x2d)

theorem Checked.noDot {options : UInt32} {label : WString} (h : Checked options label) :
    0x2e ∉ label := fun hdot => (h.units _ hdot).dot rfl

def IsASCII (label : WString) : Prop := ∀ c ∈ label, c ≤ 0x7f

section

variable {options : UInt32}

theorem checkUnit_grows (c : WChar) (s : Nat) (st : Validity) :
    Grows st.info (checkUnit options c s st).info := by
  unfold checkUnit
  split
  · split
    · exact grows_addLabelErrors _ _
    · split
      · exact grows_addLabelErrors _ _
      · exact Grows.refl _
  · split
    · exact grows_addLabelErrors _ _
    · exact grows_addLabelErrorsIf _ _ _

variable (options) in
theorem checkUnits_grows (n s : Nat) (st : Validity) :
    Grows st.info (checkUnits options n s st).info := by
  induction n generalizing s st with
  | zero => exact Grows.refl _
  | succ n ih => exact (checkUnit_grows _ s st).trans (ih _ _)

/-- Without an error, a unit is in order. -/
theorem checkUnit_clean {c : WChar} {s : Nat} {st : Validity}
    (h : (checkUnit options c s st).info.Clean) : UnitOk options c := by
  have hdisallowed : UIDNA_ERROR_DISALLOWED ≠ 0 := by decide
  have hhasDot : UIDNA_ERROR_LABEL_HAS_DOT ≠ 0 := by decide
  unfold checkUnit at h
  by_cases hc : c ≤ 0x7f
  · simp only [hc, if_true] at h
    by_cases hd : c = 0x2e
    · rw [if_pos hd] at h
      exact absurd h (not_clean_addLabelErrors hhasDot _)
    · rw [if_neg hd] at h
      by_cases hs : (disallowNonLDHDot options && decide (asciiData c < 0)) = true
      · rw [if_pos hs] at h
        exact absurd h (not_clean_addLabelErrors hdisallowed _)
      · refine ⟨hd, ?_, fun hstd _ => ?_, fun _ => ?_⟩
        · rintro rfl
          exact absurd hc (by decide)
        · rw [hstd, Bool.true_and, decide_eq_true_eq] at hs
          exact Int.not_lt.mp hs
        · simp only [isNonASCIIDisallowedSTD3Valid, Bool.or_eq_false_iff, beq_eq_false_iff_ne]
          refine ⟨⟨?_, ?_⟩, ?_⟩ <;> rintro rfl <;> exact absurd hc (by decide)
  · simp only [hc, if_false] at h
    by_cases hs : (disallowNonLDHDot options && isNonASCIIDisallowedSTD3Valid c) = true
    · rw [if_pos hs] at h
      exact absurd h (not_clean_addLabelErrors hdisallowed _)
    · rw [if_neg hs] at h
      have hbad := (clean_addLabelErrorsIf hdisallowed h).2
      refine ⟨?_, ?_, fun _ hle => absurd hle hc, fun hstd => ?_⟩
      · rintro rfl
        exact hc (by decide)
      · exact beq_eq_false_iff_ne.mp hbad
      · rw [hstd, Bool.true_and] at hs
        exact Bool.eq_false_of_not_eq_true hs

theorem unitOk_ascii {c : WChar} (hc : c ≤ 0x7f) (hdot : c ≠ 0x2e)
    (hldh : disallowNonLDHDot options = true → 0 ≤ asciiData c) : UnitOk options c := by
  refine ⟨hdot, ?_, fun hstd _ => hldh hstd, fun _ => ?_⟩
  · rintro rfl
    exact absurd hc (by decide)
  · simp only [isNonASCIIDisallowedSTD3Valid, Bool.or_eq_false_iff, beq_eq_false_iff_ne]
    refine ⟨⟨?_, ?_⟩, ?_⟩ <;> rintro rfl <;> exact absurd hc (by decide)

/-- An uppercase letter and its lowercase one. -/
theorem mapped_unit {c : WChar} (hc : c ≤ 0x7f) (hd : 0 < asciiData c) :
    c + 0x20 ≤ 0x7f ∧ c + 0x20 ≠ 0x2e ∧ c + 0x20 ≠ 0x2d ∧ asciiData (c + 0x20) = 0 := by
  have hall : ∀ n ∈ List.range 0x80, 0 < asciiData (UInt16.ofNat n) →
      UInt16.ofNat n + 0x20 ≤ 0x7f ∧ UInt16.ofNat n + 0x20 ≠ 0x2e ∧
        UInt16.ofNat n + 0x20 ≠ 0x2d ∧ asciiData (UInt16.ofNat n + 0x20) = 0 := by
    decide +kernel
  have hn := hall c.toNat (List.mem_range.mpr (Nat.lt_succ_of_le (UInt16.le_iff_toNat_le.mp hc)))
  rw [UInt16.ofNat_toNat] at hn
  exact hn hd

/-- How the loop over the label collects its units beyond ASCII. -/
def orNonASCII (oredChars c : WChar) : WChar := if c ≤ 0x7f then oredChars else oredChars ||| c

/-- A unit in order stays as it is. -/
theorem checkUnit_ok {c : WChar} (h : UnitOk options c) (s : Nat) (st : Validity) :
    checkUnit options c s st = { st with oredChars := orNonASCII st.oredChars c } := by
  unfold checkUnit orNonASCII
  by_cases hc : c ≤ 0x7f
  · have hs : (disallowNonLDHDot options && decide (asciiData c < 0)) = false := by
      cases hstd : disallowNonLDHDot options with
      | false => rfl
      | true => exact decide_eq_false (Int.not_lt.mpr (h.ldh hstd hc))
    simp only [hc, if_true, if_neg h.dot, hs, Bool.false_eq_true, if_false]
  · have hs : (disallowNonLDHDot options && isNonASCIIDisallowedSTD3Valid c) = false := by
      cases hstd : disallowNonLDHDot options with
      | false => rfl
      | true => exact h.std3 hstd
    simp only [hc, if_false, hs, Bool.false_eq_true, beq_eq_false_iff_ne.mpr h.replacement]
    rfl

theorem checkUnits_cons (pre rest : WString) (c : WChar) (label : WString) {st : Validity}
    (hbuffer : st.buffer = pre ++ (c :: label) ++ rest) :
    checkUnits options (c :: label).length pre.length st =
      checkUnits options label.length (pre ++ [c]).length (checkUnit options c pre.length st) := by
  have hc : st.buffer.getD pre.length 0 = c := by
    rw [hbuffer]
    simp [List.getD_eq_getElem?_getD]
  rw [List.length_cons, checkUnits, hc, List.length_append, List.length_singleton]

/-- Without an error, all units of the label are in order. -/
theorem checkUnits_clean (pre label rest : WString) {st : Validity}
    (hbuffer : st.buffer = pre ++ label ++ rest)
    (h : (checkUnits options label.length pre.length st).info.Clean) :
    ∀ c ∈ label, UnitOk options c := by
  induction label generalizing pre st with
  | nil => exact fun c hc => absurd hc List.not_mem_nil
  | cons c label ih =>
    rw [checkUnits_cons pre rest c label hbuffer] at h
    have hunit := checkUnit_clean ((checkUnits_grows _ _ _ _).clean h)
    have hrest := ih (pre ++ [c]) (by rw [checkUnit_ok hunit, hbuffer]; simp) h
    intro d hd
    rcases List.mem_cons.mp hd with rfl | hd
    · exact hunit
    · exact hrest d hd

/-- A label in order stays as it is. -/
theorem checkUnits_ok (pre label rest : WString) {st : Validity}
    (hbuffer : st.buffer = pre ++ label ++ rest) (h : ∀ c ∈ label, UnitOk options c) :
    checkUnits options label.length pre.length st =
      { st with oredChars := label.foldl orNonASCII st.oredChars } := by
  induction label generalizing pre st with
  | nil => rfl
  | cons c label ih =>
    have hunit := h c List.mem_cons_self
    rw [checkUnits_cons pre rest c label hbuffer, checkUnit_ok hunit]
    exact ih (pre ++ [c]) (by simp [hbuffer]) fun d hd => h d (List.mem_cons_of_mem c hd)

theorem or_lt_0x80_iff {x y : WChar} : x ||| y < 0x80 ↔ x < 0x80 ∧ y < 0x80 := by
  rw [UInt16.lt_iff_toNat_lt, UInt16.lt_iff_toNat_lt, UInt16.lt_iff_toNat_lt, UInt16.toNat_or]
  constructor
  · intro h
    exact ⟨Nat.lt_of_le_of_lt Nat.left_le_or h, Nat.lt_of_le_of_lt Nat.right_le_or h⟩
  · intro h
    exact Nat.or_lt_two_pow (n := 7) h.1 h.2

/-- The collected units tell whether the label is ASCII. -/
theorem foldl_orNonASCII_lt_iff (label : WString) (oredChars : WChar) :
    label.foldl orNonASCII oredChars < 0x80 ↔ oredChars < 0x80 ∧ IsASCII label := by
  induction label generalizing oredChars with
  | nil => exact ⟨fun h => ⟨h, fun c hc => absurd hc List.not_mem_nil⟩, fun h => h.1⟩
  | cons c label ih =>
    have hmem : IsASCII (c :: label) ↔ c ≤ 0x7f ∧ IsASCII label := List.forall_mem_cons
    rw [List.foldl_cons, ih, hmem, orNonASCII]
    by_cases hc : c ≤ 0x7f
    · rw [if_pos hc]
      exact ⟨fun h => ⟨h.1, hc, h.2⟩, fun h => ⟨h.1, h.2.2⟩⟩
    · have hbig : ¬ c < 0x80 := by
        rw [UInt16.lt_iff_toNat_lt]
        rw [UInt16.le_iff_toNat_le] at hc
        exact fun hlt => hc (Nat.le_of_lt_succ hlt)
      rw [if_neg hc, or_lt_0x80_iff]
      exact ⟨fun h => absurd h.1.2 hbig, fun h => absurd h.2.1 hc⟩

/-- The units of `dest` that `processLabel` is called for. -/
def labelOf (labelStart labelLength : Nat) (o : Output) : WString :=
  UCharPointer.take ⟨o.dest.units, labelStart⟩ labelLength

/-- The ways through `processLabel`. -/
theorem processLabel_cases (env : Environment) (options : UInt32)
    (contextO : UCharPointer → Nat → IDNAInfo → IDNAInfo) (labelStart labelLength : Nat)
    (toASCII : Bool) (o : Output) (r : Nat × Output)
    (hr : processLabel env options contextO labelStart labelLength toASCII o = r)
    (label : WString) (hlabel : labelOf labelStart labelLength o = label)
    (decoded : WString × UErrorCode) (hdecoded : fromPunycode env (label.drop 4) = decoded) :
    (U_FAILURE o.errorCode = true ∧ r = (0, o)) ∨
      U_FAILURE o.errorCode = false ∧
        ((xnDashDash <+: label ∧ U_FAILURE decoded.2 = true ∧
          r = markBadACELabel options labelStart labelLength toASCII
            (o.addLabelErrors UIDNA_ERROR_PUNYCODE)) ∨
        (xnDashDash <+: label ∧ U_FAILURE decoded.2 = false ∧ ∃ code, U_FAILURE code = true ∧
          r = (labelLength, { o with errorCode := code })) ∨
        (xnDashDash <+: label ∧ U_FAILURE decoded.2 = false ∧ ∃ code,
          env.isNormalized decoded.1 o.errorCode = (true, code) ∧ U_FAILURE code = false ∧
          r = checkLabel env options contextO
            ⟨some decoded.1, 0, decoded.1.length, labelStart, labelLength, toASCII⟩
            { o with errorCode := code }) ∨
        (xnDashDash <+: label ∧ U_FAILURE decoded.2 = false ∧ ∃ code,
          r = markBadACELabel options labelStart labelLength toASCII
            (({ o with errorCode := code } : Output).addLabelErrors
              UIDNA_ERROR_INVALID_ACE_LABEL)) ∨
        (¬ xnDashDash <+: label ∧
          r = checkLabel env options contextO
            ⟨none, labelStart, labelLength, labelStart, labelLength, toASCII⟩ o)) := by
  rw [labelOf] at hlabel
  unfold processLabel at hr
  simp only [hlabel, hdecoded] at hr
  cases hf : U_FAILURE o.errorCode with
  | true =>
    rw [hf, if_pos rfl] at hr
    exact Or.inl ⟨rfl, hr.symm⟩
  | false =>
    rw [hf, if_neg Bool.false_ne_true] at hr
    refine Or.inr ⟨rfl, ?_⟩
    by_cases hx : xnDashDash <+: label
    · rw [if_pos hx] at hr
      cases hd : U_FAILURE decoded.2 with
      | true =>
        simp only [hd, if_true] at hr
        exact Or.inl ⟨hx, rfl, hr.symm⟩
      | false =>
        right
        cases hn : env.isNormalized decoded.1 o.errorCode with
        | mk isValid code =>
          simp only [hd, hn, Bool.false_eq_true, if_false] at hr
          cases hcode : U_FAILURE code with
          | true =>
            simp only [hcode, if_true] at hr
            exact Or.inl ⟨hx, rfl, code, hcode, hr.symm⟩
          | false =>
            simp only [hcode, Bool.false_eq_true, if_false] at hr
            cases isValid with
            | true => exact Or.inr (Or.inl ⟨hx, rfl, code, rfl, hcode, hr.symm⟩)
            | false => exact Or.inr (Or.inr (Or.inl ⟨hx, rfl, code, hr.symm⟩))
    · rw [if_neg hx] at hr
      exact Or.inr (Or.inr (Or.inr (Or.inr ⟨hx, hr.symm⟩)))

theorem replaceLabel_info (destLabelStart destLabelLength : Nat) (label : Option WString)
    (labelLength : Nat) (o : Output) :
    (replaceLabel destLabelStart destLabelLength label labelLength o).2.info = o.info := by
  unfold replaceLabel
  split
  · rfl
  · split
    · rfl
    · dsimp only
      split <;> rfl

theorem mapDevChars_info {env : Environment} (labelStart mappingStart : Nat) (o : Output) :
    (mapDevChars env labelStart mappingStart o).2.info = o.info := by
  unfold mapDevChars
  split
  · rfl
  · split
    · rfl
    · dsimp only
      split
      · split
        · split <;> rfl
        · rfl
      · rfl

variable (options) in
theorem markUnits_grows (n s : Nat) (st : BadACE) :
    Grows st.info (markUnits options n s st).info := by
  induction n generalizing s st with
  | zero => exact Grows.refl _
  | succ n ih =>
    refine Grows.trans ?_ (ih _ _)
    unfold markUnit
    split
    · split
      · exact grows_addLabelErrors _ _
      · split
        · split <;> exact Grows.refl _
        · exact Grows.refl _
    · exact Grows.refl _

theorem markBadACELabel_grows (labelStart labelLength : Nat) (toASCII : Bool) (o : Output) :
    Grows o.info (markBadACELabel options labelStart labelLength toASCII o).2.info := by
  have hunits := markUnits_grows options (max 1 (labelLength - 4)) (labelStart + 4)
    ⟨o.dest.units, true, true, o.info⟩
  unfold markBadACELabel
  split
  · exact Grows.refl _
  · dsimp only
    split
    · split <;> exact hunits
    · exact hunits.trans (grows_addLabelErrorsIf _ _ _)

/-- With an error before. -/
theorem markBadACELabel_grows_of (e : UInt32) (labelStart labelLength : Nat) (toASCII : Bool)
    (o : Output) :
    Grows (o.info.addLabelErrors e)
      (markBadACELabel options labelStart labelLength toASCII (o.addLabelErrors e)).2.info :=
  markBadACELabel_grows _ _ _ (o.addLabelErrors e)

theorem hyphenErrors_grows (l : Label) (o : Output) : Grows o.info (hyphenErrors l o).info :=
  ((grows_addLabelErrorsIf _ _ _).trans (grows_addLabelErrorsIf _ _ _)).trans
    (grows_addLabelErrorsIf _ _ _)

theorem leadingCombiningMark_grows (env : Environment) (l : Label) (o : Output) :
    Grows o.info (leadingCombiningMark env l o).2.info := by
  unfold leadingCombiningMark
  dsimp only
  split
  · split <;> exact grows_addLabelErrors _ _
  · exact Grows.refl _

theorem checkLabelBiDi_grows (props : CharacterProperties) (label : UCharPointer)
    (labelLength : Int) (info : IDNAInfo) :
    Grows info (checkLabelBiDi props label labelLength info) := by
  have hend : ∀ (p : Prop) [Decidable p] (i : IDNAInfo), Grows info i →
      Grows info (if p then { i with isBiDi := true } else i) := by
    intro p _ i hi
    split
    · exact ⟨hi.errors, hi.all, hi.transDiff, fun h => absurd h Bool.noConfusion, hi.isOkBiDi⟩
    · exact hi
  have hnot := grows_notOkBiDiIf
  unfold checkLabelBiDi
  refine hend _ _ ?_
  split
  · exact ((hnot _ _).trans (hnot _ _)).trans (hnot _ _)
  · exact (((hnot _ _).trans (hnot _ _)).trans (hnot _ _)).trans (hnot _ _)

theorem encodeLabel_grows (env : Environment) (l : Label) (oredChars : WChar) (o : Output) :
    Grows o.info (encodeLabel env l oredChars o).2.info := by
  unfold encodeLabel
  split
  · exact grows_addLabelErrorsIf _ _ _
  · split
    · dsimp only
      split
      · exact Grows.refl _
      · rw [replaceLabel_info]
        exact grows_addLabelErrorsIf _ _ _
    · rw [replaceLabel_info]
      exact grows_addLabelErrorsIf _ _ _

section

variable (env : Environment) {contextO : UCharPointer → Nat → IDNAInfo → IDNAInfo}
  (hcontext : ∀ label labelLength info, Grows info (contextO label labelLength info))

include hcontext

variable (options) in
theorem contextualChecks_grows (l : Label) (oredChars : WChar) (o : Output) :
    Grows o.info (contextualChecks env options contextO l oredChars o).info := by
  have hbidi : ∀ label labelLength info,
      Grows info (bidiBlock env options label labelLength info) := by
    intro label labelLength info
    unfold bidiBlock
    split
    · exact checkLabelBiDi_grows _ _ _ _
    · exact Grows.refl _
  have hblock : ∀ label labelLength info,
      Grows info (contextOBlock options contextO label labelLength oredChars info) := by
    intro label labelLength info
    unfold contextOBlock
    split
    · exact hcontext _ _ _
    · exact Grows.refl _
  exact ((hbidi _ _ _).trans (grows_addLabelErrorsIf _ _ _)).trans (hblock _ _ _)

theorem finishLabel_grows (l : Label) (oredChars : WChar) (o : Output) :
    Grows o.info (finishLabel env options contextO l oredChars o).2.info := by
  unfold finishLabel
  split
  · have hchecks := contextualChecks_grows options env hcontext l oredChars o
    dsimp only
    split
    · exact hchecks.trans (encodeLabel_grows _ _ _ _)
    · rw [replaceLabel_info]
      exact hchecks
  · split
    · exact (grows_addLabelErrors _ _).trans (markBadACELabel_grows_of _ _ _ _ _)
    · rw [replaceLabel_info]
      exact Grows.refl _

theorem checkLabel_grows (l : Label) (o : Output) :
    Grows o.info (checkLabel env options contextO l o).2.info := by
  unfold checkLabel
  split
  · rw [replaceLabel_info]
    exact grows_addLabelErrors _ _
  · dsimp only
    refine Grows.trans ?_ (finishLabel_grows env hcontext _ _ _)
    refine Grows.trans ?_ (leadingCombiningMark_grows _ _ _)
    have hunits := (hyphenErrors_grows l o).trans (checkUnits_grows options
      l.labelLength l.labelStart ⟨(hyphenErrors l o).labelBuffer l.labelString, 0,
        (hyphenErrors l o).info⟩)
    unfold writeLabel
    split <;> exact hunits

variable (options) in
theorem processLabel_grows (labelStart labelLength : Nat) (toASCII : Bool) (o : Output) :
    Grows o.info (processLabel env options contextO labelStart labelLength toASCII o).2.info := by
  generalize hr : processLabel env options contextO labelStart labelLength toASCII o = r
  rcases processLabel_cases env options contextO labelStart labelLength toASCII o r hr _ rfl _ rfl
    with ⟨-, rfl⟩ | ⟨-, ⟨-, -, rfl⟩ | ⟨-, -, code, -, rfl⟩ | ⟨-, -, code, -, -, rfl⟩ |
      ⟨-, -, code, rfl⟩ | ⟨-, rfl⟩⟩
  · exact Grows.refl _
  · exact (grows_addLabelErrors _ _).trans (markBadACELabel_grows_of _ _ _ _ _)
  · exact Grows.refl o.info
  · exact checkLabel_grows env hcontext _ { o with errorCode := code }
  · exact (grows_addLabelErrors _ _).trans
      (markBadACELabel_grows_of _ _ _ _ { o with errorCode := code })
  · exact checkLabel_grows env hcontext _ _

end

/-! ## A label without errors -/

theorem at_text (pre text rest : WString) {i : Nat} (hi : i < text.length) :
    UCharPointer.at ⟨pre ++ text ++ rest, pre.length⟩ i = text.getD i 0 := by
  have hnat : ((pre.length : Int) + (i : Int)).toNat = pre.length + i := by omega
  rw [UCharPointer.at, if_neg (by simp only; omega)]
  simp only [hnat]
  rw [List.append_assoc, List.getD_append_right _ _ _ _ (by omega), Nat.add_sub_cancel_left,
    List.getD_append _ _ _ _ hi]

theorem at_first (pre text rest : WString) (h : 0 < text.length) :
    UCharPointer.at ⟨pre ++ text ++ rest, pre.length⟩ 0 = text.head?.getD 0 := by
  have hat := at_text pre text rest h
  rw [List.getD_eq_getElem?_getD, ← List.head?_eq_getElem?] at hat
  exact hat

theorem at_last (pre text rest : WString) (h : 0 < text.length) :
    UCharPointer.at ⟨pre ++ text ++ rest, pre.length⟩ (text.length - 1) = text.getLast?.getD 0 := by
  have hat := at_text pre text rest (Nat.sub_lt h Nat.one_pos)
  have hcast : ((text.length - 1 : Nat) : Int) = text.length - 1 := by omega
  rw [List.getD_eq_getElem?_getD, ← List.getLast?_eq_getElem?, hcast] at hat
  exact hat

theorem some_of_getD_ne {x : Option WChar} {c : WChar} (hc : c ≠ 0) (h : x.getD 0 = c) :
    x = some c := by
  cases x with
  | none => exact absurd h.symm hc
  | some d => exact congrArg some h

theorem getD_ne_zero_lt {text : WString} {i : Nat} {c : WChar} (hc : c ≠ 0)
    (h : text.getD i 0 = c) : i < text.length := by
  by_contra hge
  rw [List.getD_eq_default _ _ (Nat.not_lt.mp hge)] at h
  exact hc h.symm

/-- "??--" has its second hyphen behind the first. -/
theorem hyphen34_next {label : WString} {c : WChar}
    (h : ¬ (label.getD 2 0 = 0x2d ∧ label.getD 3 0 = 0x2d))
    (hc : c = 0x2d → label.length = 3 → label.getLast? ≠ some 0x2d) :
    ¬ ((label ++ [c]).getD 2 0 = 0x2d ∧ (label ++ [c]).getD 3 0 = 0x2d) := by
  rintro ⟨h2, h3⟩
  have hlt := getD_ne_zero_lt (by decide) h3
  rw [List.length_append, List.length_singleton] at hlt
  rcases Nat.lt_or_eq_of_le (Nat.le_of_lt_succ hlt) with hlong | heq
  · rw [List.getD_append _ _ _ _ (by omega)] at h2 h3
    exact h ⟨h2, h3⟩
  · rw [List.getD_append _ _ _ _ (by omega)] at h2
    rw [List.getD_append_right _ _ _ _ (by omega), ← heq, Nat.sub_self] at h3
    refine hc h3 heq.symm ?_
    rw [List.getLast?_eq_getElem?, ← heq, ← h2, List.getD_eq_getElem?_getD,
      List.getElem?_eq_getElem (by omega)]
    rfl

theorem hyphen34_false (pre rest : WString) {text : WString}
    (h : ¬ (text.getD 2 0 = 0x2d ∧ text.getD 3 0 = 0x2d)) :
    (decide (4 ≤ text.length) && UCharPointer.at ⟨pre ++ text ++ rest, pre.length⟩ 2 == 0x2d &&
      UCharPointer.at ⟨pre ++ text ++ rest, pre.length⟩ 3 == 0x2d) = false := by
  by_cases hle : 4 ≤ text.length
  · have hat2 := at_text pre text rest (Nat.lt_of_succ_lt hle)
    have hat3 := at_text pre text rest hle
    simp only [Nat.cast_ofNat] at hat2 hat3
    rw [hat2, hat3, decide_eq_true hle, Bool.true_and]
    cases h2 : text.getD 2 0 == 0x2d with
    | false => rfl
    | true => exact beq_eq_false_iff_ne.mpr fun h3 => h ⟨eq_of_beq h2, h3⟩
  · rw [decide_eq_false hle]
    rfl

theorem pointer_eq {l : Label} {o : Output} {pre text rest : WString}
    (hbuffer : o.labelBuffer l.labelString = pre ++ text ++ rest)
    (hstart : l.labelStart = pre.length) : l.pointer o = ⟨pre ++ text ++ rest, pre.length⟩ := by
  rw [Label.pointer, hbuffer, hstart]

section

variable {l : Label} {o : Output} {pre text rest : WString}
  (hbuffer : o.labelBuffer l.labelString = pre ++ text ++ rest)
  (hstart : l.labelStart = pre.length) (hlength : l.labelLength = text.length)

include hbuffer hstart hlength

theorem hyphenErrors_clean (hne : text ≠ []) (h : (hyphenErrors l o).info.Clean) :
    text.head? ≠ some 0x2d ∧ text.getLast? ≠ some 0x2d ∧
      ¬ (text.getD 2 0 = 0x2d ∧ text.getD 3 0 = 0x2d) := by
  have hpos : 0 < text.length := List.length_pos_iff.mpr hne
  obtain ⟨h, htrailing⟩ := clean_addLabelErrorsIf (by decide) h
  obtain ⟨h, hleading⟩ := clean_addLabelErrorsIf (by decide) h
  obtain ⟨-, h34⟩ := clean_addLabelErrorsIf (by decide) h
  rw [pointer_eq hbuffer hstart] at htrailing hleading h34
  refine ⟨?_, ?_, ?_⟩
  · intro hhead
    rw [beq_eq_false_iff_ne] at hleading
    exact hleading ((at_first pre text rest hpos).trans (by rw [hhead]; rfl))
  · intro hlast
    rw [beq_eq_false_iff_ne, hlength] at htrailing
    exact htrailing ((at_last pre text rest hpos).trans (by rw [hlast]; rfl))
  · rintro ⟨h2, h3⟩
    have hlt := getD_ne_zero_lt (by decide) h3
    have hat2 := at_text pre text rest (Nat.lt_of_succ_lt hlt)
    have hat3 := at_text pre text rest hlt
    have hle : 4 ≤ l.labelLength := hlength ▸ hlt
    simp only [Nat.cast_ofNat] at hat2 hat3
    rw [hat2, hat3, h2, h3, decide_eq_true hle] at h34
    exact absurd h34 (by decide)

theorem hyphenErrors_ok (h : Checked options text) : hyphenErrors l o = o := by
  have hpos : 0 < text.length := List.length_pos_iff.mpr h.nonempty
  have h34 : (decide (4 ≤ l.labelLength) && (l.pointer o).at 2 == 0x2d &&
      (l.pointer o).at 3 == 0x2d) = false := by
    rw [hlength, pointer_eq hbuffer hstart]
    exact hyphen34_false pre rest h.hyphen34
  have hleading : ((l.pointer o).at 0 == 0x2d) = false := by
    rw [pointer_eq hbuffer hstart]
    refine beq_eq_false_iff_ne.mpr fun hat => h.leading ?_
    exact some_of_getD_ne (by decide) ((at_first pre text rest hpos).symm.trans hat)
  have htrailing : ((l.pointer o).at (l.labelLength - 1) == 0x2d) = false := by
    rw [pointer_eq hbuffer hstart, hlength]
    refine beq_eq_false_iff_ne.mpr fun hat => h.trailing ?_
    exact some_of_getD_ne (by decide) ((at_last pre text rest hpos).symm.trans hat)
  have hsame : ∀ e o', Output.addLabelErrorsIf o' false e = o' := fun _ _ => rfl
  rw [hyphenErrors]
  simp only [h34, hleading, htrailing, hsame]

end

theorem writeLabel_same (l : Label) (o : Output) :
    writeLabel (o.labelBuffer l.labelString) l o = (l, o) := by
  unfold writeLabel
  cases hl : l.labelString with
  | none =>
    cases o with
    | mk dest info errorCode => cases dest <;> rfl
  | some s =>
    cases l
    cases hl
    rfl

/-- The label does not start with a combining mark. -/
def Unmarked (props : CharacterProperties) (label : UCharPointer) : Prop :=
  (props.u_charType (U16_NEXT_UNSAFE label 0).1).mask &&& U_GC_M_MASK = 0

theorem leadingCombiningMark_clean {env : Environment} {l : Label} {o : Output}
    (h : (leadingCombiningMark env l o).2.info.Clean) :
    Unmarked env.toCharacterProperties (l.pointer o) := by
  by_contra hmark
  unfold Unmarked at hmark
  unfold leadingCombiningMark at h
  dsimp only at h
  rw [if_pos hmark] at h
  split at h <;> exact absurd h (not_clean_addLabelErrors (by decide) _)

theorem leadingCombiningMark_ok {env : Environment} {l : Label} {o : Output}
    (h : Unmarked env.toCharacterProperties (l.pointer o)) :
    leadingCombiningMark env l o = (l, o) := by
  unfold Unmarked at h
  unfold leadingCombiningMark
  dsimp only
  rw [if_neg (not_not.mpr h)]

/-- The info after the contextual checks. -/
def contextualInfo (env : Environment) (options : UInt32)
    (contextO : UCharPointer → Nat → IDNAInfo → IDNAInfo) (label : UCharPointer)
    (labelLength : Nat) (oredChars : WChar) (info : IDNAInfo) : IDNAInfo :=
  contextOBlock options contextO label labelLength oredChars
    ((bidiBlock env options label labelLength info).addLabelErrorsIf
      (options &&& UIDNA_CHECK_CONTEXTJ != 0 && oredChars &&& 0x200c == 0x200c &&
        !isLabelOkContextJ env.toCharacterProperties label labelLength)
      UIDNA_ERROR_CONTEXTJ)

section

variable {env : Environment} {contextO : UCharPointer → Nat → IDNAInfo → IDNAInfo}
  {l : Label} {o : Output} {pre text rest : WString}
  (hbuffer : o.labelBuffer l.labelString = pre ++ text ++ rest)
  (hstart : l.labelStart = pre.length) (hlength : l.labelLength = text.length)

include hbuffer hstart hlength

variable (contextO) in
/-- A label in order is encoded or put back as it is, with the contextual checks made. -/
theorem checkLabel_ok (hchecked : Checked options text)
    (hmark : Unmarked env.toCharacterProperties ⟨pre ++ text ++ rest, pre.length⟩)
    (hclean : o.info.labelErrors = 0) :
    let oredChars := text.foldl orNonASCII 0
    let o' : Output := { o with
      info := contextualInfo env options contextO ⟨pre ++ text ++ rest, pre.length⟩ text.length
        oredChars o.info }
    checkLabel env options contextO l o =
      if l.toASCII then encodeLabel env l oredChars o'
      else replaceLabel l.destLabelStart l.destLabelLength l.labelString l.labelLength o' := by
  have hzero : l.labelLength ≠ 0 := by
    rw [hlength]
    exact fun h => hchecked.nonempty (List.length_eq_zero_iff.mp h)
  have hunits : checkUnits options l.labelLength l.labelStart ⟨o.labelBuffer l.labelString, 0, o.info⟩ =
      ⟨o.labelBuffer l.labelString, text.foldl orNonASCII 0, o.info⟩ := by
    rw [hlength, hstart]
    exact checkUnits_ok pre text rest hbuffer hchecked.units
  have hpointer := pointer_eq hbuffer hstart
  have hsevere : o.info.labelErrors &&& severeErrors = 0 := by
    rw [hclean]
    rfl
  rw [checkLabel, if_neg hzero]
  simp only [hyphenErrors_ok hbuffer hstart hlength hchecked, hunits]
  rw [writeLabel_same l o, leadingCombiningMark_ok (hpointer.symm ▸ hmark), finishLabel,
    if_pos hsevere, ← hpointer, ← hlength]
  rfl

variable (options) in
/-- Without an error, the label is in order. -/
theorem checkLabel_clean
    (hcontext : ∀ label labelLength info, Grows info (contextO label labelLength info))
    (h : (checkLabel env options contextO l o).2.info.Clean) :
    Checked options text ∧
      Unmarked env.toCharacterProperties ⟨pre ++ text ++ rest, pre.length⟩ ∧ o.info.Clean := by
  by_cases hzero : l.labelLength = 0
  · rw [checkLabel, if_pos hzero, replaceLabel_info] at h
    exact absurd h (not_clean_addLabelErrors (by decide) _)
  · have hne : text ≠ [] := by
      rintro rfl
      exact hzero hlength
    have hbuffer' : (hyphenErrors l o).labelBuffer l.labelString = pre ++ text ++ rest := hbuffer
    rw [checkLabel, if_neg hzero] at h
    simp only at h
    have hmark := (finishLabel_grows env hcontext _ _ _).clean h
    have hwrite := (leadingCombiningMark_grows _ _ _).clean hmark
    have hclean : (checkUnits options l.labelLength l.labelStart
        ⟨(hyphenErrors l o).labelBuffer l.labelString, 0, (hyphenErrors l o).info⟩).info.Clean := by
      unfold writeLabel at hwrite
      cases hl : l.labelString with
      | none => simpa only [hl] using hwrite
      | some s => simpa only [hl] using hwrite
    have hhyphens := (checkUnits_grows _ _ _ _).clean hclean
    have hunits : ∀ c ∈ text, UnitOk options c := by
      rw [hlength, hstart] at hclean
      exact checkUnits_clean pre text rest hbuffer' hclean
    have hkept : checkUnits options l.labelLength l.labelStart
        ⟨(hyphenErrors l o).labelBuffer l.labelString, 0, (hyphenErrors l o).info⟩ =
          ⟨(hyphenErrors l o).labelBuffer l.labelString, text.foldl orNonASCII 0,
            (hyphenErrors l o).info⟩ := by
      rw [hlength, hstart]
      exact checkUnits_ok pre text rest hbuffer' hunits
    rw [hkept] at hmark
    have hsame := writeLabel_same l (hyphenErrors l o)
    simp only at hmark
    rw [hsame] at hmark
    have hunmarked := leadingCombiningMark_clean hmark
    rw [pointer_eq hbuffer' hstart] at hunmarked
    obtain ⟨hleading, htrailing, h34⟩ := hyphenErrors_clean hbuffer hstart hlength hne hhyphens
    exact ⟨⟨hne, hunits, hleading, htrailing, h34⟩, hunmarked, (hyphenErrors_grows l o).clean hhyphens⟩

end

/-! ## With the Punycode functions -/

/-- The surroundings with `punycode.cpp`. -/
def Environment.withPunycode (env : Environment) : Environment :=
  { env with
    u_strFromPunycode := Punycode.u_strFromPunycode
    u_strToPunycode := Punycode.u_strToPunycode }

theorem fromPunycode_fills {env : Environment} {label : WString}
    (h : U_FAILURE (fromPunycode env.withPunycode label).2 = false) :
    Fills (u_strFromPunycode label) (.ok (fromPunycode env.withPunycode label).1) := by
  have hcall : ∃ capacity,
      (fromPunycode env.withPunycode label).1 =
          (u_strFromPunycode label capacity U_ZERO_ERROR).written.take
            (u_strFromPunycode label capacity U_ZERO_ERROR).length ∧
        (fromPunycode env.withPunycode label).2 =
          (u_strFromPunycode label capacity U_ZERO_ERROR).errorCode := by
    unfold fromPunycode
    simp only
    split
    · exact ⟨_, rfl, rfl⟩
    · exact ⟨_, rfl, rfl⟩
  obtain ⟨capacity, htext, hcode⟩ := hcall
  obtain ⟨r, hfills, -⟩ := u_strFromPunycode_fills label
  have hzero : U_SUCCESS U_ZERO_ERROR = true := rfl
  rw [hcode] at h
  rw [htext, ← hfills.success hzero (success_of_not_failure h)]
  exact hfills

/-- With room for the text, it is there after the second call at the latest. -/
theorem fromPunycode_of_fills (env : Environment) {label text : WString}
    (hfills : Fills (u_strFromPunycode label) (.ok text))
    (hroom : text.length ≤ env.stackCapacity ∨ ∀ n, n ≤ env.capacity n) :
    (fromPunycode env.withPunycode label).1 = text ∧
      U_FAILURE (fromPunycode env.withPunycode label).2 = false := by
  have hzero : U_SUCCESS U_ZERO_ERROR = true := rfl
  have hcall : ∀ capacity, text.length ≤ capacity →
      U_FAILURE (u_strFromPunycode label capacity U_ZERO_ERROR).errorCode = false ∧
        (u_strFromPunycode label capacity U_ZERO_ERROR).written.take
          (u_strFromPunycode label capacity U_ZERO_ERROR).length = text := by
    intro capacity hle
    have hwritten := (hfills capacity U_ZERO_ERROR hzero).2
    rw [if_pos hle] at hwritten
    exact ⟨not_failure hwritten.1, hwritten.2⟩
  by_cases hle : text.length ≤ env.stackCapacity
  · obtain ⟨hcode, hwritten⟩ := hcall env.stackCapacity hle
    have hover : (u_strFromPunycode label env.stackCapacity U_ZERO_ERROR).errorCode ≠
        U_BUFFER_OVERFLOW_ERROR := by
      intro heq
      rw [heq] at hcode
      exact absurd hcode (by decide)
    have hfrom : fromPunycode env.withPunycode label =
        ((u_strFromPunycode label env.stackCapacity U_ZERO_ERROR).written.take
          (u_strFromPunycode label env.stackCapacity U_ZERO_ERROR).length,
          (u_strFromPunycode label env.stackCapacity U_ZERO_ERROR).errorCode) := by
      have hfirst : ¬ (env.withPunycode.u_strFromPunycode label env.withPunycode.stackCapacity
        U_ZERO_ERROR).errorCode = U_BUFFER_OVERFLOW_ERROR := hover
      simp only [fromPunycode, if_neg hfirst]
      rfl
    rw [hfrom]
    exact ⟨hwritten, hcode⟩
  · have hover := (hfills env.stackCapacity U_ZERO_ERROR hzero).2
    rw [if_neg hle] at hover
    have hlength : (u_strFromPunycode label env.stackCapacity U_ZERO_ERROR).length = text.length :=
      (hfills env.stackCapacity U_ZERO_ERROR hzero).1
    obtain ⟨hcode, hwritten⟩ := hcall (env.capacity text.length) (hroom.resolve_left hle _)
    have hfrom : fromPunycode env.withPunycode label =
        ((u_strFromPunycode label (env.capacity text.length) U_ZERO_ERROR).written.take
          (u_strFromPunycode label (env.capacity text.length) U_ZERO_ERROR).length,
          (u_strFromPunycode label (env.capacity text.length) U_ZERO_ERROR).errorCode) := by
      have hfirst : (env.withPunycode.u_strFromPunycode label env.withPunycode.stackCapacity
        U_ZERO_ERROR).errorCode = U_BUFFER_OVERFLOW_ERROR := hover
      simp only [fromPunycode, if_pos hfirst]
      rw [← hlength]
      rfl
    rw [hfrom]
    exact ⟨hwritten, hcode⟩

theorem toPunycode_fills {env : Environment} {label : WString} {errorCode : UErrorCode}
    (hsuccess : U_SUCCESS errorCode = true)
    (h : U_FAILURE (toPunycode env.withPunycode label errorCode).2.2 = false) :
    ∃ text, Fills (u_strToPunycode label) (.ok text) ∧
      (toPunycode env.withPunycode label errorCode).1 = xnDashDash ++ text ∧
      (toPunycode env.withPunycode label errorCode).2.1 = (xnDashDash ++ text).length := by
  have hcall : ∃ capacity code, U_SUCCESS code = true ∧
      toPunycode env.withPunycode label errorCode =
        ((xnDashDash ++ (u_strToPunycode label capacity code).written).take
            ((u_strToPunycode label capacity code).length + 4),
          (u_strToPunycode label capacity code).length + 4,
          (u_strToPunycode label capacity code).errorCode) := by
    unfold toPunycode
    simp only
    split
    · exact ⟨_, U_ZERO_ERROR, rfl, rfl⟩
    · exact ⟨_, errorCode, hsuccess, rfl⟩
  obtain ⟨capacity, code, hcode, hcall⟩ := hcall
  obtain ⟨r, hfills, -⟩ := u_strToPunycode_fills label
  rw [hcall] at h ⊢
  obtain rfl := hfills.success hcode (success_of_not_failure h)
  have hlength := (hfills capacity code hcode).1
  have hfour : xnDashDash.length = 4 := rfl
  generalize u_strToPunycode label capacity code = r at *
  refine ⟨_, hfills, ?_, ?_⟩
  · show (xnDashDash ++ r.written).take (r.length + 4) = xnDashDash ++ r.written.take r.length
    rw [List.take_append, hfour, Nat.add_sub_cancel, List.take_of_length_le (by rw [hfour]; omega)]
  · show r.length + 4 = (xnDashDash ++ r.written.take r.length).length
    rw [List.length_append, ← hlength, hfour, Nat.add_comm]

/-- A dot among the digits would be in the text. -/
theorem noDot_ace {digits text : WString} (hfills : Fills (u_strFromPunycode digits) (.ok text))
    (htext : 0x2e ∉ text) : 0x2e ∉ xnDashDash ++ digits := by
  intro hdot
  rcases List.mem_append.mp hdot with hdot | hdot
  · exact absurd hdot (by decide)
  · exact htext (mem_of_decoded hfills hdot (by decide) (by decide))

theorem replaceLabel_units {o : Output} {pre label rest label' : WString} {labelLength : Nat}
    (hunits : o.dest.units = pre ++ label ++ rest) (hcode : U_FAILURE o.errorCode = false)
    {r : Nat × Output}
    (hr : replaceLabel pre.length label.length (some label') labelLength o = r)
    (hsuccess : U_FAILURE r.2.errorCode = false) :
    r = (labelLength, { o with dest := .text (pre ++ label' ++ rest) }) := by
  unfold replaceLabel at hr
  simp only [hcode, Bool.false_eq_true, if_false] at hr
  cases hd : o.dest with
  | bogus =>
    simp only [hd, UnicodeString.replace, isBogus, if_true] at hr
    rw [← hr] at hsuccess
    have hmemory : U_FAILURE U_MEMORY_ALLOCATION_ERROR = false := hsuccess
    exact absurd hmemory (by decide)
  | text s =>
    rw [hd, units] at hunits
    simp only [hd, UnicodeString.replace, isBogus, Bool.false_eq_true, if_false] at hr
    rw [← hr, hunits]
    simp

section

variable {env : Environment} {contextO : UCharPointer → Nat → IDNAInfo → IDNAInfo}
  (hcontext : ∀ label labelLength info, Grows info (contextO label labelLength info))
  {o : Output} {pre label rest : WString} (hunits : o.dest.units = pre ++ label ++ rest)
  {r : Nat × Output}

include hcontext hunits

/-- An ACE label stays as it is, with its Unicode form checked. -/
theorem aceLabel_toASCII (hx : xnDashDash <+: label) {text : WString}
    (htext : (fromPunycode env.withPunycode (label.drop 4)).1 = text)
    (hdecoded : U_FAILURE (fromPunycode env.withPunycode (label.drop 4)).2 = false)
    (hr : checkLabel env.withPunycode options contextO
      ⟨some text, 0, text.length, pre.length, label.length, true⟩ o = r)
    (hclean : r.2.info.Clean) :
    Fills (u_strFromPunycode (label.drop 4)) (.ok text) ∧ Checked options text ∧
      Unmarked env.toCharacterProperties ⟨text, 0⟩ ∧ o.info.Clean ∧
      r.2.info = contextualInfo env.withPunycode options contextO ⟨text, 0⟩ text.length
        (text.foldl orNonASCII 0) o.info ∧
      label.length ≤ 63 ∧ 0x2e ∉ label ∧ r.1 = label.length ∧
      r.2.dest.units = pre ++ label ++ rest := by
  have hfills := fromPunycode_fills hdecoded
  rw [htext] at hfills
  have hbuffer : text = [] ++ text ++ [] := (List.append_nil text).symm
  obtain ⟨hchecked, hmark, hinfo⟩ := checkLabel_clean options
    (l := ⟨some text, 0, text.length, pre.length, label.length, true⟩) (o := o)
    hbuffer rfl rfl hcontext (hr ▸ hclean)
  have hencode := checkLabel_ok (l := ⟨some text, 0, text.length, pre.length, label.length, true⟩)
    (o := o) contextO hbuffer rfl rfl hchecked hmark hinfo.2
  simp only [if_true, encodeLabel, Label.wasPunycode, Option.isSome_some] at hencode
  rw [← hbuffer, List.length_nil] at hmark hencode
  rw [hr] at hencode
  rw [hencode] at hclean ⊢
  obtain ⟨-, hlength⟩ := clean_addLabelErrorsIf (by decide) hclean
  have hcut : label = xnDashDash ++ label.drop 4 := by
    obtain ⟨t, rfl⟩ := hx
    rfl
  have hdot : 0x2e ∉ label := by
    rw [hcut]
    exact noDot_ace hfills hchecked.noDot
  refine ⟨hfills, hchecked, hmark, hinfo, ?_, ?_, hdot, rfl, hunits⟩
  · rw [hlength]
    rfl
  · exact Nat.not_lt.mp (of_decide_eq_false hlength)

/-- Any other label stays as it is if it is ASCII, and otherwise becomes an ACE label. -/
theorem plainLabel_toASCII (hcode : U_FAILURE o.errorCode = false)
    (hr : checkLabel env.withPunycode options contextO
      ⟨none, pre.length, label.length, pre.length, label.length, true⟩ o = r)
    (hclean : r.2.info.Clean) (hsuccess : U_FAILURE r.2.errorCode = false) :
    Checked options label ∧
      Unmarked env.toCharacterProperties ⟨pre ++ label ++ rest, pre.length⟩ ∧ o.info.Clean ∧
      r.2.info = contextualInfo env.withPunycode options contextO
        ⟨pre ++ label ++ rest, pre.length⟩ label.length (label.foldl orNonASCII 0) o.info ∧
      ∃ label', r.1 = label'.length ∧ label'.length ≤ 63 ∧
        r.2.dest.units = pre ++ label' ++ rest ∧
        ((IsASCII label ∧ label' = label) ∨
          ¬ IsASCII label ∧ ∃ text, Fills (u_strToPunycode label) (.ok text) ∧
            label' = xnDashDash ++ text) := by
  obtain ⟨hchecked, hmark, hinfo⟩ := checkLabel_clean options
    (l := ⟨none, pre.length, label.length, pre.length, label.length, true⟩) (o := o)
    hunits rfl rfl hcontext (hr ▸ hclean)
  have hencode := checkLabel_ok (l := ⟨none, pre.length, label.length, pre.length, label.length, true⟩)
    (o := o) contextO hunits rfl rfl hchecked hmark hinfo.2
  simp only [if_true] at hencode
  rw [hr] at hencode
  generalize ho' : ({ o with
    info := contextualInfo env.withPunycode options contextO ⟨pre ++ label ++ rest, pre.length⟩
      label.length (label.foldl orNonASCII 0) o.info } : Output) = o' at hencode
  have hunits' : o'.dest.units = pre ++ label ++ rest := by rw [← ho', hunits]
  have hcode' : U_FAILURE o'.errorCode = false := by rw [← ho', hcode]
  refine ⟨hchecked, hmark, hinfo, ?_⟩
  have hinfo' : o'.info = contextualInfo env.withPunycode options contextO
      ⟨pre ++ label ++ rest, pre.length⟩ label.length (label.foldl orNonASCII 0) o.info := by
    rw [← ho']
  rw [← hinfo']
  simp only [encodeLabel, Label.wasPunycode, Option.isSome_none, Bool.false_eq_true,
    if_false] at hencode
  have hshort : ∀ (n : Nat) (o'' : Output),
      (o''.addLabelErrorsIf (decide (63 < n)) UIDNA_ERROR_LABEL_TOO_LONG).info.Clean →
      n ≤ 63 ∧ (o''.addLabelErrorsIf (decide (63 < n)) UIDNA_ERROR_LABEL_TOO_LONG).info = o''.info := by
    intro n o'' h
    have hnot := (clean_addLabelErrorsIf (by decide) h).2
    rw [hnot]
    rw [decide_eq_false_iff_not, Nat.not_lt] at hnot
    exact ⟨hnot, rfl⟩
  by_cases hored : 0x80 ≤ label.foldl orNonASCII 0
  · have hascii : ¬ IsASCII label := fun hascii =>
      UInt16.not_lt.mpr hored ((foldl_orNonASCII_lt_iff label 0).mpr ⟨by decide, hascii⟩)
    have htake : UCharPointer.take (Label.pointer
        ⟨none, pre.length, label.length, pre.length, label.length, true⟩ o') label.length =
          label := by
      rw [UCharPointer.take, Label.pointer, Output.labelBuffer, hunits']
      simp
    rw [if_pos hored, htake] at hencode
    cases hf : U_FAILURE (toPunycode env.withPunycode label o'.errorCode).2.2 with
    | true =>
      rw [hf, if_pos rfl] at hencode
      rw [hencode] at hsuccess
      exact absurd (hf.symm.trans hsuccess) (by decide)
    | false =>
      obtain ⟨text, hfills, htext, hlength⟩ := toPunycode_fills (success_of_not_failure hcode') hf
      rw [hf, if_neg Bool.false_ne_true, htext, hlength] at hencode
      have hput := replaceLabel_units (o := ({ o' with
          errorCode := (toPunycode env.withPunycode label o'.errorCode).2.2 } :
            Output).addLabelErrorsIf (decide (63 < (xnDashDash ++ text).length))
              UIDNA_ERROR_LABEL_TOO_LONG) hunits' hf hencode.symm hsuccess
      rw [hput] at hclean ⊢
      obtain ⟨hle, hsame⟩ := hshort _ _ hclean
      exact ⟨hsame, _, rfl, hle, rfl, Or.inr ⟨hascii, text, hfills, rfl⟩⟩
  · have hascii : IsASCII label :=
      ((foldl_orNonASCII_lt_iff label 0).mp (UInt16.not_le.mp hored)).2
    have hcode'' : U_FAILURE (o'.addLabelErrorsIf (decide (63 < label.length))
        UIDNA_ERROR_LABEL_TOO_LONG).errorCode = false := hcode'
    rw [if_neg hored, replaceLabel, hcode'', if_neg Bool.false_ne_true] at hencode
    rw [hencode] at hclean ⊢
    obtain ⟨hle, hsame⟩ := hshort _ _ hclean
    exact ⟨hsame, label, rfl, hle, hunits', Or.inl ⟨hascii, rfl⟩⟩

end

end

end SearchAndIdna.Uts46
