import SearchAndIdna.LabelByLabel

/-!
# Changes of the info that labels do not notice

Two runs over a name may differ in what their info says of labels processed before: in
`isOkBiDi`, in `isTransDiff`, in an error found twice.  A label is processed alike in
both, and the difference stays what it was.

* `mapInfo_processLabel`, `mapInfo_eachLabel`: such a change may be made before or
  after;
* `Unnoticed`: what makes a change such a one, and the ones there are.
-/

namespace SearchAndIdna.Uts46

open UnicodeString

/-- The output with another info. -/
def Output.mapInfo (T : IDNAInfo → IDNAInfo) (o : Output) : Output := { o with info := T o.info }

def mapInfoResult {α : Type} (T : IDNAInfo → IDNAInfo) (r : α × Output) : α × Output :=
  (r.1, r.2.mapInfo T)

theorem map_addLabelErrorsIf {T : IDNAInfo → IDNAInfo}
    (hT : ∀ info e, T (info.addLabelErrors e) = (T info).addLabelErrors e) (info : IDNAInfo)
    (bad : Bool) (e : UInt32) : T (info.addLabelErrorsIf bad e) = (T info).addLabelErrorsIf bad e := by
  cases bad with
  | false => rfl
  | true => exact hT info e

/-- A change of the info that no step of `processLabel` notices. -/
structure Unnoticed (env : Environment) (options : UInt32)
    (contextO : UCharPointer → Nat → IDNAInfo → IDNAInfo) (T : IDNAInfo → IDNAInfo) : Prop where
  addLabelErrors : ∀ info e, T (info.addLabelErrors e) = (T info).addLabelErrors e
  severe : ∀ info, (T info).labelErrors &&& severeErrors = info.labelErrors &&& severeErrors
  contextual : ∀ label labelLength oredChars info,
    T (contextualInfo env options contextO label labelLength oredChars info) =
      contextualInfo env options contextO label labelLength oredChars (T info)

section

variable {env : Environment} {options : UInt32}
  {contextO : UCharPointer → Nat → IDNAInfo → IDNAInfo} {T : IDNAInfo → IDNAInfo}
  (hT : Unnoticed env options contextO T)

include hT

theorem mapInfo_addLabelErrors (o : Output) (e : UInt32) :
    (o.addLabelErrors e).mapInfo T = (o.mapInfo T).addLabelErrors e := by
  simp [Output.mapInfo, Output.addLabelErrors, hT.addLabelErrors]

theorem mapInfo_addLabelErrorsIf (o : Output) (bad : Bool) (e : UInt32) :
    (o.addLabelErrorsIf bad e).mapInfo T = (o.mapInfo T).addLabelErrorsIf bad e := by
  simp [Output.mapInfo, Output.addLabelErrorsIf, map_addLabelErrorsIf hT.addLabelErrors]

omit hT in
@[simp]
theorem pointer_mapInfo (l : Label) (o : Output) : l.pointer (o.mapInfo T) = l.pointer o := by
  unfold Label.pointer Output.labelBuffer
  cases l.labelString <;> rfl

omit hT in
theorem mapInfo_replaceLabel (destLabelStart destLabelLength : Nat) (label : Option WString)
    (labelLength : Nat) (o : Output) :
    mapInfoResult T (replaceLabel destLabelStart destLabelLength label labelLength o) =
      replaceLabel destLabelStart destLabelLength label labelLength (o.mapInfo T) := by
  unfold replaceLabel
  refine map_ite (mapInfoResult T) (fun _ => rfl) (fun _ => ?_)
  cases label with
  | none => rfl
  | some label => exact map_ite (mapInfoResult T) (fun _ => rfl) (fun _ => rfl)

/-! ## The steps -/

theorem mapInfo_markUnit (c : WChar) (s : Nat) (st : BadACE) :
    markUnit options c s { st with info := T st.info } =
      { markUnit options c s st with info := T (markUnit options c s st).info } := by
  unfold markUnit
  by_cases hc : c ≤ 0x7f
  · by_cases hd : c = 0x2e
    · simp [hd, hT.addLabelErrors]
    · by_cases ha : asciiData c < 0
      · cases disallowNonLDHDot options <;> simp [hc, hd, ha]
      · simp [hc, hd, ha]
  · simp [hc]

theorem mapInfo_markUnits (n s : Nat) (st : BadACE) :
    markUnits options n s { st with info := T st.info } =
      { markUnits options n s st with info := T (markUnits options n s st).info } := by
  induction n generalizing s st with
  | zero => rfl
  | succ n ih =>
    unfold markUnits
    rw [mapInfo_markUnit hT, ih]

theorem mapInfo_markBadACELabel (labelStart labelLength : Nat) (toASCII : Bool) (o : Output) :
    mapInfoResult T (markBadACELabel options labelStart labelLength toASCII o) =
      markBadACELabel options labelStart labelLength toASCII (o.mapInfo T) := by
  have hunits := mapInfo_markUnits hT (max 1 (labelLength - 4)) (labelStart + 4)
    ⟨o.dest.units, true, true, o.info⟩
  unfold markBadACELabel
  refine map_ite (mapInfoResult T) (fun _ => rfl) (fun _ => ?_)
  simp only [Output.mapInfo, hunits]
  generalize markUnits options (max 1 (labelLength - 4)) (labelStart + 4)
    ⟨o.dest.units, true, true, o.info⟩ = st
  refine map_ite (mapInfoResult T) (fun _ => ?_) (fun _ => ?_)
  · exact map_ite (mapInfoResult T) (fun _ => rfl) (fun _ => rfl)
  · rw [mapInfoResult, mapInfo_addLabelErrorsIf hT]
    rfl

theorem mapInfo_hyphenErrors (l : Label) (o : Output) :
    (hyphenErrors l o).mapInfo T = hyphenErrors l (o.mapInfo T) := by
  unfold hyphenErrors
  simp only [pointer_mapInfo, mapInfo_addLabelErrorsIf hT]

theorem mapInfo_checkUnit (c : WChar) (s : Nat) (st : Validity) :
    checkUnit options c s { st with info := T st.info } =
      { checkUnit options c s st with info := T (checkUnit options c s st).info } := by
  unfold checkUnit
  by_cases hc : c ≤ 0x7f
  · by_cases hd : c = 0x2e
    · simp [hd, hT.addLabelErrors]
    · cases disallowNonLDHDot options && decide (asciiData c < 0) with
      | true => simp [hc, hd, hT.addLabelErrors]
      | false => simp [hc, hd]
  · cases disallowNonLDHDot options && isNonASCIIDisallowedSTD3Valid c with
    | true => simp [hc, hT.addLabelErrors]
    | false => simp [hc, map_addLabelErrorsIf hT.addLabelErrors]

theorem mapInfo_checkUnits (n s : Nat) (st : Validity) :
    checkUnits options n s { st with info := T st.info } =
      { checkUnits options n s st with info := T (checkUnits options n s st).info } := by
  induction n generalizing s st with
  | zero => rfl
  | succ n ih =>
    unfold checkUnits
    rw [mapInfo_checkUnit hT, ih]

omit hT in
theorem mapInfo_writeLabel (buffer : WString) (l : Label) (o : Output) :
    mapInfoResult T (writeLabel buffer l o) = writeLabel buffer l (o.mapInfo T) := by
  unfold writeLabel
  cases l.labelString with
  | none => rfl
  | some s => rfl

theorem mapInfo_leadingCombiningMark (l : Label) (o : Output) :
    mapInfoResult T (leadingCombiningMark env l o) = leadingCombiningMark env l (o.mapInfo T) := by
  unfold leadingCombiningMark
  simp only [pointer_mapInfo, ← mapInfo_addLabelErrors hT]
  refine map_ite (mapInfoResult T) (fun _ => ?_) (fun _ => rfl)
  cases l.labelString with
  | none => rfl
  | some s => rfl

theorem mapInfo_markedLabel (l : Label) (o : Output) :
    markedLabel env options l (o.mapInfo T) =
      ((markedLabel env options l o).1, mapInfoResult T (markedLabel env options l o).2) := by
  unfold markedLabel
  rw [← mapInfo_hyphenErrors hT]
  generalize hyphenErrors l o = o
  have hbuffer : (o.mapInfo T).labelBuffer l.labelString = o.labelBuffer l.labelString := by
    cases l.labelString <;> rfl
  have hunits := mapInfo_checkUnits hT l.labelLength l.labelStart
    ⟨o.labelBuffer l.labelString, 0, o.info⟩
  simp only [hbuffer]
  have hinfo : (o.mapInfo T).info = T o.info := rfl
  rw [hinfo]
  generalize checkUnits options l.labelLength l.labelStart
    ⟨o.labelBuffer l.labelString, 0, o.info⟩ = st at hunits
  simp only [hunits]
  have hwrite := mapInfo_writeLabel (T := T) st.buffer l { o with info := st.info }
  have hwrite' : writeLabel st.buffer l { o.mapInfo T with info := T st.info } =
      mapInfoResult T (writeLabel st.buffer l { o with info := st.info }) := hwrite.symm
  rw [hwrite', mapInfo_leadingCombiningMark hT]
  rfl

theorem mapInfo_encodeLabel (l : Label) (oredChars : WChar) (o : Output) :
    mapInfoResult T (encodeLabel env l oredChars o) = encodeLabel env l oredChars (o.mapInfo T) := by
  unfold encodeLabel
  simp only [pointer_mapInfo]
  refine map_ite (mapInfoResult T) (fun _ => ?_) (fun _ => ?_)
  · rw [mapInfoResult, mapInfo_addLabelErrorsIf hT]
  · refine map_ite (mapInfoResult T) (fun _ => ?_) (fun _ => ?_)
    · refine map_ite (mapInfoResult T) (fun _ => rfl) (fun _ => ?_)
      rw [mapInfo_replaceLabel, mapInfo_addLabelErrorsIf hT]
      rfl
    · rw [mapInfo_replaceLabel, mapInfo_addLabelErrorsIf hT]

theorem mapInfo_finishLabel (l : Label) (oredChars : WChar) (o : Output) :
    mapInfoResult T (finishLabel env options contextO l oredChars o) =
      finishLabel env options contextO l oredChars (o.mapInfo T) := by
  have hchecks : (contextualChecks env options contextO l oredChars o).mapInfo T =
      contextualChecks env options contextO l oredChars (o.mapInfo T) := by
    unfold contextualChecks
    simp only [pointer_mapInfo]
    exact congrArg (fun info => ({ o with info := info } : Output)) (hT.contextual _ _ _ _)
  have hsevere : (o.mapInfo T).info.labelErrors &&& severeErrors =
      o.info.labelErrors &&& severeErrors := hT.severe o.info
  unfold finishLabel
  rw [hsevere]
  refine map_ite (mapInfoResult T) (fun _ => ?_) (fun _ => ?_)
  · simp only [← hchecks]
    refine map_ite (mapInfoResult T) (fun _ => mapInfo_encodeLabel hT l oredChars _) (fun _ => ?_)
    exact mapInfo_replaceLabel _ _ _ _ _
  · refine map_ite (mapInfoResult T) (fun _ => ?_) (fun _ => mapInfo_replaceLabel _ _ _ _ _)
    rw [mapInfo_markBadACELabel hT, mapInfo_addLabelErrors hT]

theorem mapInfo_checkLabel (l : Label) (o : Output) :
    mapInfoResult T (checkLabel env options contextO l o) =
      checkLabel env options contextO l (o.mapInfo T) := by
  rw [checkLabel_eq, checkLabel_eq]
  refine map_ite (mapInfoResult T) (fun _ => ?_) (fun _ => ?_)
  · rw [mapInfo_replaceLabel, mapInfo_addLabelErrors hT]
  · rw [mapInfo_markedLabel hT, mapInfo_finishLabel hT]
    rfl

/-- `processLabel` does not notice the change. -/
theorem mapInfo_processLabel (labelStart labelLength : Nat) (toASCII : Bool) (o : Output) :
    mapInfoResult T (processLabel env options contextO labelStart labelLength toASCII o) =
      processLabel env options contextO labelStart labelLength toASCII (o.mapInfo T) := by
  unfold processLabel
  refine map_ite (mapInfoResult T) (fun _ => rfl) (fun _ => ?_)
  refine map_ite (mapInfoResult T) (fun _ => ?_) (fun _ => mapInfo_checkLabel hT _ _)
  refine map_ite (mapInfoResult T) (fun _ => ?_) (fun _ => ?_)
  · rw [mapInfo_markBadACELabel hT, mapInfo_addLabelErrors hT]
  · refine map_ite (mapInfoResult T) (fun _ => rfl) (fun _ => ?_)
    refine map_ite (mapInfoResult T) (fun _ => mapInfo_checkLabel hT _ _) (fun _ => ?_)
    rw [mapInfo_markBadACELabel hT, mapInfo_addLabelErrors hT]
    rfl

theorem mapInfo_labelAlone (toASCII : Bool) (label : WString) (o : Output) :
    mapInfoResult T (labelAlone env options contextO toASCII label o) =
      labelAlone env options contextO toASCII label (o.mapInfo T) :=
  mapInfo_processLabel hT _ _ _ _

end

/-- A change that is still there when the next label starts. -/
structure Lasting (T : IDNAInfo → IDNAInfo) : Prop where
  endLabel : ∀ info, T info.endLabel = (T info).endLabel
  lastLabel : ∀ info, T (info.addErrors info.labelErrors) = (T info).addErrors (T info).labelErrors
  transDiff : ∀ info, T { info with isTransDiff := true } = { T info with isTransDiff := true }

theorem mapInfo_scanned {T : IDNAInfo → IDNAInfo} (hlasting : Lasting T) (label : WString)
    (o : Output) : (scanned label o).mapInfo T = scanned label (o.mapInfo T) := by
  unfold scanned
  refine map_ite (Output.mapInfo T) (fun _ => ?_) (fun _ => rfl)
  exact congrArg (fun info => ({ o with info := info } : Output)) (hlasting.transDiff o.info)

/-- Nor does any label of a name. -/
theorem mapInfo_eachLabel {env : Environment} {options : UInt32}
    {contextO : UCharPointer → Nat → IDNAInfo → IDNAInfo} {T : IDNAInfo → IDNAInfo}
    (hT : Unnoticed env options contextO T) (hlasting : Lasting T) (toASCII only : Bool)
    (labels : List WString) (last : WString) (o : Output) :
    (eachLabel env options contextO toASCII only labels last o).mapInfo T =
      eachLabel env options contextO toASCII only labels last (o.mapInfo T) := by
  induction labels generalizing only o with
  | nil =>
    unfold eachLabel
    have hscan := mapInfo_scanned hlasting last { o with dest := .text last }
    have hscan' : scanned last { o.mapInfo T with dest := .text last } =
        (scanned last { o with dest := .text last }).mapInfo T := hscan.symm
    rw [hscan']
    refine map_ite (Output.mapInfo T) (fun _ => ?_) (fun _ => rfl)
    rw [← mapInfo_labelAlone hT]
    exact congrArg (fun info => ({ (labelAlone env options contextO toASCII last
      (scanned last { o with dest := .text last })).2 with info := info } : Output))
      (hlasting.lastLabel _)
  | cons label labels ih =>
    unfold eachLabel
    simp only
    rw [← mapInfo_scanned hlasting, ← mapInfo_labelAlone hT]
    have hend : ∀ r : Nat × Output, (mapInfoResult T r).2.endLabel = r.2.endLabel.mapInfo T :=
      fun r => congrArg (fun info => ({ r.2 with info := info } : Output))
        (hlasting.endLabel r.2.info).symm
    rw [hend]
    refine map_ite (Output.mapInfo T) (fun _ => rfl) (fun _ => ?_)
    rw [← ih]
    rfl

/-! ## The changes -/

/-- A check of CONTEXTO that only adds errors of the label. -/
def AddsErrors (contextO : UCharPointer → Nat → IDNAInfo → IDNAInfo) : Prop :=
  ∀ T : IDNAInfo → IDNAInfo,
    (∀ info e, T (info.addLabelErrors e) = (T info).addLabelErrors e) →
    ∀ label labelLength info, T (contextO label labelLength info) = contextO label labelLength (T info)

/-- That of `icu_demo`, which does nothing. -/
theorem addsErrors_none : AddsErrors fun _ _ info => info := fun _ _ _ _ _ => rfl

/-- That of `common`. -/
theorem addsErrors_checkLabelContextO (props : CharacterProperties) :
    AddsErrors (checkLabelContextO props) := by
  intro T hT label labelLength info
  have hat : ∀ (i arabicDigits : Int) (info : IDNAInfo),
      contextOAt props label labelLength i arabicDigits (T info) =
        ((contextOAt props label labelLength i arabicDigits info).1,
          T (contextOAt props label labelLength i arabicDigits info).2) := by
    intro i arabicDigits info
    unfold contextOAt
    simp only
    repeat' split
    all_goals simp only [map_addLabelErrorsIf hT]
  have hfrom : ∀ (n : Nat) (i arabicDigits : Int) (info : IDNAInfo),
      T (checkLabelContextOFrom props label labelLength n i arabicDigits info) =
        checkLabelContextOFrom props label labelLength n i arabicDigits (T info) := by
    intro n
    induction n with
    | zero => exact fun _ _ _ => rfl
    | succ n ih =>
      intro i arabicDigits info
      unfold checkLabelContextOFrom
      rw [hat]
      exact ih _ _ _
  exact hfrom labelLength 0 0 info

/-- Such a check does not look at the errors found before. -/
theorem AddsErrors.eq {contextO : UCharPointer → Nat → IDNAInfo → IDNAInfo} (h : AddsErrors contextO)
    (label : UCharPointer) (labelLength : Nat) (info : IDNAInfo) :
    contextO label labelLength info =
      info.addLabelErrors (contextO label labelLength .reset).labelErrors := by
  have hadd : ∀ (info' : IDNAInfo) (e : UInt32),
      info.addLabelErrors (info'.addLabelErrors e).labelErrors =
        (info.addLabelErrors info'.labelErrors).addLabelErrors e := by
    intro info' e
    simp only [IDNAInfo.addLabelErrors, UInt32.or_assoc]
  have hreset : info.addLabelErrors IDNAInfo.reset.labelErrors = info := by
    simp only [IDNAInfo.addLabelErrors, IDNAInfo.reset, UInt32.or_zero]
  have hcheck := h (fun info' => info.addLabelErrors info'.labelErrors) hadd label labelLength .reset
  rw [hreset] at hcheck
  exact hcheck.symm

theorem AddsErrors.grows {contextO : UCharPointer → Nat → IDNAInfo → IDNAInfo}
    (h : AddsErrors contextO) (label : UCharPointer) (labelLength : Nat) (info : IDNAInfo) :
    IDNAInfo.Grows info (contextO label labelLength info) := by
  rw [h.eq]
  exact IDNAInfo.grows_addLabelErrors _ _

theorem IsCopy.addsErrors {env : Environment} {contextO : UCharPointer → Nat → IDNAInfo → IDNAInfo}
    (h : IsCopy env contextO) : AddsErrors contextO := by
  rcases h with rfl | rfl
  · exact addsErrors_none
  · exact addsErrors_checkLabelContextO _

/-- A label before was not in order. -/
def andOkBiDi (b : Bool) (info : IDNAInfo) : IDNAInfo := { info with isOkBiDi := info.isOkBiDi && b }

/-- A deviation character was there, or not. -/
def withTransDiff (b : Bool) (info : IDNAInfo) : IDNAInfo := { info with isTransDiff := b }

/-- The error `e` was found before. -/
def foundBefore (e : UInt32) (info : IDNAInfo) : IDNAInfo := (info.addErrors e).addLabelErrors e

theorem map_checkLabelBiDi {T : IDNAInfo → IDNAInfo}
    (hnot : ∀ info bad, T (info.notOkBiDiIf bad) = (T info).notOkBiDiIf bad)
    (hbidi : ∀ info : IDNAInfo, T { info with isBiDi := true } = { T info with isBiDi := true })
    (props : CharacterProperties) (label : UCharPointer) (labelLength : Int) (info : IDNAInfo) :
    T (checkLabelBiDi props label labelLength info) =
      checkLabelBiDi props label labelLength (T info) := by
  unfold checkLabelBiDi
  simp only
  refine map_ite T (fun _ => ?_) (fun _ => ?_)
  · rw [hbidi]
    split <;> simp only [hnot]
  · split <;> simp only [hnot]

/-- The BiDi rule has nothing to say any more. -/
theorem checkLabelBiDi_same (props : CharacterProperties) (label : UCharPointer) (labelLength : Int)
    {info : IDNAInfo} (hbidi : info.isBiDi = true) (hok : info.isOkBiDi = false) :
    checkLabelBiDi props label labelLength info = info := by
  have hnot : ∀ bad, info.notOkBiDiIf bad = info := by
    intro bad
    cases bad with
    | false => rfl
    | true =>
      cases info
      cases hok
      rfl
  have hset : ({ info with isBiDi := true } : IDNAInfo) = info := by
    cases info
    cases hbidi
    rfl
  unfold checkLabelBiDi
  simp only [hnot, hset, ite_self]

section

variable {env : Environment} {options : UInt32}
  {contextO : UCharPointer → Nat → IDNAInfo → IDNAInfo}

theorem unnoticed_of (hcontext : AddsErrors contextO) {T : IDNAInfo → IDNAInfo}
    (hadd : ∀ info e, T (info.addLabelErrors e) = (T info).addLabelErrors e)
    (hsevere : ∀ info, (T info).labelErrors &&& severeErrors = info.labelErrors &&& severeErrors)
    (hbidi : ∀ label labelLength info,
      T (bidiBlock env options label labelLength info) =
        bidiBlock env options label labelLength (T info)) :
    Unnoticed env options contextO T where
  addLabelErrors := hadd
  severe := hsevere
  contextual label labelLength oredChars info := by
    unfold contextualInfo contextOBlock
    refine map_ite T (fun _ => ?_) (fun _ => ?_)
    · rw [hcontext T hadd, map_addLabelErrorsIf hadd, hbidi]
    · rw [map_addLabelErrorsIf hadd, hbidi]

/-- Where the check is left out because of a label before, it would change nothing. -/
theorem unnoticed_andOkBiDi (hcontext : AddsErrors contextO) (b : Bool) :
    Unnoticed env options contextO (andOkBiDi b) := by
  refine unnoticed_of hcontext (fun _ _ => rfl) (fun _ => rfl) fun label labelLength info => ?_
  have hcheck := map_checkLabelBiDi (T := andOkBiDi b) (fun info bad => by cases bad <;> rfl)
    (fun _ => rfl) env.toCharacterProperties label labelLength
  unfold bidiBlock
  by_cases hoption : options &&& UIDNA_CHECK_BIDI ≠ 0
  · simp only [hoption, ne_eq, not_false_eq_true, true_and]
    cases b with
    | true =>
      have hsame : ∀ info, andOkBiDi true info = info := by
        intro info
        simp [andOkBiDi]
      rw [hsame, hsame]
    | false =>
      cases hb : info.isBiDi with
      | false =>
        have hb' : (andOkBiDi false info).isBiDi = false := hb
        simp only [hb', Bool.not_false, Bool.true_or, if_true]
        exact hcheck info
      | true =>
        have hb' : (andOkBiDi false info).isBiDi = true := hb
        have hok : (andOkBiDi false info).isOkBiDi = false := Bool.and_false _
        simp only [hb', hok, Bool.not_true, Bool.or_false, Bool.false_or, Bool.false_eq_true,
          if_false]
        split
        · rw [hcheck, checkLabelBiDi_same _ _ _ hb' hok]
        · rfl
  · rw [if_neg (fun h => hoption h.1), if_neg (fun h => hoption h.1)]

theorem lasting_andOkBiDi (b : Bool) : Lasting (andOkBiDi b) :=
  ⟨fun _ => rfl, fun _ => rfl, fun _ => rfl⟩

theorem unnoticed_withTransDiff (hcontext : AddsErrors contextO) (b : Bool) :
    Unnoticed env options contextO (withTransDiff b) := by
  refine unnoticed_of hcontext (fun _ _ => rfl) (fun _ => rfl) fun label labelLength info => ?_
  unfold bidiBlock
  refine map_ite (withTransDiff b) (fun _ => ?_) (fun _ => rfl)
  exact map_checkLabelBiDi (fun info bad => by cases bad <;> rfl) (fun _ => rfl) _ _ _ _

theorem unnoticed_foundBefore (hcontext : AddsErrors contextO) {e : UInt32}
    (he : e &&& severeErrors = 0) : Unnoticed env options contextO (foundBefore e) := by
  refine unnoticed_of hcontext (fun info e' => ?_) (fun info => ?_) fun label labelLength info => ?_
  · simp only [foundBefore, IDNAInfo.addErrors, IDNAInfo.addLabelErrors, UInt32.or_assoc,
      UInt32.or_comm e']
  · exact Bits.or_and_of_disjoint he info.labelErrors
  · unfold bidiBlock
    refine map_ite (foundBefore e) (fun _ => ?_) (fun _ => rfl)
    exact map_checkLabelBiDi (fun info bad => by cases bad <;> rfl) (fun _ => rfl) _ _ _ _

end

end SearchAndIdna.Uts46
