import SearchAndIdna.ProcessLabel

/-!
# The two copies of UTS #46 processing

`nameToASCII` of `common/uts46.cpp` and `icu_demo/uts46.cpp`, over their
`processLabel`.  `IcuDemo` passes no check of CONTEXTO, `Common` passes
`checkLabelContextO`.

* `clear_processLabels`, `clear_process`: up to the error bits of a mask, a run
  depends on the check of CONTEXTO up to that mask only;
* `clear_nameToASCII_copies`, `nameToASCII_copies_eq`: so the two copies agree up to the bits
  of CONTEXTO, and in everything without UIDNA_CHECK_CONTEXTO.
-/

namespace SearchAndIdna.Uts46

open UnicodeString

section

variable (env : Environment) (options : UInt32)

/-! ## Deviation characters -/

/-- The variables of the loop of `mapDevChars`. -/
structure DevChars where
  s : WString
  readIndex : Nat
  writeIndex : Nat
  length : Nat
  didMapDevChars : Bool

namespace DevChars

/-- The body of the loop. -/
def next (d : DevChars) : DevChars :=
  let c := d.s.getD d.readIndex 0
  let readIndex := d.readIndex + 1
  if c = 0xdf then
    -- The second s needs a place of its own when nothing was removed before it.
    let full := d.writeIndex + 1 = readIndex
    let s := d.s.set d.writeIndex 0x73
    let s := if full then s.take (d.writeIndex + 1) ++ 0 :: s.drop (d.writeIndex + 1) else s
    { s := s.set (d.writeIndex + 1) 0x73
      readIndex := if full then readIndex + 1 else readIndex
      writeIndex := d.writeIndex + 2, length := d.length + 1, didMapDevChars := true }
  else if c = 0x3c2 then
    { d with s := d.s.set d.writeIndex 0x3c3, readIndex := readIndex
             writeIndex := d.writeIndex + 1, didMapDevChars := true }
  else if c = 0x200c ∨ c = 0x200d then
    { d with readIndex := readIndex, length := d.length - 1, didMapDevChars := true }
  else
    { d with s := d.s.set d.writeIndex c, readIndex := readIndex, writeIndex := d.writeIndex + 1 }

/-- Each turn leaves one unit fewer to write. -/
theorem next_measure (d : DevChars) (h : d.next.writeIndex < d.next.length) :
    d.next.length - d.next.writeIndex < d.length - d.writeIndex := by
  revert h
  unfold next
  simp only
  repeat' split
  all_goals
    intro h
    dsimp only at h ⊢
    omega

/-- `do … while(writeIndex<length)`. -/
def run (d : DevChars) : DevChars :=
  if d.next.writeIndex < d.next.length then run d.next else d.next
  termination_by d.length - d.writeIndex
  decreasing_by
    apply next_measure
    assumption

end DevChars

/-- `UTS46::mapDevChars`: the new length of `dest`. -/
def mapDevChars (labelStart mappingStart : Nat) (o : Output) : Nat × Output :=
  if U_FAILURE o.errorCode then (0, o)
  else if o.dest.isBogus then
    (o.dest.length, { o with errorCode := U_MEMORY_ALLOCATION_ERROR })
  else
    let d := DevChars.run ⟨o.dest.units, mappingStart, mappingStart, o.dest.length, false⟩
    let s := d.s.take d.length
    let o := { o with dest := o.dest.setBuffer s }
    if d.didMapDevChars then
      let normalized := env.normalize (s.drop labelStart) o.errorCode
      let o := { o with errorCode := normalized.2 }
      if U_SUCCESS o.errorCode then
        let o := { o with dest := o.dest.replace labelStart 0x7fffffff normalized.1.units }
        if o.dest.isBogus then (o.dest.length, { o with errorCode := U_MEMORY_ALLOCATION_ERROR })
        else (o.dest.length, o)
      else (d.length, o)
    else (d.length, o)

/-! ## A name -/

/-- ß, final sigma, ZWNJ, ZWJ. -/
def isDeviation (c : WChar) : Bool :=
  0xdf ≤ c && c ≤ 0x200d && (c == 0xdf || c == 0x3c2 || 0x200c ≤ c)

section

variable (contextO : UCharPointer → Nat → IDNAInfo → IDNAInfo) (isLabel toASCII : Bool)

/-- The variables of the loop of `processUnicode`. -/
structure Scan where
  doMapDevChars : Bool
  destLength : Nat
  labelStart : Nat
  labelLimit : Nat
  out : Output

/-- How a turn of the loop ends: with another one, or with a `return`. -/
inductive Turn
  | again (s : Scan)
  | returned (o : Output)

/-- The body of the loop. -/
def scanUnit (s : Scan) : Turn :=
  let c := s.out.dest.units.getD s.labelLimit 0
  if c = 0x2e ∧ isLabel = false then
    let labelLength := s.labelLimit - s.labelStart
    let r := processLabel env options contextO s.labelStart labelLength toASCII s.out
    let o := r.2.endLabel
    if U_FAILURE o.errorCode then .returned o
    else
      .again { s with destLength := s.destLength + r.1 - labelLength
                      labelStart := s.labelStart + r.1 + 1
                      labelLimit := s.labelStart + r.1 + 1, out := o }
  else if isDeviation c then
    let o := s.out.transDiff
    if s.doMapDevChars then
      -- labelLimit stays, in case the unit is removed.
      let r := mapDevChars env s.labelStart s.labelLimit o
      if U_FAILURE r.2.errorCode then .returned r.2
      else .again { s with doMapDevChars := false, destLength := r.1, out := r.2 }
    else .again { s with labelLimit := s.labelLimit + 1, out := o }
  else .again { s with labelLimit := s.labelLimit + 1 }

/-- The last label; an empty one is permitted at the end of a name, but not elsewhere. -/
def lastLabel (s : Scan) : Output :=
  if 0 = s.labelStart ∨ s.labelStart < s.labelLimit then
    let r := processLabel env options contextO s.labelStart (s.labelLimit - s.labelStart) toASCII
      s.out
    { r.2 with info := r.2.info.addErrors r.2.info.labelErrors }
  else s.out

/-- A turn takes a unit off those to look at, or is the one that maps. -/
theorem scanUnit_measure {s s' : Scan} (hlt : s.labelLimit < s.destLength)
    (h : scanUnit env options contextO isLabel toASCII s = .again s') :
    s'.doMapDevChars.toNat < s.doMapDevChars.toNat ∨
      s'.doMapDevChars = s.doMapDevChars ∧
        s'.destLength - s'.labelLimit < s.destLength - s.labelLimit := by
  revert h
  unfold scanUnit
  simp only
  repeat' split
  all_goals
    intro h
    cases h
  · right
    refine ⟨rfl, ?_⟩
    dsimp only
    omega
  · left
    simp [*]
  · right
    refine ⟨rfl, ?_⟩
    dsimp only
    omega
  · right
    refine ⟨rfl, ?_⟩
    dsimp only
    omega

/-- The loop of `processUnicode`, and the last label. -/
def processLabels (s : Scan) : Output :=
  if s.labelLimit < s.destLength then
    match _h : scanUnit env options contextO isLabel toASCII s with
    | .again s' => processLabels s'
    | .returned o => o
  else lastLabel env options contextO toASCII s
  termination_by (s.doMapDevChars.toNat, s.destLength - s.labelLimit)
  decreasing_by
    rcases scanUnit_measure env options contextO isLabel toASCII ‹_› _h with hdo | ⟨hdo, hlt⟩
    · exact Prod.Lex.left _ _ hdo
    · rw [hdo]
      exact Prod.Lex.right _ hlt

theorem processLabels_again {s s' : Scan} (hlt : s.labelLimit < s.destLength)
    (h : scanUnit env options contextO isLabel toASCII s = .again s') :
    processLabels env options contextO isLabel toASCII s
      = processLabels env options contextO isLabel toASCII s' := by
  rw [processLabels, if_pos hlt]
  split
  · rename_i s₂ h₂
    cases h.symm.trans h₂
    rfl
  · rename_i o h₂
    cases h.symm.trans h₂

theorem processLabels_returned {s : Scan} {o : Output} (hlt : s.labelLimit < s.destLength)
    (h : scanUnit env options contextO isLabel toASCII s = .returned o) :
    processLabels env options contextO isLabel toASCII s = o := by
  rw [processLabels, if_pos hlt]
  split
  · rename_i s₂ h₂
    cases h.symm.trans h₂
  · rename_i o h₂
    cases h.symm.trans h₂
    rfl

theorem processLabels_end {s : Scan} (hend : ¬s.labelLimit < s.destLength) :
    processLabels env options contextO isLabel toASCII s
      = lastLabel env options contextO toASCII s := by
  rw [processLabels, if_neg hend]

/-- `UTS46::processUnicode`. -/
def processUnicode (src : WString) (labelStart mappingStart : Nat) (o : Output) : Output :=
  let r := if mappingStart = 0 then env.normalize src o.errorCode
    else env.normalizeSecondAndAppend o.dest (src.drop mappingStart) o.errorCode
  let o := { o with dest := r.1, errorCode := r.2 }
  if U_FAILURE o.errorCode then o
  else
    let doMapDevChars :=
      if toASCII then options &&& UIDNA_NONTRANSITIONAL_TO_ASCII == 0
      else options &&& UIDNA_NONTRANSITIONAL_TO_UNICODE == 0
    processLabels env options contextO isLabel toASCII
      ⟨doMapDevChars, o.dest.length, labelStart, labelStart, o⟩

/-- How the ASCII fastpath of `process` ends. -/
inductive Fastpath
  /-- At the end of the source. -/
  | finished (destArray : WString) (info : IDNAInfo)
  /-- At a unit it leaves to `processUnicode`; `i` units were copied. -/
  | stopped (destArray : WString) (i labelStart : Nat) (info : IDNAInfo)

/-- The loop of the ASCII fastpath, from `srcArray[i]` on. -/
def fastpath (srcArray : WString) : (rest : WString) → (i labelStart : Nat) →
    (destArray : WString) → IDNAInfo → Fastpath
  | [], i, labelStart, destArray, info =>
    let info := info.addLabelErrorsIf (toASCII && decide (63 < i - labelStart))
      UIDNA_ERROR_LABEL_TOO_LONG
    -- There is a trailing dot if labelStart==i.
    let info :=
      if toASCII && !isLabel && decide (254 ≤ i) && (decide (254 < i) || decide (labelStart < i))
      then info.addErrors UIDNA_ERROR_DOMAIN_NAME_TOO_LONG else info
    .finished destArray (info.addErrors info.labelErrors)
  | c :: rest, i, labelStart, destArray, info =>
    if 0x7f < c then .stopped destArray i labelStart info
    else if 0 < asciiData c then
      fastpath srcArray rest (i + 1) labelStart (destArray ++ [c + 0x20]) info
    else if asciiData c < 0 ∧ disallowNonLDHDot options then .stopped destArray i labelStart info
    else if c = 0x2d then
      if i = labelStart + 3 ∧ srcArray.getD (i - 1) 0 = 0x2d then
        -- "??--..." is Punycode or forbidden.
        .stopped (destArray ++ [c]) (i + 1) labelStart info
      else
        fastpath srcArray rest (i + 1) labelStart (destArray ++ [c])
          ((info.addLabelErrorsIf (i == labelStart) UIDNA_ERROR_LEADING_HYPHEN).addLabelErrorsIf
            (rest.isEmpty || rest.head? == some 0x2e) UIDNA_ERROR_TRAILING_HYPHEN)
    else if c = 0x2e then
      if isLabel then .stopped (destArray ++ [c]) (i + 1) labelStart info
      else
        fastpath srcArray rest (i + 1) (i + 1) (destArray ++ [c])
          ((info.addLabelErrorsIf (i == labelStart) UIDNA_ERROR_EMPTY_LABEL).addLabelErrorsIf
            (toASCII && decide (63 < i - labelStart)) UIDNA_ERROR_LABEL_TOO_LONG).endLabel
    else fastpath srcArray rest (i + 1) labelStart (destArray ++ [c]) info

/-- The check of the whole name that ends `process`. -/
def bidiName (labelStart : Nat) (o : Output) : Output :=
  if o.info.isBiDi && U_SUCCESS o.errorCode && o.info.errors &&& severeErrors == 0 &&
      (!o.info.isOkBiDi ||
        (decide (0 < labelStart) && !isASCIIOkBiDi o.dest.units labelStart)) then
    { o with info := o.info.addErrors UIDNA_ERROR_BIDI }
  else o

/-- `UTS46::process`; `same` is `&dest==&src`. -/
def process (src : UnicodeString) (same : Bool) (o : Output) : Output :=
  if U_FAILURE o.errorCode then { o with dest := .bogus }
  else if same || src.isBogus then
    { o with dest := .bogus, errorCode := U_ILLEGAL_ARGUMENT_ERROR }
  else
    let info := IDNAInfo.reset
    if src.length = 0 then
      { o with dest := .text [], info := info.addErrors UIDNA_ERROR_EMPTY_LABEL }
    else
      match fastpath options isLabel toASCII src.units src.units 0 0 [] info with
      | .finished destArray info => { o with dest := .text destArray, info := info }
      | .stopped destArray i labelStart info =>
        bidiName labelStart
          (processUnicode env options contextO isLabel toASCII src.units labelStart i
            { o with dest := .text destArray, info := info.addErrors info.labelErrors })

end

/-- `UTS46::nameToASCII`, with the check of CONTEXTO that `processLabel` calls. -/
def nameToASCII (contextO : UCharPointer → Nat → IDNAInfo → IDNAInfo) (name : UnicodeString)
    (same : Bool) (o : Output) : Output :=
  let o := process env options contextO false true name same o
  if 254 ≤ o.dest.length ∧ o.info.errors &&& UIDNA_ERROR_DOMAIN_NAME_TOO_LONG = 0 ∧
      isASCIIString o.dest ∧ (254 < o.dest.length ∨ o.dest.units.getD 253 0xffff ≠ 0x2e) then
    { o with info := o.info.addErrors UIDNA_ERROR_DOMAIN_NAME_TOO_LONG }
  else o

/-- `UTS46::nameToASCII` of `icu_demo/uts46.cpp`, where the call is commented out. -/
def IcuDemo.nameToASCII : (name : UnicodeString) → (same : Bool) → Output → Output :=
  Uts46.nameToASCII env options fun _ _ info => info

/-- `UTS46::nameToASCII` of `common/uts46.cpp`. -/
def Common.nameToASCII : (name : UnicodeString) → (same : Bool) → Output → Output :=
  Uts46.nameToASCII env options (checkLabelContextO env.toCharacterProperties)

/-- `UTS46::nameToUnicode`. -/
def nameToUnicode (contextO : UCharPointer → Nat → IDNAInfo → IDNAInfo) :
    (name : UnicodeString) → (same : Bool) → Output → Output :=
  process env options contextO false false

/-- `UTS46::labelToASCII`. -/
def labelToASCII (contextO : UCharPointer → Nat → IDNAInfo → IDNAInfo) :
    (label : UnicodeString) → (same : Bool) → Output → Output :=
  process env options contextO true true

/-- `UTS46::labelToUnicode`. -/
def labelToUnicode (contextO : UCharPointer → Nat → IDNAInfo → IDNAInfo) :
    (label : UnicodeString) → (same : Bool) → Output → Output :=
  process env options contextO true false

/-! ## Up to the error bits of a mask -/

theorem clear_mapDevChars {m : UInt32} (labelStart mappingStart : Nat) (o : Output) :
    clearResult m (mapDevChars env labelStart mappingStart o)
      = mapDevChars env labelStart mappingStart (o.clear m) := by
  unfold mapDevChars
  refine map_ite (clearResult m) (fun _ => rfl) (fun _ => ?_)
  refine map_ite (clearResult m) (fun _ => rfl) (fun _ => ?_)
  refine map_ite (clearResult m) (fun _ => ?_) (fun _ => rfl)
  refine map_ite (clearResult m) (fun _ => ?_) (fun _ => rfl)
  exact map_ite (clearResult m) (fun _ => rfl) (fun _ => rfl)

def Scan.clear (m : UInt32) (s : Scan) : Scan := { s with out := s.out.clear m }

def Turn.clear (m : UInt32) : Turn → Turn
  | .again s => .again (s.clear m)
  | .returned o => .returned (o.clear m)

def Fastpath.clear (m : UInt32) : Fastpath → Fastpath
  | .finished destArray info => .finished destArray (info.clear m)
  | .stopped destArray i labelStart info => .stopped destArray i labelStart (info.clear m)

theorem clear_bidiName {m : UInt32} (hm : WithinContextO m) (labelStart : Nat) (o : Output) :
    (bidiName labelStart o).clear m = bidiName labelStart (o.clear m) := by
  unfold bidiName
  rw [Output.clear_info, IDNAInfo.clear_errors_and hm.others.severe]
  refine map_ite (Output.clear m) (fun _ => ?_) (fun _ => rfl)
  rw [← IDNAInfo.clear_addErrors hm.others.bidi]
  rfl

theorem clear_fastpath {m : UInt32} (hm : WithinContextO m) (isLabel toASCII : Bool)
    (srcArray rest : WString) (i labelStart : Nat) (destArray : WString) (info : IDNAInfo) :
    (fastpath options isLabel toASCII srcArray rest i labelStart destArray info).clear m
      = fastpath options isLabel toASCII srcArray rest i labelStart destArray
          (info.clear m) := by
  induction rest generalizing i labelStart destArray info with
  | nil =>
    unfold fastpath
    simp only [← IDNAInfo.clear_addLabelErrorsIf hm.others.labelTooLong]
    split
    · simp [Fastpath.clear, ← IDNAInfo.clear_addErrors hm.others.domainNameTooLong]
    · simp [Fastpath.clear]
  | cons c rest ih =>
    unfold fastpath
    refine map_ite (Fastpath.clear m) (fun _ => rfl) (fun _ => ?_)
    refine map_ite (Fastpath.clear m) (fun _ => ih _ _ _ _) (fun _ => ?_)
    refine map_ite (Fastpath.clear m) (fun _ => rfl) (fun _ => ?_)
    refine map_ite (Fastpath.clear m) (fun _ => ?_) (fun _ => ?_)
    · refine map_ite (Fastpath.clear m) (fun _ => rfl) (fun _ => ?_)
      rw [ih, IDNAInfo.clear_addLabelErrorsIf hm.others.trailingHyphen,
        IDNAInfo.clear_addLabelErrorsIf hm.others.leadingHyphen]
    · refine map_ite (Fastpath.clear m) (fun _ => ?_) (fun _ => ih _ _ _ _)
      refine map_ite (Fastpath.clear m) (fun _ => rfl) (fun _ => ?_)
      rw [ih, IDNAInfo.clear_endLabel, IDNAInfo.clear_addLabelErrorsIf hm.others.labelTooLong,
        IDNAInfo.clear_addLabelErrorsIf hm.others.emptyLabel]

section

variable {options} {m : UInt32} (hm : WithinContextO m)
  {c₁ c₂ : UCharPointer → Nat → IDNAInfo → IDNAInfo}
  (hc : ∀ label labelLength oredChars info,
    (contextOBlock options c₁ label labelLength oredChars info).clear m
      = contextOBlock options c₂ label labelLength oredChars (info.clear m))

include hm hc

theorem clear_scanUnit (isLabel toASCII : Bool) (s : Scan) :
    (scanUnit env options c₁ isLabel toASCII s).clear m
      = scanUnit env options c₂ isLabel toASCII (s.clear m) := by
  have hr := clear_processLabel hm options env hc s.labelStart (s.labelLimit - s.labelStart)
    toASCII s.out
  have hd := clear_mapDevChars (m := m) env s.labelStart s.labelLimit s.out.transDiff
  unfold scanUnit
  refine map_ite (Turn.clear m) (fun _ => ?_) (fun _ => map_ite (Turn.clear m) (fun _ => ?_) ?_)
  · simp only [Scan.clear, ← hr]
    refine map_ite (Turn.clear m) (fun _ => ?_) (fun _ => ?_)
    · simp [Turn.clear, clearResult]
    · simp [Turn.clear, clearResult, Scan.clear]
  · simp only [Scan.clear, ← Output.clear_transDiff, ← hd]
    refine map_ite (Turn.clear m) (fun _ => ?_) (fun _ => ?_)
    · exact map_ite (Turn.clear m) (fun _ => rfl) (fun _ => rfl)
    · rfl
  · exact fun _ => rfl

theorem clear_lastLabel (toASCII : Bool) (s : Scan) :
    (lastLabel env options c₁ toASCII s).clear m = lastLabel env options c₂ toASCII (s.clear m) := by
  have hr := clear_processLabel hm options env hc s.labelStart (s.labelLimit - s.labelStart)
    toASCII s.out
  unfold lastLabel
  refine map_ite (Output.clear m) (fun _ => ?_) (fun _ => rfl)
  simp only [Scan.clear, ← hr]
  simp [Output.clear, clearResult]

theorem clear_processLabels (isLabel toASCII : Bool) (s : Scan) :
    (processLabels env options c₁ isLabel toASCII s).clear m
      = processLabels env options c₂ isLabel toASCII (s.clear m) := by
  induction s using processLabels.induct env options c₁ isLabel toASCII with
  | case1 s hlt s' hs ih =>
    have hs₂ := clear_scanUnit env hm hc isLabel toASCII s
    rw [hs] at hs₂
    rw [processLabels_again _ _ _ _ _ hlt hs, ih]
    exact (processLabels_again _ _ _ _ _ (s := s.clear m) hlt hs₂.symm).symm
  | case2 s hlt o hs =>
    have hs₂ := clear_scanUnit env hm hc isLabel toASCII s
    rw [hs] at hs₂
    rw [processLabels_returned _ _ _ _ _ hlt hs]
    exact (processLabels_returned _ _ _ _ _ (s := s.clear m) hlt hs₂.symm).symm
  | case3 s hend =>
    rw [processLabels_end _ _ _ _ _ hend, clear_lastLabel env hm hc]
    exact (processLabels_end _ _ _ _ _ (s := s.clear m) hend).symm

theorem clear_processUnicode (isLabel toASCII : Bool) (src : WString)
    (labelStart mappingStart : Nat) (o : Output) :
    (processUnicode env options c₁ isLabel toASCII src labelStart mappingStart o).clear m
      = processUnicode env options c₂ isLabel toASCII src labelStart mappingStart
          (o.clear m) := by
  unfold processUnicode
  refine map_ite (Output.clear m) (fun _ => rfl) (fun _ => ?_)
  exact clear_processLabels env hm hc isLabel toASCII _

theorem clear_process (isLabel toASCII : Bool) (src : UnicodeString) (same : Bool) (o : Output) :
    (process env options c₁ isLabel toASCII src same o).clear m
      = process env options c₂ isLabel toASCII src same (o.clear m) := by
  unfold process
  refine map_ite (Output.clear m) (fun _ => rfl) (fun _ => map_ite (Output.clear m) (fun _ => rfl) ?_)
  intro _
  refine map_ite (Output.clear m) (fun _ => ?_) (fun _ => ?_)
  · have hempty : UIDNA_ERROR_EMPTY_LABEL &&& m = 0 := hm.disjoint (by decide)
    simp [Output.clear, IDNAInfo.clear_addErrors hempty]
  · have hf := clear_fastpath options hm isLabel toASCII src.units src.units 0 0 [] IDNAInfo.reset
    rw [IDNAInfo.clear_reset] at hf
    cases hpath : fastpath options isLabel toASCII src.units src.units 0 0 [] IDNAInfo.reset with
    | finished destArray info =>
      rw [hpath] at hf
      have hi : info.clear m = info := (Fastpath.finished.inj hf).2
      simp [Output.clear, hi]
    | stopped destArray i labelStart info =>
      rw [hpath] at hf
      have hi : info.clear m = info := (Fastpath.stopped.inj hf).2.2.2
      simp only [clear_bidiName hm, clear_processUnicode env hm hc]
      simp only [Output.clear, IDNAInfo.clear_addErrors_labelErrors, hi]

theorem clear_nameToASCII (name : UnicodeString) (same : Bool) (o : Output) :
    (nameToASCII env options c₁ name same o).clear m
      = nameToASCII env options c₂ name same (o.clear m) := by
  unfold nameToASCII
  rw [← clear_process env hm hc]
  generalize process env options c₁ false true name same o = o
  simp only [Output.clear_info, IDNAInfo.clear_errors_and hm.others.domainNameTooLong]
  refine map_ite (Output.clear m) (fun _ => ?_) (fun _ => rfl)
  rw [← IDNAInfo.clear_addErrors hm.others.domainNameTooLong]
  rfl

end

/-! ## What the copies agree on -/

theorem withinContextO_zero : WithinContextO 0 := UInt32.zero_and

theorem withinContextO_contextOErrors : WithinContextO contextOErrors := UInt32.and_self

/-- Up to its two bits, `checkLabelContextO` might as well not be called. -/
theorem clear_contextOBlock_copies (props : CharacterProperties) (label : UCharPointer)
    (labelLength : Nat) (oredChars : WChar) (info : IDNAInfo) :
    (contextOBlock options (checkLabelContextO props) label labelLength oredChars info).clear
        contextOErrors
      = contextOBlock options (fun _ _ info => info) label labelLength oredChars
          (info.clear contextOErrors) := by
  unfold contextOBlock
  refine map_ite (IDNAInfo.clear contextOErrors) (fun _ => ?_) (fun _ => rfl)
  exact clear_checkLabelContextO _ label labelLength info

theorem clear_contextOBlock_icuDemo (label : UCharPointer) (labelLength : Nat)
    (oredChars : WChar) (info : IDNAInfo) :
    (contextOBlock options (fun _ _ info => info) label labelLength oredChars info).clear
        contextOErrors
      = contextOBlock options (fun _ _ info => info) label labelLength oredChars
          (info.clear contextOErrors) := by
  unfold contextOBlock
  exact map_ite (IDNAInfo.clear contextOErrors) (fun _ => rfl) (fun _ => rfl)

theorem clear_nameToASCII_copies (name : UnicodeString) (same : Bool) (o : Output) :
    (Common.nameToASCII env options name same o).clear contextOErrors
      = IcuDemo.nameToASCII env options name same (o.clear contextOErrors) :=
  clear_nameToASCII env withinContextO_contextOErrors (clear_contextOBlock_copies options _) name
    same o

theorem clear_nameToASCII_icuDemo (name : UnicodeString) (same : Bool) (o : Output) :
    (IcuDemo.nameToASCII env options name same o).clear contextOErrors
      = IcuDemo.nameToASCII env options name same (o.clear contextOErrors) :=
  clear_nameToASCII env withinContextO_contextOErrors (clear_contextOBlock_icuDemo options) name
    same o

/-- Without the option, `checkLabelContextO` is not called. -/
theorem nameToASCII_copies_eq (hopt : options &&& UIDNA_CHECK_CONTEXTO = 0)
    (name : UnicodeString) (same : Bool) (o : Output) :
    IcuDemo.nameToASCII env options name same o = Common.nameToASCII env options name same o := by
  have h : (IcuDemo.nameToASCII env options name same o).clear 0
      = Common.nameToASCII env options name same (o.clear 0) := by
    refine clear_nameToASCII env withinContextO_zero ?_ name same o
    intro label labelLength oredChars info
    simp [contextOBlock, hopt]
  rw [Output.clear_zero, Output.clear_zero] at h
  exact h

/-- A refused name leaves the info alone, any other starts from a reset info. -/
theorem nameToASCII_info (contextO : UCharPointer → Nat → IDNAInfo → IDNAInfo)
    (name : UnicodeString) (same : Bool) (o : Output) :
    (nameToASCII env options contextO name same o).info = o.info ∨
      nameToASCII env options contextO name same o
        = nameToASCII env options contextO name same { o with info := IDNAInfo.reset } := by
  cases hf : U_FAILURE o.errorCode with
  | true =>
    left
    simp [nameToASCII, process, hf, UnicodeString.length, units]
  | false =>
    cases hs : same || name.isBogus with
    | true =>
      left
      simp [nameToASCII, process, hf, hs, UnicodeString.length, units]
    | false =>
      right
      simp [nameToASCII, process, hf, hs]

/-- Without the two bits before, the demo has none of them after. -/
theorem icuDemo_errors (name : UnicodeString) (same : Bool) (o : Output)
    (ho : o.info.errors &&& contextOErrors = 0) :
    (IcuDemo.nameToASCII env options name same o).info.errors &&& contextOErrors = 0 := by
  cases nameToASCII_info env options (fun _ _ info => info) name same o with
  | inl h =>
    rw [IcuDemo.nameToASCII, h]
    exact ho
  | inr h =>
    have hc := clear_nameToASCII_icuDemo env options name same { o with info := IDNAInfo.reset }
    rw [show ({ o with info := IDNAInfo.reset } : Output).clear contextOErrors
      = { o with info := IDNAInfo.reset } by simp [Output.clear]] at hc
    have he := congrArg (fun r : Output => r.info.errors &&& contextOErrors) hc
    rw [IcuDemo.nameToASCII, h]
    exact he.symm.trans (Bits.clear_and_self contextOErrors _)

/-- What the parameters are for the name "·", U+00B7: it is normalized, is an other
neutral and an other punctuation of no script told apart, and its Punycode is "uba". -/
def middleDot : Environment where
  u_charDirection _ := .otherNeutral
  u_charType _ := .otherPunctuation
  ubidi_getJoiningType _ := .nonJoining
  getCombiningClass _ := 0
  uscript_getScript _ := .other
  normalize src errorCode := (.text src, errorCode)
  normalizeSecondAndAppend dest src errorCode := (.text (dest.units ++ src), errorCode)
  isNormalized _ errorCode := (true, errorCode)
  u_strFromPunycode _ _ errorCode := ⟨[0xb7], 1, errorCode⟩
  u_strToPunycode _ _ errorCode := ⟨[0x75, 0x62, 0x61], 3, errorCode⟩
  stackCapacity := 15
  capacity n := n

/-- "·" is one label. -/
theorem middleDot_process (contextO : UCharPointer → Nat → IDNAInfo → IDNAInfo) :
    process middleDot UIDNA_CHECK_CONTEXTO contextO false true (.text [0xb7]) false
        ⟨.text [], .reset, U_ZERO_ERROR⟩
      = bidiName 0 (lastLabel middleDot UIDNA_CHECK_CONTEXTO contextO true
          ⟨true, 1, 0, 1, ⟨.text [0xb7], .reset, U_ZERO_ERROR⟩⟩) := by
  have hturn : scanUnit middleDot UIDNA_CHECK_CONTEXTO contextO false true
      ⟨true, 1, 0, 0, ⟨.text [0xb7], .reset, U_ZERO_ERROR⟩⟩
        = .again ⟨true, 1, 0, 1, ⟨.text [0xb7], .reset, U_ZERO_ERROR⟩⟩ := rfl
  change bidiName 0 (processLabels middleDot UIDNA_CHECK_CONTEXTO contextO false true
    ⟨true, 1, 0, 0, ⟨.text [0xb7], .reset, U_ZERO_ERROR⟩⟩) = _
  rw [processLabels_again _ _ _ _ _ (by decide) hturn, processLabels_end _ _ _ _ _ (by decide)]

end

end SearchAndIdna.Uts46
