import SearchAndIdna.InfoChanges

/-!
# The block that `icu_demo` left empty

The guard of CONTEXTO is still in `processLabel` of `icu_demo/uts46.cpp`, but the call of
`checkLabelContextO` behind it is commented out.  So the copies disagree on a name exactly
when a label comes to that block and `checkLabelContextO` has an error for it.

* `processBlock`, `ComesToBlock`: the labels that come to the block;
* `processLabels_unflagged`: if there is no error for any of them, the loops of the two
  copies do the same;
* `processLabels_flagged`: if there is one, `common` reports it, and it stays;
* `nameToASCII_agrees`: what the two copies agree on, and when in everything.
-/

namespace SearchAndIdna.Uts46

open UnicodeString IDNAInfo Bits

/-! ## One label -/

/-- What `checkLabelContextO` is called with: a label and its length. -/
abbrev BlockLabel := UCharPointer × Nat

/-- `checkLabelContextO` has an error for the label. -/
def Flagged (props : CharacterProperties) (b : BlockLabel) : Prop :=
  (checkLabelContextO props b.1 b.2 .reset).labelErrors ≠ 0

instance (props : CharacterProperties) (b : BlockLabel) : Decidable (Flagged props b) :=
  inferInstanceAs (Decidable (_ ≠ _))

section

variable (env : Environment) (options : UInt32)

/-- The label that comes to the block of `contextualChecks`. -/
def finishBlock (l : Label) (oredChars : WChar) (o : Output) : Option BlockLabel :=
  if o.info.labelErrors &&& severeErrors = 0 ∧ options &&& UIDNA_CHECK_CONTEXTO ≠ 0 ∧
      0xb7 ≤ oredChars then
    some (l.pointer o, l.labelLength)
  else none

def checkBlock (l : Label) (o : Output) : Option BlockLabel :=
  if l.labelLength = 0 then none
  else
    finishBlock options (markedLabel env options l o).2.1 (markedLabel env options l o).1
      (markedLabel env options l o).2.2

/-- The label that `processLabel` brings to the block: an ACE label in its Unicode form. -/
def processBlock (labelStart labelLength : Nat) (toASCII : Bool) (o : Output) :
    Option BlockLabel :=
  if U_FAILURE o.errorCode then none
  else
    let label := UCharPointer.take ⟨o.dest.units, labelStart⟩ labelLength
    if xnDashDash <+: label then
      let decoded := fromPunycode env (label.drop 4)
      if U_FAILURE decoded.2 then none
      else
        let isValid := env.isNormalized decoded.1 o.errorCode
        if U_FAILURE isValid.2 then none
        else if isValid.1 then
          checkBlock env options
            ⟨some decoded.1, 0, decoded.1.length, labelStart, labelLength, toASCII⟩
            { o with errorCode := isValid.2 }
        else none
    else
      checkBlock env options ⟨none, labelStart, labelLength, labelStart, labelLength, toASCII⟩ o

end

section

variable {env : Environment} {options : UInt32}

/-! ## Two checks that agree on the label -/

section

variable {c₁ c₂ : UCharPointer → Nat → IDNAInfo → IDNAInfo}

theorem finishLabel_congr {l : Label} {oredChars : WChar} {o : Output}
    (h : ∀ b ∈ finishBlock options l oredChars o, ∀ info, c₁ b.1 b.2 info = c₂ b.1 b.2 info) :
    finishLabel env options c₁ l oredChars o = finishLabel env options c₂ l oredChars o := by
  unfold finishLabel
  by_cases hsevere : o.info.labelErrors &&& severeErrors = 0
  · have hblock : ∀ info,
        contextOBlock options c₁ (l.pointer o) l.labelLength oredChars info =
          contextOBlock options c₂ (l.pointer o) l.labelLength oredChars info := by
      intro info
      unfold contextOBlock
      by_cases hguard : options &&& UIDNA_CHECK_CONTEXTO ≠ 0 ∧ 0xb7 ≤ oredChars
      · rw [if_pos hguard, if_pos hguard]
        exact h _ (if_pos ⟨hsevere, hguard⟩) info
      · rw [if_neg hguard, if_neg hguard]
    simp only [contextualChecks, hblock]
  · simp only [if_neg hsevere]

theorem checkLabel_congr {l : Label} {o : Output}
    (h : ∀ b ∈ checkBlock env options l o, ∀ info, c₁ b.1 b.2 info = c₂ b.1 b.2 info) :
    checkLabel env options c₁ l o = checkLabel env options c₂ l o := by
  rw [checkLabel_eq, checkLabel_eq]
  unfold checkBlock at h
  by_cases hzero : l.labelLength = 0
  · rw [if_pos hzero, if_pos hzero]
  · rw [if_neg hzero] at h
    rw [if_neg hzero, if_neg hzero, finishLabel_congr h]

/-- `processLabel` asks for no other label than the one that comes to the block. -/
theorem processLabel_congr {labelStart labelLength : Nat} {toASCII : Bool} {o : Output}
    (h : ∀ b ∈ processBlock env options labelStart labelLength toASCII o, ∀ info,
      c₁ b.1 b.2 info = c₂ b.1 b.2 info) :
    processLabel env options c₁ labelStart labelLength toASCII o =
      processLabel env options c₂ labelStart labelLength toASCII o := by
  unfold processBlock at h
  unfold processLabel
  refine map_ite id (fun _ => rfl) (fun hcode => ?_)
  rw [if_neg hcode] at h
  refine map_ite id (fun hx => ?_) (fun hx => ?_)
  · rw [if_pos hx] at h
    refine map_ite id (fun _ => rfl) (fun hdecoded => ?_)
    rw [if_neg hdecoded] at h
    refine map_ite id (fun _ => rfl) (fun hfailed => ?_)
    rw [if_neg hfailed] at h
    refine map_ite id (fun hvalid => ?_) (fun _ => rfl)
    rw [if_pos hvalid] at h
    exact checkLabel_congr h
  · rw [if_neg hx] at h
    exact checkLabel_congr h

end

/-! ## The label and `checkLabelContextO` -/

theorem checkLabelContextO_of_not_flagged {props : CharacterProperties} {b : BlockLabel}
    (h : ¬ Flagged props b) (info : IDNAInfo) : checkLabelContextO props b.1 b.2 info = info := by
  rw [(addsErrors_checkLabelContextO props).eq, not_not.mp h]
  simp only [addLabelErrors, UInt32.or_zero]

theorem processLabel_unflagged {labelStart labelLength : Nat} {toASCII : Bool} {o : Output}
    (h : ∀ b ∈ processBlock env options labelStart labelLength toASCII o,
      ¬ Flagged env.toCharacterProperties b) :
    processLabel env options (checkLabelContextO env.toCharacterProperties) labelStart labelLength
        toASCII o =
      processLabel env options (fun _ _ info => info) labelStart labelLength toASCII o :=
  processLabel_congr fun b hb => checkLabelContextO_of_not_flagged (h b hb)

/-- An error of `checkLabelContextO` is one of its two bits. -/
theorem Flagged.bits {props : CharacterProperties} {b : BlockLabel} (h : Flagged props b) :
    (checkLabelContextO props b.1 b.2 .reset).labelErrors &&& contextOErrors ≠ 0 := by
  intro hzero
  have hclear := congrArg labelErrors (clear_checkLabelContextO props b.1 b.2 .reset)
  rw [clear_reset] at hclear
  exact h ((clear_of_disjoint hzero).symm.trans hclear)

theorem finishLabel_flagged {l : Label} {oredChars : WChar} {o : Output} {b : BlockLabel}
    (hb : finishBlock options l oredChars o = some b) (h : Flagged env.toCharacterProperties b) :
    (finishLabel env options (checkLabelContextO env.toCharacterProperties) l oredChars
      o).2.info.allErrors &&& contextOErrors ≠ 0 := by
  unfold finishBlock at hb
  split at hb
  · rename_i hguard
    obtain rfl := Option.some.inj hb
    have hchecks : (contextualChecks env options (checkLabelContextO env.toCharacterProperties) l
        oredChars o).info.allErrors &&& contextOErrors ≠ 0 := by
      intro hzero
      simp only [contextualChecks, contextOBlock, if_pos hguard.2] at hzero
      rw [(addsErrors_checkLabelContextO env.toCharacterProperties).eq] at hzero
      exact h.bits (or_and_eq_zero_iff.mp (allErrors_and_eq_zero_iff.mp hzero).2).2
    unfold finishLabel
    rw [if_pos hguard.1]
    dsimp only
    split
    · exact fun hzero => hchecks ((encodeLabel_grows _ _ _ _).all _ hzero)
    · rw [replaceLabel_info]
      exact hchecks
  · cases hb

theorem checkLabel_flagged {l : Label} {o : Output} {b : BlockLabel}
    (hb : checkBlock env options l o = some b) (h : Flagged env.toCharacterProperties b) :
    (checkLabel env options (checkLabelContextO env.toCharacterProperties) l o).2.info.allErrors &&&
      contextOErrors ≠ 0 := by
  unfold checkBlock at hb
  rw [checkLabel_eq]
  split at hb
  · cases hb
  · rename_i hzero
    rw [if_neg hzero]
    exact finishLabel_flagged hb h

/-- A label with an error leaves it in the info. -/
theorem processLabel_flagged {labelStart labelLength : Nat} {toASCII : Bool} {o : Output}
    {b : BlockLabel} (hb : processBlock env options labelStart labelLength toASCII o = some b)
    (h : Flagged env.toCharacterProperties b) :
    (processLabel env options (checkLabelContextO env.toCharacterProperties) labelStart labelLength
      toASCII o).2.info.allErrors &&& contextOErrors ≠ 0 := by
  unfold processBlock at hb
  unfold processLabel
  by_cases hcode : U_FAILURE o.errorCode = true
  · rw [if_pos hcode] at hb
    cases hb
  rw [if_neg hcode] at hb ⊢
  simp only at hb ⊢
  split at hb
  · rename_i hx
    rw [if_pos hx]
    split at hb
    · cases hb
    · rename_i hdecoded
      rw [if_neg hdecoded]
      split at hb
      · cases hb
      · rename_i hfailed
        rw [if_neg hfailed]
        split at hb
        · rename_i hvalid
          rw [if_pos hvalid]
          exact checkLabel_flagged hb h
        · cases hb
  · rename_i hx
    rw [if_neg hx]
    exact checkLabel_flagged hb h

/-- The error bits of CONTEXTO do not matter to what comes to the block. -/
theorem processBlock_clear {m : UInt32} (hm : WithinContextO m) (labelStart labelLength : Nat)
    (toASCII : Bool) (o : Output) :
    processBlock env options labelStart labelLength toASCII (o.clear m) =
      processBlock env options labelStart labelLength toASCII o := by
  have hfinish : ∀ (l : Label) (oredChars : WChar) (o : Output),
      finishBlock options l oredChars (o.clear m) = finishBlock options l oredChars o := by
    intro l oredChars o
    unfold finishBlock
    rw [Output.clear_info, clear_labelErrors_and hm.others.severe, pointer_clear]
  have hcheck : ∀ (l : Label) (o : Output),
      checkBlock env options l (o.clear m) = checkBlock env options l o := by
    intro l o
    unfold checkBlock
    rw [clear_markedLabel hm]
    exact map_ite id (fun _ => rfl) (fun _ => hfinish _ _ _)
  have hvalid : ∀ (l : Label) (code : UErrorCode),
      checkBlock env options l ⟨o.dest, (o.clear m).info, code⟩ =
        checkBlock env options l ⟨o.dest, o.info, code⟩ :=
    fun l code => hcheck l { o with errorCode := code }
  unfold processBlock
  simp only [Output.clear_errorCode, Output.clear_dest, hcheck, hvalid]

/-! ## The loop over the labels -/

end

section

variable (env : Environment) (options : UInt32) (isLabel toASCII : Bool)

/-- The label that the loop of `processUnicode` brings to the block in this state. -/
def scanBlock (s : Scan) : Option BlockLabel :=
  if s.labelLimit < s.destLength then
    if s.out.dest.units.getD s.labelLimit 0 = 0x2e ∧ isLabel = false then
      processBlock env options s.labelStart (s.labelLimit - s.labelStart) toASCII s.out
    else none
  else if 0 = s.labelStart ∨ s.labelStart < s.labelLimit then
    processBlock env options s.labelStart (s.labelLimit - s.labelStart) toASCII s.out
  else none

/-- In a run of the demo's loop from `s` on, the label comes to the block. -/
inductive ComesToBlock (b : BlockLabel) : Scan → Prop
  | here (s : Scan) : scanBlock env options isLabel toASCII s = some b → ComesToBlock b s
  | later (s s' : Scan) : s.labelLimit < s.destLength →
      scanUnit env options (fun _ _ info => info) isLabel toASCII s = .again s' →
      ComesToBlock b s' → ComesToBlock b s

end

section

variable {env : Environment} {options : UInt32} {isLabel toASCII : Bool}

/-- A turn for an unflagged label, or for none. -/
theorem scanUnit_unflagged {s : Scan} (hlt : s.labelLimit < s.destLength)
    (h : ∀ b ∈ scanBlock env options isLabel toASCII s, ¬ Flagged env.toCharacterProperties b) :
    scanUnit env options (checkLabelContextO env.toCharacterProperties) isLabel toASCII s =
      scanUnit env options (fun _ _ info => info) isLabel toASCII s := by
  unfold scanBlock at h
  rw [if_pos hlt] at h
  unfold scanUnit
  refine map_ite id (fun hdot => ?_) (fun _ => rfl)
  rw [if_pos hdot] at h
  simp only [processLabel_unflagged h, id_eq]

/-- **Without a flagged label**, the loops of the two copies do the same. -/
theorem processLabels_unflagged {s : Scan}
    (h : ∀ b, ComesToBlock env options isLabel toASCII b s →
      ¬ Flagged env.toCharacterProperties b) :
    processLabels env options (checkLabelContextO env.toCharacterProperties) isLabel toASCII s =
      processLabels env options (fun _ _ info => info) isLabel toASCII s := by
  have hhere : ∀ s : Scan, (∀ b, ComesToBlock env options isLabel toASCII b s →
      ¬ Flagged env.toCharacterProperties b) →
        ∀ b ∈ scanBlock env options isLabel toASCII s, ¬ Flagged env.toCharacterProperties b :=
    fun s h b hb => h b (.here s hb)
  induction s using processLabels.induct env options (fun _ _ info => info) isLabel toASCII with
  | case1 s hlt s' hs ih =>
    have hs' := scanUnit_unflagged hlt (hhere s h)
    rw [processLabels_again _ _ _ _ _ hlt hs, processLabels_again _ _ _ _ _ hlt (hs'.trans hs)]
    exact ih fun b hb => h b (.later s s' hlt hs hb)
  | case2 s hlt o hs =>
    have hs' := scanUnit_unflagged hlt (hhere s h)
    rw [processLabels_returned _ _ _ _ _ hlt hs,
      processLabels_returned _ _ _ _ _ hlt (hs'.trans hs)]
  | case3 s hend =>
    have hlast := hhere s h
    unfold scanBlock at hlast
    rw [if_neg hend] at hlast
    rw [processLabels_end _ _ _ _ _ hend, processLabels_end _ _ _ _ _ hend]
    unfold lastLabel
    refine map_ite id (fun hlabel => ?_) (fun _ => rfl)
    rw [if_pos hlabel] at hlast
    rw [processLabel_unflagged hlast]
    rfl

/-- The error bits of CONTEXTO do not matter to what comes to the block. -/
theorem scanBlock_clear {m : UInt32} (hm : WithinContextO m) (s : Scan) :
    scanBlock env options isLabel toASCII (s.clear m) =
      scanBlock env options isLabel toASCII s := by
  unfold scanBlock
  refine map_ite id (fun _ => ?_) (fun _ => ?_)
  · exact map_ite id (fun _ => processBlock_clear hm _ _ _ s.out) (fun _ => rfl)
  · exact map_ite id (fun _ => processBlock_clear hm _ _ _ s.out) (fun _ => rfl)

/-- A flagged label in this turn, or as the last one. -/
theorem processLabels_flagged_here {s : Scan} {b : BlockLabel}
    (hb : scanBlock env options isLabel toASCII s = some b)
    (h : Flagged env.toCharacterProperties b) :
    (processLabels env options (checkLabelContextO env.toCharacterProperties) isLabel toASCII
      s).info.errors &&& contextOErrors ≠ 0 := by
  have hcontext := (addsErrors_checkLabelContextO env.toCharacterProperties).grows
  unfold scanBlock at hb
  split at hb
  · rename_i hlt
    split at hb
    · rename_i hdot
      have hflagged := processLabel_flagged hb h
      generalize hturn : scanUnit env options (checkLabelContextO env.toCharacterProperties) isLabel
        toASCII s = turn
      have hout : turn.out.info.errors &&& contextOErrors ≠ 0 := by
        rw [← hturn]
        unfold scanUnit
        simp only [if_pos hdot]
        split <;> exact hflagged
      cases turn with
      | again s' =>
        rw [processLabels_again _ _ _ _ _ hlt hturn]
        exact fun hzero => hout ((processLabels_grows hcontext s').errors _ hzero)
      | returned o =>
        rw [processLabels_returned _ _ _ _ _ hlt hturn]
        exact hout
    · cases hb
  · rename_i hend
    split at hb
    · rename_i hlast
      rw [processLabels_end _ _ _ _ _ hend, lastLabel, if_pos hlast]
      exact processLabel_flagged hb h
    · cases hb

/-- **With a flagged label**, `common` reports an error of CONTEXTO. -/
theorem processLabels_flagged {s : Scan} {b : BlockLabel}
    (hb : ComesToBlock env options isLabel toASCII b s) (h : Flagged env.toCharacterProperties b)
    {s₂ : Scan} (hs₂ : s₂.clear contextOErrors = s.clear contextOErrors) :
    (processLabels env options (checkLabelContextO env.toCharacterProperties) isLabel toASCII
      s₂).info.errors &&& contextOErrors ≠ 0 := by
  induction hb generalizing s₂ with
  | here s hb =>
    refine processLabels_flagged_here ?_ h
    rw [← scanBlock_clear withinContextO_contextOErrors, hs₂,
      scanBlock_clear withinContextO_contextOErrors, hb]
  | later s s' hlt hs _ ih =>
    -- the two runs differ in the bits of CONTEXTO only
    have hturn : (scanUnit env options (checkLabelContextO env.toCharacterProperties) isLabel toASCII
        s₂).clear contextOErrors = (Turn.again s').clear contextOErrors := by
      rw [clear_scanUnit env withinContextO_contextOErrors (clear_contextOBlock_copies options _),
        hs₂, ← hs, clear_scanUnit env withinContextO_contextOErrors
          (clear_contextOBlock_icuDemo options)]
    have hlt₂ : s₂.labelLimit < s₂.destLength := by
      show (s₂.clear contextOErrors).labelLimit < (s₂.clear contextOErrors).destLength
      rw [hs₂]
      exact hlt
    cases hs₂' : scanUnit env options (checkLabelContextO env.toCharacterProperties) isLabel toASCII
      s₂ with
    | again s₂' =>
      rw [hs₂'] at hturn
      rw [processLabels_again _ _ _ _ _ hlt₂ hs₂']
      exact ih (Turn.again.inj hturn)
    | returned o =>
      rw [hs₂'] at hturn
      cases hturn

end

/-! ## The whole name -/

section

variable (env : Environment) (options : UInt32)

/-- Where the loop of `processUnicode` starts, if it does. -/
def unicodeScan (toASCII : Bool) (src : WString) (labelStart mappingStart : Nat) (o : Output) :
    Option Scan :=
  let r := if mappingStart = 0 then env.normalize src o.errorCode
    else env.normalizeSecondAndAppend o.dest (src.drop mappingStart) o.errorCode
  if U_FAILURE r.2 then none
  else
    let doMapDevChars :=
      if toASCII then options &&& UIDNA_NONTRANSITIONAL_TO_ASCII == 0
      else options &&& UIDNA_NONTRANSITIONAL_TO_UNICODE == 0
    some ⟨doMapDevChars, r.1.length, labelStart, labelStart, { o with dest := r.1, errorCode := r.2 }⟩

/-- Where it starts in a run of `process`. -/
def processScan (isLabel toASCII : Bool) (src : UnicodeString) (same : Bool) (o : Output) :
    Option Scan :=
  if U_FAILURE o.errorCode then none
  else if same || src.isBogus then none
  else if src.length = 0 then none
  else
    match fastpath options isLabel toASCII src.units src.units 0 0 [] .reset with
    | .finished _ _ => none
    | .stopped destArray i labelStart info =>
      unicodeScan env options toASCII src.units labelStart i
        { o with dest := .text destArray, info := info.addErrors info.labelErrors }

/-- In a run of `nameToASCII` of `icu_demo`, the label comes to the block. -/
def IcuDemo.ComesToBlock (name : UnicodeString) (same : Bool) (o : Output) (b : BlockLabel) : Prop :=
  ∃ s ∈ processScan env options false true name same o,
    Uts46.ComesToBlock env options false true b s

theorem processUnicode_scan (isLabel toASCII : Bool) (src : WString)
    (labelStart mappingStart : Nat) (o : Output) :
    (unicodeScan env options toASCII src labelStart mappingStart o = none ∧
      ∃ r, ∀ contextO,
        processUnicode env options contextO isLabel toASCII src labelStart mappingStart o = r) ∨
    ∃ s, unicodeScan env options toASCII src labelStart mappingStart o = some s ∧
      ∀ contextO, processUnicode env options contextO isLabel toASCII src labelStart mappingStart o =
        processLabels env options contextO isLabel toASCII s := by
  unfold unicodeScan processUnicode
  generalize (if mappingStart = 0 then env.normalize src o.errorCode
    else env.normalizeSecondAndAppend o.dest (src.drop mappingStart) o.errorCode) = normalized
  cases hcode : U_FAILURE normalized.2 with
  | true => exact Or.inl ⟨by simp [hcode], _, fun _ => if_pos hcode⟩
  | false =>
    simp only [hcode, Bool.false_eq_true, if_false]
    exact Or.inr ⟨_, rfl, fun _ => rfl⟩

/-- The check of CONTEXTO is called in the loop only. -/
theorem process_scan (isLabel toASCII : Bool) (src : UnicodeString) (same : Bool) (o : Output) :
    (processScan env options isLabel toASCII src same o = none ∧
      ∃ r, ∀ contextO, process env options contextO isLabel toASCII src same o = r) ∨
    ∃ s labelStart, processScan env options isLabel toASCII src same o = some s ∧
      ∀ contextO, process env options contextO isLabel toASCII src same o =
        bidiName labelStart (processLabels env options contextO isLabel toASCII s) := by
  unfold processScan process
  by_cases hcode : U_FAILURE o.errorCode = true
  · rw [if_pos hcode]
    exact Or.inl ⟨rfl, _, fun _ => if_pos hcode⟩
  rw [if_neg hcode]
  simp only [if_neg hcode]
  by_cases hsame : (same || src.isBogus) = true
  · rw [if_pos hsame]
    exact Or.inl ⟨rfl, _, fun _ => if_pos hsame⟩
  rw [if_neg hsame]
  simp only [if_neg hsame]
  by_cases hempty : src.length = 0
  · rw [if_pos hempty]
    exact Or.inl ⟨rfl, _, fun _ => if_pos hempty⟩
  rw [if_neg hempty]
  simp only [if_neg hempty]
  cases fastpath options isLabel toASCII src.units src.units 0 0 [] .reset with
  | finished destArray info => exact Or.inl ⟨rfl, _, fun _ => rfl⟩
  | stopped destArray i labelStart info =>
    simp only
    rcases processUnicode_scan env options isLabel toASCII src.units
      labelStart i { o with dest := .text destArray, info := info.addErrors info.labelErrors }
      with ⟨hnone, r, hr⟩ | ⟨s, hs, hrun⟩
    · exact Or.inl ⟨hnone, bidiName labelStart r, fun contextO => by rw [hr]⟩
    · exact Or.inr ⟨s, labelStart, hs, fun contextO => by rw [hrun]⟩

variable {env options} in
/-- The demo sets no error of CONTEXTO. -/
theorem icuDemo_unset {name : UnicodeString} {same : Bool} {o : Output} {s : Scan}
    (hs : processScan env options false true name same o = some s) :
    (IcuDemo.nameToASCII env options name same o).info.errors &&& contextOErrors = 0 := by
  have hreset := icuDemo_errors env options name same { o with info := .reset }
    UInt32.zero_and
  have hsame : IcuDemo.nameToASCII env options name same { o with info := .reset } =
      IcuDemo.nameToASCII env options name same o := by
    unfold processScan at hs
    split at hs
    · cases hs
    · split at hs
      · cases hs
      · rename_i hcode hsame
        simp only [IcuDemo.nameToASCII, nameToASCII, process, if_neg hcode, if_neg hsame]
  rw [← hsame]
  exact hreset

variable {env options} in
/-- A run in which no flagged label comes to the block is one of `common`, too. -/
theorem nameToASCII_unflagged {name : UnicodeString} {same : Bool} {o : Output}
    (h : ∀ b, IcuDemo.ComesToBlock env options name same o b →
      ¬ Flagged env.toCharacterProperties b) :
    Common.nameToASCII env options name same o = IcuDemo.nameToASCII env options name same o := by
  have hprocess : process env options (checkLabelContextO env.toCharacterProperties) false true name
      same o = process env options (fun _ _ info => info) false true name same o := by
    rcases process_scan env options false true name same o with
      ⟨-, r, hr⟩ | ⟨s, labelStart, hs, hrun⟩
    · rw [hr, hr]
    · rw [hrun, hrun, processLabels_unflagged fun b hb => h b ⟨s, hs, hb⟩]
  simp only [Common.nameToASCII, IcuDemo.nameToASCII, nameToASCII, hprocess]

variable {env options} in
/-- With a flagged label at the block, `common` reports an error of CONTEXTO and the demo none. -/
theorem nameToASCII_flagged {name : UnicodeString} {same : Bool} {o : Output} {b : BlockLabel}
    (hb : IcuDemo.ComesToBlock env options name same o b) (h : Flagged env.toCharacterProperties b) :
    (IcuDemo.nameToASCII env options name same o).info.errors ≠
      (Common.nameToASCII env options name same o).info.errors := by
  obtain ⟨s, hs, hb⟩ := hb
  have hunset := icuDemo_unset hs
  intro heq
  rw [heq] at hunset
  have hprocess := (nameToASCII_grows env options _ name same o).errors _ hunset
  rcases process_scan env options false true name same o with
    ⟨hnone, -⟩ | ⟨s', labelStart, hs', hrun⟩
  · exact absurd (hnone.symm.trans hs) (Option.some_ne_none s).symm
  · obtain rfl := Option.some.inj (hs'.symm.trans hs)
    rw [hrun] at hprocess
    exact processLabels_flagged hb h rfl ((bidiName_grows labelStart _).errors _ hprocess)

/-- **What the copies agree on.** For every options word and every name, with any
normalizer, character properties and Punycode codec, the two copies leave the same
string, transitional flag and error code, and the same error bits but for the two of
CONTEXTO; the demo sets neither of these; and without UIDNA_CHECK_CONTEXTO the two
copies agree in everything.  With it, they agree in everything that is reported exactly when
`checkLabelContextO` has no error for any label that comes to the empty block. -/
theorem nameToASCII_agrees (name : UnicodeString) (same : Bool) (o : Output) :
    let demo := IcuDemo.nameToASCII env options name same o
    let common := Common.nameToASCII env options name same o
    ((demo.dest = common.dest ∧ demo.info.errors = common.info.errors ∧
        demo.info.isTransDiff = common.info.isTransDiff ∧ demo.errorCode = common.errorCode) ↔
      ∀ b, IcuDemo.ComesToBlock env options name same o b →
        ¬ Flagged env.toCharacterProperties b) ∧
      demo.dest = common.dest ∧
      demo.info.isTransDiff = common.info.isTransDiff ∧
      demo.errorCode = common.errorCode ∧
      demo.info.errors &&& ~~~contextOErrors = common.info.errors &&& ~~~contextOErrors ∧
      (o.info.errors &&& contextOErrors = 0 → demo.info.errors &&& contextOErrors = 0) ∧
      (options &&& UIDNA_CHECK_CONTEXTO = 0 → demo = common) := by
  intro demo common
  have h : demo.clear contextOErrors = common.clear contextOErrors :=
    (clear_nameToASCII_icuDemo env options name same o).trans
      (clear_nameToASCII_copies env options name same o).symm
  have hdest : (demo.clear contextOErrors).dest = (common.clear contextOErrors).dest := by rw [h]
  have hcode : (demo.clear contextOErrors).errorCode = (common.clear contextOErrors).errorCode := by
    rw [h]
  have hinfo : (demo.clear contextOErrors).info = (common.clear contextOErrors).info := by rw [h]
  refine ⟨⟨fun hagree b hb hflagged => ?_, fun hflagged => ?_⟩, hdest, ?_, hcode, ?_,
    icuDemo_errors env options name same o, ?_⟩
  · exact nameToASCII_flagged hb hflagged hagree.2.1
  · have hsame : common = demo := nameToASCII_unflagged hflagged
    rw [hsame]
    exact ⟨rfl, rfl, rfl, rfl⟩
  · exact (congrArg IDNAInfo.isTransDiff hinfo :)
  · exact (congrArg IDNAInfo.errors hinfo :)
  · exact fun hopt => nameToASCII_copies_eq env options hopt name same o

/-- With UIDNA_CHECK_CONTEXTO, the copies disagree on the error bits of "·". -/
theorem middleDot_errors_differ :
    let o : Output := ⟨.text [], .reset, U_ZERO_ERROR⟩
    let demo := IcuDemo.nameToASCII middleDot UIDNA_CHECK_CONTEXTO (.text [0xb7]) false o
    let common := Common.nameToASCII middleDot UIDNA_CHECK_CONTEXTO (.text [0xb7]) false o
    demo.info.errors = 0 ∧ common.info.errors = UIDNA_ERROR_CONTEXTO_PUNCTUATION ∧
      demo.info.errors ≠ common.info.errors := by
  simp only [IcuDemo.nameToASCII, Common.nameToASCII, nameToASCII, middleDot_process]
  decide

end

end SearchAndIdna.Uts46
