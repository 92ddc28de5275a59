import SearchAndIdna.CleanLabel

/-!
# A label and its surroundings

`processLabel` works in place, on a part of `dest`, and its checks run along a
pointer into it.  What it does depends on that part alone, as long as the part is
well-formed UTF-16, and it leaves everything else where it is.

* `U16_NEXT_UNSAFE_within`, `U16_PREV_UNSAFE_within`: the macros stay inside a
  well-formed label;
* `checkLabelBiDi_within`, `isLabelOkContextJ_within`, `checkLabelContextO_within`:
  so do the checks;
* `processLabel_within`: so does `processLabel`.
-/

namespace SearchAndIdna.Uts46

open UnicodeString Utf16 Punycode

/-! ## Pointers -/

/-- The same pointer, with more units around the buffer. -/
def UCharPointer.within (front behind : WString) (p : UCharPointer) : UCharPointer :=
  ⟨front ++ p.buffer ++ behind, front.length + p.offset⟩

/-- The buffer is the label. -/
structure UCharPointer.Whole (p : UCharPointer) : Prop where
  offset : p.offset = 0
  wellFormed : WellFormed p.buffer

section

variable {p : UCharPointer} (hp : p.Whole) (front behind : WString) {i : Int}

include hp

theorem at_whole (hi : 0 ≤ i) : p.at i = p.buffer.getD i.toNat 0 := by
  have hnat : (p.offset : Int) + i = i := by
    rw [hp.offset]
    omega
  rw [UCharPointer.at, hnat, if_neg (Int.not_lt.mpr hi)]

theorem at_within (hi : 0 ≤ i) (hlt : i < p.buffer.length) :
    (p.within front behind).at i = p.at i := by
  have hnat : ((front.length + p.offset : Nat) + i).toNat = front.length + i.toNat := by
    rw [hp.offset]
    omega
  rw [at_whole hp hi, UCharPointer.at, UCharPointer.within,
    if_neg (Int.not_lt.mpr (by omega))]
  simp only [hnat]
  rw [List.append_assoc, List.getD_append_right _ _ _ _ (by omega), Nat.add_sub_cancel_left,
    List.getD_append _ _ _ _ (by omega)]

/-- Behind the first unit of a pair, inside the label, is the second one. -/
theorem isLow_next (hi : 0 ≤ i) (hhigh : isHigh (p.at i) = true) : isLow (p.at (i + 1)) = true := by
  have hnat : (i + 1).toNat = i.toNat + 1 := by omega
  rw [at_whole hp hi] at hhigh
  rw [at_whole hp (by omega), hnat]
  exact (hp.wellFormed.isHigh_iff _).mp hhigh

/-- Only the end of the label reads as 0. -/
theorem lt_of_isLow (hi : 0 ≤ i) (hlow : isLow (p.at i) = true) : i < p.buffer.length := by
  by_contra hge
  rw [at_whole hp hi, List.getD_eq_default _ _ (by omega)] at hlow
  exact absurd hlow Bool.false_ne_true

/-- The second unit of a pair is not at the start of the label. -/
theorem pos_of_isLow (hi : 0 ≤ i) (hlow : isLow (p.at i) = true) : 0 < i := by
  rcases Int.lt_or_eq_of_le hi with hpos | rfl
  · exact hpos
  · rw [at_whole hp hi] at hlow
    exact absurd (hp.wellFormed.first.symm.trans hlow) (by decide)

theorem U16_NEXT_UNSAFE_within (hi : 0 ≤ i) (hlt : i < p.buffer.length) :
    U16_NEXT_UNSAFE (p.within front behind) i = U16_NEXT_UNSAFE p i := by
  unfold U16_NEXT_UNSAFE
  rw [at_within hp front behind hi hlt]
  cases hhigh : isHigh (p.at i) with
  | false => simp only [Bool.false_eq_true, if_false]
  | true =>
    have hnext := lt_of_isLow hp (by omega) (isLow_next hp hi hhigh)
    rw [at_within hp front behind (by omega) hnext]

theorem U16_NEXT_UNSAFE_le (hi : 0 ≤ i) (hlt : i < p.buffer.length) :
    (U16_NEXT_UNSAFE p i).2 ≤ p.buffer.length := by
  unfold U16_NEXT_UNSAFE
  split
  · rename_i hhigh
    have hnext := lt_of_isLow hp (by omega) (isLow_next hp hi hhigh)
    show i + 2 ≤ _
    omega
  · show i + 1 ≤ _
    omega

theorem U16_PREV_UNSAFE_within (hi : 0 < i) (hle : i ≤ p.buffer.length) :
    U16_PREV_UNSAFE (p.within front behind) i = U16_PREV_UNSAFE p i := by
  unfold U16_PREV_UNSAFE
  rw [at_within hp front behind (by omega) (by omega)]
  cases hlow : isLow (p.at (i - 1)) with
  | false => simp only [Bool.false_eq_true, if_false]
  | true =>
    have hpos := pos_of_isLow hp (by omega) hlow
    rw [at_within hp front behind (by omega) (by omega)]

theorem U16_PREV_UNSAFE_nonneg (hi : 0 < i) : 0 ≤ (U16_PREV_UNSAFE p i).2 := by
  unfold U16_PREV_UNSAFE
  split
  · rename_i hlow
    have hpos := pos_of_isLow hp (by omega) hlow
    show 0 ≤ i - 2
    omega
  · show 0 ≤ i - 1
    omega

theorem U16_NEXT_within (hi : 0 ≤ i) (hlt : i < p.buffer.length) :
    U16_NEXT (p.within front behind) i p.buffer.length = U16_NEXT p i p.buffer.length := by
  unfold U16_NEXT
  rw [at_within hp front behind hi hlt]
  by_cases hend : i + 1 = p.buffer.length
  · simp [hend]
  · rw [at_within hp front behind (by omega) (by omega)]

theorem U16_PREV_within (hi : 0 < i) (hle : i ≤ p.buffer.length) :
    U16_PREV (p.within front behind) 0 i = U16_PREV p 0 i := by
  unfold U16_PREV
  rw [at_within hp front behind (by omega) (by omega)]
  by_cases hstart : 0 < i - 1
  · rw [at_within hp front behind (by omega) (by omega)]
  · simp only [hstart, decide_false, Bool.and_false, Bool.false_and, Bool.false_eq_true, if_false]

end

/-! ## The checks -/

section

variable (props : CharacterProperties) {p : UCharPointer} (hp : p.Whole) (front behind : WString)

include hp

theorem lastNonNSM_within {i : Int} (hi : 0 ≤ i) (firstMask : UInt32) {labelLength : Int}
    (hle : labelLength ≤ p.buffer.length) :
    lastNonNSM props (p.within front behind) i firstMask labelLength =
      lastNonNSM props p i firstMask labelLength := by
  induction labelLength using lastNonNSM.induct props p i with
  | case1 labelLength hend => rw [lastNonNSM, if_pos hend, lastNonNSM, if_pos hend]
  | case2 labelLength hend prev dir hdir =>
    have hprev := U16_PREV_UNSAFE_within hp front behind (i := labelLength) (by omega) hle
    rw [lastNonNSM, if_neg hend, lastNonNSM, if_neg hend, hprev]
    simp only
    rw [if_pos hdir, if_pos hdir]
  | case3 labelLength hend prev dir hdir ih =>
    have hprev := U16_PREV_UNSAFE_within hp front behind (i := labelLength) (by omega) hle
    have hlt := U16_PREV_UNSAFE_lt p labelLength
    rw [lastNonNSM, if_neg hend, lastNonNSM, if_neg hend, hprev]
    simp only
    rw [if_neg hdir, if_neg hdir]
    exact ih (by show (U16_PREV_UNSAFE p labelLength).2 ≤ _; omega)

omit hp in
theorem lastNonNSM_le {i : Int} (firstMask : UInt32) (labelLength : Int) :
    (lastNonNSM props p i firstMask labelLength).2 ≤ labelLength := by
  induction labelLength using lastNonNSM.induct props p i with
  | case1 labelLength hend => rw [lastNonNSM, if_pos hend]
  | case2 labelLength hend prev dir hdir =>
    have hlt := U16_PREV_UNSAFE_lt p labelLength
    rw [lastNonNSM, if_neg hend]
    simp only
    rw [if_pos hdir]
    exact Int.le_of_lt hlt
  | case3 labelLength hend prev dir hdir ih =>
    have hlt := U16_PREV_UNSAFE_lt p labelLength
    rw [lastNonNSM, if_neg hend]
    simp only
    rw [if_neg hdir]
    exact Int.le_trans ih (Int.le_of_lt hlt)

theorem directionMask_within {labelLength i : Int} (hi : 0 ≤ i)
    (hle : labelLength ≤ p.buffer.length) (mask : UInt32) :
    directionMask props (p.within front behind) labelLength i mask =
      directionMask props p labelLength i mask := by
  induction i, mask using directionMask.induct props p labelLength with
  | case1 i mask hlt next ih =>
    have hnext := U16_NEXT_UNSAFE_lt p i
    rw [directionMask, if_pos hlt, U16_NEXT_UNSAFE_within hp front behind hi (by omega)]
    conv_rhs => rw [directionMask, if_pos hlt]
    exact ih (by show 0 ≤ (U16_NEXT_UNSAFE p i).2; omega)
  | case2 i mask hend => rw [directionMask, if_neg hend, directionMask, if_neg hend]

/-- The BiDi rule looks at the label only. -/
theorem checkLabelBiDi_within (hne : p.buffer ≠ []) (info : IDNAInfo) :
    checkLabelBiDi props (p.within front behind) p.buffer.length info =
      checkLabelBiDi props p p.buffer.length info := by
  have hpos := List.length_pos_iff.mpr hne
  have hfirst := U16_NEXT_UNSAFE_within hp front behind (i := 0) (by omega) (by omega)
  have hnonneg := U16_NEXT_UNSAFE_lt p 0
  unfold checkLabelBiDi
  simp only
  rw [hfirst, lastNonNSM_within props hp front behind (by omega) _ (by omega),
    directionMask_within props hp front behind (by omega) (lastNonNSM_le props _ _)]

theorem precontext_within {j : Int} (hj : 0 ≤ j) (hle : j ≤ p.buffer.length) (c : UChar32) :
    precontext props (p.within front behind) j c = precontext props p j c := by
  have hoffset := hp.offset
  have hwithin : (p.within front behind).offset = front.length + p.offset := rfl
  induction j, c using precontext.induct props p with
  | case1 c htype =>
    rw [precontext.eq_def props (p.within front behind), precontext.eq_def props p, htype,
      if_pos rfl, if_pos rfl]
  | case2 j c htype hzero hstart =>
    rw [hoffset] at hstart
    omega
  | case3 j c htype hzero hstart prev ih =>
    have hpos : 0 < j := by omega
    have hlt := U16_PREV_UNSAFE_lt p j
    have hprev : 0 ≤ (U16_PREV_UNSAFE p j).2 := U16_PREV_UNSAFE_nonneg hp hpos
    have hstart' : ¬ ((p.within front behind).offset : Int) + j ≤ 0 := by
      rw [hwithin]
      omega
    rw [precontext.eq_def props (p.within front behind), precontext.eq_def props p, htype]
    simp only
    rw [if_neg hzero, if_neg hzero, if_neg hstart, if_neg hstart',
      U16_PREV_UNSAFE_within hp front behind hpos hle]
    exact ih hprev (by show (U16_PREV_UNSAFE p j).2 ≤ _; omega)
  | case4 j c htype =>
    rw [precontext.eq_def props (p.within front behind), precontext.eq_def props p, htype]
  | case5 j c htype =>
    rw [precontext.eq_def props (p.within front behind), precontext.eq_def props p, htype]
  | case6 j c htransparent hleft hdual =>
    rw [precontext.eq_def props (p.within front behind), precontext.eq_def props p]
    split <;> first | rfl | contradiction

omit hp in
theorem postcontext_lt {labelLength j : Int} (hend : j ≠ labelLength)
    (hpast : p.offset + j < p.buffer.length) :
    postcontext props p labelLength j =
      match props.ubidi_getJoiningType (U16_NEXT_UNSAFE p j).1 with
      | .transparent => postcontext props p labelLength (U16_NEXT_UNSAFE p j).2
      | .rightJoining | .dualJoining => true
      | _ => false := by
  have hdef := postcontext.eq_def props p labelLength j
  rw [if_neg hend, if_neg (Int.not_le.mpr hpast)] at hdef
  exact hdef

theorem postcontext_within {j : Int} (hj : 0 ≤ j) (hle : j ≤ p.buffer.length) :
    postcontext props (p.within front behind) p.buffer.length j =
      postcontext props p p.buffer.length j := by
  have hoffset := hp.offset
  have hpast : ∀ j : Int, 0 ≤ j → j < p.buffer.length →
      ((p.within front behind).offset : Int) + j < (p.within front behind).buffer.length := by
    intro j hj hlt
    simp only [UCharPointer.within, List.length_append]
    omega
  induction j using postcontext.induct props p p.buffer.length with
  | case1 =>
    rw [postcontext.eq_def props (p.within front behind), postcontext.eq_def props p, if_pos rfl,
      if_pos rfl]
  | case2 j hend hbehind =>
    rw [hoffset] at hbehind
    omega
  | case3 j hend hbehind next htype ih =>
    have hlt : j < p.buffer.length := by omega
    have hnext := U16_NEXT_UNSAFE_lt p j
    rw [postcontext_lt props hend (hpast j hj hlt), U16_NEXT_UNSAFE_within hp front behind hj hlt,
      postcontext_lt props hend (Int.not_le.mp hbehind), htype]
    exact ih (by show 0 ≤ (U16_NEXT_UNSAFE p j).2; omega) (U16_NEXT_UNSAFE_le hp hj hlt)
  | case4 j hend hbehind next htype =>
    have hlt : j < p.buffer.length := by omega
    rw [postcontext_lt props hend (hpast j hj hlt), U16_NEXT_UNSAFE_within hp front behind hj hlt,
      postcontext_lt props hend (Int.not_le.mp hbehind), htype]
  | case5 j hend hbehind next htype =>
    have hlt : j < p.buffer.length := by omega
    rw [postcontext_lt props hend (hpast j hj hlt), U16_NEXT_UNSAFE_within hp front behind hj hlt,
      postcontext_lt props hend (Int.not_le.mp hbehind), htype]
  | case6 j hend hbehind next htransparent hright hdual =>
    have hlt : j < p.buffer.length := by omega
    rw [postcontext_lt props hend (hpast j hj hlt), U16_NEXT_UNSAFE_within hp front behind hj hlt,
      postcontext_lt props hend (Int.not_le.mp hbehind)]
    split <;> first | rfl | contradiction

/-- So does CONTEXTJ. -/
theorem isLabelOkContextJ_within :
    isLabelOkContextJ props (p.within front behind) p.buffer.length =
      isLabelOkContextJ props p p.buffer.length := by
  unfold isLabelOkContextJ
  rw [Bool.eq_iff_iff, List.all_eq_true, List.all_eq_true]
  refine forall₂_congr fun i hi => Eq.congr_left ?_
  have hlt := List.mem_range.mp hi
  unfold isContextJOkAt
  rw [at_within hp front behind (by omega) (by omega)]
  by_cases hzero : i = 0
  · simp only [hzero, if_true]
  · have hpos : (0 : Int) < i := by omega
    have hprev := U16_PREV_UNSAFE_lt p i
    simp only [hzero, if_false]
    rw [U16_PREV_UNSAFE_within hp front behind hpos (by omega),
      precontext_within props hp front behind (U16_PREV_UNSAFE_nonneg hp hpos) (by omega),
      postcontext_within props hp front behind (by omega) (by omega)]

omit hp in
theorem noKana_lt {labelLength j : Int} (hend : ¬ labelLength - 1 < j) :
    noKana props p labelLength j =
      match props.uscript_getScript (U16_NEXT p j labelLength).1 with
      | .hiragana | .katakana | .han => false
      | _ => noKana props p labelLength (U16_NEXT p j labelLength).2 := by
  have hdef := noKana.eq_def props p labelLength j
  rw [if_neg hend] at hdef
  exact hdef

theorem noKana_within {j : Int} (hj : 0 ≤ j) :
    noKana props (p.within front behind) p.buffer.length j =
      noKana props p p.buffer.length j := by
  induction j using noKana.induct props p p.buffer.length with
  | case1 j hend =>
    rw [noKana.eq_def props (p.within front behind), noKana.eq_def props p, if_pos hend,
      if_pos hend]
  | case2 j hend next hscript =>
    rw [noKana_lt props hend, noKana_lt props hend,
      U16_NEXT_within hp front behind hj (by omega), hscript]
  | case3 j hend next hscript =>
    rw [noKana_lt props hend, noKana_lt props hend,
      U16_NEXT_within hp front behind hj (by omega), hscript]
  | case4 j hend next hscript =>
    rw [noKana_lt props hend, noKana_lt props hend,
      U16_NEXT_within hp front behind hj (by omega), hscript]
  | case5 j hend next hhiragana hkatakana hhan ih =>
    have hnext := U16_NEXT_lt p j p.buffer.length
    rw [noKana_lt props hend, noKana_lt props hend,
      U16_NEXT_within hp front behind hj (by omega),
      ih (by show 0 ≤ (U16_NEXT p j _).2; omega)]

theorem contextOAt_within {i : Int} (hi : 0 ≤ i) (hlt : i < p.buffer.length) (arabicDigits : Int)
    (info : IDNAInfo) :
    contextOAt props (p.within front behind) p.buffer.length i arabicDigits info =
      contextOAt props p p.buffer.length i arabicDigits info := by
  have hbefore : 0 < i → (p.within front behind).at (i - 1) = p.at (i - 1) := fun hpos =>
    at_within hp front behind (by omega) (by omega)
  have hbehind : i < p.buffer.length - 1 → (p.within front behind).at (i + 1) = p.at (i + 1) :=
    fun hlast => at_within hp front behind (by omega) (by omega)
  have hprev : 0 < i → U16_PREV (p.within front behind) 0 i = U16_PREV p 0 i := fun hpos =>
    U16_PREV_within hp front behind hpos (by omega)
  have hnext : i < p.buffer.length - 1 → U16_NEXT (p.within front behind) (i + 1) p.buffer.length =
      U16_NEXT p (i + 1) p.buffer.length :=
    fun hlast => U16_NEXT_within hp front behind (by omega) (by omega)
  unfold contextOAt
  simp only
  rw [at_within hp front behind hi hlt, noKana_within props hp front behind (Int.le_refl 0)]
  by_cases hpos : 0 < i <;> by_cases hlast : i < (p.buffer.length : Int) - 1 <;>
    simp only [hpos, hlast, hbefore, hbehind, hprev, hnext, decide_true, decide_false,
      Bool.false_and, Bool.and_false, if_true, if_false]

/-- So does CONTEXTO. -/
theorem checkLabelContextO_within (info : IDNAInfo) :
    checkLabelContextO props (p.within front behind) p.buffer.length info =
      checkLabelContextO props p p.buffer.length info := by
  have hfrom : ∀ (n : Nat) (i : Int), 0 ≤ i → i + n ≤ p.buffer.length →
      ∀ (arabicDigits : Int) (info : IDNAInfo),
        checkLabelContextOFrom props (p.within front behind) p.buffer.length n i arabicDigits info =
          checkLabelContextOFrom props p p.buffer.length n i arabicDigits info := by
    intro n
    induction n with
    | zero => exact fun _ _ _ _ _ => rfl
    | succ n ih =>
      intro i hi hle arabicDigits info
      unfold checkLabelContextOFrom
      rw [contextOAt_within props hp front behind hi (by omega)]
      exact ih (i + 1) (by omega) (by omega) _ _
  exact hfrom p.buffer.length 0 (Int.le_refl 0) (by omega) 0 info

end

/-! ## The loop over the label -/

section

variable (options : UInt32)

/-- What the loop leaves of a unit. -/
def checkedUnit (c : WChar) : WChar :=
  if c ≤ 0x7f then
    if c = 0x2e ∨ (disallowNonLDHDot options && decide (asciiData c < 0)) then 0xfffd else c
  else if disallowNonLDHDot options && isNonASCIIDisallowedSTD3Valid c then 0xfffd else c

/-- The errors that it adds. -/
def unitErrors (info : IDNAInfo) (c : WChar) : IDNAInfo :=
  if c = 0x2e then info.addLabelErrors UIDNA_ERROR_LABEL_HAS_DOT
  else info.addLabelErrorsIf (checkedUnit options c == 0xfffd) UIDNA_ERROR_DISALLOWED

theorem checkUnit_eq {c : WChar} {s : Nat} {st : Validity} (hs : s < st.buffer.length)
    (hc : st.buffer.getD s 0 = c) :
    checkUnit options c s st =
      ⟨st.buffer.set s (checkedUnit options c), orNonASCII st.oredChars c,
        unitErrors options st.info c⟩ := by
  have hset : st.buffer.set s c = st.buffer := by
    rw [← hc, List.getD_eq_getElem _ _ hs, List.set_getElem_self]
  unfold checkUnit unitErrors checkedUnit orNonASCII
  by_cases hascii : c ≤ 0x7f
  · have hvalid : (c == 0xfffd) = false := by
      rw [beq_eq_false_iff_ne]
      rintro rfl
      exact absurd hascii (by decide)
    simp only [hascii, if_true]
    by_cases hdot : c = 0x2e
    · simp only [hdot, true_or, if_true]
    · by_cases hstd : (disallowNonLDHDot options && decide (asciiData c < 0)) = true
      · simp only [hdot, hstd, or_true, if_true, if_false]
        rfl
      · simp only [hdot, hstd, or_false, if_false, Bool.false_eq_true, hset, hvalid]
        rfl
  · have hdot : c ≠ 0x2e := by
      rintro rfl
      exact absurd hascii (by decide)
    simp only [hascii, hdot, if_false]
    by_cases hstd : (disallowNonLDHDot options && isNonASCIIDisallowedSTD3Valid c) = true
    · simp only [hstd, if_true]
      rfl
    · simp only [hstd, Bool.false_eq_true, if_false, hset]

/-- The loop over the label, unit by unit. -/
theorem checkUnits_eq (front label behind : WString) (st : Validity)
    (hbuffer : st.buffer = front ++ label ++ behind) :
    checkUnits options label.length front.length st =
      ⟨front ++ label.map (checkedUnit options) ++ behind, label.foldl orNonASCII st.oredChars,
        label.foldl (unitErrors options) st.info⟩ := by
  induction label generalizing front st with
  | nil =>
    cases st
    cases hbuffer
    rfl
  | cons c label ih =>
    have hlt : front.length < st.buffer.length := by
      rw [hbuffer]
      simp only [List.length_append, List.length_cons]
      omega
    have hc : st.buffer.getD front.length 0 = c := by
      rw [hbuffer]
      simp [List.getD_eq_getElem?_getD]
    have hrest := ih (front ++ [checkedUnit options c])
      ⟨st.buffer.set front.length (checkedUnit options c), orNonASCII st.oredChars c,
        unitErrors options st.info c⟩ (by
          rw [hbuffer]
          simp)
    rw [List.length_append, List.length_singleton] at hrest
    rw [List.length_cons, checkUnits, hc, checkUnit_eq options hlt hc, hrest]
    simp

/-- No surrogate comes or goes. -/
theorem wellFormed_checked {label : WString} (h : WellFormed label) :
    WellFormed (label.map (checkedUnit options)) := by
  have hsame : ∀ u, checkedUnit options u = u ∨
      checkedUnit options u = 0xfffd ∧ isHigh u = false ∧ isLow u = false := by
    intro u
    unfold checkedUnit
    split
    · rename_i hascii
      have hlt : u.toNat ≤ 0x7f := hascii
      split
      · refine Or.inr ⟨rfl, ?_, ?_⟩
        · rw [isHigh, Bool.and_eq_false_iff, decide_eq_false_iff_not, decide_eq_false_iff_not]
          omega
        · rw [isLow, Bool.and_eq_false_iff, decide_eq_false_iff_not, decide_eq_false_iff_not]
          omega
      · exact Or.inl rfl
    · split
      · rename_i hstd
        have hthree := (Bool.and_eq_true_iff.mp hstd).2
        simp only [isNonASCIIDisallowedSTD3Valid, Bool.or_eq_true, beq_iff_eq] at hthree
        rcases hthree with (rfl | rfl) | rfl <;> exact Or.inr ⟨rfl, rfl, rfl⟩
      · exact Or.inl rfl
  refine h.map (fun u => ?_) fun u => ?_
  · rcases hsame u with h | ⟨h, hhigh, -⟩
    · rw [h]
    · rw [h, hhigh]
      rfl
  · rcases hsame u with h | ⟨h, -, hlow⟩
    · rw [h]
    · rw [h, hlow]
      rfl

end

/-- Behind the first character. -/
theorem wellFormed_drop_first {p : UCharPointer} (hp : p.Whole) (hne : p.buffer ≠ []) :
    (U16_NEXT_UNSAFE p 0).2.toNat ≤ p.buffer.length ∧
      WellFormed (p.buffer.drop (U16_NEXT_UNSAFE p 0).2.toNat) := by
  obtain ⟨buffer, offset⟩ := p
  obtain ⟨hoffset, hwell⟩ := hp
  obtain rfl : offset = 0 := hoffset
  simp only at hwell hne ⊢
  induction hwell using WellFormed.induction with
  | nil => exact absurd rfl hne
  | unit u s hh hl hs ih =>
    have hnext : (U16_NEXT_UNSAFE ⟨u :: s, 0⟩ 0).2 = 1 := by
      have hu : UCharPointer.at ⟨u :: s, 0⟩ 0 = u := rfl
      rw [U16_NEXT_UNSAFE, hu, if_neg (by rw [hh]; decide)]
      rfl
    rw [hnext]
    exact ⟨by simp, hs⟩
  | pair u v s hu hv hs ih =>
    have hnext : (U16_NEXT_UNSAFE ⟨u :: v :: s, 0⟩ 0).2 = 2 := by
      have hat : UCharPointer.at ⟨u :: v :: s, 0⟩ 0 = u := rfl
      rw [U16_NEXT_UNSAFE, hat, if_pos hu]
      rfl
    rw [hnext]
    exact ⟨by simp, hs⟩

/-! ## The steps -/

/-- The output, with more units around `dest`. -/
def Output.within (front behind : WString) (o : Output) : Output :=
  { o with dest := .text (front ++ o.dest.units ++ behind) }

def withinResult {α : Type} (front behind : WString) (r : α × Output) : α × Output :=
  (r.1, r.2.within front behind)

/-- The label's place in the output with more units. -/
def Label.within (front : WString) (l : Label) : Label :=
  { l with
    labelStart := if l.labelString.isSome then l.labelStart else front.length + l.labelStart
    destLabelStart := front.length + l.destLabelStart }

def withinLabel (front behind : WString) (r : Label × Output) : Label × Output :=
  (r.1.within front, r.2.within front behind)

/-- `dest` is the label, and so is the string it is checked in. -/
structure Label.Whole (l : Label) (o : Output) : Prop where
  dest : o.dest.isBogus = false
  destStart : l.destLabelStart = 0
  destLength : l.destLabelLength = o.dest.units.length
  start : l.labelStart = 0
  length : l.labelLength = (o.labelBuffer l.labelString).length
  wellFormed : WellFormed (o.labelBuffer l.labelString)

/-- A check that looks at the label only. -/
def LocalCheck (contextO : UCharPointer → Nat → IDNAInfo → IDNAInfo) : Prop :=
  ∀ {p : UCharPointer}, p.Whole → ∀ (front behind : WString) (info : IDNAInfo),
    contextO (p.within front behind) p.buffer.length info = contextO p p.buffer.length info

theorem eq_text {s : UnicodeString} (h : s.isBogus = false) : s = .text s.units := by
  cases s with
  | bogus => cases h
  | text s => rfl

theorem within_replaceLabel (front behind : WString) {o : Output}
    (hdest : o.dest.isBogus = false) (label : Option WString) (labelLength : Nat) :
    withinResult front behind (replaceLabel 0 o.dest.units.length label labelLength o) =
      replaceLabel front.length o.dest.units.length label labelLength (o.within front behind) := by
  have htext := eq_text hdest
  unfold replaceLabel
  refine map_ite (withinResult front behind) (fun _ => rfl) (fun _ => ?_)
  cases label with
  | none => rfl
  | some label =>
    generalize o.dest.units = s at htext
    simp [Output.within, withinResult, htext, UnicodeString.replace, units, isBogus]

section

variable {l : Label} {o : Output} (hl : l.Whole o) (front behind : WString)

/-- What is the same from both pointers is the same from the label in its surroundings. -/
theorem pointer_local {α : Type} {f : UCharPointer → α}
    (hf : f ((l.pointer o).within front behind) = f (l.pointer o)) :
    f ((l.within front).pointer (o.within front behind)) = f (l.pointer o) := by
  cases hs : l.labelString with
  | none =>
    have hpointer : (l.within front).pointer (o.within front behind) =
        (l.pointer o).within front behind := by
      simp [Label.pointer, Label.within, Output.within, UCharPointer.within, Output.labelBuffer,
        hs, units]
    rw [hpointer, hf]
  | some s =>
    have hpointer : (l.within front).pointer (o.within front behind) = l.pointer o := by
      simp [Label.pointer, Label.within, Output.labelBuffer, hs]
    rw [hpointer]

include hl

theorem pointer_whole : (l.pointer o).Whole := ⟨hl.start, hl.wellFormed⟩

theorem pointer_length : ((l.pointer o).buffer.length : Int) = l.labelLength :=
  congrArg Nat.cast hl.length.symm

theorem within_hyphenErrors (hne : l.labelLength ≠ 0) :
    (hyphenErrors l o).within front behind =
      hyphenErrors (l.within front) (o.within front behind) := by
  have hlength := pointer_length hl
  have hat : ∀ i : Int, 0 ≤ i → i < l.labelLength →
      ((l.within front).pointer (o.within front behind)).at i = (l.pointer o).at i :=
    fun i hi hlt => pointer_local front behind (f := fun p => p.at i)
      (at_within (pointer_whole hl) front behind hi (by omega))
  have h34 : (decide (4 ≤ l.labelLength) &&
      ((l.within front).pointer (o.within front behind)).at 2 == 0x2d &&
        ((l.within front).pointer (o.within front behind)).at 3 == 0x2d) =
      (decide (4 ≤ l.labelLength) && (l.pointer o).at 2 == 0x2d && (l.pointer o).at 3 == 0x2d) := by
    by_cases hfour : 4 ≤ l.labelLength
    · rw [hat 2 (by omega) (by omega), hat 3 (by omega) (by omega)]
    · rw [decide_eq_false hfour]
      rfl
  have hlast : ((l.within front).pointer (o.within front behind)).at (l.labelLength - 1) =
      (l.pointer o).at (l.labelLength - 1) := hat _ (by omega) (by omega)
  unfold hyphenErrors
  show _ = (((o.within front behind).addLabelErrorsIf
      (decide (4 ≤ l.labelLength) &&
        ((l.within front).pointer (o.within front behind)).at 2 == 0x2d &&
          ((l.within front).pointer (o.within front behind)).at 3 == 0x2d) _).addLabelErrorsIf
      (((l.within front).pointer (o.within front behind)).at 0 == 0x2d) _).addLabelErrorsIf
    (((l.within front).pointer (o.within front behind)).at (l.labelLength - 1) == 0x2d) _
  rw [h34, hat 0 (Int.le_refl 0) (by omega), hlast]
  rfl

/-- The loop over the label, and what it writes. -/
theorem within_checkUnits (options : UInt32) {st st' : Validity}
    (hst : checkUnits options l.labelLength l.labelStart ⟨o.labelBuffer l.labelString, 0, o.info⟩ =
      st)
    (hst' : checkUnits options (l.within front).labelLength (l.within front).labelStart
      ⟨(o.within front behind).labelBuffer (l.within front).labelString, 0,
        (o.within front behind).info⟩ = st') :
    st'.oredChars = st.oredChars ∧
      (writeLabel st.buffer l { o with info := st.info }).1.Whole
        (writeLabel st.buffer l { o with info := st.info }).2 ∧
      withinLabel front behind (writeLabel st.buffer l { o with info := st.info }) =
        writeLabel st'.buffer (l.within front) { o.within front behind with info := st'.info } := by
  obtain ⟨hdest, hdestStart, hdestLength, hstart, hlength, hwell⟩ := hl
  have hchecked := wellFormed_checked options hwell
  obtain ⟨labelString, labelStart, labelLength, destLabelStart, destLabelLength, toASCII⟩ := l
  obtain ⟨dest, info, errorCode⟩ := o
  have htext := eq_text hdest
  simp only at hstart hdestStart hlength hdestLength htext
  subst hstart hdestStart hlength hdestLength
  cases labelString with
  | none =>
    obtain rfl := hst.symm.trans (checkUnits_eq options [] dest.units [] ⟨dest.units, 0, info⟩
      (List.append_nil _).symm)
    obtain rfl := hst'.symm.trans (checkUnits_eq options front dest.units behind
      ⟨front ++ dest.units ++ behind, 0, info⟩ rfl)
    rw [htext] at hchecked ⊢
    refine ⟨rfl, ⟨rfl, rfl, ?_, rfl, ?_, ?_⟩, ?_⟩
    · simp [writeLabel, setBuffer, units]
    · simp [writeLabel, setBuffer, units, Output.labelBuffer]
    · simpa [writeLabel, setBuffer, units, Output.labelBuffer] using hchecked
    · simp [withinLabel, writeLabel, setBuffer, units, Output.within, Label.within]
  | some s =>
    obtain rfl := hst.symm.trans (checkUnits_eq options [] s [] ⟨s, 0, info⟩
      (List.append_nil _).symm)
    obtain rfl := hst'.symm.trans (checkUnits_eq options [] s [] ⟨s, 0, info⟩
      (List.append_nil _).symm)
    refine ⟨rfl, ⟨hdest, rfl, rfl, rfl, ?_, ?_⟩, rfl⟩
    · simp [writeLabel, Output.labelBuffer]
    · simpa [writeLabel, Output.labelBuffer] using hchecked

theorem within_leadingCombiningMark (env : Environment) (hne : l.labelLength ≠ 0) :
    (leadingCombiningMark env l o).1.Whole (leadingCombiningMark env l o).2 ∧
      (leadingCombiningMark env l o).1.labelLength ≠ 0 ∧
      withinLabel front behind (leadingCombiningMark env l o) =
        leadingCombiningMark env (l.within front) (o.within front behind) := by
  have hp := pointer_whole hl
  have hbuffer : (l.pointer o).buffer ≠ [] := by
    intro h
    have hlength := pointer_length hl
    rw [h, List.length_nil] at hlength
    omega
  have hlocal : U16_NEXT_UNSAFE ((l.within front).pointer (o.within front behind)) 0 =
      U16_NEXT_UNSAFE (l.pointer o) 0 :=
    pointer_local front behind (f := fun p => U16_NEXT_UNSAFE p 0)
      (U16_NEXT_UNSAFE_within hp front behind (Int.le_refl 0)
        (by exact_mod_cast List.length_pos_iff.mpr hbuffer))
  obtain ⟨hle, hwell⟩ := wellFormed_drop_first hp hbuffer
  unfold leadingCombiningMark
  simp only [hlocal]
  by_cases hmark : (env.u_charType (U16_NEXT_UNSAFE (l.pointer o) 0).1).mask &&& U_GC_M_MASK ≠ 0
  · rw [if_pos hmark, if_pos hmark]
    generalize (U16_NEXT_UNSAFE (l.pointer o) 0).2.toNat = cpLength at hle hwell
    obtain ⟨hdest, hdestStart, hdestLength, hstart, hlength, -⟩ := hl
    obtain ⟨labelString, labelStart, labelLength, destLabelStart, destLabelLength, toASCII⟩ := l
    obtain ⟨dest, info, errorCode⟩ := o
    have htext := eq_text hdest
    simp only [Label.pointer] at hstart hdestStart hlength hdestLength htext hle hwell
    subst hstart hdestStart hlength hdestLength
    have hwell' : ∀ s : WString, WellFormed s → WellFormed ((0xfffd : WChar) :: s) :=
      fun s => (wellFormed_unit rfl rfl).mpr
    cases labelString with
    | none =>
      obtain ⟨u, rfl⟩ : ∃ u, dest = .text u := ⟨_, htext⟩
      simp only [Output.labelBuffer, units] at hle hwell hne
      refine ⟨⟨rfl, rfl, ?_, rfl, ?_, ?_⟩, ?_, ?_⟩
      · simp [UnicodeString.replace, units, Output.addLabelErrors, Output.labelBuffer]
        omega
      · simp [UnicodeString.replace, units, Output.addLabelErrors, Output.labelBuffer]
        omega
      · simpa [UnicodeString.replace, units, Output.addLabelErrors, Output.labelBuffer] using
          hwell' _ hwell
      · simp only [Output.labelBuffer, units]
        omega
      · simp [withinLabel, Output.within, Label.within, UnicodeString.replace, units,
          Output.addLabelErrors, Output.labelBuffer]
        exact (List.drop_append_of_le_length hle).symm
    | some s =>
      simp only [Output.labelBuffer] at hle hwell hne
      refine ⟨⟨hdest, rfl, rfl, rfl, ?_, ?_⟩, ?_, ?_⟩
      · simp [Output.labelBuffer]
        omega
      · simpa [Output.labelBuffer] using hwell' _ hwell
      · simp only [Output.labelBuffer]
        omega
      · simp [withinLabel, Output.within, Label.within, Output.addLabelErrors]
  · rw [if_neg hmark, if_neg hmark]
    exact ⟨hl, hne, rfl⟩

/-- The contextual checks; `contextO` is to look at the label only, too. -/
theorem within_contextualChecks (env : Environment) (options : UInt32)
    {contextO : UCharPointer → Nat → IDNAInfo → IDNAInfo}
    (hcontext : LocalCheck contextO) (hne : l.labelLength ≠ 0) (oredChars : WChar) :
    (contextualChecks env options contextO l oredChars o).within front behind =
      contextualChecks env options contextO (l.within front) oredChars
        (o.within front behind) := by
  have hp := pointer_whole hl
  have hlength : (l.pointer o).buffer.length = l.labelLength := hl.length.symm
  have hbuffer : (l.pointer o).buffer ≠ [] := by
    intro h
    rw [h, List.length_nil] at hlength
    exact hne hlength.symm
  have hbidi : ∀ info : IDNAInfo,
      checkLabelBiDi env.toCharacterProperties ((l.within front).pointer (o.within front behind))
        l.labelLength info = checkLabelBiDi env.toCharacterProperties (l.pointer o) l.labelLength info := by
    intro info
    refine pointer_local front behind
      (f := fun p => checkLabelBiDi env.toCharacterProperties p l.labelLength info) ?_
    rw [← hlength]
    exact checkLabelBiDi_within _ hp front behind hbuffer info
  have hjoin : isLabelOkContextJ env.toCharacterProperties
      ((l.within front).pointer (o.within front behind)) l.labelLength =
        isLabelOkContextJ env.toCharacterProperties (l.pointer o) l.labelLength := by
    refine pointer_local front behind
      (f := fun p => isLabelOkContextJ env.toCharacterProperties p l.labelLength) ?_
    rw [← hlength]
    exact isLabelOkContextJ_within _ hp front behind
  have hother : ∀ info : IDNAInfo,
      contextO ((l.within front).pointer (o.within front behind)) l.labelLength info =
        contextO (l.pointer o) l.labelLength info := by
    intro info
    refine pointer_local front behind (f := fun p => contextO p l.labelLength info) ?_
    rw [← hlength]
    exact hcontext hp front behind info
  unfold contextualChecks contextOBlock bidiBlock
  simp only [Label.within, Output.within] at hbidi hjoin hother ⊢
  simp only [hbidi, hjoin, hother]

theorem within_replace (o' : Output) (ho' : o'.dest = o.dest) (label : Option WString)
    (labelLength : Nat) :
    withinResult front behind (replaceLabel l.destLabelStart l.destLabelLength label labelLength o') =
      replaceLabel (l.within front).destLabelStart (l.within front).destLabelLength label labelLength
        (o'.within front behind) := by
  have hdest : o'.dest.isBogus = false := ho' ▸ hl.dest
  have hreplace := within_replaceLabel front behind hdest label labelLength
  rw [ho', ← hl.destLength] at hreplace
  simp only [Label.within, hl.destStart, Nat.add_zero]
  exact hreplace

theorem within_encodeLabel (env : Environment) (oredChars : WChar) :
    withinResult front behind (encodeLabel env l oredChars o) =
      encodeLabel env (l.within front) oredChars (o.within front behind) := by
  have htake : ((l.within front).pointer (o.within front behind)).take l.labelLength =
      (l.pointer o).take l.labelLength := by
    refine pointer_local front behind (f := fun p => p.take l.labelLength) ?_
    have hoffset := (pointer_whole hl).offset
    have hlength : (l.pointer o).buffer.length = l.labelLength := hl.length.symm
    rw [UCharPointer.take, UCharPointer.take, UCharPointer.within, hoffset, Nat.add_zero,
      List.append_assoc, List.drop_left, List.drop_zero, ← hlength, List.take_left, List.take_length]
  unfold encodeLabel
  refine map_ite (withinResult front behind) (fun _ => rfl) (fun _ => ?_)
  refine map_ite (withinResult front behind) (fun _ => ?_) (fun _ => ?_)
  · have hpunycode : toPunycode env (((l.within front).pointer (o.within front behind)).take
        (l.within front).labelLength) (o.within front behind).errorCode =
          toPunycode env ((l.pointer o).take l.labelLength) o.errorCode :=
      congrArg (fun s => toPunycode env s o.errorCode) htake
    simp only [hpunycode]
    generalize toPunycode env ((l.pointer o).take l.labelLength) o.errorCode = punycode
    exact map_ite (withinResult front behind) (fun _ => rfl) fun _ =>
      within_replace hl front behind
        (Output.addLabelErrorsIf { o with errorCode := punycode.2.2 } _ _) rfl _ _
  · exact within_replace hl front behind (o.addLabelErrorsIf _ _) rfl _ _

end

/-! ## A label that is no good ACE label -/

section

variable (options : UInt32)

/-- What `markBadACELabel` leaves of a unit. -/
def markedUnit (c : WChar) : WChar :=
  if c = 0x2e ∨ c ≤ 0x7f ∧ asciiData c < 0 ∧ disallowNonLDHDot options then 0xfffd else c

/-- A unit is ASCII, and stays as it is. -/
def isASCIIMark (c : WChar) : Bool := decide (c ≤ 0x7f) && markedUnit options c == c

/-- A letter, a digit or a hyphen. -/
def isLDHMark (c : WChar) : Bool := decide (c ≤ 0x7f) && c != 0x2e && decide (0 ≤ asciiData c)

def markErrors (info : IDNAInfo) (c : WChar) : IDNAInfo :=
  info.addLabelErrorsIf (c == 0x2e) UIDNA_ERROR_LABEL_HAS_DOT

theorem markUnit_eq {c : WChar} {s : Nat} {st : BadACE} (hs : s < st.buffer.length)
    (hc : st.buffer.getD s 0 = c) :
    markUnit options c s st =
      ⟨st.buffer.set s (markedUnit options c), st.isASCII && isASCIIMark options c,
        st.onlyLDH && isLDHMark c, markErrors st.info c⟩ := by
  have hset : st.buffer.set s c = st.buffer := by
    rw [← hc, List.getD_eq_getElem _ _ hs, List.set_getElem_self]
  unfold markUnit isASCIIMark isLDHMark markErrors markedUnit
  by_cases hascii : c ≤ 0x7f
  · by_cases hdot : c = 0x2e
    · simp [hdot, IDNAInfo.addLabelErrorsIf]
    · have hvalid : (0xfffd : WChar) ≠ c := by
        rintro rfl
        exact absurd hascii (by decide)
      by_cases hdata : asciiData c < 0
      · have hldh : ¬ 0 ≤ asciiData c := Int.not_le.mpr hdata
        cases hstd : disallowNonLDHDot options <;>
          simp [hascii, hdot, hdata, hldh, hset, hvalid, IDNAInfo.addLabelErrorsIf]
      · have hldh : 0 ≤ asciiData c := Int.not_lt.mp hdata
        have hne : (c != 0x2e) = true := bne_iff_ne.mpr hdot
        simp [hascii, hdot, hne, hdata, hldh, hset, IDNAInfo.addLabelErrorsIf]
  · have hdot : c ≠ 0x2e := by
      rintro rfl
      exact absurd hascii (by decide)
    simp [hascii, hdot, hset, IDNAInfo.addLabelErrorsIf]

/-- The loop of `markBadACELabel`, unit by unit. -/
theorem markUnits_eq (front label behind : WString) (st : BadACE)
    (hbuffer : st.buffer = front ++ label ++ behind) :
    markUnits options label.length front.length st =
      ⟨front ++ label.map (markedUnit options) ++ behind,
        st.isASCII && label.all (isASCIIMark options), st.onlyLDH && label.all isLDHMark,
        label.foldl markErrors st.info⟩ := by
  induction label generalizing front st with
  | nil =>
    cases st
    cases hbuffer
    simp [markUnits]
  | cons c label ih =>
    have hlt : front.length < st.buffer.length := by
      rw [hbuffer]
      simp only [List.length_append, List.length_cons]
      omega
    have hc : st.buffer.getD front.length 0 = c := by
      rw [hbuffer]
      simp [List.getD_eq_getElem?_getD]
    have hrest := ih (front ++ [markedUnit options c])
      ⟨st.buffer.set front.length (markedUnit options c), st.isASCII && isASCIIMark options c,
        st.onlyLDH && isLDHMark c, markErrors st.info c⟩ (by
          rw [hbuffer]
          simp)
    rw [List.length_append, List.length_singleton] at hrest
    rw [List.length_cons, markUnits, hc, markUnit_eq options hlt hc, hrest]
    simp [Bool.and_assoc]

theorem within_markBadACELabel (front behind : WString) (toASCII : Bool) {o : Output}
    (hdest : o.dest.isBogus = false) (hlong : 4 < o.dest.units.length) :
    withinResult front behind (markBadACELabel options 0 o.dest.units.length toASCII o) =
      markBadACELabel options front.length o.dest.units.length toASCII (o.within front behind) := by
  obtain ⟨dest, info, errorCode⟩ := o
  obtain ⟨u, rfl⟩ : ∃ u, dest = .text u := ⟨_, eq_text hdest⟩
  simp only [units] at hlong ⊢
  have hcut : u = u.take 4 ++ u.drop 4 := (List.take_append_drop 4 u).symm
  have hfour : (u.take 4).length = 4 := List.length_take_of_le (by omega)
  have hmax : max 1 (u.length - 4) = (u.drop 4).length := by
    rw [List.length_drop]
    omega
  have hunits := markUnits_eq options (u.take 4) (u.drop 4) [] ⟨u, true, true, info⟩
    (by rw [List.append_nil]; exact hcut)
  have hunits' := markUnits_eq options (front ++ u.take 4) (u.drop 4) behind
    ⟨front ++ u ++ behind, true, true, info⟩ (by
      rw [List.append_assoc front (u.take 4), ← hcut])
  rw [List.length_append] at hunits'
  rw [hfour] at hunits hunits'
  unfold markBadACELabel
  refine map_ite (withinResult front behind) (fun _ => rfl) (fun _ => ?_)
  simp only [hmax, Output.within, units, Nat.zero_add, hunits, hunits', setBuffer]
  refine map_ite (withinResult front behind) (fun _ => ?_) (fun _ => ?_)
  · have hlength : (u.take 4 ++ (u.drop 4).map (markedUnit options)).length = u.length := by
      rw [List.length_append, List.length_map, ← List.length_append, ← hcut]
    have hassoc : front ++ u.take 4 ++ (u.drop 4).map (markedUnit options) =
        front ++ (u.take 4 ++ (u.drop 4).map (markedUnit options)) := List.append_assoc _ _ _
    rw [hassoc]
    generalize u.take 4 ++ (u.drop 4).map (markedUnit options) = v at hlength
    have htake : (front ++ (v ++ behind)).take (front.length + v.length) = front ++ v := by
      rw [← List.append_assoc, ← List.length_append, List.take_left]
    rw [← hlength]
    simp [withinResult, Output.within, UnicodeString.insert, UnicodeString.replace, isBogus, units,
      htake]
  · simp [withinResult, Output.within, Output.addLabelErrorsIf, units]

end

/-! ## A label -/

section

variable (env : Environment) (options : UInt32)

/-- An ACE label stays in `dest` until its Unicode form is checked. -/
theorem writeLabel_keeps (buffer : WString) (l : Label) (o : Output) :
    (writeLabel buffer l o).1.labelLength = l.labelLength ∧
      (writeLabel buffer l o).2.errorCode = o.errorCode ∧
      ((writeLabel buffer l o).1.wasPunycode = true →
        l.wasPunycode = true ∧ (writeLabel buffer l o).2.dest = o.dest) := by
  unfold writeLabel
  cases hs : l.labelString with
  | none => exact ⟨rfl, rfl, fun h => absurd h (by simp [Label.wasPunycode, hs])⟩
  | some s => exact ⟨rfl, rfl, fun _ => ⟨congrArg Option.isSome hs, rfl⟩⟩

theorem leadingCombiningMark_keeps (l : Label) (o : Output) :
    (leadingCombiningMark env l o).2.errorCode = o.errorCode ∧
      ((leadingCombiningMark env l o).1.wasPunycode = true →
        l.wasPunycode = true ∧ (leadingCombiningMark env l o).2.dest = o.dest) := by
  unfold leadingCombiningMark
  simp only
  split
  · cases hs : l.labelString with
    | none => exact ⟨rfl, fun h => absurd h (by simp [Label.wasPunycode])⟩
    | some s => exact ⟨rfl, fun _ => ⟨by simp [Label.wasPunycode, hs], rfl⟩⟩
  · exact ⟨rfl, fun h => ⟨h, rfl⟩⟩

section

variable {l : Label} {o : Output} (hl : l.Whole o) (hne : l.labelLength ≠ 0)

include hl hne

omit hne in
theorem hyphenErrors_whole : l.Whole (hyphenErrors l o) :=
  ⟨hl.dest, hl.destStart, hl.destLength, hl.start, hl.length, hl.wellFormed⟩

theorem markedLabel_whole :
    (markedLabel env options l o).2.1.Whole (markedLabel env options l o).2.2 ∧
      (markedLabel env options l o).2.1.labelLength ≠ 0 ∧
      (markedLabel env options l o).2.2.errorCode = o.errorCode ∧
      ((markedLabel env options l o).2.1.wasPunycode = true →
        l.wasPunycode = true ∧ (markedLabel env options l o).2.2.dest = o.dest) := by
  unfold markedLabel
  simp only
  obtain ⟨-, hwhole, -⟩ := within_checkUnits (hyphenErrors_whole hl) [] [] options rfl rfl
  generalize (checkUnits options l.labelLength l.labelStart
    ⟨(hyphenErrors l o).labelBuffer l.labelString, 0, (hyphenErrors l o).info⟩) = st at hwhole ⊢
  obtain ⟨hlength, hcode, hpunycode⟩ :=
    writeLabel_keeps st.buffer l { hyphenErrors l o with info := st.info }
  generalize writeLabel st.buffer l { hyphenErrors l o with info := st.info } = r at *
  obtain ⟨hmarked, hnonzero, -⟩ :=
    within_leadingCombiningMark hwhole [] [] env (by rw [hlength]; exact hne)
  obtain ⟨hcode', hpunycode'⟩ := leadingCombiningMark_keeps env r.1 r.2
  refine ⟨hmarked, hnonzero, hcode'.trans hcode, fun hwas => ?_⟩
  obtain ⟨hwas, hdest'⟩ := hpunycode' hwas
  obtain ⟨hwas, hdest⟩ := hpunycode hwas
  exact ⟨hwas, hdest'.trans hdest⟩

theorem within_markedLabel (front behind : WString) :
    markedLabel env options (l.within front) (o.within front behind) =
      ((markedLabel env options l o).1, withinLabel front behind (markedLabel env options l o).2) := by
  unfold markedLabel
  rw [← within_hyphenErrors hl front behind hne]
  have hl' := hyphenErrors_whole hl
  generalize hyphenErrors l o = o at hl'
  simp only
  generalize hst : checkUnits options l.labelLength l.labelStart
    ⟨o.labelBuffer l.labelString, 0, o.info⟩ = st
  generalize hst' : checkUnits options (l.within front).labelLength (l.within front).labelStart
    ⟨(o.within front behind).labelBuffer (l.within front).labelString, 0,
      (o.within front behind).info⟩ = st'
  obtain ⟨hored, hwhole, hwrite⟩ := within_checkUnits hl' front behind options hst hst'
  have hlength := (writeLabel_keeps st.buffer l { o with info := st.info }).1
  obtain ⟨-, -, hmark⟩ :=
    within_leadingCombiningMark hwhole front behind env (by rw [hlength]; exact hne)
  rw [← hwrite, hored, hmark]
  rfl

end

variable {contextO : UCharPointer → Nat → IDNAInfo → IDNAInfo} (hcontext : LocalCheck contextO)
  (front behind : WString)

include hcontext

theorem within_finishLabel {l : Label} {o : Output} (hl : l.Whole o) (hne : l.labelLength ≠ 0)
    (hlong : l.wasPunycode = true → 4 < o.dest.units.length) (oredChars : WChar) :
    withinResult front behind (finishLabel env options contextO l oredChars o) =
      finishLabel env options contextO (l.within front) oredChars (o.within front behind) := by
  unfold finishLabel
  refine map_ite (withinResult front behind) (fun _ => ?_) (fun _ => ?_)
  · rw [← within_contextualChecks hl front behind env options hcontext hne oredChars]
    have hl' : l.Whole (contextualChecks env options contextO l oredChars o) :=
      ⟨hl.dest, hl.destStart, hl.destLength, hl.start, hl.length, hl.wellFormed⟩
    exact map_ite (withinResult front behind)
      (fun _ => within_encodeLabel hl' front behind env oredChars)
      (fun _ => within_replace hl' front behind _ rfl _ _)
  · refine map_ite (withinResult front behind) (fun hpunycode => ?_)
      (fun _ => within_replace hl front behind _ rfl _ _)
    have hmark := within_markBadACELabel options front behind l.toASCII
      (o := o.addLabelErrors UIDNA_ERROR_INVALID_ACE_LABEL) hl.dest (hlong hpunycode)
    rw [hl.destStart, hl.destLength]
    simp only [Label.within, hl.destStart, hl.destLength, Nat.add_zero]
    exact hmark

theorem within_checkLabel {l : Label} {o : Output} (hl : l.Whole o)
    (hlong : l.wasPunycode = true → 0 < l.labelLength → 4 < o.dest.units.length) :
    withinResult front behind (checkLabel env options contextO l o) =
      checkLabel env options contextO (l.within front) (o.within front behind) := by
  rw [checkLabel_eq, checkLabel_eq]
  refine map_ite (withinResult front behind)
    (fun _ => within_replace hl front behind (o.addLabelErrors _) rfl _ _) (fun hne => ?_)
  obtain ⟨hwhole, hnonzero, -, hpunycode⟩ := markedLabel_whole env options hl hne
  rw [within_markedLabel env options hl hne front behind]
  refine within_finishLabel env options hcontext front behind hwhole hnonzero (fun hwas => ?_) _
  obtain ⟨hwas, hdest⟩ := hpunycode hwas
  rw [hdest]
  exact hlong hwas (Nat.pos_of_ne_zero hne)

/-- The empty text is normalized. -/
def EmptyNormalized (env : Environment) : Prop :=
  ∀ errorCode, U_FAILURE errorCode = false → env.isNormalized [] errorCode = (true, errorCode)

omit hcontext in
/-- Behind a bare "xn--" there is nothing that would not decode. -/
theorem fromPunycode_long (label : WString)
    (h : (fromPunycode env.withPunycode (label.drop 4)).1 ≠ [] ∨
      U_FAILURE (fromPunycode env.withPunycode (label.drop 4)).2 = true) : 4 < label.length := by
  by_contra hshort
  rw [List.drop_eq_nil_of_le (by omega)] at h
  obtain ⟨htext, hsuccess⟩ := fromPunycode_of_fills env fills_nil (Or.inl (Nat.zero_le _))
  rcases h with h | h
  · exact h htext
  · exact absurd (hsuccess.symm.trans h) (by decide)

/-- **A label and its surroundings.**  On a well-formed label, what `processLabel` returns,
writes and reports is the same whatever stands before and behind the label, and that is left
as it is. -/
theorem within_processLabel (hempty : EmptyNormalized env) (toASCII : Bool) {o : Output}
    (hdest : o.dest.isBogus = false) (hwell : WellFormed o.dest.units) :
    withinResult front behind (processLabel env.withPunycode options contextO 0 o.dest.units.length
      toASCII o) =
      processLabel env.withPunycode options contextO front.length o.dest.units.length toASCII
        (o.within front behind) := by
  have htake : UCharPointer.take ⟨o.dest.units, 0⟩ o.dest.units.length = o.dest.units := by
    rw [UCharPointer.take, List.drop_zero, List.take_length]
  have htake' : UCharPointer.take ⟨(o.within front behind).dest.units, front.length⟩
      o.dest.units.length = o.dest.units := by
    rw [UCharPointer.take, Output.within]
    simp [units]
  unfold processLabel
  rw [htake, htake']
  refine map_ite (withinResult front behind) (fun _ => rfl) (fun hcode => ?_)
  rw [Bool.not_eq_true] at hcode
  refine map_ite (withinResult front behind) (fun hx => ?_) (fun _ => ?_)
  · have hlong := fromPunycode_long env o.dest.units
    have hmark : ∀ (e : UInt32) (errorCode : UErrorCode), 4 < o.dest.units.length →
        withinResult front behind (markBadACELabel options 0 o.dest.units.length toASCII
          (Output.addLabelErrors { o with errorCode := errorCode } e)) =
        markBadACELabel options front.length o.dest.units.length toASCII
          (Output.addLabelErrors { o.within front behind with errorCode := errorCode } e) :=
      fun e errorCode hlong => within_markBadACELabel options front behind toASCII
        (o := Output.addLabelErrors { o with errorCode := errorCode } e) hdest hlong
    refine map_ite (withinResult front behind)
      (fun hfailed => hmark _ o.errorCode (hlong (Or.inr hfailed))) (fun hdecoded => ?_)
    rw [Bool.not_eq_true] at hdecoded
    refine map_ite (withinResult front behind) (fun _ => rfl) (fun _ => ?_)
    have hfills := fromPunycode_fills hdecoded
    have hnormal := hempty o.errorCode hcode
    generalize (fromPunycode env.withPunycode (o.dest.units.drop 4)).1 = text at hfills hlong
    refine map_ite (withinResult front behind) (fun _ => ?_) (fun hnot => ?_)
    · have hl : Label.Whole ⟨some text, 0, text.length, 0, o.dest.units.length, toASCII⟩
          { o with errorCode := (env.isNormalized text o.errorCode).2 } :=
        ⟨hdest, rfl, rfl, rfl, rfl, wellFormed_of_fills hfills⟩
      exact within_checkLabel env.withPunycode options hcontext front behind hl fun _ hpos =>
        hlong (Or.inl (List.length_pos_iff.mp hpos))
    · refine hmark _ _ (hlong (Or.inl ?_))
      rintro rfl
      exact hnot (congrArg Prod.fst hnormal)
  · have hl : Label.Whole ⟨none, 0, o.dest.units.length, 0, o.dest.units.length, toASCII⟩ o :=
      ⟨hdest, rfl, rfl, rfl, rfl, hwell⟩
    exact within_checkLabel env.withPunycode options hcontext front behind hl
      (fun h => absurd h Bool.false_ne_true)

end

end SearchAndIdna.Uts46
