import SearchAndIdna.InfoChanges

/-!
# ASCII labels

What the checks of a label say about one that is ASCII: the ASCII fastpath of
`process` leaves them out, or makes them in its own way.

* `checkLabelBiDi_ascii`, `isASCIIOkBiDi_dotted`: the BiDi rule for ASCII labels, twice;
* `labelAlone_plain`: what `processLabel` does with an ASCII label.
-/

namespace SearchAndIdna.Uts46

open UnicodeString Utf16 Punycode

/-! ## The BiDi rule -/

/-- B, S and WS in ASCII. -/
def isASCIISpace (c : WChar) : Bool := c ≤ 0x20 && (0x1c ≤ c || (9 ≤ c && c ≤ 0xd))

def isASCIIDigit (c : WChar) : Bool := 0x30 ≤ c && c ≤ 0x39

/-- The Unicode properties of ASCII characters, as far as labels have them: there are no
uppercase letters in them. -/
structure ASCIIProperties (props : CharacterProperties) : Prop where
  letter : ∀ c : WChar, isLowerAZ c = true → props.u_charDirection c.toNat = .leftToRight
  digit : ∀ c : WChar, isASCIIDigit c = true → props.u_charDirection c.toNat = .europeanNumber
  space : ∀ c : WChar, isASCIISpace c = true →
    props.u_charDirection c.toNat ∈
      [UCharDirection.blockSeparator, .segmentSeparator, .whiteSpaceNeutral]
  other : ∀ c : WChar, c ≤ 0x7f → asciiData c ≤ 0 → isLowerAZ c = false → isASCIIDigit c = false →
    isASCIISpace c = false → props.u_charDirection c.toNat ∈
      [UCharDirection.europeanNumberSeparator, .europeanNumberTerminator, .commonNumberSeparator,
        .otherNeutral, .boundaryNeutral]
  mark : ∀ c : WChar, c ≤ 0x7f → (props.u_charType c.toNat).mask &&& U_GC_M_MASK = 0

/-- ASCII in lowercase. -/
def IsLowercase (label : WString) : Prop := ∀ c ∈ label, c ≤ 0x7f ∧ asciiData c ≤ 0

/-- The BiDi rule for an ASCII label. -/
def asciiOkBiDi (label : WString) : Bool :=
  match label with
  | [] => true
  | c :: rest =>
    let last := (c :: rest).getLast?.getD 0
    isLowerAZ c && (isLowerAZ last || isASCIIDigit last) && rest.all fun c => !isASCIISpace c

theorem wellFormed_ascii {label : WString} (h : IsASCII label) : WellFormed label := by
  induction label with
  | nil => exact wellFormed_nil
  | cons c label ih =>
    have hc : c.toNat ≤ 0x7f := h c List.mem_cons_self
    refine (wellFormed_unit ?_ ?_).mpr (ih fun d hd => h d (List.mem_cons_of_mem c hd))
    · rw [isHigh, Bool.and_eq_false_iff, decide_eq_false_iff_not, decide_eq_false_iff_not]
      omega
    · rw [isLow, Bool.and_eq_false_iff, decide_eq_false_iff_not, decide_eq_false_iff_not]
      omega

theorem not_space_of_letter {c : WChar} (h : (isLowerAZ c || isASCIIDigit c) = true) :
    isASCIISpace c = false := by
  have hbig : 0x30 ≤ c := by
    rcases Bool.or_eq_true_iff.mp h with h | h
    · have hle : 0x61 ≤ c := of_decide_eq_true (Bool.and_eq_true_iff.mp h).1
      exact Nat.le_trans (by decide) hle
    · exact of_decide_eq_true (Bool.and_eq_true_iff.mp h).1
  have hnot : ¬ c ≤ 0x20 := fun hle => absurd (Nat.le_trans hbig hle) (by decide)
  rw [isASCIISpace, decide_eq_false hnot]
  rfl

section

variable {props : CharacterProperties} (hprops : ASCIIProperties props) {c : WChar}

include hprops

/-- The four kinds of characters. -/
theorem direction_cases (hc : c ≤ 0x7f) (hlower : asciiData c ≤ 0) :
    (isLowerAZ c = true ∧ props.u_charDirection c.toNat = .leftToRight) ∨
      (isLowerAZ c = false ∧ isASCIIDigit c = true ∧
        props.u_charDirection c.toNat = .europeanNumber) ∨
      (isLowerAZ c = false ∧ isASCIIDigit c = false ∧ isASCIISpace c = true ∧
        props.u_charDirection c.toNat ∈
          [UCharDirection.blockSeparator, .segmentSeparator, .whiteSpaceNeutral]) ∨
      (isLowerAZ c = false ∧ isASCIIDigit c = false ∧ isASCIISpace c = false ∧
        props.u_charDirection c.toNat ∈
          [UCharDirection.europeanNumberSeparator, .europeanNumberTerminator,
            .commonNumberSeparator, .otherNeutral, .boundaryNeutral]) := by
  cases hl : isLowerAZ c with
  | true => exact Or.inl ⟨rfl, hprops.letter c hl⟩
  | false =>
    cases hd : isASCIIDigit c with
    | true => exact Or.inr (Or.inl ⟨rfl, rfl, hprops.digit c hd⟩)
    | false =>
      cases hs : isASCIISpace c with
      | true => exact Or.inr (Or.inr (Or.inl ⟨rfl, rfl, rfl, hprops.space c hs⟩))
      | false => exact Or.inr (Or.inr (Or.inr ⟨rfl, rfl, rfl, hprops.other c hc hlower hl hd hs⟩))

/-- What the masks of the BiDi rule say about a character. -/
theorem direction_masks (hc : c ≤ 0x7f) (hlower : asciiData c ≤ 0) :
    let mask := (props.u_charDirection c.toNat).mask
    (mask &&& L_MASK ≠ 0 ↔ isLowerAZ c = true) ∧
      (mask &&& ~~~L_R_AL_MASK ≠ 0 ↔ isLowerAZ c = false) ∧
      (mask &&& ~~~L_EN_MASK = 0 ↔ (isLowerAZ c || isASCIIDigit c) = true) ∧
      (mask &&& ~~~L_EN_ES_CS_ET_ON_BN_NSM_MASK = 0 ↔
        (isLowerAZ c || isASCIIDigit c || !isASCIISpace c) = true) ∧
      mask &&& R_AL_AN_MASK = 0 ∧ props.u_charDirection c.toNat ≠ .dirNonSpacingMark := by
  rcases direction_cases hprops hc hlower with ⟨hl, h⟩ | ⟨hl, hd, h⟩ | ⟨hl, hd, hs, h⟩ |
    ⟨hl, hd, hs, h⟩
  · simp only [h, hl, Bool.true_or]
    decide
  · simp only [h, hl, hd, Bool.or_true, Bool.true_or]
    decide
  · simp only [hl, hd, hs]
    generalize props.u_charDirection c.toNat = d at h
    fin_cases h <;> decide
  · simp only [hl, hd, hs]
    generalize props.u_charDirection c.toNat = d at h
    fin_cases h <;> decide

end

/-- The directions of some units, together. -/
def directionsOf (props : CharacterProperties) (part : WString) : UInt32 :=
  part.foldl (fun mask c => mask ||| (props.u_charDirection c.toNat).mask) 0

section

variable {label : WString} (hlabel : IsASCII label)

include hlabel

theorem U16_NEXT_UNSAFE_ascii {i : Nat} (hi : i < label.length) :
    U16_NEXT_UNSAFE ⟨label, 0⟩ i = (((label.getD i 0).toNat : Int), (i : Int) + 1) := by
  have hat : UCharPointer.at ⟨label, 0⟩ i = label.getD i 0 :=
    at_whole ⟨rfl, wellFormed_ascii hlabel⟩ (Int.natCast_nonneg i)
  have hle : (label.getD i 0).toNat ≤ 0x7f := by
    rw [List.getD_eq_getElem _ _ hi]
    exact hlabel _ (List.getElem_mem hi)
  have hhigh : isHigh (label.getD i 0) = false := by
    rw [isHigh, Bool.and_eq_false_iff, decide_eq_false_iff_not, decide_eq_false_iff_not]
    omega
  rw [U16_NEXT_UNSAFE, hat, hhigh]
  rfl

theorem U16_PREV_UNSAFE_ascii {i : Nat} (hi : i < label.length) :
    U16_PREV_UNSAFE ⟨label, 0⟩ (i + 1) = (((label.getD i 0).toNat : Int), (i : Int)) := by
  have hsub : ((i : Int) + 1 - 1) = i := by omega
  have hat : UCharPointer.at ⟨label, 0⟩ ((i : Int) + 1 - 1) = label.getD i 0 := by
    rw [hsub]
    exact at_whole ⟨rfl, wellFormed_ascii hlabel⟩ (Int.natCast_nonneg i)
  have hle : (label.getD i 0).toNat ≤ 0x7f := by
    rw [List.getD_eq_getElem _ _ hi]
    exact hlabel _ (List.getElem_mem hi)
  have hlow : isLow (label.getD i 0) = false := by
    rw [isLow, Bool.and_eq_false_iff, decide_eq_false_iff_not, decide_eq_false_iff_not]
    omega
  rw [U16_PREV_UNSAFE, hat, hlow, hsub]
  rfl

theorem directionMask_ascii (props : CharacterProperties) (front part behind : WString)
    (heq : label = front ++ part ++ behind) (mask : UInt32) :
    directionMask props ⟨label, 0⟩ (front ++ part).length front.length mask =
      part.foldl (fun mask c => mask ||| (props.u_charDirection c.toNat).mask) mask := by
  induction part generalizing front mask with
  | nil =>
    rw [List.append_nil, directionMask, if_neg (Int.lt_irrefl _)]
    rfl
  | cons c part ih =>
    have hlt : front.length < label.length := by
      rw [heq]
      simp only [List.length_append, List.length_cons]
      omega
    have hc : label.getD front.length 0 = c := by
      rw [heq]
      simp [List.getD_eq_getElem?_getD]
    have hrest := ih (front ++ [c]) (by rw [heq]; simp)
      (mask ||| (props.u_charDirection c.toNat).mask)
    rw [directionMask, if_pos (by simp only [List.length_append, List.length_cons]; omega),
      U16_NEXT_UNSAFE_ascii hlabel hlt, hc]
    have hnext : ((front ++ [c]).length : Int) = front.length + 1 := by simp
    rw [hnext, List.append_assoc, List.singleton_append] at hrest
    exact hrest

end

section

variable {props : CharacterProperties} (hprops : ASCIIProperties props)

include hprops

/-- Of some units together, the masks say what they say of each. -/
theorem directionsOf_masks {part : WString} (hpart : IsLowercase part) :
    (directionsOf props part &&& ~~~L_EN_ES_CS_ET_ON_BN_NSM_MASK = 0 ↔
        part.all (fun c => isLowerAZ c || isASCIIDigit c || !isASCIISpace c) = true) ∧
      directionsOf props part &&& R_AL_AN_MASK = 0 := by
  have hfold : ∀ mask : UInt32,
      (part.foldl (fun mask c => mask ||| (props.u_charDirection c.toNat).mask) mask &&&
          ~~~L_EN_ES_CS_ET_ON_BN_NSM_MASK = 0 ↔
        mask &&& ~~~L_EN_ES_CS_ET_ON_BN_NSM_MASK = 0 ∧
          part.all (fun c => isLowerAZ c || isASCIIDigit c || !isASCIISpace c) = true) ∧
      (part.foldl (fun mask c => mask ||| (props.u_charDirection c.toNat).mask) mask &&&
          R_AL_AN_MASK = 0 ↔ mask &&& R_AL_AN_MASK = 0) := by
    induction part with
    | nil => simp
    | cons c part ih =>
      intro mask
      obtain ⟨hc, hlower⟩ := hpart c List.mem_cons_self
      obtain ⟨-, -, -, hmask, hnone, -⟩ := direction_masks hprops hc hlower
      obtain ⟨hrest, hrest'⟩ := ih (fun d hd => hpart d (List.mem_cons_of_mem c hd))
        (mask ||| (props.u_charDirection c.toNat).mask)
      refine ⟨?_, ?_⟩
      · rw [List.foldl_cons, hrest, Bits.or_and_eq_zero_iff, hmask, List.all_cons, Bool.and_eq_true,
          and_assoc]
      · rw [List.foldl_cons, hrest', Bits.or_and_eq_zero_iff]
        exact and_iff_left hnone
  obtain ⟨hmask, hnone⟩ := hfold 0
  refine ⟨hmask.trans ?_, hnone.mpr (UInt32.zero_and ..)⟩
  rw [UInt32.zero_and]
  exact and_iff_right rfl

omit hprops in
theorem notOkBiDiIf_twice (info : IDNAInfo) (a b : Bool) :
    (info.notOkBiDiIf a).notOkBiDiIf b = info.notOkBiDiIf (a || b) := by
  cases a <;> cases b <;> rfl

/-- What the directions of the first character, the last one and those between say. -/
theorem checkLabelBiDi_of_masks {label : WString} {c d : WChar} (mid : WString) {i : Int}
    (hc : c ≤ 0x7f ∧ asciiData c ≤ 0) (hd : d ≤ 0x7f ∧ asciiData d ≤ 0) (hmid : IsLowercase mid)
    (hfirst : U16_NEXT_UNSAFE ⟨label, 0⟩ 0 = ((c.toNat : Int), 1))
    (hlast : lastNonNSM props ⟨label, 0⟩ 1 (props.u_charDirection c.toNat).mask label.length =
      ((props.u_charDirection d.toNat).mask, i))
    (hbetween : directionMask props ⟨label, 0⟩ i 1 0 = directionsOf props mid) (info : IDNAInfo) :
    checkLabelBiDi props ⟨label, 0⟩ label.length info =
      info.notOkBiDiIf (!(isLowerAZ c && (isLowerAZ d || isASCIIDigit d) &&
        mid.all fun c => isLowerAZ c || isASCIIDigit c || !isASCIISpace c)) := by
  obtain ⟨hletter, hother, -, -, hnone, -⟩ := direction_masks hprops hc.1 hc.2
  obtain ⟨-, -, hend, -, hnone', -⟩ := direction_masks hprops hd.1 hd.2
  obtain ⟨hspaces, hnone''⟩ := directionsOf_masks hprops hmid
  have hbidi : ((props.u_charDirection c.toNat).mask ||| directionsOf props mid |||
      (props.u_charDirection d.toNat).mask) &&& R_AL_AN_MASK = 0 := by
    rw [Bits.or_and_eq_zero_iff, Bits.or_and_eq_zero_iff]
    exact ⟨⟨hnone, hnone''⟩, hnone'⟩
  unfold checkLabelBiDi
  simp only [hfirst, hlast, hbetween, hbidi, ne_eq, not_true_eq_false, if_false]
  cases hl : isLowerAZ c with
  | true =>
    have hL : (props.u_charDirection c.toNat).mask &&& L_MASK ≠ 0 := hletter.mpr hl
    have hno : (props.u_charDirection c.toNat).mask &&& ~~~L_R_AL_MASK = 0 :=
      Decidable.not_not.mp fun h => absurd (hl.symm.trans (hother.mp h)) (by decide)
    have hB : ((props.u_charDirection d.toNat).mask &&& ~~~L_EN_MASK != 0) =
        !(isLowerAZ d || isASCIIDigit d) := by
      cases hv : isLowerAZ d || isASCIIDigit d with
      | true => rw [hend.mpr hv]; rfl
      | false => exact bne_iff_ne.mpr fun h => absurd (hv.symm.trans (hend.mp h)) (by decide)
    have hC : (directionsOf props mid &&& ~~~L_EN_ES_CS_ET_ON_BN_NSM_MASK != 0) =
        !(mid.all fun c => isLowerAZ c || isASCIIDigit c || !isASCIISpace c) := by
      cases hv : mid.all fun c => isLowerAZ c || isASCIIDigit c || !isASCIISpace c with
      | true => rw [hspaces.mpr hv]; rfl
      | false => exact bne_iff_ne.mpr fun h => absurd (hv.symm.trans (hspaces.mp h)) (by decide)
    rw [if_pos hL, if_pos hL, hno, hB, hC, notOkBiDiIf_twice, notOkBiDiIf_twice]
    simp
  | false =>
    have hno : ((props.u_charDirection c.toNat).mask &&& ~~~L_R_AL_MASK != 0) = true :=
      bne_iff_ne.mpr (hother.mpr hl)
    rw [hno]
    split <;> simp only [notOkBiDiIf_twice, Bool.true_or, Bool.false_and, Bool.not_false]

omit hprops in
theorem asciiOkBiDi_ends (c d : WChar) (mid : WString) :
    asciiOkBiDi (c :: mid ++ [d]) = (isLowerAZ c && (isLowerAZ d || isASCIIDigit d) &&
      mid.all fun c => isLowerAZ c || isASCIIDigit c || !isASCIISpace c) := by
  have hmid : (mid.all fun c => isLowerAZ c || isASCIIDigit c || !isASCIISpace c) =
      mid.all fun c => !isASCIISpace c := by
    congr 1
    funext c
    cases hv : isLowerAZ c || isASCIIDigit c with
    | false => exact Bool.false_or _
    | true => rw [not_space_of_letter hv]; rfl
  have hlast : (c :: mid ++ [d]).getLast?.getD 0 = d := by rw [List.getLast?_concat]; rfl
  rw [hmid]
  unfold asciiOkBiDi
  simp only [List.cons_append] at hlast ⊢
  rw [hlast, List.all_append, List.all_cons, List.all_nil, Bool.and_true]
  cases hv : isLowerAZ d || isASCIIDigit d with
  | false => simp
  | true => simp [not_space_of_letter hv]

/-- **The BiDi rule** for an ASCII label. -/
theorem checkLabelBiDi_ascii {label : WString} (hlabel : IsLowercase label) (hne : label ≠ [])
    (info : IDNAInfo) :
    checkLabelBiDi props ⟨label, 0⟩ label.length info = info.notOkBiDiIf (!asciiOkBiDi label) := by
  have hascii : IsASCII label := fun c hc => (hlabel c hc).1
  obtain ⟨c, rest, rfl⟩ := List.exists_cons_of_ne_nil hne
  have hc := hlabel c List.mem_cons_self
  have hfirst := U16_NEXT_UNSAFE_ascii hascii (i := 0) (Nat.succ_pos _)
  rcases List.eq_nil_or_concat rest with rfl | ⟨mid, d, rfl⟩
  · refine (checkLabelBiDi_of_masks hprops [] (d := c) (i := 1) hc hc
      (fun _ h => absurd h List.not_mem_nil) hfirst ?_ ?_ info).trans ?_
    · rw [lastNonNSM, if_pos (by simp)]
      rfl
    · rw [directionMask, if_neg (Int.lt_irrefl _)]
      rfl
    · simp [asciiOkBiDi]
  · have hd := hlabel d (by simp)
    obtain ⟨-, -, -, -, -, hnsm⟩ := direction_masks hprops hd.1 hd.2
    have hprev := U16_PREV_UNSAFE_ascii hascii (i := mid.length + 1) (by simp)
    have hget : (c :: (mid.concat d)).getD (mid.length + 1) 0 = d := by simp
    have hlength : ((c :: mid.concat d).length : Int) = ((mid.length + 1 : Nat) : Int) + 1 := by simp
    rw [hget] at hprev
    refine (checkLabelBiDi_of_masks hprops mid (d := d) (i := mid.length + 1) hc hd
      (fun e he => hlabel e (by simp [he])) hfirst ?_ ?_ info).trans ?_
    · rw [lastNonNSM, if_neg (by rw [hlength]; omega), hlength]
      simp only [hprev]
      rw [if_pos hnsm]
      rfl
    · have hmask := directionMask_ascii hascii props [c] mid [d] (by simp) 0
      simp only [List.length_append, List.length_singleton] at hmask
      rw [Nat.add_comm] at hmask
      exact hmask
    · rw [← asciiOkBiDi_ends, List.concat_eq_append]
      rfl

end

/-! ## The BiDi rule again -/

/-- `isASCIIOkBiDi` behind the first unit of a label, with the dot behind the label. -/
theorem isASCIIOkBiDiFrom_label (front behind : WString) (n : Nat) (part : WString)
    {todo : WString}
    (hpart : part ≠ []) (hdots : 0x2e ∉ todo) :
    isASCIIOkBiDiFrom (front ++ (part ++ todo) ++ 0x2e :: behind) (todo.length + (n + 1))
        (front.length + part.length) front.length =
      (todo.all (fun c => !isASCIISpace c) &&
        (isLowerAZ ((part ++ todo).getLast?.getD 0) || isASCIIDigit ((part ++ todo).getLast?.getD 0)) &&
        isASCIIOkBiDiFrom (front ++ (part ++ todo) ++ 0x2e :: behind) n
          (front.length + (part ++ todo).length + 1) (front.length + (part ++ todo).length + 1)) := by
  have hpos : 0 < part.length := List.length_pos_iff.mpr hpart
  induction todo generalizing part with
  | nil =>
    obtain ⟨init, d, rfl⟩ := (List.eq_nil_or_concat part).resolve_left hpart
    have hdot : (front ++ (init.concat d ++ []) ++ 0x2e :: behind).getD
        (front.length + (init.concat d).length) 0 = 0x2e := by
      simp [List.getD_eq_getElem?_getD]
    have hlast : (front ++ (init.concat d ++ []) ++ 0x2e :: behind).getD
        (front.length + (init.concat d).length - 1) 0 = d := by
      simp [List.getD_eq_getElem?_getD]
    have hlt : front.length < front.length + (init.concat d).length := Nat.lt_add_of_pos_right hpos
    rw [List.length_nil, Nat.zero_add, isASCIIOkBiDiFrom]
    simp only [hdot, hlast, decide_eq_true hlt, if_true]
    simp only [List.append_nil, List.concat_eq_append, List.getLast?_concat, Option.getD_some,
      List.all_nil, Bool.true_and]
    change (if (true && !isLowerAZ d && !isASCIIDigit d) = true then false else _) = _
    cases isLowerAZ d <;> cases isASCIIDigit d <;> simp
  | cons c todo ih =>
    have hc : (front ++ (part ++ c :: todo) ++ 0x2e :: behind).getD (front.length + part.length) 0 =
        c := by
      simp [List.getD_eq_getElem?_getD]
    have hdot : c ≠ 0x2e := fun h => hdots (h ▸ List.mem_cons_self)
    have hstart : front.length + part.length ≠ front.length := by omega
    have hnext := ih (part ++ [c]) (by simp) (fun h => hdots (List.mem_cons_of_mem c h))
      (by simp)
    simp only [List.append_assoc, List.singleton_append, List.length_append, List.length_singleton]
      at hnext hc ⊢
    rw [List.length_cons, Nat.add_right_comm, isASCIIOkBiDiFrom]
    simp only [hc, if_neg hdot, if_neg hstart]
    change (if isASCIISpace c = true then false else _) = _
    rw [List.all_cons]
    cases isASCIISpace c with
    | true => rfl
    | false =>
      rw [if_neg Bool.false_ne_true, Bool.not_false, Bool.true_and]
      exact hnext

theorem isASCIIOkBiDiFrom_dotted (front rest : WString) {labels : List WString}
    (hdots : ∀ label ∈ labels, 0x2e ∉ label) :
    isASCIIOkBiDiFrom (front ++ (dotted labels ++ rest)) (dotted labels).length front.length
        front.length = labels.all asciiOkBiDi := by
  induction labels generalizing front with
  | nil => rfl
  | cons label labels ih =>
    have hnext := ih (front ++ label ++ [0x2e]) fun l hl => hdots l (List.mem_cons_of_mem _ hl)
    have hlabel := hdots label List.mem_cons_self
    have hdotted : dotted (label :: labels) = label ++ 0x2e :: dotted labels := by
      simp [dotted]
    have htext : front ++ label ++ [0x2e] ++ (dotted labels ++ rest) =
        front ++ label ++ 0x2e :: (dotted labels ++ rest) := by
      simp
    have hfront : (front ++ label ++ [0x2e]).length = front.length + label.length + 1 := by
      simp
      omega
    have hlength : (label ++ 0x2e :: dotted labels).length =
        label.length + ((dotted labels).length + 1) := by
      simp
    have htext' : front ++ (label ++ 0x2e :: dotted labels ++ rest) =
        front ++ label ++ 0x2e :: (dotted labels ++ rest) := by
      simp
    rw [hfront, htext] at hnext
    rw [hdotted, htext', hlength, List.all_cons]
    cases label with
    | nil =>
      have hdot : (front ++ [] ++ 0x2e :: (dotted labels ++ rest)).getD front.length 0 = 0x2e := by
        simp [List.getD_eq_getElem?_getD]
      rw [List.length_nil, Nat.zero_add, isASCIIOkBiDiFrom]
      simp only [hdot, if_true, Nat.lt_irrefl, decide_false, Bool.false_and, Bool.false_eq_true,
        if_false]
      exact hnext
    | cons c todo =>
      have hc : (front ++ (c :: todo) ++ 0x2e :: (dotted labels ++ rest)).getD front.length 0 = c := by
        simp [List.getD_eq_getElem?_getD]
      have hdot : c ≠ 0x2e := fun h => hlabel (h ▸ List.mem_cons_self)
      have htodo := isASCIIOkBiDiFrom_label front (dotted labels ++ rest) (dotted labels).length
        [c] (List.cons_ne_nil _ _)
        (fun h => hlabel (List.mem_cons_of_mem _ h))
      simp only [List.singleton_append, List.length_singleton] at htodo
      rw [List.length_cons, Nat.add_right_comm, isASCIIOkBiDiFrom]
      simp only [hc, if_neg hdot, if_true, htodo, hnext, asciiOkBiDi]
      cases isLowerAZ c with
      | false => rfl
      | true =>
        simp only [Bool.not_true, Bool.false_eq_true, if_false, Bool.true_and]
        rw [Bool.and_comm (todo.all _)]

/-- **The BiDi check of the fastpath's labels**, all at once. -/
theorem isASCIIOkBiDi_dotted (rest : WString) {labels : List WString}
    (hdots : ∀ label ∈ labels, 0x2e ∉ label) :
    isASCIIOkBiDi (dotted labels ++ rest) (dotted labels).length = labels.all asciiOkBiDi :=
  isASCIIOkBiDiFrom_dotted [] rest hdots

/-! ## The labels of the fastpath -/

/-- A label that the fastpath goes through, in lowercase. -/
structure PlainLabel (options : UInt32) (label : WString) : Prop where
  lowercase : IsLowercase label
  units : ∀ c ∈ label, UnitOk options c
  hyphen34 : ¬ (label.getD 2 0 = 0x2d ∧ label.getD 3 0 = 0x2d)

/-- The errors of such a label. -/
def plainErrors (toASCII : Bool) (label : WString) (info : IDNAInfo) : IDNAInfo :=
  if label = [] then info.addLabelErrors UIDNA_ERROR_EMPTY_LABEL
  else
    ((info.addLabelErrorsIf (label.head? == some 0x2d) UIDNA_ERROR_LEADING_HYPHEN).addLabelErrorsIf
      (label.getLast? == some 0x2d) UIDNA_ERROR_TRAILING_HYPHEN).addLabelErrorsIf
        (toASCII && decide (63 < label.length)) UIDNA_ERROR_LABEL_TOO_LONG

/-- The BiDi rule is not asked for, or is kept. -/
def plainOkBiDi (options : UInt32) (label : WString) : Bool :=
  options &&& UIDNA_CHECK_BIDI == 0 || asciiOkBiDi label

theorem foldl_orNonASCII_ascii {label : WString} (h : IsASCII label) (oredChars : WChar) :
    label.foldl orNonASCII oredChars = oredChars := by
  induction label with
  | nil => rfl
  | cons c label ih =>
    rw [List.foldl_cons, orNonASCII, if_pos (h c List.mem_cons_self)]
    exact ih fun d hd => h d (List.mem_cons_of_mem c hd)

theorem severe_addLabelErrorsIf {e : UInt32} (he : e &&& severeErrors = 0) (bad : Bool)
    (info : IDNAInfo) :
    (info.addLabelErrorsIf bad e).labelErrors &&& severeErrors = info.labelErrors &&& severeErrors := by
  cases bad with
  | false => rfl
  | true => exact Bits.or_and_of_disjoint he info.labelErrors

theorem andOkBiDi_true (info : IDNAInfo) : andOkBiDi true info = info := by
  simp [andOkBiDi]

section

variable {env : Environment} {options : UInt32} (hprops : ASCIIProperties env.toCharacterProperties)

include hprops

theorem bidiBlock_ascii {label : WString} (hlabel : IsLowercase label) (hne : label ≠ [])
    (info : IDNAInfo) :
    bidiBlock env options ⟨label, 0⟩ label.length info = andOkBiDi (plainOkBiDi options label) info := by
  unfold bidiBlock plainOkBiDi
  by_cases hoption : options &&& UIDNA_CHECK_BIDI = 0
  · rw [if_neg fun h => h.1 hoption, beq_iff_eq.mpr hoption, Bool.true_or, andOkBiDi_true]
  · rw [beq_eq_false_iff_ne.mpr hoption, Bool.false_or]
    by_cases hcheck : (!info.isBiDi || info.isOkBiDi) = true
    · rw [if_pos ⟨hoption, hcheck⟩, checkLabelBiDi_ascii hprops hlabel hne]
      cases asciiOkBiDi label with
      | true => exact (andOkBiDi_true info).symm
      | false => rw [andOkBiDi, Bool.and_false]; rfl
    · rw [if_neg fun h => hcheck h.2]
      rw [Bool.not_eq_true, Bool.or_eq_false_iff] at hcheck
      cases info
      cases hcheck.2
      rfl

omit hprops in
theorem hyphenErrors_plain (destLabelStart destLabelLength : Nat) (toASCII : Bool)
    {label : WString} (hne : label ≠ [])
    (h34 : ¬ (label.getD 2 0 = 0x2d ∧ label.getD 3 0 = 0x2d)) {o : Output}
    (hdest : o.dest.units = label) :
    hyphenErrors ⟨none, 0, label.length, destLabelStart, destLabelLength, toASCII⟩ o =
      (o.addLabelErrorsIf (label.head? == some 0x2d) UIDNA_ERROR_LEADING_HYPHEN).addLabelErrorsIf
        (label.getLast? == some 0x2d) UIDNA_ERROR_TRAILING_HYPHEN := by
  have hpos : 0 < label.length := List.length_pos_iff.mpr hne
  have hpointer : Label.pointer
      ⟨none, 0, label.length, destLabelStart, destLabelLength, toASCII⟩ o =
        ⟨[] ++ label ++ [], ([] : WString).length⟩ :=
    pointer_eq (by rw [List.append_nil]; exact hdest) rfl
  have hhyphen : ∀ x : Option WChar, (x.getD 0 == 0x2d) = (x == some 0x2d) := by
    intro x
    cases x <;> rfl
  have hsame : ∀ e o', Output.addLabelErrorsIf o' false e = o' := fun _ _ => rfl
  rw [hyphenErrors]
  simp only [hpointer, hyphen34_false [] [] h34, at_first [] label [] hpos, at_last [] label [] hpos,
    hhyphen, hsame]

omit hprops in
theorem not_prefix_plain {label : WString}
    (h34 : ¬ (label.getD 2 0 = 0x2d ∧ label.getD 3 0 = 0x2d)) : ¬ xnDashDash <+: label := by
  rintro ⟨rest, rfl⟩
  exact h34 ⟨rfl, rfl⟩

theorem unmarked_ascii {label : WString} (hascii : IsASCII label) (hne : label ≠ []) :
    Unmarked env.toCharacterProperties ⟨label, 0⟩ := by
  have hpos := List.length_pos_iff.mpr hne
  have hfirst := U16_NEXT_UNSAFE_ascii hascii (i := 0) hpos
  rw [Nat.cast_zero] at hfirst
  rw [Unmarked, hfirst]
  refine hprops.mark _ ?_
  rw [List.getD_eq_getElem _ _ hpos]
  exact hascii _ (List.getElem_mem _)

/-- The checks of a label of the fastpath that has units. -/
theorem checkLabel_plain (contextO : UCharPointer → Nat → IDNAInfo → IDNAInfo) (toASCII : Bool)
    {label : WString} (hlabel : PlainLabel options label) (hne : label ≠ []) {o : Output}
    (hdest : o.dest = .text label) (hcode : U_FAILURE o.errorCode = false)
    (hsevere : o.info.labelErrors &&& severeErrors = 0) :
    checkLabel env options contextO ⟨none, 0, label.length, 0, label.length, toASCII⟩ o =
      (label.length, { o with
        info := andOkBiDi (plainOkBiDi options label) (plainErrors toASCII label o.info) }) := by
  have hascii : IsASCII label := fun c hc => (hlabel.lowercase c hc).1
  have hlength : label.length ≠ 0 := fun h => hne (List.length_eq_zero_iff.mp h)
  have hhyphens := hyphenErrors_plain 0 label.length toASCII hne hlabel.hyphen34
    (o := o) (by rw [hdest]; rfl)
  have hplain : plainErrors toASCII label o.info = ((o.info.addLabelErrorsIf
      (label.head? == some 0x2d) UIDNA_ERROR_LEADING_HYPHEN).addLabelErrorsIf
      (label.getLast? == some 0x2d) UIDNA_ERROR_TRAILING_HYPHEN).addLabelErrorsIf
        (toASCII && decide (63 < label.length)) UIDNA_ERROR_LABEL_TOO_LONG := if_neg hne
  have hsevere' : ((o.info.addLabelErrorsIf (label.head? == some 0x2d)
      UIDNA_ERROR_LEADING_HYPHEN).addLabelErrorsIf (label.getLast? == some 0x2d)
      UIDNA_ERROR_TRAILING_HYPHEN).labelErrors &&& severeErrors = 0 := by
    rw [severe_addLabelErrorsIf (by decide), severe_addLabelErrorsIf (by decide)]
    exact hsevere
  obtain ⟨dest, info₀, errorCode⟩ := o
  cases hdest
  simp only [Output.addLabelErrorsIf] at hhyphens hplain hsevere' hcode ⊢
  rw [hplain, checkLabel, if_neg hlength]
  simp only [hhyphens]
  generalize (info₀.addLabelErrorsIf (label.head? == some 0x2d)
    UIDNA_ERROR_LEADING_HYPHEN).addLabelErrorsIf (label.getLast? == some 0x2d)
    UIDNA_ERROR_TRAILING_HYPHEN = info at hsevere'
  have hbuffer : Output.labelBuffer ⟨.text label, info, errorCode⟩ none = label := rfl
  have hunits : checkUnits options label.length 0 ⟨label, 0, info⟩ = ⟨label, 0, info⟩ := by
    refine (checkUnits_ok [] label [] (List.append_nil _).symm hlabel.units).trans ?_
    rw [foldl_orNonASCII_ascii hascii]
  have hwrite := writeLabel_same ⟨none, 0, label.length, 0, label.length, toASCII⟩
    ⟨.text label, info, errorCode⟩
  have hmark : leadingCombiningMark env ⟨none, 0, label.length, 0, label.length, toASCII⟩
      ⟨.text label, info, errorCode⟩ =
        (⟨none, 0, label.length, 0, label.length, toASCII⟩, ⟨.text label, info, errorCode⟩) := by
    refine leadingCombiningMark_ok ?_
    have hpointer : Label.pointer ⟨none, 0, label.length, 0, label.length, toASCII⟩
        ⟨.text label, info, errorCode⟩ = ⟨label, 0⟩ := rfl
    rw [hpointer]
    exact unmarked_ascii hprops hascii hne
  have hcontext : contextualChecks env options contextO
      ⟨none, 0, label.length, 0, label.length, toASCII⟩ 0 ⟨.text label, info, errorCode⟩ =
        ⟨.text label, andOkBiDi (plainOkBiDi options label) info, errorCode⟩ := by
    have hbidi : bidiBlock env options ⟨label, 0⟩ label.length info =
        andOkBiDi (plainOkBiDi options label) info :=
      bidiBlock_ascii hprops hlabel.lowercase hne info
    have hjoiners : ((0 : WChar) &&& 0x200c == 0x200c) = false := by decide
    have hother : ¬ (options &&& UIDNA_CHECK_CONTEXTO ≠ 0 ∧ (0xb7 : WChar) ≤ 0) :=
      fun h => absurd h.2 (by decide)
    simp only [contextualChecks, Label.pointer, hbuffer, hbidi, hjoiners, contextOBlock, if_neg hother,
      Bool.and_false, Bool.false_and]
    rfl
  rw [hbuffer] at hwrite
  simp only [hbuffer, hunits, hwrite, hmark]
  rw [finishLabel, if_pos hsevere']
  simp only [hcontext]
  cases toASCII with
  | true =>
    have hpunycode : ¬ Label.wasPunycode ⟨none, 0, label.length, 0, label.length, true⟩ = true :=
      Bool.false_ne_true
    have hencode : ¬ (0x80 : WChar) ≤ 0 := by decide
    rw [if_pos rfl, encodeLabel, if_neg hpunycode, if_neg hencode, replaceLabel]
    simp only [Output.addLabelErrorsIf, hcode, Bool.false_eq_true, if_false, Bool.true_and]
    rw [map_addLabelErrorsIf (T := andOkBiDi _) fun _ _ => rfl]
  | false =>
    rw [if_neg Bool.false_ne_true, replaceLabel]
    simp only [hcode, Bool.false_eq_true, if_false, Bool.false_and]
    rfl

/-- **`processLabel` on a label of the fastpath.** -/
theorem labelAlone_plain (contextO : UCharPointer → Nat → IDNAInfo → IDNAInfo) (toASCII : Bool)
    {label : WString} (hlabel : PlainLabel options label) {o : Output}
    (hcode : U_FAILURE o.errorCode = false) (hsevere : o.info.labelErrors &&& severeErrors = 0) :
    labelAlone env options contextO toASCII label o =
      (label.length, { o with
        dest := .text label
        info := andOkBiDi (plainOkBiDi options label) (plainErrors toASCII label o.info) }) := by
  have htake : UCharPointer.take ⟨label, 0⟩ label.length = label := by
    rw [UCharPointer.take, List.drop_zero, List.take_length]
  rw [labelAlone, processLabel]
  simp only [units, htake, hcode, Bool.false_eq_true, if_false,
    if_neg (not_prefix_plain hlabel.hyphen34)]
  by_cases hne : label = []
  · subst hne
    have hok : plainOkBiDi options [] = true := Bool.or_true _
    rw [checkLabel, if_pos (by rfl), replaceLabel, hok, andOkBiDi_true]
    simp only [Output.addLabelErrors, hcode, Bool.false_eq_true, if_false, plainErrors, if_true]
  · exact checkLabel_plain hprops contextO toASCII hlabel hne
      (o := { o with dest := .text label }) rfl hcode hsevere

end

end SearchAndIdna.Uts46
