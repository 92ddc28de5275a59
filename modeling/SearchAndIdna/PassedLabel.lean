import SearchAndIdna.ASCIILabels

/-!
# A label for the DNS

What `processLabel` leaves of a label for ToASCII when it reports no error: the label, or
its Punycode, and either way a label that passes every check.

* `InOrder`: the checks of a label alone;
* `RightToLeft`, `BiDiRule`, `Sided`: the BiDi rule, whose errors are those of the name;
* `contextual_passed`, `sided_contextual`: what the contextual checks say of a label when they
  have nothing to report, behind their guards and inside the name;
* `processLabel_passed`: the label that is left.
-/

namespace SearchAndIdna.Uts46

open UnicodeString Utf16 Punycode IDNAInfo

/-! ## The guards -/

theorem orNonASCII_and {x c : WChar} (d : WChar) (h : x &&& c = c) : orNonASCII x d &&& c = c := by
  unfold orNonASCII
  split
  · exact h
  · have hor : (x ||| d) &&& c = (x &&& c) ||| (d &&& c) :=
      UInt16.toBitVec_inj.mp BitVec.and_or_distrib_right
    have habsorb : c ||| (d &&& c) = c := by
      apply UInt16.toBitVec_inj.mp
      rw [UInt16.toBitVec_or, UInt16.toBitVec_and, BitVec.and_comm]
      refine BitVec.eq_of_getLsbD_eq fun i _ => ?_
      rw [BitVec.getLsbD_or, BitVec.getLsbD_and]
      cases c.toBitVec.getLsbD i <;> simp
    rw [hor, h, habsorb]

theorem foldl_orNonASCII_and {label : WString} {x c : WChar} (h : x &&& c = c) :
    label.foldl orNonASCII x &&& c = c := by
  induction label generalizing x with
  | nil => exact h
  | cons d label ih => exact ih (orNonASCII_and d h)

/-- The collected units have all bits of each unit beyond ASCII. -/
theorem foldl_orNonASCII_mem {label : WString} {c : WChar} (hc : c ∈ label) (hbig : ¬ c ≤ 0x7f)
    (x : WChar) : label.foldl orNonASCII x &&& c = c := by
  induction label generalizing x with
  | nil => exact absurd hc List.not_mem_nil
  | cons d label ih =>
    rcases List.mem_cons.mp hc with rfl | hc
    · rw [List.foldl_cons]
      refine foldl_orNonASCII_and ?_
      rw [orNonASCII, if_neg hbig]
      apply UInt16.toBitVec_inj.mp
      rw [UInt16.toBitVec_and, UInt16.toBitVec_or]
      refine BitVec.eq_of_getLsbD_eq fun i _ => ?_
      rw [BitVec.getLsbD_and, BitVec.getLsbD_or]
      cases c.toBitVec.getLsbD i <;> simp
    · exact ih hc _

theorem at_mem {label : WString} {i : Nat} (hi : i < label.length) :
    UCharPointer.at ⟨label, 0⟩ i ∈ label := by
  have hat := at_text [] label [] hi
  rw [List.nil_append, List.append_nil, List.getD_eq_getElem _ _ hi] at hat
  exact hat ▸ List.getElem_mem hi

section

variable (props : CharacterProperties) {label : WString}

/-- Without a joiner there is nothing to check. -/
theorem isLabelOkContextJ_of_units (h : ∀ c ∈ label, c ≠ 0x200c ∧ c ≠ 0x200d) :
    isLabelOkContextJ props ⟨label, 0⟩ label.length = true := by
  rw [isLabelOkContextJ, List.all_eq_true]
  intro i hi
  obtain ⟨hzwnj, hzwj⟩ := h _ (at_mem (List.mem_range.mp hi))
  rw [isContextJOkAt, if_neg hzwnj, if_neg hzwj]

/-- Below U+00B7 there is nothing to check. -/
theorem checkLabelContextO_of_units (h : ∀ c ∈ label, c < 0xb7) (info : IDNAInfo) :
    checkLabelContextO props ⟨label, 0⟩ label.length info = info := by
  have hfrom : ∀ (n i : Nat), i + n ≤ label.length → ∀ (arabicDigits : Int),
      checkLabelContextOFrom props ⟨label, 0⟩ label.length n i arabicDigits info = info := by
    intro n
    induction n with
    | zero => exact fun _ _ _ => rfl
    | succ n ih =>
      intro i hle arabicDigits
      have hi : i < label.length := by omega
      have hlow := h _ (at_mem hi)
      rw [checkLabelContextOFrom, contextOAt]
      simp only [if_pos hlow]
      exact ih (i + 1) (by omega) arabicDigits
  exact hfrom label.length 0 (by omega) 0

end

/-! ## A label alone -/

/-- A label that passes every check that is made of it alone. -/
structure InOrder (env : Environment) (options : UInt32)
    (contextO : UCharPointer → Nat → IDNAInfo → IDNAInfo) (label : WString) : Prop
    extends Checked options label where
  unmarked : Unmarked env.toCharacterProperties ⟨label, 0⟩
  contextJ : options &&& UIDNA_CHECK_CONTEXTJ ≠ 0 →
    isLabelOkContextJ env.toCharacterProperties ⟨label, 0⟩ label.length = true
  contextO : options &&& UIDNA_CHECK_CONTEXTO ≠ 0 →
    ∀ info, contextO ⟨label, 0⟩ label.length info = info

/-- The BiDi rule finds a right-to-left character. -/
def RightToLeft (props : CharacterProperties) (label : WString) : Prop :=
  (checkLabelBiDi props ⟨label, 0⟩ label.length .reset).isBiDi = true

/-- The BiDi rule is kept. -/
def BiDiRule (props : CharacterProperties) (label : WString) : Prop :=
  (checkLabelBiDi props ⟨label, 0⟩ label.length .reset).isOkBiDi = true

/-- What the flags for the name say of a label that was checked. -/
structure Sided (props : CharacterProperties) (info : IDNAInfo) (label : WString) : Prop where
  rightToLeft : info.isBiDi = false → ¬ RightToLeft props label
  rule : info.isOkBiDi = true → BiDiRule props label

theorem Sided.grows {props : CharacterProperties} {info info' : IDNAInfo} {label : WString}
    (h : Sided props info label) (hgrows : Grows info info') : Sided props info' label :=
  ⟨fun hside => h.rightToLeft (hgrows.isBiDi hside), fun hok => h.rule (hgrows.isOkBiDi hok)⟩

theorem checkLabelBiDi_eq (props : CharacterProperties) (label : UCharPointer) (labelLength : Int)
    (info : IDNAInfo) :
    checkLabelBiDi props label labelLength info = { info with
      isBiDi := info.isBiDi || (checkLabelBiDi props label labelLength .reset).isBiDi
      isOkBiDi := info.isOkBiDi && (checkLabelBiDi props label labelLength .reset).isOkBiDi } := by
  have hmap := map_checkLabelBiDi (T := fun info' => { info with
    isBiDi := info.isBiDi || info'.isBiDi, isOkBiDi := info.isOkBiDi && info'.isOkBiDi })
    (fun info' bad => by cases bad <;> simp [notOkBiDiIf]) (fun _ => by simp) props label labelLength
    .reset
  refine Eq.trans ?_ hmap.symm
  simp [IDNAInfo.reset]

section

variable {env : Environment} {options : UInt32}
  {contextO : UCharPointer → Nat → IDNAInfo → IDNAInfo} (hcopy : IsCopy env contextO)
  {label : WString} (hwell : WellFormed label) (front behind : WString) {info : IDNAInfo}

include hcopy hwell

/-- **CONTEXTJ and CONTEXTO** of a label without errors. -/
theorem contextual_passed
    (h : (contextualInfo env options contextO ⟨front ++ label ++ behind, front.length⟩ label.length
      (label.foldl orNonASCII 0) info).Clean) :
    (options &&& UIDNA_CHECK_CONTEXTJ ≠ 0 →
      isLabelOkContextJ env.toCharacterProperties ⟨label, 0⟩ label.length = true) ∧
    (options &&& UIDNA_CHECK_CONTEXTO ≠ 0 → ∀ info, contextO ⟨label, 0⟩ label.length info = info) := by
  have hwhole : UCharPointer.Whole ⟨label, 0⟩ := ⟨rfl, hwell⟩
  have hadds := hcopy.addsErrors
  unfold contextualInfo contextOBlock at h
  generalize hored : label.foldl orNonASCII 0 = oredChars at h
  constructor
  · intro hoption
    by_cases hjoiner : oredChars &&& 0x200c = 0x200c
    · have hclean : ((bidiBlock env options ⟨front ++ label ++ behind, front.length⟩ label.length
          info).addLabelErrorsIf (options &&& UIDNA_CHECK_CONTEXTJ != 0 &&
            oredChars &&& 0x200c == 0x200c && !isLabelOkContextJ env.toCharacterProperties
              ⟨front ++ label ++ behind, front.length⟩ label.length) UIDNA_ERROR_CONTEXTJ).Clean := by
        split at h
        · exact (hadds.grows _ _ _).clean h
        · exact h
      have hbad := (clean_addLabelErrorsIf (by decide) hclean).2
      rw [bne_iff_ne.mpr hoption, beq_iff_eq.mpr hjoiner, Bool.true_and, Bool.true_and,
        Bool.not_eq_false'] at hbad
      exact (isLabelOkContextJ_within env.toCharacterProperties hwhole front behind).symm.trans hbad
    · refine isLabelOkContextJ_of_units _ fun c hc => ⟨?_, ?_⟩
      · rintro rfl
        exact hjoiner (hored ▸ foldl_orNonASCII_mem hc (by decide) 0)
      · rintro rfl
        have hand := foldl_orNonASCII_mem hc (by decide) 0
        rw [hored] at hand
        have hbits : (0x200c : WChar) = 0x200d &&& 0x200c := by decide
        rw [hbits, ← UInt16.and_assoc, hand] at hjoiner
        exact hjoiner rfl
  · intro hoption info'
    by_cases hlow : 0xb7 ≤ oredChars
    · rw [if_pos ⟨hoption, hlow⟩, hadds.eq] at h
      have hlocal := hcopy.localCheck hwhole front behind .reset
      have hnone := (UInt32.or_eq_zero_iff.mp h.2).2
      rw [hadds.eq, ← hlocal]
      exact (congrArg info'.addLabelErrors hnone).trans (by simp [addLabelErrors])
    · have hunits : ∀ c ∈ label, c < 0xb7 := by
        intro c hc
        by_cases hascii : c ≤ 0x7f
        · exact UInt16.lt_of_le_of_lt hascii (by decide)
        · have hand := foldl_orNonASCII_mem hc hascii 0
          rw [hored] at hand
          refine UInt16.lt_of_le_of_lt ?_ (UInt16.not_le.mp hlow)
          rw [← hand, UInt16.le_iff_toNat_le, UInt16.toNat_and]
          exact Nat.and_le_left
      rcases hcopy with rfl | rfl
      · rfl
      · exact checkLabelContextO_of_units _ hunits info'

/-- **The BiDi rule**: the flags tell what it said of the label, unless they were set before. -/
theorem sided_contextual (hne : label ≠ []) (hoption : options &&& UIDNA_CHECK_BIDI ≠ 0)
    (oredChars : WChar) :
    Sided env.toCharacterProperties (contextualInfo env options contextO
      ⟨front ++ label ++ behind, front.length⟩ label.length oredChars info) label := by
  have hwhole : UCharPointer.Whole ⟨label, 0⟩ := ⟨rfl, hwell⟩
  have hgrows : Grows (bidiBlock env options ⟨front ++ label ++ behind, front.length⟩ label.length info)
      (contextualInfo env options contextO ⟨front ++ label ++ behind, front.length⟩ label.length
        oredChars info) := by
    unfold contextualInfo contextOBlock
    split
    · exact (grows_addLabelErrorsIf _ _ _).trans (hcopy.addsErrors.grows _ _ _)
    · exact grows_addLabelErrorsIf _ _ _
  refine Sided.grows ?_ hgrows
  unfold bidiBlock
  by_cases hguard : (!info.isBiDi || info.isOkBiDi) = true
  · have hwithin : checkLabelBiDi env.toCharacterProperties ⟨front ++ label ++ behind, front.length⟩
        label.length info = checkLabelBiDi env.toCharacterProperties ⟨label, 0⟩ label.length info :=
      checkLabelBiDi_within env.toCharacterProperties hwhole front behind hne info
    rw [if_pos ⟨hoption, hguard⟩, hwithin, checkLabelBiDi_eq]
    refine ⟨fun hside hright => ?_, fun hok => ?_⟩
    · have hright' := (Bool.or_eq_false_iff.mp hside).2
      exact Bool.false_ne_true (hright'.symm.trans hright)
    · exact (Bool.and_eq_true_iff.mp hok).2
  · rw [if_neg fun h => hguard h.2]
    rw [Bool.not_eq_true, Bool.or_eq_false_iff, Bool.not_eq_false'] at hguard
    exact ⟨fun hside => absurd (hguard.1.symm.trans hside) (by decide),
      fun hok => absurd (hok.symm.trans hguard.2) (by decide)⟩

end

/-! ## What is left of a label -/

/-- `isNormalized` has accepted the text. -/
def Normalized (env : Environment) (text : WString) : Prop :=
  ∃ code code', U_FAILURE code = false ∧ U_FAILURE code' = false ∧
    env.isNormalized text code = (true, code')

/-- A label on its way: as the mapping of the name leaves it, its text, and what is left of it. -/
structure Part where
  mapped : WString
  text : WString
  label : WString

/-- The ways of a label: an ASCII one stays, another one is encoded, and an ACE label stays if
what it decodes to is normalized. -/
inductive ToASCII (env : Environment) : Part → Prop
  | ascii {label : WString} : IsASCII label → ToASCII env ⟨label, label, label⟩
  | encoded {label digits : WString} : ¬ IsASCII label → Fills (u_strToPunycode label) (.ok digits) →
      ToASCII env ⟨label, label, xnDashDash ++ digits⟩
  | ace {text digits : WString} : Fills (u_strFromPunycode digits) (.ok text) → Normalized env text →
      ToASCII env ⟨xnDashDash ++ digits, text, xnDashDash ++ digits⟩

/-- A label for the DNS, with its text in order. -/
structure Passed (env : Environment) (options : UInt32)
    (contextO : UCharPointer → Nat → IDNAInfo → IDNAInfo) (part : Part) : Prop where
  length : part.label.length ≤ 63
  noDot : 0x2e ∉ part.label
  inOrder : InOrder env options contextO part.text
  form : ToASCII env part

section

variable {env : Environment} {options : UInt32}
  {contextO : UCharPointer → Nat → IDNAInfo → IDNAInfo} (hcopy : IsCopy env contextO)

include hcopy

/-- The checks of a label without errors, and what the flags say of it. -/
theorem inOrder_contextual {label : WString} (hwell : WellFormed label) (front behind : WString)
    {info info' : IDNAInfo} (hchecked : Checked options label)
    (hmark : Unmarked env.toCharacterProperties ⟨front ++ label ++ behind, front.length⟩)
    (hinfo : info' = contextualInfo env options contextO ⟨front ++ label ++ behind, front.length⟩
      label.length (label.foldl orNonASCII 0) info) (hclean : info'.Clean) :
    InOrder env options contextO label ∧
      (options &&& UIDNA_CHECK_BIDI ≠ 0 → Sided env.toCharacterProperties info' label) := by
  obtain ⟨hcontextJ, hcontextO⟩ := contextual_passed hcopy hwell front behind (hinfo ▸ hclean)
  have hfirst := U16_NEXT_UNSAFE_within ⟨rfl, hwell⟩ front behind (p := ⟨label, 0⟩) (Int.le_refl 0)
    (by
      have hpos := List.length_pos_iff.mpr hchecked.nonempty
      show (0 : Int) < label.length
      omega)
  have hmark' : Unmarked env.toCharacterProperties ⟨label, 0⟩ := by
    unfold Unmarked at hmark ⊢
    rw [← hfirst]
    exact hmark
  refine ⟨⟨hchecked, hmark', hcontextJ, hcontextO⟩, fun hoption => ?_⟩
  rw [hinfo]
  exact sided_contextual hcopy hwell front behind hchecked.nonempty hoption _

variable {o : Output} {pre label rest : WString} (hunits : o.dest.units = pre ++ label ++ rest)
  {r : Nat × Output}

include hunits

/-- **A label without errors** is replaced by one for the DNS. -/
theorem processLabel_passed
    (hr : processLabel env.withPunycode options contextO pre.length label.length true o = r)
    (hclean : r.2.info.Clean) (hsuccess : U_FAILURE r.2.errorCode = false) :
    ∃ label' text, Passed env options contextO ⟨label, text, label'⟩ ∧
      (options &&& UIDNA_CHECK_BIDI ≠ 0 → Sided env.toCharacterProperties r.2.info text) ∧
      r.1 = label'.length ∧ r.2.dest.units = pre ++ label' ++ rest := by
  have hcontext := hcopy.addsErrors.grows
  have hlabel : labelOf pre.length label.length o = label := by
    rw [labelOf, UCharPointer.take, hunits]
    simp
  rcases processLabel_cases env.withPunycode options contextO pre.length label.length true o r hr
    label hlabel _ rfl with
    ⟨hf, rfl⟩ | ⟨hf, ⟨-, -, rfl⟩ | ⟨-, -, code, hcode, rfl⟩ | ⟨hx, hdecoded, code, hn, hcode, hr⟩ |
      ⟨-, -, code, rfl⟩ | ⟨-, hr⟩⟩
  · exact absurd (hf.symm.trans hsuccess) (by decide)
  · exact absurd ((markBadACELabel_grows_of _ _ _ _ _).clean hclean)
      (not_clean_addLabelErrors (by decide) _)
  · exact absurd (hcode.symm.trans hsuccess) (by decide)
  · -- an ACE label in the source
    generalize htext : (fromPunycode env.withPunycode (label.drop 4)).1 = text at hr hn
    obtain ⟨hfills, hchecked, hmark, -, hinfo, hlength, hdot, hone, hunits'⟩ := aceLabel_toASCII
      hcontext (o := { o with errorCode := code }) hunits hx htext hdecoded hr.symm hclean
    have hbuffer : text = [] ++ text ++ [] := (List.append_nil text).symm
    obtain ⟨horder, hsided⟩ := inOrder_contextual hcopy (wellFormed_of_fills hfills) [] [] hchecked
      (by rw [← hbuffer]; exact hmark) (by rw [← hbuffer]; exact hinfo) hclean
    have hcut : label = xnDashDash ++ label.drop 4 := by
      obtain ⟨t, rfl⟩ := hx
      rfl
    have hform : ToASCII env ⟨label, text, label⟩ := by
      rw [hcut]
      exact .ace hfills ⟨_, _, hf, hcode, hn⟩
    exact ⟨label, text, ⟨hlength, hdot, horder, hform⟩, hsided, hone, hunits'⟩
  · exact absurd ((markBadACELabel_grows_of _ _ _ _ { o with errorCode := code }).clean hclean)
      (not_clean_addLabelErrors (by decide) _)
  · obtain ⟨hchecked, hmark, -, hinfo, label', hlength, hshort, hunits', hform⟩ :=
      plainLabel_toASCII hcontext hunits hf hr.symm hclean hsuccess
    have hwell : WellFormed label := by
      rcases hform with ⟨hascii, -⟩ | ⟨-, text, hfills, -⟩
      · exact wellFormed_ascii hascii
      · exact wellFormed_of_fills (decoded_of_encoded hfills)
    obtain ⟨horder, hsided⟩ := inOrder_contextual hcopy hwell pre rest hchecked hmark hinfo hclean
    refine ⟨label', label, ⟨hshort, ?_, horder, ?_⟩, hsided, hlength, hunits'⟩
    · rcases hform with ⟨-, rfl⟩ | ⟨-, text, hfills, rfl⟩
      · exact hchecked.noDot
      · exact noDot_ace (decoded_of_encoded hfills) hchecked.noDot
    · rcases hform with ⟨hascii, rfl⟩ | ⟨hascii, text, hfills, rfl⟩
      · exact .ascii hascii
      · exact .encoded hascii hfills

end

end SearchAndIdna.Uts46
