import SearchAndIdna.PassedLabel
import SearchAndIdna.PlainPath

/-!
# A name without errors

What `nameToASCII` of both copies leaves when it reports no error: a label for the DNS
for each label of the mapped name.

* `scanUnit_again`: the ways to go on in the loop of `processUnicode`;
* `processLabels_passed`: the labels that the loop leaves behind it are passed;
* `alone_passed`: so are those of the ASCII fastpath in front of them;
* `Left.passedLabels`: together, with the BiDi rule;
* `nameToASCII_passed`: the whole name.
-/

namespace SearchAndIdna.Uts46

open UnicodeString Punycode IDNAInfo

/-- What the mapping of a name leaves: of an ASCII one its lowercase, and otherwise what the
normalizer makes of it, or of the rest of it behind an ASCII part that is in lowercase. -/
inductive Mapped (env : Environment) : WString → WString → Prop
  | ascii {src : WString} : IsASCII src → Mapped env src (src.map lowercased)
  | normalized {src : WString} {code code' : UErrorCode} {text : UnicodeString} :
      env.normalize src code = (text, code') → U_FAILURE code' = false → Mapped env src text.units
  | appended {part rest : WString} {code code' : UErrorCode} {text : UnicodeString} : IsASCII part →
      env.normalizeSecondAndAppend (.text (part.map lowercased)) rest code = (text, code') →
      U_FAILURE code' = false → Mapped env (part ++ rest) text.units

/-- A mapped name and what is left of it, label by label; there may be a dot behind the last one.
With UIDNA_CHECK_BIDI, the BiDi rule is kept if there is a right-to-left character anywhere in
the name. -/
structure PassedLabels (env : Environment) (options : UInt32)
    (contextO : UCharPointer → Nat → IDNAInfo → IDNAInfo) (mapped name : WString)
    (parts : List Part) : Prop where
  nonempty : parts ≠ []
  text : (mapped = dotted (parts.map Part.mapped) ∧ name = dotted (parts.map Part.label)) ∨
    mapped ++ [0x2e] = dotted (parts.map Part.mapped) ∧
      name ++ [0x2e] = dotted (parts.map Part.label)
  passed : ∀ part ∈ parts, Passed env options contextO part
  rule : options &&& UIDNA_CHECK_BIDI ≠ 0 →
    (∀ part ∈ parts, ¬ RightToLeft env.toCharacterProperties part.text) ∨
      ∀ part ∈ parts, BiDiRule env.toCharacterProperties part.text

/-- A name for the DNS. -/
structure PassedName (env : Environment) (options : UInt32)
    (contextO : UCharPointer → Nat → IDNAInfo → IDNAInfo) (src name : WString) : Prop where
  labels : ∃ mapped parts, Mapped env src mapped ∧
    PassedLabels env options contextO mapped name parts
  length : IsASCII name → name.length ≤ 253 ∨ name.length = 254 ∧ name.getLast? = some 0x2e

/-! ## The loop over the labels -/

section

variable {env : Environment} {options : UInt32}
  {contextO : UCharPointer → Nat → IDNAInfo → IDNAInfo} {isLabel toASCII : Bool}

/-- The ways to go on: behind a label, with the deviation characters mapped, or behind the unit. -/
theorem scanUnit_again {s s' : Scan}
    (h : scanUnit env options contextO isLabel toASCII s = .again s') :
    (s.out.dest.units.getD s.labelLimit 0 = 0x2e ∧ isLabel = false ∧
      ∃ r, processLabel env options contextO s.labelStart (s.labelLimit - s.labelStart) toASCII
          s.out = r ∧ U_FAILURE r.2.errorCode = false ∧
        s' = { s with destLength := s.destLength + r.1 - (s.labelLimit - s.labelStart)
                      labelStart := s.labelStart + r.1 + 1
                      labelLimit := s.labelStart + r.1 + 1, out := r.2.endLabel }) ∨
    (s.doMapDevChars = true ∧ s'.out.info = s.out.transDiff.info) ∨
    s' = { s with labelLimit := s.labelLimit + 1, out := s.out.transDiff } ∨
    ((s.out.dest.units.getD s.labelLimit 0 = 0x2e → isLabel = true) ∧
      s' = { s with labelLimit := s.labelLimit + 1 }) := by
  unfold scanUnit at h
  simp only at h
  split at h
  · rename_i hdot
    split at h
    · cases h
    · rename_i hf
      cases h
      exact Or.inl ⟨hdot.1, hdot.2, _, rfl, Bool.eq_false_of_not_eq_true hf, rfl⟩
  · rename_i hdot
    right
    split at h
    · split at h
      · rename_i hmap
        split at h
        · cases h
        · cases h
          exact Or.inl ⟨hmap, mapDevChars_info _ _ _⟩
      · cases h
        exact Or.inr (Or.inl rfl)
    · cases h
      refine Or.inr (Or.inr ⟨fun hc => ?_, rfl⟩)
      cases isLabel with
      | true => rfl
      | false => exact absurd ⟨hc, rfl⟩ hdot

theorem scanUnit_returned {s : Scan} {o : Output}
    (h : scanUnit env options contextO isLabel toASCII s = .returned o) :
    U_FAILURE o.errorCode = true := by
  unfold scanUnit at h
  simp only at h
  split at h
  · split at h
    · rename_i hf
      cases h
      exact hf
    · cases h
  · split at h
    · split at h
      · split at h
        · rename_i hf
          cases h
          exact hf
        · cases h
      · cases h
    · cases h

/-- The errors of a label are among those of the name when the next one starts. -/
def Flushed (s : Scan) : Prop := s.out.info.errors = 0 → s.out.info.labelErrors = 0

/-- A name without errors had none at any time, and no deviation character if it has none. -/
theorem processLabels_final (hadds : AddsErrors contextO) {s : Scan} (hflushed : Flushed s)
    (hzero : (processLabels env options contextO isLabel toASCII s).info.errors = 0) :
    s.out.info.Clean ∧
      ((processLabels env options contextO isLabel toASCII s).info.isTransDiff = false →
        s.out.info.isTransDiff = false) := by
  have hgrows : Grows s.out.info (processLabels env options contextO isLabel toASCII s).info :=
    processLabels_grows hadds.grows s
  have hnone := hgrows.errors_eq_zero hzero
  exact ⟨⟨hnone, hflushed hnone⟩, hgrows.transDiff⟩

end

/-- A label for the DNS, and what the flags say of it. -/
structure PassedPart (env : Environment) (options : UInt32)
    (contextO : UCharPointer → Nat → IDNAInfo → IDNAInfo) (info : IDNAInfo) (part : Part) :
    Prop where
  passed : Passed env options contextO part
  sided : options &&& UIDNA_CHECK_BIDI ≠ 0 → Sided env.toCharacterProperties info part.text

theorem PassedPart.grows {env : Environment} {options : UInt32}
    {contextO : UCharPointer → Nat → IDNAInfo → IDNAInfo} {info info' : IDNAInfo} {part : Part}
    (h : PassedPart env options contextO info part) (hgrows : Grows info info') :
    PassedPart env options contextO info' part :=
  ⟨h.passed, fun hoption => (h.sided hoption).grows hgrows⟩

/-- In the loop of `processUnicode`: behind the scan there are the labels of the fastpath in
front, labels for the DNS in place of the mapped ones, and the units of the current label that
it has looked at. -/
structure Ready (env : Environment) (options : UInt32)
    (contextO : UCharPointer → Nat → IDNAInfo → IDNAInfo) (front mapped : WString) (s : Scan) :
    Prop where
  clean : s.out.info.Clean
  code : U_FAILURE s.out.errorCode = false
  text : ∃ (parts : List Part) (label rest : WString),
    (∀ part ∈ parts, PassedPart env options contextO s.out.info part) ∧
    s.out.dest.units = front ++ dotted (parts.map Part.label) ++ label ++ rest ∧
    mapped = front ++ dotted (parts.map Part.mapped) ++ label ++ rest ∧
    s.labelStart = (front ++ dotted (parts.map Part.label)).length ∧
    s.labelLimit = s.labelStart + label.length ∧ s.destLength = s.out.dest.units.length

section

variable {env : Environment} {options : UInt32}
  {contextO : UCharPointer → Nat → IDNAInfo → IDNAInfo} {front mapped : WString}

/-- A unit of the current label. -/
theorem ready_next {s : Scan} (hs : Ready env options contextO front mapped s)
    (hlt : s.labelLimit < s.destLength) :
    Ready env options contextO front mapped { s with labelLimit := s.labelLimit + 1 } := by
  obtain ⟨hclean, hcode, parts, label, rest, hpassed, hunits, hmapped, hstart, hlimit, hlength⟩ := hs
  rw [hunits] at hlength
  cases rest with
  | nil =>
    simp only [List.append_nil, List.length_append] at hlength hstart
    omega
  | cons c rest =>
    refine ⟨hclean, hcode, parts, label ++ [c], rest, hpassed, ?_, ?_, hstart, ?_, ?_⟩
    · rw [hunits]
      simp
    · rw [hmapped]
      simp
    · show s.labelLimit + 1 = _
      rw [hlimit, List.length_append, List.length_singleton, Nat.add_assoc]
    · show s.destLength = s.out.dest.units.length
      rw [hlength, hunits]

/-- What the loop leaves behind `front`. -/
structure Left (env : Environment) (options : UInt32)
    (contextO : UCharPointer → Nat → IDNAInfo → IDNAInfo) (front mapped : WString) (o : Output)
    (parts : List Part) (rest : WString) : Prop where
  units : o.dest.units = front ++ rest
  passed : ∀ part ∈ parts, PassedPart env options contextO o.info part
  text : (rest = dotted (parts.map Part.label) ∧ mapped = front ++ dotted (parts.map Part.mapped) ∧
      front ++ rest ≠ []) ∨
    rest ++ [0x2e] = dotted (parts.map Part.label) ∧
      mapped ++ [0x2e] = front ++ dotted (parts.map Part.mapped)

variable (hcopy : IsCopy env contextO)

include hcopy

/-- A label for the DNS, and the dot behind it. -/
theorem ready_label {s : Scan} (hs : Ready env options contextO front mapped s)
    (hlt : s.labelLimit < s.destLength) (hdot : s.out.dest.units.getD s.labelLimit 0 = 0x2e)
    {r : Nat × Output}
    (hr : processLabel env.withPunycode options contextO s.labelStart (s.labelLimit - s.labelStart)
      true s.out = r) (hcode : U_FAILURE r.2.errorCode = false) (hclean : r.2.info.Clean) :
    Ready env options contextO front mapped { s with
      destLength := s.destLength + r.1 - (s.labelLimit - s.labelStart)
      labelStart := s.labelStart + r.1 + 1, labelLimit := s.labelStart + r.1 + 1
      out := r.2.endLabel } := by
  obtain ⟨-, -, parts, label, rest, hpassed, hunits, hmapped, hstart, hlimit, hlength⟩ := hs
  have hlabel : s.labelLimit - s.labelStart = label.length := by omega
  have hgrows : Grows s.out.info r.2.info :=
    hr ▸ processLabel_grows options env.withPunycode hcopy.addsErrors.grows _ _ _ _
  rw [hlabel, hstart] at hr
  obtain ⟨label', text, hlabel', hsided, hone, hunits'⟩ :=
    processLabel_passed hcopy hunits hr hclean hcode
  rw [hunits] at hdot hlength
  have hindex : s.labelLimit = (front ++ dotted (parts.map Part.label) ++ label).length := by
    rw [hlimit, hstart, ← List.length_append]
  obtain ⟨rest, rfl⟩ : ∃ rest', rest = 0x2e :: rest' := by
    cases rest with
    | nil =>
      rw [List.append_nil] at hlength
      omega
    | cons c rest =>
      rw [hindex] at hdot
      simp only [List.getD_eq_getElem?_getD, List.getElem?_append_right (Nat.le_refl _),
        Nat.sub_self, List.getElem?_cons_zero, Option.getD_some] at hdot
      exact ⟨rest, by rw [hdot]⟩
  refine ⟨clean_endLabel hclean, hcode, parts ++ [⟨label, text, label'⟩], [], rest, ?_, ?_, ?_, ?_, ?_,
    ?_⟩
  · intro part hpart
    rcases List.mem_append.mp hpart with hpart | hpart
    · exact (hpassed part hpart).grows (hgrows.trans (grows_endLabel _))
    · rw [List.mem_singleton.mp hpart]
      exact PassedPart.grows ⟨hlabel', hsided⟩ (grows_endLabel _)
  · show r.2.dest.units = _
    rw [hunits']
    simp
  · rw [hmapped]
    simp
  · show s.labelStart + r.1 + 1 = _
    rw [hstart, hone]
    simp
    omega
  · rfl
  · show s.destLength + r.1 - (s.labelLimit - s.labelStart) = r.2.dest.units.length
    rw [hunits', hlabel, hlength, hone]
    simp only [List.length_append]
    omega

/-- The last label, or the end behind a dot. -/
theorem lastLabel_passed {s : Scan} (hs : Ready env options contextO front mapped s)
    (hend : ¬ s.labelLimit < s.destLength) {r : Output}
    (hr : lastLabel env.withPunycode options contextO true s = r)
    (hsuccess : U_FAILURE r.errorCode = false) (hzero : r.info.errors = 0) :
    ∃ parts rest, Left env options contextO front mapped r parts rest := by
  obtain ⟨-, -, parts, label, rest, hpassed, hunits, hmapped, hstart, hlimit, hlength⟩ := hs
  have hgrows : Grows s.out.info r.info := hr ▸ lastLabel_grows hcopy.addsErrors.grows s
  have hrest : rest = [] := by
    rw [hunits] at hlength
    simp only [List.length_append] at hlength hstart
    exact List.length_eq_zero_iff.mp (by omega)
  have hfront : ∀ part ∈ parts, PassedPart env options contextO r.info part :=
    fun part hpart => (hpassed part hpart).grows hgrows
  unfold lastLabel at hr
  split at hr
  · have hlabel : s.labelLimit - s.labelStart = label.length := by omega
    generalize hr' : processLabel env.withPunycode options contextO s.labelStart
      (s.labelLimit - s.labelStart) true s.out = r' at hr
    rw [hlabel, hstart] at hr'
    rw [← hr] at hzero hsuccess hfront ⊢
    obtain ⟨label', text, hlabel', hsided, -, hunits'⟩ :=
      processLabel_passed hcopy hunits hr' (UInt32.or_eq_zero_iff.mp hzero) hsuccess
    rw [hrest, List.append_nil] at hunits'
    refine ⟨parts ++ [⟨label, text, label'⟩], dotted (parts.map Part.label) ++ label', ?_,
      fun part hpart => ?_, Or.inr ⟨?_, ?_⟩⟩
    · rw [← List.append_assoc]
      exact hunits'
    · rcases List.mem_append.mp hpart with hpart | hpart
      · exact hfront part hpart
      · rw [List.mem_singleton.mp hpart]
        exact PassedPart.grows ⟨hlabel', hsided⟩ (grows_addErrors _ _)
    · simp
    · rw [hmapped, hrest]
      simp
  · rename_i hlast
    rw [← hr] at hfront ⊢
    have hlabel : label = [] := List.length_eq_zero_iff.mp (by omega)
    rw [hrest, hlabel, List.append_nil, List.append_nil] at hunits hmapped
    refine ⟨parts, dotted (parts.map Part.label), hunits, hfront,
      Or.inl ⟨rfl, hmapped, fun hnil => ?_⟩⟩
    rw [hnil] at hstart
    exact hlast (Or.inl hstart.symm)

/-- **The labels of a name** without errors. -/
theorem processLabels_passed {s : Scan} (hs : Ready env options contextO front mapped s) {r : Output}
    (hr : processLabels env.withPunycode options contextO false true s = r)
    (hsuccess : U_FAILURE r.errorCode = false) (hzero : r.info.errors = 0)
    (hmap : s.doMapDevChars = false ∨ r.info.isTransDiff = false) :
    ∃ parts rest, Left env options contextO front mapped r parts rest := by
  induction s using processLabels.induct env.withPunycode options contextO false true with
  | case1 s hlt s' hagain ih =>
    rw [processLabels_again _ _ _ _ _ hlt hagain] at hr
    have hflushed : Flushed s' → s'.out.info.Clean ∧
        (r.info.isTransDiff = false → s'.out.info.isTransDiff = false) :=
      fun hf => hr ▸ processLabels_final hcopy.addsErrors hf (hr ▸ hzero)
    rcases scanUnit_again hagain with ⟨hdot, -, r', hr', hcode, rfl⟩ | ⟨hdo, hinfo⟩ | rfl | ⟨-, rfl⟩
    · have hclean : r'.2.info.Clean := (grows_endLabel _).clean (hflushed fun _ => rfl).1
      exact ih (ready_label hcopy hs hlt hdot hr' hcode hclean) hr hmap
    · -- a deviation character is mapped: the name has one
      have hdiff := hmap.resolve_left (by rw [hdo]; decide)
      have hflag := (hflushed fun _ => by rw [hinfo]; exact hs.clean.2).2 hdiff
      rw [hinfo] at hflag
      exact absurd (show true = false from hflag) (by decide)
    · obtain ⟨hclean, hcode, parts, label, rest, hpassed, htext⟩ := ready_next hs hlt
      have htrans : Grows s.out.info s.out.transDiff.info := grows_transDiff s.out
      exact ih ⟨hclean, hcode, parts, label, rest, fun part hpart => (hpassed part hpart).grows htrans,
        htext⟩ hr hmap
    · exact ih (ready_next hs hlt) hr hmap
  | case2 s hlt o hreturned =>
    rw [processLabels_returned _ _ _ _ _ hlt hreturned] at hr
    rw [← hr] at hsuccess
    exact absurd ((scanUnit_returned hreturned).symm.trans hsuccess) (by decide)
  | case3 s hend =>
    rw [processLabels_end _ _ _ _ _ hend] at hr
    exact lastLabel_passed hcopy hs hend hr hsuccess hzero

end

/-! ## The ASCII fastpath -/

/-- The labels of the fastpath, each with itself. -/
def alone (labels : List WString) : List Part := labels.map fun label => ⟨label, label, label⟩

@[simp] theorem map_mapped_alone (labels : List WString) :
    (alone labels).map Part.mapped = labels := by
  simp [alone, Function.comp_def]

@[simp] theorem map_label_alone (labels : List WString) : (alone labels).map Part.label = labels := by
  simp [alone, Function.comp_def]

theorem mem_alone {labels : List WString} {part : Part} (h : part ∈ alone labels) :
    ∃ label ∈ labels, part = ⟨label, label, label⟩ := by
  obtain ⟨label, hlabel, rfl⟩ := List.mem_map.mp h
  exact ⟨label, hlabel, rfl⟩

section

variable {options : UInt32}

/-- The hyphens, the length and the emptiness of a label without errors are in order. -/
theorem plainErrors_clean {label : WString} (hlabel : PlainLabel options label) {info : IDNAInfo}
    (hclean : (plainErrors true label info).Clean) :
    info.Clean ∧ Checked options label ∧ label.length ≤ 63 := by
  unfold plainErrors at hclean
  split at hclean
  · exact absurd hclean (not_clean_addLabelErrors (by decide) _)
  · rename_i hne
    obtain ⟨hclean, hshort⟩ := clean_addLabelErrorsIf (by decide) hclean
    obtain ⟨hclean, htrailing⟩ := clean_addLabelErrorsIf (by decide) hclean
    obtain ⟨hclean, hleading⟩ := clean_addLabelErrorsIf (by decide) hclean
    rw [Bool.true_and, decide_eq_false_iff_not, Nat.not_lt] at hshort
    exact ⟨hclean, ⟨hne, hlabel.units, beq_eq_false_iff_ne.mp hleading,
      beq_eq_false_iff_ne.mp htrailing, hlabel.hyphen34⟩, hshort⟩

theorem plainInfo_clean {labels : List WString} (hlabels : ∀ label ∈ labels, PlainLabel options label)
    {info : IDNAInfo} (hclean : (plainInfo true labels info).Clean) :
    info.Clean ∧ ∀ label ∈ labels, Checked options label ∧ label.length ≤ 63 := by
  induction labels generalizing info with
  | nil => exact ⟨hclean, fun _ h => absurd h List.not_mem_nil⟩
  | cons label labels ih =>
    obtain ⟨hclean, hrest⟩ := ih (fun l hl => hlabels l (List.mem_cons_of_mem _ hl)) hclean
    obtain ⟨hclean, hlabel⟩ := plainErrors_clean (hlabels label List.mem_cons_self)
      ((grows_endLabel _).clean hclean)
    refine ⟨hclean, fun l hl => ?_⟩
    rcases List.mem_cons.mp hl with rfl | hl
    · exact hlabel
    · exact hrest l hl

end

/-- The BiDi rule for a label of the fastpath. -/
theorem bidi_ascii {props : CharacterProperties} (hprops : ASCIIProperties props) {label : WString}
    (hlabel : IsLowercase label) (hne : label ≠ []) :
    ¬ RightToLeft props label ∧ (asciiOkBiDi label = true → BiDiRule props label) := by
  rw [RightToLeft, BiDiRule, checkLabelBiDi_ascii hprops hlabel hne]
  cases asciiOkBiDi label with
  | true => exact ⟨Bool.false_ne_true, fun _ => rfl⟩
  | false => exact ⟨Bool.false_ne_true, fun h => absurd h Bool.false_ne_true⟩

/-- A label of the fastpath for the DNS. -/
structure FastPart (env : Environment) (options : UInt32)
    (contextO : UCharPointer → Nat → IDNAInfo → IDNAInfo) (part : Part) : Prop where
  passed : Passed env options contextO part
  notRightToLeft : ¬ RightToLeft env.toCharacterProperties part.text
  rule : asciiOkBiDi part.label = true → BiDiRule env.toCharacterProperties part.text

section

variable {env : Environment} {options : UInt32}
  {contextO : UCharPointer → Nat → IDNAInfo → IDNAInfo} (hcopy : IsCopy env contextO)
  (hprops : ASCIIProperties env.toCharacterProperties)

include hcopy hprops

/-- A label of the fastpath without errors. -/
theorem plainLabel_passed {label : WString} (hlabel : PlainLabel options label)
    (hchecked : Checked options label) (hshort : label.length ≤ 63) :
    Passed env options contextO ⟨label, label, label⟩ := by
  have hascii : IsASCII label := fun c hc => (hlabel.lowercase c hc).1
  refine ⟨hshort, hchecked.noDot, ⟨hchecked, unmarked_ascii hprops hascii hchecked.nonempty,
    fun _ => ?_, fun _ info => ?_⟩, .ascii hascii⟩
  · refine isLabelOkContextJ_of_units _ fun c hc => ⟨?_, ?_⟩
    · rintro rfl
      exact absurd (hascii _ hc) (by decide)
    · rintro rfl
      exact absurd (hascii _ hc) (by decide)
  · rcases hcopy with rfl | rfl
    · rfl
    · exact checkLabelContextO_of_units _
        (fun c hc => UInt16.lt_of_le_of_lt (hascii c hc) (by decide)) info

/-- **The labels of the fastpath** without errors. -/
theorem alone_passed {labels : List WString} (hplain : ∀ label ∈ labels, PlainLabel options label)
    (hchecked : ∀ label ∈ labels, Checked options label ∧ label.length ≤ 63) :
    ∀ part ∈ alone labels, FastPart env options contextO part := by
  intro part hpart
  obtain ⟨label, hlabel, rfl⟩ := mem_alone hpart
  obtain ⟨hlabel', hshort⟩ := hchecked label hlabel
  obtain ⟨hside, hrule⟩ := bidi_ascii hprops (hplain label hlabel).lowercase hlabel'.nonempty
  exact ⟨plainLabel_passed hcopy hprops (hplain label hlabel) hlabel' hshort, hside, hrule⟩

end

/-! ## The whole name -/

section

variable {env : Environment} {options : UInt32}
  {contextO : UCharPointer → Nat → IDNAInfo → IDNAInfo} {labels : List WString}
  (hfront : ∀ part ∈ alone labels, FastPart env options contextO part)

include hfront

/-- The labels of the fastpath, when it goes to the end. -/
theorem passedLabels_alone (hne : labels ≠ []) {name : WString}
    (htext : name = dotted labels ∨ name ++ [0x2e] = dotted labels) :
    PassedLabels env options contextO name name (alone labels) := by
  refine ⟨fun h => hne (List.map_eq_nil_iff.mp h), ?_, fun part hpart => (hfront part hpart).passed,
    fun _ => Or.inl fun part hpart => (hfront part hpart).notRightToLeft⟩
  rw [map_label_alone, map_mapped_alone, and_self, and_self]
  exact htext

/-- The labels of the fastpath and those behind them. -/
theorem Left.passedLabels {mapped : WString} {o : Output} {parts : List Part} {rest : WString}
    (h : Left env options contextO (dotted labels) mapped o parts rest)
    (hdots : ∀ label ∈ labels, 0x2e ∉ label)
    (hbidi : o.info.isBiDi = false ∨ o.info.isOkBiDi = true ∧
      (0 < (dotted labels).length → isASCIIOkBiDi o.dest.units (dotted labels).length = true)) :
    PassedLabels env options contextO mapped o.dest.units (alone labels ++ parts) := by
  obtain ⟨hunits, hparts, htext⟩ := h
  refine ⟨fun hnil => ?_, ?_, ?_, fun hoption => ?_⟩
  · obtain ⟨hlabels, rfl⟩ := List.append_eq_nil_iff.mp hnil
    obtain rfl : labels = [] := List.map_eq_nil_iff.mp hlabels
    rcases htext with ⟨rfl, -, hne⟩ | ⟨hdot, -⟩
    · exact hne rfl
    · exact absurd hdot (by simp [dotted])
  · rw [hunits, List.map_append, List.map_append, map_label_alone, map_mapped_alone, dotted_append,
      dotted_append]
    rcases htext with ⟨rfl, hmapped, -⟩ | ⟨hdot, hmapped⟩
    · exact Or.inl ⟨hmapped, rfl⟩
    · exact Or.inr ⟨hmapped, by rw [List.append_assoc, hdot]⟩
  · exact List.forall_mem_append.mpr
      ⟨fun part hpart => (hfront part hpart).passed, fun part hpart => (hparts part hpart).passed⟩
  · rcases hbidi with hside | ⟨hok, hfast⟩
    · refine Or.inl (List.forall_mem_append.mpr
        ⟨fun part hpart => (hfront part hpart).notRightToLeft, ?_⟩)
      exact fun part hpart => ((hparts part hpart).sided hoption).rightToLeft hside
    · refine Or.inr (List.forall_mem_append.mpr ⟨fun part hpart => ?_, ?_⟩)
      · obtain ⟨label, hlabel, rfl⟩ := mem_alone hpart
        obtain ⟨a, ha⟩ := dotted_ne_nil (List.ne_nil_of_mem hlabel)
        have hall := hfast (by rw [ha]; simp)
        rw [hunits, isASCIIOkBiDi_dotted rest hdots, List.all_eq_true] at hall
        exact (hfront _ hpart).rule (hall label hlabel)
      · exact fun part hpart => ((hparts part hpart).sided hoption).rule hok

end

/-- At the end of the source. -/
theorem finished_passed {env : Environment} {options : UInt32}
    {contextO : UCharPointer → Nat → IDNAInfo → IDNAInfo} (hcopy : IsCopy env contextO)
    (hprops : ASCIIProperties env.toCharacterProperties) {labels : List WString} {last : WString}
    (hplain : ∀ label ∈ labels, PlainLabel options label) (hlast : PlainLabel options last)
    (hne : dotted labels ++ last ≠ [])
    (hzero : (finishedInfo false true labels last).errors = 0) :
    ∃ parts, PassedLabels env options contextO (dotted labels ++ last) (dotted labels ++ last)
      parts := by
  have hclean := (grows_addErrorsIf _ _ _).clean (UInt32.or_eq_zero_iff.mp hzero)
  by_cases hnil : last = []
  · rw [if_pos hnil] at hclean
    have hlabels : labels ≠ [] := by
      rintro rfl
      exact hne (by rw [hnil]; rfl)
    have hfront := alone_passed hcopy hprops hplain (plainInfo_clean hplain hclean).2
    exact ⟨_, passedLabels_alone hfront hlabels (Or.inl (by rw [hnil, List.append_nil]))⟩
  · rw [if_neg hnil] at hclean
    obtain ⟨hclean, hlast'⟩ := plainErrors_clean hlast hclean
    have hplain' : ∀ label ∈ labels ++ [last], PlainLabel options label :=
      List.forall_mem_append.mpr ⟨hplain, List.forall_mem_singleton.mpr hlast⟩
    have hfront := alone_passed hcopy hprops hplain' (List.forall_mem_append.mpr
      ⟨(plainInfo_clean hplain hclean).2, List.forall_mem_singleton.mpr hlast'⟩)
    exact ⟨_, passedLabels_alone hfront (by simp) (Or.inr (by simp))⟩

/-- What is in the first string up to a dot, normalizing the second one behind it leaves alone. -/
def KeepsLabels (env : Environment) : Prop :=
  ∀ (first : UnicodeString) (second : WString) (errorCode : UErrorCode) (a b : WString),
    U_FAILURE (env.normalizeSecondAndAppend first second errorCode).2 = false →
    first.units = a ++ 0x2e :: b →
    ∃ c, (env.normalizeSecondAndAppend first second errorCode).1.units = a ++ 0x2e :: c

/-- The check of the whole name without errors. -/
theorem bidiName_passed {labelStart : Nat} {o : Output}
    (hzero : (bidiName labelStart o).info.errors = 0) (hsuccess : U_FAILURE o.errorCode = false) :
    bidiName labelStart o = o ∧ (o.info.isBiDi = false ∨ o.info.isOkBiDi = true ∧
      (0 < labelStart → isASCIIOkBiDi o.dest.units labelStart = true)) := by
  unfold bidiName at hzero ⊢
  split at hzero
  · have hbidi := (UInt32.or_eq_zero_iff.mp hzero).2
    exact absurd hbidi (by decide)
  · rename_i hnot
    rw [if_neg hnot]
    refine ⟨rfl, ?_⟩
    have hcode : U_SUCCESS o.errorCode = true := success_of_not_failure hsuccess
    rw [hzero, UInt32.zero_and, hcode] at hnot
    cases hside : o.info.isBiDi with
    | false => exact Or.inl rfl
    | true =>
      refine Or.inr ?_
      rw [hside] at hnot
      cases hok : o.info.isOkBiDi with
      | false => simp [hok] at hnot
      | true => simpa [hok] using hnot

section

variable {env : Environment} {options : UInt32}
  {contextO : UCharPointer → Nat → IDNAInfo → IDNAInfo} (hcopy : IsCopy env contextO)
  (hkeeps : KeepsLabels env)

include hcopy hkeeps

/-- `processUnicode`, with the labels of the fastpath before. -/
theorem processUnicode_passed {src part rest : WString} {labels : List WString} {label : WString}
    (hcopied : Copied options false src part rest labels label) {o r : Output}
    (hdest : o.dest = .text (dotted labels ++ label))
    (hflushed : o.info.errors = 0 → o.info.labelErrors = 0)
    (hr : processUnicode env.withPunycode options contextO false true src (dotted labels).length
      part.length o = r)
    (hsuccess : U_FAILURE r.errorCode = false) (hzero : r.info.errors = 0)
    (hmap : options &&& UIDNA_NONTRANSITIONAL_TO_ASCII ≠ 0 ∨ r.info.isTransDiff = false) :
    o.info.Clean ∧ ∃ mapped parts rest', Mapped env src mapped ∧
      Left env options contextO (dotted labels) mapped r parts rest' := by
  unfold processUnicode at hr
  simp only [if_true] at hr
  generalize hn : (if part.length = 0 then env.withPunycode.normalize src o.errorCode
    else env.withPunycode.normalizeSecondAndAppend o.dest (src.drop part.length) o.errorCode) =
      normalized at hr
  by_cases hf : U_FAILURE normalized.2 = true
  · rw [if_pos hf] at hr
    rw [← hr] at hsuccess
    exact absurd (hf.symm.trans hsuccess) (by decide)
  rw [if_neg hf] at hr
  have hcode : U_FAILURE normalized.2 = false := Bool.eq_false_of_not_eq_true hf
  have hmapped : Mapped env src normalized.1.units := by
    split at hn
    · exact .normalized hn hcode
    · have hdrop : src.drop part.length = rest := by
        rw [hcopied.source, List.drop_left]
      rw [hdest, hdrop, ← hcopied.text] at hn
      rw [hcopied.source]
      exact .appended hcopied.ascii hn hcode
  obtain ⟨rest', hrest⟩ : ∃ rest', normalized.1.units = dotted labels ++ rest' := by
    by_cases hnil : labels = []
    · exact ⟨_, by rw [hnil]; rfl⟩
    · obtain ⟨a, ha⟩ := dotted_ne_nil hnil
      have hpos : ¬ part.length = 0 := by
        rw [hcopied.length, ha]
        simp
      rw [if_neg hpos] at hn
      have hfirst : o.dest.units = a ++ 0x2e :: label := by
        rw [hdest, units, ha]
        simp
      obtain ⟨c, hc⟩ := hkeeps o.dest (src.drop part.length) o.errorCode a label (hn ▸ hcode) hfirst
      have hunits : normalized.1.units = a ++ 0x2e :: c := by
        rw [← hn]
        exact hc
      exact ⟨c, by rw [hunits, ha, List.append_assoc, List.singleton_append]⟩
  have hstart : Flushed ⟨options &&& UIDNA_NONTRANSITIONAL_TO_ASCII == 0, normalized.1.length,
      (dotted labels).length, (dotted labels).length, ⟨normalized.1, o.info, normalized.2⟩⟩ := hflushed
  have hclean := (processLabels_final hcopy.addsErrors hstart (hr ▸ hzero)).1
  have hready : Ready env options contextO (dotted labels) normalized.1.units
      ⟨options &&& UIDNA_NONTRANSITIONAL_TO_ASCII == 0, normalized.1.length, (dotted labels).length,
        (dotted labels).length, ⟨normalized.1, o.info, normalized.2⟩⟩ := by
    have hunits : normalized.1.units = dotted labels ++ [] ++ [] ++ rest' := by
      rw [hrest, List.append_nil, List.append_nil]
    refine ⟨hclean, hcode, [], [], rest', fun _ h => absurd h List.not_mem_nil, hunits, hunits, ?_, rfl,
      rfl⟩
    show _ = (dotted labels ++ []).length
    rw [List.append_nil]
  obtain ⟨parts, rest'', hleft⟩ := processLabels_passed hcopy hready hr hsuccess hzero
    (hmap.imp_left fun hopt => beq_eq_false_iff_ne.mpr hopt)
  exact ⟨hclean, _, parts, rest'', hmapped, hleft⟩

variable (hprops : ASCIIProperties env.toCharacterProperties)

include hprops

/-- `process`, for a name to ASCII. -/
theorem process_passed {name : UnicodeString} {same : Bool} {o r : Output}
    (hr : process env.withPunycode options contextO false true name same o = r)
    (hsuccess : U_FAILURE r.errorCode = false) (hzero : r.info.errors = 0)
    (hmap : options &&& UIDNA_NONTRANSITIONAL_TO_ASCII ≠ 0 ∨ r.info.isTransDiff = false) :
    ∃ mapped parts, Mapped env name.units mapped ∧
      PassedLabels env options contextO mapped r.dest.units parts := by
  unfold process at hr
  cases hf : U_FAILURE o.errorCode with
  | true =>
    rw [hf, if_pos rfl] at hr
    rw [← hr] at hsuccess
    exact absurd (hf.symm.trans hsuccess) (by decide)
  | false =>
    rw [hf, if_neg Bool.false_ne_true] at hr
    by_cases hs : (same || name.isBogus) = true
    · rw [if_pos hs] at hr
      rw [← hr] at hsuccess
      have hargument : U_FAILURE U_ILLEGAL_ARGUMENT_ERROR = false := hsuccess
      exact absurd hargument (by decide)
    rw [if_neg hs] at hr
    simp only at hr
    by_cases hempty : name.length = 0
    · rw [if_pos hempty] at hr
      rw [← hr] at hzero
      have hlabel : (0 : UInt32) ||| UIDNA_ERROR_EMPTY_LABEL = 0 := hzero
      exact absurd hlabel (by decide)
    rw [if_neg hempty] at hr
    have hfast := fastpath_labels true (copied_start options false name.units) plainLabel_nil
      fun h => absurd h Bool.false_ne_true
    cases hpath : fastpath options false true name.units name.units 0 0 [] .reset with
    | finished destArray info =>
      rw [hpath] at hr
      obtain ⟨labels, last, hcopied, rfl, hlast, rfl⟩ := hpath ▸ hfast
      rw [← hr] at hzero ⊢
      have hne : dotted labels ++ last ≠ [] := fun hnil => by
        rw [← hcopied.text] at hnil
        exact hempty (by rw [UnicodeString.length, List.map_eq_nil_iff.mp hnil]; rfl)
      obtain ⟨parts, hparts⟩ := finished_passed hcopy hprops hcopied.plain hlast hne hzero
      refine ⟨dotted labels ++ last, parts, ?_, hparts⟩
      rw [← hcopied.text]
      exact .ascii hcopied.ascii
    | stopped destArray i labelStart info =>
      rw [hpath] at hr
      obtain ⟨part, rest, labels, label, hcopied, rfl, rfl, rfl, rfl⟩ := hpath ▸ hfast
      simp only at hr
      generalize hinfo : (plainInfo true labels .reset).addLabelErrorsIf (label.head? == some 0x2d)
        UIDNA_ERROR_LEADING_HYPHEN = info at hr
      generalize hunicode : processUnicode env.withPunycode options contextO false true name.units
        (dotted labels).length part.length
        { o with dest := .text (dotted labels ++ label)
                 info := info.addErrors info.labelErrors } = u at hr
      have hcode : r.errorCode = u.errorCode := by
        rw [← hr, bidiName]
        split <;> rfl
      obtain ⟨hsame, hbidi⟩ := bidiName_passed (hr ▸ hzero) (hcode ▸ hsuccess)
      obtain rfl : u = r := hsame.symm.trans hr
      obtain ⟨hclean, mapped, parts, rest', hmapped, hleft⟩ := processUnicode_passed hcopy hkeeps hcopied
        rfl (fun hnone => (UInt32.or_eq_zero_iff.mp hnone).2) hunicode hsuccess hzero hmap
      have hclean : (plainInfo true labels .reset).Clean := by
        refine Grows.clean (hinfo ▸ grows_addLabelErrorsIf _ _ _) ((grows_addErrors _ _).clean hclean)
      have hfront := alone_passed hcopy hprops hcopied.plain (plainInfo_clean hcopied.plain hclean).2
      have hdots : ∀ label ∈ labels, 0x2e ∉ label :=
        fun l hl hdot => ((hcopied.plain l hl).units _ hdot).dot rfl
      exact ⟨mapped, _, hmapped, Left.passedLabels hfront hleft hdots hbidi⟩

end

end SearchAndIdna.Uts46
