import SearchAndIdna.PlainPath

/-!
# To ASCII and back

`nameToUnicode` makes of the result of `nameToASCII` what it makes of the source.

* `StandsFor`: a label for the DNS, and the label that it is for;
* `labelAlone_standsFor`, `eachLabel_standsFor`: `processLabel` and the loop over the labels
  leave such labels, if they report no error;
* `eachLabel_toUnicode`: for ToUnicode, one is as good as the other;
* `nameToUnicode_nameToASCII`: the round trip.
-/

namespace SearchAndIdna.Uts46

open UnicodeString Utf16 Punycode IDNAInfo

/-- No uppercase letter of ASCII. -/
def NoUppercase (label : WString) : Prop := ∀ c ∈ label, lowercased c = c

/-- The encoder writes no uppercase letter of its own. -/
theorem noUppercase_encoded {label text : WString} (h : Fills (u_strToPunycode label) (.ok text))
    (hlabel : NoUppercase label) : NoUppercase (xnDashDash ++ text) := by
  have hdigit : ∀ d < BASE, lowercased (digitToBasic d) = digitToBasic d := by decide
  have hprefix : ∀ c ∈ xnDashDash, lowercased c = c := by
    simp only [xnDashDash, List.forall_mem_cons]
    exact ⟨rfl, rfl, rfl, rfl, fun _ h => absurd h List.not_mem_nil⟩
  obtain ⟨r, hfills, hok, -⟩ := u_strToPunycode_fills label
  obtain ⟨chars, hdecode, -, rfl⟩ := (hok text).mp (hfills.unique h)
  intro c hc
  rcases List.mem_append.mp hc with hc | hc
  · exact hprefix c hc
  · rcases mem_encoding hc with ⟨x, hx, hlt, rfl⟩ | rfl | ⟨d, hd, rfl⟩
    · exact hlabel _ (mem_of_basic hdecode hx hlt)
    · rfl
    · exact hdigit d hd

section

variable (env : Environment) (options : UInt32)
  (contextO : UCharPointer → Nat → IDNAInfo → IDNAInfo)

/-- What ToASCII may leave of a label. -/
structure StandsFor (label' label : WString) : Prop where
  nonempty' : label' ≠ []
  nonempty : label ≠ []
  noDot : 0x2e ∉ label'
  noUppercase : NoUppercase label → NoUppercase label'
  /-- ToUnicode cannot tell them apart. -/
  toUnicode : ∀ {o : Output}, o.info.labelErrors = 0 → U_FAILURE o.errorCode = false →
    labelAlone env.withPunycode options contextO false label' o =
      labelAlone env.withPunycode options contextO false label o

end

section

variable {env : Environment} {options : UInt32}
  {contextO : UCharPointer → Nat → IDNAInfo → IDNAInfo}

/-! ## One label -/

/-- ToUnicode of a label in order: it is its own Unicode form. -/
def unicodeLabel (env : Environment) (options : UInt32)
    (contextO : UCharPointer → Nat → IDNAInfo → IDNAInfo) (label : WString) (o : Output) :
    Nat × Output :=
  (label.length, ⟨.text label, contextualInfo env options contextO ⟨[] ++ label ++ [], 0⟩ label.length
    (label.foldl orNonASCII 0) o.info, o.errorCode⟩)

theorem labelAlone_unicode {label : WString} (hx : ¬ xnDashDash <+: label)
    (hchecked : Checked options label)
    (hmark : Unmarked env.toCharacterProperties ⟨[] ++ label ++ [], 0⟩)
    {o : Output} (hzero : o.info.labelErrors = 0) (hcode : U_FAILURE o.errorCode = false) :
    labelAlone env.withPunycode options contextO false label o =
      unicodeLabel env.withPunycode options contextO label o := by
  have htake : UCharPointer.take ⟨label, 0⟩ label.length = label := by
    simp [UCharPointer.take]
  have hok := @checkLabel_ok options env.withPunycode contextO
    ⟨none, 0, label.length, 0, label.length, false⟩ { o with dest := .text label } [] label []
    (List.append_nil label).symm rfl rfl hchecked hmark hzero
  unfold unicodeLabel labelAlone processLabel
  simp only [hcode, Bool.false_eq_true, if_false, units, htake, if_neg hx]
  rw [hok]
  simp only [Bool.false_eq_true, if_false, replaceLabel, hcode]
  rfl

/-- Its Punycode behind "xn--" has the same Unicode form. -/
theorem labelAlone_encoded (hroom : ∀ n, n ≤ env.capacity n) {label text : WString}
    (hfills : Fills (u_strToPunycode label) (.ok text))
    (hnormal : ∀ errorCode, U_FAILURE errorCode = false →
      env.isNormalized label errorCode = (true, errorCode))
    (hchecked : Checked options label)
    (hmark : Unmarked env.toCharacterProperties ⟨[] ++ label ++ [], 0⟩)
    {o : Output} (hzero : o.info.labelErrors = 0) (hcode : U_FAILURE o.errorCode = false) :
    labelAlone env.withPunycode options contextO false (xnDashDash ++ text) o =
      unicodeLabel env.withPunycode options contextO label o := by
  have htake : UCharPointer.take ⟨xnDashDash ++ text, 0⟩ (xnDashDash ++ text).length =
      xnDashDash ++ text := by
    simp [UCharPointer.take]
  obtain ⟨hdecoded, hsuccess⟩ := fromPunycode_of_fills env (decoded_of_encoded hfills) (Or.inr hroom)
  have hdrop : (xnDashDash ++ text).drop 4 = text := rfl
  have hnormal' : env.withPunycode.isNormalized label o.errorCode = (true, o.errorCode) :=
    hnormal _ hcode
  have hok := @checkLabel_ok options env.withPunycode contextO
    ⟨some label, 0, label.length, 0, (xnDashDash ++ text).length, false⟩
    { o with dest := .text (xnDashDash ++ text) } [] label []
    (List.append_nil label).symm rfl rfl hchecked hmark hzero
  unfold unicodeLabel labelAlone processLabel
  simp only [hcode, Bool.false_eq_true, if_false, units, htake, if_pos (List.prefix_append _ _), hdrop,
    hdecoded, hsuccess, hnormal', if_true]
  rw [hok]
  simp [replaceLabel, hcode, UnicodeString.replace, isBogus]

variable (hcontext : ∀ label labelLength info, Grows info (contextO label labelLength info))

include hcontext

theorem labelAlone_grows (toASCII : Bool) (label : WString) (o : Output) :
    Grows o.info (labelAlone env options contextO toASCII label o).2.info :=
  processLabel_grows options env hcontext 0 label.length toASCII { o with dest := .text label }

variable (hroom : ∀ n, n ≤ env.capacity n)

include hroom

variable (options) in
/-- **What ToASCII leaves of a label**, without an error, stands for the label. -/
theorem labelAlone_standsFor {label : WString}
    (hnormal : ∀ errorCode, U_FAILURE errorCode = false →
      env.isNormalized label errorCode = (true, errorCode)) {o : Output}
    (hclean : (labelAlone env.withPunycode options contextO true label o).2.info.Clean)
    (hsuccess : U_FAILURE (labelAlone env.withPunycode options contextO true label o).2.errorCode =
      false) :
    StandsFor env options contextO
      (labelAlone env.withPunycode options contextO true label o).2.dest.units label := by
  have hunits : ({ o with dest := .text label } : Output).dest.units = [] ++ label ++ [] :=
    (List.append_nil label).symm
  have hlabel : labelOf 0 label.length { o with dest := .text label } = label := by
    simp [labelOf, UCharPointer.take, units]
  generalize hr : labelAlone env.withPunycode options contextO true label o = r at hclean hsuccess
  rcases processLabel_cases env.withPunycode options contextO 0 label.length true
    { o with dest := .text label } r hr label hlabel _ rfl with
    ⟨hf, rfl⟩ | ⟨hf, ⟨-, -, rfl⟩ | ⟨-, -, code, hcode, rfl⟩ | ⟨hx, hdecoded, code, -, -, hr⟩ |
      ⟨-, -, code, rfl⟩ | ⟨hx, hr⟩⟩
  · exact absurd (hf.symm.trans hsuccess) (by decide)
  · exact absurd ((markBadACELabel_grows_of _ _ _ _ _).clean hclean)
      (not_clean_addLabelErrors (by decide) _)
  · exact absurd (hcode.symm.trans hsuccess) (by decide)
  · -- an ACE label stays
    obtain ⟨-, -, -, -, -, -, hdot, -, hsame⟩ := aceLabel_toASCII hcontext
      (o := ⟨.text label, o.info, code⟩) hunits hx rfl hdecoded hr.symm hclean
    rw [List.nil_append, List.append_nil] at hsame
    have hne : label ≠ [] := by
      obtain ⟨t, rfl⟩ := hx
      exact List.cons_ne_nil _ _
    rw [hsame]
    exact ⟨hne, hne, hdot, id, fun _ _ => rfl⟩
  · exact absurd ((markBadACELabel_grows_of _ _ _ _ ⟨.text label, o.info, code⟩).clean hclean)
      (not_clean_addLabelErrors (by decide) _)
  · obtain ⟨hchecked, hmark, -, -, label', -, hshort, hunits', hform⟩ :=
      plainLabel_toASCII hcontext hunits hf hr.symm hclean hsuccess
    rw [List.nil_append, List.append_nil] at hunits'
    rw [hunits']
    rcases hform with ⟨-, rfl⟩ | ⟨-, text, hfills, rfl⟩
    · exact ⟨hchecked.nonempty, hchecked.nonempty, hchecked.noDot, id, fun _ _ => rfl⟩
    · have hdot := noDot_ace (decoded_of_encoded hfills) hchecked.noDot
      refine ⟨List.cons_ne_nil _ _, hchecked.nonempty, hdot, noUppercase_encoded hfills,
        fun hzero hcode => ?_⟩
      rw [labelAlone_encoded hroom hfills hnormal hchecked hmark hzero hcode,
        labelAlone_unicode hx hchecked hmark hzero hcode]

/-! ## The labels one after the other -/

omit hcontext hroom in
theorem scanned_of_transDiff {o : Output} (h : o.info.isTransDiff = true) (label : WString) :
    scanned label o = o := by
  have hsame : o.transDiff = o := by
    obtain ⟨dest, info, errorCode⟩ := o
    cases info
    cases h
    rfl
  rw [scanned, hsame, ite_self]

omit hroom in
/-- **For ToUnicode**, labels are as good as those that they stand for. -/
theorem eachLabel_toUnicode {labels' labels : List WString} {last' last : WString}
    (hlabels : List.Forall₂ (StandsFor env options contextO) labels' labels)
    (hlast : StandsFor env options contextO last' last ∨ last' = last) (only : Bool) {o : Output}
    (hzero : o.info.labelErrors = 0) (hcode : U_FAILURE o.errorCode = false)
    (htrans : o.info.isTransDiff = true)
    (hsuccess : U_FAILURE
      (eachLabel env.withPunycode options contextO false only labels last o).errorCode = false) :
    eachLabel env.withPunycode options contextO false only labels' last' o =
      eachLabel env.withPunycode options contextO false only labels last o := by
  induction hlabels generalizing only o with
  | nil =>
    rcases hlast with h | rfl
    · have hscan : ∀ l : WString, scanned l { o with dest := .text l } = { o with dest := .text l } :=
        fun l => scanned_of_transDiff (o := { o with dest := .text l }) htrans l
      have halone : ∀ (l : WString) (d : UnicodeString),
          labelAlone env.withPunycode options contextO false l { o with dest := d } =
            labelAlone env.withPunycode options contextO false l o := fun _ _ => rfl
      rw [eachLabel, eachLabel, if_pos (Or.inr h.nonempty'), if_pos (Or.inr h.nonempty), hscan, hscan,
        halone last', halone last, h.toUnicode hzero hcode]
    · rfl
  | @cons label' label labels' labels h _ ih =>
    rw [eachLabel, eachLabel, scanned_of_transDiff htrans, scanned_of_transDiff htrans,
      h.toUnicode hzero hcode]
    rw [eachLabel, scanned_of_transDiff htrans] at hsuccess
    -- the flag stays, so the next scan changes nothing either
    have hgrows : Grows o.info (labelAlone env.withPunycode options contextO false label o).2.info :=
      labelAlone_grows hcontext false label o
    have htrans' : (labelAlone env.withPunycode options contextO false label o).2.info.isTransDiff =
        true := by
      cases hflag : (labelAlone env.withPunycode options contextO false label o).2.info.isTransDiff with
      | true => rfl
      | false => exact absurd (htrans.symm.trans (hgrows.transDiff hflag)) (by decide)
    generalize labelAlone env.withPunycode options contextO false label o = r at hsuccess htrans'
    cases hf : U_FAILURE r.2.endLabel.errorCode with
    | true =>
      simp only [hf, if_true] at hsuccess
      exact absurd (hf.symm.trans hsuccess) (by decide)
    | false =>
      simp only [hf, Bool.false_eq_true, if_false] at hsuccess ⊢
      rw [ih false (o := r.2.endLabel) rfl hf htrans' hsuccess]

/-- **What ToASCII leaves of the labels**, without an error, stands for them. -/
theorem eachLabel_standsFor {labels : List WString} {last : WString}
    (hnormal : ∀ l ∈ labels ++ [last], ∀ errorCode, U_FAILURE errorCode = false →
      env.isNormalized l errorCode = (true, errorCode)) (only : Bool) {o R : Output}
    (hzero : o.info.labelErrors = 0)
    (hR : eachLabel env.withPunycode options contextO true only labels last o = R)
    (hsuccess : U_FAILURE R.errorCode = false) (herrors : R.info.errors = 0) :
    o.info.errors = 0 ∧ ∃ labels' last', R.dest.units = dotted labels' ++ last' ∧
      List.Forall₂ (StandsFor env options contextO) labels' labels ∧
      (StandsFor env options contextO last' last ∨
        last' = [] ∧ last = [] ∧ (only = true → labels' ≠ [])) := by
  induction labels generalizing only o R with
  | nil =>
    rw [eachLabel] at hR
    by_cases hdo : only = true ∨ last ≠ []
    · simp only [if_pos hdo] at hR
      rw [← hR] at hsuccess herrors ⊢
      have hclean := UInt32.or_eq_zero_iff.mp herrors
      have hstands := labelAlone_standsFor options hcontext hroom (hnormal last List.mem_cons_self)
        hclean hsuccess
      have hgrows := (labelAlone_grows hcontext true last _).clean hclean
      exact ⟨((scanned_errors last _).symm.trans hgrows.1 :), [], _, rfl, List.Forall₂.nil,
        Or.inl hstands⟩
    · simp only [if_neg hdo] at hR
      rw [not_or, not_not] at hdo
      rw [← hR] at herrors ⊢
      rw [scanned_dest, hdo.2]
      exact ⟨((scanned_errors last _).symm.trans herrors :), [], [], rfl, List.Forall₂.nil,
        Or.inr ⟨rfl, rfl, fun h => absurd h hdo.1⟩⟩
  | cons label labels ih =>
    rw [eachLabel] at hR
    have hstands := fun hclean hsuccess => labelAlone_standsFor options hcontext hroom
      (hnormal label List.mem_cons_self) (o := scanned label o) hclean hsuccess
    have hgrows : Grows (scanned label o).info
        (labelAlone env.withPunycode options contextO true label (scanned label o)).2.info :=
      labelAlone_grows hcontext true label (scanned label o)
    generalize labelAlone env.withPunycode options contextO true label (scanned label o) = r
      at hR hstands hgrows
    cases hf : U_FAILURE r.2.endLabel.errorCode with
    | true =>
      simp only [hf, if_true] at hR
      rw [← hR] at hsuccess
      exact absurd (hf.symm.trans hsuccess) (by decide)
    | false =>
      simp only [hf, Bool.false_eq_true, if_false] at hR
      rw [← hR] at hsuccess herrors ⊢
      obtain ⟨hclean, labels', last', hunits, hlabels, hlast⟩ :=
        ih (fun l hl => hnormal l (List.mem_cons_of_mem _ hl)) false (o := r.2.endLabel) rfl rfl
          hsuccess herrors
      -- the labels behind added no error to this one's, so it had none
      have hclean' : r.2.info.Clean := (grows_endLabel r.2.info).clean ⟨hclean, rfl⟩
      refine ⟨(scanned_errors label o).symm.trans (hgrows.clean hclean').1, r.2.dest.units :: labels',
        last', ?_, List.Forall₂.cons (hstands hclean' hf) hlabels, ?_⟩
      · show r.2.endLabel.dest.units ++ [0x2e] ++ _ ++ [] = _
        rw [hunits, List.append_nil, List.append_assoc, ← List.append_assoc [0x2e]]
        simp [dotted, Output.endLabel]
      · exact hlast.imp_right fun h => ⟨h.1, h.2.1, fun _ => List.cons_ne_nil _ _⟩

end

/-! ## The whole name -/

theorem limit_keeps (op : Operation) (v : Visible) :
    (op.limit v).dest = v.dest ∧ (op.limit v).errorCode = v.errorCode ∧
      ((op.limit v).errors = 0 → v.errors = 0) := by
  unfold Operation.limit
  split
  · exact ⟨rfl, rfl, fun h => (UInt32.or_eq_zero_iff.mp h).1⟩
  · exact ⟨rfl, rfl, id⟩

theorem bidiName_keeps (labelStart : Nat) (o : Output) :
    (bidiName labelStart o).dest = o.dest ∧ (bidiName labelStart o).errorCode = o.errorCode ∧
      ((bidiName labelStart o).info.errors = 0 → o.info.errors = 0) := by
  unfold bidiName
  split
  · exact ⟨rfl, rfl, fun h => (UInt32.or_eq_zero_iff.mp h).1⟩
  · exact ⟨rfl, rfl, id⟩

theorem lasting_withTransDiff : Lasting (withTransDiff true) :=
  ⟨fun _ => rfl, fun _ => rfl, fun _ => rfl⟩

theorem mapInfo_bidiName (b : Bool) (labelStart : Nat) (o : Output) :
    (bidiName labelStart o).mapInfo (withTransDiff b) =
      bidiName labelStart (o.mapInfo (withTransDiff b)) := by
  unfold bidiName
  exact map_ite (Output.mapInfo (withTransDiff b)) (fun _ => rfl) (fun _ => rfl)

/-- What the normalizer leaves has no uppercase letters, and its labels are normalized. -/
structure Normalizes (env : Environment) : Prop where
  noUppercase : ∀ src errorCode text errorCode',
    env.normalize src errorCode = (.text text, errorCode') → U_FAILURE errorCode' = false →
      NoUppercase text
  labels : ∀ src errorCode labels last errorCode',
    env.normalize src errorCode = (.text (dotted labels ++ last), errorCode') →
      U_FAILURE errorCode' = false → ∀ l ∈ labels ++ [last], ∀ code, U_FAILURE code = false →
        env.isNormalized l code = (true, code)

section

variable {env : Environment} {options : UInt32}
  {contextO : UCharPointer → Nat → IDNAInfo → IDNAInfo}

/-- Without dots and uppercase letters, as the labels that they stand for. -/
theorem standsFor_mem {labels' labels : List WString} {last' last : WString}
    (hlabels : List.Forall₂ (StandsFor env options contextO) labels' labels)
    (hlast : StandsFor env options contextO last' last ∨ last' = [])
    (hupper : ∀ l ∈ labels ++ [last], NoUppercase l) :
    ∀ l ∈ labels' ++ [last'], 0x2e ∉ l ∧ NoUppercase l := by
  induction hlabels with
  | nil =>
    intro l hl
    rw [List.mem_singleton.mp hl]
    rcases hlast with h | rfl
    · exact ⟨h.noDot, h.noUppercase (hupper last List.mem_cons_self)⟩
    · exact ⟨List.not_mem_nil, fun _ h => absurd h List.not_mem_nil⟩
  | cons h _ ih =>
    intro l hl
    rcases List.mem_cons.mp hl with rfl | hl
    · exact ⟨h.noDot, h.noUppercase (hupper _ List.mem_cons_self)⟩
    · exact ih (fun l hl => hupper l (List.mem_cons_of_mem _ hl)) l hl

theorem noUppercase_dotted {labels : List WString} {last : WString}
    (h : ∀ l ∈ labels ++ [last], NoUppercase l) : NoUppercase (dotted labels ++ last) := by
  intro c hc
  rcases List.mem_append.mp hc with hc | hc
  · obtain ⟨l, hl, hc⟩ := List.mem_flatMap.mp hc
    rcases List.mem_append.mp hc with hc | hc
    · exact h l (List.mem_append_left _ hl) c hc
    · rw [List.mem_singleton.mp hc]
      rfl
  · exact h last (List.mem_append_right _ List.mem_cons_self) c hc

/-- The plain path of a name that normalizes to labels. -/
theorem plain_name {op : Operation} (hname : op.isLabel = false) {src : WString}
    {labels : List WString} {last : WString} (hdots : ∀ label ∈ labels ++ [last], 0x2e ∉ label)
    {errorCode errorCode' : UErrorCode}
    (hnormal : env.normalize src errorCode = (.text (dotted labels ++ last), errorCode')) :
    op.plain env options contextO src errorCode =
      op.limit (bidiName 0 (eachLabel env options contextO op.toASCII true labels last
        ⟨.text [], .reset, errorCode'⟩)).visible := by
  unfold Operation.plain
  simp only [hnormal, hname, Bool.false_eq_true, if_false, units, splitDots_dotted hdots]

/-- A name that stands for another one is ToUnicode the same. -/
theorem plain_toUnicode
    (hcontext : ∀ label labelLength info, Grows info (contextO label labelLength info))
    (hadds : AddsErrors contextO) {labels' labels : List WString} {last' last : WString}
    (hlabels : List.Forall₂ (StandsFor env options contextO) labels' labels)
    (hlast : StandsFor env options contextO last' last ∨ last' = last) {o : Output}
    (hzero : o.info.labelErrors = 0) (hcode : U_FAILURE o.errorCode = false)
    (hsuccess : U_FAILURE (bidiName 0
      (eachLabel env.withPunycode options contextO false true labels last o)).errorCode = false) :
    (bidiName 0 (eachLabel env.withPunycode options contextO false true labels' last' o)).mapInfo
        (withTransDiff true) =
      (bidiName 0 (eachLabel env.withPunycode options contextO false true labels last o)).mapInfo
        (withTransDiff true) := by
  have hunnoticed : Unnoticed env.withPunycode options contextO (withTransDiff true) :=
    unnoticed_withTransDiff hadds true
  have hmap := mapInfo_eachLabel hunnoticed lasting_withTransDiff false true
  rw [(bidiName_keeps _ _).2.1] at hsuccess
  rw [mapInfo_bidiName, mapInfo_bidiName, hmap, hmap]
  refine congrArg (bidiName 0) (eachLabel_toUnicode hcontext hlabels hlast true hzero hcode rfl ?_)
  rw [← hmap]
  exact hsuccess

variable (hcopy : IsCopy env contextO) (hmaps : MapsASCII env) (hempty : EmptyNormalized env)
  (hprops : ASCIIProperties env.toCharacterProperties)

include hcopy hmaps hempty hprops

variable (options) in
/-- ToUnicode of a name that normalizes to labels. -/
theorem nameToUnicode_plain {src : WString} (hsrc : src ≠ []) {labels : List WString} {last : WString}
    (hdots : ∀ label ∈ labels ++ [last], 0x2e ∉ label) {o : Output}
    (hcode : U_FAILURE o.errorCode = false)
    (hnormal : env.normalize src o.errorCode = (.text (dotted labels ++ last), o.errorCode))
    (hwell : WellFormed (dotted labels ++ last))
    (hmap : Operation.nameToUnicode.mapsDeviations options = true →
      ∀ c ∈ dotted labels ++ last, isDeviation c = false) :
    (nameToUnicode env.withPunycode options contextO (.text src) false o).visible =
      (bidiName 0 (eachLabel env.withPunycode options contextO false true labels last
        ⟨.text [], .reset, o.errorCode⟩)).visible := by
  have hrun := (visible_run _ _ _ .nameToUnicode _ _ o).trans (process_plain hcopy hmaps hempty hprops
    .nameToUnicode hsrc (fun h => absurd h (by decide)) hcode hnormal hcode hwell hmap)
  have hnormal' : env.withPunycode.normalize src o.errorCode =
      (.text (dotted labels ++ last), o.errorCode) := hnormal
  rw [plain_name rfl hdots hnormal'] at hrun
  exact hrun.trans (if_neg fun h => absurd h.1 (by decide))

/-- What ToASCII leaves of a name without an error. -/
theorem nameToASCII_standsFor (hnormalizes : Normalizes env) (hroom : ∀ n, n ≤ env.capacity n)
    {src : WString} (hsrc : src ≠ []) {labels : List WString} {last : WString}
    (hdots : ∀ label ∈ labels ++ [last], 0x2e ∉ label) {o : Output}
    (hcode : U_FAILURE o.errorCode = false)
    (hnormal : env.normalize src o.errorCode = (.text (dotted labels ++ last), o.errorCode))
    (hwell : WellFormed (dotted labels ++ last))
    (hmap : Operation.nameToASCII.mapsDeviations options = true →
      ∀ c ∈ dotted labels ++ last, isDeviation c = false)
    (hsuccess : U_FAILURE
      (nameToASCII env.withPunycode options contextO (.text src) false o).errorCode = false)
    (herrors : (nameToASCII env.withPunycode options contextO (.text src) false o).info.errors = 0) :
    ∃ labels' last', (nameToASCII env.withPunycode options contextO (.text src) false o).dest =
        .text (dotted labels' ++ last') ∧
      List.Forall₂ (StandsFor env options contextO) labels' labels ∧
      (StandsFor env options contextO last' last ∨ last' = [] ∧ last = [] ∧ labels' ≠ []) := by
  have hrun := (visible_run _ _ _ .nameToASCII _ _ o).trans (process_plain hcopy hmaps hempty hprops
    .nameToASCII hsrc (fun h => absurd h (by decide)) hcode hnormal hcode hwell hmap)
  have hnormal' : env.withPunycode.normalize src o.errorCode =
      (.text (dotted labels ++ last), o.errorCode) := hnormal
  rw [plain_name rfl hdots hnormal'] at hrun
  have hbogus : (eachLabel env.withPunycode options contextO Operation.nameToASCII.toASCII true labels
      last ⟨.text [], .reset, o.errorCode⟩).dest.isBogus = false :=
    isBogus_eachLabel hempty true labels
      (wellFormed_dotted hwell last (List.mem_append_right _ List.mem_cons_self)) _
  generalize hR : eachLabel env.withPunycode options contextO Operation.nameToASCII.toASCII true labels
    last ⟨.text [], .reset, o.errorCode⟩ = R at hrun hbogus
  have hlimit := limit_keeps .nameToASCII (bidiName 0 R).visible
  have hbidi := bidiName_keeps 0 R
  have hsuccess' : U_FAILURE R.errorCode = false := by
    rw [← hbidi.2.1, ← hsuccess]
    exact congrArg U_FAILURE (hlimit.2.1.symm.trans (congrArg Visible.errorCode hrun).symm)
  have herrors' : R.info.errors = 0 :=
    hbidi.2.2 (hlimit.2.2 ((congrArg Visible.errors hrun).symm.trans herrors))
  obtain ⟨-, labels', last', hunits, hlabels, hlast⟩ := eachLabel_standsFor hcopy.addsErrors.grows hroom
    (hnormalizes.labels src _ labels last _ hnormal hcode) true rfl hR hsuccess' herrors'
  refine ⟨labels', last', ?_, hlabels, hlast.imp_right fun h => ⟨h.1, h.2.1, h.2.2 rfl⟩⟩
  rw [← hunits, ← eq_text hbogus, ← hbidi.1]
  exact (congrArg Visible.dest hrun).trans hlimit.1

/-- **The round trip.**  What `nameToASCII` leaves without an error, if it is ASCII,
`nameToUnicode` makes into what it makes of the source, with the same errors and error code;
only the transitional flag may differ, since the result has no deviation characters. -/
theorem nameToUnicode_nameToASCII (hnormalizes : Normalizes env) (hroom : ∀ n, n ≤ env.capacity n)
    {src text : WString} (hsrc : src ≠ []) (hnormal : ∀ errorCode, U_FAILURE errorCode = false →
      env.normalize src errorCode = (.text text, errorCode))
    (hwell : WellFormed text) (hmap : ∀ op : Operation, op.mapsDeviations options = true →
      ∀ c ∈ text, isDeviation c = false) {o o' : Output}
    (hcode : U_FAILURE o.errorCode = false) (hcode' : U_FAILURE o'.errorCode = false) :
    let ascii := nameToASCII env.withPunycode options contextO (.text src) false o
    let unicode := fun name => nameToUnicode env.withPunycode options contextO name false o'
    U_FAILURE ascii.errorCode = false → ascii.info.errors = 0 → IsASCII ascii.dest.units →
      U_FAILURE (unicode (.text src)).errorCode = false →
        (unicode ascii.dest).dest = (unicode (.text src)).dest ∧
          (unicode ascii.dest).info.errors = (unicode (.text src)).info.errors ∧
          (unicode ascii.dest).errorCode = (unicode (.text src)).errorCode := by
  intro ascii unicode hsuccess herrors hascii hsuccess'
  obtain ⟨labels, last, rfl, hdots⟩ := exists_dotted text
  obtain ⟨labels', last', hdest, hlabels, hlast⟩ := nameToASCII_standsFor hcopy hmaps hempty hprops
    hnormalizes hroom hsrc hdots hcode (hnormal _ hcode) hwell (hmap _) hsuccess herrors
  have hupper : ∀ l ∈ labels ++ [last], NoUppercase l := fun l hl c hc =>
    hnormalizes.noUppercase src _ _ _ (hnormal _ hcode) hcode c (mem_dotted hl hc)
  have hmem := standsFor_mem hlabels (hlast.imp_right And.left) hupper
  have hsrc' : dotted labels' ++ last' ≠ [] := by
    intro hnil
    obtain ⟨hlabels', hlast'⟩ := List.append_eq_nil_iff.mp hnil
    rcases hlast with h | h
    · exact h.nonempty' hlast'
    · obtain ⟨a, ha⟩ := dotted_ne_nil h.2.2
      rw [ha] at hlabels'
      exact absurd hlabels' (by simp)
  have hascii' : IsASCII (dotted labels' ++ last') := by
    rw [show ascii.dest = .text (dotted labels' ++ last') from hdest] at hascii
    exact hascii
  have hnormal' : env.normalize (dotted labels' ++ last') o'.errorCode =
      (.text (dotted labels' ++ last'), o'.errorCode) := by
    rw [hmaps.ascii _ _ hascii' hcode',
      List.map_congr_left (noUppercase_dotted fun l hl => (hmem l hl).2), List.map_id']
  have hname := nameToUnicode_plain options hcopy hmaps hempty hprops hsrc hdots hcode'
    (hnormal _ hcode') hwell (hmap _)
  have hname' := nameToUnicode_plain options hcopy hmaps hempty hprops hsrc'
    (fun l hl => (hmem l hl).1) hcode' hnormal' (wellFormed_ascii hascii')
    fun _ c hc => not_deviation (hascii' c hc)
  have hsame := plain_toUnicode hcopy.addsErrors.grows hcopy.addsErrors hlabels
    (hlast.imp_right fun h => h.1.trans h.2.1.symm) (o := ⟨.text [], .reset, o'.errorCode⟩) rfl hcode'
    ((congrArg (fun v => U_FAILURE v.errorCode) hname).symm.trans hsuccess')
  have hunicode : unicode ascii.dest = unicode (.text (dotted labels' ++ last')) := congrArg unicode hdest
  rw [hunicode]
  refine ⟨?_, ?_, ?_⟩
  · exact (congrArg Visible.dest hname').trans
      ((congrArg Output.dest hsame).trans (congrArg Visible.dest hname).symm)
  · exact (congrArg Visible.errors hname').trans
      ((congrArg (fun o => o.info.errors) hsame).trans (congrArg Visible.errors hname).symm)
  · exact (congrArg Visible.errorCode hname').trans
      ((congrArg Output.errorCode hsame).trans (congrArg Visible.errorCode hname).symm)

end

theorem lowercased_lowercased (c : WChar) : lowercased (lowercased c) = lowercased c := by
  have hstays : ¬ (lowercased c ≤ 0x7f ∧ 0 < asciiData (lowercased c)) := by
    by_cases hc : c ≤ 0x7f ∧ 0 < asciiData c
    · have hlower : lowercased c = c + 0x20 := if_pos hc
      rw [hlower, (mapped_unit hc.1 hc.2).2.2.2]
      exact fun h => absurd h.2 (by decide)
    · have hsame : lowercased c = c := if_neg hc
      rw [hsame]
      exact hc
  exact if_neg hstays

theorem lowercasing_normalizes : Normalizes lowercasing where
  noUppercase src errorCode text errorCode' h _ := by
    rw [← UnicodeString.text.inj (Prod.mk.inj h).1]
    intro c hc
    obtain ⟨d, -, rfl⟩ := List.mem_map.mp hc
    exact lowercased_lowercased d
  labels src errorCode labels last errorCode' h _ l hl code _ := by
    have htext := UnicodeString.text.inj (Prod.mk.inj h).1
    have hsame : l.map lowercased = l := by
      refine (List.map_congr_left fun c hc => ?_).trans (List.map_id' l)
      have hmem := mem_dotted hl hc
      rw [← htext] at hmem
      obtain ⟨d, -, rfl⟩ := List.mem_map.mp hmem
      exact lowercased_lowercased d
    show ((l.map lowercased == l), code) = (true, code)
    rw [hsame, beq_self_eq_true]

/-- "A.Bü.bü" to ASCII and back. -/
theorem bu_round_trip :
    let ascii := nameToASCII lowercasing.withPunycode allChecks
      (checkLabelContextO lowercasing.toCharacterProperties) (.text bu) false
      ⟨.text [], .reset, U_ZERO_ERROR⟩
    let unicode := fun name => nameToUnicode lowercasing.withPunycode allChecks
      (checkLabelContextO lowercasing.toCharacterProperties) name false
      ⟨.text [], .reset, U_ZERO_ERROR⟩
    (unicode ascii.dest).dest = (unicode (.text bu)).dest ∧
      (unicode ascii.dest).info.errors = (unicode (.text bu)).info.errors ∧
      (unicode ascii.dest).errorCode = (unicode (.text bu)).errorCode := by
  have hascii := bu_toASCII
  have hunicode : (nameToUnicode lowercasing.withPunycode allChecks
      (checkLabelContextO lowercasing.toCharacterProperties) (.text bu) false
      ⟨.text [], .reset, U_ZERO_ERROR⟩).visible = ⟨.text buMapped, 0, false, U_ZERO_ERROR⟩ :=
    (bu_run .nameToUnicode rfl).trans (by decide +kernel)
  have hunits : (nameToASCII lowercasing.withPunycode allChecks
      (checkLabelContextO lowercasing.toCharacterProperties) (.text bu) false
      ⟨.text [], .reset, U_ZERO_ERROR⟩).dest.units = buASCII :=
    congrArg (fun v => v.dest.units) hascii
  have hnormal : ∀ errorCode, U_FAILURE errorCode = false →
      lowercasing.normalize bu errorCode = (.text buMapped, errorCode) := by
    intro errorCode _
    have htext : bu.map lowercased = buMapped := by decide
    exact congrArg (fun text => (UnicodeString.text text, errorCode)) htext
  refine nameToUnicode_nameToASCII (Or.inr rfl) lowercasing_maps (fun _ _ => rfl)
    lowercasing_properties lowercasing_normalizes (fun n => Nat.le_refl n) (by decide) hnormal (by rfl)
    (fun op h => ?_) (by decide) (by decide) ?_ ?_ ?_ ?_
  · have hmaps : op.mapsDeviations allChecks = false := by cases op <;> decide
    exact absurd (h.symm.trans hmaps) (by decide)
  · exact (congrArg (fun v => U_FAILURE v.errorCode) hascii :)
  · exact congrArg Visible.errors hascii
  · rw [hunits]
    have hall : buASCII.all (fun c => decide (c ≤ 0x7f)) = true := by decide
    exact fun c hc => of_decide_eq_true (List.all_eq_true.mp hall c hc)
  · exact (congrArg (fun v => U_FAILURE v.errorCode) hunicode :)

end SearchAndIdna.Uts46
