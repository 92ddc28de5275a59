import SearchAndIdna.Fastpath

/-!
# What the functions of `UTS46` are for

A source is mapped and normalized as a whole, broken at its dots, and converted label by
label.  The functions of the interface do that, with an ASCII fastpath in front and in one
buffer.

* `Operation.plain`: the purpose of each function;
* `visible_plain`, `processUnicode_plain`: where the fastpath stops;
* `eachLabel_last`, `limit_finished`: where it goes to the end;
* `process_plain`, `run_plain`: each function does what it is for.
-/

namespace SearchAndIdna.Uts46

open UnicodeString Utf16 Punycode

/-! ## The purpose -/

/-- What a caller sees. -/
structure Visible where
  dest : UnicodeString
  errors : UInt32
  isTransDiff : Bool
  errorCode : UErrorCode
  deriving DecidableEq, Repr

def Output.visible (o : Output) : Visible :=
  ⟨o.dest, o.info.errors, o.info.isTransDiff, o.errorCode⟩

/-- The functions of the interface. -/
inductive Operation
  | labelToASCII | labelToUnicode | nameToASCII | nameToUnicode
  deriving DecidableEq, Repr

namespace Operation

def isLabel : Operation → Bool
  | labelToASCII | labelToUnicode => true
  | nameToASCII | nameToUnicode => false

def toASCII : Operation → Bool
  | labelToASCII | nameToASCII => true
  | labelToUnicode | nameToUnicode => false

section

variable (env : Environment) (options : UInt32)
  (contextO : UCharPointer → Nat → IDNAInfo → IDNAInfo)

def run : Operation → (src : UnicodeString) → (same : Bool) → Output → Output
  | labelToASCII => Uts46.labelToASCII env options contextO
  | labelToUnicode => Uts46.labelToUnicode env options contextO
  | nameToASCII => Uts46.nameToASCII env options contextO
  | nameToUnicode => Uts46.nameToUnicode env options contextO

/-- An ASCII name has at most 253 units, not counting a dot at its end. -/
def limit (op : Operation) (v : Visible) : Visible :=
  if op = nameToASCII ∧ 254 ≤ v.dest.length ∧ isASCIIString v.dest ∧
      (254 < v.dest.length ∨ v.dest.units.getD 253 0xffff ≠ 0x2e) then
    { v with errors := v.errors ||| UIDNA_ERROR_DOMAIN_NAME_TOO_LONG }
  else v

/-- Map and normalize, break, convert. -/
def plain (op : Operation) (src : WString) (errorCode : UErrorCode) : Visible :=
  let normalized := env.normalize src errorCode
  let labels := if op.isLabel then ([], normalized.1.units) else splitDots normalized.1.units
  op.limit (bidiName 0 (eachLabel env options contextO op.toASCII true labels.1 labels.2
    ⟨.text [], .reset, normalized.2⟩)).visible

/-- Deviation characters are mapped. -/
def mapsDeviations (op : Operation) : Bool :=
  if op.toASCII then options &&& UIDNA_NONTRANSITIONAL_TO_ASCII == 0
  else options &&& UIDNA_NONTRANSITIONAL_TO_UNICODE == 0

end

end Operation

/-- What the normalizer does with ASCII. -/
structure MapsASCII (env : Environment) : Prop where
  /-- It maps uppercase letters to lowercase and passes through all others. -/
  ascii : ∀ s errorCode, IsASCII s → U_FAILURE errorCode = false →
    env.normalize s errorCode = (.text (s.map lowercased), errorCode)
  /-- What is normalized already may be left out. -/
  appended : ∀ part rest errorCode, IsASCII part → U_FAILURE errorCode = false →
    env.normalizeSecondAndAppend (.text (part.map lowercased)) rest errorCode =
      env.normalize (part ++ rest) errorCode
  /-- Nothing combines with a hyphen or a dot. -/
  kept : ∀ part c rest errorCode text errorCode', IsASCII part → c = 0x2d ∨ c = 0x2e →
    env.normalize (part ++ c :: rest) errorCode = (.text text, errorCode') →
    U_FAILURE errorCode' = false → ∃ behind, text = part.map lowercased ++ c :: behind

/-! ## Pieces of a text -/

theorem wellFormed_dotted {labels : List WString} {last : WString}
    (h : WellFormed (dotted labels ++ last)) : ∀ label ∈ labels ++ [last], WellFormed label := by
  induction labels with
  | nil =>
    intro label hl
    rw [List.mem_singleton.mp hl]
    exact h
  | cons label labels ih =>
    have hdotted : dotted (label :: labels) ++ last = label ++ 0x2e :: (dotted labels ++ last) := by
      simp [dotted]
    rw [hdotted, wellFormed_append fun v hv => by
      rw [List.head?_cons, Option.mem_some_iff] at hv
      rw [← hv]
      rfl] at h
    have hrest := (wellFormed_unit (by rfl) (by rfl)).mp h.2
    intro l hl
    rcases List.mem_cons.mp hl with rfl | hl
    · exact h.1
    · exact ih hrest l hl

theorem mem_dotted {labels : List WString} {last label : WString} (hl : label ∈ labels ++ [last])
    {c : WChar} (hc : c ∈ label) : c ∈ dotted labels ++ last := by
  rcases List.mem_append.mp hl with hl | hl
  · refine List.mem_append_left _ (List.mem_flatMap.mpr ⟨label, hl, ?_⟩)
    exact List.mem_append_left _ hc
  · rw [← List.mem_singleton.mp hl]
    exact List.mem_append_right _ hc

theorem isEmpty_dotted (labels : List WString) : (dotted labels).isEmpty = labels.isEmpty := by
  cases labels with
  | nil => rfl
  | cons label labels =>
    obtain ⟨a, ha⟩ := dotted_ne_nil (List.cons_ne_nil label labels)
    rw [ha]
    simp

/-- The first label starts as the text does. -/
theorem head_dotted {labels : List WString} {last behind : WString}
    (h : dotted labels ++ last = 0x2d :: behind) :
    (labels ++ [last]).head?.bind List.head? = some 0x2d := by
  cases labels with
  | nil =>
    have hlast : last = 0x2d :: behind := h
    rw [hlast]
    rfl
  | cons label labels =>
    cases label with
    | nil => exact absurd (List.cons.inj h).1 (by decide)
    | cons d label =>
      rw [← (List.cons.inj h).1]
      rfl

/-- Only a dot becomes one. -/
theorem dot_of_lowercased {c : WChar} (h : lowercased c = 0x2e) : c = 0x2e := by
  unfold lowercased at h
  split at h
  · rename_i hc
    exact absurd h (mapped_unit hc.1 hc.2).2.1
  · exact h

/-- What is in front of a hyphen or a dot the normalizer leaves alone. -/
theorem MapsASCII.keeps {env : Environment} (h : MapsASCII env) {part rest a b : WString} {c : WChar}
    (hascii : IsASCII part) (hc : c = 0x2d ∨ c = 0x2e) (hpart : part.map lowercased = a ++ c :: b)
    {errorCode errorCode' : UErrorCode} {text : WString}
    (hnormal : env.normalize (part ++ rest) errorCode = (.text text, errorCode'))
    (hsuccess : U_FAILURE errorCode' = false) : ∃ behind, text = a ++ c :: behind := by
  obtain ⟨p₁, p, rfl, rfl, hp⟩ := List.map_eq_append_iff.mp hpart
  obtain ⟨d, p₂, rfl, hd, -⟩ := List.map_eq_cons_iff.mp hp
  have hsame : d = c := by
    rcases hc with rfl | rfl
    · exact hyphen_of_lowercased hd
    · exact dot_of_lowercased hd
  subst hsame
  rw [List.append_assoc, List.cons_append] at hnormal
  exact h.kept p₁ d (p₂ ++ rest) errorCode text errorCode'
    (fun e he => hascii e (List.mem_append_left _ he)) hc hnormal hsuccess

/-! ## The check of the whole name -/

/-- An error that both add. -/
theorem visible_ite {p q : Prop} {dp : Decidable p} {dq : Decidable q} (h : p ↔ q) (e : UInt32)
    {o o' : Output} (ho : o.visible = o'.visible) :
    Output.visible (@ite _ p dp { o with info := o.info.addErrors e } o) =
      Output.visible (@ite _ q dq { o' with info := o'.info.addErrors e } o') := by
  have hadd : ∀ o : Output, Output.visible { o with info := o.info.addErrors e } =
      { o.visible with errors := o.visible.errors ||| e } := fun _ => rfl
  by_cases hp : p
  · rw [if_pos hp, if_pos (h.mp hp), hadd, hadd, ho]
  · rw [if_neg hp, if_neg fun hq => hp (h.mpr hq), ho]

/-- No label was from right to left. -/
def notBiDi (info : IDNAInfo) : IDNAInfo := { info with isBiDi := false }

theorem isBiDi_addLabelErrorsIf (info : IDNAInfo) (bad : Bool) (e : UInt32) :
    (info.addLabelErrorsIf bad e).isBiDi = info.isBiDi := by
  cases bad <;> rfl

theorem isBiDi_plainErrors (toASCII : Bool) (label : WString) (info : IDNAInfo) :
    (plainErrors toASCII label info).isBiDi = info.isBiDi := by
  unfold plainErrors
  split
  · rfl
  · simp only [isBiDi_addLabelErrorsIf]

theorem isBiDi_plainInfo (toASCII : Bool) (labels : List WString) (info : IDNAInfo) :
    (plainInfo toASCII labels info).isBiDi = info.isBiDi := by
  induction labels generalizing info with
  | nil => rfl
  | cons label labels ih =>
    exact (ih _).trans (isBiDi_plainErrors toASCII label info)

/-- Between labels no errors of a label are pending. -/
theorem labelErrors_plainInfo (toASCII : Bool) (labels : List WString) :
    (plainInfo toASCII labels .reset).labelErrors = 0 := by
  rcases List.eq_nil_or_concat labels with rfl | ⟨labels, label, rfl⟩
  · rfl
  · rw [plainInfo, List.concat_eq_append, List.foldl_append]
    rfl

section

variable {env : Environment} {options : UInt32}
  {contextO : UCharPointer → Nat → IDNAInfo → IDNAInfo} {toASCII : Bool}

/-- Without the option nothing is from right to left. -/
theorem eachLabel_notBiDi (hcontext : AddsErrors contextO) (hoption : options &&& UIDNA_CHECK_BIDI = 0)
    (only : Bool) (labels : List WString) (last : WString) {o : Output} (ho : o.info.isBiDi = false) :
    (eachLabel env options contextO toASCII only labels last o).info.isBiDi = false := by
  have hunnoticed : Unnoticed env options contextO notBiDi := by
    refine unnoticed_of hcontext (fun _ _ => rfl) (fun _ => rfl) fun label labelLength info => ?_
    rw [bidiBlock, bidiBlock, if_neg fun h => h.1 hoption, if_neg fun h => h.1 hoption]
  have hlasting : Lasting notBiDi := ⟨fun _ => rfl, fun _ => rfl, fun _ => rfl⟩
  have hsame : o.mapInfo notBiDi = o := by
    obtain ⟨dest, info, errorCode⟩ := o
    cases info
    cases ho
    rfl
  have hrun := mapInfo_eachLabel hunnoticed hlasting toASCII only labels last o
  rw [hsame] at hrun
  rw [← hrun]
  rfl

theorem isBogus_eachLabel (hempty : EmptyNormalized env) (only : Bool) (labels : List WString)
    {last : WString} (hwell : WellFormed last) (o : Output) :
    (eachLabel env.withPunycode options contextO toASCII only labels last o).dest.isBogus = false := by
  cases labels with
  | nil =>
    rw [eachLabel]
    split
    · exact (processLabel_exact env options contextO hempty toASCII
        (o := { scanned last { o with dest := .text last } with dest := .text last }) rfl hwell).dest
    · rw [scanned_dest]
      rfl
  | cons label labels =>
    rw [eachLabel]
    split <;> rfl

/-- **The BiDi check of the name**, with ASCII labels that were checked one by one or all at
once. -/
theorem visible_bidiName {labels : List WString} (hplain : ∀ l ∈ labels, PlainLabel options l)
    {r : Output} (hoption : options &&& UIDNA_CHECK_BIDI = 0 → r.info.isBiDi = false) :
    (bidiName (dotted labels).length (r.within (dotted labels) [])).visible =
      (bidiName 0 ((r.mapInfo (andOkBiDi (labels.all (plainOkBiDi options)))).within
        (dotted labels) [])).visible := by
  have hdots : ∀ l ∈ labels, 0x2e ∉ l := fun l hl hdot => ((hplain l hl).units _ hdot).dot rfl
  have hcheck : (r.info.isBiDi && (!r.info.isOkBiDi || (decide (0 < (dotted labels).length) &&
      !isASCIIOkBiDi (dotted labels ++ r.dest.units ++ []) (dotted labels).length))) =
        (r.info.isBiDi && !(r.info.isOkBiDi && labels.all (plainOkBiDi options))) := by
    by_cases hoff : options &&& UIDNA_CHECK_BIDI = 0
    · rw [hoption hoff]
      rfl
    · have hall : labels.all (plainOkBiDi options) = labels.all asciiOkBiDi := by
        congr 1
        funext l
        rw [plainOkBiDi, beq_eq_false_iff_ne.mpr hoff, Bool.false_or]
      rw [List.append_nil, isASCIIOkBiDi_dotted r.dest.units hdots, hall, Bool.not_and]
      cases labels with
      | nil => rfl
      | cons l labels =>
        obtain ⟨a, ha⟩ := dotted_ne_nil (List.cons_ne_nil l labels)
        rw [ha, List.length_append, List.length_singleton, decide_eq_true (Nat.succ_pos _),
          Bool.true_and]
  have hsame : ∀ success severe : Bool,
      (r.info.isBiDi && success && severe && (!r.info.isOkBiDi ||
        (decide (0 < (dotted labels).length) &&
          !isASCIIOkBiDi (dotted labels ++ r.dest.units ++ []) (dotted labels).length))) =
        (r.info.isBiDi && success && severe &&
          (!(r.info.isOkBiDi && labels.all (plainOkBiDi options)) || (decide (0 < 0) &&
            !isASCIIOkBiDi (dotted labels ++ r.dest.units ++ []) 0))) := by
    intro success severe
    have hzero : decide (0 < 0) = false := rfl
    rw [hzero, Bool.false_and, Bool.or_false]
    cases hbidi : r.info.isBiDi with
    | false => rfl
    | true =>
      rw [hbidi, Bool.true_and, Bool.true_and] at hcheck
      rw [hcheck]
  unfold bidiName
  refine visible_ite (Bool.eq_iff_iff.mp ?_) _ rfl
  exact hsame (U_SUCCESS r.errorCode) (r.info.errors &&& severeErrors == 0)

end

/-! ## Where the fastpath stops -/

section

variable {env : Environment} {options : UInt32}
  {contextO : UCharPointer → Nat → IDNAInfo → IDNAInfo} (hlocal : LocalCheck contextO)
  (hcontext : AddsErrors contextO) (hempty : EmptyNormalized env)

include hcontext hempty

/-- ASCII labels first, on the plain path. -/
theorem visible_plain (hprops : ASCIIProperties env.toCharacterProperties) (toASCII : Bool)
    {labels : List WString}
    (hplain : ∀ l ∈ labels, PlainLabel options l) (labels' : List WString) {last : WString}
    (hwell : WellFormed last) {errorCode : UErrorCode} (hcode : U_FAILURE errorCode = false) :
    (bidiName 0 (eachLabel env.withPunycode options contextO toASCII true (labels ++ labels') last
        ⟨.text [], .reset, errorCode⟩)).visible =
      (bidiName (dotted labels).length ((eachLabel env.withPunycode options contextO toASCII
        labels.isEmpty labels' last
          ⟨.text [], plainInfo toASCII labels .reset, errorCode⟩).within (dotted labels) [])).visible := by
  have hprops' : ASCIIProperties env.withPunycode.toCharacterProperties := hprops
  have heach := eachLabel_plain toASCII hprops' hcontext hplain [] true labels' last
    (o := ⟨.text [], .reset, errorCode⟩) hcode rfl
  have hwhole : ∀ o : Output, o.dest.isBogus = false → o.within [] [] = o := by
    intro o ho
    obtain ⟨dest, info, code⟩ := o
    obtain ⟨u, rfl⟩ : ∃ u, dest = .text u := ⟨_, eq_text ho⟩
    simp [Output.within, units]
  rw [hwhole _ (isBogus_eachLabel hempty _ _ hwell _), List.nil_append, Bool.true_and] at heach
  rw [heach, visible_bidiName hplain]
  intro hoption
  exact eachLabel_notBiDi hcontext hoption _ _ _ (isBiDi_plainInfo toASCII labels .reset)

include hlocal

/-- The rest of the name is processed as on the plain path. -/
theorem processUnicode_plain (hmaps : MapsASCII env) {isLabel : Bool} (toASCII : Bool)
    {src part rest : WString} {labels labels' : List WString} {label last : WString}
    (h : Copied options isLabel src part rest labels label) {o : Output}
    (hdest : o.dest = .text (dotted labels ++ label)) (hcode : U_FAILURE o.errorCode = false)
    {info : IDNAInfo} (hinfo : info = (plainInfo toASCII labels .reset).addLabelErrorsIf
      (label.head? == some 0x2d) UIDNA_ERROR_LEADING_HYPHEN)
    (hflushed : o.info = info.addErrors info.labelErrors) {text : WString} {errorCode' : UErrorCode}
    (hnormal : env.normalize src o.errorCode = (.text text, errorCode'))
    (hsuccess : U_FAILURE errorCode' = false)
    (htext : text = dotted labels ++ (dotted labels' ++ last))
    (hscan : Scannable isLabel (if toASCII then options &&& UIDNA_NONTRANSITIONAL_TO_ASCII == 0
      else options &&& UIDNA_NONTRANSITIONAL_TO_UNICODE == 0) labels' last) :
    processUnicode env.withPunycode options contextO isLabel toASCII src (dotted labels).length
        part.length o =
      (eachLabel env.withPunycode options contextO toASCII labels.isEmpty labels' last
        ⟨.text [], plainInfo toASCII labels .reset, errorCode'⟩).within (dotted labels) [] := by
  have hnormalized : (if part.length = 0 then env.withPunycode.normalize src o.errorCode
      else env.withPunycode.normalizeSecondAndAppend o.dest (src.drop part.length) o.errorCode) =
        (.text text, errorCode') := by
    split
    · exact hnormal
    · rw [hdest, ← h.text, h.source, List.drop_left]
      rw [h.source] at hnormal
      exact (hmaps.appended part rest _ h.ascii hcode).trans hnormal
  have hrun := processLabels_dotted env options hlocal hempty toASCII hscan (dotted labels)
    ⟨.text [], o.info, errorCode'⟩
  rw [isEmpty_dotted, ← htext] at hrun
  unfold processUnicode
  simp only [hnormalized]
  rw [if_neg (by rw [hsuccess]; exact Bool.false_ne_true)]
  refine hrun.trans ?_
  have hzero := labelErrors_plainInfo toASCII labels
  cases hlead : label.head? == some 0x2d with
  | false =>
    have hsame : o.info = plainInfo toASCII labels .reset := by
      rw [hflushed, hinfo, hlead]
      show (plainInfo toASCII labels .reset).addErrors (plainInfo toASCII labels .reset).labelErrors = _
      rw [hzero, IDNAInfo.addErrors, UInt32.or_zero]
    rw [hsame]
  | true =>
    -- the hyphen was found by the fastpath, and will be found again
    have hsame : o.info = foundBefore UIDNA_ERROR_LEADING_HYPHEN (plainInfo toASCII labels .reset) := by
      rw [hflushed, hinfo, hlead]
      simp only [IDNAInfo.addLabelErrorsIf, IDNAInfo.addLabelErrors, IDNAInfo.addErrors, foundBefore,
        if_true, hzero, UInt32.zero_or]
    obtain ⟨label', rfl⟩ : ∃ label', label = 0x2d :: label' := by
      cases label with
      | nil => cases hlead
      | cons c label => exact ⟨label, by rw [Option.some.inj (beq_iff_eq.mp hlead)]⟩
    rw [h.source] at hnormal
    obtain ⟨behind, hbehind⟩ := hmaps.keeps h.ascii (Or.inl rfl) h.text hnormal hsuccess
    have hhead := head_dotted (List.append_cancel_left (htext.symm.trans hbehind))
    rw [hsame]
    exact congrArg (Output.within (dotted labels) [])
      (eachLabel_found hcontext toASCII labels.isEmpty hhead
        (o := ⟨.text [], plainInfo toASCII labels .reset, errorCode'⟩) hsuccess)

end

/-! ## Where the fastpath goes to the end -/

theorem bidiName_notBiDi {o : Output} (h : o.info.isBiDi = false) (labelStart : Nat) :
    bidiName labelStart o = o := by
  rw [bidiName, h]
  rfl

/-- An ASCII label at the end of a name. -/
theorem eachLabel_last {env : Environment} {options : UInt32}
    (hprops : ASCIIProperties env.toCharacterProperties)
    (contextO : UCharPointer → Nat → IDNAInfo → IDNAInfo) (toASCII only : Bool) {last : WString}
    (hlast : PlainLabel options last) (hne : only = true → last ≠ []) {info : IDNAInfo}
    (hzero : info.labelErrors = 0) {errorCode : UErrorCode} (hcode : U_FAILURE errorCode = false) :
    let info' := if last = [] then info else plainErrors toASCII last info
    eachLabel env options contextO toASCII only [] last ⟨.text [], info, errorCode⟩ =
      ⟨.text last, andOkBiDi (plainOkBiDi options last) (info'.addErrors info'.labelErrors),
        errorCode⟩ := by
  have hsevere : info.labelErrors &&& severeErrors = 0 := by
    rw [hzero]
    rfl
  intro info'
  rw [eachLabel, scanned_ascii fun c hc => (hlast.lowercase c hc).1]
  by_cases hnil : last = []
  · have honly : ¬ (only = true ∨ last ≠ []) := by
      rintro (h | h)
      · exact hne h hnil
      · exact h hnil
    have hinfo : info' = info := if_pos hnil
    have hok : plainOkBiDi options last = true := by
      rw [hnil]
      exact Bool.or_true _
    rw [if_neg honly, hinfo, hok, andOkBiDi_true, hzero, IDNAInfo.addErrors, UInt32.or_zero]
  · have hinfo : info' = plainErrors toASCII last info := if_neg hnil
    have halone := labelAlone_plain hprops contextO toASCII hlast
      (o := ⟨.text last, info, errorCode⟩) hcode hsevere
    rw [if_pos (Or.inr hnil), hinfo]
    simp only [halone]
    rfl

/-- The limit for a name whose last label the fastpath has seen. -/
theorem limit_finished {options : UInt32} {op : Operation} {labels : List WString} {last : WString}
    (hascii : IsASCII (dotted labels ++ last)) (hlast : PlainLabel options last)
    (hne : dotted labels ++ last ≠ []) (errorCode : UErrorCode) :
    let info := plainInfo op.toASCII labels .reset
    let info := if last = [] then info else plainErrors op.toASCII last info
    op.limit (Output.visible ⟨.text (dotted labels ++ last),
        finishedInfo op.isLabel op.toASCII labels last, errorCode⟩) =
      op.limit (Output.visible ⟨.text (dotted labels ++ last), info.addErrors info.labelErrors,
        errorCode⟩) := by
  intro info₀ info
  have hall : isASCIIString (.text (dotted labels ++ last)) = true := by
    rw [isASCIIString, List.all_eq_true]
    exact fun c hc => decide_eq_true (hascii c hc)
  have hget : ∀ (a : WString) (d : WChar), (a ++ [d]).length = 254 → (a ++ [d]).getD 253 0xffff = d := by
    intro a d hlength
    rw [List.length_append, List.length_singleton] at hlength
    rw [List.getD_append_right _ _ _ _ (by omega)]
    have hzero : 253 - a.length = 0 := by omega
    rw [hzero]
    rfl
  have hdot : (dotted labels ++ last).length = 254 →
      ((dotted labels ++ last).getD 253 0xffff ≠ 0x2e ↔ last ≠ []) := by
    intro hlength
    rcases List.eq_nil_or_concat last with rfl | ⟨init, d, rfl⟩
    · have hlabels : labels ≠ [] := by
        rintro rfl
        exact hne rfl
      obtain ⟨a, ha⟩ := dotted_ne_nil hlabels
      rw [List.append_nil, ha] at hlength ⊢
      rw [hget a 0x2e hlength]
      exact ⟨fun h => absurd rfl h, fun h => absurd rfl h⟩
    · have hd : d ≠ 0x2e := (hlast.units d (by simp)).dot
      rw [List.concat_eq_append] at hlength ⊢
      rw [← List.append_assoc] at hlength ⊢
      rw [hget _ d hlength]
      exact ⟨fun _ => by simp, fun _ => hd⟩
  have hop : (op.toASCII && !op.isLabel) = decide (op = .nameToASCII) := by
    cases op <;> rfl
  have hlimit : (op = .nameToASCII ∧ 254 ≤ (text (dotted labels ++ last)).length ∧
      isASCIIString (text (dotted labels ++ last)) = true ∧
      (254 < (text (dotted labels ++ last)).length ∨
        (text (dotted labels ++ last)).units.getD 253 0xffff ≠ 0x2e)) ↔
      (op.toASCII && !op.isLabel && decide (254 ≤ (dotted labels ++ last).length) &&
        (decide (254 < (dotted labels ++ last).length) || last != [])) = true := by
    simp only [hop, hall, true_and, UnicodeString.length, units, Bool.and_eq_true,
      Bool.or_eq_true, decide_eq_true_iff, bne_iff_ne, and_assoc]
    refine and_congr_right fun _ => and_congr_right fun hle => ?_
    rcases Nat.lt_or_eq_of_le hle with hlt | heq
    · exact ⟨fun _ => Or.inl hlt, fun _ => Or.inl hlt⟩
    · exact or_congr_right (hdot heq.symm)
  have hvisible : ∀ (errors : UInt32) (isTransDiff : Bool),
      op.limit ⟨.text (dotted labels ++ last), errors, isTransDiff, errorCode⟩ =
        ⟨.text (dotted labels ++ last), if (op.toASCII && !op.isLabel &&
          decide (254 ≤ (dotted labels ++ last).length) &&
            (decide (254 < (dotted labels ++ last).length) || last != [])) = true
          then errors ||| UIDNA_ERROR_DOMAIN_NAME_TOO_LONG else errors, isTransDiff, errorCode⟩ := by
    intro errors isTransDiff
    unfold Operation.limit
    refine (if_congr hlimit rfl rfl).trans ?_
    split <;> rfl
  rw [Output.visible, Output.visible, hvisible, hvisible]
  cases hlong : op.toASCII && !op.isLabel && decide (254 ≤ (dotted labels ++ last).length) &&
      (decide (254 < (dotted labels ++ last).length) || last != []) with
  | true =>
    simp only [finishedInfo, hlong, if_true]
    have htwice : ∀ a b e : UInt32, a ||| e ||| b ||| e = a ||| b ||| e := by
      intro a b e
      rw [UInt32.or_assoc a e b, UInt32.or_comm e b, ← UInt32.or_assoc a b e, UInt32.or_assoc,
        UInt32.or_self]
    exact congrArg (fun errors => Visible.mk _ errors info.isTransDiff errorCode) (htwice _ _ _)
  | false =>
    simp only [finishedInfo, hlong, Bool.false_eq_true, if_false]
    rfl

/-! ## The functions of the interface -/

/-- `nameToASCII` limits what `process` leaves. -/
theorem visible_run (env : Environment) (options : UInt32)
    (contextO : UCharPointer → Nat → IDNAInfo → IDNAInfo) (op : Operation) (src : UnicodeString)
    (same : Bool) (o : Output) :
    (op.run env options contextO src same o).visible =
      op.limit (process env options contextO op.isLabel op.toASCII src same o).visible := by
  have hflag : ∀ j < 32, UIDNA_ERROR_DOMAIN_NAME_TOO_LONG.toBitVec.getLsbD j = decide (j = 2) := by
    decide
  have hlimit : ∀ op : Operation, op ≠ .nameToASCII → ∀ v : Visible, op.limit v = v :=
    fun op hop v => if_neg fun h => hop h.1
  cases op with
  | nameToASCII =>
    show (nameToASCII env options contextO src same o).visible =
      Operation.nameToASCII.limit (process env options contextO false true src same o).visible
    unfold nameToASCII
    generalize process env options contextO false true src same o = r
    by_cases hlong : 254 ≤ r.dest.length ∧ isASCIIString r.dest = true ∧
        (254 < r.dest.length ∨ r.dest.units.getD 253 0xffff ≠ 0x2e)
    · have hadd : Operation.nameToASCII.limit r.visible =
          { r.visible with errors := r.visible.errors ||| UIDNA_ERROR_DOMAIN_NAME_TOO_LONG } :=
        if_pos ⟨rfl, hlong⟩
      rw [hadd]
      by_cases hfound : r.info.errors &&& UIDNA_ERROR_DOMAIN_NAME_TOO_LONG = 0
      · refine (congrArg Output.visible (if_pos ⟨hlong.1, hfound, hlong.2⟩)).trans ?_
        rfl
      · refine (congrArg Output.visible (if_neg fun h => hfound h.2.1)).trans ?_
        exact congrArg (fun errors => Visible.mk r.dest errors r.info.isTransDiff r.errorCode)
          (Bits.or_of_and_ne_zero hflag hfound).symm
    · refine (congrArg Output.visible (if_neg fun h => hlong ⟨h.1, h.2.2⟩)).trans ?_
      exact (if_neg fun h => hlong h.2).symm
  | labelToASCII => exact (hlimit _ (by decide) _).symm
  | labelToUnicode => exact (hlimit _ (by decide) _).symm
  | nameToUnicode => exact (hlimit _ (by decide) _).symm

/-- The labels of a text that is cut into them. -/
theorem split_text {isLabel : Bool} {labels : List WString} {last : WString}
    (hsingle : isLabel = true → labels = [])
    (hdots : isLabel = false → ∀ label ∈ labels ++ [last], 0x2e ∉ label) :
    (if isLabel then ([], dotted labels ++ last) else splitDots (dotted labels ++ last)) =
      (labels, last) := by
  cases isLabel with
  | true =>
    rw [hsingle rfl]
    rfl
  | false => exact splitDots_dotted (hdots rfl)

section

variable {env : Environment} {options : UInt32}
  {contextO : UCharPointer → Nat → IDNAInfo → IDNAInfo}

/-- The labels of the fastpath are those of the text, and there are others behind. -/
theorem MapsASCII.labels (hmaps : MapsASCII env) {isLabel : Bool} {src part rest : WString}
    {labels : List WString} {label : WString} (h : Copied options isLabel src part rest labels label)
    {errorCode errorCode' : UErrorCode} {text : WString}
    (hnormal : env.normalize src errorCode = (.text text, errorCode'))
    (hsuccess : U_FAILURE errorCode' = false) :
    ∃ labels' last, text = dotted labels ++ (dotted labels' ++ last) ∧
      (isLabel = true → labels' = []) ∧
      (isLabel = false → ∀ label ∈ labels' ++ [last], 0x2e ∉ label) := by
  have hbehind : ∃ behind, text = dotted labels ++ behind := by
    by_cases hnil : labels = []
    · exact ⟨text, by rw [hnil]; rfl⟩
    · obtain ⟨a, ha⟩ := dotted_ne_nil hnil
      have htext := h.text
      rw [ha, List.append_assoc] at htext
      rw [h.source] at hnormal
      obtain ⟨behind, hbehind⟩ := hmaps.keeps h.ascii (Or.inr rfl) htext hnormal hsuccess
      exact ⟨behind, by rw [hbehind, ha, List.append_assoc, List.singleton_append]⟩
  obtain ⟨behind, rfl⟩ := hbehind
  cases isLabel with
  | true => exact ⟨[], behind, rfl, fun _ => rfl, fun h => absurd h (by decide)⟩
  | false =>
    obtain ⟨labels', last, rfl, hdots⟩ := exists_dotted behind
    exact ⟨labels', last, rfl, fun h => absurd h (by decide), fun _ => hdots⟩

theorem copied_start (options : UInt32) (isLabel : Bool) (src : WString) :
    Copied options isLabel src [] src [] [] :=
  ⟨rfl, fun _ h => absurd h List.not_mem_nil, rfl, fun _ h => absurd h List.not_mem_nil, fun _ => rfl⟩

/-- What `process` leaves is that of the plain path, up to the error that `nameToASCII` adds. -/
theorem process_plain (hcopy : IsCopy env contextO) (hmaps : MapsASCII env)
    (hempty : EmptyNormalized env) (hprops : ASCIIProperties env.toCharacterProperties)
    (op : Operation) {src : WString} (hsrc : src ≠ [])
    (hdash : op.isLabel = true → ¬ [0x2d, 0x2e] <:+: src) {o : Output}
    (hcode : U_FAILURE o.errorCode = false) {text : WString} {errorCode' : UErrorCode}
    (hnormal : env.normalize src o.errorCode = (.text text, errorCode'))
    (hsuccess : U_FAILURE errorCode' = false) (hwell : WellFormed text)
    (hmap : op.mapsDeviations options = true → ∀ c ∈ text, isDeviation c = false) :
    op.limit (process env.withPunycode options contextO op.isLabel op.toASCII (.text src) false
        o).visible =
      op.plain env.withPunycode options contextO src o.errorCode := by
  have hcontext := hcopy.addsErrors
  have hlength : ¬ (UnicodeString.text src).length = 0 := fun h =>
    hsrc (List.length_eq_zero_iff.mp h)
  have hfast := fastpath_labels op.toASCII (copied_start options op.isLabel src) plainLabel_nil hdash
  have hnormal' : env.withPunycode.normalize src o.errorCode = (.text text, errorCode') := hnormal
  rw [Operation.plain, hnormal']
  cases hpath : fastpath options op.isLabel op.toASCII src src 0 0 [] .reset with
  | finished destArray info =>
    obtain ⟨labels, last, h, rfl, hlast, rfl⟩ := hpath ▸ hfast
    have hprocess : process env.withPunycode options contextO op.isLabel op.toASCII (.text src) false o =
        ⟨.text (dotted labels ++ last), finishedInfo op.isLabel op.toASCII labels last,
          o.errorCode⟩ := by
      unfold process
      simp only [hcode, Bool.false_eq_true, if_false, isBogus, Bool.or_false, if_neg hlength, units,
        hpath]
    obtain ⟨htext, hsame⟩ := Prod.mk.inj (hnormal.symm.trans (hmaps.ascii src _ h.ascii hcode))
    have htext : text = dotted labels ++ last := (UnicodeString.text.inj htext).trans h.text
    subst htext hsame
    have hdots : ∀ l ∈ labels ++ [last], 0x2e ∉ l := by
      intro l hl hdot
      rcases List.mem_append.mp hl with hl | hl
      · exact ((h.plain l hl).units _ hdot).dot rfl
      · rw [List.mem_singleton.mp hl] at hdot
        exact (hlast.units _ hdot).dot rfl
    have hsplit := split_text h.single fun _ => hdots
    have hascii : IsASCII (dotted labels ++ last) := by
      intro c hc
      rw [← h.text] at hc
      obtain ⟨d, hd, rfl⟩ := List.mem_map.mp hc
      unfold lowercased
      split
      · rename_i hmapped
        exact (mapped_unit hmapped.1 hmapped.2).1
      · exact h.ascii d hd
    have hne : dotted labels ++ last ≠ [] := by
      rw [← h.text]
      exact fun hnil => hsrc (List.map_eq_nil_iff.mp hnil)
    have honly : labels.isEmpty = true → last ≠ [] := by
      rintro honly rfl
      rw [List.isEmpty_iff.mp honly] at hne
      exact hne rfl
    have hprops' : ASCIIProperties env.withPunycode.toCharacterProperties := hprops
    have hlast' := eachLabel_last hprops' contextO op.toASCII labels.isEmpty hlast honly
      (labelErrors_plainInfo op.toASCII labels) hcode
    have hplain := visible_plain hcontext hempty hprops op.toASCII h.plain []
      (wellFormed_dotted hwell last (List.mem_append_right _ List.mem_cons_self)) hcode
    rw [List.append_nil, hlast'] at hplain
    simp only [units, hsplit, hprocess, hplain]
    rw [bidiName_notBiDi]
    · refine (limit_finished hascii hlast hne _).trans ?_
      simp only [Output.within, units, List.append_nil]
      rfl
    · show (if last = [] then plainInfo op.toASCII labels .reset
        else plainErrors op.toASCII last (plainInfo op.toASCII labels .reset)).isBiDi = false
      split
      · exact isBiDi_plainInfo _ _ _
      · exact (isBiDi_plainErrors _ _ _).trans (isBiDi_plainInfo _ _ _)
  | stopped destArray i labelStart info =>
    obtain ⟨part, rest, labels, label, h, rfl, rfl, rfl, hinfo⟩ := hpath ▸ hfast
    have hprocess : process env.withPunycode options contextO op.isLabel op.toASCII (.text src) false o =
        bidiName (dotted labels).length (processUnicode env.withPunycode options contextO op.isLabel
          op.toASCII src (dotted labels).length part.length ⟨.text (dotted labels ++ label),
            info.addErrors info.labelErrors, o.errorCode⟩) := by
      unfold process
      simp only [hcode, Bool.false_eq_true, if_false, isBogus, Bool.or_false, if_neg hlength, units,
        hpath]
    obtain ⟨labels', last, rfl, hsingle, hdots⟩ := hmaps.labels h hnormal hsuccess
    have hsplit : (if op.isLabel then ([], dotted (labels ++ labels') ++ last)
        else splitDots (dotted (labels ++ labels') ++ last)) = (labels ++ labels', last) := by
      refine split_text (fun hname => ?_) fun hname l hl => ?_
      · rw [h.single hname, hsingle hname]
        rfl
      · rw [List.append_assoc] at hl
        rcases List.mem_append.mp hl with hl | hl
        · exact fun hdot => ((h.plain l hl).units _ hdot).dot rfl
        · exact hdots hname l hl
    rw [← List.append_assoc, ← dotted_append] at hwell hmap
    have hbehind : ∀ l ∈ labels' ++ [last], l ∈ labels ++ labels' ++ [last] := by
      intro l hl
      rw [List.append_assoc]
      exact List.mem_append_right _ hl
    have hscan : Scannable op.isLabel (op.mapsDeviations options) labels' last :=
      ⟨fun l hl => wellFormed_dotted hwell l (hbehind l hl), hdots, hsingle,
        fun hdo l hl c hc => hmap hdo c (mem_dotted (hbehind l hl) hc)⟩
    have hrest := processUnicode_plain hcopy.localCheck hcontext hempty hmaps op.toASCII h
      (o := ⟨.text (dotted labels ++ label), info.addErrors info.labelErrors, o.errorCode⟩) rfl hcode
      hinfo rfl hnormal hsuccess rfl hscan
    have hplain := visible_plain hcontext hempty hprops op.toASCII h.plain labels'
      (wellFormed_dotted hwell last (List.mem_append_right _ List.mem_cons_self)) hsuccess
    simp only [units, ← List.append_assoc, ← dotted_append, hsplit, hprocess, hrest, hplain]

/-- **What the functions are for.**  With the check of CONTEXTO of either copy, they do with a
source what mapping and normalizing it as a whole, breaking it at its dots and converting one
label after the other would leave: the ASCII fastpath, the buffer in which labels grow and
shrink, and the checks that the fastpath makes all at once change neither the string, nor the
errors, nor the transitional flag, nor the error code.  A label that is given as one has no
hyphen before a dot: there the fastpath reports a hyphen at an end that is none. -/
theorem run_plain (hcopy : IsCopy env contextO) (hmaps : MapsASCII env)
    (hempty : EmptyNormalized env) (hprops : ASCIIProperties env.toCharacterProperties)
    (op : Operation) {src : WString} (hsrc : src ≠ [])
    (hdash : op.isLabel = true → ¬ [0x2d, 0x2e] <:+: src) {o : Output}
    (hcode : U_FAILURE o.errorCode = false) {text : WString} {errorCode' : UErrorCode}
    (hnormal : env.normalize src o.errorCode = (.text text, errorCode'))
    (hsuccess : U_FAILURE errorCode' = false) (hwell : WellFormed text)
    (hmap : op.mapsDeviations options = true → ∀ c ∈ text, isDeviation c = false) :
    (op.run env.withPunycode options contextO (.text src) false o).visible =
      op.plain env.withPunycode options contextO src o.errorCode := by
  exact (visible_run _ _ _ op _ _ o).trans
    (process_plain hcopy hmaps hempty hprops op hsrc hdash hcode hnormal hsuccess hwell hmap)

end

/-- The directions of ASCII, without uppercase letters; everything else is from left to right. -/
def asciiDirection (c : Int) : UCharDirection :=
  if 0x61 ≤ c ∧ c ≤ 0x7a ∨ 0x7f < c then .leftToRight
  else if 0x30 ≤ c ∧ c ≤ 0x39 then .europeanNumber
  else if c ≤ 0x20 ∧ (0x1c ≤ c ∨ 9 ≤ c ∧ c ≤ 0xd) then .whiteSpaceNeutral
  else .otherNeutral

/-- Surroundings with a normalizer that maps ASCII letters only. -/
def lowercasing : Environment :=
  { middleDot with
    u_charDirection := asciiDirection
    u_charType := fun _ => .lowercaseLetter
    normalize := fun src errorCode => (.text (src.map lowercased), errorCode)
    normalizeSecondAndAppend := fun dest src errorCode =>
      (.text (dest.units ++ src.map lowercased), errorCode)
    isNormalized := fun src errorCode => (src.map lowercased == src, errorCode) }

theorem lowercasing_maps : MapsASCII lowercasing where
  ascii _ _ _ _ := rfl
  appended part rest errorCode _ _ := by
    simp [lowercasing, units]
  kept part c rest errorCode text errorCode' _ hc h _ := by
    have hsame : lowercased c = c := by
      rcases hc with rfl | rfl <;> decide
    refine ⟨rest.map lowercased, ?_⟩
    rw [← UnicodeString.text.inj (Prod.mk.inj h).1, List.map_append, List.map_cons, hsame]

theorem lowercasing_properties : ASCIIProperties lowercasing.toCharacterProperties where
  letter c hc := by
    simp only [isLowerAZ, Bool.and_eq_true, decide_eq_true_iff, UInt16.le_iff_toNat_le,
      UInt16.reduceToNat] at hc
    exact if_pos (Or.inl ⟨by omega, by omega⟩)
  digit c hc := by
    simp only [isASCIIDigit, Bool.and_eq_true, decide_eq_true_iff, UInt16.le_iff_toNat_le,
      UInt16.reduceToNat] at hc
    show asciiDirection c.toNat = _
    unfold asciiDirection
    rw [if_neg (by omega), if_pos (by omega)]
  space c hc := by
    simp only [isASCIISpace, Bool.and_eq_true, Bool.or_eq_true, decide_eq_true_iff,
      UInt16.le_iff_toNat_le, UInt16.reduceToNat] at hc
    have hdir : asciiDirection c.toNat = .whiteSpaceNeutral := by
      unfold asciiDirection
      rw [if_neg (by omega), if_neg (by omega), if_pos (by omega)]
    show asciiDirection c.toNat ∈ _
    rw [hdir]
    decide
  other c hc _ hl hd hs := by
    simp only [isLowerAZ, isASCIIDigit, isASCIISpace, Bool.and_eq_false_iff, Bool.or_eq_false_iff,
      decide_eq_false_iff_not, UInt16.le_iff_toNat_le, UInt16.reduceToNat] at hc hl hd hs
    have hdir : asciiDirection c.toNat = .otherNeutral := by
      unfold asciiDirection
      rw [if_neg (by omega), if_neg (by omega), if_neg (by omega)]
    show asciiDirection c.toNat ∈ _
    rw [hdir]
    decide
  mark c _ := by
    show UCharCategory.lowercaseLetter.mask &&& U_GC_M_MASK = 0
    decide

/-- "A.Bü.bü", and what it is mapped to. -/
def bu : WString := [0x41, 0x2e, 0x42, 0xfc, 0x2e, 0x62, 0xfc]

def buMapped : WString := [0x61, 0x2e, 0x62, 0xfc, 0x2e, 0x62, 0xfc]

/-- "a.xn--b-eha.xn--b-eha". -/
def buASCII : WString :=
  [0x61, 0x2e, 0x78, 0x6e, 0x2d, 0x2d, 0x62, 0x2d, 0x65, 0x68, 0x61, 0x2e, 0x78, 0x6e, 0x2d, 0x2d,
    0x62, 0x2d, 0x65, 0x68, 0x61]

/-- Every check, and deviation characters stay. -/
def allChecks : UInt32 :=
  UIDNA_USE_STD3_RULES ||| UIDNA_CHECK_BIDI ||| UIDNA_CHECK_CONTEXTJ ||| UIDNA_CHECK_CONTEXTO |||
    UIDNA_NONTRANSITIONAL_TO_ASCII ||| UIDNA_NONTRANSITIONAL_TO_UNICODE

/-- "A.Bü.bü" to ASCII. -/
theorem bu_plain :
    (Operation.nameToASCII.run lowercasing.withPunycode allChecks
        (checkLabelContextO lowercasing.toCharacterProperties) (.text bu) false
        ⟨.text [], .reset, U_ZERO_ERROR⟩).visible =
      Operation.nameToASCII.plain lowercasing.withPunycode allChecks
        (checkLabelContextO lowercasing.toCharacterProperties) bu U_ZERO_ERROR := by
  have hnormal : lowercasing.normalize bu U_ZERO_ERROR = (.text buMapped, U_ZERO_ERROR) := by decide
  exact run_plain (Or.inr rfl) lowercasing_maps (fun _ _ => rfl) lowercasing_properties .nameToASCII
    (by decide) (fun h => absurd h (by decide)) (by decide) hnormal (by decide) (by rfl)
    fun h => absurd h (by decide)

/-- "A.Bü.bü" in each function that takes a name. -/
theorem bu_run (op : Operation) (hname : op.isLabel = false) :
    (op.run lowercasing.withPunycode allChecks
        (checkLabelContextO lowercasing.toCharacterProperties) (.text bu) false
        ⟨.text [], .reset, U_ZERO_ERROR⟩).visible =
      op.plain lowercasing.withPunycode allChecks
        (checkLabelContextO lowercasing.toCharacterProperties) bu U_ZERO_ERROR := by
  have hnormal : lowercasing.normalize bu U_ZERO_ERROR = (.text buMapped, U_ZERO_ERROR) := by decide
  have hmaps : op.mapsDeviations allChecks = false := by cases op <;> decide
  exact (visible_run _ _ _ op _ _ _).trans (process_plain (Or.inr rfl) lowercasing_maps
    (fun _ _ => rfl) lowercasing_properties op (by decide)
    (fun h => absurd (h.symm.trans hname) (by decide)) (by decide) hnormal (by decide) (by rfl)
    fun h => absurd (h.symm.trans hmaps) (by decide))

theorem bu_toASCII :
    (nameToASCII lowercasing.withPunycode allChecks
      (checkLabelContextO lowercasing.toCharacterProperties) (.text bu) false
      ⟨.text [], .reset, U_ZERO_ERROR⟩).visible = ⟨.text buASCII, 0, false, U_ZERO_ERROR⟩ :=
  (bu_run .nameToASCII rfl).trans (by decide +kernel)

end SearchAndIdna.Uts46
