import SearchAndIdna.ASCIILabels

/-!
# The ASCII fastpath and the plain path

`process` copies ASCII labels in a loop of its own and leaves the rest of the name to
`processUnicode`.  The plain path maps and normalizes the whole source, breaks it at the
dots and processes one label after the other.  They end alike.

* `eachLabel_plain`: ASCII labels on the plain path;
* `fastpath_labels`: the fastpath leaves the same labels with the same errors;
* `process_plain`: so both paths leave the same.
-/

namespace SearchAndIdna.Uts46

open UnicodeString Utf16 Punycode

/-! ## ASCII labels on the plain path -/

/-- The info behind such labels. -/
def plainInfo (toASCII : Bool) (labels : List WString) (info : IDNAInfo) : IDNAInfo :=
  labels.foldl (fun info label => (plainErrors toASCII label info).endLabel) info

theorem plainErrors_andOkBiDi (b toASCII : Bool) (label : WString) (info : IDNAInfo) :
    plainErrors toASCII label (andOkBiDi b info) = andOkBiDi b (plainErrors toASCII label info) := by
  have hadd : ∀ info e, andOkBiDi b (info.addLabelErrors e) = (andOkBiDi b info).addLabelErrors e :=
    fun _ _ => rfl
  unfold plainErrors
  symm
  refine map_ite (andOkBiDi b) (fun _ => rfl) (fun _ => ?_)
  simp only [map_addLabelErrorsIf hadd]

theorem plainInfo_andOkBiDi (b toASCII : Bool) (labels : List WString) (info : IDNAInfo) :
    plainInfo toASCII labels (andOkBiDi b info) = andOkBiDi b (plainInfo toASCII labels info) := by
  induction labels generalizing info with
  | nil => rfl
  | cons label labels ih =>
    rw [plainInfo, List.foldl_cons, plainErrors_andOkBiDi]
    exact ih (plainErrors toASCII label info).endLabel

theorem within_within (front behind : WString) (o : Output) (part : WString) :
    (o.within part []).within front behind = o.within (front ++ part) behind := by
  simp [Output.within, units]

theorem andOkBiDi_andOkBiDi (a b : Bool) (o : Output) :
    (o.mapInfo (andOkBiDi a)).mapInfo (andOkBiDi b) = o.mapInfo (andOkBiDi (a && b)) := by
  simp [Output.mapInfo, andOkBiDi, Bool.and_assoc]

theorem not_deviation {c : WChar} (hc : c ≤ 0x7f) : isDeviation c = false := by
  have hlt : ¬ (0xdf : WChar) ≤ c := fun h => absurd (UInt16.le_trans h hc) (by decide)
  simp [isDeviation, hlt]

theorem scanned_ascii {label : WString} (h : IsASCII label) (o : Output) : scanned label o = o := by
  have hno : label.any isDeviation = false := by
    rw [List.any_eq_false]
    exact fun c hc => by rw [not_deviation (h c hc)]; exact Bool.false_ne_true
  rw [scanned, hno, if_neg Bool.false_ne_true]

section

variable {env : Environment} {options : UInt32}
  {contextO : UCharPointer → Nat → IDNAInfo → IDNAInfo} {toASCII : Bool}

/-- What `dest` held before does not matter. -/
theorem eachLabel_dest (only : Bool) (labels : List WString) (last : WString) (dest : UnicodeString)
    (o : Output) :
    eachLabel env options contextO toASCII only labels last { o with dest := dest } =
      eachLabel env options contextO toASCII only labels last o := by
  have hscan : ∀ label, scanned label { o with dest := dest } = { scanned label o with dest := dest } := by
    intro label
    unfold scanned
    split <;> rfl
  cases labels with
  | nil => rfl
  | cons label labels =>
    rw [eachLabel, eachLabel, hscan]
    rfl

variable (hprops : ASCIIProperties env.toCharacterProperties) (hcontext : AddsErrors contextO)

include hprops hcontext

variable (toASCII) in
/-- **ASCII labels** in front of others. -/
theorem eachLabel_plain {labels : List WString} (hlabels : ∀ label ∈ labels, PlainLabel options label)
    (front : WString) (only : Bool) (labels' : List WString) (last : WString) {o : Output}
    (hcode : U_FAILURE o.errorCode = false) (hzero : o.info.labelErrors = 0) :
    (eachLabel env options contextO toASCII only (labels ++ labels') last o).within front [] =
      ((eachLabel env options contextO toASCII (only && labels.isEmpty) labels' last
        { o with info := plainInfo toASCII labels o.info }).mapInfo
          (andOkBiDi (labels.all (plainOkBiDi options)))).within (front ++ dotted labels) [] := by
  induction labels generalizing front only o with
  | nil =>
    have hsame : ∀ o : Output, o.mapInfo (andOkBiDi true) = o := by
      intro o
      rw [Output.mapInfo, andOkBiDi_true]
    simp only [List.nil_append, List.isEmpty_nil, Bool.and_true, List.all_nil, hsame, dotted_nil,
      List.append_nil]
    rfl
  | cons label labels ih =>
    have hlabel := hlabels label List.mem_cons_self
    have hsevere : o.info.labelErrors &&& severeErrors = 0 := by
      rw [hzero]
      rfl
    have halone := labelAlone_plain hprops contextO toASCII hlabel hcode hsevere
    rw [List.cons_append, eachLabel, scanned_ascii fun c hc => (hlabel.lowercase c hc).1]
    simp only [halone, Output.endLabel, hcode, Bool.false_eq_true, if_false]
    rw [within_within]
    have hnext := ih (fun l hl => hlabels l (List.mem_cons_of_mem _ hl)) (front ++ (label ++ [0x2e]))
      false (o := ⟨.text label, (andOkBiDi (plainOkBiDi options label)
        (plainErrors toASCII label o.info)).endLabel, o.errorCode⟩) hcode rfl
    have hdotted : dotted (label :: labels) = label ++ [0x2e] ++ dotted labels := by
      simp [dotted]
    have hend : (andOkBiDi (plainOkBiDi options label) (plainErrors toASCII label o.info)).endLabel =
        andOkBiDi (plainOkBiDi options label) (plainErrors toASCII label o.info).endLabel := rfl
    have hsame : (⟨.text label, andOkBiDi (plainOkBiDi options label) (plainInfo toASCII labels
        (plainErrors toASCII label o.info).endLabel), o.errorCode⟩ : Output) =
          { Output.mapInfo (andOkBiDi (plainOkBiDi options label))
            { o with info := plainInfo toASCII (label :: labels) o.info } with
            dest := .text label } := rfl
    simp only [units]
    refine hnext.trans ?_
    simp only [hend, plainInfo_andOkBiDi, Bool.false_and]
    rw [hsame, eachLabel_dest, ← mapInfo_eachLabel (unnoticed_andOkBiDi hcontext _)
      (lasting_andOkBiDi _), andOkBiDi_andOkBiDi, hdotted, List.append_assoc, List.all_cons,
      List.isEmpty_cons, Bool.and_false]

end

/-! ## A label that starts with a hyphen -/

section

variable {env : Environment} {options : UInt32}
  {contextO : UCharPointer → Nat → IDNAInfo → IDNAInfo} (hcontext : AddsErrors contextO)

include hcontext

theorem unnoticed_addErrors (e : UInt32) :
    Unnoticed env options contextO fun info => info.addErrors e := by
  refine unnoticed_of hcontext (fun _ _ => rfl) (fun _ => rfl) fun label labelLength info => ?_
  unfold bidiBlock
  refine map_ite (fun info => IDNAInfo.addErrors info e) (fun _ => ?_) (fun _ => rfl)
  exact map_checkLabelBiDi (T := fun info => info.addErrors e)
    (fun info bad => by cases bad <;> rfl) (fun _ => rfl) _ _ _ _

omit hcontext in
/-- The hyphen is found once more. -/
theorem hyphenErrors_found {l : Label} {o : Output} (h : (l.pointer o).at 0 = 0x2d) :
    hyphenErrors l (o.mapInfo (foundBefore UIDNA_ERROR_LEADING_HYPHEN)) =
      hyphenErrors l (o.mapInfo fun info => info.addErrors UIDNA_ERROR_LEADING_HYPHEN) := by
  have hleading : ∀ (info : IDNAInfo) (bad : Bool) (e : UInt32),
      (((info.addErrors UIDNA_ERROR_LEADING_HYPHEN).addLabelErrors
        UIDNA_ERROR_LEADING_HYPHEN).addLabelErrorsIf bad e).addLabelErrors
          UIDNA_ERROR_LEADING_HYPHEN =
        ((info.addErrors UIDNA_ERROR_LEADING_HYPHEN).addLabelErrorsIf bad e).addLabelErrors
          UIDNA_ERROR_LEADING_HYPHEN := by
    intro info bad e
    cases bad with
    | false =>
      simp [IDNAInfo.addLabelErrorsIf, IDNAInfo.addLabelErrors, UInt32.or_assoc]
    | true =>
      simp only [IDNAInfo.addLabelErrorsIf, IDNAInfo.addLabelErrors, if_true]
      rw [UInt32.or_assoc, UInt32.or_assoc, UInt32.or_comm UIDNA_ERROR_LEADING_HYPHEN,
        UInt32.or_assoc, UInt32.or_self, UInt32.or_assoc]
  have hhyphen : ((l.pointer o).at 0 == 0x2d) = true := beq_iff_eq.mpr h
  unfold hyphenErrors
  simp only [pointer_mapInfo, hhyphen]
  exact congrArg (fun info => Output.addLabelErrorsIf { o with info := info } _
    UIDNA_ERROR_TRAILING_HYPHEN) (hleading o.info _ UIDNA_ERROR_HYPHEN_3_4)

variable (env options) in
/-- A leading hyphen found before makes no other difference. -/
theorem labelAlone_found (toASCII : Bool) (label : WString) (hlabel : label.head? = some 0x2d)
    {o : Output} (hcode : U_FAILURE o.errorCode = false) :
    (labelAlone env options contextO toASCII label o).2.info.labelErrors |||
        UIDNA_ERROR_LEADING_HYPHEN =
      (labelAlone env options contextO toASCII label o).2.info.labelErrors := by
  obtain ⟨label, rfl⟩ : ∃ rest, label = 0x2d :: rest := by
    cases label with
    | nil => cases hlabel
    | cons c rest => exact ⟨rest, by rw [Option.some.inj hlabel]⟩
  have hsame : labelAlone env options contextO toASCII (0x2d :: label)
      (o.mapInfo (foundBefore UIDNA_ERROR_LEADING_HYPHEN)) =
        labelAlone env options contextO toASCII (0x2d :: label)
          (o.mapInfo fun info => info.addErrors UIDNA_ERROR_LEADING_HYPHEN) := by
    have htake : UCharPointer.take ⟨0x2d :: label, 0⟩ (0x2d :: label).length = 0x2d :: label := by
      rw [UCharPointer.take, List.drop_zero, List.take_length]
    have hplain : ¬ xnDashDash <+: 0x2d :: label := by
      rintro ⟨rest, hrest⟩
      exact absurd (List.cons.inj hrest).1 (by decide)
    have hhyphens := hyphenErrors_found (l := ⟨none, 0, (0x2d :: label).length, 0,
      (0x2d :: label).length, toASCII⟩) (o := { o with dest := .text (0x2d :: label) }) rfl
    simp only [Output.mapInfo] at hhyphens
    have hlength : (0x2d :: label).length ≠ 0 := Nat.succ_ne_zero _
    unfold labelAlone processLabel
    simp only [Output.mapInfo, units, htake, hcode, Bool.false_eq_true, if_false, if_neg hplain]
    unfold checkLabel
    simp only [if_neg hlength, hhyphens]
  rw [← mapInfo_labelAlone (unnoticed_foundBefore hcontext (by decide)),
    ← mapInfo_labelAlone (unnoticed_addErrors hcontext _)] at hsame
  exact congrArg (fun r : Nat × Output => r.2.info.labelErrors) hsame

/-- **A leading hyphen found before** the first label. -/
theorem eachLabel_found (toASCII only : Bool) {labels : List WString} {last : WString}
    (hlabel : (labels ++ [last]).head?.bind List.head? = some 0x2d) {o : Output}
    (hcode : U_FAILURE o.errorCode = false) :
    eachLabel env options contextO toASCII only labels last
        (o.mapInfo (foundBefore UIDNA_ERROR_LEADING_HYPHEN)) =
      eachLabel env options contextO toASCII only labels last o := by
  have hunnoticed : Unnoticed env options contextO (foundBefore UIDNA_ERROR_LEADING_HYPHEN) :=
    unnoticed_foundBefore hcontext (by decide)
  have hscan : ∀ label (o : Output), scanned label (o.mapInfo (foundBefore
      UIDNA_ERROR_LEADING_HYPHEN)) = (scanned label o).mapInfo (foundBefore
        UIDNA_ERROR_LEADING_HYPHEN) := by
    intro label o
    unfold scanned
    split <;> rfl
  have hends : ∀ info : IDNAInfo,
      info.labelErrors ||| UIDNA_ERROR_LEADING_HYPHEN = info.labelErrors →
        (foundBefore UIDNA_ERROR_LEADING_HYPHEN info).addErrors
            (foundBefore UIDNA_ERROR_LEADING_HYPHEN info).labelErrors =
          info.addErrors info.labelErrors := by
    intro info h
    simp only [foundBefore, IDNAInfo.addErrors, IDNAInfo.addLabelErrors, h]
    rw [UInt32.or_assoc, UInt32.or_comm UIDNA_ERROR_LEADING_HYPHEN, h]
  have hscanned : ∀ label, U_FAILURE (scanned label o).errorCode = false := by
    intro label
    unfold scanned
    split <;> exact hcode
  cases labels with
  | nil =>
    have hne : last ≠ [] := by
      rintro rfl
      cases hlabel
    have hfound := labelAlone_found env options hcontext toASCII last hlabel
      (o := scanned last { o with dest := .text last }) (by
        unfold scanned
        split <;> exact hcode)
    have hrun := mapInfo_labelAlone hunnoticed toASCII last (scanned last { o with dest := .text last })
    have hscan' : scanned last { o.mapInfo (foundBefore UIDNA_ERROR_LEADING_HYPHEN) with
        dest := .text last } =
          (scanned last { o with dest := .text last }).mapInfo
            (foundBefore UIDNA_ERROR_LEADING_HYPHEN) := hscan last { o with dest := .text last }
    rw [eachLabel, eachLabel, hscan', if_pos (Or.inr hne), if_pos (Or.inr hne), ← hrun]
    generalize labelAlone env options contextO toASCII last
      (scanned last { o with dest := .text last }) = r at hfound
    exact congrArg (fun info => ({ r.2 with info := info } : Output)) (hends r.2.info hfound)
  | cons label labels =>
    have hfound := labelAlone_found env options hcontext toASCII label hlabel
      (hscanned label)
    have hrun := mapInfo_labelAlone hunnoticed toASCII label (scanned label o)
    rw [eachLabel, eachLabel, hscan, ← hrun]
    generalize labelAlone env options contextO toASCII label (scanned label o) = r at hfound
    have hend : (mapInfoResult (foundBefore UIDNA_ERROR_LEADING_HYPHEN) r).2.endLabel =
        r.2.endLabel :=
      congrArg (fun info : IDNAInfo => ({ r.2 with
        info := ({ info with labelErrors := 0 } : IDNAInfo) } : Output)) (hends r.2.info hfound)
    rw [hend]

end

/-! ## The labels of a text -/

/-- The labels with a dot behind them, and the last one. -/
def splitDots (s : WString) : List WString × WString :=
  ((s.splitOn 0x2e).dropLast, (s.splitOn 0x2e).getLast (List.splitOn_ne_nil 0x2e s))

theorem splitOn_dotted {labels : List WString} {last : WString}
    (hdots : ∀ label ∈ labels ++ [last], 0x2e ∉ label) :
    (dotted labels ++ last).splitOn 0x2e = labels ++ [last] := by
  induction labels with
  | nil => exact List.splitOn_eq_singleton (hdots last List.mem_cons_self)
  | cons label labels ih =>
    have hdotted : dotted (label :: labels) ++ last = label ++ 0x2e :: (dotted labels ++ last) := by
      simp [dotted]
    rw [hdotted, List.splitOn_append_cons_self_of_not_mem (hdots label List.mem_cons_self),
      ih fun l hl => hdots l (List.mem_cons_of_mem _ hl)]
    rfl

theorem splitDots_dotted {labels : List WString} {last : WString}
    (hdots : ∀ label ∈ labels ++ [last], 0x2e ∉ label) :
    splitDots (dotted labels ++ last) = (labels, last) := by
  simp [splitDots, splitOn_dotted hdots]

/-- Every text is some labels. -/
theorem exists_dotted (s : WString) :
    ∃ labels last, s = dotted labels ++ last ∧ ∀ label ∈ labels ++ [last], 0x2e ∉ label := by
  induction s with
  | nil =>
    refine ⟨[], [], rfl, fun label hl => ?_⟩
    rw [List.mem_singleton.mp hl]
    exact List.not_mem_nil
  | cons c s ih =>
    obtain ⟨labels, last, rfl, hdots⟩ := ih
    by_cases hc : c = 0x2e
    · refine ⟨[] :: labels, last, by simp [dotted, hc], fun label hl => ?_⟩
      rcases List.mem_cons.mp hl with rfl | hl
      · exact List.not_mem_nil
      · exact hdots label hl
    · have hcons : ∀ label, 0x2e ∉ label → 0x2e ∉ c :: label := by
        intro label hlabel hmem
        rcases List.mem_cons.mp hmem with h | h
        · exact hc h.symm
        · exact hlabel h
      cases labels with
      | nil =>
        refine ⟨[], c :: last, rfl, fun label hl => ?_⟩
        rw [List.mem_singleton.mp hl]
        exact hcons last (hdots last List.mem_cons_self)
      | cons label labels =>
        refine ⟨(c :: label) :: labels, last, by simp [dotted], fun l hl => ?_⟩
        rcases List.mem_cons.mp hl with rfl | hl
        · exact hcons label (hdots label List.mem_cons_self)
        · exact hdots l (List.mem_cons_of_mem _ hl)

/-! ## What the fastpath copies -/

/-- An uppercase ASCII letter becomes a lowercase one. -/
def lowercased (c : WChar) : WChar := if c ≤ 0x7f ∧ 0 < asciiData c then c + 0x20 else c

/-- The errors of the current label so far, with `rest` still to read. -/
def pendingErrors (label rest : WString) (info : IDNAInfo) : IDNAInfo :=
  (info.addLabelErrorsIf (label.head? == some 0x2d) UIDNA_ERROR_LEADING_HYPHEN).addLabelErrorsIf
    (label.getLast? == some 0x2d && (rest.isEmpty || rest.head? == some 0x2e))
    UIDNA_ERROR_TRAILING_HYPHEN

theorem plainLabel_nil {options : UInt32} : PlainLabel options [] :=
  ⟨fun _ h => absurd h List.not_mem_nil, fun _ h => absurd h List.not_mem_nil, by decide⟩

theorem PlainLabel.next {options : UInt32} {label : WString} (h : PlainLabel options label) {c : WChar}
    (hc : c ≤ 0x7f) (hlower : asciiData c ≤ 0) (hunit : UnitOk options c)
    (hhyphen34 : c = 0x2d → label.length = 3 → label.getLast? ≠ some 0x2d) :
    PlainLabel options (label ++ [c]) := by
  refine ⟨fun d hd => ?_, fun d hd => ?_, hyphen34_next h.hyphen34 hhyphen34⟩
  · rcases List.mem_append.mp hd with hd | hd
    · exact h.lowercase d hd
    · rw [List.mem_singleton.mp hd]
      exact ⟨hc, hlower⟩
  · rcases List.mem_append.mp hd with hd | hd
    · exact h.units d hd
    · rw [List.mem_singleton.mp hd]
      exact hunit

/-- The source in two pieces, and the labels that are made of the first one. -/
structure Copied (options : UInt32) (isLabel : Bool) (srcArray part rest : WString)
    (labels : List WString) (label : WString) : Prop where
  source : srcArray = part ++ rest
  ascii : IsASCII part
  text : part.map lowercased = dotted labels ++ label
  plain : ∀ l ∈ labels, PlainLabel options l
  single : isLabel = true → labels = []

/-- The last label and the whole name, at the end of the source. -/
def finishedInfo (isLabel toASCII : Bool) (labels : List WString) (last : WString) : IDNAInfo :=
  let info := plainInfo toASCII labels .reset
  let info := if last = [] then info else plainErrors toASCII last info
  let i := (dotted labels ++ last).length
  let info := if toASCII && !isLabel && decide (254 ≤ i) && (decide (254 < i) || last != [])
    then info.addErrors UIDNA_ERROR_DOMAIN_NAME_TOO_LONG else info
  info.addErrors info.labelErrors

/-- What the fastpath leaves of a source. -/
def Fastpath.Plain (options : UInt32) (isLabel toASCII : Bool) (srcArray : WString) :
    Fastpath → Prop
  | .finished destArray info => ∃ labels last, Copied options isLabel srcArray srcArray [] labels last ∧
      destArray = dotted labels ++ last ∧ PlainLabel options last ∧
      info = finishedInfo isLabel toASCII labels last
  | .stopped destArray i labelStart info => ∃ part rest labels label,
      Copied options isLabel srcArray part rest labels label ∧ destArray = dotted labels ++ label ∧
      i = part.length ∧ labelStart = (dotted labels).length ∧
      info = (plainInfo toASCII labels .reset).addLabelErrorsIf (label.head? == some 0x2d)
        UIDNA_ERROR_LEADING_HYPHEN

section

variable {options : UInt32} {isLabel : Bool} {srcArray part rest : WString} {labels : List WString}
  {label : WString} {c : WChar}

theorem Copied.next (h : Copied options isLabel srcArray part (c :: rest) labels label)
    (hc : c ≤ 0x7f) :
    Copied options isLabel srcArray (part ++ [c]) rest labels (label ++ [lowercased c]) := by
  refine ⟨by rw [h.source]; simp, fun d hd => ?_, ?_, h.plain, h.single⟩
  · rcases List.mem_append.mp hd with hd | hd
    · exact h.ascii d hd
    · rw [List.mem_singleton.mp hd]
      exact hc
  · rw [List.map_append, h.text, List.append_assoc]
    rfl

/-- A dot ends the label. -/
theorem Copied.dot (h : Copied options isLabel srcArray part (0x2e :: rest) labels label)
    (hlabel : PlainLabel options label) (hname : isLabel = false) :
    Copied options isLabel srcArray (part ++ [0x2e]) rest (labels ++ [label]) [] := by
  have hnext := h.next (by decide)
  refine ⟨hnext.source, hnext.ascii, ?_, fun l hl => ?_, fun hl => ?_⟩
  · rw [hnext.text]
    simp [lowercased, asciiData, asciiTable]
  · rcases List.mem_append.mp hl with hl | hl
    · exact h.plain l hl
    · rw [List.mem_singleton.mp hl]
      exact hlabel
  · exact absurd (hname.symm.trans hl) (by decide)

theorem Copied.length (h : Copied options isLabel srcArray part rest labels label) :
    part.length = (dotted labels).length + label.length := by
  rw [← List.length_map lowercased, h.text, List.length_append]

/-- Only a hyphen becomes one. -/
theorem hyphen_of_lowercased (h : lowercased c = 0x2d) : c = 0x2d := by
  unfold lowercased at h
  split at h
  · rename_i hc
    exact absurd h (mapped_unit hc.1 hc.2).2.2.1
  · exact h

/-- The hyphen that the label ends with is the source's. -/
theorem Copied.last (h : Copied options isLabel srcArray part rest labels label)
    (hlast : label.getLast? = some 0x2d) : ∃ init, part = init ++ [0x2d] := by
  have hmap : (part.map lowercased).getLast? = some 0x2d := by
    rw [h.text, List.getLast?_append, hlast]
    rfl
  rcases List.eq_nil_or_concat part with rfl | ⟨init, c, rfl⟩
  · cases hmap
  · rw [List.concat_eq_append, List.map_append, List.map_singleton, List.getLast?_concat] at hmap
    exact ⟨init, by rw [List.concat_eq_append, hyphen_of_lowercased (Option.some.inj hmap)]⟩

/-- Before a unit that ends no label. -/
theorem pendingErrors_cons (hc : c ≠ 0x2e) (label rest : WString) (info : IDNAInfo) :
    pendingErrors label (c :: rest) info =
      info.addLabelErrorsIf (label.head? == some 0x2d) UIDNA_ERROR_LEADING_HYPHEN := by
  have hnot : (some c == some (0x2e : WChar)) = false := by
    rw [beq_eq_false_iff_ne]
    exact fun h => hc (Option.some.inj h)
  rw [pendingErrors, List.head?_cons, hnot, List.isEmpty_cons, Bool.or_false, Bool.and_false]
  rfl

/-- Behind a unit that is no hyphen. -/
theorem pendingErrors_snoc {d : WChar} (hd : d ≠ 0x2d) (label rest : WString) (info : IDNAInfo) :
    pendingErrors (label ++ [d]) rest info =
      info.addLabelErrorsIf (label.head? == some 0x2d) UIDNA_ERROR_LEADING_HYPHEN := by
  have hnot : (some d == some (0x2d : WChar)) = false := by
    rw [beq_eq_false_iff_ne]
    exact fun h => hd (Option.some.inj h)
  have hhead : ((label ++ [d]).head? == some 0x2d) = (label.head? == some 0x2d) := by
    cases label with
    | nil => exact hnot
    | cons e label => rfl
  rw [pendingErrors, List.getLast?_concat, hnot, Bool.false_and, hhead]
  rfl

/-- Behind a hyphen. -/
theorem pendingErrors_hyphen (label rest : WString) (info : IDNAInfo) :
    pendingErrors (label ++ [0x2d]) rest info =
      ((info.addLabelErrorsIf (label.head? == some 0x2d) UIDNA_ERROR_LEADING_HYPHEN).addLabelErrorsIf
        label.isEmpty UIDNA_ERROR_LEADING_HYPHEN).addLabelErrorsIf
          (rest.isEmpty || rest.head? == some 0x2e) UIDNA_ERROR_TRAILING_HYPHEN := by
  rw [pendingErrors, List.getLast?_concat]
  cases label with
  | nil => rfl
  | cons d label => rfl

/-- At the end of a label. -/
theorem pendingErrors_end (hrest : rest.isEmpty || rest.head? == some 0x2e) (label : WString)
    (info : IDNAInfo) (toASCII : Bool) :
    ((pendingErrors label rest info).addLabelErrorsIf label.isEmpty
      UIDNA_ERROR_EMPTY_LABEL).addLabelErrorsIf (toASCII && decide (63 < label.length))
        UIDNA_ERROR_LABEL_TOO_LONG = plainErrors toASCII label info := by
  rw [pendingErrors, hrest, Bool.and_true, plainErrors]
  cases label with
  | nil =>
    rw [List.length_nil, decide_eq_false (Nat.not_lt_zero 63), Bool.and_false]
    rfl
  | cons d label =>
    rw [if_neg (List.cons_ne_nil d label)]
    rfl

end

/-- At the end of the source. -/
theorem Copied.finished {options : UInt32} {isLabel : Bool} {srcArray part : WString}
    {labels : List WString} {label : WString}
    (h : Copied options isLabel srcArray part [] labels label) (hlabel : PlainLabel options label)
    (toASCII : Bool) :
    Fastpath.Plain options isLabel toASCII srcArray
      (fastpath options isLabel toASCII srcArray [] part.length (dotted labels).length
        (dotted labels ++ label) (pendingErrors label [] (plainInfo toASCII labels .reset))) := by
  have hpart : part = srcArray := by
    rw [h.source, List.append_nil]
  subst hpart
  have hlength := h.length
  have hbehind : part.length - (dotted labels).length = label.length := by omega
  have hlt : decide ((dotted labels).length < part.length) = (label != []) := by
    rw [hlength]
    cases label with
    | nil => exact decide_eq_false (Nat.lt_irrefl _)
    | cons d label => exact decide_eq_true (Nat.lt_add_of_pos_right (Nat.succ_pos _))
  have hinfo : (pendingErrors label [] (plainInfo toASCII labels .reset)).addLabelErrorsIf
      (toASCII && decide (63 < label.length)) UIDNA_ERROR_LABEL_TOO_LONG =
        if label = [] then plainInfo toASCII labels .reset
        else plainErrors toASCII label (plainInfo toASCII labels .reset) := by
    have hend : (([] : WString).isEmpty || ([] : WString).head? == some 0x2e) = true := rfl
    rw [← pendingErrors_end hend]
    cases label with
    | nil =>
      rw [List.length_nil, decide_eq_false (Nat.not_lt_zero 63), Bool.and_false]
      rfl
    | cons d label => rfl
  refine ⟨labels, label, h, rfl, hlabel, ?_⟩
  rw [finishedInfo, hbehind, hlt, hinfo, hlength, List.length_append]

/-- **The labels of the fastpath**, with their errors. -/
theorem fastpath_labels {options : UInt32} {isLabel : Bool} (toASCII : Bool)
    {srcArray part rest : WString} {labels : List WString} {label : WString}
    (h : Copied options isLabel srcArray part rest labels label) (hlabel : PlainLabel options label)
    (hdash : isLabel = true → ¬ [0x2d, 0x2e] <:+: srcArray) :
    Fastpath.Plain options isLabel toASCII srcArray
      (fastpath options isLabel toASCII srcArray rest part.length (dotted labels).length
        (dotted labels ++ label) (pendingErrors label rest (plainInfo toASCII labels .reset))) := by
  induction rest generalizing part labels label with
  | nil => exact h.finished hlabel toASCII
  | cons c rest ih =>
    have hlength := h.length
    rw [fastpath]
    by_cases hbeyond : 0x7f < c
    · rw [if_pos hbeyond, pendingErrors_cons (by rintro rfl; exact absurd hbeyond (by decide))]
      exact ⟨part, c :: rest, labels, label, h, rfl, rfl, rfl, rfl⟩
    rw [if_neg hbeyond]
    have hascii : c ≤ 0x7f := UInt16.not_lt.mp hbeyond
    have hnext := h.next hascii
    by_cases hmapped : 0 < asciiData c
    · -- an uppercase letter
      obtain ⟨hlower, hdot, hhyphen, hvalid⟩ := mapped_unit hascii hmapped
      have hunit : UnitOk options (c + 0x20) := unitOk_ascii hlower hdot fun _ => hvalid.ge
      have hlabel' := hlabel.next hlower hvalid.le hunit fun hd => absurd hd hhyphen
      have hc : lowercased c = c + 0x20 := if_pos ⟨hascii, hmapped⟩
      rw [hc] at hnext
      have hrest := ih hnext hlabel'
      rw [if_pos hmapped, pendingErrors_cons (by rintro rfl; exact absurd hmapped (by decide)),
        List.append_assoc]
      rw [pendingErrors_snoc hhyphen, List.length_append] at hrest
      exact hrest
    have hc : lowercased c = c := if_neg fun hd => hmapped hd.2
    rw [if_neg hmapped]
    rw [hc] at hnext
    by_cases hstd : asciiData c < 0 ∧ disallowNonLDHDot options = true
    · rw [if_pos hstd, pendingErrors_cons (by rintro rfl; exact absurd hstd.1 (by decide))]
      exact ⟨part, c :: rest, labels, label, h, rfl, rfl, rfl, rfl⟩
    rw [if_neg hstd]
    have hldh : disallowNonLDHDot options = true → 0 ≤ asciiData c :=
      fun hdisallow => Int.not_lt.mp fun hlt => hstd ⟨hlt, hdisallow⟩
    by_cases hhyphen : c = 0x2d
    · subst hhyphen
      rw [if_pos rfl, pendingErrors_cons (by decide)]
      by_cases h34 : part.length = (dotted labels).length + 3 ∧
          srcArray.getD (part.length - 1) 0 = 0x2d
      · rw [if_pos h34]
        refine ⟨part ++ [0x2d], rest, labels, label ++ [0x2d], hnext, List.append_assoc .., ?_, rfl,
          ?_⟩
        · rw [List.length_append]
          rfl
        · cases label with
          | nil =>
            rw [List.length_nil] at hlength
            omega
          | cons d label => rfl
      · rw [if_neg h34]
        have hlabel' := hlabel.next hascii (Int.not_lt.mp hmapped) (unitOk_ascii hascii (by decide) hldh)
          fun _ hthree hlast => by
            obtain ⟨init, rfl⟩ := h.last hlast
            refine h34 ⟨by omega, ?_⟩
            rw [h.source]
            simp [List.getD_eq_getElem?_getD]
        have hrest := ih hnext hlabel'
        have hfirst : (part.length == (dotted labels).length) = label.isEmpty := by
          rw [hlength]
          cases label with
          | nil => exact beq_self_eq_true _
          | cons d label => exact beq_eq_false_iff_ne.mpr (by rw [List.length_cons]; omega)
        rw [pendingErrors_hyphen, List.length_append] at hrest
        rw [hfirst, List.append_assoc]
        exact hrest
    rw [if_neg hhyphen]
    by_cases hdot : c = 0x2e
    · subst hdot
      rw [if_pos rfl]
      by_cases hname : isLabel = true
      · have hlast : label.getLast? ≠ some 0x2d := fun hlast => by
          obtain ⟨init, rfl⟩ := h.last hlast
          refine hdash hname ⟨init, rest, ?_⟩
          rw [h.source]
          simp
        rw [if_pos hname]
        refine ⟨part ++ [0x2e], rest, labels, label ++ [0x2e], hnext, List.append_assoc .., ?_, rfl, ?_⟩
        · rw [List.length_append]
          rfl
        · have hhead : ((label ++ [0x2e]).head? == some 0x2d) = (label.head? == some 0x2d) := by
            cases label <;> rfl
          rw [pendingErrors, beq_eq_false_iff_ne.mpr hlast, Bool.false_and, hhead]
          rfl
      · rw [if_neg hname]
        have hrest := ih (h.dot hlabel (Bool.eq_false_of_not_eq_true hname)) plainLabel_nil
        have hfirst : (part.length == (dotted labels).length) = label.isEmpty := by
          rw [hlength]
          cases label with
          | nil => exact beq_self_eq_true _
          | cons d label => exact beq_eq_false_iff_ne.mpr (by rw [List.length_cons]; omega)
        have hbehind : part.length - (dotted labels).length = label.length := by omega
        have hend : (dotted (labels ++ [label])).length = part.length + 1 := by
          rw [dotted_append, dotted_singleton, List.length_append, List.length_append, hlength]
          rfl
        have hinfo : pendingErrors [] rest (plainInfo toASCII (labels ++ [label]) .reset) =
            (plainErrors toASCII label (plainInfo toASCII labels .reset)).endLabel := by
          rw [plainInfo, List.foldl_append]
          rfl
        rw [hinfo, hend, List.length_append, dotted_append, dotted_singleton, List.append_nil] at hrest
        rw [hfirst, hbehind, pendingErrors_end rfl, List.append_assoc]
        exact hrest
    · rw [if_neg hdot]
      have hlabel' := hlabel.next hascii (Int.not_lt.mp hmapped) (unitOk_ascii hascii hdot hldh)
        fun hd => absurd hd hhyphen
      have hrest := ih hnext hlabel'
      rw [pendingErrors_snoc hhyphen, List.length_append] at hrest
      rw [pendingErrors_cons hdot, List.append_assoc]
      exact hrest

end SearchAndIdna.Uts46
