import SearchAndIdna.Surroundings

/-!
# A name, label by label

The loop of `processUnicode` edits `dest` in place, with indices that move as labels
grow and shrink.  What it computes is simpler: each label is processed on its own, one
after the other, and the results are put together with dots.

* `processLabel_exact`: the length that `processLabel` returns is that of the new label;
* `processLabels_grows`: errors and flags that are there when a label starts stay to the end;
* `eachLabel`: the labels one after the other;
* `processLabels_dotted`: the loop computes `eachLabel`;
* `processLabel_in_place`: a label does not notice where it stands.
-/

namespace SearchAndIdna.Uts46

open UnicodeString Utf16 Punycode IDNAInfo

/-! ## The new length -/

/-- What is left in `dest` has the returned length. -/
structure Exact (r : Nat × Output) : Prop where
  dest : r.2.dest.isBogus = false
  length : U_FAILURE r.2.errorCode = false → r.1 = r.2.dest.units.length

theorem exact_ite {p : Prop} {d : Decidable p} {r r' : Nat × Output} (hp : p → Exact r)
    (hn : ¬p → Exact r') : Exact (@ite _ p d r r') := by
  by_cases h : p
  · rw [if_pos h]
    exact hp h
  · rw [if_neg h]
    exact hn h

theorem exact_failed {n : Nat} {o : Output} (hdest : o.dest.isBogus = false)
    (hcode : U_FAILURE o.errorCode = true) : Exact (n, o) :=
  ⟨hdest, fun h => absurd (hcode.symm.trans h) (by decide)⟩

theorem exact_replaceLabel {o : Output} (hdest : o.dest.isBogus = false) {label : Option WString}
    {labelLength : Nat} (hlength : labelLength = (o.labelBuffer label).length) :
    Exact (replaceLabel 0 o.dest.units.length label labelLength o) := by
  unfold replaceLabel
  refine exact_ite (exact_failed hdest) fun _ => ?_
  cases label with
  | none => exact ⟨hdest, fun _ => hlength⟩
  | some label =>
    have htext := eq_text hdest
    generalize o.dest.units = s at htext
    refine ⟨?_, fun _ => ?_⟩
    · simp [htext, UnicodeString.replace, isBogus]
    · rw [hlength]
      simp [htext, UnicodeString.replace, isBogus, units, Output.labelBuffer]

theorem exact_markBadACELabel (options : UInt32) (toASCII : Bool) {o : Output}
    (hdest : o.dest.isBogus = false) (hlong : 4 < o.dest.units.length) :
    Exact (markBadACELabel options 0 o.dest.units.length toASCII o) := by
  obtain ⟨dest, info, errorCode⟩ := o
  obtain ⟨u, rfl⟩ : ∃ u, dest = .text u := ⟨_, eq_text hdest⟩
  simp only [units] at hlong ⊢
  have hcut : u = u.take 4 ++ u.drop 4 := (List.take_append_drop 4 u).symm
  have hfour : (u.take 4).length = 4 := List.length_take_of_le (by omega)
  have hmax : max 1 (u.length - 4) = (u.drop 4).length := by
    rw [List.length_drop]
    omega
  have hunits := markUnits_eq options (u.take 4) (u.drop 4) [] ⟨u, true, true, info⟩
    (by rw [List.append_nil]; exact hcut)
  have hlength : (u.take 4 ++ (u.drop 4).map (markedUnit options) ++ []).length = u.length := by
    rw [List.append_nil, List.length_append, List.length_map, ← List.length_append, ← hcut]
  rw [hfour] at hunits
  unfold markBadACELabel
  refine exact_ite (exact_failed rfl) fun _ => ?_
  simp only [hmax, units, Nat.zero_add, hunits, setBuffer]
  generalize u.take 4 ++ (u.drop 4).map (markedUnit options) ++ [] = v at hlength
  refine exact_ite (fun _ => ?_) fun _ => ⟨rfl, fun _ => hlength.symm⟩
  refine exact_ite (fun h => absurd h Bool.false_ne_true) fun _ => ⟨rfl, fun _ => ?_⟩
  rw [← hlength]
  simp [UnicodeString.insert, UnicodeString.replace, units]

section

variable {l : Label} {o : Output} (hl : l.Whole o)

include hl

theorem exact_replace (o' : Output) (ho' : o'.dest = o.dest) {label : Option WString}
    {labelLength : Nat} (hlength : labelLength = (o.labelBuffer label).length) :
    Exact (replaceLabel l.destLabelStart l.destLabelLength label labelLength o') := by
  have hdest : o'.dest.isBogus = false := ho' ▸ hl.dest
  have hlength' : labelLength = (o'.labelBuffer label).length := by
    rw [hlength]
    cases label with
    | none => simp [Output.labelBuffer, ho']
    | some label => rfl
  have hexact := exact_replaceLabel hdest hlength'
  rw [ho', ← hl.destLength] at hexact
  rw [hl.destStart]
  exact hexact

theorem exact_encodeLabel (env : Environment) (hcode : U_FAILURE o.errorCode = false)
    (oredChars : WChar) : Exact (encodeLabel env.withPunycode l oredChars o) := by
  unfold encodeLabel
  refine exact_ite (fun _ => ⟨hl.dest, fun _ => hl.destLength⟩) fun _ => ?_
  refine exact_ite (fun _ => ?_) fun _ => exact_replace hl (o.addLabelErrorsIf _ _) rfl hl.length
  refine exact_ite (exact_failed hl.dest) fun hsuccess => ?_
  rw [Bool.not_eq_true] at hsuccess
  obtain ⟨text, -, htext, hlength⟩ := toPunycode_fills (success_of_not_failure hcode) hsuccess
  refine exact_replace hl (Output.addLabelErrorsIf { o with errorCode := _ } _ _) rfl ?_
  rw [hlength]
  exact congrArg List.length htext.symm

theorem exact_finishLabel (env : Environment) (options : UInt32)
    (contextO : UCharPointer → Nat → IDNAInfo → IDNAInfo) (hcode : U_FAILURE o.errorCode = false)
    (hlong : l.wasPunycode = true → 4 < o.dest.units.length) (oredChars : WChar) :
    Exact (finishLabel env.withPunycode options contextO l oredChars o) := by
  unfold finishLabel
  refine exact_ite (fun _ => ?_) fun _ => exact_ite (fun hpunycode => ?_) fun _ => ?_
  · have hl' : l.Whole (contextualChecks env.withPunycode options contextO l oredChars o) :=
      ⟨hl.dest, hl.destStart, hl.destLength, hl.start, hl.length, hl.wellFormed⟩
    exact exact_ite (fun _ => exact_encodeLabel hl' env hcode oredChars)
      fun _ => exact_replace hl' _ rfl hl'.length
  · have hmark := exact_markBadACELabel options l.toASCII
      (o := o.addLabelErrors UIDNA_ERROR_INVALID_ACE_LABEL) hl.dest (hlong hpunycode)
    rw [hl.destStart, hl.destLength]
    exact hmark
  · exact exact_replace hl o rfl hl.length

theorem exact_checkLabel (env : Environment) (options : UInt32)
    (contextO : UCharPointer → Nat → IDNAInfo → IDNAInfo) (hcode : U_FAILURE o.errorCode = false)
    (hlong : l.wasPunycode = true → 0 < l.labelLength → 4 < o.dest.units.length) :
    Exact (checkLabel env.withPunycode options contextO l o) := by
  rw [checkLabel_eq]
  refine exact_ite (fun _ => exact_replace hl (o.addLabelErrors _) rfl hl.length) fun hne => ?_
  obtain ⟨hwhole, -, hcode', hpunycode⟩ := markedLabel_whole env.withPunycode options hl hne
  refine exact_finishLabel hwhole env options contextO (hcode' ▸ hcode) (fun hwas => ?_) _
  obtain ⟨hwas, hdest⟩ := hpunycode hwas
  rw [hdest]
  exact hlong hwas (Nat.pos_of_ne_zero hne)

end

/-- What `processLabel` leaves has the length that it returns. -/
theorem processLabel_exact (env : Environment) (options : UInt32)
    (contextO : UCharPointer → Nat → IDNAInfo → IDNAInfo) (hempty : EmptyNormalized env)
    (toASCII : Bool) {o : Output} (hdest : o.dest.isBogus = false)
    (hwell : WellFormed o.dest.units) :
    Exact (processLabel env.withPunycode options contextO 0 o.dest.units.length toASCII o) := by
  have htake : UCharPointer.take ⟨o.dest.units, 0⟩ o.dest.units.length = o.dest.units := by
    rw [UCharPointer.take, List.drop_zero, List.take_length]
  have hlong := fromPunycode_long env o.dest.units
  unfold processLabel
  rw [htake]
  refine exact_ite (exact_failed hdest) fun hcode => ?_
  rw [Bool.not_eq_true] at hcode
  refine exact_ite (fun _ => ?_) fun _ => ?_
  · refine exact_ite (fun hfailed => exact_markBadACELabel options toASCII hdest
      (hlong (Or.inr hfailed))) fun hdecoded => ?_
    rw [Bool.not_eq_true] at hdecoded
    refine exact_ite (fun hfailed => exact_failed hdest hfailed) fun hnormal => ?_
    rw [Bool.not_eq_true] at hnormal
    have hfills := fromPunycode_fills hdecoded
    have hnil := hempty o.errorCode hcode
    generalize (fromPunycode env.withPunycode (o.dest.units.drop 4)).1 = text at hfills hlong hnormal
    refine exact_ite (fun _ => ?_) fun hnot => ?_
    · have hl : Label.Whole ⟨some text, 0, text.length, 0, o.dest.units.length, toASCII⟩
          { o with errorCode := (env.isNormalized text o.errorCode).2 } :=
        ⟨hdest, rfl, rfl, rfl, rfl, wellFormed_of_fills hfills⟩
      exact exact_checkLabel hl env options contextO hnormal fun _ hpos =>
        hlong (Or.inl (List.length_pos_iff.mp hpos))
    · refine exact_markBadACELabel options toASCII
        (o := Output.addLabelErrors { o with errorCode := (env.isNormalized text o.errorCode).2 } _)
        hdest (hlong (Or.inl ?_))
      rintro rfl
      exact hnot (congrArg Prod.fst hnil)
  · have hl : Label.Whole ⟨none, 0, o.dest.units.length, 0, o.dest.units.length, toASCII⟩ o :=
      ⟨hdest, rfl, rfl, rfl, rfl, hwell⟩
    exact exact_checkLabel hl env options contextO hcode fun h => absurd h Bool.false_ne_true

/-! ## What was reported stays -/

theorem grows_transDiff (o : Output) : Grows o.info o.transDiff.info :=
  ⟨fun _ => id, fun _ => id, fun h => absurd h Bool.noConfusion, id, id⟩

/-- What a turn leaves. -/
def Turn.out : Turn → Output
  | .again s => s.out
  | .returned o => o

section

variable {env : Environment} {options : UInt32} {isLabel toASCII : Bool}
  {contextO : UCharPointer → Nat → IDNAInfo → IDNAInfo}
  (hcontext : ∀ label labelLength info, Grows info (contextO label labelLength info))

include hcontext

theorem scanUnit_grows (s : Scan) :
    Grows s.out.info (scanUnit env options contextO isLabel toASCII s).out.info := by
  have hprocess := processLabel_grows options env hcontext s.labelStart
    (s.labelLimit - s.labelStart) toASCII s.out
  have htrans := grows_transDiff s.out
  unfold scanUnit
  simp only
  split
  · split <;> exact hprocess.trans (grows_endLabel _)
  · split
    · split
      · split
        · show Grows _ (mapDevChars env s.labelStart s.labelLimit s.out.transDiff).2.info
          rw [mapDevChars_info]
          exact htrans
        · show Grows _ (mapDevChars env s.labelStart s.labelLimit s.out.transDiff).2.info
          rw [mapDevChars_info]
          exact htrans
      · exact htrans
    · exact Grows.refl _

theorem lastLabel_grows (s : Scan) :
    Grows s.out.info (lastLabel env options contextO toASCII s).info := by
  unfold lastLabel
  split
  · exact (processLabel_grows options env hcontext s.labelStart (s.labelLimit - s.labelStart)
      toASCII s.out).trans (grows_addErrors _ _)
  · exact Grows.refl _

/-- An error of the name stays. -/
theorem processLabels_grows (s : Scan) :
    Grows s.out.info (processLabels env options contextO isLabel toASCII s).info := by
  induction s using processLabels.induct env options contextO isLabel toASCII with
  | case1 s hlt s' hs ih =>
    have hturn : Grows s.out.info (scanUnit env options contextO isLabel toASCII s).out.info :=
      scanUnit_grows hcontext s
    rw [hs] at hturn
    rw [processLabels_again _ _ _ _ _ hlt hs]
    exact hturn.trans ih
  | case2 s hlt o hs =>
    have hturn : Grows s.out.info (scanUnit env options contextO isLabel toASCII s).out.info :=
      scanUnit_grows hcontext s
    rw [hs] at hturn
    rw [processLabels_returned _ _ _ _ _ hlt hs]
    exact hturn
  | case3 s hend =>
    rw [processLabels_end _ _ _ _ _ hend]
    exact lastLabel_grows hcontext s

end

theorem nameToASCII_grows (env : Environment) (options : UInt32)
    (contextO : UCharPointer → Nat → IDNAInfo → IDNAInfo) (name : UnicodeString) (same : Bool) (o : Output) :
    Grows (process env options contextO false true name same o).info
      (nameToASCII env options contextO name same o).info := by
  unfold nameToASCII
  dsimp only
  split
  · exact grows_addErrors _ _
  · exact Grows.refl _

theorem bidiName_grows (labelStart : Nat) (o : Output) : Grows o.info (bidiName labelStart o).info := by
  unfold bidiName
  split
  · exact grows_addErrors _ _
  · exact Grows.refl _

/-! ## The labels one after the other -/

/-- Labels with a dot behind each. -/
def dotted (labels : List WString) : WString := labels.flatMap fun label => label ++ [0x2e]

@[simp] theorem dotted_append (labels labels' : List WString) :
    dotted (labels ++ labels') = dotted labels ++ dotted labels' :=
  List.flatMap_append

@[simp] theorem dotted_singleton (label : WString) : dotted [label] = label ++ [0x2e] :=
  List.flatMap_singleton ..

theorem dotted_nil : dotted [] = [] := rfl

/-- Behind the last dot. -/
theorem dotted_ne_nil {labels : List WString} (h : labels ≠ []) :
    ∃ a, dotted labels = a ++ [0x2e] := by
  obtain ⟨labels, label, rfl⟩ := (List.eq_nil_or_concat labels).resolve_left h
  exact ⟨dotted labels ++ label, by simp⟩

/-- The scan reports the deviation characters of a label. -/
def scanned (label : WString) (o : Output) : Output :=
  if label.any isDeviation then o.transDiff else o

theorem scanned_cons (c : WChar) (label : WString) (o : Output) :
    scanned (c :: label) o = scanned label (if isDeviation c then o.transDiff else o) := by
  unfold scanned
  rw [List.any_cons]
  cases isDeviation c <;> cases label.any isDeviation <;> rfl

theorem scanned_dest (label : WString) (o : Output) : (scanned label o).dest = o.dest := by
  unfold scanned
  split <;> rfl

theorem scanned_errors (label : WString) (o : Output) :
    (scanned label o).info.errors = o.info.errors := by
  unfold scanned
  split <;> rfl

section

variable (env : Environment) (options : UInt32)
  (contextO : UCharPointer → Nat → IDNAInfo → IDNAInfo) (toASCII : Bool)

/-- `processLabel` on a label of its own. -/
def labelAlone (label : WString) (o : Output) : Nat × Output :=
  processLabel env options contextO 0 label.length toASCII { o with dest := .text label }

/-- The labels of a name, one after the other.  An empty last label is permitted, but not
when it is the only one. -/
def eachLabel : (only : Bool) → (labels : List WString) → (last : WString) → Output → Output
  | only, [], last, o =>
    let o := scanned last { o with dest := .text last }
    if only = true ∨ last ≠ [] then
      let r := (labelAlone env options contextO toASCII last o).2
      { r with info := r.info.addErrors r.info.labelErrors }
    else o
  | _, label :: labels, last, o =>
    let r := (labelAlone env options contextO toASCII label (scanned label o)).2.endLabel
    if U_FAILURE r.errorCode then r.within [] (0x2e :: dotted labels ++ last)
    else (eachLabel false labels last r).within (r.dest.units ++ [0x2e]) []

section

variable {isLabel : Bool}

/-- The scan of units that end no label. -/
theorem processLabels_scan (front part behind : WString) {s : Scan}
    (hunits : s.out.dest.units = front ++ part ++ behind) (hlimit : s.labelLimit = front.length)
    (hlength : s.destLength = s.out.dest.units.length) (hdots : isLabel = false → 0x2e ∉ part)
    (hdeviation : s.doMapDevChars = true → ∀ c ∈ part, isDeviation c = false) :
    processLabels env options contextO isLabel toASCII s =
      processLabels env options contextO isLabel toASCII
        { s with labelLimit := front.length + part.length, out := scanned part s.out } := by
  induction part generalizing front s with
  | nil =>
    rw [← hlimit]
    rfl
  | cons c part ih =>
    have hlt : s.labelLimit < s.destLength := by
      rw [hlength, hunits, hlimit]
      simp only [List.length_append, List.length_cons]
      omega
    have hc : s.out.dest.units.getD s.labelLimit 0 = c := by
      rw [hunits, hlimit]
      simp [List.getD_eq_getElem?_getD]
    have hdot : ¬ (c = 0x2e ∧ isLabel = false) := fun h =>
      hdots h.2 (h.1 ▸ List.mem_cons_self)
    have hturn : scanUnit env options contextO isLabel toASCII s =
        .again { s with labelLimit := s.labelLimit + 1
                        out := if isDeviation c then s.out.transDiff else s.out } := by
      unfold scanUnit
      simp only [hc, if_neg hdot]
      cases hdev : isDeviation c with
      | false => rfl
      | true =>
        have hdo : s.doMapDevChars = false := by
          cases hdo : s.doMapDevChars with
          | false => rfl
          | true => exact absurd (hdev.symm.trans (hdeviation hdo c List.mem_cons_self)) (by decide)
        rw [if_pos rfl, hdo]
        rfl
    have hsame : (if isDeviation c then s.out.transDiff else s.out).dest = s.out.dest := by
      split <;> rfl
    rw [processLabels_again _ _ _ _ _ hlt hturn, scanned_cons]
    generalize (if isDeviation c then s.out.transDiff else s.out) = o at hsame
    have hrest := ih (front ++ [c]) (s := { s with labelLimit := s.labelLimit + 1, out := o })
      (show o.dest.units = (front ++ [c]) ++ part ++ behind by
        rw [hsame, hunits]
        simp)
      (by simp [hlimit]) (show s.destLength = o.dest.units.length by rw [hsame, hlength])
      (fun h hmem => hdots h (List.mem_cons_of_mem c hmem))
      (fun h d hd => hdeviation h d (List.mem_cons_of_mem c hd))
    rw [hrest]
    simp [Nat.add_comm, Nat.add_left_comm]

/-- The scan at a dot. -/
theorem scanUnit_dot (hname : isLabel = false) {s : Scan} {r : Nat × Output}
    (hc : s.out.dest.units.getD s.labelLimit 0 = 0x2e)
    (hr : processLabel env options contextO s.labelStart (s.labelLimit - s.labelStart) toASCII
      s.out = r) :
    scanUnit env options contextO isLabel toASCII s =
      if U_FAILURE r.2.errorCode then .returned r.2.endLabel
      else .again { s with destLength := s.destLength + r.1 - (s.labelLimit - s.labelStart)
                           labelStart := s.labelStart + r.1 + 1
                           labelLimit := s.labelStart + r.1 + 1, out := r.2.endLabel } := by
  unfold scanUnit
  simp only [hc, hname, hr, and_self, if_true]
  rfl

end

end

/-! ## The loop of `processUnicode` -/

/-- Well-formed labels with nothing in them that makes the scan stop. -/
structure Scannable (isLabel doMapDevChars : Bool) (labels : List WString) (last : WString) :
    Prop where
  wellFormed : ∀ label ∈ labels ++ [last], WellFormed label
  dots : isLabel = false → ∀ label ∈ labels ++ [last], 0x2e ∉ label
  single : isLabel = true → labels = []
  deviation : doMapDevChars = true → ∀ label ∈ labels ++ [last], ∀ c ∈ label, isDeviation c = false

section

variable (env : Environment) (options : UInt32)
  {contextO : UCharPointer → Nat → IDNAInfo → IDNAInfo} (hcontext : LocalCheck contextO)
  (hempty : EmptyNormalized env) (toASCII : Bool)

include hcontext hempty

/-- A label in its place. -/
theorem processLabel_labelAlone (front behind : WString) {label : WString}
    (hwell : WellFormed label) (o : Output) :
    processLabel env.withPunycode options contextO front.length label.length toASCII
        { o with dest := .text (front ++ label ++ behind) } =
      withinResult front behind (labelAlone env.withPunycode options contextO toASCII label o) :=
  (within_processLabel env options hcontext front behind hempty toASCII
    (o := { o with dest := .text label }) rfl hwell).symm

/-- **The loop of `processUnicode`** computes `eachLabel`, behind what was done before. -/
theorem processLabels_dotted {isLabel doMapDevChars : Bool} {labels : List WString}
    {last : WString} (h : Scannable isLabel doMapDevChars labels last) (front : WString)
    (o : Output) :
    processLabels env.withPunycode options contextO isLabel toASCII
        ⟨doMapDevChars, (front ++ (dotted labels ++ last)).length, front.length, front.length,
          { o with dest := .text (front ++ (dotted labels ++ last)) }⟩ =
      (eachLabel env.withPunycode options contextO toASCII front.isEmpty labels last o).within
        front [] := by
  induction labels generalizing front o with
  | nil =>
    have hlast : last ∈ [] ++ [last] := List.mem_append_right _ List.mem_cons_self
    have hscan := processLabels_scan env.withPunycode options contextO toASCII front last []
      (s := ⟨doMapDevChars, (front ++ (dotted [] ++ last)).length, front.length, front.length,
        { o with dest := .text (front ++ (dotted [] ++ last)) }⟩)
      (by simp [units, dotted]) rfl rfl
      (fun hname => h.dots hname last hlast) (fun hmap => h.deviation hmap last hlast)
    have hplace := processLabel_labelAlone env options hcontext hempty toASCII front []
      (h.wellFormed last hlast) (scanned last o)
    have hout : scanned last { o with dest := .text (front ++ (dotted [] ++ last)) } =
        { scanned last o with dest := .text (front ++ last ++ []) } := by
      unfold scanned
      split <;> simp [Output.transDiff, dotted]
    have hout' : scanned last { o with dest := .text last } =
        { scanned last o with dest := .text last } := by
      unfold scanned
      split <;> rfl
    have honly : (0 = front.length ∨ front.length < front.length + last.length) ↔
        (front.isEmpty = true ∨ last ≠ []) := by
      rw [List.isEmpty_iff_length_eq_zero, ← List.length_pos_iff]
      omega
    rw [hscan, processLabels_end _ _ _ _ _ (by simp [dotted]), lastLabel, eachLabel, hout, hout']
    simp only [Nat.add_sub_cancel_left, hplace, honly]
    symm
    exact map_ite (Output.within front []) (fun _ => rfl) (fun _ => rfl)
  | cons label labels ih =>
    have hname : isLabel = false := by
      cases hl : isLabel with
      | false => rfl
      | true => exact absurd (h.single hl) (List.cons_ne_nil _ _)
    have hrest : Scannable isLabel doMapDevChars labels last :=
      ⟨fun l hl => h.wellFormed l (List.mem_cons_of_mem _ hl),
        fun hname l hl => h.dots hname l (List.mem_cons_of_mem _ hl),
        fun hl => absurd (hname.symm.trans hl) (by decide),
        fun hmap l hl => h.deviation hmap l (List.mem_cons_of_mem _ hl)⟩
    have hdotted : dotted (label :: labels) ++ last =
        label ++ 0x2e :: (dotted labels ++ last) := by
      simp [dotted]
    rw [hdotted]
    generalize hbehind : dotted labels ++ last = behind at ih
    have hscan := processLabels_scan env.withPunycode options contextO toASCII front label
      (0x2e :: behind)
      (s := ⟨doMapDevChars, (front ++ (label ++ 0x2e :: behind)).length, front.length, front.length,
        { o with dest := .text (front ++ (label ++ 0x2e :: behind)) }⟩)
      (by simp [units]) rfl rfl (fun hname => h.dots hname label List.mem_cons_self)
      (fun hmap => h.deviation hmap label List.mem_cons_self)
    have hplace := processLabel_labelAlone env options hcontext hempty toASCII front (0x2e :: behind)
      (h.wellFormed label List.mem_cons_self) (scanned label o)
    have hexact : Exact (labelAlone env.withPunycode options contextO toASCII label
        (scanned label o)) :=
      processLabel_exact env options contextO hempty toASCII
        (o := { scanned label o with dest := .text label }) rfl
        (h.wellFormed label List.mem_cons_self)
    have hout : scanned label { o with dest := .text (front ++ (label ++ 0x2e :: behind)) } =
        { scanned label o with dest := .text (front ++ label ++ 0x2e :: behind) } := by
      unfold scanned
      split <;> simp [Output.transDiff]
    rw [hscan, hout, eachLabel]
    generalize labelAlone env.withPunycode options contextO toASCII label (scanned label o) = r
      at hplace hexact
    have hlt : front.length + label.length < (front ++ (label ++ 0x2e :: behind)).length := by
      simp only [List.length_append, List.length_cons]
      omega
    have hturn := scanUnit_dot env.withPunycode options contextO toASCII hname
      (s := ⟨doMapDevChars, (front ++ (label ++ 0x2e :: behind)).length, front.length,
        front.length + label.length,
        { scanned label o with dest := .text (front ++ label ++ 0x2e :: behind) }⟩)
      (by simp [units, List.getD_eq_getElem?_getD])
      (by simp only [Nat.add_sub_cancel_left]; exact hplace)
    cases hcode : U_FAILURE r.2.errorCode with
    | true =>
      have hfailed : U_FAILURE (withinResult front (0x2e :: behind) r).2.errorCode = true := hcode
      have hfailed' : U_FAILURE r.2.endLabel.errorCode = true := hcode
      rw [if_pos hfailed] at hturn
      rw [processLabels_returned _ _ _ _ _ hlt hturn]
      rw [if_pos hfailed', ← hbehind]
      simp [withinResult, Output.within, Output.endLabel, units]
    | false =>
      have hsuccess : ¬ U_FAILURE (withinResult front (0x2e :: behind) r).2.errorCode = true := by
        rw [Bool.not_eq_true]
        exact hcode
      have hsuccess' : ¬ U_FAILURE r.2.endLabel.errorCode = true := hsuccess
      have hlength : r.1 = r.2.dest.units.length := hexact.length hcode
      rw [if_neg hsuccess] at hturn
      rw [processLabels_again _ _ _ _ _ hlt hturn, if_neg hsuccess']
      have hnext := ih hrest (front ++ r.2.dest.units ++ [0x2e]) r.2.endLabel
      have hnonempty : (front ++ r.2.dest.units ++ [0x2e]).isEmpty = false := by simp
      rw [hnonempty] at hnext
      have hstate : (⟨doMapDevChars, (front ++ (label ++ 0x2e :: behind)).length +
            (withinResult front (0x2e :: behind) r).1 - (front.length + label.length - front.length),
            front.length + (withinResult front (0x2e :: behind) r).1 + 1,
            front.length + (withinResult front (0x2e :: behind) r).1 + 1,
            (withinResult front (0x2e :: behind) r).2.endLabel⟩ : Scan) =
          ⟨doMapDevChars, (front ++ r.2.dest.units ++ [0x2e] ++ behind).length,
            (front ++ r.2.dest.units ++ [0x2e]).length, (front ++ r.2.dest.units ++ [0x2e]).length,
            { r.2.endLabel with dest := .text (front ++ r.2.dest.units ++ [0x2e] ++ behind) }⟩ := by
        simp [withinResult, Output.within, Output.endLabel, hlength]
        omega
      rw [hstate, hnext]
      simp [Output.within, Output.endLabel, units]

end

/-! ## The copies -/

/-- The check of CONTEXTO of one of the copies. -/
def IsCopy (env : Environment) (contextO : UCharPointer → Nat → IDNAInfo → IDNAInfo) : Prop :=
  contextO = (fun _ _ info => info) ∨ contextO = checkLabelContextO env.toCharacterProperties

theorem IsCopy.localCheck {env : Environment} {contextO : UCharPointer → Nat → IDNAInfo → IDNAInfo}
    (h : IsCopy env contextO) : LocalCheck contextO := by
  rcases h with rfl | rfl
  · exact fun _ _ _ _ => rfl
  · exact fun hp front behind info => checkLabelContextO_within _ hp front behind info

/-- **A label in its place.**  In both copies, what `processLabel` makes of a well-formed label,
reports and returns depends on the label alone: whatever stands in front of it and behind it is
neither read nor changed, and the returned length is that of the new label. -/
theorem processLabel_in_place {env : Environment} {options : UInt32}
    {contextO : UCharPointer → Nat → IDNAInfo → IDNAInfo} (hcopy : IsCopy env contextO)
    (hempty : EmptyNormalized env) (toASCII : Bool) {label : WString} (hwell : WellFormed label)
    (info : IDNAInfo) (errorCode : UErrorCode) :
    ∃ (newLength : Nat) (label' : WString) (info' : IDNAInfo) (errorCode' : UErrorCode),
      (U_FAILURE errorCode' = false → newLength = label'.length) ∧
        ∀ front behind : WString,
          processLabel env.withPunycode options contextO front.length label.length toASCII
              ⟨.text (front ++ label ++ behind), info, errorCode⟩ =
            (newLength, ⟨.text (front ++ label' ++ behind), info', errorCode'⟩) := by
  have hexact := processLabel_exact env options contextO hempty toASCII
    (o := ⟨.text label, info, errorCode⟩) rfl hwell
  have hplace := fun front behind => processLabel_labelAlone env options hcopy.localCheck hempty toASCII
    front behind hwell ⟨.text label, info, errorCode⟩
  have halone : processLabel env.withPunycode options contextO 0 label.length toASCII
      ⟨.text label, info, errorCode⟩ = labelAlone env.withPunycode options contextO toASCII label
        ⟨.text label, info, errorCode⟩ := rfl
  simp only [units, halone] at hexact
  generalize labelAlone env.withPunycode options contextO toASCII label
    ⟨.text label, info, errorCode⟩ = r at hexact hplace
  exact ⟨r.1, r.2.dest.units, r.2.info, r.2.errorCode, hexact.length, hplace⟩

/-- "bü" anywhere in a name. -/
theorem bu_in_place :
    ∃ (newLength : Nat) (label' : WString) (info' : IDNAInfo) (errorCode' : UErrorCode),
      (U_FAILURE errorCode' = false → newLength = label'.length) ∧
        ∀ front behind : WString,
          processLabel middleDot.withPunycode 0 (fun _ _ info => info) front.length
              (List.length [0x62, 0xfc]) true
              ⟨.text (front ++ [0x62, 0xfc] ++ behind), .reset, U_ZERO_ERROR⟩ =
            (newLength, ⟨.text (front ++ label' ++ behind), info', errorCode'⟩) :=
  processLabel_in_place (Or.inl rfl) (fun _ _ => rfl) true (by rfl) _ _

end SearchAndIdna.Uts46
