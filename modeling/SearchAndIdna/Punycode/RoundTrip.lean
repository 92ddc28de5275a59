import SearchAndIdna.Punycode.Decoder

/-!
# The Punycode functions together

Both functions fill a buffer of a capacity that the caller chose.  What they write
does not depend on it, so a call with no room at all tells how much is needed.

* `u_strToPunycode_fills`, `u_strFromPunycode_fills`: for every source and every
  capacity;
* `u_strFromPunycode_u_strToPunycode`: what is encoded is decoded to where it came from;
* `u_strToPunycode_u_strFromPunycode`: what is decoded was in the form that the encoder
  writes, up to how its digits are spelled.
-/

namespace SearchAndIdna.Punycode

open Uts46 Bootstring

/-! ## Filling a buffer -/

/-- What a function does with a buffer of any capacity: there is a text that it writes if
it fits, or an error that it returns in any case. -/
def Fills (f : (destCapacity : Nat) → UErrorCode → PunycodeResult) :
    Except UErrorCode WString → Prop
  | .ok text => ∀ destCapacity errorCode, U_SUCCESS errorCode = true →
      let r := f destCapacity errorCode
      r.length = text.length ∧
        if text.length ≤ destCapacity then
          U_SUCCESS r.errorCode = true ∧ r.written.take r.length = text
        else r.errorCode = U_BUFFER_OVERFLOW_ERROR
  | .error code => U_FAILURE code = true ∧ code ≠ U_BUFFER_OVERFLOW_ERROR ∧
      ∀ destCapacity errorCode, U_SUCCESS errorCode = true →
        f destCapacity errorCode = ⟨[], 0, code⟩

theorem not_failure {code : UErrorCode} (h : U_SUCCESS code = true) : U_FAILURE code = false := by
  rw [U_SUCCESS, decide_eq_true_eq] at h
  rw [U_FAILURE, decide_eq_false_iff_not]
  exact Int.not_lt.mpr h

theorem success_of_not_failure {code : UErrorCode} (h : U_FAILURE code = false) :
    U_SUCCESS code = true := by
  rw [U_FAILURE, decide_eq_false_iff_not] at h
  rw [U_SUCCESS, decide_eq_true_eq]
  exact Int.not_lt.mp h

theorem not_success {code : UErrorCode} (h : U_FAILURE code = true) : U_SUCCESS code = false := by
  rw [U_FAILURE, decide_eq_true_eq] at h
  rw [U_SUCCESS, decide_eq_false_iff_not]
  exact Int.not_le.mpr h

/-- A text put into the buffer as far as it fits, and terminated. -/
theorem fills_terminate {f : Nat → UErrorCode → PunycodeResult} {text : WString}
    (h : ∀ destCapacity errorCode, U_SUCCESS errorCode = true →
      ∃ dest, f destCapacity errorCode =
          u_terminateUChars dest destCapacity text.length errorCode ∧
        (text.length ≤ destCapacity → dest = text)) :
    Fills f (.ok text) := by
  intro destCapacity errorCode hcode
  obtain ⟨dest, hf, hdest⟩ := h destCapacity errorCode hcode
  have herror : if text.length ≤ destCapacity then
      U_SUCCESS (u_terminateUChars dest destCapacity text.length errorCode).errorCode = true
      else (u_terminateUChars dest destCapacity text.length errorCode).errorCode =
        U_BUFFER_OVERFLOW_ERROR := u_terminateUChars_errorCode hcode dest
  simp only [hf]
  refine ⟨u_terminateUChars_length _ _ _ _, ?_⟩
  by_cases hfits : text.length ≤ destCapacity
  · rw [if_pos hfits] at herror ⊢
    obtain rfl := hdest hfits
    refine ⟨herror, ?_⟩
    rw [u_terminateUChars_length, u_terminateUChars_written (Nat.le_refl _), List.take_length]
  · rw [if_neg hfits] at herror ⊢
    exact herror

theorem Fills.unique {f : Nat → UErrorCode → PunycodeResult} {r r' : Except UErrorCode WString}
    (h : Fills f r) (h' : Fills f r') : r = r' := by
  have hzero : U_SUCCESS U_ZERO_ERROR = true := rfl
  cases r with
  | ok text =>
    cases r' with
    | ok text' =>
      have hlength : text.length = text'.length :=
        (h 0 _ hzero).1.symm.trans (h' 0 _ hzero).1
      have hl := (h text.length _ hzero).2
      have hr := (h' text.length _ hzero).2
      rw [if_pos (Nat.le_refl _)] at hl
      rw [if_pos (Nat.le_of_eq hlength.symm)] at hr
      rw [← hl.2, hr.2]
    | error code =>
      have hl := (h text.length _ hzero).2
      rw [if_pos (Nat.le_refl _), h'.2.2 _ _ hzero, not_success h'.1] at hl
      exact absurd hl.1 Bool.false_ne_true
  | error code =>
    cases r' with
    | ok text =>
      have hr := (h' text.length _ hzero).2
      rw [if_pos (Nat.le_refl _), h.2.2 _ _ hzero, not_success h.1] at hr
      exact absurd hr.1 Bool.false_ne_true
    | error code' =>
      have heq := (h.2.2 0 _ hzero).symm.trans (h'.2.2 0 _ hzero)
      rw [(PunycodeResult.mk.inj heq).2.2]

/-- A success is one with the whole text. -/
theorem Fills.success {f : Nat → UErrorCode → PunycodeResult} {r : Except UErrorCode WString}
    (h : Fills f r) {destCapacity : Nat} {errorCode : UErrorCode}
    (hcode : U_SUCCESS errorCode = true)
    (hsuccess : U_SUCCESS (f destCapacity errorCode).errorCode = true) :
    r = .ok ((f destCapacity errorCode).written.take (f destCapacity errorCode).length) := by
  cases r with
  | ok text =>
    have hr := (h destCapacity errorCode hcode).2
    split at hr
    · rw [hr.2]
    · rw [hr] at hsuccess
      exact absurd hsuccess (by decide)
  | error code =>
    rw [h.2.2 _ _ hcode, not_success h.1] at hsuccess
    exact absurd hsuccess Bool.false_ne_true

/-! ## The encoder -/

/-- **What the encoder writes**, with any capacity: the Punycode of a well-formed text of at
most 200 code points.  Of any other text it says what is wrong with it. -/
theorem u_strToPunycode_fills (src : WString) :
    ∃ r, Fills (u_strToPunycode src) r ∧
      (∀ text, r = .ok text ↔
        ∃ chars, Utf16.decode src = some chars ∧ chars.length ≤ MAX_CP_COUNT ∧
          encoding (chars.map Char.toNat) = text) ∧
      ∀ code, r = .error code → code = U_INDEX_OUTOFBOUNDS_ERROR ∨
        code = U_INVALID_CHAR_FOUND ∧ Utf16.decode src = none := by
  by_cases h : ∃ chars, Utf16.decode src = some chars ∧ chars.length ≤ MAX_CP_COUNT
  · obtain ⟨chars, hdecode, hlen⟩ := h
    refine ⟨.ok (encoding (chars.map Char.toNat)), ?_, fun text => ?_, fun code heq => nomatch heq⟩
    · refine fills_terminate fun destCapacity errorCode hcode => ?_
      exact ⟨_, u_strToPunycode_eq hdecode hlen destCapacity (not_failure hcode),
        fun hfits => List.take_of_length_le hfits⟩
    · constructor
      · intro heq
        exact ⟨chars, hdecode, hlen, Except.ok.inj heq⟩
      · rintro ⟨chars', hdecode', -, rfl⟩
        rw [Option.some.inj (hdecode.symm.trans hdecode')]
  · have hlong : ∀ chars, Utf16.decode src = some chars → MAX_CP_COUNT < chars.length :=
      fun chars hdecode => Nat.lt_of_not_le fun hle => h ⟨chars, hdecode, hle⟩
    obtain ⟨code, hor, hreturn⟩ := u_strToPunycode_fails hlong
    refine ⟨.error code, ⟨?_, ?_, fun destCapacity errorCode hcode =>
      hreturn destCapacity errorCode (not_failure hcode)⟩, fun text => ?_, fun code' heq => ?_⟩
    · rcases hor with rfl | ⟨rfl, -⟩ <;> decide
    · rcases hor with rfl | ⟨rfl, -⟩ <;> decide
    · constructor
      · exact fun heq => nomatch heq
      · rintro ⟨chars, hdecode, hle, -⟩
        exact absurd ⟨chars, hdecode, hle⟩ h
    · rw [← Except.error.inj heq]
      exact hor

/-! ## The decoder -/

/-- The units before the last delimiter. -/
def basicsOf (src : WString) : WString := src.take (lastDelimiter src src.length)

/-- The units behind it, or all if there is none. -/
def digitsOf (src : WString) : WString :=
  src.drop (if 0 < lastDelimiter src src.length then lastDelimiter src src.length + 1 else 0)

/-- `src` with its digits as the encoder writes them. -/
def canonical (src : WString) : WString :=
  basicPart (basicsOf src) ++ (digitsOf src).map lowercaseDigit

theorem lastDelimiter_eq {src : WString} {i j : Nat} (hlt : i < j)
    (hd : src.getD i 0 = DELIMITER) (hno : ∀ k, i < k → k < j → src.getD k 0 ≠ DELIMITER) :
    lastDelimiter src j = i := by
  induction j with
  | zero => omega
  | succ j ih =>
    rw [lastDelimiter]
    rcases Nat.lt_or_eq_of_le (Nat.le_of_lt_succ hlt) with hij | rfl
    · rw [if_neg (hno j hij (Nat.lt_succ_self j))]
      exact ih hij fun k hik hkj => hno k hik (Nat.lt_succ_of_lt hkj)
    · rw [if_pos hd]

theorem lastDelimiter_none {src : WString} {j : Nat}
    (hno : ∀ k, k < j → src.getD k 0 ≠ DELIMITER) : lastDelimiter src j = 0 := by
  induction j with
  | zero => rfl
  | succ j ih =>
    rw [lastDelimiter, if_neg (hno j (Nat.lt_succ_self j))]
    exact ih fun k hk => hno k (Nat.lt_succ_of_lt hk)

theorem lastDelimiter_spec (src : WString) (j : Nat) :
    lastDelimiter src j = 0 ∨
      lastDelimiter src j < j ∧ src.getD (lastDelimiter src j) 0 = DELIMITER := by
  induction j with
  | zero => exact Or.inl rfl
  | succ j ih =>
    rw [lastDelimiter]
    split
    · rename_i hd
      exact Or.inr ⟨Nat.lt_succ_self j, hd⟩
    · exact ih.imp_right fun h => ⟨Nat.lt_succ_of_lt h.1, h.2⟩

/-- No unit of a source gets lost. -/
theorem basicPart_append_digitsOf (src : WString) :
    basicPart (basicsOf src) ++ digitsOf src = src := by
  rw [basicPart, basicsOf, digitsOf]
  rcases lastDelimiter_spec src src.length with hzero | ⟨hlt, hd⟩
  · rw [hzero]
    simp
  · generalize lastDelimiter src src.length = j at *
    by_cases hj : j = 0
    · subst hj
      simp
    · have hne : src.take j ≠ [] := by
        rw [← List.length_pos_iff, List.length_take]
        omega
      rw [if_neg hne, if_pos (Nat.pos_of_ne_zero hj), List.append_assoc, List.singleton_append]
      have hget : src[j] = DELIMITER := by
        rw [← hd, List.getD_eq_getElem src 0 hlt]
      rw [← hget, ← List.drop_eq_getElem_cons hlt, List.take_append_drop]

/-- What the encoder writes is cut at its delimiter. -/
theorem split_basicPart (basics : WString) {digits : WString} (hno : ∀ c ∈ digits, c ≠ DELIMITER) :
    basicsOf (basicPart basics ++ digits) = basics ∧
      digitsOf (basicPart basics ++ digits) = digits := by
  rw [basicsOf, digitsOf, basicPart]
  by_cases hnil : basics = []
  · subst hnil
    have hzero : lastDelimiter digits digits.length = 0 := by
      refine lastDelimiter_none fun k hk => ?_
      rw [List.getD_eq_getElem digits 0 hk]
      exact hno _ (List.getElem_mem hk)
    simp [hzero]
  · have hlast : lastDelimiter (basics ++ [DELIMITER] ++ digits)
        (basics ++ [DELIMITER] ++ digits).length = basics.length := by
      refine lastDelimiter_eq ?_ ?_ fun k hlt hk => ?_
      · simp only [List.length_append, List.length_singleton]
        omega
      · simp [List.getD_eq_getElem?_getD]
      · have hge : (basics ++ [DELIMITER]).length ≤ k := by
          rw [List.length_append, List.length_singleton]
          exact hlt
        rw [List.length_append] at hk
        have hlt : k - (basics ++ [DELIMITER]).length < digits.length := by omega
        rw [List.getD_append_right _ _ _ _ hge, List.getD_eq_getElem digits 0 hlt]
        exact hno _ (List.getElem_mem hlt)
    rw [if_neg hnil, hlast, if_pos (List.length_pos_iff.mpr hnil)]
    simp

/-- The characters of basic units. -/
def basicChars (basics : WString) : List Char := basics.map fun c => Char.ofNat c.toNat

section

variable {basics : WString} (hbasic : basics.all IS_BASIC = true)

include hbasic

theorem toNat_lt_of_basic {c : WChar} (hc : c ∈ basics) : c.toNat < INITIAL_N :=
  UInt16.lt_iff_toNat_lt.mp (of_decide_eq_true (List.all_eq_true.mp hbasic c hc))

theorem toNat_basicChar {c : WChar} (hc : c ∈ basics) : (Char.ofNat c.toNat).toNat = c.toNat := by
  have hlt := toNat_lt_of_basic hbasic hc
  simp only [INITIAL_N] at hlt
  exact Utf16.toNat_char _ (Or.inl (by omega))

theorem map_toNat_basicChars : (basicChars basics).map Char.toNat = basics.map UInt16.toNat := by
  rw [basicChars, List.map_map]
  exact List.map_congr_left fun c hc => toNat_basicChar hbasic hc

theorem encode_basicChars : Utf16.encode (basicChars basics) = basics := by
  induction basics with
  | nil => rfl
  | cons c basics ih =>
    have hlt := toNat_lt_of_basic hbasic List.mem_cons_self
    have hrest : basics.all IS_BASIC = true := by
      rw [List.all_cons, Bool.and_eq_true] at hbasic
      exact hbasic.2
    simp only [INITIAL_N] at hlt
    have hh : Utf16.isHigh c = false := by
      simp only [Utf16.isHigh, Bool.and_eq_false_iff, decide_eq_false_iff_not]
      omega
    have hl : Utf16.isLow c = false := by
      simp only [Utf16.isLow, Bool.and_eq_false_iff, decide_eq_false_iff_not]
      omega
    have hcons : basicChars (c :: basics) = Char.ofNat c.toNat :: basicChars basics := rfl
    rw [hcons, Utf16.encode_cons, Utf16.encodeChar_unit hh hl, ih hrest]
    rfl

end

/-- The decoder before the first delta. -/
def decoderOf (destCapacity : Nat) (src : WString) : Decoder where
  n := INITIAL_N
  i := 0
  bias := INITIAL_BIAS
  destCPCount := (basicsOf src).length
  destLength := (basicsOf src).length
  firstSupplementaryIndex := 1000000000
  dest := (basicsOf src).take destCapacity

/-- The reader before the first delta. -/
def readerOf (src : WString) : State := ⟨INITIAL_N, 0, (basicsOf src).map UInt16.toNat⟩

theorem length_basicsOf (src : WString) : (basicsOf src).length = lastDelimiter src src.length := by
  rw [basicsOf, List.length_take]
  rcases lastDelimiter_spec src src.length with hzero | ⟨hlt, -⟩
  · rw [hzero, Nat.zero_min]
  · exact Nat.min_eq_left (Nat.le_of_lt hlt)

theorem u_strFromPunycode_def (src : WString) (destCapacity : Nat) {errorCode : UErrorCode}
    (hcode : U_FAILURE errorCode = false) :
    u_strFromPunycode src destCapacity errorCode =
      if (basicsOf src).all IS_BASIC then
        match decodeLoop destCapacity (digitsOf src) (decoderOf destCapacity src) with
        | .error code => ⟨[], 0, code⟩
        | .ok d => u_terminateUChars d.dest destCapacity d.destLength errorCode
      else ⟨[], 0, U_INVALID_CHAR_FOUND⟩ := by
  rw [u_strFromPunycode, hcode, if_neg Bool.false_ne_true, decoderOf, length_basicsOf]
  rfl

theorem decoded_start {src : WString} (hbasic : (basicsOf src).all IS_BASIC = true)
    (destCapacity : Nat) :
    Decoded destCapacity (decoderOf destCapacity src) (readerOf src)
      (basicChars (basicsOf src)) where
  n := rfl
  i := rfl
  count := (List.length_map ..).symm
  out := (map_toNat_basicChars hbasic).symm
  length := by rw [encode_basicChars hbasic, decoderOf]
  dest := fun hle => by
    rw [encode_basicChars hbasic, decoderOf]
    exact List.take_of_length_le hle
  basicPlane := fun _ c hc => by
    obtain ⟨u, hu, rfl⟩ := List.mem_map.mp (List.mem_of_mem_take hc)
    have hlt := toNat_lt_of_basic hbasic hu
    rw [toNat_basicChar hbasic hu]
    simp only [INITIAL_N] at hlt
    omega

theorem started_start (src : WString) : Started (basicsOf src).length (readerOf src) :=
  ⟨⟨fun _ => List.length_map .., fun _ => rfl⟩, Nat.le_of_eq (List.length_map ..).symm⟩

/-- What the reader gets in the end has the canonical form for its Punycode. -/
theorem encoding_insertAll {src : WString} (hbasic : (basicsOf src).all IS_BASIC = true)
    {ds : List Nat}
    (hdigits : Digits (digitsOf src)
      (scheme.write (basicsOf src).length INITIAL_BIAS (basicsOf src).length ds)) :
    encoding ((readerOf src).insertAll ds).out = canonical src := by
  have hlt : ∀ c ∈ (readerOf src).out, c < INITIAL_N := by
    intro c hc
    obtain ⟨u, hu, rfl⟩ := List.mem_map.mp hc
    exact toNat_lt_of_basic hbasic hu
  have hfilter : ((readerOf src).insertAll ds).out.filter (· < INITIAL_N) =
      (basicsOf src).map UInt16.toNat := by
    have hsame := State.filter_insertAll (Nat.le_refl (readerOf src).n) ds
    exact hsame.trans (List.filter_eq_self.mpr fun c hc => decide_eq_true (hlt c hc))
  have hpasses : passes ((readerOf src).insertAll ds).out INITIAL_N 0 (basicsOf src).length =
      ds := by
    have h := State.passes_insertAll rfl hlt ds
    rw [readerOf, List.length_map] at h
    exact h
  have hlower : (digitsOf src).map lowercaseDigit =
      (scheme.write (basicsOf src).length INITIAL_BIAS (basicsOf src).length ds).map
        digitToBasic := by
    have hcomp : lowercaseDigit = (fun d : Int => digitToBasic d.toNat) ∘ basicToDigit := rfl
    rw [hcomp, ← List.map_map, hdigits, List.map_map]
    rfl
  have hback : ((basicsOf src).map UInt16.toNat).map UInt16.ofNat = basicsOf src := by
    rw [List.map_map]
    exact (List.map_congr_left fun c _ => UInt16.ofNat_toNat).trans (List.map_id _)
  rw [encoding, digitPart, hfilter, List.length_map, hback, hpasses, canonical, hlower]

/-- **What the decoder writes**, with any capacity: the text that has the source for its
Punycode, in canonical form. -/
theorem u_strFromPunycode_fills (src : WString) :
    ∃ r, Fills (u_strFromPunycode src) r ∧ ∀ text, r = .ok text →
      ∃ chars, Utf16.decode text = some chars ∧
        encoding (chars.map Char.toNat) = canonical src ∧
        ∀ c ∈ digitsOf src, 0 ≤ basicToDigit c := by
  by_cases hbasic : (basicsOf src).all IS_BASIC = true
  · cases hloop : decodeLoop 0 (digitsOf src) (decoderOf 0 src) with
    | error code =>
      obtain ⟨hcode, hsame⟩ := decodeLoop_error hloop (decoded_start hbasic 0)
      refine ⟨.error code, ⟨?_, ?_, fun destCapacity errorCode hsuccess => ?_⟩,
        fun text heq => nomatch heq⟩
      · rcases hcode with rfl | rfl <;> decide
      · rcases hcode with rfl | rfl <;> decide
      · rw [u_strFromPunycode_def src destCapacity (not_failure hsuccess), if_pos hbasic,
          hsame destCapacity _ (decoded_start hbasic destCapacity) rfl]
    | ok d =>
      obtain ⟨ds, chars, hdigits, hsame⟩ :=
        decodeLoop_sound hloop (decoded_start hbasic 0) (started_start src)
      have hout : ((readerOf src).insertAll ds).out = chars.map Char.toNat := by
        obtain ⟨e, -, he⟩ := hsame 0 _ (decoded_start hbasic 0) rfl
        exact he.out
      have hwrite : Digits (digitsOf src)
          (scheme.write (basicsOf src).length INITIAL_BIAS (basicsOf src).length ds) := by
        have hlength : (readerOf src).out.length = (basicsOf src).length := List.length_map ..
        rw [hlength] at hdigits
        exact hdigits
      refine ⟨.ok (Utf16.encode chars), ?_, fun text heq => ?_⟩
      · refine fills_terminate fun destCapacity errorCode hsuccess => ?_
        obtain ⟨e, he, hdecoded⟩ :=
          hsame destCapacity _ (decoded_start hbasic destCapacity) rfl
        refine ⟨e.dest, ?_, fun hfits => hdecoded.dest (hdecoded.length ▸ hfits)⟩
        rw [u_strFromPunycode_def src destCapacity (not_failure hsuccess), if_pos hbasic, he,
          ← hdecoded.length]
      · rw [← Except.ok.inj heq]
        refine ⟨chars, Utf16.decode_encode chars, ?_, fun c hc => ?_⟩
        · rw [← hout]
          exact encoding_insertAll hbasic hwrite
        · have hmem : basicToDigit c ∈ (digitsOf src).map basicToDigit :=
            List.mem_map_of_mem hc
          rw [hwrite] at hmem
          obtain ⟨d, -, hd⟩ := List.mem_map.mp hmem
          rw [← hd]
          exact Int.natCast_nonneg d
  · refine ⟨.error U_INVALID_CHAR_FOUND, ⟨by decide, by decide, fun destCapacity errorCode
      hsuccess => ?_⟩, fun text heq => nomatch heq⟩
    rw [u_strFromPunycode_def src destCapacity (not_failure hsuccess), if_neg hbasic]

/-- The digits that the encoder writes. -/
theorem digits_digitPart (cps : List Nat) :
    Digits (digitPart cps) (scheme.write (cps.filter (· < INITIAL_N)).length INITIAL_BIAS
      (cps.filter (· < INITIAL_N)).length
      (passes cps INITIAL_N 0 (cps.filter (· < INITIAL_N)).length)) := by
  rw [Digits, digitPart, List.map_map]
  refine List.map_congr_left fun d hd => ?_
  exact basicToDigit_digitToBasic (Scheme.write_lt_base hd)

theorem digitPart_ne_delimiter {cps : List Nat} {c : WChar} (hc : c ∈ digitPart cps) :
    c ≠ DELIMITER := by
  obtain ⟨d, hd, rfl⟩ := List.mem_map.mp hc
  exact digitToBasic_ne_delimiter (Scheme.write_lt_base hd)

theorem lowercaseDigit_ne_delimiter (c : WChar) : lowercaseDigit c ≠ DELIMITER := by
  have hlt := basicToDigit_lt c
  refine digitToBasic_ne_delimiter ?_
  simp only [BASE] at hlt ⊢
  omega

theorem basicToDigit_lowercaseDigit {c : WChar} (hc : 0 ≤ basicToDigit c) :
    basicToDigit (lowercaseDigit c) = basicToDigit c := by
  have hlt := basicToDigit_lt c
  rw [lowercaseDigit, basicToDigit_digitToBasic, Int.toNat_of_nonneg hc]
  simp only [BASE] at hlt ⊢
  omega

/-- A source in another spelling of the canonical form is cut in the same way. -/
theorem split_of_canonical {src : WString} {cps : List Nat} (h : canonical src = encoding cps)
    (hdigits : ∀ c ∈ digitsOf src, 0 ≤ basicToDigit c) :
    basicsOf src = (cps.filter (· < INITIAL_N)).map UInt16.ofNat ∧
      Digits (digitsOf src) (scheme.write (cps.filter (· < INITIAL_N)).length INITIAL_BIAS
        (cps.filter (· < INITIAL_N)).length
        (passes cps INITIAL_N 0 (cps.filter (· < INITIAL_N)).length)) := by
  have hno : ∀ c ∈ (digitsOf src).map lowercaseDigit, c ≠ DELIMITER := by
    intro c hc
    obtain ⟨d, -, rfl⟩ := List.mem_map.mp hc
    exact lowercaseDigit_ne_delimiter d
  have hleft := split_basicPart (basicsOf src) hno
  have hright := split_basicPart ((cps.filter (· < INITIAL_N)).map UInt16.ofNat)
    fun c (hc : c ∈ digitPart cps) => digitPart_ne_delimiter hc
  rw [canonical, encoding] at h
  rw [h] at hleft
  refine ⟨hleft.1.symm.trans hright.1, ?_⟩
  have hlower : (digitsOf src).map lowercaseDigit = digitPart cps :=
    hleft.2.symm.trans hright.2
  rw [Digits, ← digits_digitPart cps, ← hlower, List.map_map]
  exact List.map_congr_left fun c hc => (basicToDigit_lowercaseDigit (hdigits c hc)).symm

/-- **What the decoder reads**: a text of at most 200 code points, from any spelling of its
Punycode. -/
theorem u_strFromPunycode_of_canonical {src : WString} {chars : List Char}
    (hlen : chars.length ≤ MAX_CP_COUNT)
    (hcanonical : canonical src = encoding (chars.map Char.toNat))
    (hdigits : ∀ c ∈ digitsOf src, 0 ≤ basicToDigit c) :
    Fills (u_strFromPunycode src) (.ok (Utf16.encode chars)) := by
  obtain ⟨hbasics, hwrite⟩ := split_of_canonical hcanonical hdigits
  generalize hcps : chars.map Char.toNat = cps at hbasics hwrite
  have hlow : ∀ c ∈ cps.filter (· < INITIAL_N), c < INITIAL_N := fun c hc =>
    of_decide_eq_true (List.mem_filter.mp hc).2
  have hbasic : (basicsOf src).all IS_BASIC = true := by
    rw [hbasics, List.all_eq_true]
    intro u hu
    obtain ⟨c, hc, rfl⟩ := List.mem_map.mp hu
    have hlt := hlow c hc
    simp only [INITIAL_N] at hlt
    refine decide_eq_true (UInt16.lt_iff_toNat_lt.mpr ?_)
    rw [UInt16.toNat_ofNat', Nat.mod_eq_of_lt (by omega)]
    exact hlt
  have hout : (readerOf src).out = cps.filter (· < INITIAL_N) := by
    have hmap : (basicsOf src).map UInt16.toNat = cps.filter (· < INITIAL_N) := by
      rw [hbasics, List.map_map]
      refine (List.map_congr_left fun c hc => ?_).trans (List.map_id _)
      have hlt := hlow c hc
      simp only [INITIAL_N] at hlt
      rw [Function.comp, UInt16.toNat_ofNat', Nat.mod_eq_of_lt (by omega), id]
    exact hmap
  have hlength : (basicsOf src).length = (cps.filter (· < INITIAL_N)).length := by
    rw [hbasics, List.length_map]
  have hall : ((readerOf src).insertAll
      (passes cps INITIAL_N 0 (cps.filter (· < INITIAL_N)).length)).out = cps := by
    have hplace : (readerOf src).i + 0 =
        (INITIAL_N - (readerOf src).n) * ((readerOf src).out.length + 1) := by
      rw [readerOf, Nat.sub_self, Nat.zero_mul]
    have h := State.insertAll_passes cps hout (Nat.le_refl INITIAL_N) hplace
    rw [hout] at h
    exact h
  have hcount : (readerOf src).out.length +
      (passes cps INITIAL_N 0 (cps.filter (· < INITIAL_N)).length).length ≤ MAX_CP_COUNT := by
    rw [← State.length_insertAll, hall, ← hcps, List.length_map]
    exact hlen
  have hvalid : ∀ c ∈ cps, c.isValidChar := by
    rw [← hcps]
    intro c hc
    obtain ⟨x, -, rfl⟩ := List.mem_map.mp hc
    exact x.valid
  have hsrc : Digits (digitsOf src) (scheme.write (basicsOf src).length INITIAL_BIAS
      (readerOf src).out.length
      (passes cps INITIAL_N 0 (cps.filter (· < INITIAL_N)).length)) := by
    rw [hlength, hout]
    exact hwrite
  refine fills_terminate fun destCapacity errorCode hsuccess => ?_
  have hbias : (decoderOf destCapacity src).bias ≤ 179 := by
    show INITIAL_BIAS ≤ 179
    decide
  obtain ⟨d, chars', hloop, hdecoded⟩ := decodeLoop_complete hsrc
    (decoded_start hbasic destCapacity) (started_start src) hbias hcount (hall.symm ▸ hvalid)
  have hsame : chars' = chars := by
    have hmap : chars'.map Char.toNat = chars.map Char.toNat := by
      rw [← hdecoded.out, hall, hcps]
    exact List.map_injective_iff.mpr (fun _ _ => Char.toNat_inj.mp) hmap
  rw [hsame] at hdecoded
  refine ⟨d.dest, ?_, fun hfits => hdecoded.dest (hdecoded.length ▸ hfits)⟩
  rw [u_strFromPunycode_def src destCapacity (not_failure hsuccess), if_pos hbasic, hloop,
    ← hdecoded.length]

/-! ## Round trips -/

theorem canonical_encoding (cps : List Nat) : canonical (encoding cps) = encoding cps := by
  obtain ⟨hbasics, hdigits⟩ := split_basicPart ((cps.filter (· < INITIAL_N)).map UInt16.ofNat)
    fun c (hc : c ∈ digitPart cps) => digitPart_ne_delimiter hc
  have hlower : (digitPart cps).map lowercaseDigit = digitPart cps := by
    rw [digitPart, List.map_map]
    refine List.map_congr_left fun d hd => ?_
    rw [Function.comp, lowercaseDigit, basicToDigit_digitToBasic (Scheme.write_lt_base hd)]
    rfl
  rw [canonical, encoding, hbasics, hdigits, hlower]

theorem digitsOf_encoding {cps : List Nat} {c : WChar} (hc : c ∈ digitsOf (encoding cps)) :
    0 ≤ basicToDigit c := by
  rw [encoding, (split_basicPart _ fun c hc => digitPart_ne_delimiter hc).2] at hc
  obtain ⟨d, hd, rfl⟩ := List.mem_map.mp hc
  rw [basicToDigit_digitToBasic (Scheme.write_lt_base hd)]
  exact Int.natCast_nonneg d

theorem fills_encoding {chars : List Char} (hlen : chars.length ≤ MAX_CP_COUNT) :
    Fills (u_strFromPunycode (encoding (chars.map Char.toNat))) (.ok (Utf16.encode chars)) :=
  u_strFromPunycode_of_canonical hlen (canonical_encoding _) fun _ => digitsOf_encoding

theorem encoding_nil : encoding [] = [] := by
  have hpasses : passes [] INITIAL_N 0 0 = [] := by
    rw [passes]
    simp
  simp [encoding, basicPart, digitPart, hpasses, Scheme.write]

/-- The empty Punycode is that of the empty text. -/
theorem fills_nil : Fills (u_strFromPunycode []) (.ok []) := by
  have hfills := fills_encoding (show ([] : List Char).length ≤ MAX_CP_COUNT from Nat.zero_le _)
  rw [List.map_nil, encoding_nil, Utf16.encode_nil] at hfills
  exact hfills

/-- The encoder writes basic code points, a delimiter and digits. -/
theorem mem_encoding {cps : List Nat} {c : WChar} (hc : c ∈ encoding cps) :
    (∃ x ∈ cps, x < INITIAL_N ∧ c = UInt16.ofNat x) ∨ c = DELIMITER ∨
      ∃ d, d < BASE ∧ c = digitToBasic d := by
  rw [encoding, List.mem_append, basicPart] at hc
  rcases hc with hc | hc
  · split at hc
    · exact absurd hc List.not_mem_nil
    · rw [List.mem_append, List.mem_singleton] at hc
      rcases hc with hc | hc
      · obtain ⟨x, hx, rfl⟩ := List.mem_map.mp hc
        obtain ⟨hmem, hlt⟩ := List.mem_filter.mp hx
        exact Or.inl ⟨x, hmem, of_decide_eq_true hlt, rfl⟩
      · exact Or.inr (Or.inl hc)
  · obtain ⟨d, hd, rfl⟩ := List.mem_map.mp hc
    exact Or.inr (Or.inr ⟨d, Scheme.write_lt_base hd, rfl⟩)

/-- A basic code point is a unit of the text. -/
theorem mem_of_basic {text : WString} {chars : List Char} (hdecode : Utf16.decode text = some chars)
    {x : Nat} (hx : x ∈ chars.map Char.toNat) (hlt : x < INITIAL_N) : UInt16.ofNat x ∈ text := by
  obtain ⟨char, hchar, rfl⟩ := List.mem_map.mp hx
  simp only [INITIAL_N] at hlt
  have hnat : (UInt16.ofNat char.toNat).toNat = char.toNat := by
    rw [UInt16.toNat_ofNat', Nat.mod_eq_of_lt (by omega)]
  rw [← Utf16.encode_of_decode hdecode, Utf16.mem_encode_iff (by omega), hnat, Char.ofNat_toNat]
  exact hchar

/-- Decoded Punycode is well-formed. -/
theorem wellFormed_of_fills {src text : WString} (h : Fills (u_strFromPunycode src) (.ok text)) :
    Utf16.WellFormed text := by
  obtain ⟨r, hr, hok⟩ := u_strFromPunycode_fills src
  obtain ⟨chars, hdecode, -⟩ := hok text (hr.unique h)
  rw [Utf16.WellFormed, hdecode]
  rfl

/-- A basic code point that is neither a digit nor a delimiter is one of the text. -/
theorem mem_of_decoded {src text : WString} (h : Fills (u_strFromPunycode src) (.ok text))
    {c : WChar} (hc : c ∈ src) (hdigit : basicToDigit c < 0) (hdelimiter : c ≠ DELIMITER) :
    c ∈ text := by
  obtain ⟨r, hfills, hok⟩ := u_strFromPunycode_fills src
  obtain ⟨chars, hdecode, hencoding, hdigits⟩ := hok _ (hfills.unique h)
  obtain ⟨hbasics, -⟩ := split_of_canonical hencoding.symm hdigits
  rw [← basicPart_append_digitsOf src, List.mem_append] at hc
  rcases hc with hc | hc
  · have hmem : c ∈ basicsOf src := by
      rw [basicPart] at hc
      split at hc
      · exact absurd hc List.not_mem_nil
      · rw [List.mem_append, List.mem_singleton] at hc
        exact hc.resolve_right hdelimiter
    rw [hbasics] at hmem
    obtain ⟨d, hd, rfl⟩ := List.mem_map.mp hmem
    obtain ⟨hd, hlt⟩ := List.mem_filter.mp hd
    exact mem_of_basic hdecode hd (of_decide_eq_true hlt)
  · exact absurd (hdigits c hc) (Int.not_le.mpr hdigit)

/-- Punycode is decoded to what it is the Punycode of. -/
theorem decoded_of_encoded {src text : WString} (h : Fills (u_strToPunycode src) (.ok text)) :
    Fills (u_strFromPunycode text) (.ok src) := by
  obtain ⟨r, hfills, hok, -⟩ := u_strToPunycode_fills src
  obtain ⟨chars, hdecode, hlen, rfl⟩ := (hok text).mp (hfills.unique h)
  have hback := fills_encoding hlen
  rw [Utf16.encode_of_decode hdecode] at hback
  exact hback

/-- **What is encoded is decoded** to where it came from, with any capacities. -/
theorem u_strFromPunycode_u_strToPunycode {src : WString} {destCapacity : Nat}
    {errorCode : UErrorCode}
    (h : U_SUCCESS (u_strToPunycode src destCapacity errorCode).errorCode = true) :
    let r := u_strToPunycode src destCapacity errorCode
    Fills (u_strFromPunycode (r.written.take r.length)) (.ok src) := by
  intro r
  have hcode : U_SUCCESS errorCode = true := by
    cases hf : U_FAILURE errorCode with
    | true =>
      rw [u_strToPunycode, hf, if_pos rfl] at h
      exact h
    | false => exact success_of_not_failure hf
  obtain ⟨result, hfills, -⟩ := u_strToPunycode_fills src
  rw [hfills.success hcode h] at hfills
  exact decoded_of_encoded hfills

/-- "bücher". -/
def bucher : WString := [0x62, 0xfc, 0x63, 0x68, 0x65, 0x72]

/-- "bcher-KVA"; the encoder writes the digits in lowercase. -/
def bcherKVA : WString := [0x62, 0x63, 0x68, 0x65, 0x72, 0x2d, 0x4b, 0x56, 0x41]

theorem bucher_decoded :
    let r := u_strToPunycode bucher 20 U_ZERO_ERROR
    Fills (u_strFromPunycode (r.written.take r.length)) (.ok bucher) :=
  u_strFromPunycode_u_strToPunycode (by decide +kernel)

/-- **What is decoded was encoded**, up to the spelling of its digits: the text is well-formed,
and if it has no more code points than the encoder takes, the encoder writes the source again,
with its digits in their canonical spelling. -/
theorem u_strToPunycode_u_strFromPunycode {src : WString} {destCapacity : Nat}
    {errorCode : UErrorCode} (hcode : U_SUCCESS errorCode = true)
    (h : U_SUCCESS (u_strFromPunycode src destCapacity errorCode).errorCode = true) :
    let r := u_strFromPunycode src destCapacity errorCode
    ∃ chars, Utf16.decode (r.written.take r.length) = some chars ∧
      (chars.length ≤ MAX_CP_COUNT →
        Fills (u_strToPunycode (r.written.take r.length))
          (.ok (basicPart (basicsOf src) ++ (digitsOf src).map lowercaseDigit))) := by
  intro r
  obtain ⟨result, hfills, hok⟩ := u_strFromPunycode_fills src
  obtain ⟨chars, hdecode, hencoding, -⟩ := hok _ (hfills.success hcode h)
  refine ⟨chars, hdecode, fun hlen => ?_⟩
  obtain ⟨encoded, hencodes, hiff, -⟩ := u_strToPunycode_fills (r.written.take r.length)
  have heq : encoded = .ok (canonical src) := (hiff _).mpr ⟨chars, hdecode, hlen, hencoding⟩
  rw [heq] at hencodes
  exact hencodes

theorem bcherKVA_encoded :
    let r := u_strFromPunycode bcherKVA 20 U_ZERO_ERROR
    ∃ chars, Utf16.decode (r.written.take r.length) = some chars ∧
      (chars.length ≤ MAX_CP_COUNT →
        Fills (u_strToPunycode (r.written.take r.length))
          (.ok (basicPart (basicsOf bcherKVA) ++ (digitsOf bcherKVA).map lowercaseDigit))) :=
  u_strToPunycode_u_strFromPunycode (by decide) (by decide +kernel)

/-- **What decodes to a text** of at most 200 code points are the spellings of its Punycode:
the basic code points as they are, and digits that are read as its digits. -/
theorem u_strFromPunycode_iff (src : WString) {chars : List Char}
    (hlen : chars.length ≤ MAX_CP_COUNT) :
    Fills (u_strFromPunycode src) (.ok (Utf16.encode chars)) ↔
      canonical src = encoding (chars.map Char.toNat) ∧
        ∀ c ∈ digitsOf src, 0 ≤ basicToDigit c := by
  constructor
  · intro h
    obtain ⟨r, hfills, hok⟩ := u_strFromPunycode_fills src
    obtain ⟨chars', hdecode, hencoding, hdigits⟩ := hok _ (hfills.unique h)
    rw [Utf16.decode_encode] at hdecode
    cases hdecode
    exact ⟨hencoding.symm, hdigits⟩
  · intro h
    exact u_strFromPunycode_of_canonical hlen h.1 h.2

theorem bcherKVA_iff :
    Fills (u_strFromPunycode bcherKVA) (.ok (Utf16.encode ['b', 'ü', 'c', 'h', 'e', 'r'])) ↔
      canonical bcherKVA = encoding (['b', 'ü', 'c', 'h', 'e', 'r'].map Char.toNat) ∧
        ∀ c ∈ digitsOf bcherKVA, 0 ≤ basicToDigit c :=
  u_strFromPunycode_iff bcherKVA (by decide)

/-- **The capacity does not matter**: for every source, each of the two functions has a text
that it writes if it fits, or an error that it returns in any case; and the encoder has a
text for exactly the well-formed sources of at most 200 code points.  Its error is that there are
more, or that the source is ill-formed, never the overflow that it guards against. -/
theorem fills (src : WString) :
    (∃ r, Fills (u_strToPunycode src) r ∧
      ((∃ text, r = .ok text) ↔
        ∃ chars, Utf16.decode src = some chars ∧ chars.length ≤ MAX_CP_COUNT) ∧
      ∀ code, r = .error code → code = U_INDEX_OUTOFBOUNDS_ERROR ∨
        code = U_INVALID_CHAR_FOUND ∧ Utf16.decode src = none) ∧
      ∃ r, Fills (u_strFromPunycode src) r := by
  obtain ⟨r, hto, hok, herror⟩ := u_strToPunycode_fills src
  obtain ⟨r', hfrom, -⟩ := u_strFromPunycode_fills src
  refine ⟨⟨r, hto, ?_, herror⟩, r', hfrom⟩
  constructor
  · rintro ⟨text, htext⟩
    obtain ⟨chars, hdecode, hlen, -⟩ := (hok text).mp htext
    exact ⟨chars, hdecode, hlen⟩
  · rintro ⟨chars, hdecode, hlen⟩
    exact ⟨_, (hok _).mpr ⟨chars, hdecode, hlen, rfl⟩⟩

end SearchAndIdna.Punycode
