import SearchAndIdna.Punycode.Encoder

/-!
# The Punycode decoder

`u_strFromPunycode` without case flags, as all its callers call it: the units
before the last delimiter are the basic code points, and the digits behind it
are read delta by delta, each of which inserts a code point.  The output is
UTF-16, so a place in the text is turned into an index of units.

* `Decoded.insert`: an insertion into the units is one into the text;
* `readDelta_sound`, `readDelta_complete`: a delta is read from its digits, and
  for the deltas of a short text no check against overflow fails;
* `decodeLoop_sound`, `decodeLoop_complete`: the same for the main loop.
-/

namespace SearchAndIdna.Punycode

open Uts46 Bootstring

/-! ## The code -/

/-- The index of the last delimiter before `j`, or 0. -/
def lastDelimiter (src : WString) : (j : Nat) → Nat
  | 0 => 0
  | j + 1 => if src.getD j 0 = DELIMITER then j else lastDelimiter src j

/-- `i` behind a generalized variable-length integer, and the rest of the source. -/
def readDelta (bias : Nat) : (src : WString) → (i w k : Nat) → Except UErrorCode (Nat × WString)
  | [], _, _, _ => .error U_ILLEGAL_CHAR_FOUND
  | c :: src, i, w, k =>
    let digit := basicToDigit c
    if digit < 0 then .error U_INVALID_CHAR_FOUND
    else if (0x7fffffff - i) / w < digit.toNat then .error U_ILLEGAL_CHAR_FOUND
    else
      let i := i + digit.toNat * w
      let t := threshold bias k
      if digit.toNat < t then .ok (i, src)
      else if 0x7fffffff / (BASE - t) < w then .error U_ILLEGAL_CHAR_FOUND
      else readDelta bias src i (w * (BASE - t)) (k + BASE)

/-- `U16_FWD_N(s, i, length, n)`: the new `i`. -/
def U16_FWD_N (s : WString) (i length : Nat) : (n : Nat) → Nat
  | 0 => i
  | n + 1 =>
    if i < length then
      let pair := Utf16.isHigh (s.getD i 0) && i + 1 != length && Utf16.isLow (s.getD (i + 1) 0)
      U16_FWD_N s (if pair then i + 2 else i + 1) length n
    else i

def U16_LENGTH (c : Nat) : Nat := if c ≤ 0xffff then 1 else 2

def U16_LEAD (c : Nat) : WChar := UInt16.ofNat (c / 0x400 + 0xd7c0)

def U16_TRAIL (c : Nat) : WChar := UInt16.ofNat (c % 0x400) ||| 0xdc00

def U_IS_SURROGATE (c : Nat) : Bool := c / 0x800 = 0x1b

/-- The main loop's variables; `dest` is what is written to the buffer. -/
structure Decoder where
  n : Nat
  i : Nat
  bias : Nat
  destCPCount : Nat
  destLength : Nat
  firstSupplementaryIndex : Nat
  dest : WString

section

variable (destCapacity : Nat)

/-- Inserts `n` at position `i` of the output. -/
def insertCodePoint (d : Decoder) : Decoder :=
  let cpLength := U16_LENGTH d.n
  let d :=
    if d.destLength + cpLength ≤ destCapacity then
      let supplementary := d.firstSupplementaryIndex < d.i
      let codeUnitIndex :=
        if supplementary then
          U16_FWD_N d.dest d.firstSupplementaryIndex d.destLength (d.i - d.firstSupplementaryIndex)
        else d.i
      let units := if cpLength = 1 then [UInt16.ofNat d.n] else [U16_LEAD d.n, U16_TRAIL d.n]
      { d with
        firstSupplementaryIndex :=
          if supplementary then d.firstSupplementaryIndex
          else if 1 < cpLength then codeUnitIndex else d.firstSupplementaryIndex + 1
        dest := d.dest.take codeUnitIndex ++ units ++ d.dest.drop codeUnitIndex }
    else d
  { d with destLength := d.destLength + cpLength, i := d.i + 1 }

theorem insertCodePoint_bias (d : Decoder) : (insertCodePoint destCapacity d).bias = d.bias := by
  unfold insertCodePoint
  dsimp only
  split <;> rfl

theorem readDelta_length {bias : Nat} {src : WString} {i w k : Nat} {r : Nat × WString}
    (h : readDelta bias src i w k = .ok r) : r.2.length < src.length := by
  induction src generalizing i w k with
  | nil => cases h
  | cons c src ih =>
    rw [readDelta] at h
    simp only at h
    split at h
    · cases h
    · split at h
      · cases h
      · split at h
        · rw [← Except.ok.inj h, List.length_cons]
          exact Nat.lt_succ_self _
        · split at h
          · cases h
          · exact Nat.lt_succ_of_lt (ih h)

/-- The main decoding loop, over the rest of the source. -/
def decodeLoop (src : WString) (d : Decoder) : Except UErrorCode Decoder :=
  if src = [] then .ok d
  else
    match _h : readDelta d.bias src d.i 1 BASE with
    | .error code => .error code
    | .ok (i, rest) =>
      let destCPCount := d.destCPCount + 1
      let bias := adaptBias (i - d.i) destCPCount (d.i == 0)
      if 0x7fffffff - d.n < i / destCPCount then .error U_ILLEGAL_CHAR_FOUND
      else
        let n := d.n + i / destCPCount
        if 0x10ffff < n || U_IS_SURROGATE n then .error U_ILLEGAL_CHAR_FOUND
        else
          decodeLoop rest (insertCodePoint destCapacity
            { d with n := n, i := i % destCPCount, bias := bias, destCPCount := destCPCount })
termination_by src.length
decreasing_by exact readDelta_length _h

end

/-- On an error, what is in the buffer is not looked at. -/
def u_strFromPunycode (src : WString) (destCapacity : Nat) (errorCode : UErrorCode) :
    PunycodeResult :=
  if U_FAILURE errorCode then ⟨[], 0, errorCode⟩
  else
    let basicLength := lastDelimiter src src.length
    if (src.take basicLength).all IS_BASIC then
      match decodeLoop destCapacity (src.drop (if 0 < basicLength then basicLength + 1 else 0))
        { n := INITIAL_N, i := 0, bias := INITIAL_BIAS, destCPCount := basicLength
          destLength := basicLength, firstSupplementaryIndex := 1000000000
          dest := (src.take basicLength).take destCapacity } with
      | .error code => ⟨[], 0, code⟩
      | .ok d => u_terminateUChars d.dest destCapacity d.destLength errorCode
    else ⟨[], 0, U_INVALID_CHAR_FOUND⟩

/-! ## Units and characters -/

theorem length_encodeChar (c : Char) : (Utf16.encodeChar c).length = U16_LENGTH c.toNat := by
  rw [Utf16.encodeChar, U16_LENGTH]
  split
  · rw [if_pos (by omega)]
    rfl
  · rw [if_neg (by omega)]
    rfl

/-- The units that are inserted are those of the character. -/
theorem units_eq_encodeChar (c : Char) :
    (if U16_LENGTH c.toNat = 1 then [UInt16.ofNat c.toNat]
      else [U16_LEAD c.toNat, U16_TRAIL c.toNat]) = Utf16.encodeChar c := by
  have hvalid : c.toNat.isValidChar := c.valid
  rw [Nat.isValidChar] at hvalid
  rw [Utf16.encodeChar, U16_LENGTH]
  by_cases hc : c.toNat < 0x10000
  · rw [if_pos (by omega : c.toNat ≤ 0xffff), if_pos rfl, if_pos hc]
  · rw [if_neg (by omega : ¬ c.toNat ≤ 0xffff), if_neg (by decide), if_neg hc]
    have hlead : c.toNat / 0x400 + 0xd7c0 = 0xd800 + (c.toNat - 0x10000) / 0x400 := by omega
    have hrest : (c.toNat - 0x10000) % 0x400 = c.toNat % 0x400 := by omega
    have htrail : U16_TRAIL c.toNat = UInt16.ofNat (0xdc00 + c.toNat % 0x400) := by
      have hlt : c.toNat % 0x400 < 2 ^ 10 := Nat.mod_lt _ (by decide)
      have hlow : (UInt16.ofNat (c.toNat % 0x400)).toNat = c.toNat % 0x400 := by
        rw [UInt16.toNat_ofNat']
        exact Nat.mod_eq_of_lt (by omega)
      have hsum : (UInt16.ofNat (0xdc00 + c.toNat % 0x400)).toNat = 0xdc00 + c.toNat % 0x400 := by
        rw [UInt16.toNat_ofNat']
        exact Nat.mod_eq_of_lt (by omega)
      refine UInt16.toNat_inj.mp ?_
      rw [U16_TRAIL, UInt16.toNat_or, hlow, hsum, Nat.or_comm]
      exact (Nat.two_pow_add_eq_or_of_lt hlt 55).symm
    rw [hrest, htrail, U16_LEAD, hlead]

/-- Characters of the basic plane have one unit each. -/
theorem length_encode_bmp {chars : List Char} (h : ∀ c ∈ chars, c.toNat < 0x10000) :
    (Utf16.encode chars).length = chars.length := by
  induction chars with
  | nil => rfl
  | cons c chars ih =>
    have hc := h c List.mem_cons_self
    rw [Utf16.encode_cons, List.length_append, length_encodeChar, U16_LENGTH,
      if_pos (by omega : c.toNat ≤ 0xffff), ih fun d hd => h d (List.mem_cons_of_mem _ hd),
      List.length_cons, Nat.add_comm]

/-- Going on by `n` characters. -/
theorem U16_FWD_N_encode (a b c : List Char) :
    U16_FWD_N (Utf16.encode (a ++ b ++ c)) (Utf16.encode a).length
      (Utf16.encode (a ++ b ++ c)).length b.length = (Utf16.encode (a ++ b)).length := by
  induction b generalizing a with
  | nil => rw [List.append_nil, List.length_nil, U16_FWD_N]
  | cons x b ih =>
    have hmove : a ++ x :: b = a ++ [x] ++ b := by simp
    have hunits : Utf16.encode (a ++ [x] ++ b ++ c) =
        Utf16.encode a ++ (Utf16.encodeChar x ++ Utf16.encode (b ++ c)) := by
      simp [Utf16.encode_append, Utf16.encode_cons]
    have hlength : (Utf16.encode (a ++ [x])).length =
        (Utf16.encode a).length + (Utf16.encodeChar x).length := by
      simp [Utf16.encode_append, Utf16.encode_cons]
    have hnext : U16_FWD_N (Utf16.encode (a ++ [x] ++ b ++ c)) (Utf16.encode a).length
        (Utf16.encode (a ++ [x] ++ b ++ c)).length (b.length + 1) =
          U16_FWD_N (Utf16.encode (a ++ [x] ++ b ++ c)) (Utf16.encode (a ++ [x])).length
            (Utf16.encode (a ++ [x] ++ b ++ c)).length b.length := by
      rw [U16_FWD_N, hlength, hunits]
      rcases Utf16.encodeChar_cases x with ⟨u, hx, hu⟩ | ⟨u, v, hx, hu, hv⟩
      · rw [hx]
        simp [hu]
      · rw [hx]
        simp [hu, hv]
    rw [hmove, List.length_cons, hnext]
    exact ih (a ++ [x])

/-! ## Insertions -/

/-- The reader's state, with its text as UTF-16 as long as it fits. -/
structure Decoded (destCapacity : Nat) (d : Decoder) (st : State) (chars : List Char) : Prop where
  n : d.n = st.n
  i : d.i = st.i
  count : d.destCPCount = st.out.length
  out : st.out = chars.map Char.toNat
  length : d.destLength = (Utf16.encode chars).length
  dest : d.destLength ≤ destCapacity → d.dest = Utf16.encode chars
  basicPlane : d.destLength ≤ destCapacity →
    ∀ c ∈ chars.take d.firstSupplementaryIndex, c.toNat < 0x10000

/-- The index of the units, by the characters that are known to have one unit each. -/
theorem codeUnitIndex_eq {a b : List Char} {first : Nat}
    (h : ∀ c ∈ (a ++ b).take first, c.toNat < 0x10000) :
    (if first < a.length then
      U16_FWD_N (Utf16.encode (a ++ b)) first (Utf16.encode (a ++ b)).length (a.length - first)
      else a.length) = (Utf16.encode a).length := by
  split
  · rename_i hlt
    have hcut : a = a.take first ++ a.drop first := (List.take_append_drop first a).symm
    have htake : (a ++ b).take first = a.take first :=
      List.take_append_of_le_length (Nat.le_of_lt hlt)
    have hfirst : (Utf16.encode (a.take first)).length = first := by
      rw [length_encode_bmp (htake ▸ h), List.length_take, Nat.min_eq_left (Nat.le_of_lt hlt)]
    have hrest : a.length - first = (a.drop first).length := List.length_drop.symm
    have hfwd := U16_FWD_N_encode (a.take first) (a.drop first) b
    rw [hfirst, ← hcut, ← hrest] at hfwd
    exact hfwd
  · rename_i hle
    refine (length_encode_bmp fun c hc => h c ?_).symm
    rw [List.take_append]
    refine List.mem_append_left _ ?_
    rw [List.take_of_length_le (Nat.not_lt.mp hle)]
    exact hc

/-- **An insertion** into the units is one into the text. -/
theorem Decoded.insert {destCapacity : Nat} {d : Decoder} {st : State} {chars : List Char}
    (h : Decoded destCapacity d st chars) {delta : Nat} {x : Char}
    (hx : x.toNat = st.n + (st.i + delta) / (st.out.length + 1)) (bias : Nat) :
    Decoded destCapacity
      (insertCodePoint destCapacity
        { d with
          n := x.toNat, i := (st.i + delta) % (st.out.length + 1), bias := bias
          destCPCount := d.destCPCount + 1 })
      (st.insert delta) (chars.insertIdx ((st.i + delta) % (st.out.length + 1)) x) := by
  have hplace := st.place_le delta
  have hcount : st.out.length = chars.length := by rw [h.out, List.length_map]
  have hinsert : st.insert delta = ⟨x.toNat, (st.i + delta) % (st.out.length + 1) + 1,
      st.out.insertIdx ((st.i + delta) % (st.out.length + 1)) x.toNat⟩ := by
    rw [hx]
    rfl
  rw [hinsert]
  generalize (st.i + delta) % (st.out.length + 1) = place at hplace ⊢
  obtain ⟨a, b, hchars, ha⟩ : ∃ a b, chars = a ++ b ∧ a.length = place :=
    ⟨chars.take place, chars.drop place, (List.take_append_drop place chars).symm, by
      rw [List.length_take, Nat.min_eq_left (hcount ▸ hplace)]⟩
  have hinsertIdx : chars.insertIdx place x = a ++ x :: b := by
    rw [hchars, ← ha, insertIdx_length]
  have hunits : Utf16.encode (a ++ x :: b) =
      Utf16.encode a ++ Utf16.encodeChar x ++ Utf16.encode b := by
    simp [Utf16.encode_append, Utf16.encode_cons]
  have hlength : d.destLength + U16_LENGTH x.toNat = (Utf16.encode (a ++ x :: b)).length := by
    rw [h.length, hchars, hunits, Utf16.encode_append]
    simp only [List.length_append, length_encodeChar]
    omega
  have hroom : ∀ {e : Nat}, d.destLength + U16_LENGTH x.toNat ≤ e → d.destLength ≤ e :=
    fun hle => Nat.le_trans (Nat.le_add_right _ _) hle
  rw [hinsertIdx]
  constructor
  · unfold insertCodePoint
    dsimp only
    split <;> rfl
  · unfold insertCodePoint
    dsimp only
    split <;> rfl
  · unfold insertCodePoint
    dsimp only
    rw [List.length_insertIdx_of_le_length hplace, ← h.count]
    split <;> rfl
  · show st.out.insertIdx place x.toNat = (a ++ x :: b).map Char.toNat
    rw [h.out, hchars, List.map_append, List.map_append, List.map_cons]
    have hmap : place = (a.map Char.toNat).length := by rw [List.length_map, ha]
    rw [hmap, insertIdx_length]
  · unfold insertCodePoint
    dsimp only
    split <;> exact hlength
  · unfold insertCodePoint
    dsimp only
    intro hle
    have hfits : d.destLength + U16_LENGTH x.toNat ≤ destCapacity := by
      split at hle <;> exact hle
    have hindex := codeUnitIndex_eq (hchars ▸ h.basicPlane (hroom hfits))
    rw [if_pos hfits]
    dsimp only
    rw [h.dest (hroom hfits), h.length, hchars, units_eq_encodeChar, ← ha, hindex, hunits,
      Utf16.encode_append, List.take_left, List.drop_left]
  · unfold insertCodePoint
    dsimp only
    intro hle c hc
    have hfits : d.destLength + U16_LENGTH x.toNat ≤ destCapacity := by
      split at hle <;> exact hle
    have hbmp := h.basicPlane (hroom hfits)
    rw [if_pos hfits] at hc
    dsimp only at hc
    rw [hchars] at hbmp
    split at hc
    · -- behind a supplementary character, what is before it stays
      rename_i hlt
      refine hbmp c ?_
      rw [List.take_append_of_le_length (by omega)] at hc ⊢
      exact hc
    · rename_i hge
      split at hc
      · -- the first supplementary character
        have htake : (a ++ x :: b).take place = a := by rw [← ha, List.take_left]
        rw [htake] at hc
        refine hbmp c ?_
        rw [List.take_append, List.take_of_length_le (by omega : a.length ≤ _)]
        exact List.mem_append_left _ hc
      · rename_i hone
        have hxbmp : x.toNat < 0x10000 := by
          rw [U16_LENGTH] at hone
          split at hone <;> omega
        rw [List.take_append, List.take_of_length_le (by omega : a.length ≤ _)] at hc
        have hsucc : d.firstSupplementaryIndex + 1 - a.length =
            d.firstSupplementaryIndex - a.length + 1 := by omega
        rw [hsucc, List.take_succ_cons] at hc
        rw [List.take_append, List.take_of_length_le (by omega : a.length ≤ _)] at hbmp
        rw [List.mem_append, List.mem_cons] at hc
        rcases hc with hc | rfl | hc
        · exact hbmp c (List.mem_append_left _ hc)
        · exact hxbmp
        · exact hbmp c (List.mem_append_right _ hc)

/-! ## Deltas -/

/-- The digits are read as the numbers. -/
def Digits (s : WString) (ds : List Nat) : Prop := s.map basicToDigit = ds.map Int.ofNat

theorem digits_append {s t : WString} {ds es : List Nat} (hs : Digits s ds) (ht : Digits t es) :
    Digits (s ++ t) (ds ++ es) := by
  rw [Digits, List.map_append, List.map_append, hs, ht]

/-- What is read in digits is what is written in digits. -/
theorem readDelta_sound {bias : Nat} {src : WString} {i w k i' : Nat} {rest : WString}
    (h : readDelta bias src i w k = .ok (i', rest)) :
    ∃ s q, src = s ++ rest ∧ Digits s (scheme.digits bias k q) ∧ i' = i + q * w := by
  induction src generalizing i w k with
  | nil => cases h
  | cons c src ih =>
    rw [readDelta] at h
    simp only at h
    split at h
    · cases h
    · rename_i hdigit
      have hdigit : basicToDigit c = Int.ofNat (basicToDigit c).toNat := by
        rw [Int.ofNat_eq_natCast, Int.toNat_of_nonneg (Int.not_lt.mp hdigit)]
      have hbase : (basicToDigit c).toNat < BASE := by
        have := basicToDigit_lt c
        simp only [BASE] at this ⊢
        omega
      split at h
      · cases h
      · split at h
        · rename_i hlt
          have hlt : (basicToDigit c).toNat < scheme.threshold bias k := hlt
          cases h
          refine ⟨[c], (basicToDigit c).toNat, rfl, ?_, rfl⟩
          rw [Digits, Scheme.digits_of_lt hlt, List.map_singleton, List.map_singleton, ← hdigit]
        · rename_i hge
          have hge : scheme.threshold bias k ≤ (basicToDigit c).toNat := Nat.not_lt.mp hge
          split at h
          · cases h
          · obtain ⟨s, q, rfl, hs, rfl⟩ := ih h
            refine ⟨c :: s, (basicToDigit c).toNat + (scheme.base - scheme.threshold bias k) * q,
              rfl, ?_, ?_⟩
            · rw [Digits, Scheme.digits_cons hge hbase, List.map_cons, List.map_cons, ← hdigit]
              exact congrArg _ hs
            · show i + (basicToDigit c).toNat * w + q * (w * (BASE - threshold bias k)) =
                i + ((basicToDigit c).toNat + (BASE - threshold bias k) * q) * w
              ring

/-- Above any value that a text of `MAX_CP_COUNT` code points has. -/
def deltaLimit : Nat := 0x110000 * MAX_CP_COUNT

/-- A number of such a text is read: at a place with a small threshold, `w` has few factors,
and with the greatest one it is far below the number. -/
theorem readDelta_complete {bias : Nat} (hbias : bias ≤ 179) {q : Nat} {s : WString} (rest : WString)
    {i w k j : Nat} (hs : Digits s (scheme.digits bias k q)) (hk : k = BASE * (j + 1))
    (hpos : 0 < w) (hw : w ≤ 35 ^ j) (hi : i + q * w ≤ deltaLimit) :
    readDelta bias (s ++ rest) i w k = .ok (i + q * w, rest) := by
  have hlimit : deltaLimit = 222822400 := rfl
  induction q using Nat.strongRecOn generalizing s i w k j with
  | ind q ih =>
    by_cases hlt : q < scheme.threshold bias k
    · rw [Digits, Scheme.digits_of_lt hlt, List.map_singleton] at hs
      obtain ⟨c, rfl, hc⟩ := List.map_eq_singleton_iff.mp hs
      have hroom : ¬ (0x7fffffff - i) / w < q := by
        rw [Nat.not_lt, Nat.le_div_iff_mul_le hpos]
        omega
      have hlt : q < threshold bias k := hlt
      rw [List.singleton_append, readDelta, hc]
      simp [hroom, hlt]
    · obtain ⟨d, q', hd, hbase, hq, hsmaller, hdigits⟩ := Scheme.digits_split (Nat.not_lt.mp hlt)
      rw [Digits, hdigits, List.map_cons] at hs
      obtain ⟨c, s, rfl, hc, hs⟩ := List.map_eq_cons_iff.mp hs
      have hd : threshold bias k ≤ d := hd
      have hbase : d < BASE := hbase
      have hq : q = d + (BASE - threshold bias k) * q' := hq
      have hcut : q * w = d * w + q' * (w * (BASE - threshold bias k)) := by
        rw [hq]
        ring
      have hroom : ¬ (0x7fffffff - i) / w < d := by
        rw [Nat.not_lt, Nat.le_div_iff_mul_le hpos]
        omega
      have hbaseThreshold := threshold_lt bias k
      have hweight : ¬ 0x7fffffff / (BASE - threshold bias k) < w := by
        rw [Nat.not_lt, Nat.le_div_iff_mul_le (by omega)]
        by_cases hlarge : bias + TMAX ≤ k
        · have ht : threshold bias k = TMAX := by
            rw [threshold, if_neg (by simp only [TMAX, TMIN] at hlarge ⊢; omega), if_pos hlarge]
          rw [ht] at hd ⊢
          have hdw : TMAX * w ≤ d * w := Nat.mul_le_mul_right w hd
          simp only [TMAX, BASE] at hdw ⊢
          omega
        · have hj : j ≤ 4 := by
            simp only [TMAX, BASE] at hlarge hk
            omega
          have hpow : 35 ^ j ≤ 35 ^ 4 := Nat.pow_le_pow_right (by decide) hj
          have hpos := threshold_pos bias k
          have hmul : w * (BASE - threshold bias k) ≤ 35 ^ 4 * 35 :=
            Nat.mul_le_mul (Nat.le_trans hw hpow) (by simp only [BASE]; omega)
          omega
      have hnext := ih q' hsmaller (s := s) (i := i + d * w)
        (w := w * (BASE - threshold bias k)) (k := k + BASE) (j := j + 1) hs
        (by rw [hk]; ring) (Nat.mul_pos hpos (by omega))
        (by
          have hpos := threshold_pos bias k
          rw [Nat.pow_succ]
          exact Nat.mul_le_mul hw (by simp only [BASE]; omega))
        (by omega)
      have hnotlt : ¬ d < threshold bias k := Nat.not_lt.mpr hd
      rw [List.cons_append, readDelta, hc]
      simp [hroom, hnotlt, hweight, hnext, hcut, Nat.add_assoc]

/-! ## The main loop -/

/-- With `basic` elements at first, the place is 0 then, and never again. -/
structure Started (basic : Nat) (st : State) : Prop where
  first : st.i = 0 ↔ st.out.length = basic
  le : basic ≤ st.out.length

theorem Started.insert {basic : Nat} {st : State} (h : Started basic st) (delta : Nat) :
    Started basic (st.insert delta) := by
  have hle := h.le
  have hlength := st.length_insert delta
  have hi : (st.insert delta).i ≠ 0 := Nat.succ_ne_zero _
  exact ⟨⟨fun h => absurd h hi, fun h => by omega⟩, by omega⟩

/-- The bias is adapted as in the encoder. -/
theorem Started.nextBias {basic : Nat} {st : State} (h : Started basic st) (delta : Nat) :
    adaptBias (st.i + delta - st.i) (st.out.length + 1) (st.i == 0) =
      scheme.nextBias basic st.out.length delta := by
  have hfirst : (st.i == 0) = (st.out.length == basic) := by
    rw [Bool.eq_iff_iff, beq_iff_eq, beq_iff_eq]
    exact h.first
  rw [hfirst, Nat.add_sub_cancel_left]
  rfl

theorem isValidChar_iff (n : Nat) :
    (decide (0x10ffff < n) || U_IS_SURROGATE n) = false ↔ n.isValidChar := by
  rw [Bool.or_eq_false_iff, decide_eq_false_iff_not, U_IS_SURROGATE, decide_eq_false_iff_not,
    Nat.isValidChar]
  omega

section

variable {destCapacity basic : Nat}

/-- **The main loop** reads digits that an encoder writes, and inserts the same with any
other capacity. -/
theorem decodeLoop_sound {src : WString} {d d' : Decoder} {st : State} {chars : List Char}
    (h : decodeLoop destCapacity src d = .ok d') (hd : Decoded destCapacity d st chars)
    (hs : Started basic st) :
    ∃ ds chars', Digits src (scheme.write basic d.bias st.out.length ds) ∧
      ∀ capacity e, Decoded capacity e st chars → e.bias = d.bias →
        ∃ e', decodeLoop capacity src e = .ok e' ∧
          Decoded capacity e' (st.insertAll ds) chars' := by
  rw [decodeLoop] at h
  split at h
  · rename_i hnil
    exact ⟨[], chars, hnil ▸ rfl, fun _ e he _ => ⟨e, by rw [decodeLoop, if_pos hnil], he⟩⟩
  · rename_i hne
    split at h
    · cases h
    · rename_i i rest hread
      obtain ⟨s, delta, hsrc, hdigits, hi⟩ := readDelta_sound hread
      rw [Nat.mul_one, hd.i] at hi
      have hshorter : rest.length < src.length := readDelta_length hread
      simp only [hd.n, hd.i, hd.count, hi] at h
      split at h
      · cases h
      · rename_i hsmall
        split at h
        · cases h
        · rename_i hvalid
          have hgood := (isValidChar_iff _).mp (by simpa using hvalid)
          have hx := Utf16.toNat_char _ hgood
          rw [← hx, hs.nextBias] at h
          obtain ⟨ds, chars', hrest, hsame⟩ := decodeLoop_sound h
            (hd.count ▸ hd.insert hx _) (hs.insert delta)
          rw [State.length_insert, insertCodePoint_bias] at hrest
          refine ⟨delta :: ds, chars', ?_, fun capacity e he hbias => ?_⟩
          · rw [Scheme.write, hsrc]
            exact digits_append hdigits hrest
          · obtain ⟨e', hloop, he'⟩ := hsame capacity _
              (he.insert hx (scheme.nextBias basic st.out.length delta))
              (by rw [insertCodePoint_bias, insertCodePoint_bias])
            refine ⟨e', ?_, he'⟩
            rw [decodeLoop, if_neg hne]
            split
            · rename_i code herror
              rw [he.i, hbias, ← hd.i] at herror
              cases herror.symm.trans hread
            · rename_i i₂ rest₂ hok
              rw [he.i, hbias, ← hd.i] at hok
              cases hok.symm.trans hread
              rw [hx, he.count] at hloop
              simp only [he.n, he.i, he.count, hi, hsmall, if_false, hvalid, hs.nextBias]
              exact hloop
termination_by src.length

theorem readDelta_error {bias : Nat} {src : WString} {i w k : Nat} {code : UErrorCode}
    (h : readDelta bias src i w k = .error code) :
    code = U_INVALID_CHAR_FOUND ∨ code = U_ILLEGAL_CHAR_FOUND := by
  induction src generalizing i w k with
  | nil =>
    cases h
    exact Or.inr rfl
  | cons c src ih =>
    rw [readDelta] at h
    simp only at h
    split at h
    · cases h
      exact Or.inl rfl
    · split at h
      · cases h
        exact Or.inr rfl
      · split at h
        · cases h
        · split at h
          · cases h
            exact Or.inr rfl
          · exact ih h

/-- A malformed source is one with any other capacity. -/
theorem decodeLoop_error {src : WString} {d : Decoder} {st : State} {chars : List Char}
    {code : UErrorCode} (h : decodeLoop destCapacity src d = .error code)
    (hd : Decoded destCapacity d st chars) :
    (code = U_INVALID_CHAR_FOUND ∨ code = U_ILLEGAL_CHAR_FOUND) ∧
      ∀ capacity e, Decoded capacity e st chars → e.bias = d.bias →
        decodeLoop capacity src e = .error code := by
  rw [decodeLoop] at h
  split at h
  · cases h
  · rename_i hne
    split at h
    · rename_i code' hread
      cases h
      refine ⟨readDelta_error hread, fun capacity e he hbias => ?_⟩
      rw [decodeLoop, if_neg hne]
      split
      · rename_i code₂ herror
        rw [he.i, hbias, ← hd.i] at herror
        cases herror.symm.trans hread
        rfl
      · rename_i hok
        rw [he.i, hbias, ← hd.i] at hok
        cases hok.symm.trans hread
    · rename_i i rest hread
      -- what follows looks at the numbers of the decoder only
      have hnext : ∀ capacity e, Decoded capacity e st chars → e.bias = d.bias →
          decodeLoop capacity src e =
            if 0x7fffffff - st.n < i / (st.out.length + 1) then .error U_ILLEGAL_CHAR_FOUND
            else if decide (0x10ffff < st.n + i / (st.out.length + 1)) ||
                U_IS_SURROGATE (st.n + i / (st.out.length + 1)) then .error U_ILLEGAL_CHAR_FOUND
            else
              decodeLoop capacity rest (insertCodePoint capacity
                { e with
                  n := st.n + i / (st.out.length + 1), i := i % (st.out.length + 1)
                  bias := adaptBias (i - st.i) (st.out.length + 1) (st.i == 0)
                  destCPCount := st.out.length + 1 }) := by
        intro capacity e he hbias
        rw [decodeLoop, if_neg hne]
        split
        · rename_i code₂ herror
          rw [he.i, hbias, ← hd.i] at herror
          cases herror.symm.trans hread
        · rename_i i₂ rest₂ hok
          rw [he.i, hbias, ← hd.i] at hok
          cases hok.symm.trans hread
          simp only [he.n, he.i, he.count]
      obtain ⟨s, delta, -, -, hi⟩ := readDelta_sound hread
      rw [Nat.mul_one, hd.i] at hi
      have hshorter : rest.length < src.length := readDelta_length hread
      simp only [hd.n, hd.i, hd.count] at h
      by_cases hsmall : 0x7fffffff - st.n < i / (st.out.length + 1)
      · rw [if_pos hsmall] at h
        cases h
        exact ⟨Or.inr rfl, fun capacity e he hbias => by rw [hnext capacity e he hbias, if_pos hsmall]⟩
      · rw [if_neg hsmall] at h
        split at h
        · rename_i hvalid
          cases h
          exact ⟨Or.inr rfl, fun capacity e he hbias => by
            rw [hnext capacity e he hbias, if_neg hsmall, if_pos hvalid]⟩
        · rename_i hvalid
          have hgood := (isValidChar_iff _).mp (by simpa using hvalid)
          rw [hi] at hgood h hnext hvalid hsmall
          have hx := Utf16.toNat_char _ hgood
          rw [← hx] at h
          obtain ⟨hcode, hsame⟩ := decodeLoop_error h (hd.count ▸ hd.insert hx _)
          refine ⟨hcode, fun capacity e he hbias => ?_⟩
          rw [hnext capacity e he hbias, if_neg hsmall, if_neg hvalid, ← hx]
          exact hsame capacity _ (he.count ▸ he.insert hx _)
            (by rw [insertCodePoint_bias, insertCodePoint_bias])
termination_by src.length

/-- The deltas of a short text are all read. -/
theorem decodeLoop_complete {src : WString} {d : Decoder} {st : State} {chars : List Char}
    {ds : List Nat} (hsrc : Digits src (scheme.write basic d.bias st.out.length ds))
    (hd : Decoded destCapacity d st chars) (hs : Started basic st) (hbias : d.bias ≤ 179)
    (hlen : st.out.length + ds.length ≤ MAX_CP_COUNT)
    (hvalid : ∀ c ∈ (st.insertAll ds).out, c.isValidChar) :
    ∃ d' chars', decodeLoop destCapacity src d = .ok d' ∧
      Decoded destCapacity d' (st.insertAll ds) chars' := by
  induction ds generalizing src d st chars with
  | nil =>
    have hnil : src = [] := List.map_eq_nil_iff.mp hsrc
    exact ⟨d, chars, by rw [decodeLoop, if_pos hnil], hd⟩
  | cons delta ds ih =>
    rw [Scheme.write, Digits, List.map_append] at hsrc
    obtain ⟨s, rest, rfl, hdigits, hrest⟩ := List.map_eq_append_iff.mp hsrc
    rw [List.length_cons] at hlen
    have hmem := State.mem_insertAll (st.mem_insert delta) ds
    have hn := hvalid _ hmem
    have hnle : st.n + (st.i + delta) / (st.out.length + 1) ≤ 0x10ffff := by
      rw [Nat.isValidChar] at hn
      omega
    have hlimit : st.i + delta ≤ deltaLimit := by
      have hcut := Nat.div_add_mod (st.i + delta) (st.out.length + 1)
      have hmod : (st.i + delta) % (st.out.length + 1) < st.out.length + 1 :=
        Nat.mod_lt _ (Nat.succ_pos _)
      have hmul : (st.out.length + 1) * ((st.i + delta) / (st.out.length + 1) + 1) ≤
          MAX_CP_COUNT * 0x110000 := Nat.mul_le_mul (by omega) (by omega)
      have hsum : (st.out.length + 1) * ((st.i + delta) / (st.out.length + 1) + 1) =
          (st.out.length + 1) * ((st.i + delta) / (st.out.length + 1)) + (st.out.length + 1) := by
        ring
      simp only [deltaLimit, MAX_CP_COUNT] at hmul ⊢
      omega
    have hread := readDelta_complete hbias rest hdigits (i := st.i) (w := 1) (j := 0) (by rfl)
      Nat.one_pos (Nat.le_refl _) (by rw [Nat.mul_one]; exact hlimit)
    rw [Nat.mul_one] at hread
    have hx := Utf16.toNat_char _ hn
    have hne : s ++ rest ≠ [] := by
      intro hnil
      rw [hnil] at hread
      cases hread
    have hstep := hs.nextBias delta
    have hsmall : ¬ 0x7fffffff - st.n < (st.i + delta) / (st.out.length + 1) := by omega
    have hgood := (isValidChar_iff _).mpr hn
    have hbias' : scheme.nextBias basic st.out.length delta ≤ 179 := by
      refine adaptBias_le ?_ _
      have hlimit' : deltaLimit = 222822400 := rfl
      omega
    have hinsert := hd.insert hx (scheme.nextBias basic st.out.length delta)
    obtain ⟨d', chars', hloop, hd'⟩ := ih (d := insertCodePoint destCapacity
        { d with
          n := (Char.ofNat (st.n + (st.i + delta) / (st.out.length + 1))).toNat
          i := (st.i + delta) % (st.out.length + 1)
          bias := scheme.nextBias basic st.out.length delta
          destCPCount := d.destCPCount + 1 })
      (by rw [State.length_insert, insertCodePoint_bias]; exact hrest) hinsert (hs.insert delta)
      (by rw [insertCodePoint_bias]; exact hbias') (by rw [State.length_insert]; omega) hvalid
    refine ⟨d', chars', ?_, hd'⟩
    rw [decodeLoop, if_neg hne]
    split
    · rename_i code herror
      rw [hd.i] at herror
      cases herror.symm.trans hread
    · rename_i i rest' hok
      rw [hd.i] at hok
      cases hok.symm.trans hread
      simp only [hd.n, hd.i, hd.count, hsmall, if_false, hgood, Bool.false_eq_true, hstep]
      rw [hx, hd.count] at hloop
      exact hloop

end

end SearchAndIdna.Punycode
