import SearchAndIdna.Punycode.Digits

/-!
# The Punycode encoder

`u_strToPunycode` without case flags, as all its callers call it: the basic code
points of the source, a delimiter behind them if there are any, and the deltas of
the others.

* `encoding`: the Punycode of a text;
* `encodeLoop_eq`: the main loop writes it, and its guard against overflow never
  stops it;
* `u_strToPunycode_eq`: what the function returns for every text it can encode;
* `u_strToPunycode_fails`: and for every other one.
-/

namespace SearchAndIdna.Punycode

open Uts46 Bootstring

/-! ## The code -/

/-- What is written to `dest`, and `destLength`. -/
structure Dest where
  written : WString
  length : Nat

/-- `if(destLength<destCapacity) dest[destLength]=c; ++destLength;` -/
def Dest.put (destCapacity : Nat) (dest : Dest) (c : WChar) : Dest :=
  { written := if dest.length < destCapacity then dest.written ++ [c] else dest.written
    length := dest.length + 1 }

/-- The main loop's variables but for `n`. -/
structure Encoder where
  delta : Nat
  bias : Nat
  handledCPCount : Nat
  dest : Dest

section

variable (destCapacity : Nat)

/-- The loop over the source: `cpBuffer`, with 0 for a basic code point. -/
def readSource : (src : WString) → (cpBuffer : List Nat) → Dest →
    Except UErrorCode (List Nat × Dest)
  | [], cpBuffer, dest => .ok (cpBuffer, dest)
  | c :: src, cpBuffer, dest =>
    if cpBuffer.length = MAX_CP_COUNT then .error U_INDEX_OUTOFBOUNDS_ERROR
    else if IS_BASIC c then readSource src (cpBuffer ++ [0]) (dest.put destCapacity c)
    else if Utf16.isHigh c then
      match src with
      | [] => .error U_INVALID_CHAR_FOUND
      | c2 :: rest =>
        if Utf16.isLow c2 then
          readSource rest (cpBuffer ++ [(U16_GET_SUPPLEMENTARY c c2).toNat]) dest
        else .error U_INVALID_CHAR_FOUND
    else if Utf16.isLow c then .error U_INVALID_CHAR_FOUND
    else readSource src (cpBuffer ++ [c.toNat]) dest

/-- `delta` as a generalized variable-length integer. -/
def putDelta (bias k q : Nat) (dest : Dest) : Dest :=
  let t := threshold bias k
  if q < t then dest.put destCapacity (digitToBasic q)
  else
    putDelta bias (k + BASE) ((q - t) / (BASE - t))
      (dest.put destCapacity (digitToBasic (t + (q - t) % (BASE - t))))
termination_by q
decreasing_by
  have hpos := threshold_pos bias k
  have hle := Nat.div_le_self (q - threshold bias k) (BASE - threshold bias k)
  omega

/-- The body of the inner loop, for one entry of `cpBuffer`. -/
def encodeOne (basicLength n : Nat) (e : Encoder) (q : Nat) : Encoder :=
  if q < n then { e with delta := e.delta + 1 }
  else if q = n then
    { delta := 0
      bias := adaptBias e.delta (e.handledCPCount + 1) (e.handledCPCount == basicLength)
      handledCPCount := e.handledCPCount + 1
      dest := putDelta destCapacity e.bias BASE e.delta e.dest }
  else e

/-- `m`: the next code point, from `n` on. -/
def nextCodePoint (cpBuffer : List Nat) (n : Nat) : Nat :=
  cpBuffer.foldl (fun m q => if n ≤ q ∧ q < m then q else m) 0x7fffffff

/-- The main encoding loop. -/
def encodeLoop (cpBuffer : List Nat) (basicLength n : Nat) (e : Encoder) :
    Except UErrorCode Encoder :=
  if e.handledCPCount < cpBuffer.length then
    let m := nextCodePoint cpBuffer n
    if m < n then
      -- n has passed the largest int32_t, which it never does.
      .error U_INTERNAL_PROGRAM_ERROR
    else if Int.tdiv (0x7fffffff - MAX_CP_COUNT - e.delta) (e.handledCPCount + 1) < m - n then
      .error U_INTERNAL_PROGRAM_ERROR
    else
      let e := cpBuffer.foldl (encodeOne destCapacity basicLength m)
        { e with delta := e.delta + (m - n) * (e.handledCPCount + 1) }
      encodeLoop cpBuffer basicLength (m + 1) { e with delta := e.delta + 1 }
  else .ok e
termination_by 0x80000000 - n
decreasing_by
  have hle : nextCodePoint cpBuffer n ≤ 0x7fffffff := by
    have hfold : ∀ (l : List Nat) (m : Nat),
        l.foldl (fun m q => if n ≤ q ∧ q < m then q else m) m ≤ m := by
      intro l
      induction l with
      | nil => exact fun m => Nat.le_refl m
      | cons q l ih =>
        intro m
        rw [List.foldl_cons]
        refine Nat.le_trans (ih _) ?_
        split <;> omega
    exact hfold cpBuffer _
  omega

end

/-- On an error, what is in the buffer is not looked at. -/
def u_strToPunycode (src : WString) (destCapacity : Nat) (errorCode : UErrorCode) :
    PunycodeResult :=
  if U_FAILURE errorCode then ⟨[], 0, errorCode⟩
  else
    match readSource destCapacity src [] ⟨[], 0⟩ with
    | .error code => ⟨[], 0, code⟩
    | .ok (cpBuffer, dest) =>
      let basicLength := dest.length
      let dest := if 0 < basicLength then dest.put destCapacity DELIMITER else dest
      match encodeLoop destCapacity cpBuffer basicLength INITIAL_N
        ⟨0, INITIAL_BIAS, basicLength, dest⟩ with
      | .error code => ⟨[], 0, code⟩
      | .ok e => u_terminateUChars e.dest.written destCapacity e.dest.length errorCode

/-! ## What it writes -/

/-- The basic code points, with a delimiter behind them if there are any. -/
def basicPart (basics : WString) : WString := if basics = [] then [] else basics ++ [DELIMITER]

/-- The digits behind the basic code points. -/
def digitPart (cps : List Nat) : WString :=
  let basicLength := (cps.filter (· < INITIAL_N)).length
  (scheme.write basicLength INITIAL_BIAS basicLength
    (passes cps INITIAL_N 0 basicLength)).map digitToBasic

/-- The Punycode of the code points. -/
def encoding (cps : List Nat) : WString :=
  basicPart ((cps.filter (· < INITIAL_N)).map UInt16.ofNat) ++ digitPart cps

/-! ## The output buffer -/

/-- `dest` when `out` was put into it. -/
def Dest.of (destCapacity : Nat) (out : WString) : Dest := ⟨out.take destCapacity, out.length⟩

section

variable {destCapacity : Nat}

theorem Dest.put_of (out : WString) (c : WChar) :
    (Dest.of destCapacity out).put destCapacity c = Dest.of destCapacity (out ++ [c]) := by
  rw [put, of, of, List.length_append, List.length_singleton]
  simp only
  split
  · rename_i h
    rw [List.take_of_length_le (Nat.le_of_lt h), List.take_of_length_le (by simp; omega)]
  · rename_i h
    rw [List.take_append_of_le_length (by omega)]

/-- The digits of the scheme. -/
theorem putDelta_of (bias k q : Nat) (out : WString) :
    putDelta destCapacity bias k q (Dest.of destCapacity out) =
      Dest.of destCapacity (out ++ (scheme.digits bias k q).map digitToBasic) := by
  induction q using Nat.strongRecOn generalizing k out with
  | ind q ih =>
    by_cases hlt : q < threshold bias k
    · have hdigits : scheme.digits bias k q = [q] := Scheme.digits_of_lt hlt
      rw [putDelta, if_pos hlt, hdigits, Dest.put_of, List.map_singleton]
    · have hle : threshold bias k ≤ q := Nat.not_lt.mp hlt
      have hdigits : scheme.digits bias k q =
          (threshold bias k + (q - threshold bias k) % (BASE - threshold bias k)) ::
            scheme.digits bias (k + BASE) ((q - threshold bias k) / (BASE - threshold bias k)) :=
        Scheme.digits_of_le hle
      have hsmaller : (q - threshold bias k) / (BASE - threshold bias k) < q := by
        have hpos := threshold_pos bias k
        have := Nat.div_le_self (q - threshold bias k) (BASE - threshold bias k)
        omega
      rw [putDelta, if_neg hlt, Dest.put_of, ih _ hsmaller, hdigits, List.map_cons,
        List.append_assoc, List.singleton_append]

/-! ## A pass -/

/-- The inner loop is a pass of the scheme. -/
theorem encodeOne_foldl (basicLength n : Nat) (cps : List Nat) (delta bias handled : Nat)
    (out : WString) :
    cps.foldl (encodeOne destCapacity basicLength n)
        ⟨delta, bias, handled, Dest.of destCapacity out⟩ =
      { delta := (scan n delta cps).2
        bias := scheme.biasAfter basicLength bias handled (scan n delta cps).1
        handledCPCount := handled + (scan n delta cps).1.length
        dest := Dest.of destCapacity (out ++
          (scheme.write basicLength bias handled (scan n delta cps).1).map digitToBasic) } := by
  induction cps generalizing delta bias handled out with
  | nil => simp [scan, Scheme.biasAfter, Scheme.write]
  | cons q cps ih =>
    rw [List.foldl_cons, encodeOne, scan]
    split
    · rw [ih]
    · split
      · rw [putDelta_of, ih]
        have hcount : handled + 1 + (scan n 0 cps).1.length =
            handled + ((scan n 0 cps).1.length + 1) := by omega
        simp only [Scheme.biasAfter, Scheme.write, List.length_cons, List.map_append,
          List.append_assoc, hcount]
        rfl
      · rw [ih]

theorem nextCodePoint_eq {cps : List Nat} {n m : Nat} (hm : m ∈ cps) (hn : n ≤ m)
    (hnext : ∀ c ∈ cps, n ≤ c → m ≤ c) (hlt : m < 0x7fffffff) : nextCodePoint cps n = m := by
  have hfold : ∀ (l : List Nat) (acc : Nat), m ≤ acc → (∀ c ∈ l, n ≤ c → m ≤ c) →
      (acc = m ∨ m ∈ l) → l.foldl (fun m q => if n ≤ q ∧ q < m then q else m) acc = m := by
    intro l
    induction l with
    | nil =>
      intro acc _ _ hmem
      exact hmem.resolve_right List.not_mem_nil
    | cons q l ih =>
      intro acc hacc hmin hmem
      have hq := hmin q List.mem_cons_self
      rw [List.foldl_cons]
      refine ih _ ?_ (fun c hc => hmin c (List.mem_cons_of_mem _ hc)) ?_
      · split
        · rename_i h
          exact hq h.1
        · exact hacc
      · rw [List.mem_cons] at hmem
        rcases hmem with rfl | rfl | hmem
        · left
          rw [if_neg (by omega)]
        · left
          split <;> omega
        · exact Or.inr hmem
  exact hfold cps _ (Nat.le_of_lt hlt) hnext (Or.inr hm)

/-! ## The main loop -/

/-- The guard against overflow lets every pass through. -/
theorem guard_passes {delta count m n : Nat} (hdelta : delta ≤ MAX_CP_COUNT + 1)
    (hcount : count < MAX_CP_COUNT) (hm : m ≤ 0x10ffff) (hn : n ≤ m) :
    ¬ Int.tdiv (0x7fffffff - MAX_CP_COUNT - delta) (count + 1) < (m - n : Int) := by
  have hpos : (0 : Int) < count + 1 := by omega
  have hnum : (0 : Int) ≤ 0x7fffffff - MAX_CP_COUNT - delta := by
    simp only [MAX_CP_COUNT] at hdelta ⊢
    omega
  rw [Int.tdiv_eq_ediv_of_nonneg hnum, Int.not_lt, Int.le_ediv_iff_mul_le hpos]
  have hmul : (m - n) * (count + 1) ≤ 0x10ffff * MAX_CP_COUNT :=
    Nat.mul_le_mul (by omega) hcount
  have hcast : ((m - n : Nat) : Int) = (m - n : Int) := by omega
  simp only [MAX_CP_COUNT] at hdelta hmul ⊢
  rw [← hcast]
  have hint : ((m - n : Nat) : Int) * ((count : Int) + 1) = ((m - n) * (count + 1) : Nat) := by
    push_cast
    rfl
  rw [hint]
  omega

/-- **The main loop** writes the deltas of all code points from `n` on. -/
theorem encodeLoop_eq (destCapacity : Nat) {cps : List Nat} (hcps : ∀ c ∈ cps, c ≤ 0x10ffff)
    (hlen : cps.length ≤ MAX_CP_COUNT) (basicLength n : Nat) {delta : Nat}
    (hdelta : delta ≤ MAX_CP_COUNT + 1) (bias : Nat) (out : WString) :
    ∃ e, encodeLoop destCapacity cps basicLength n
        ⟨delta, bias, (cps.filter (· < n)).length, Dest.of destCapacity out⟩ = .ok e ∧
      e.dest = Dest.of destCapacity (out ++
        (scheme.write basicLength bias (cps.filter (· < n)).length
          (passes cps n delta (cps.filter (· < n)).length)).map digitToBasic) := by
  by_cases hnext : ∃ c ∈ cps, n ≤ c
  · obtain ⟨m, hm, hnm, hmin⟩ := exists_next hnext
    have hmax := hcps m hm
    have hsame : cps.filter (· < n) = cps.filter (· < m) := by
      refine List.filter_congr fun c hc => ?_
      have := hmin c hc
      simp only [decide_eq_decide]
      omega
    have hlt : (cps.filter (· < n)).length < cps.length := by
      rw [List.length_filter_lt_length_iff_exists]
      exact ⟨m, hm, by simpa using hnm⟩
    have hguard := guard_passes hdelta (Nat.lt_of_lt_of_le hlt hlen) hmax hnm
    rw [encodeLoop, if_pos hlt, nextCodePoint_eq hm hnm hmin (by omega), if_neg (by omega)]
    simp only
    rw [if_neg hguard, encodeOne_foldl, passes_of_next hnm hm hmin]
    have hcount := length_filter_scan m
      (delta + (m - n) * ((cps.filter (· < n)).length + 1)) cps
    have hsnd := scan_snd_le hm (delta + (m - n) * ((cps.filter (· < n)).length + 1))
    rw [← hsame] at hcount
    generalize scan m (delta + (m - n) * ((cps.filter (· < n)).length + 1)) cps = r at hcount hsnd ⊢
    simp only [hcount]
    obtain ⟨e, he, hdest⟩ := encodeLoop_eq destCapacity hcps hlen basicLength (m + 1)
      (Nat.succ_le_succ (Nat.le_trans hsnd hlen))
      (scheme.biasAfter basicLength bias (cps.filter (· < n)).length r.1)
      (out ++ (scheme.write basicLength bias (cps.filter (· < n)).length r.1).map digitToBasic)
    refine ⟨e, he, ?_⟩
    rw [hdest, Scheme.write_append, hcount, List.map_append, List.append_assoc]
  · have hall : ∀ c ∈ cps, c < n := fun c hc =>
      Nat.lt_of_not_le fun hle => hnext ⟨c, hc, hle⟩
    have hfull : cps.filter (· < n) = cps :=
      List.filter_eq_self.mpr fun c hc => decide_eq_true (hall c hc)
    rw [hfull, encodeLoop, if_neg (Nat.lt_irrefl _), passes_of_lt hall]
    exact ⟨_, rfl, by simp [Scheme.write]⟩
termination_by (cps.filter (n ≤ ·)).length
decreasing_by exact length_filter_succ_lt hnm hm

/-! ## The source -/

/-- What `cpBuffer` holds of a code point. -/
def cpEntry (c : Nat) : Nat := if c < INITIAL_N then 0 else c

theorem toNat_supplementary {u v : WChar} (hu : Utf16.isHigh u = true)
    (hv : Utf16.isLow v = true) :
    (U16_GET_SUPPLEMENTARY u v).toNat = (Utf16.pairChar u v).toNat := by
  simp only [Utf16.isHigh, Utf16.isLow, Bool.and_eq_true, decide_eq_true_eq] at hu hv
  have hvalid : (0x10000 + (u.toNat - 0xd800) * 0x400 + (v.toNat - 0xdc00)).isValidChar := by
    rw [Nat.isValidChar]
    omega
  rw [Utf16.pairChar, Utf16.toNat_char _ hvalid, U16_GET_SUPPLEMENTARY]
  omega

theorem toNat_pairChar_le {u v : WChar} (hu : Utf16.isHigh u = true)
    (hv : Utf16.isLow v = true) : 0x10000 ≤ (Utf16.pairChar u v).toNat := by
  simp only [Utf16.isHigh, Utf16.isLow, Bool.and_eq_true, decide_eq_true_eq] at hu hv
  have hvalid : (0x10000 + (u.toNat - 0xd800) * 0x400 + (v.toNat - 0xdc00)).isValidChar := by
    rw [Nat.isValidChar]
    omega
  rw [Utf16.pairChar, Utf16.toNat_char _ hvalid]
  omega

theorem toNat_unit {u : WChar} (hh : Utf16.isHigh u = false) (hl : Utf16.isLow u = false) :
    (Char.ofNat u.toNat).toNat = u.toNat := by
  have hlt := u.toNat_lt
  simp only [Utf16.isHigh, Utf16.isLow, Bool.and_eq_false_iff, decide_eq_false_iff_not] at hh hl
  refine Utf16.toNat_char _ ?_
  rw [Nat.isValidChar]
  omega

theorem not_basic_of_surrogate {u : WChar} (h : 0xd800 ≤ u.toNat) : IS_BASIC u = false := by
  refine decide_eq_false ?_
  rw [UInt16.lt_iff_toNat_lt]
  show ¬ u.toNat < 0x80
  omega

/-- The loop over the source takes up to 200 code points, and no unpaired surrogate. -/
def Reads (destCapacity : Nat) (src : WString) (cpBuffer : List Nat) (out : WString) : Prop :=
  match Utf16.decode src with
  | some chars =>
    readSource destCapacity src cpBuffer (Dest.of destCapacity out) =
      if cpBuffer.length + chars.length ≤ MAX_CP_COUNT then
        .ok (cpBuffer ++ (chars.map Char.toNat).map cpEntry, Dest.of destCapacity
          (out ++ ((chars.map Char.toNat).filter (· < INITIAL_N)).map UInt16.ofNat))
      else .error U_INDEX_OUTOFBOUNDS_ERROR
  | none => ∃ code, (code = U_INDEX_OUTOFBOUNDS_ERROR ∨ code = U_INVALID_CHAR_FOUND) ∧
      readSource destCapacity src cpBuffer (Dest.of destCapacity out) = .error code

/-- With the buffer full, any further unit is an error. -/
theorem readSource_full {cpBuffer : List Nat} (h : cpBuffer.length = MAX_CP_COUNT) (u : WChar)
    (s : WString) (dest : Dest) :
    readSource destCapacity (u :: s) cpBuffer dest = .error U_INDEX_OUTOFBOUNDS_ERROR := by
  rw [readSource.eq_def]
  simp only [h, if_true]

theorem reads_error {u : WChar} {s : WString} (hdecode : Utf16.decode (u :: s) = none)
    (hstep : ∀ cpBuffer dest, cpBuffer.length ≠ MAX_CP_COUNT →
      readSource destCapacity (u :: s) cpBuffer dest = .error U_INVALID_CHAR_FOUND)
    (cpBuffer : List Nat) (out : WString) : Reads destCapacity (u :: s) cpBuffer out := by
  rw [Reads, hdecode]
  by_cases h : cpBuffer.length = MAX_CP_COUNT
  · exact ⟨_, Or.inl rfl, readSource_full h u s _⟩
  · exact ⟨_, Or.inr rfl, hstep _ _ h⟩

/-- One character in front. -/
theorem reads_cons {u : WChar} {s t : WString} {c : Char}
    (hdecode : Utf16.decode (u :: s) = (Utf16.decode t).map (c :: ·))
    (hstep : ∀ cpBuffer out, cpBuffer.length ≠ MAX_CP_COUNT →
      readSource destCapacity (u :: s) cpBuffer (Dest.of destCapacity out) =
        readSource destCapacity t (cpBuffer ++ [cpEntry c.toNat]) (Dest.of destCapacity
          (out ++ if c.toNat < INITIAL_N then [UInt16.ofNat c.toNat] else [])))
    (ih : ∀ cpBuffer out, cpBuffer.length ≤ MAX_CP_COUNT → Reads destCapacity t cpBuffer out)
    {cpBuffer : List Nat} (hbuffer : cpBuffer.length ≤ MAX_CP_COUNT) (out : WString) :
    Reads destCapacity (u :: s) cpBuffer out := by
  rw [Reads, hdecode]
  by_cases h : cpBuffer.length = MAX_CP_COUNT
  · have hfull : readSource destCapacity (u :: s) cpBuffer (Dest.of destCapacity out) =
        .error U_INDEX_OUTOFBOUNDS_ERROR := readSource_full h u s _
    cases hd : Utf16.decode t with
    | none => exact ⟨_, Or.inl rfl, hfull⟩
    | some chars =>
      simp only [Option.map_some]
      rw [hfull, if_neg]
      rw [List.length_cons]
      omega
  · have hroom : (cpBuffer ++ [cpEntry c.toNat]).length ≤ MAX_CP_COUNT := by
      rw [List.length_append, List.length_singleton]
      omega
    have hrest := ih _ (out ++ if c.toNat < INITIAL_N then [UInt16.ofNat c.toNat] else []) hroom
    rw [Reads] at hrest
    rw [hstep _ _ h]
    cases hd : Utf16.decode t with
    | none =>
      rw [hd] at hrest
      exact hrest
    | some chars =>
      rw [hd] at hrest
      simp only [Option.map_some] at hrest ⊢
      rw [hrest]
      by_cases hb : c.toNat < INITIAL_N
      · simp [hb, Nat.add_assoc, Nat.add_comm 1]
      · simp [hb, Nat.add_assoc, Nat.add_comm 1]

theorem reads (src : WString) {cpBuffer : List Nat} (hbuffer : cpBuffer.length ≤ MAX_CP_COUNT)
    (out : WString) : Reads destCapacity src cpBuffer out := by
  induction src using Utf16.decode.induct generalizing cpBuffer out with
  | case1 => simp [Reads, Utf16.decode, readSource, hbuffer]
  | case2 u hu =>
    have hhigh := hu
    simp only [Utf16.isHigh, Bool.and_eq_true, decide_eq_true_eq] at hhigh
    refine reads_error (Utf16.decode_last hu) (fun cpBuffer dest h => ?_) _ _
    rw [readSource.eq_def]
    simp [h, not_basic_of_surrogate hhigh.1, hu]
  | case3 u hu v t hv ih =>
    have hhigh := hu
    simp only [Utf16.isHigh, Bool.and_eq_true, decide_eq_true_eq] at hhigh
    refine reads_cons (Utf16.decode_pair hu hv t) (fun cpBuffer out h => ?_)
      (fun cpBuffer out hle => ih hle out) hbuffer out
    have hge := toNat_pairChar_le hu hv
    have hbig : ¬ (Utf16.pairChar u v).toNat < INITIAL_N := by
      simp only [INITIAL_N]
      omega
    rw [readSource.eq_def]
    simp [h, not_basic_of_surrogate hhigh.1, hu, hv, toNat_supplementary hu hv, cpEntry, hbig]
  | case4 u hu v t hv =>
    have hhigh := hu
    simp only [Utf16.isHigh, Bool.and_eq_true, decide_eq_true_eq] at hhigh
    refine reads_error (Utf16.decode_unpaired hu (by simpa using hv) t) (fun cpBuffer dest h => ?_)
      _ _
    rw [readSource.eq_def]
    simp [h, not_basic_of_surrogate hhigh.1, hu, hv]
  | case5 u s hu hl =>
    have hh : Utf16.isHigh u = false := by simpa using hu
    have hlow := hl
    simp only [Utf16.isLow, Bool.and_eq_true, decide_eq_true_eq] at hlow
    refine reads_error (Utf16.decode_low hh hl s) (fun cpBuffer dest h => ?_) _ _
    rw [readSource.eq_def]
    simp [h, not_basic_of_surrogate (Nat.le_trans (by decide) hlow.1), hh, hl]
  | case6 u s hu hl ih =>
    have hh : Utf16.isHigh u = false := by simpa using hu
    have hl : Utf16.isLow u = false := by simpa using hl
    refine reads_cons (Utf16.decode_unit hh hl s) (fun cpBuffer out h => ?_)
      (fun cpBuffer out hle => ih hle out) hbuffer out
    rw [readSource.eq_def, toNat_unit hh hl]
    by_cases hb : u.toNat < INITIAL_N
    · have hbasic : IS_BASIC u = true := decide_eq_true (UInt16.lt_iff_toNat_lt.mpr hb)
      simp [h, hbasic, hb, cpEntry, Dest.put_of]
    · have hbasic : IS_BASIC u = false :=
        decide_eq_false fun hlt => hb (UInt16.lt_iff_toNat_lt.mp hlt)
      simp [h, hbasic, hb, cpEntry, hh, hl]

/-! ## The whole function -/

theorem length_basics (cps : List Nat) :
    ((cps.map cpEntry).filter (· < INITIAL_N)).length = (cps.filter (· < INITIAL_N)).length := by
  rw [List.filter_map, List.length_map]
  congr 1
  refine List.filter_congr fun c _ => ?_
  rw [Function.comp, cpEntry]
  split
  · rename_i h
    exact (decide_eq_true (by decide)).trans (decide_eq_true h).symm
  · rfl

theorem passes_cpEntry (cps : List Nat) (delta count : Nat) :
    passes (cps.map cpEntry) INITIAL_N delta count = passes cps INITIAL_N delta count := by
  refine passes_map (fun c hc => ?_) (fun c hc => ?_) (Nat.le_refl INITIAL_N) _ _ _
  · rw [cpEntry, if_pos hc]
    decide
  · exact if_neg (Nat.not_lt.mpr hc)

theorem cpEntry_le {chars : List Char} {c : Nat} (h : c ∈ (chars.map Char.toNat).map cpEntry) :
    c ≤ 0x10ffff := by
  obtain ⟨d, hd, rfl⟩ := List.mem_map.mp h
  obtain ⟨x, -, rfl⟩ := List.mem_map.mp hd
  have hx : x.toNat.isValidChar := x.valid
  rw [Nat.isValidChar] at hx
  rw [cpEntry]
  split <;> omega

/-- **What the encoder returns** for a text of up to 200 characters, with any capacity. -/
theorem u_strToPunycode_eq {src : WString} {chars : List Char}
    (hdecode : Utf16.decode src = some chars) (hlen : chars.length ≤ MAX_CP_COUNT)
    (destCapacity : Nat) {errorCode : UErrorCode} (hcode : U_FAILURE errorCode = false) :
    u_strToPunycode src destCapacity errorCode =
      u_terminateUChars ((encoding (chars.map Char.toNat)).take destCapacity) destCapacity
        (encoding (chars.map Char.toNat)).length errorCode := by
  have hread : Reads destCapacity src [] [] := reads src (Nat.zero_le _) []
  rw [Reads, hdecode] at hread
  simp only [List.length_nil, Nat.zero_add, List.nil_append, if_pos hlen] at hread
  generalize hcps : chars.map Char.toNat = cps at hread ⊢
  have hmax : ∀ c ∈ cps.map cpEntry, c ≤ 0x10ffff := fun c hc => cpEntry_le (hcps ▸ hc)
  have hcount : (cps.map cpEntry).length ≤ MAX_CP_COUNT := by
    rw [← hcps, List.length_map, List.length_map]
    exact hlen
  have hempty : (⟨[], 0⟩ : Dest) = Dest.of destCapacity [] := by simp [Dest.of]
  have hbasic : (Dest.of destCapacity ((cps.filter (· < INITIAL_N)).map UInt16.ofNat)).length =
      (cps.filter (· < INITIAL_N)).length := List.length_map ..
  have hdelimiter : (if 0 < (cps.filter (· < INITIAL_N)).length then
      (Dest.of destCapacity ((cps.filter (· < INITIAL_N)).map UInt16.ofNat)).put destCapacity
        DELIMITER
      else Dest.of destCapacity ((cps.filter (· < INITIAL_N)).map UInt16.ofNat)) =
        Dest.of destCapacity (basicPart ((cps.filter (· < INITIAL_N)).map UInt16.ofNat)) := by
    rw [basicPart]
    by_cases hnil : cps.filter (· < INITIAL_N) = []
    · simp [hnil]
    · rw [if_pos (List.length_pos_iff.mpr hnil), if_neg (by simpa using hnil), Dest.put_of]
  obtain ⟨e, he, hdest⟩ := encodeLoop_eq destCapacity hmax hcount (cps.filter (· < INITIAL_N)).length
    INITIAL_N (Nat.zero_le _) INITIAL_BIAS
    (basicPart ((cps.filter (· < INITIAL_N)).map UInt16.ofNat))
  rw [length_basics, passes_cpEntry] at hdest
  rw [length_basics] at he
  rw [u_strToPunycode, hcode, if_neg Bool.false_ne_true, hempty, hread]
  simp only [hbasic, hdelimiter, he, hdest]
  rfl

/-- Whether the loop over the source fails does not depend on the buffer. -/
theorem readSource_error {src : WString} {cpBuffer : List Nat} {dest : Dest} {code : UErrorCode}
    (h : readSource destCapacity src cpBuffer dest = .error code) (capacity : Nat)
    (dest' : Dest) : readSource capacity src cpBuffer dest' = .error code := by
  fun_induction readSource destCapacity src cpBuffer dest generalizing dest' with
  | case1 => cases h
  | case2 c src cpBuffer dest hfull =>
    cases h
    exact readSource_full hfull c src dest'
  | case3 c src cpBuffer dest hfull hbasic ih =>
    rw [readSource.eq_def]
    simp only [hfull, hbasic, if_false, if_true]
    exact ih h _
  | case4 c cpBuffer dest hfull hbasic hhigh =>
    cases h
    rw [readSource.eq_def]
    simp [hfull, hbasic, hhigh]
  | case5 c cpBuffer dest hfull hbasic hhigh c2 rest hlow ih =>
    rw [readSource.eq_def]
    simp only [hfull, hbasic, hhigh, hlow, if_false, if_true, Bool.false_eq_true]
    exact ih h _
  | case6 c cpBuffer dest hfull hbasic hhigh c2 rest hlow =>
    cases h
    rw [readSource.eq_def]
    simp [hfull, hbasic, hhigh, hlow]
  | case7 c src cpBuffer dest hfull hbasic hhigh hlow =>
    cases h
    rw [readSource.eq_def]
    simp [hfull, hbasic, hhigh, hlow]
  | case8 c src cpBuffer dest hfull hbasic hhigh hlow ih =>
    rw [readSource.eq_def]
    simp only [hfull, hbasic, hhigh, hlow, if_false, Bool.false_eq_true]
    exact ih h _

/-- Any other text is an error, the same with any capacity, and nothing is returned. -/
theorem u_strToPunycode_fails {src : WString}
    (h : ∀ chars, Utf16.decode src = some chars → MAX_CP_COUNT < chars.length) :
    ∃ code, (code = U_INDEX_OUTOFBOUNDS_ERROR ∨
        code = U_INVALID_CHAR_FOUND ∧ Utf16.decode src = none) ∧
      ∀ destCapacity errorCode, U_FAILURE errorCode = false →
        u_strToPunycode src destCapacity errorCode = ⟨[], 0, code⟩ := by
  have hread : Reads 0 src [] [] := reads src (Nat.zero_le _) []
  have hreturn : ∀ code, readSource 0 src [] (Dest.of 0 []) = .error code →
      ∀ destCapacity errorCode, U_FAILURE errorCode = false →
        u_strToPunycode src destCapacity errorCode = ⟨[], 0, code⟩ := by
    intro code herror destCapacity errorCode hcode
    rw [u_strToPunycode, hcode, if_neg Bool.false_ne_true,
      readSource_error herror destCapacity]
  rw [Reads] at hread
  cases hd : Utf16.decode src with
  | some chars =>
    rw [hd] at hread
    simp only [List.length_nil, Nat.zero_add, if_neg (Nat.not_le.mpr (h chars hd))] at hread
    exact ⟨_, Or.inl rfl, hreturn _ hread⟩
  | none =>
    rw [hd] at hread
    obtain ⟨code, hor, hread⟩ := hread
    exact ⟨code, hor.imp_right fun heq => ⟨heq, rfl⟩, hreturn _ hread⟩

end

end SearchAndIdna.Punycode
