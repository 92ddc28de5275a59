import Mathlib

/-!
# UTF-16

Characters as 16-bit units: a character below `0x10000` is its own unit, any
other is a high surrogate and a low one.

* `decode_encode`, `encode_of_decode`: decoding and encoding are inverse to each
  other, where decoding succeeds;
* `decode_encode_append`, `decode_append`: decoding text piece by piece;
* `WellFormed.induction`: induction on text that can be decoded, character by
  character.
-/

namespace SearchAndIdna.Utf16

def isHigh (u : UInt16) : Bool := 0xd800 ≤ u.toNat && u.toNat < 0xdc00

def isLow (u : UInt16) : Bool := 0xdc00 ≤ u.toNat && u.toNat < 0xe000

/-- The character of a surrogate pair. -/
def pairChar (u v : UInt16) : Char :=
  Char.ofNat (0x10000 + (u.toNat - 0xd800) * 0x400 + (v.toNat - 0xdc00))

/-- `none` for a surrogate without its partner. -/
def decode : List UInt16 → Option (List Char)
  | [] => some []
  | u :: s =>
    if isHigh u then
      match s with
      | [] => none
      | v :: t => if isLow v then (decode t).map (pairChar u v :: ·) else none
    else if isLow u then none
    else (decode s).map (Char.ofNat u.toNat :: ·)

theorem decode_unit {u : UInt16} (hh : isHigh u = false) (hl : isLow u = false)
    (s : List UInt16) : decode (u :: s) = (decode s).map (Char.ofNat u.toNat :: ·) := by
  rw [decode.eq_def]
  simp [hh, hl]

theorem decode_low {u : UInt16} (hh : isHigh u = false) (hl : isLow u = true)
    (s : List UInt16) : decode (u :: s) = none := by
  rw [decode.eq_def]
  simp [hh, hl]

theorem decode_pair {u v : UInt16} (hu : isHigh u = true) (hv : isLow v = true)
    (s : List UInt16) : decode (u :: v :: s) = (decode s).map (pairChar u v :: ·) := by
  rw [decode.eq_def]
  simp [hu, hv]

theorem decode_unpaired {u v : UInt16} (hu : isHigh u = true) (hv : isLow v = false)
    (s : List UInt16) : decode (u :: v :: s) = none := by
  rw [decode.eq_def]
  simp [hu, hv]

theorem decode_last {u : UInt16} (hu : isHigh u = true) : decode [u] = none := by
  rw [decode.eq_def]
  simp [hu]

def encodeChar (c : Char) : List UInt16 :=
  if c.toNat < 0x10000 then [UInt16.ofNat c.toNat]
  else
    [UInt16.ofNat (0xd800 + (c.toNat - 0x10000) / 0x400),
      UInt16.ofNat (0xdc00 + (c.toNat - 0x10000) % 0x400)]

def encode (s : List Char) : List UInt16 := s.flatMap encodeChar

@[simp] theorem encode_nil : encode [] = [] := rfl

theorem encode_cons (c : Char) (s : List Char) : encode (c :: s) = encodeChar c ++ encode s :=
  List.flatMap_cons

@[simp] theorem encode_append (s t : List Char) : encode (s ++ t) = encode s ++ encode t :=
  List.flatMap_append

theorem toNat_char (n : Nat) (h : n.isValidChar) : (Char.ofNat n).toNat = n := by
  rw [Char.ofNat, dif_pos h]
  rfl

theorem encodeChar_unit {u : UInt16} (hh : isHigh u = false) (hl : isLow u = false) :
    encodeChar (Char.ofNat u.toNat) = [u] := by
  have hlt := u.toNat_lt
  simp only [isHigh, isLow, Bool.and_eq_false_iff, decide_eq_false_iff_not] at hh hl
  have hvalid : u.toNat.isValidChar := by
    rw [Nat.isValidChar]
    omega
  rw [encodeChar, toNat_char _ hvalid, if_pos hlt, UInt16.ofNat_toNat]

theorem encodeChar_pair {u v : UInt16} (hu : isHigh u = true) (hv : isLow v = true) :
    encodeChar (pairChar u v) = [u, v] := by
  simp only [isHigh, isLow, Bool.and_eq_true, decide_eq_true_eq] at hu hv
  have hvalid : (0x10000 + (u.toNat - 0xd800) * 0x400 + (v.toNat - 0xdc00)).isValidChar := by
    rw [Nat.isValidChar]
    omega
  have hbig : ¬ 0x10000 + (u.toNat - 0xd800) * 0x400 + (v.toNat - 0xdc00) < 0x10000 := by omega
  have h₁ : 0xd800 + (0x10000 + (u.toNat - 0xd800) * 0x400 + (v.toNat - 0xdc00) - 0x10000) / 0x400 =
      u.toNat := by omega
  have h₂ : 0xdc00 + (0x10000 + (u.toNat - 0xd800) * 0x400 + (v.toNat - 0xdc00) - 0x10000) % 0x400 =
      v.toNat := by omega
  rw [encodeChar, pairChar, toNat_char _ hvalid, if_neg hbig, h₁, h₂, UInt16.ofNat_toNat,
    UInt16.ofNat_toNat]

/-- A character is a unit that is not the first of a pair, or a pair. -/
theorem encodeChar_cases (c : Char) :
    (∃ u, encodeChar c = [u] ∧ isHigh u = false) ∨
      ∃ u v, encodeChar c = [u, v] ∧ isHigh u = true ∧ isLow v = true := by
  have hvalid : c.toNat.isValidChar := c.valid
  rw [Nat.isValidChar] at hvalid
  rw [encodeChar]
  by_cases hc : c.toNat < 0x10000
  · rw [if_pos hc]
    refine Or.inl ⟨_, rfl, ?_⟩
    rw [isHigh, UInt16.toNat_ofNat', Nat.mod_eq_of_lt hc, Bool.and_eq_false_iff,
      decide_eq_false_iff_not, decide_eq_false_iff_not]
    omega
  · rw [if_neg hc]
    refine Or.inr ⟨_, _, rfl, ?_, ?_⟩
    · rw [isHigh, UInt16.toNat_ofNat', Nat.mod_eq_of_lt (by omega), Bool.and_eq_true,
        decide_eq_true_eq, decide_eq_true_eq]
      omega
    · rw [isLow, UInt16.toNat_ofNat', Nat.mod_eq_of_lt (by omega), Bool.and_eq_true,
        decide_eq_true_eq, decide_eq_true_eq]
      omega

/-- What is decoded encodes to where it came from. -/
theorem encode_of_decode {s : List UInt16} {x : List Char} (h : decode s = some x) :
    encode x = s := by
  induction s using decode.induct generalizing x with
  | case1 =>
    rw [← Option.some.inj h]
    rfl
  | case2 u hu => simp [decode_last hu] at h
  | case3 u hu v t hv ih =>
    rw [decode_pair hu hv] at h
    obtain ⟨y, hy, rfl⟩ := Option.map_eq_some_iff.mp h
    rw [encode_cons, encodeChar_pair hu hv, ih hy]
    rfl
  | case4 u hu v t hv => simp [decode_unpaired hu (by simpa using hv)] at h
  | case5 u s hu hl => simp [decode_low (by simpa using hu) hl] at h
  | case6 u s hu hl ih =>
    have hh : isHigh u = false := by simpa using hu
    have hl : isLow u = false := by simpa using hl
    rw [decode_unit hh hl] at h
    obtain ⟨y, hy, rfl⟩ := Option.map_eq_some_iff.mp h
    rw [encode_cons, encodeChar_unit hh hl, ih hy]
    rfl

/-- A unit below the surrogates stands for its character alone. -/
theorem mem_encode_iff {u : UInt16} (hu : u.toNat < 0xd800) (s : List Char) :
    u ∈ encode s ↔ Char.ofNat u.toNat ∈ s := by
  have hvalid : u.toNat.isValidChar := Or.inl hu
  have hchar : ∀ c : Char, u ∈ encodeChar c ↔ Char.ofNat u.toNat = c := by
    intro c
    have hc : c.toNat.isValidChar := c.valid
    rw [Nat.isValidChar] at hc
    rw [encodeChar]
    split
    · rename_i hsmall
      rw [List.mem_singleton]
      constructor
      · rintro rfl
        rw [UInt16.toNat_ofNat', Nat.mod_eq_of_lt hsmall, Char.ofNat_toNat]
      · rintro rfl
        rw [toNat_char _ hvalid, UInt16.ofNat_toNat]
    · rename_i hbig
      constructor
      · intro hm
        exfalso
        simp only [List.mem_cons, List.not_mem_nil, or_false] at hm
        rcases hm with rfl | rfl
        · rw [UInt16.toNat_ofNat', Nat.mod_eq_of_lt (by omega)] at hu
          omega
        · rw [UInt16.toNat_ofNat', Nat.mod_eq_of_lt (by omega)] at hu
          omega
      · rintro rfl
        rw [toNat_char _ hvalid] at hbig
        omega
  simp only [encode, List.mem_flatMap, hchar]
  constructor
  · rintro ⟨c, hc, rfl⟩
    exact hc
  · exact fun h => ⟨_, h, rfl⟩

/-- Encoded text in front is decoded first. -/
theorem decode_encode_append (x : List Char) (s : List UInt16) :
    decode (encode x ++ s) = (decode s).map (x ++ ·) := by
  induction x with
  | nil => simp
  | cons c x ih =>
    rw [encode_cons, List.append_assoc]
    have hvalid : c.toNat.isValidChar := c.valid
    have hofNat : Char.ofNat c.toNat = c := Char.ofNat_toNat c
    rw [Nat.isValidChar] at hvalid
    by_cases hsmall : c.toNat < 0x10000
    · have hunit : (UInt16.ofNat c.toNat).toNat = c.toNat := by
        rw [UInt16.toNat_ofNat']
        exact Nat.mod_eq_of_lt hsmall
      have hh : isHigh (UInt16.ofNat c.toNat) = false := by
        simp only [isHigh, hunit, Bool.and_eq_false_iff, decide_eq_false_iff_not]
        omega
      have hl : isLow (UInt16.ofNat c.toNat) = false := by
        simp only [isLow, hunit, Bool.and_eq_false_iff, decide_eq_false_iff_not]
        omega
      rw [encodeChar, if_pos hsmall, List.singleton_append, decode_unit hh hl, hunit, hofNat, ih]
      simp [Function.comp_def]
    · have hu : (UInt16.ofNat (0xd800 + (c.toNat - 0x10000) / 0x400)).toNat =
          0xd800 + (c.toNat - 0x10000) / 0x400 := by
        rw [UInt16.toNat_ofNat']
        exact Nat.mod_eq_of_lt (by omega)
      have hv : (UInt16.ofNat (0xdc00 + (c.toNat - 0x10000) % 0x400)).toNat =
          0xdc00 + (c.toNat - 0x10000) % 0x400 := by
        rw [UInt16.toNat_ofNat']
        exact Nat.mod_eq_of_lt (by omega)
      have hh : isHigh (UInt16.ofNat (0xd800 + (c.toNat - 0x10000) / 0x400)) = true := by
        simp only [isHigh, hu, Bool.and_eq_true, decide_eq_true_eq]
        omega
      have hl : isLow (UInt16.ofNat (0xdc00 + (c.toNat - 0x10000) % 0x400)) = true := by
        simp only [isLow, hv, Bool.and_eq_true, decide_eq_true_eq]
        omega
      have hpair : pairChar (UInt16.ofNat (0xd800 + (c.toNat - 0x10000) / 0x400))
          (UInt16.ofNat (0xdc00 + (c.toNat - 0x10000) % 0x400)) = c := by
        have hsum : 0x10000 + (0xd800 + (c.toNat - 0x10000) / 0x400 - 0xd800) * 0x400 +
            (0xdc00 + (c.toNat - 0x10000) % 0x400 - 0xdc00) = c.toNat := by omega
        rw [pairChar, hu, hv, hsum, hofNat]
      rw [encodeChar, if_neg hsmall, List.cons_append, List.cons_append, List.nil_append,
        decode_pair hh hl, hpair, ih]
      simp [Function.comp_def]

theorem decode_encode (x : List Char) : decode (encode x) = some x := by
  have h := decode_encode_append x []
  simpa [decode] using h

/-- Text behind that does not start with a low surrogate is decoded on its own. -/
theorem decode_append (s t : List UInt16) (ht : ∀ v ∈ t.head?, isLow v = false) :
    decode (s ++ t) = (decode s).bind fun x => (decode t).map (x ++ ·) := by
  induction s using decode.induct with
  | case1 => simp [decode]
  | case2 u hu =>
    cases t with
    | nil => simp [decode_last hu]
    | cons v t => simp [decode_last hu, decode_unpaired hu (ht v rfl)]
  | case3 u hu v s hv ih =>
    simp only [List.cons_append, decode_pair hu hv, ih]
    cases decode s <;> cases decode t <;> simp
  | case4 u hu v s hv => simp [decode_unpaired hu (by simpa using hv)]
  | case5 u s hu hl => simp [decode_low (by simpa using hu) hl]
  | case6 u s hu hl ih =>
    simp only [List.cons_append, decode_unit (u := u) (by simpa using hu) (by simpa using hl), ih]
    cases decode s <;> cases decode t <;> simp

/-! ## Well-formed text -/

/-- Every surrogate has its partner. -/
def WellFormed (s : List UInt16) : Prop := (decode s).isSome = true

theorem wellFormed_nil : WellFormed [] := rfl

@[simp] theorem wellFormed_unit {u : UInt16} (hh : isHigh u = false) (hl : isLow u = false)
    {s : List UInt16} : WellFormed (u :: s) ↔ WellFormed s := by
  rw [WellFormed, decode_unit hh hl, Option.isSome_map, WellFormed]

@[simp] theorem wellFormed_pair {u v : UInt16} (hu : isHigh u = true) (hv : isLow v = true)
    {s : List UInt16} : WellFormed (u :: v :: s) ↔ WellFormed s := by
  rw [WellFormed, decode_pair hu hv, Option.isSome_map, WellFormed]

theorem wellFormed_append {s t : List UInt16} (ht : ∀ v ∈ t.head?, isLow v = false) :
    WellFormed (s ++ t) ↔ WellFormed s ∧ WellFormed t := by
  rw [WellFormed, decode_append s t ht, WellFormed, WellFormed]
  cases decode s <;> cases decode t <;> simp

theorem isLow_of_isHigh {u : UInt16} (hu : isHigh u = true) : isLow u = false := by
  simp only [isHigh, Bool.and_eq_true, decide_eq_true_eq] at hu
  simp only [isLow, Bool.and_eq_false_iff, decide_eq_false_iff_not]
  omega

/-- Induction on the characters of well-formed text. -/
theorem WellFormed.induction {motive : (s : List UInt16) → WellFormed s → Prop}
    (nil : motive [] wellFormed_nil)
    (unit : ∀ u s (hh : isHigh u = false) (hl : isLow u = false) (hs : WellFormed s),
      motive s hs → motive (u :: s) ((wellFormed_unit hh hl).mpr hs))
    (pair : ∀ u v s (hu : isHigh u = true) (hv : isLow v = true) (hs : WellFormed s),
      motive s hs → motive (u :: v :: s) ((wellFormed_pair hu hv).mpr hs))
    {s : List UInt16} (h : WellFormed s) : motive s h := by
  induction s using decode.induct with
  | case1 => exact nil
  | case2 u hu => simp [WellFormed, decode_last hu] at h
  | case3 u hu v t hv ih =>
    have ht := (wellFormed_pair hu hv).mp h
    exact pair u v t hu hv ht (ih ht)
  | case4 u hu v t hv => simp [WellFormed, decode_unpaired hu (by simpa using hv)] at h
  | case5 u s hu hl => simp [WellFormed, decode_low (by simpa using hu) hl] at h
  | case6 u s hu hl ih =>
    have hh : isHigh u = false := by simpa using hu
    have hl : isLow u = false := by simpa using hl
    have hs := (wellFormed_unit hh hl).mp h
    exact unit u s hh hl hs (ih hs)

/-- The first unit is not the second of a pair. -/
theorem WellFormed.first {s : List UInt16} (h : WellFormed s) : isLow (s.getD 0 0) = false := by
  induction h using WellFormed.induction with
  | nil => rfl
  | unit u s hh hl hs ih => exact hl
  | pair u v s hu hv hs ih => exact isLow_of_isHigh hu

/-- Behind the first unit of a pair there is the second one, and only there. -/
theorem WellFormed.isHigh_iff {s : List UInt16} (h : WellFormed s) (i : Nat) :
    isHigh (s.getD i 0) = true ↔ isLow (s.getD (i + 1) 0) = true := by
  induction h using WellFormed.induction generalizing i with
  | nil => exact ⟨fun h => absurd h Bool.false_ne_true, fun h => absurd h Bool.false_ne_true⟩
  | unit u s hh hl hs ih =>
    cases i with
    | zero =>
      rw [List.getD_cons_zero, List.getD_cons_succ, hh, hs.first]
    | succ i => exact ih i
  | pair u v s hu hv hs ih =>
    have hv' : isHigh v = false := by
      cases hhigh : isHigh v with
      | false => rfl
      | true => exact absurd ((isLow_of_isHigh hhigh).symm.trans hv) (by decide)
    match i with
    | 0 => simp [hu, hv]
    | 1 =>
      rw [List.getD_cons_succ, List.getD_cons_zero, List.getD_cons_succ, List.getD_cons_succ, hv',
        hs.first]
    | i + 2 => exact ih i

/-- Units that are no surrogates may be replaced. -/
theorem WellFormed.map {f : UInt16 → UInt16} (hhigh : ∀ u, isHigh (f u) = isHigh u)
    (hlow : ∀ u, isLow (f u) = isLow u) {s : List UInt16} (h : WellFormed s) :
    WellFormed (s.map f) := by
  induction h using WellFormed.induction with
  | nil => exact wellFormed_nil
  | unit u s hh hl hs ih =>
    exact (wellFormed_unit ((hhigh u).trans hh) ((hlow u).trans hl)).mpr ih
  | pair u v s hu hv hs ih =>
    exact (wellFormed_pair ((hhigh u).trans hu) ((hlow v).trans hv)).mpr ih

end SearchAndIdna.Utf16
