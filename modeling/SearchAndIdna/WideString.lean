import Mathlib

/-!
# Strings of 16-bit units

The part of `std::wstring` (with the 16-bit `wchar_t` of the platform) that the
desktop program uses: `c_str()`, `find`, `find_first_of` and `substr`, and the
order `std::map` sorts its keys by.  A position past the end of the string is an
error (`OutOfRange`) in `substr`, as in the library, and in `find_first_of`,
where the library would quietly answer `npos`.
-/

namespace SearchAndIdna

/-- `wchar_t` and `UChar`: one UTF-16 code unit. -/
abbrev WChar := UInt16

abbrev WString := List WChar

/-- Units compare as unsigned numbers, as `char_traits<wchar_t>` does. -/
instance : LinearOrder WChar where
  le_refl a := UInt16.le_refl a
  le_trans _ _ _ h h' := UInt16.le_trans h h'
  le_antisymm _ _ h h' := UInt16.le_antisymm h h'
  le_total a b := UInt16.le_total a b
  lt_iff_le_not_ge a b := by
    rw [UInt16.lt_iff_toNat_lt, UInt16.le_iff_toNat_le, UInt16.le_iff_toNat_le]
    omega
  toDecidableLE := inferInstance
  toDecidableLT := inferInstance
  toDecidableEq := inferInstance

instance : LawfulBEq WChar := inferInstance

namespace WString

/-- `L'\0'`. -/
def nul : WChar := 0

/-- What a reader of `s.c_str()` sees: the units before the first NUL. -/
def cStr (s : WString) : WString := s.takeWhile (· ≠ nul)

/-- `s.find(pat)`; `none` is `npos`. -/
def find (pat : WString) : WString → Option Nat
  | [] => if pat = [] then some 0 else none
  | c :: s => if pat.isPrefixOf (c :: s) then some 0 else (find pat s).map (· + 1)

/-- A position past the end of a string. -/
structure OutOfRange where
  position : Nat
  length : Nat
  deriving DecidableEq, Repr

/-- `s.find_first_of(c, pos)`; `none` is `npos`. -/
def findFirstOf (s : WString) (c : WChar) (pos : Nat) : Except OutOfRange (Option Nat) :=
  if pos ≤ s.length then .ok (((s.drop pos).findIdx? (· = c)).map (· + pos))
  else .error ⟨pos, s.length⟩

/-- `s.substr(pos, count)`. -/
def substr (s : WString) (pos count : Nat) : Except OutOfRange WString :=
  if pos ≤ s.length then .ok ((s.drop pos).take count) else .error ⟨pos, s.length⟩

/-! ## C strings -/

theorem nul_notMem_cStr (s : WString) : nul ∉ cStr s := by
  intro h
  simpa using List.mem_takeWhile_imp h

theorem cStr_append_nul {s : WString} (h : nul ∉ s) (rest : WString) :
    cStr (s ++ nul :: rest) = s := by
  induction s with
  | nil => rfl
  | cons c s ih =>
    obtain ⟨hc, hs⟩ := not_or.mp (mt List.mem_cons.mpr h)
    simp only [cStr, List.cons_append] at ih ⊢
    rw [List.takeWhile_cons_of_pos (by simpa using Ne.symm hc), ih hs]

theorem cStr_eq_self {s : WString} (h : nul ∉ s) : cStr s = s := by
  refine List.takeWhile_eq_self_iff.mpr fun c hc => ?_
  have hne : c ≠ nul := by
    rintro rfl
    exact h hc
  simpa using hne

/-! ## Searching -/

theorem find_eq_zero_iff (pat s : WString) : find pat s = some 0 ↔ pat <+: s := by
  cases s with
  | nil =>
    by_cases h : pat = []
    · simp [find, h]
    · simp [find, h]
  | cons c s =>
    by_cases h : pat.isPrefixOf (c :: s)
    · simpa [find, h] using List.isPrefixOf_iff_prefix.mp h
    · have h' : ¬ pat <+: c :: s := fun hp => h (List.isPrefixOf_iff_prefix.mpr hp)
      simp [find, h, h']

/-- A one-unit pattern is found where it first occurs. -/
theorem find_singleton (c : WChar) (s : WString) :
    find [c] s = if c ∈ s then some (s.takeWhile (· ≠ c)).length else none := by
  induction s with
  | nil => simp [find]
  | cons d s ih =>
    by_cases h : d = c
    · subst h
      simp [find]
    · have hp : ¬ [c].isPrefixOf (d :: s) := by
        intro hp
        obtain ⟨t, ht⟩ := List.isPrefixOf_iff_prefix.mp hp
        exact h (List.head_eq_of_cons_eq ht).symm
      rw [find, if_neg hp, ih]
      by_cases hm : c ∈ s
      · simp [hm, h, Ne.symm h]
      · simp [hm, Ne.symm h]

theorem findIdx?_of_notMem {s : WString} {c : WChar} (h : c ∉ s) :
    s.findIdx? (· = c) = none := by
  rw [List.findIdx?_eq_none_iff]
  intro d hd
  have hne : d ≠ c := by
    rintro rfl
    exact h hd
  simpa using hne

theorem findIdx?_append_cons {s : WString} {c : WChar} (h : c ∉ s) (rest : WString) :
    (s ++ c :: rest).findIdx? (· = c) = some s.length := by
  rw [List.findIdx?_append, findIdx?_of_notMem h, List.findIdx?_cons]
  simp

end WString

end SearchAndIdna
