import Mathlib

/-!
# Sets of flags in a 32-bit word

`clear m x` is the word `x` without the flags of `m`.

* `clear_or`, `clear_of_disjoint`, `clear_or_of_subset`: clearing what was set;
* `clear_and_of_disjoint`, `or_and_of_disjoint`: what other flags a test sees.
-/

namespace SearchAndIdna.Bits

/-- `x & ~m`. -/
def clear (m x : UInt32) : UInt32 := x &&& ~~~m

theorem ext_of_flags {x y : UInt32}
    (h : ∀ i < 32, x.toBitVec.getLsbD i = y.toBitVec.getLsbD i) : x = y := by
  apply UInt32.toBitVec_inj.mp
  exact BitVec.eq_of_getLsbD_eq h

/-- The flags of `clear m x` are those of `x` that `m` lacks. -/
theorem getLsbD_clear (m x : UInt32) {i : Nat} (hi : i < 32) :
    (clear m x).toBitVec.getLsbD i = (x.toBitVec.getLsbD i && !m.toBitVec.getLsbD i) := by
  simp [clear, hi]

/-- No flag is in both words of an empty intersection. -/
theorem getLsbD_of_and_eq_zero {x y : UInt32} (h : x &&& y = 0) (i : Nat) :
    (x.toBitVec.getLsbD i && y.toBitVec.getLsbD i) = false := by
  have := congrArg (fun z : UInt32 => z.toBitVec.getLsbD i) h
  simpa using this

@[simp]
theorem clear_zero_left (x : UInt32) : clear 0 x = x := by
  apply ext_of_flags
  intro i hi
  simp [getLsbD_clear 0 x hi]

@[simp]
theorem clear_zero_right (m : UInt32) : clear m 0 = 0 := by
  simp [clear]

theorem clear_or (m x y : UInt32) : clear m (x ||| y) = clear m x ||| clear m y := by
  apply ext_of_flags
  intro i hi
  simp only [UInt32.toBitVec_or, BitVec.getLsbD_or, getLsbD_clear _ _ hi]
  exact Bool.and_or_distrib_right _ _ _

/-- Flags outside `m` stay. -/
theorem clear_of_disjoint {m x : UInt32} (h : x &&& m = 0) : clear m x = x := by
  apply ext_of_flags
  intro i hi
  have hm := getLsbD_of_and_eq_zero h i
  rw [getLsbD_clear _ _ hi]
  cases hx : x.toBitVec.getLsbD i with
  | false => rfl
  | true =>
    rw [hx] at hm
    simpa using hm

/-- Flags of `m` are forgotten. -/
theorem clear_or_of_subset {m y : UInt32} (h : clear m y = 0) (x : UInt32) :
    clear m (x ||| y) = clear m x := by
  rw [clear_or, h, UInt32.or_zero]

/-- A test for flags outside `m` sees the same. -/
theorem clear_and_of_disjoint {m k : UInt32} (h : k &&& m = 0) (x : UInt32) :
    clear m x &&& k = x &&& k := by
  have hk : k &&& ~~~m = k := clear_of_disjoint h
  calc clear m x &&& k = x &&& (~~~m &&& k) := by rw [clear, UInt32.and_assoc]
    _ = x &&& k := by rw [UInt32.and_comm (~~~m), hk]

theorem clear_and_self (m x : UInt32) : clear m x &&& m = 0 := by
  apply ext_of_flags
  intro i hi
  rw [UInt32.toBitVec_and, BitVec.getLsbD_and, getLsbD_clear _ _ hi]
  cases hm : m.toBitVec.getLsbD i with
  | false => simp
  | true => simp

theorem or_and (x y k : UInt32) : (x ||| y) &&& k = (x &&& k) ||| (y &&& k) := by
  apply UInt32.toBitVec_inj.mp
  exact BitVec.and_or_distrib_right

/-- Flags outside `k` do not matter to a test of `k`. -/
theorem or_and_of_disjoint {y k : UInt32} (h : y &&& k = 0) (x : UInt32) :
    (x ||| y) &&& k = x &&& k := by
  rw [or_and, h, UInt32.or_zero]

/-- A union has none of the flags of `k` if its parts have none. -/
theorem or_and_eq_zero_iff {x y k : UInt32} :
    (x ||| y) &&& k = 0 ↔ x &&& k = 0 ∧ y &&& k = 0 := by
  rw [or_and, UInt32.or_eq_zero_iff]

/-- A flag that is there is not added. -/
theorem or_of_and_ne_zero {x k : UInt32} {i : Nat}
    (hk : ∀ j < 32, k.toBitVec.getLsbD j = decide (j = i)) (h : x &&& k ≠ 0) : x ||| k = x := by
  have hx : x.toBitVec.getLsbD i = true := by
    by_contra hx
    rw [Bool.not_eq_true] at hx
    refine h (ext_of_flags fun j hj => ?_)
    rw [UInt32.toBitVec_and, BitVec.getLsbD_and, hk j hj]
    by_cases hij : j = i
    · simp [hij, hx]
    · simp [hij]
  refine ext_of_flags fun j hj => ?_
  rw [UInt32.toBitVec_or, BitVec.getLsbD_or, hk j hj]
  by_cases hij : j = i
  · simp [hij, hx]
  · simp [hij]

end SearchAndIdna.Bits
