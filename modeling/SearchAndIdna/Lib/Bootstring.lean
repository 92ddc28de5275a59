import Mathlib

/-!
# Bootstring

A text over the natural numbers is its elements below a bound, and a sequence of
deltas.  A state of the reader is the number to insert next and the place for
it, and a delta is how many states it goes on before it inserts.  The deltas are
written as digits: little-endian, each under a threshold of its own, and a digit
below its threshold ends the number.

* `Scheme.digits_cons`, `Scheme.digits_of_lt`: the digits of a number, one by one;
* `State.insertAll_passes`: the deltas that the passes over a text write lead
  the reader back to the text;
* `State.insertAll_injective`: no other deltas do, so `passes_insertAll`.
-/

namespace SearchAndIdna.Bootstring

/-! ## Numbers as digits -/

/-- The thresholds depend on a bias, which is adapted after every number. -/
structure Scheme where
  base : Nat
  threshold : (bias k : Nat) → Nat
  adapt : (delta count : Nat) → (first : Bool) → Nat
  threshold_pos : ∀ bias k, 0 < threshold bias k
  threshold_lt : ∀ bias k, threshold bias k < base

namespace Scheme

variable (S : Scheme)

/-- The digits of `q`; the `j`-th one has `k = j * S.base`. -/
def digits (bias k q : Nat) : List Nat :=
  let t := S.threshold bias k
  if q < t then [q]
  else (t + (q - t) % (S.base - t)) :: digits bias (k + S.base) ((q - t) / (S.base - t))
termination_by q
decreasing_by
  have hpos := S.threshold_pos bias k
  have hle : (q - S.threshold bias k) / (S.base - S.threshold bias k) ≤ q - S.threshold bias k :=
    Nat.div_le_self _ _
  omega

/-- The bias after a delta, when `count` elements are there already and `basic` were at first. -/
def nextBias (basic count delta : Nat) : Nat := S.adapt delta (count + 1) (count == basic)

/-- The bias after the deltas. -/
def biasAfter (basic : Nat) : (bias count : Nat) → List Nat → Nat
  | bias, _, [] => bias
  | _, count, d :: ds => biasAfter basic (S.nextBias basic count d) (count + 1) ds

/-- The deltas one after the other. -/
def write (basic : Nat) : (bias count : Nat) → List Nat → List Nat
  | _, _, [] => []
  | bias, count, d :: ds =>
    S.digits bias S.base d ++ write basic (S.nextBias basic count d) (count + 1) ds

variable {S} {bias k : Nat}

theorem digits_of_lt {q : Nat} (h : q < S.threshold bias k) : S.digits bias k q = [q] := by
  rw [digits, if_pos h]

theorem digits_of_le {q : Nat} (h : S.threshold bias k ≤ q) :
    S.digits bias k q =
      (S.threshold bias k + (q - S.threshold bias k) % (S.base - S.threshold bias k)) ::
        S.digits bias (k + S.base)
          ((q - S.threshold bias k) / (S.base - S.threshold bias k)) := by
  rw [digits, if_neg (Nat.not_lt.mpr h)]

/-- A digit in front of the digits of another number. -/
theorem digits_cons {d : Nat} (hd : S.threshold bias k ≤ d) (hbase : d < S.base) (q : Nat) :
    S.digits bias k (d + (S.base - S.threshold bias k) * q) =
      d :: S.digits bias (k + S.base) q := by
  have hlt := S.threshold_lt bias k
  rw [digits_of_le (Nat.le_trans hd (Nat.le_add_right _ _))]
  generalize S.threshold bias k = t at *
  have hsub : d + (S.base - t) * q - t = (d - t) + (S.base - t) * q := by omega
  have hsmall : d - t < S.base - t := by omega
  rw [hsub, Nat.add_mul_mod_self_left, Nat.mod_eq_of_lt hsmall,
    Nat.add_mul_div_left _ _ (by omega), Nat.div_eq_of_lt hsmall, Nat.zero_add]
  congr 1
  omega

/-- The first digit and what is left of the number. -/
theorem digits_split {q : Nat} (h : S.threshold bias k ≤ q) :
    ∃ d q', S.threshold bias k ≤ d ∧ d < S.base ∧ q = d + (S.base - S.threshold bias k) * q' ∧
      q' < q ∧ S.digits bias k q = d :: S.digits bias (k + S.base) q' := by
  have hpos := S.threshold_pos bias k
  have hlt := S.threshold_lt bias k
  have hcut := Nat.mod_add_div (q - S.threshold bias k) (S.base - S.threshold bias k)
  have hmod : (q - S.threshold bias k) % (S.base - S.threshold bias k)
      < S.base - S.threshold bias k := Nat.mod_lt _ (by omega)
  have hdiv : (q - S.threshold bias k) / (S.base - S.threshold bias k)
      ≤ q - S.threshold bias k := Nat.div_le_self _ _
  exact ⟨_, _, Nat.le_add_right _ _, by omega, by omega, by omega, digits_of_le h⟩

theorem digits_lt_base {q d : Nat} (h : d ∈ S.digits bias k q) : d < S.base := by
  induction q using Nat.strongRecOn generalizing k with
  | ind q ih =>
    by_cases hq : q < S.threshold bias k
    · rw [digits_of_lt hq, List.mem_singleton] at h
      have hlt := S.threshold_lt bias k
      omega
    · obtain ⟨e, q', _, he, _, hlt, hdigits⟩ := digits_split (Nat.not_lt.mp hq)
      rw [hdigits, List.mem_cons] at h
      cases h with
      | inl hd => exact hd ▸ he
      | inr hd => exact ih q' hlt hd

theorem write_append (basic bias count : Nat) (ds es : List Nat) :
    S.write basic bias count (ds ++ es) =
      S.write basic bias count ds ++
        S.write basic (S.biasAfter basic bias count ds) (count + ds.length) es := by
  induction ds generalizing bias count with
  | nil => rfl
  | cons d ds ih =>
    rw [List.cons_append, write, write, biasAfter, ih, List.append_assoc, List.length_cons,
      Nat.add_assoc, Nat.add_comm 1]

theorem write_lt_base {basic count : Nat} {ds : List Nat} {d : Nat}
    (h : d ∈ S.write basic bias count ds) : d < S.base := by
  induction ds generalizing bias count with
  | nil => exact absurd h List.not_mem_nil
  | cons e ds ih =>
    rw [write, List.mem_append] at h
    cases h with
    | inl hd => exact digits_lt_base hd
    | inr hd => exact ih hd

end Scheme

/-! ## The reader -/

/-- The number to insert next, the place for it, and what is there already. -/
structure State where
  n : Nat
  i : Nat
  out : List Nat
  deriving DecidableEq, Repr

namespace State

/-- Goes on by `delta` states, from the last place to the first one of the next number,
and inserts. -/
def insert (st : State) (delta : Nat) : State :=
  let n := st.n + (st.i + delta) / (st.out.length + 1)
  let i := (st.i + delta) % (st.out.length + 1)
  { n := n, i := i + 1, out := st.out.insertIdx i n }

def insertAll (st : State) (deltas : List Nat) : State := deltas.foldl insert st

@[simp] theorem insertAll_nil (st : State) : st.insertAll [] = st := rfl

@[simp] theorem insertAll_cons (st : State) (d : Nat) (ds : List Nat) :
    st.insertAll (d :: ds) = (st.insert d).insertAll ds := rfl

theorem insertAll_append (st : State) (ds es : List Nat) :
    st.insertAll (ds ++ es) = (st.insertAll ds).insertAll es :=
  List.foldl_append

theorem place_le (st : State) (delta : Nat) :
    (st.i + delta) % (st.out.length + 1) ≤ st.out.length :=
  Nat.le_of_lt_succ (Nat.mod_lt _ (Nat.succ_pos _))

@[simp] theorem length_insert (st : State) (delta : Nat) :
    (st.insert delta).out.length = st.out.length + 1 :=
  List.length_insertIdx_of_le_length (st.place_le delta) _

theorem length_insertAll (st : State) (ds : List Nat) :
    (st.insertAll ds).out.length = st.out.length + ds.length := by
  induction ds generalizing st with
  | nil => rfl
  | cons d ds ih =>
    rw [insertAll_cons, ih, length_insert, List.length_cons]
    omega

/-- `m`, and a place up to the end of the text. -/
theorem insert_eq {st : State} {delta m place : Nat} (hm : st.n ≤ m)
    (hplace : place ≤ st.out.length)
    (h : st.i + delta = (m - st.n) * (st.out.length + 1) + place) :
    st.insert delta = ⟨m, place + 1, st.out.insertIdx place m⟩ := by
  have hlt : place < st.out.length + 1 := Nat.lt_succ_of_le hplace
  have hdiv : (st.i + delta) / (st.out.length + 1) = m - st.n := by
    rw [h, Nat.mul_comm, Nat.mul_add_div (Nat.succ_pos _), Nat.div_eq_of_lt hlt, Nat.add_zero]
  have hmod : (st.i + delta) % (st.out.length + 1) = place := by
    rw [h, Nat.mul_comm, Nat.mul_add_mod, Nat.mod_eq_of_lt hlt]
  have hn : st.n + (m - st.n) = m := by omega
  simp only [insert, hdiv, hmod, hn]

end State

/-! ## The writer -/

/-- A pass for `n`, from the delta on: the deltas written at the elements that are `n`,
and the one at the end. -/
def scan (n : Nat) : (delta : Nat) → List Nat → List Nat × Nat
  | delta, [] => ([], delta)
  | delta, c :: cs =>
    if c < n then scan n (delta + 1) cs
    else if c = n then
      let r := scan n 0 cs
      (delta :: r.1, r.2)
    else scan n delta cs

theorem length_filter_succ_lt {cs : List Nat} {n m : Nat} (hn : n ≤ m) (hm : m ∈ cs) :
    (cs.filter (m + 1 ≤ ·)).length < (cs.filter (n ≤ ·)).length := by
  induction cs with
  | nil => exact absurd hm List.not_mem_nil
  | cons c cs ih =>
    have hle : (cs.filter (m + 1 ≤ ·)).length ≤ (cs.filter (n ≤ ·)).length := by
      refine (List.monotone_filter_right cs fun c hc => ?_).length_le
      simp only [decide_eq_true_eq] at hc ⊢
      omega
    simp only [List.filter_cons, decide_eq_true_eq]
    rw [List.mem_cons] at hm
    rcases hm with rfl | hm
    · rw [if_neg (by omega), if_pos hn, List.length_cons]
      omega
    · have hlt := ih hm
      split
      · rw [if_pos (by omega), List.length_cons, List.length_cons]
        omega
      · split
        · rw [List.length_cons]
          omega
        · exact hlt

theorem exists_next {cs : List Nat} {n : Nat} (h : ∃ c ∈ cs, n ≤ c) :
    ∃ m ∈ cs, n ≤ m ∧ ∀ c ∈ cs, n ≤ c → m ≤ c := by
  obtain ⟨c, hc, hle⟩ := h
  have hc : c ∈ cs.filter (n ≤ ·) := List.mem_filter.mpr ⟨hc, decide_eq_true hle⟩
  obtain ⟨m, hm⟩ := Option.isSome_iff_exists.mp (List.isSome_min?_of_mem hc)
  obtain ⟨hmem, hmin⟩ := List.min?_eq_some_iff.mp hm
  obtain ⟨hmcs, hnm⟩ := List.mem_filter.mp hmem
  exact ⟨m, hmcs, of_decide_eq_true hnm, fun c hc hle =>
    hmin c (List.mem_filter.mpr ⟨hc, decide_eq_true hle⟩)⟩

/-- A pass for every number from `n` on that is in the text, when `count` elements are
handled; `delta` is counted from the last one. -/
def passes (cs : List Nat) (n delta count : Nat) : List Nat :=
  match _h : (cs.filter (n ≤ ·)).min? with
  | none => []
  | some m =>
    let r := scan m (delta + (m - n) * (count + 1)) cs
    r.1 ++ passes cs (m + 1) (r.2 + 1) (count + r.1.length)
termination_by (cs.filter (n ≤ ·)).length
decreasing_by
  have hm := List.mem_filter.mp (List.min?_mem _h)
  exact length_filter_succ_lt (of_decide_eq_true hm.2) hm.1

/-- Nothing is left to write. -/
theorem passes_of_lt {cs : List Nat} {n : Nat} (h : ∀ c ∈ cs, c < n) (delta count : Nat) :
    passes cs n delta count = [] := by
  have hnone : (cs.filter (n ≤ ·)).min? = none := by
    rw [List.min?_eq_none_iff, List.filter_eq_nil_iff]
    intro c hc
    have := h c hc
    simp only [decide_eq_true_eq]
    omega
  rw [passes]
  split
  · rfl
  · rename_i m hm
    exact absurd (hnone.symm.trans hm) (Option.some_ne_none m).symm

/-- The next number that is in the text. -/
theorem passes_of_next {cs : List Nat} {n m : Nat} (hn : n ≤ m) (hm : m ∈ cs)
    (hnext : ∀ c ∈ cs, n ≤ c → m ≤ c) (delta count : Nat) :
    passes cs n delta count =
      (scan m (delta + (m - n) * (count + 1)) cs).1 ++
        passes cs (m + 1) ((scan m (delta + (m - n) * (count + 1)) cs).2 + 1)
          (count + (scan m (delta + (m - n) * (count + 1)) cs).1.length) := by
  have hmin : (cs.filter (n ≤ ·)).min? = some m := by
    rw [List.min?_eq_some_iff]
    refine ⟨List.mem_filter.mpr ⟨hm, decide_eq_true hn⟩, fun c hc => ?_⟩
    have hc := List.mem_filter.mp hc
    exact hnext c hc.1 (of_decide_eq_true hc.2)
  rw [passes]
  split
  · rename_i hnone
    exact absurd (hnone.symm.trans hmin) (Option.some_ne_none m).symm
  · rename_i m' hm'
    cases hm'.symm.trans hmin
    rfl

/-- A pass for `n` handles the elements that are `n`. -/
theorem length_filter_scan (n delta : Nat) (cs : List Nat) :
    (cs.filter (· < n)).length + (scan n delta cs).1.length =
      (cs.filter (· < n + 1)).length := by
  induction cs generalizing delta with
  | nil => rfl
  | cons c cs ih =>
    rcases Nat.lt_trichotomy c n with hc | rfl | hc
    · rw [scan, if_pos hc]
      have := ih (delta + 1)
      simp only [List.filter_cons, hc, Nat.lt_succ_of_lt hc, decide_true, if_true, List.length_cons]
      omega
    · rw [scan, if_neg (Nat.lt_irrefl c), if_pos rfl]
      have := ih 0
      simp only [List.filter_cons, Nat.lt_irrefl, Nat.lt_succ_self, decide_true, decide_false,
        if_true, List.length_cons]
      simp only [Bool.false_eq_true, if_false]
      omega
    · rw [scan, if_neg (by omega), if_neg (by omega)]
      have hn : ¬ c < n := by omega
      have hn' : ¬ c < n + 1 := by omega
      simp only [List.filter_cons, hn, hn', decide_false, Bool.false_eq_true, if_false]
      exact ih delta

theorem scan_snd_le_add (n delta : Nat) (cs : List Nat) :
    (scan n delta cs).2 ≤ delta + cs.length := by
  induction cs generalizing delta with
  | nil => exact Nat.le_refl _
  | cons c cs ih =>
    rw [scan, List.length_cons]
    split
    · have := ih (delta + 1)
      omega
    · split
      · have := ih 0
        simp only
        omega
      · have := ih delta
        omega

/-- The delta is counted from the last `n` on. -/
theorem scan_snd_le {n : Nat} {cs : List Nat} (h : n ∈ cs) (delta : Nat) :
    (scan n delta cs).2 ≤ cs.length := by
  induction cs generalizing delta with
  | nil => exact absurd h List.not_mem_nil
  | cons c cs ih =>
    rw [scan, List.length_cons]
    by_cases hc : c = n
    · rw [if_neg (by omega), if_pos hc]
      have := scan_snd_le_add n 0 cs
      simp only
      omega
    · have hmem : n ∈ cs := (List.mem_cons.mp h).resolve_left fun heq => hc heq.symm
      rw [if_neg hc]
      split
      · have := ih hmem (delta + 1)
        omega
      · have := ih hmem delta
        omega

section

-- Below a bound, the elements may be replaced by others.
variable {f : Nat → Nat} {bound : Nat} (hlow : ∀ c, c < bound → f c < bound)
  (hhigh : ∀ c, bound ≤ c → f c = c)

include hlow hhigh

theorem scan_map {n : Nat} (hn : bound ≤ n) (delta : Nat) (cs : List Nat) :
    scan n delta (cs.map f) = scan n delta cs := by
  induction cs generalizing delta with
  | nil => rfl
  | cons c cs ih =>
    rw [List.map_cons, scan, scan, ih, ih, ih]
    by_cases hc : c < bound
    · have hf := hlow c hc
      rw [if_pos (by omega), if_pos (by omega)]
    · rw [hhigh c (Nat.not_lt.mp hc)]

theorem passes_map {n : Nat} (hn : bound ≤ n) (delta count : Nat) (cs : List Nat) :
    passes (cs.map f) n delta count = passes cs n delta count := by
  by_cases hnext : ∃ m ∈ cs, n ≤ m
  · obtain ⟨m, hm, hnm, hmin⟩ := exists_next hnext
    have hmap : m ∈ cs.map f := List.mem_map.mpr ⟨m, hm, hhigh m (by omega)⟩
    have hminmap : ∀ c ∈ cs.map f, n ≤ c → m ≤ c := by
      intro c hc hle
      obtain ⟨d, hd, rfl⟩ := List.mem_map.mp hc
      by_cases hlt : d < bound
      · have := hlow d hlt
        omega
      · rw [hhigh d (Nat.not_lt.mp hlt)] at hle ⊢
        exact hmin d hd hle
    rw [passes_of_next hnm hmap hminmap, passes_of_next hnm hm hmin,
      scan_map hlow hhigh (Nat.le_trans hn hnm), passes_map (Nat.le_trans hn (by omega))]
  · have hlt : ∀ c ∈ cs, c < n := fun c hc =>
      Nat.lt_of_not_le fun hle => hnext ⟨c, hc, hle⟩
    have hltmap : ∀ c ∈ cs.map f, c < n := by
      intro c hc
      obtain ⟨d, hd, rfl⟩ := List.mem_map.mp hc
      by_cases hb : d < bound
      · have := hlow d hb
        omega
      · rw [hhigh d (Nat.not_lt.mp hb)]
        exact hlt d hd
    rw [passes_of_lt hlt, passes_of_lt hltmap]
termination_by (cs.filter (n ≤ ·)).length
decreasing_by exact length_filter_succ_lt hnm hm

end

/-! ## From the writer to the reader -/

theorem insertIdx_length {α : Type*} (a b : List α) (x : α) :
    (a ++ b).insertIdx a.length x = a ++ x :: b := by
  induction a with
  | nil => rfl
  | cons c a ih => rw [List.cons_append, List.length_cons, List.insertIdx_succ_cons, ih]; rfl

/-- In a pass for `n`, with `done` looked at: there the reader has what is up to `n`, and in
`rest` what is below. -/
theorem insertAll_scan {n : Nat} (done rest : List Nat) (delta : Nat) (st : State)
    (hout : st.out = done.filter (· ≤ n) ++ rest.filter (· < n)) (hn : st.n ≤ n)
    (hplace : st.i + delta =
      (n - st.n) * (st.out.length + 1) + (done.filter (· ≤ n)).length) :
    let st' := st.insertAll (scan n delta rest).1
    st'.out = (done ++ rest).filter (· ≤ n) ∧ st'.n ≤ n ∧
      st'.i + (scan n delta rest).2 = (n - st'.n) * (st'.out.length + 1) + st'.out.length := by
  induction rest generalizing done delta st with
  | nil =>
    rw [List.filter_nil, List.append_nil] at hout
    rw [← hout] at hplace
    rw [List.append_nil]
    exact ⟨hout, hn, hplace⟩
  | cons c rest ih =>
    have hcut : done ++ c :: rest = (done ++ [c]) ++ rest := by simp
    rw [hcut]
    rcases Nat.lt_trichotomy c n with hc | rfl | hc
    · have hdone : (done ++ [c]).filter (· ≤ n) = done.filter (· ≤ n) ++ [c] := by
        simp [List.filter_append, Nat.le_of_lt hc]
      rw [scan, if_pos hc]
      refine ih (done ++ [c]) _ _ ?_ hn ?_
      · rw [hout, hdone]
        simp [hc]
      · rw [hdone, List.length_append, List.length_singleton]
        omega
    · have hdone : (done ++ [c]).filter (· ≤ c) = done.filter (· ≤ c) ++ [c] := by
        simp [List.filter_append]
      have hrest : (c :: rest).filter (· < c) = rest.filter (· < c) := by simp
      rw [hrest] at hout
      have hle : (done.filter (· ≤ c)).length ≤ st.out.length := by
        rw [hout, List.length_append]
        omega
      have hinsert := State.insert_eq hn hle hplace
      rw [scan, if_neg (Nat.lt_irrefl c), if_pos rfl]
      simp only [State.insertAll_cons, hinsert]
      refine ih (done ++ [c]) _ _ ?_ (Nat.le_refl c) ?_
      · rw [hdone, hout, insertIdx_length]
        simp
      · rw [hdone, List.length_append, List.length_singleton, Nat.sub_self, Nat.zero_mul,
          Nat.zero_add]
    · have hdone : (done ++ [c]).filter (· ≤ n) = done.filter (· ≤ n) := by
        simp [List.filter_append, Nat.not_le.mpr hc]
      rw [scan, if_neg (by omega), if_neg (by omega)]
      refine ih (done ++ [c]) _ _ ?_ hn ?_
      · rw [hout, hdone]
        simp [Nat.le_of_lt hc]
      · rw [hdone]
        exact hplace

/-- With all below `n` there, the passes from `n` on lead to the whole text. -/
theorem State.insertAll_passes (cs : List Nat) {n delta : Nat} {st : State}
    (hout : st.out = cs.filter (· < n)) (hn : st.n ≤ n)
    (hplace : st.i + delta = (n - st.n) * (st.out.length + 1)) :
    (st.insertAll (passes cs n delta st.out.length)).out = cs := by
  by_cases hnext : ∃ m ∈ cs, n ≤ m
  · obtain ⟨m, hmcs, hnm, hmin⟩ := exists_next hnext
    have hsame : cs.filter (· < n) = cs.filter (· < m) := by
      refine List.filter_congr fun c hc => ?_
      have := hmin c hc
      simp only [decide_eq_decide]
      omega
    rw [passes_of_next hnm hmcs hmin, State.insertAll_append]
    have hgap : (m - st.n) * (st.out.length + 1) =
        (n - st.n) * (st.out.length + 1) + (m - n) * (st.out.length + 1) := by
      rw [← Nat.add_mul]
      congr 1
      omega
    have hscan := insertAll_scan (n := m) [] cs (delta + (m - n) * (st.out.length + 1)) st
      (by rw [hout, hsame]; rfl) (Nat.le_trans hn hnm)
      (by rw [hgap, List.filter_nil, List.length_nil]; omega)
    have hlength := State.length_insertAll st
      (scan m (delta + (m - n) * (st.out.length + 1)) cs).1
    rw [← hlength]
    generalize scan m (delta + (m - n) * (st.out.length + 1)) cs = r at hscan hlength ⊢
    obtain ⟨hout', hn', hplace'⟩ := hscan
    have hup : cs.filter (· ≤ m) = cs.filter (· < m + 1) :=
      List.filter_congr fun c _ => by simp only [decide_eq_decide]; omega
    refine State.insertAll_passes cs (hout'.trans hup) (Nat.le_succ_of_le hn') ?_
    have hstep : m + 1 - (st.insertAll r.1).n = m - (st.insertAll r.1).n + 1 := by omega
    rw [hstep, Nat.add_mul, Nat.one_mul]
    omega
  · have hlt : ∀ c ∈ cs, c < n := fun c hc =>
      Nat.lt_of_not_le fun hle => hnext ⟨c, hc, hle⟩
    rw [passes_of_lt hlt, State.insertAll_nil, hout]
    exact List.filter_eq_self.mpr fun c hc => decide_eq_true (hlt c hc)
termination_by (cs.filter (n ≤ ·)).length
decreasing_by exact length_filter_succ_lt hnm hmcs

/-! ## From the reader to the writer -/

theorem State.mem_insertAll {st : State} {c : Nat} (h : c ∈ st.out) (ds : List Nat) :
    c ∈ (st.insertAll ds).out := by
  induction ds generalizing st with
  | nil => exact h
  | cons d ds ih => exact ih (List.mem_insertIdx (st.place_le d) |>.mpr (Or.inr h))

/-- What a delta inserts. -/
theorem State.mem_insert (st : State) (delta : Nat) :
    st.n + (st.i + delta) / (st.out.length + 1) ∈ (st.insert delta).out :=
  List.mem_insertIdx (st.place_le delta) |>.mpr (Or.inl rfl)

namespace State

/-- Nothing is above `n`, and from the place on all is below. -/
structure Below (st : State) : Prop where
  le : ∀ j c : Nat, st.out[j]? = some c → c ≤ st.n
  lt : ∀ j c : Nat, st.i ≤ j → st.out[j]? = some c → c < st.n

/-- The place is right behind an `n`, which is the last and greatest element. -/
structure Behind (st : State) : Prop extends Below st where
  pos : 0 < st.i
  last : st.out[st.i - 1]? = some st.n

theorem Below.insert {st : State} (h : st.Below) (delta : Nat) : (st.insert delta).Behind := by
  have hle := st.place_le delta
  have hmono : st.n ≤ st.n + (st.i + delta) / (st.out.length + 1) := Nat.le_add_right _ _
  have hlt : ∀ j c, (st.i + delta) % (st.out.length + 1) ≤ j → st.out[j]? = some c →
      c < st.n + (st.i + delta) / (st.out.length + 1) := by
    intro j c hj hc
    by_cases hzero : (st.i + delta) / (st.out.length + 1) = 0
    · have hsmall := (Nat.div_eq_zero_iff_lt (Nat.succ_pos _)).mp hzero
      rw [Nat.mod_eq_of_lt hsmall] at hj
      rw [hzero]
      exact h.lt j c (by omega) hc
    · have := h.le j c hc
      omega
  refine ⟨⟨?_, ?_⟩, Nat.succ_pos _, ?_⟩
  · intro j c hc
    simp only [State.insert, List.getElem?_insertIdx] at hc ⊢
    split at hc
    · exact Nat.le_trans (h.le j c hc) hmono
    · split at hc
      · split at hc
        · exact Nat.le_of_eq (Option.some.inj hc).symm
        · exact absurd hc.symm (Option.some_ne_none c)
      · exact Nat.le_trans (h.le _ c hc) hmono
  · intro j c hj hc
    simp only [State.insert, List.getElem?_insertIdx] at hj hc ⊢
    rw [if_neg (by omega), if_neg (by omega)] at hc
    exact hlt (j - 1) c (by omega) hc
  · simp only [State.insert, List.getElem?_insertIdx, Nat.add_sub_cancel]
    rw [if_neg (Nat.lt_irrefl _), if_pos trivial, if_pos hle]

theorem Below.insertAll {st : State} (h : st.Below) (ds : List Nat) : (st.insertAll ds).Below := by
  induction ds generalizing st with
  | nil => exact h
  | cons d ds ih => exact ih (h.insert d).toBelow

/-- The text tells where its last insertion was. -/
theorem Behind.eq_of_out {st st' : State} (h : st.Behind) (h' : st'.Behind)
    (hout : st.out = st'.out) : st = st' := by
  have hn : st.n = st'.n := by
    have hle := h'.le _ _ (hout ▸ h.last)
    have hge := h.le _ _ (hout ▸ h'.last)
    omega
  have hi : st.i = st'.i := by
    have hpos := h.pos
    have hpos' := h'.pos
    rcases Nat.lt_trichotomy st.i st'.i with hlt | heq | hgt
    · have := h.lt (st'.i - 1) st'.n (by omega) (hout ▸ h'.last)
      omega
    · exact heq
    · have := h'.lt (st.i - 1) st.n (by omega) (hout ▸ h.last)
      omega
  cases st
  cases st'
  simp only at hn hi hout
  rw [hn, hi, hout]

theorem insert_injective {st : State} {d e : Nat} (h : st.insert d = st.insert e) : d = e := by
  simp only [State.insert, State.mk.injEq] at h
  have hd := Nat.div_add_mod (st.i + d) (st.out.length + 1)
  have he := Nat.div_add_mod (st.i + e) (st.out.length + 1)
  have hdiv : (st.i + d) / (st.out.length + 1) = (st.i + e) / (st.out.length + 1) := by omega
  have hmod : (st.i + d) % (st.out.length + 1) = (st.i + e) % (st.out.length + 1) := by omega
  rw [hdiv, hmod] at hd
  omega

theorem out_of_insert (st : State) (d : Nat) :
    (st.insert d).out.eraseIdx ((st.insert d).i - 1) = st.out := by
  simp only [State.insert, Nat.add_sub_cancel]
  exact List.eraseIdx_insertIdx_self _

/-- **One sequence of deltas for a text**: by the last one, and what it inserted. -/
theorem insertAll_injective {st : State} (h : st.Below) {ds es : List Nat}
    (hout : (st.insertAll ds).out = (st.insertAll es).out) : ds = es := by
  induction ds using List.reverseRecOn generalizing es with
  | nil =>
    have hlength := congrArg List.length hout
    rw [length_insertAll, length_insertAll, List.length_nil] at hlength
    exact (List.length_eq_zero_iff.mp (by omega)).symm
  | append_singleton ds d ih =>
    rcases List.eq_nil_or_concat es with rfl | ⟨es, e, rfl⟩
    · have hlength := congrArg List.length hout
      rw [length_insertAll, length_insertAll, List.length_append] at hlength
      simp at hlength
    · rw [List.concat_eq_append] at hout ⊢
      rw [insertAll_append, insertAll_append] at hout
      have hlast := ((h.insertAll ds).insert d).eq_of_out ((h.insertAll es).insert e) hout
      have hsame : (st.insertAll ds).out = (st.insertAll es).out := by
        rw [← out_of_insert (st.insertAll ds) d, ← out_of_insert (st.insertAll es) e, hlast]
      obtain rfl := ih hsame
      rw [insert_injective hlast]

theorem filter_insertIdx {p : Nat → Bool} {x : Nat} (hx : p x = false) (l : List Nat) (i : Nat) :
    (l.insertIdx i x).filter p = l.filter p := by
  induction l generalizing i with
  | nil =>
    cases i with
    | zero => simp [hx]
    | succ i => rfl
  | cons c l ih =>
    cases i with
    | zero => simp [hx]
    | succ i => rw [List.insertIdx_succ_cons, List.filter_cons, List.filter_cons, ih]

/-- What was there below a number stays as it is. -/
theorem filter_insertAll {st : State} {n : Nat} (hn : n ≤ st.n) (ds : List Nat) :
    (st.insertAll ds).out.filter (· < n) = st.out.filter (· < n) := by
  induction ds generalizing st with
  | nil => rfl
  | cons d ds ih =>
    have hmono : st.n ≤ (st.insert d).n := Nat.le_add_right _ _
    rw [insertAll_cons, ih (Nat.le_trans hn hmono)]
    exact filter_insertIdx (decide_eq_false (Nat.not_lt.mpr (Nat.le_trans hn hmono))) _ _

/-- **The passes write the deltas that were read.** -/
theorem passes_insertAll {st : State} (hi : st.i = 0) (hlt : ∀ c ∈ st.out, c < st.n)
    (ds : List Nat) :
    passes (st.insertAll ds).out st.n 0 st.out.length = ds := by
  have hst : st.Below :=
    ⟨fun _ c hc => Nat.le_of_lt (hlt c (List.mem_of_getElem? hc)),
      fun _ c _ hc => hlt c (List.mem_of_getElem? hc)⟩
  have hbelow : st.out = (st.insertAll ds).out.filter (· < st.n) := by
    rw [filter_insertAll (Nat.le_refl _)]
    exact (List.filter_eq_self.mpr fun c hc => decide_eq_true (hlt c hc)).symm
  refine insertAll_injective hst ?_
  refine insertAll_passes _ hbelow (Nat.le_refl _) ?_
  rw [hi, Nat.sub_self, Nat.zero_mul]

end State

end SearchAndIdna.Bootstring
