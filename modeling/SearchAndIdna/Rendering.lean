import SearchAndIdna.Forwarding
import SearchAndIdna.Switches

/-!
# The text of a `CommandLine`

`ToString` appends a separator after every entry and drops the last one if the
text is longer than two units.  So it is the rendered entries with one blank
between two of them, except where the whole text is a key of at most one unit
and its separator.

* `exactText`: the entries in order, with one blank between two of them;
* `toString_eq_joined_iff`: when the last separator goes, by the length;
* `length_joined_lt_two_iff`: when the text is that short, by the entries;
* `toString_exact_iff`: for every text and all append calls.
-/

namespace SearchAndIdna

open FirstWins WString

namespace CommandLine

open Forwarding

/-- The key alone, or the key, the separator and the value. -/
def rendering (e : WString × WString) : WString :=
  if e.2 = [] then e.1 else e.1 ++ 0x3d :: e.2

def exactText (cl : CommandLine) : WString := [0x20].intercalate (cl.argv_.entries.map rendering)

def NulFree (e : WString × WString) : Prop := nul ∉ e.1 ∧ nul ∉ e.2

/-! ## Entries without NUL -/

theorem renderUnit_eq_rendering {e : WString × WString} (h : NulFree e) :
    renderUnit e = rendering e := by
  rw [renderUnit_of_noNul h.1 h.2, rendering]
  by_cases hv : e.2 = []
  · rw [if_neg (not_not.mpr hv), if_pos hv]
  · rw [if_pos hv, if_neg hv]

theorem joined_eq_exactText {cl : CommandLine} (h : ∀ e ∈ cl.argv_.entries, NulFree e) :
    joined cl.argv_.entries = exactText cl := by
  have hmap : cl.argv_.entries.map renderUnit = cl.argv_.entries.map rendering :=
    List.map_congr_left fun e he => renderUnit_eq_rendering (h e he)
  rw [joined, exactText, hmap]

theorem nulFree_itemOf {token : WString} (h : nul ∉ token) : NulFree (itemOf token) := by
  rw [← splitCommand_eq_itemOf]
  have hparsed := (parsedEntry_splitCommand h).1
  exact ⟨hparsed.key, hparsed.value⟩

/-- Arguments are C strings, so only the append calls could bring a NUL. -/
theorem nulFree_appended {sh : Shell} {text : Option WString} {calls : List Append}
    (h : ∀ c ∈ calls, NulFree c.item) {e : WString × WString}
    (he : e ∈ (appendAll (ofPointer sh text) calls).argv_.entries) : NulFree e := by
  rw [appended_eq] at he
  rcases List.mem_append.mp (Map.mem_entries_ofList he) with hparsed | happended
  · obtain ⟨token, ht, rfl⟩ := List.mem_map.mp hparsed
    exact nulFree_itemOf (nul_notMem_of_mem_argumentsOf ht)
  · obtain ⟨c, hc, rfl⟩ := List.mem_map.mp happended
    exact h c hc

/-! ## The last separator -/

theorem toString_eq_joined_iff (cl : CommandLine) :
    cl.toString = joined cl.argv_.entries ↔
      cl.argv_.entries = [] ∨ 2 ≤ (joined cl.argv_.entries).length := by
  rw [CommandLine.toString, foldl_render_eq, List.nil_append]
  cases hl : cl.argv_.entries with
  | nil => exact ⟨fun _ => Or.inl rfl, fun _ => rfl⟩
  | cons e rest =>
    have hne : e :: rest ≠ [] := List.cons_ne_nil e rest
    rw [flatMap_render hne]
    generalize joined (e :: rest) = text
    have hlength : (text ++ [0x20]).length = text.length + 1 := by simp
    simp only [hlength, hne, false_or]
    split
    · have htake : (text ++ [0x20]).take (text.length + 1 - 1) = text := List.take_left
      rw [htake]
      exact ⟨fun _ => by omega, fun _ => rfl⟩
    · constructor
      · intro h
        have hcontra := congrArg List.length h
        rw [hlength] at hcontra
        omega
      · omega

/-! ## Short texts -/

theorem length_le_rendering (e : WString × WString) : e.1.length ≤ (rendering e).length := by
  rw [rendering]
  split
  · exact Nat.le_refl _
  · rw [List.length_append]
    exact Nat.le_add_right _ _

theorem length_le_joined (e : WString × WString) (l : List (WString × WString)) :
    (renderUnit e).length ≤ (joined (e :: l)).length := by
  cases l with
  | nil => simp [joined, List.intercalate]
  | cons d l =>
    rw [joined_cons, List.length_append]
    exact Nat.le_add_right _ _

/-- A single entry is short when its key is, and it has no value. -/
theorem length_rendering_lt_two_iff (e : WString × WString) :
    (rendering e).length < 2 ↔ e.2 = [] ∧ e.1.length ≤ 1 := by
  rw [rendering]
  by_cases hv : e.2 = []
  · rw [if_pos hv, Nat.lt_succ_iff]
    exact ⟨fun h => ⟨hv, h⟩, fun h => h.2⟩
  · rw [if_neg hv, List.length_append, List.length_cons]
    have hpos := List.length_pos_iff.mpr hv
    exact ⟨fun h => by omega, fun h => absurd h.1 hv⟩

theorem length_joined_lt_two_iff {l : List (WString × WString)} (hn : ∀ e ∈ l, NulFree e)
    (ha : Ascending l) (hne : l ≠ []) :
    (joined l).length < 2 ↔ ∃ k, l = [(k, [])] ∧ k.length ≤ 1 := by
  cases l with
  | nil => exact absurd rfl hne
  | cons e rest =>
    cases rest with
    | nil =>
      have hone : joined [e] = rendering e := by
        rw [← renderUnit_eq_rendering (hn e List.mem_cons_self)]
        simp [joined, List.intercalate]
      rw [hone, length_rendering_lt_two_iff]
      constructor
      · rintro ⟨hv, hk⟩
        exact ⟨e.1, by rw [← hv], hk⟩
      · rintro ⟨k, hk, hlen⟩
        obtain rfl := List.singleton_inj.mp hk
        exact ⟨rfl, hlen⟩
    | cons d rest =>
      -- the second key is behind the first one, so it is not empty
      have hlt : e.1 < d.1 := (List.pairwise_cons.mp ha).1 d List.mem_cons_self
      have hd : d.1 ≠ [] := by
        intro h
        rw [h] at hlt
        exact List.not_lt_nil _ hlt
      have hpos := List.length_pos_iff.mpr hd
      have hrender := length_le_rendering d
      rw [← renderUnit_eq_rendering (hn d (List.mem_cons_of_mem _ List.mem_cons_self))] at hrender
      have hjoined := length_le_joined d rest
      have hlong : ¬ (joined (e :: d :: rest)).length < 2 := by
        rw [joined_cons, List.length_append, List.length_cons]
        omega
      refine ⟨fun h => absurd h hlong, ?_⟩
      rintro ⟨k, hk, -⟩
      exact absurd (congrArg List.length hk) (by simp)

/-! ## Every reachable command line -/

/-- **The text is exact** if and only if it is not one key of at most one unit. -/
theorem toString_exact_iff (sh : Shell) (text : Option WString) (calls : List Append)
    (h : ∀ c ∈ calls, NulFree c.item) :
    let cl := appendAll (ofPointer sh text) calls
    Ascending cl.argv_.entries ∧
      (cl.toString = exactText cl ↔ ¬ ∃ k, cl.argv_.entries = [(k, [])] ∧ k.length ≤ 1) := by
  intro cl
  have hn : ∀ e ∈ cl.argv_.entries, NulFree e := fun _ => nulFree_appended h
  refine ⟨cl.argv_.ascending, ?_⟩
  rw [← joined_eq_exactText hn, toString_eq_joined_iff]
  by_cases hl : cl.argv_.entries = []
  · rw [hl]
    exact ⟨fun _ ⟨k, hk, _⟩ => List.cons_ne_nil _ _ hk.symm, fun _ => Or.inl rfl⟩
  · rw [or_iff_right hl, ← length_joined_lt_two_iff hn cl.argv_.ascending hl, Nat.not_lt]

theorem toString_exact_iff_two_keys :
    (appendAll (ofPointer ⟨id, fun s => [s]⟩ (some [0x63]))
      [.appendSwitchAndValue [0x61] [0x62]]).toString = [0x61, 0x3d, 0x62, 0x20, 0x63] := by
  have hexact := (toString_exact_iff ⟨id, fun s => [s]⟩ (some [0x63])
    [.appendSwitchAndValue [0x61] [0x62]] (by simp [NulFree, Append.item, nul])).2
  have hentries : (appendAll (ofPointer ⟨id, fun s => [s]⟩ (some [0x63]))
      [.appendSwitchAndValue [0x61] [0x62]]).argv_.entries =
      [([0x61], [0x62]), ([0x63], [])] := by decide
  rw [hexact.mpr (by simp [hentries])]
  decide

/-- One key of one unit: its separator stays. -/
theorem short_key_keeps_separator :
    (appendAll (ofPointer ⟨id, fun s => [s]⟩ (some [0x61])) []).toString = [0x61, 0x20] ∧
      exactText (appendAll (ofPointer ⟨id, fun s => [s]⟩ (some [0x61])) []) = [0x61] ∧
      (appendAll (ofPointer ⟨id, fun s => [s]⟩ (some [0x61])) []).toString ≠
        exactText (appendAll (ofPointer ⟨id, fun s => [s]⟩ (some [0x61])) []) := by
  decide

end CommandLine

end SearchAndIdna
