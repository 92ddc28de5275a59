import Mathlib

/-!
# Ordered maps whose insertion never overwrites

A `FirstWins.Map` keeps its entries in strictly ascending key order, and
inserting a key that is already there changes nothing.

* `Map.lookup_insert`, `Map.lookup_insertAll`: what a lookup sees after one
  insertion and after a list of them; hence `Map.lookup_ofList`, the value of
  the first item with that key;
* `Map.ext_lookup`: two maps with the same lookups are equal;
* `Map.ofList_rearranged`: items may be reordered as long as items with equal
  keys keep their order;
* `Map.weight_insertAll_le`: the entries never weigh more than the items they
  came from, and `Map.length_of_weight_eq`: at equality no item was dropped.
-/

namespace SearchAndIdna.FirstWins

variable {K V : Type*} [LinearOrder K]

/-- Insertion into an ascending entry list; an existing entry stays. -/
def insertEntry (k : K) (v : V) : List (K × V) → List (K × V)
  | [] => [(k, v)]
  | e :: rest =>
    if k < e.1 then (k, v) :: e :: rest
    else if k = e.1 then e :: rest
    else e :: insertEntry k v rest

/-- Strictly ascending keys. -/
def Ascending (l : List (K × V)) : Prop := l.Pairwise (fun a b => a.1 < b.1)

theorem mem_insertEntry {k : K} {v : V} {e : K × V} {l : List (K × V)}
    (h : e ∈ insertEntry k v l) : e = (k, v) ∨ e ∈ l := by
  induction l with
  | nil => exact Or.inl (List.mem_singleton.mp h)
  | cons d rest ih =>
    rw [insertEntry] at h
    split at h
    · exact List.mem_cons.mp h
    · split at h
      · exact Or.inr h
      · rcases List.mem_cons.mp h with rfl | h
        · exact Or.inr (List.mem_cons_self ..)
        · rcases ih h with h | h
          · exact Or.inl h
          · exact Or.inr (List.mem_cons_of_mem _ h)

theorem ascending_insertEntry (k : K) (v : V) {l : List (K × V)} (h : Ascending l) :
    Ascending (insertEntry k v l) := by
  induction l with
  | nil => exact List.pairwise_singleton _ _
  | cons d rest ih =>
    have hd := List.pairwise_cons.mp h
    rw [insertEntry]
    split
    · rename_i hlt
      refine List.pairwise_cons.mpr ⟨fun e he => ?_, h⟩
      rcases List.mem_cons.mp he with rfl | he
      · exact hlt
      · exact lt_trans hlt (hd.1 e he)
    · split
      · exact h
      · rename_i hnlt hne
        refine List.pairwise_cons.mpr ⟨fun e he => ?_, ih hd.2⟩
        rcases mem_insertEntry he with rfl | he
        · exact lt_of_le_of_ne (not_lt.mp hnlt) (Ne.symm hne)
        · exact hd.1 e he

theorem lookup_cons_if (e : K × V) (l : List (K × V)) (q : K) :
    (e :: l).lookup q = if q = e.1 then some e.2 else l.lookup q := by
  obtain ⟨k, v⟩ := e
  rw [List.lookup_cons]
  by_cases hq : q = k
  · simp [hq]
  · have hb : (q == k) = false := by simp [hq]
    simp [hq, hb]

theorem lookup_eq_find? (l : List (K × V)) (q : K) (p : K × V → Bool)
    (hp : ∀ e, p e = true ↔ e.1 = q) : l.lookup q = (l.find? p).map Prod.snd := by
  induction l with
  | nil => rfl
  | cons e l ih =>
    rw [lookup_cons_if, List.find?_cons]
    by_cases hq : e.1 = q
    · simp [hq, (hp e).mpr hq]
    · simp [Ne.symm hq, mt (hp e).mp hq, ih]

theorem lookup_isSome_iff_mem (l : List (K × V)) (q : K) :
    (l.lookup q).isSome = true ↔ ∃ v, (q, v) ∈ l := by
  rw [List.lookup_isSome_iff]
  constructor
  · rintro ⟨e, he, hq⟩
    exact ⟨e.2, by rw [beq_iff_eq.mp hq]; exact he⟩
  · rintro ⟨v, hv⟩
    exact ⟨(q, v), hv, beq_self_eq_true q⟩

theorem lookup_eq_none_of_lt {k : K} {l : List (K × V)} (h : ∀ e ∈ l, k < e.1) :
    l.lookup k = none := by
  rw [List.lookup_eq_none_iff]
  intro e he
  exact bne_iff_ne.mpr (ne_of_lt (h e he))

theorem lookup_insertEntry (k q : K) (v : V) {l : List (K × V)} (h : Ascending l) :
    (insertEntry k v l).lookup q = (l.lookup q).or (if q = k then some v else none) := by
  induction l with
  | nil => simp [insertEntry, lookup_cons_if]
  | cons d rest ih =>
    have hd := List.pairwise_cons.mp h
    rw [insertEntry]
    split
    · rename_i hlt
      by_cases hq : q = k
      · subst hq
        have hnone : (d :: rest).lookup q = none := by
          apply lookup_eq_none_of_lt
          intro e he
          rcases List.mem_cons.mp he with rfl | he
          · exact hlt
          · exact lt_trans hlt (hd.1 e he)
        rw [hnone]
        simp
      · simp [lookup_cons_if (k, v), hq]
    · split
      · rename_i heq
        subst heq
        by_cases hq : q = d.1
        · simp [lookup_cons_if, hq]
        · simp [hq]
      · have hi := ih hd.2
        by_cases hq : q = d.1
        · simp [lookup_cons_if, hq]
        · rw [lookup_cons_if, lookup_cons_if, if_neg hq, if_neg hq]
          exact hi

/-- A map in ascending key order. -/
@[ext]
structure Map (K V : Type*) [LinearOrder K] where
  entries : List (K × V)
  ascending : Ascending entries

namespace Map

def empty : Map K V := ⟨[], List.Pairwise.nil⟩

instance : Inhabited (Map K V) := ⟨empty⟩

instance [DecidableEq V] : DecidableEq (Map K V) := fun a b =>
  decidable_of_iff (a.entries = b.entries) Map.ext_iff.symm

/-- Insert unless the key is there already. -/
def insert (m : Map K V) (k : K) (v : V) : Map K V :=
  ⟨insertEntry k v m.entries, ascending_insertEntry k v m.ascending⟩

def lookup (m : Map K V) (k : K) : Option V := m.entries.lookup k

def keys (m : Map K V) : List K := m.entries.map Prod.fst

/-- Insert a list of items in order. -/
def insertAll (m : Map K V) (items : List (K × V)) : Map K V :=
  items.foldl (fun m p => m.insert p.1 p.2) m

def ofList (items : List (K × V)) : Map K V := empty.insertAll items

@[simp] theorem lookup_empty (k : K) : (empty : Map K V).lookup k = none := rfl

@[simp] theorem insertAll_nil (m : Map K V) : m.insertAll [] = m := rfl

@[simp] theorem insertAll_cons (m : Map K V) (p : K × V) (items : List (K × V)) :
    m.insertAll (p :: items) = (m.insert p.1 p.2).insertAll items := rfl

theorem insertAll_append (m : Map K V) (a b : List (K × V)) :
    m.insertAll (a ++ b) = (m.insertAll a).insertAll b := by
  simp [insertAll]

theorem lookup_insert (m : Map K V) (k q : K) (v : V) :
    (m.insert k v).lookup q = (m.lookup q).or (if q = k then some v else none) :=
  lookup_insertEntry k q v m.ascending

/-- **Run lemma.**  Earlier entries win, then the first item with the key. -/
theorem lookup_insertAll (m : Map K V) (items : List (K × V)) (k : K) :
    (m.insertAll items).lookup k = (m.lookup k).or (items.lookup k) := by
  induction items generalizing m with
  | nil => simp
  | cons p items ih =>
    rw [insertAll_cons, ih, lookup_insert, Option.or_assoc]
    rw [lookup_cons_if]
    by_cases hk : k = p.1
    · simp [hk]
    · simp [hk]

theorem lookup_ofList (items : List (K × V)) (k : K) :
    (ofList items).lookup k = items.lookup k := by
  rw [ofList, lookup_insertAll, lookup_empty, Option.none_or]

theorem mem_keys_iff (m : Map K V) (k : K) : k ∈ m.keys ↔ (m.lookup k).isSome := by
  simp only [keys, lookup, List.lookup_isSome_iff, List.mem_map, beq_iff_eq]
  exact ⟨fun ⟨e, he, h⟩ => ⟨e, he, h.symm⟩, fun ⟨e, he, h⟩ => ⟨e, he, h.symm⟩⟩

theorem keys_ascending (m : Map K V) : m.keys.Pairwise (· < ·) :=
  List.pairwise_map.mpr m.ascending

theorem lookup_of_mem (m : Map K V) {e : K × V} (he : e ∈ m.entries) :
    m.lookup e.1 = some e.2 := by
  obtain ⟨l, h⟩ := m
  change e ∈ l at he
  change l.lookup e.1 = some e.2
  induction l with
  | nil => simp at he
  | cons d rest ih =>
    have hd := List.pairwise_cons.mp h
    rw [lookup_cons_if]
    rcases List.mem_cons.mp he with rfl | he
    · simp
    · rw [if_neg (ne_of_gt (hd.1 e he))]
      exact ih hd.2 he

theorem mem_of_lookup (m : Map K V) {k : K} {v : V} (h : m.lookup k = some v) :
    (k, v) ∈ m.entries := by
  obtain ⟨l₁, l₂, he, _⟩ := List.lookup_eq_some_iff.mp h
  rw [he]
  simp

/-- **Extensionality.**  The entries are determined by the lookups. -/
theorem ext_lookup {m m' : Map K V} (h : ∀ k, m.lookup k = m'.lookup k) : m = m' := by
  have hmem : ∀ e, e ∈ m.entries ↔ e ∈ m'.entries := by
    intro e
    constructor
    · intro he
      exact m'.mem_of_lookup (by rw [← h]; exact m.lookup_of_mem he)
    · intro he
      exact m.mem_of_lookup (by rw [h]; exact m'.lookup_of_mem he)
  have hnodup : ∀ x : Map K V, x.entries.Nodup := fun x =>
    x.ascending.imp fun hab he => absurd (congrArg Prod.fst he) (ne_of_lt hab)
  have hperm : m.entries.Perm m'.entries :=
    (List.perm_ext_iff_of_nodup (hnodup m) (hnodup m')).mpr hmem
  exact Map.ext (hperm.eq_of_pairwise
    (fun a b _ _ hab hba => absurd hab (lt_asymm hba)) m.ascending m'.ascending)

/-- Same items, and items with equal keys in the same relative order. -/
def Rearranged (items items' : List (K × V)) : Prop :=
  ∀ k, items.filter (fun p => p.1 = k) = items'.filter (fun p => p.1 = k)

theorem lookup_filter (items : List (K × V)) (k : K) :
    items.lookup k = (items.filter (fun p => p.1 = k)).lookup k := by
  induction items with
  | nil => rfl
  | cons p items ih =>
    by_cases hk : p.1 = k
    · simp [lookup_cons_if, hk]
    · simp [lookup_cons_if, hk, Ne.symm hk, ih]

theorem ofList_rearranged {items items' : List (K × V)} (h : Rearranged items items') :
    ofList items = ofList items' := by
  apply ext_lookup
  intro k
  rw [lookup_ofList, lookup_ofList, lookup_filter, h k, ← lookup_filter]

theorem mem_entries_insertAll {m : Map K V} {items : List (K × V)} {e : K × V}
    (h : e ∈ (m.insertAll items).entries) : e ∈ m.entries ∨ e ∈ items := by
  induction items generalizing m with
  | nil => exact Or.inl h
  | cons p items ih =>
    rcases ih h with h | h
    · rcases mem_insertEntry h with h | h
      · exact Or.inr (h ▸ List.mem_cons_self ..)
      · exact Or.inl h
    · exact Or.inr (List.mem_cons_of_mem _ h)

theorem mem_entries_ofList {items : List (K × V)} {e : K × V}
    (h : e ∈ (ofList items).entries) : e ∈ items := by
  rcases mem_entries_insertAll h with h | h
  · simp [empty] at h
  · exact h

/-- Ascending items are the map's entries. -/
theorem ofList_entries (m : Map K V) : ofList m.entries = m := by
  apply ext_lookup
  intro k
  rw [lookup_ofList]
  rfl

/-! ## Weights -/

/-- The total weight of a list of items. -/
def weight (w : K × V → Nat) (items : List (K × V)) : Nat := (items.map w).sum

theorem insertEntry_weight (w : K × V → Nat) (k : K) (v : V) (l : List (K × V)) :
    (insertEntry k v l = l) ∨
      (weight w (insertEntry k v l) = w (k, v) + weight w l ∧
        (insertEntry k v l).length = l.length + 1) := by
  induction l with
  | nil => exact Or.inr ⟨by simp [insertEntry, weight], rfl⟩
  | cons d rest ih =>
    rw [insertEntry]
    split
    · exact Or.inr ⟨by simp [weight], rfl⟩
    · split
      · exact Or.inl rfl
      · rcases ih with h | ⟨h, hl⟩
        · exact Or.inl (by rw [h])
        · refine Or.inr ⟨?_, by simp [hl]⟩
          simp only [weight, List.map_cons, List.sum_cons] at h ⊢
          omega

/-- The entries weigh at most as much as what was inserted; with positive
weights the weight shows how many items were dropped. -/
theorem weight_insertAll_le (w : K × V → Nat) (hw : ∀ p, 0 < w p) (m : Map K V)
    (items : List (K × V)) :
    weight w (m.insertAll items).entries + (m.entries.length + items.length)
      ≤ weight w m.entries + weight w items + (m.insertAll items).entries.length := by
  induction items generalizing m with
  | nil => simp [weight]
  | cons p items ih =>
    have hi := ih (m.insert p.1 p.2)
    have hp := hw p
    rw [insertAll_cons]
    simp only [List.length_cons, weight, List.map_cons, List.sum_cons] at hi ⊢
    rcases insertEntry_weight w p.1 p.2 m.entries with h | ⟨h, hl⟩
    · simp only [insert, h] at hi ⊢
      omega
    · have he : w (p.1, p.2) = w p := rfl
      simp only [insert, weight, hl] at h hi ⊢
      omega

theorem insertEntry_perm {k : K} (v : V) {l : List (K × V)} (h : k ∉ l.map Prod.fst) :
    (insertEntry k v l).Perm ((k, v) :: l) := by
  induction l with
  | nil => rfl
  | cons d rest ih =>
    obtain ⟨hd, hrest⟩ := not_or.mp (mt List.mem_cons.mpr h)
    rw [insertEntry]
    split
    · rfl
    · exact ((ih hrest).cons d).trans (List.Perm.swap (k, v) d rest)

/-- Items with different keys are all kept. -/
theorem insertAll_perm (m : Map K V) {items : List (K × V)}
    (h : (m.keys ++ items.map Prod.fst).Nodup) :
    (m.insertAll items).entries.Perm (m.entries ++ items) := by
  induction items generalizing m with
  | nil => rw [List.append_nil]; rfl
  | cons p items ih =>
    have hmid : (m.keys ++ p.1 :: items.map Prod.fst).Perm
        (p.1 :: (m.keys ++ items.map Prod.fst)) := List.perm_middle
    have hcons := hmid.nodup_iff.mp h
    have hp : p.1 ∉ m.entries.map Prod.fst := fun hm =>
      (List.nodup_cons.mp hcons).1 (List.mem_append_left _ hm)
    have hperm : (m.insert p.1 p.2).entries.Perm (p :: m.entries) := insertEntry_perm p.2 hp
    have hkeys := (hperm.map Prod.fst).append_right (items.map Prod.fst)
    rw [insertAll_cons]
    exact (ih _ (hkeys.nodup_iff.mpr hcons)).trans
      ((hperm.append_right items).trans List.perm_middle.symm)

theorem weight_ofList_of_nodup (w : K × V → Nat) {items : List (K × V)}
    (h : (items.map Prod.fst).Nodup) : weight w (ofList items).entries = weight w items :=
  ((insertAll_perm empty h).map w).sum_eq

theorem length_insertAll_le (m : Map K V) (items : List (K × V)) :
    (m.insertAll items).entries.length ≤ m.entries.length + items.length := by
  induction items generalizing m with
  | nil => simp
  | cons p items ih =>
    have hi := ih (m.insert p.1 p.2)
    have hp : (m.insert p.1 p.2).entries.length ≤ m.entries.length + 1 := by
      rcases insertEntry_weight (fun _ => 0) p.1 p.2 m.entries with h | ⟨_, h⟩
      · simp [insert, h]
      · simp [insert, h]
    rw [insertAll_cons, List.length_cons]
    omega

theorem weight_ofList_le (w : K × V → Nat) (items : List (K × V)) :
    weight w (ofList items).entries ≤ weight w items := by
  have hsucc : ∀ l : List (K × V), weight (fun p => w p + 1) l = weight w l + l.length := by
    intro l
    simp [weight, List.sum_map_add]
  have h := weight_insertAll_le (fun p => w p + 1) (fun p => Nat.succ_pos (w p)) empty items
  rw [hsucc, hsucc, hsucc] at h
  have hempty : weight w (empty : Map K V).entries = 0 := rfl
  have hlength : (empty : Map K V).entries.length = 0 := rfl
  rw [ofList]
  omega

/-- No item was dropped when no weight was lost. -/
theorem length_of_weight_eq (w : K × V → Nat) (hw : ∀ p, 0 < w p) {items : List (K × V)}
    (h : weight w (ofList items).entries = weight w items) :
    (ofList items).entries.length = items.length := by
  have hle := weight_insertAll_le w hw empty items
  have hl := length_insertAll_le empty items
  simp only [empty, weight, List.map_nil, List.sum_nil, List.length_nil, ofList] at h hle hl ⊢
  omega

end Map

end SearchAndIdna.FirstWins
