import SearchAndIdna.CommandLine

/-!
# What a `CommandLine` answers

The purpose of the class, stated on items instead of a map: the parsed tokens
in order, then the appended pairs in order, and for every query the first item
with the key counts.

* `splitCommand_eq_itemOf`: the code's splitting is the splitting at the first
  separator of a prefixed token;
* `appended_eq`: a command line after any calls is its items, inserted in order;
* `answers_first_occurrences`: every query, and what reordering does to them.
-/

namespace SearchAndIdna

open FirstWins

namespace CommandLine

/-- A call of an append function. -/
inductive Append where
  | appendSwitch (switch_string : WString)
  | appendSwitchAndValue (switch_string value : WString)
  deriving DecidableEq, Repr

namespace Append

def run (cl : CommandLine) : Append → CommandLine
  | .appendSwitch k => cl.appendSwitch k
  | .appendSwitchAndValue k v => cl.appendSwitchAndValue k v

def item : Append → WString × WString
  | .appendSwitch k => (k, [])
  | .appendSwitchAndValue k v => (k, v)

theorem run_eq (cl : CommandLine) (c : Append) :
    run cl c = ⟨cl.argv_.insert c.item.1 c.item.2⟩ := by
  cases c <;> rfl

end Append

def appendAll (cl : CommandLine) (calls : List Append) : CommandLine := calls.foldl Append.run cl

/-- The item a token stands for: a token with the prefix is split at its first
separator, any other token is a key. -/
def itemOf (token : WString) : WString × WString :=
  if kSwitchPrefix.isPrefixOf token ∧ (0x3d : WChar) ∈ token then
    (token.takeWhile (· ≠ 0x3d), (token.dropWhile (· ≠ 0x3d)).tail)
  else (token, [])

theorem splitCommand_eq_itemOf (token : WString) : splitCommand token = itemOf token := by
  by_cases hs : (0x3d : WChar) ∈ token
  · by_cases hp : kSwitchPrefix <+: token
    · rw [splitCommand_prefixed hp hs, itemOf, if_pos ⟨List.isPrefixOf_iff_prefix.mpr hp, hs⟩]
    · rw [splitCommand_unprefixed hp, itemOf,
        if_neg (fun h => hp (List.isPrefixOf_iff_prefix.mp h.1))]
  · rw [splitCommand_of_notMem hs, itemOf, if_neg (fun h => hs h.2)]

/-- The items of a text and the calls after it. -/
def items (sh : Shell) (text : Option WString) (calls : List Append) : List (WString × WString) :=
  (argumentsOf sh text).map itemOf ++ calls.map Append.item

theorem appendAll_eq (cl : CommandLine) (calls : List Append) :
    appendAll cl calls = ⟨cl.argv_.insertAll (calls.map Append.item)⟩ := by
  induction calls generalizing cl with
  | nil => rfl
  | cons c calls ih =>
    rw [appendAll, List.foldl_cons, Append.run_eq]
    exact ih _

theorem appended_eq (sh : Shell) (text : Option WString) (calls : List Append) :
    appendAll (ofPointer sh text) calls = ⟨Map.ofList (items sh text calls)⟩ := by
  have hitems : (argumentsOf sh text).map splitCommand = (argumentsOf sh text).map itemOf :=
    List.map_congr_left fun token _ => splitCommand_eq_itemOf token
  rw [appendAll_eq, ofPointer_eq, hitems, items, Map.ofList, Map.ofList, Map.insertAll_append]

/-- The answers of a command line that stands for `its`. -/
structure Answers (cl : CommandLine) (its : List (WString × WString)) : Prop where
  hasSwitch : ∀ k, cl.hasSwitch k = true ↔ ∃ v, (k, v) ∈ its
  getSwitchValue : ∀ k,
    cl.getSwitchValue k = ((its.find? (fun p => p.1 = k)).map Prod.snd).getD []
  getSwitches_ascending : cl.getSwitches.Pairwise (· < ·)
  mem_getSwitches : ∀ k, k ∈ cl.getSwitches ↔ ∃ v, (k, v) ∈ its
  getNonPrefixedSwitches :
    cl.getNonPrefixedSwitches = cl.getSwitches.filter (fun k => !kSwitchPrefix.isPrefixOf k)

/-- `GetNonPrefixedSwitches` keeps the keys without the prefix, in order. -/
theorem getNonPrefixedSwitches_eq (cl : CommandLine) :
    cl.getNonPrefixedSwitches = cl.getSwitches.filter (fun k => !kSwitchPrefix.isPrefixOf k) := by
  rw [getNonPrefixedSwitches, getSwitches, List.filter_map]
  congr 1
  refine List.filter_congr fun e _ => ?_
  have h := WString.find_eq_zero_iff kSwitchPrefix e.1
  rw [← List.isPrefixOf_iff_prefix] at h
  by_cases hp : kSwitchPrefix.isPrefixOf e.1
  · simp [hp, h.mpr hp]
  · simp [hp, mt h.mp hp]

theorem answers_ofList (its : List (WString × WString)) : Answers ⟨Map.ofList its⟩ its where
  hasSwitch k := by
    rw [CommandLine.hasSwitch, Map.lookup_ofList]
    exact lookup_isSome_iff_mem its k
  getSwitchValue k := by
    rw [CommandLine.getSwitchValue, Map.lookup_ofList,
      lookup_eq_find? its k (fun p => p.1 = k) (fun e => decide_eq_true_iff)]
    cases its.find? (fun p => p.1 = k) <;> rfl
  getSwitches_ascending := Map.keys_ascending _
  mem_getSwitches k := by
    change k ∈ (Map.ofList its).keys ↔ _
    rw [Map.mem_keys_iff, Map.lookup_ofList]
    exact lookup_isSome_iff_mem its k
  getNonPrefixedSwitches := getNonPrefixedSwitches_eq _

/-- **First occurrences decide.**  After any text and any append calls every
query is answered by the first item with the key, and two such histories whose
items are rearrangements of each other answer every query alike. -/
theorem answers_first_occurrences (sh : Shell) (text : Option WString) (calls : List Append) :
    Answers (appendAll (ofPointer sh text) calls) (items sh text calls) ∧
    ∀ (text' : Option WString) (calls' : List Append),
      Map.Rearranged (items sh text calls) (items sh text' calls') →
      let cl := appendAll (ofPointer sh text) calls
      let cl' := appendAll (ofPointer sh text') calls'
      (∀ k, cl.hasSwitch k = cl'.hasSwitch k) ∧
      (∀ k, cl.getSwitchValue k = cl'.getSwitchValue k) ∧
      cl.getSwitches = cl'.getSwitches ∧
      cl.getNonPrefixedSwitches = cl'.getNonPrefixedSwitches ∧
      cl.toString = cl'.toString := by
  refine ⟨?_, fun text' calls' h => ?_⟩
  · rw [appended_eq]
    exact answers_ofList _
  · simp only [appended_eq, Map.ofList_rearranged h, implies_true, and_self]

theorem answers_first_occurrences_swapped :
    (appendAll (ofPointer ⟨id, fun s => [s]⟩ (some [0x63]))
      [.appendSwitch [0x61], .appendSwitchAndValue [0x62] [0x63]]).toString =
    (appendAll (ofPointer ⟨id, fun s => [s]⟩ (some [0x63]))
      [.appendSwitchAndValue [0x62] [0x63], .appendSwitch [0x61]]).toString := by
  refine ((answers_first_occurrences ⟨id, fun s => [s]⟩ (some [0x63])
    [.appendSwitch [0x61], .appendSwitchAndValue [0x62] [0x63]]).2 (some [0x63])
    [.appendSwitchAndValue [0x62] [0x63], .appendSwitch [0x61]] fun k => ?_).2.2.2.2
  by_cases ha : k = [0x61]
  · subst ha
    decide
  · by_cases hb : k = [0x62]
    · subst hb
      decide
    · simp [items, Append.item, Ne.symm ha, Ne.symm hb]

end CommandLine

end SearchAndIdna
