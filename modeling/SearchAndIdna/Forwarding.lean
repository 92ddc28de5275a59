import SearchAndIdna.Argv
import SearchAndIdna.CopyData

/-!
# Forwarding a command line

`AttemptFastNotify` sends `ToString()` of its own command line, and the running
instance parses that text again.  `ToString` quotes nothing, so the text is cut
at every whitespace of a key or value and its quotation marks are read as markup.

* `joined`, `toString_eq`: the rendering is the rendered entries joined by blanks;
* `ParsedEntry`: an entry of a parsed command line splits back from its rendering;
* `args_of_plain`: plain entries are read back one by one;
* `plain_of_same`: if the map survives, the entries were plain, by counting units
  (`Argv.argv_of_cost_eq` and `FirstWins.Map.length_of_weight_eq`);
* `forwards_iff`: exactly which command lines survive.
-/

namespace SearchAndIdna

open FirstWins WString

namespace Forwarding

open CommandLine Argv

/-- What the running instance makes of the message a new process sends for `A`. -/
def forwarded (sh : Shell) (A : CommandLine) : Except OutOfRange (Bool × CommandLine) :=
  CopyData.processCopyDataMessage sh (CopyData.copyDataFor A) (ofPointer sh none)

/-- The message for the text `s` is accepted and gives the same switch map. -/
def Forwards (w : Whitespace) (s : WString) : Prop :=
  ∃ B, forwarded (shell w) (ofPointer (shell w) (some s)) = .ok (true, B) ∧
    SameSwitchMap B (ofPointer (shell w) (some s))

/-- No unit of the entry is whitespace. -/
def Solid (w : Whitespace) (e : WString × WString) : Prop :=
  (∀ c ∈ e.1, w.isSpace c = false) ∧ ∀ c ∈ e.2, w.isSpace c = false

/-- Entries without whitespace, the first with a non-empty key that does not
start with a quotation mark, the others without quotation marks. -/
def PlainEntries (w : Whitespace) : List (WString × WString) → Prop
  | [] => True
  | e :: rest =>
    e.1 ≠ [] ∧ e.1.head? ≠ some quoteMark ∧ Solid w e ∧
      ∀ d ∈ rest, Solid w d ∧ quoteMark ∉ d.1 ∧ quoteMark ∉ d.2

/-- What a command line must be like to survive forwarding. -/
def Forwardable (w : Whitespace) (A : CommandLine) : Prop :=
  A.toString.length < 2 ^ 31 - 8 ∧ PlainEntries w A.argv_.entries

/-! ## The rendering -/

/-- The rendered entries, joined by single blanks. -/
def joined (l : List (WString × WString)) : WString := [0x20].intercalate (l.map renderUnit)

theorem joined_cons (e d : WString × WString) (l : List (WString × WString)) :
    joined (e :: d :: l) = renderUnit e ++ 0x20 :: joined (d :: l) := by
  simp [joined, List.intercalate]

theorem flatMap_render {l : List (WString × WString)} (h : l ≠ []) :
    l.flatMap (fun e => renderUnit e ++ [0x20]) = joined l ++ [0x20] := by
  induction l with
  | nil => exact absurd rfl h
  | cons e l ih =>
    cases l with
    | nil => simp [joined, List.intercalate]
    | cons d l => rw [List.flatMap_cons, ih (by simp), joined_cons]; simp

/-- `ToString` drops the last separator, or leaves it when the text is short. -/
theorem toString_eq (A : CommandLine) :
    A.toString = joined A.argv_.entries ∨ A.toString = joined A.argv_.entries ++ [0x20] := by
  simp only [CommandLine.toString, foldl_render_eq, List.nil_append]
  by_cases h : A.argv_.entries = []
  · rw [h]
    exact Or.inl rfl
  · rw [flatMap_render h]
    split
    · left
      rw [List.length_append, List.length_singleton, Nat.add_sub_cancel]
      exact List.take_left
    · exact Or.inr rfl

theorem trim_toString (w : Whitespace) (A : CommandLine) :
    trim w A.toString = trim w (joined A.argv_.entries) := by
  rcases toString_eq A with h | h
  · rw [h]
  · rw [h, trim_append_space w _ w.blank]

theorem length_joined {l : List (WString × WString)} (h : l ≠ []) :
    (joined l).length + 1 = Map.weight (fun e => (renderUnit e).length + 1) l := by
  induction l with
  | nil => exact absurd rfl h
  | cons e l ih =>
    cases l with
    | nil => simp [joined, List.intercalate, Map.weight]
    | cons d l =>
      have hi := ih (by simp)
      simp only [Map.weight, List.map_cons, List.sum_cons] at hi ⊢
      rw [joined_cons, List.length_append, List.length_cons]
      omega

theorem mem_joined {l : List (WString × WString)} {d : WString × WString} (hd : d ∈ l) {c : WChar}
    (hc : c ∈ renderUnit d) : c ∈ joined l := by
  induction l with
  | nil => simp at hd
  | cons e l ih =>
    cases l with
    | nil =>
      obtain rfl := List.mem_singleton.mp hd
      simpa [joined, List.intercalate] using hc
    | cons e' l =>
      rw [joined_cons]
      rcases List.mem_cons.mp hd with rfl | hd
      · exact List.mem_append_left _ hc
      · exact List.mem_append_right _ (List.mem_cons_of_mem _ (ih hd))

theorem countP_joined (w : Whitespace) {l : List (WString × WString)} (h : l ≠ []) :
    (joined l).countP w.isSpace + 1 =
      (l.map (fun e => (renderUnit e).countP w.isSpace)).sum + l.length := by
  induction l with
  | nil => exact absurd rfl h
  | cons e l ih =>
    cases l with
    | nil => simp [joined, List.intercalate]
    | cons d l =>
      have hi := ih (by simp)
      rw [joined_cons, List.countP_append, List.countP_cons_of_pos w.blank]
      simp only [List.map_cons, List.sum_cons, List.length_cons] at hi ⊢
      omega

/-! ## Entries of a parsed command line -/

/-- NUL-free, and split back from its own rendering. -/
structure ParsedEntry (e : WString × WString) : Prop where
  key : nul ∉ e.1
  value : nul ∉ e.2
  split : splitCommand (renderUnit e) = e

theorem renderUnit_of_noNul {e : WString × WString} (h₁ : nul ∉ e.1) (h₂ : nul ∉ e.2) :
    renderUnit e = if e.2 ≠ [] then e.1 ++ 0x3d :: e.2 else e.1 := by
  rw [renderUnit, cStr_eq_self h₁, cStr_eq_self h₂, kSwitchValueSeparator]
  simp

/-- A prefixed token with a separator is its key, the separator and its value. -/
theorem splitCommand_separator {token : WString} (hp : kSwitchPrefix <+: token)
    (hs : (0x3d : WChar) ∈ token) :
    ∃ k v, token = k ++ 0x3d :: v ∧ (0x3d : WChar) ∉ k ∧ splitCommand token = (k, v) := by
  obtain ⟨k, v, rfl, hk⟩ := List.eq_append_cons_of_mem hs
  have hall : ∀ c ∈ k, decide (c ≠ 0x3d) = true := by
    intro c hc
    have hne : c ≠ 0x3d := fun he => hk (he ▸ hc)
    simpa using hne
  refine ⟨k, v, rfl, hk, ?_⟩
  rw [splitCommand_prefixed hp hs, List.takeWhile_append_of_pos hall,
    List.dropWhile_append_of_pos hall]
  simp

theorem parsedEntry_splitCommand {token : WString} (hn : nul ∉ token) :
    ParsedEntry (splitCommand token) ∧ (renderUnit (splitCommand token)).length ≤ token.length := by
  by_cases hs : (0x3d : WChar) ∈ token ∧ kSwitchPrefix <+: token
  · obtain ⟨k, v, htoken, hke, hsplit⟩ := splitCommand_separator hs.2 hs.1
    have hkn : nul ∉ k := fun h => hn (by rw [htoken]; exact List.mem_append_left _ h)
    have hvn : nul ∉ v := fun h =>
      hn (by rw [htoken]; exact List.mem_append_right _ (List.mem_cons_of_mem _ h))
    have hr := renderUnit_of_noNul (e := (k, v)) hkn hvn
    rw [hsplit]
    by_cases hv : v = []
    · rw [if_neg (by simp [hv])] at hr
      refine ⟨⟨hkn, hvn, by rw [hr, splitCommand_of_notMem hke, hv]⟩, ?_⟩
      rw [hr, htoken]
      exact List.length_append ▸ Nat.le_add_right _ _
    · rw [if_pos hv, ← htoken] at hr
      exact ⟨⟨hkn, hvn, by rw [hr, hsplit]⟩, by rw [hr]⟩
  · have hid : splitCommand token = (token, []) := by
      rcases not_and_or.mp hs with hs | hs
      · exact splitCommand_of_notMem hs
      · exact splitCommand_unprefixed hs
    have hr : renderUnit (token, []) = token := by simp [renderUnit, cStr_eq_self hn]
    rw [hid]
    exact ⟨⟨hn, by simp, by rw [hr, hid]⟩, by rw [hr]⟩

theorem nul_notMem_of_mem_argumentsOf {sh : Shell} {text : Option WString} {arg : WString}
    (h : arg ∈ argumentsOf sh text) : nul ∉ arg := by
  cases text with
  | none => simp [argumentsOf] at h
  | some s =>
    simp only [argumentsOf, arguments] at h
    split at h
    · simp at h
    · obtain ⟨a, -, rfl⟩ := List.mem_map.mp h
      exact nul_notMem_cStr a

theorem parsedEntry_of_mem {sh : Shell} {text : Option WString} {e : WString × WString}
    (h : e ∈ (ofPointer sh text).argv_.entries) : ParsedEntry e := by
  rw [ofPointer_eq] at h
  obtain ⟨token, ht, rfl⟩ := List.mem_map.mp (Map.mem_entries_ofList h)
  exact (parsedEntry_splitCommand (nul_notMem_of_mem_argumentsOf ht)).1

theorem mem_renderUnit {e : WString × WString} (he : ParsedEntry e) {c : WChar} :
    c ∈ renderUnit e ↔ c ∈ e.1 ∨ (c = 0x3d ∧ e.2 ≠ []) ∨ c ∈ e.2 := by
  rw [renderUnit_of_noNul he.key he.value]
  by_cases hv : e.2 = []
  · simp [hv]
  · simp [hv]

/-- An entry with an empty key renders to nothing. -/
theorem renderUnit_ne_nil_iff {e : WString × WString} (he : ParsedEntry e) :
    renderUnit e ≠ [] ↔ e.1 ≠ [] := by
  have hr := renderUnit_of_noNul he.key he.value
  constructor
  · intro hne hk
    by_cases hv : e.2 = []
    · rw [if_neg (by simp [hv]), hk] at hr
      exact hne hr
    · -- without the prefix the separator is part of the key
      rw [if_pos hv, hk, List.nil_append] at hr
      have hs := he.split
      rw [hr, splitCommand_unprefixed (by simp [kSwitchPrefix])] at hs
      have := congrArg Prod.fst hs
      rw [hk] at this
      simp at this
  · intro hk hne
    rw [hr] at hne
    split at hne
    · simp at hne
    · exact hk hne

theorem head_renderUnit {e : WString × WString} (he : ParsedEntry e) (hk : e.1 ≠ []) :
    (renderUnit e).head? = e.1.head? := by
  obtain ⟨c, k, hc⟩ := List.exists_cons_of_ne_nil hk
  rw [renderUnit_of_noNul he.key he.value]
  split <;> simp [hc]

theorem solid_iff (w : Whitespace) {e : WString × WString} (he : ParsedEntry e) :
    Solid w e ↔ ∀ c ∈ renderUnit e, w.isSpace c = false := by
  constructor
  · rintro ⟨h₁, h₂⟩ c hc
    rcases (mem_renderUnit he).mp hc with h | ⟨rfl, -⟩ | h
    · exact h₁ c h
    · exact w.visible _ (by decide) (by decide)
    · exact h₂ c h
  · intro h
    exact ⟨fun c hc => h c ((mem_renderUnit he).mpr (Or.inl hc)),
      fun c hc => h c ((mem_renderUnit he).mpr (Or.inr (Or.inr hc)))⟩

theorem quote_notMem_renderUnit {e : WString × WString} (he : ParsedEntry e) :
    quoteMark ∉ renderUnit e ↔ quoteMark ∉ e.1 ∧ quoteMark ∉ e.2 := by
  have hq : quoteMark ≠ 0x3d := by decide
  rw [mem_renderUnit he]
  simp [hq]

/-! ## Plain entries survive -/

theorem joined_last (w : Whitespace) {l : List (WString × WString)}
    (h : ∀ e ∈ l, renderUnit e ≠ [] ∧ ∀ c ∈ renderUnit e, w.isSpace c = false) :
    ∀ c ∈ (joined l).getLast?, w.isSpace c = false := by
  induction l with
  | nil => simp [joined, List.intercalate]
  | cons e l ih =>
    obtain ⟨hne, hsp⟩ := h e (List.mem_cons_self ..)
    cases l with
    | nil =>
      intro c hc
      rw [show joined [e] = renderUnit e by simp [joined, List.intercalate]] at hc
      exact hsp c (List.mem_of_getLast? hc)
    | cons d l =>
      have hlast : (joined (e :: d :: l)).getLast? = (joined (d :: l)).getLast? := by
        have hd : joined (d :: l) ≠ [] := by
          intro hnil
          have hlen := length_joined (l := d :: l) (by simp)
          obtain ⟨b, t, hbt⟩ := List.exists_cons_of_ne_nil (h d (by simp)).1
          rw [hnil] at hlen
          simp only [Map.weight, List.map_cons, List.sum_cons, List.length_nil, hbt,
            List.length_cons] at hlen
          omega
        rw [joined_cons, List.getLast?_append_of_ne_nil _ (by simp), List.getLast?_cons_of_ne_nil hd]
      rw [hlast]
      exact ih fun e' he' => h e' (List.mem_cons_of_mem _ he')

/-- Plain entries are one argument each. -/
theorem args_of_plain (w : Whitespace) {e : WString × WString} {rest : List (WString × WString)}
    (hp : PlainEntries w (e :: rest)) (he : ∀ d ∈ e :: rest, ParsedEntry d)
    (hne : ∀ d ∈ rest, d.1 ≠ []) :
    trim w (joined (e :: rest)) = joined (e :: rest) ∧ joined (e :: rest) ≠ [] ∧
      commandLineToArgvW w (joined (e :: rest)) = (e :: rest).map renderUnit := by
  obtain ⟨hkey, hquote, hsolid, hrest⟩ := hp
  have hpe := he e (List.mem_cons_self ..)
  have hpd : ∀ d ∈ rest, ParsedEntry d := fun d hd => he d (List.mem_cons_of_mem _ hd)
  have hesolid := (solid_iff w hpe).mp hsolid
  have hene := (renderUnit_ne_nil_iff hpe).mpr hkey
  have hehead : (renderUnit e).head? ≠ some quoteMark := by rw [head_renderUnit hpe hkey]; exact hquote
  have hwords : ∀ t ∈ rest.map renderUnit, Plain w t ∧ t ≠ [] := by
    intro t ht
    obtain ⟨d, hd, rfl⟩ := List.mem_map.mp ht
    obtain ⟨hs, hq₁, hq₂⟩ := hrest d hd
    refine ⟨fun c hc => ⟨?_, (solid_iff w (hpd d hd)).mp hs c hc⟩,
      (renderUnit_ne_nil_iff (hpd d hd)).mpr (hne d hd)⟩
    rintro rfl
    exact (quote_notMem_renderUnit (hpd d hd)).mpr ⟨hq₁, hq₂⟩ hc
  -- the rest of the line, with the separator before it
  obtain ⟨s, hs, hstops, hjoin⟩ : ∃ s, readArgs w none s = rest.map renderUnit ∧ Stops w s ∧
      joined (e :: rest) = renderUnit e ++ s := by
    cases rest with
    | nil => exact ⟨[], rfl, trivial, by simp [joined, List.intercalate]⟩
    | cons d rest =>
      refine ⟨0x20 :: joined (d :: rest), ?_, w.blank, joined_cons e d rest⟩
      rw [readArgs_none_space w w.blank]
      exact readArgs_joined w hwords
  have hspan := span_word w hesolid hstops
  obtain ⟨c, t, hct⟩ := List.exists_cons_of_ne_nil hene
  refine ⟨?_, by rw [hjoin, hct]; simp, ?_⟩
  · refine trim_eq_self w (fun b hb => ?_) (joined_last w fun d hd => ?_)
    · rw [hjoin, hct] at hb
      have hbc : c = b := by simpa using hb
      exact hesolid b (by rw [hct, hbc]; exact List.mem_cons_self ..)
    · rcases List.mem_cons.mp hd with rfl | hd
      · exact ⟨hene, hesolid⟩
      · exact ⟨(renderUnit_ne_nil_iff (hpd d hd)).mpr (hne d hd),
          (solid_iff w (hpd d hd)).mp (hrest d hd).1⟩
  · rw [argv_unquoted w (by rw [hjoin, hct]; simpa [hct] using hehead), hjoin, hspan.1, hspan.2, hs]
    rfl

/-! ## The text the running instance parses -/

/-- The arguments the running instance reads. -/
theorem argumentsOf_toString (w : Whitespace) (A : CommandLine) :
    argumentsOf (shell w) (some A.toString) =
      if trim w (joined A.argv_.entries) = [] then []
      else (commandLineToArgvW w (trim w (joined A.argv_.entries))).map cStr := by
  have hn : nul ∉ trim w (joined A.argv_.entries) := by
    rw [← trim_toString]
    exact fun h => A.nul_notMem_toString (mem_of_mem_trim h)
  rw [argumentsOf, cStr_eq_self A.nul_notMem_toString, arguments, ← trim_toString] at *
  simp only [shell, cStr_eq_self hn]

theorem forwarded_eq (sh : Shell) (A : CommandLine) :
    forwarded sh A =
      if A.toString.length < 2 ^ 31 - 8 then .ok (true, ofPointer sh (some A.toString))
      else .ok (false, ofPointer sh none) := by
  split
  · rename_i h
    obtain ⟨hf, hb⟩ := CopyData.copyDataFor_framed A h
    rw [forwarded, CopyData.processCopyDataMessage_framed sh _ hf, hb]
  · rename_i h
    exact CopyData.processCopyDataMessage_unframed sh _
      (CopyData.copyDataFor_overflow A (not_lt.mp h))

/-! ## Nothing else survives -/

theorem weight_items_le (args : List WString) :
    Map.weight (fun e => (renderUnit e).length + 1) ((args.map cStr).map splitCommand) ≤
      cost args := by
  induction args with
  | nil => simp [Map.weight, cost]
  | cons a args ih =>
    have ha := (parsedEntry_splitCommand (nul_notMem_cStr a)).2
    have hc : (cStr a).length ≤ a.length := (List.takeWhile_sublist _).length_le
    simp only [Map.weight, cost, List.map_cons, List.sum_cons] at ih ⊢
    omega

/-- If the re-read map is the map, its entries were plain. -/
theorem plain_of_same (w : Whitespace) {A : CommandLine} (hp : ∀ e ∈ A.argv_.entries, ParsedEntry e)
    (h : ofPointer (shell w) (some A.toString) = A) : PlainEntries w A.argv_.entries := by
  rw [ofPointer_eq, argumentsOf_toString] at h
  generalize hl : A.argv_.entries = l at hp h
  have hentries := congrArg (fun B : CommandLine => B.argv_.entries) h
  simp only [hl] at hentries
  cases l with
  | nil => trivial
  | cons e rest =>
    generalize hJ : joined (e :: rest) = J at hentries
    have htrim : trim w J ≠ [] := by
      intro hnil
      rw [if_pos hnil] at hentries
      exact absurd hentries (by simp [Map.ofList, Map.empty])
    rw [if_neg htrim] at hentries
    generalize hargs : commandLineToArgvW w (trim w J) = args at hentries
    -- entries, items, arguments and text have at most each other's weight, in a circle
    have hjoin := length_joined (l := e :: rest) (by simp)
    have hpos : ∀ d : WString × WString, 0 < (renderUnit d).length + 1 := fun _ => Nat.succ_pos _
    have hof := Map.weight_ofList_le (fun e => (renderUnit e).length + 1)
      ((args.map cStr).map splitCommand)
    have hitems := weight_items_le args
    have hcost := cost_argv_le w (trim w J)
    have hshort := length_trim_le w J
    rw [hentries] at hof
    rw [hJ] at hjoin
    rw [hargs] at hcost
    have htrimJ : trim w J = J := trim_eq_self_of_length w (by omega)
    have hweight : Map.weight (fun e => (renderUnit e).length + 1)
        (Map.ofList ((args.map cStr).map splitCommand)).entries =
          Map.weight (fun e => (renderUnit e).length + 1) ((args.map cStr).map splitCommand) := by
      rw [hentries]
      omega
    have hlength := Map.length_of_weight_eq _ hpos hweight
    rw [hentries, List.length_map, List.length_map] at hlength
    have hfull : cost (commandLineToArgvW w J) = J.length + 1 := by
      rw [← htrimJ, hargs, htrimJ]
      omega
    obtain ⟨hquote, hquotes, hcount⟩ := argv_of_cost_eq w (by rw [← htrimJ]; exact htrim) hfull
    rw [← htrimJ, hargs, htrimJ, ← hlength] at hcount
    -- so the separators are the only whitespace
    have hspaces := countP_joined w (l := e :: rest) (by simp)
    rw [hJ] at hspaces
    have hsolid : ∀ d ∈ e :: rest, ∀ c ∈ renderUnit d, w.isSpace c = false := by
      intro d hd c hc
      have hzero : ((e :: rest).map (fun d => (renderUnit d).countP w.isSpace)).sum = 0 := by omega
      have hd0 := List.sum_eq_zero_iff.mp hzero _ (List.mem_map_of_mem hd)
      simpa using List.countP_eq_zero.mp hd0 c hc
    have hpe := hp e (List.mem_cons_self ..)
    obtain ⟨s, hstops, hJs, hrest⟩ : ∃ s, Stops w s ∧ J = renderUnit e ++ s ∧
        ∀ d ∈ rest, ∀ c ∈ renderUnit d, c ∈ s := by
      cases rest with
      | nil => exact ⟨[], trivial, by rw [← hJ]; simp [joined, List.intercalate], by simp⟩
      | cons d rest =>
        exact ⟨0x20 :: joined (d :: rest), w.blank, by rw [← hJ, joined_cons],
          fun d' hd' c hc => List.mem_cons_of_mem _ (mem_joined hd' hc)⟩
    have hne : renderUnit e ≠ [] := by
      intro hnil
      rw [hnil, List.nil_append] at hJs
      cases s with
      | nil => exact htrim (by rw [htrimJ, hJs])
      | cons c s =>
        have hc := head_not_space_of_trim_eq w (c := c) (s := s) (by rw [← hJs]; exact htrimJ)
        exact absurd (hc.symm.trans hstops) Bool.false_ne_true
    have hkey := (renderUnit_ne_nil_iff hpe).mp hne
    obtain ⟨c, t, hct⟩ := List.exists_cons_of_ne_nil hne
    refine ⟨hkey, ?_, (solid_iff w hpe).mpr (hsolid e (List.mem_cons_self ..)), fun d hd => ?_⟩
    · rw [← head_renderUnit hpe hkey]
      rw [hJs, hct] at hquote
      rw [hct]
      exact hquote
    · have hpd := hp d (List.mem_cons_of_mem _ hd)
      refine ⟨(solid_iff w hpd).mpr (hsolid d (List.mem_cons_of_mem _ hd)),
        (quote_notMem_renderUnit hpd).mp fun hc => hquotes ?_⟩
      rw [hJs, (span_word w (hsolid e (List.mem_cons_self ..)) hstops).2]
      exact hrest d hd _ hc

/-! ## Exactly the plain command lines survive -/

theorem same_of_plain (w : Whitespace) {A : CommandLine} (hp : ∀ e ∈ A.argv_.entries, ParsedEntry e)
    (h : PlainEntries w A.argv_.entries) : ofPointer (shell w) (some A.toString) = A := by
  rw [ofPointer_eq, argumentsOf_toString]
  apply CommandLine.ext
  apply Map.ext
  have hself := congrArg Map.entries (Map.ofList_entries A.argv_)
  have hasc := A.argv_.ascending
  generalize hl : A.argv_.entries = l at hp h hself hasc
  cases l with
  | nil => simp [joined, List.intercalate, trim, Map.ofList, Map.empty]
  | cons e rest =>
    have hne : ∀ d ∈ rest, d.1 ≠ [] := by
      intro d hd hnil
      have hlt := (List.pairwise_cons.mp hasc).1 d hd
      rw [hnil] at hlt
      exact absurd hlt (List.not_lt_nil _)
    obtain ⟨htrim, hnonempty, hargs⟩ := args_of_plain w h hp hne
    rw [htrim, if_neg hnonempty, hargs]
    have hmap : (((e :: rest).map renderUnit).map cStr).map splitCommand = e :: rest := by
      rw [List.map_map, List.map_map]
      refine (List.map_congr_left fun d hd => ?_).trans (List.map_id _)
      show splitCommand (cStr (renderUnit d)) = d
      rw [cStr_eq_self (nul_notMem_renderUnit d), (hp d hd).split]
    rw [hmap]
    exact hself

/-- **What survives forwarding.**  The message for the text `s` is accepted and
gives the same switches and values exactly when the parsed command line is
`Forwardable`. -/
theorem forwards_iff (w : Whitespace) (s : WString) :
    Forwards w s ↔ Forwardable w (ofPointer (shell w) (some s)) := by
  have hp : ∀ e ∈ (ofPointer (shell w) (some s)).argv_.entries, ParsedEntry e :=
    fun e he => parsedEntry_of_mem he
  rw [Forwards, Forwardable]
  generalize ofPointer (shell w) (some s) = A at hp
  constructor
  · rintro ⟨B, hB, hsame⟩
    rw [forwarded_eq] at hB
    split at hB
    · rename_i hlen
      have hBA : ofPointer (shell w) (some A.toString) = B := congrArg Prod.snd (Except.ok.inj hB)
      exact ⟨hlen, plain_of_same w hp (hBA.trans ((sameSwitchMap_iff B A).mp hsame))⟩
    · exact absurd (congrArg Prod.fst (Except.ok.inj hB)) Bool.false_ne_true
  · rintro ⟨hlen, hplain⟩
    refine ⟨A, ?_, (sameSwitchMap_iff A A).mpr rfl⟩
    rw [forwarded_eq, if_pos hlen, same_of_plain w hp hplain]

/-- The text `x "a --name"`: the quoted argument comes back as two, and one of
them is a switch the sender never had. -/
theorem forwards_quoted_blank_fails :
    ¬ Forwards blanks
      [0x78, 0x20, 0x22, 0x61, 0x20, 0x2d, 0x2d, 0x6e, 0x61, 0x6d, 0x65, 0x22] := by
  rintro ⟨B, hB, hsame⟩
  rw [forwarded_eq, if_pos (by decide)] at hB
  obtain rfl := congrArg Prod.snd (Except.ok.inj hB)
  exact absurd (hsame [0x2d, 0x2d, 0x6e, 0x61, 0x6d, 0x65]).1 (by decide)

end Forwarding

end SearchAndIdna
