import SearchAndIdna.CommandLine

/-!
# `CommandLineToArgvW` by its documented rules

The first argument is read as a program name: up to the closing quote if the
line starts with a quote, else up to the first whitespace, with no other
processing.  Later arguments end at whitespace outside quotation marks; `2n`
backslashes before a quotation mark give `n` backslashes and toggle the quoted
mode, `2n + 1` give `n` backslashes and a quotation mark, and backslashes before
anything else stay as they are.  What counts as whitespace is a parameter,
shared with `Trim`.

* `readArgs_behind`: text already written only prefixes the argument;
* `cost_readArgs_le`: arguments never take more units than the line has, and
  `readArgs_of_cost_eq`: if none is lost, there is no quotation mark and every
  whitespace unit separates two arguments;
* `readArgs_joined`: arguments without quotation marks and whitespace are read
  back from their joined text.
-/

namespace SearchAndIdna

open WString

/-- What the shell functions take for whitespace: the blank, and no visible
ASCII character. -/
structure Whitespace where
  isSpace : WChar → Bool
  blank : isSpace 0x20 = true
  visible : ∀ c : WChar, 0x21 ≤ c → c ≤ 0x7e → isSpace c = false

/-- Blank and tab. -/
def blanks : Whitespace where
  isSpace c := c == 0x20 || c == 0x09
  blank := rfl
  visible c h _ := by
    have h₁ : c ≠ 0x20 := fun he => absurd (he ▸ h) (by decide)
    have h₂ : c ≠ 0x09 := fun he => absurd (he ▸ h) (by decide)
    simp [h₁, h₂]

namespace Argv

def quoteMark : WChar := 0x22

def backslash : WChar := 0x5c

theorem quoteMark_ne_backslash : quoteMark ≠ backslash := by decide

theorem isSpace_quoteMark (w : Whitespace) : w.isSpace quoteMark = false :=
  w.visible quoteMark (by decide) (by decide)

theorem ne_quoteMark_of_isSpace {w : Whitespace} {c : WChar} (h : w.isSpace c = true) :
    c ≠ quoteMark := by
  rintro rfl
  exact Bool.false_ne_true ((isSpace_quoteMark w).symm.trans h)

theorem ne_backslash_of_isSpace {w : Whitespace} {c : WChar} (h : w.isSpace c = true) :
    c ≠ backslash := by
  rintro rfl
  exact Bool.false_ne_true ((w.visible backslash (by decide) (by decide)).symm.trans h)

/-- The program name and what follows it. -/
def programName (w : Whitespace) (line : WString) : WString × WString :=
  match line with
  | [] => ([], [])
  | c :: s =>
    if c = quoteMark then (s.takeWhile (· ≠ quoteMark), (s.dropWhile (· ≠ quoteMark)).tail)
    else ((c :: s).takeWhile (!w.isSpace ·), (c :: s).dropWhile (!w.isSpace ·))

/-- An argument being read: the units written, the backslashes seen since and not
yet written, and whether a quotation mark is open. -/
structure Reading where
  arg : WString
  slashes : Nat
  quoted : Bool
  deriving DecidableEq, Repr

namespace Reading

def start : Reading := ⟨[], 0, false⟩

def finish (r : Reading) : WString := r.arg ++ List.replicate r.slashes backslash

def next (r : Reading) (c : WChar) : Reading :=
  if c = backslash then ⟨r.arg, r.slashes + 1, r.quoted⟩
  else if c = quoteMark then
    if r.slashes % 2 = 1 then
      ⟨r.arg ++ List.replicate (r.slashes / 2) backslash ++ [quoteMark], 0, r.quoted⟩
    else ⟨r.arg ++ List.replicate (r.slashes / 2) backslash, 0, !r.quoted⟩
  else ⟨r.finish ++ [c], 0, r.quoted⟩

/-- Units held, written or not. -/
def size (r : Reading) : Nat := r.arg.length + r.slashes

/-- The same reading behind more text. -/
def behind (a : WString) (r : Reading) : Reading := ⟨a ++ r.arg, r.slashes, r.quoted⟩

end Reading

/-- The later arguments; `none` between arguments. -/
def readArgs (w : Whitespace) : Option Reading → WString → List WString
  | none, [] => []
  | some r, [] => [r.finish]
  | none, c :: s =>
    if w.isSpace c then readArgs w none s else readArgs w (some (Reading.start.next c)) s
  | some r, c :: s =>
    if w.isSpace c && !r.quoted then r.finish :: readArgs w none s
    else readArgs w (some (r.next c)) s

def commandLineToArgvW (w : Whitespace) (line : WString) : List WString :=
  (programName w line).1 :: readArgs w none (programName w line).2

/-- `RCStringUtil::Trim`. -/
def trim (w : Whitespace) (s : WString) : WString :=
  (s.dropWhile w.isSpace).rdropWhile w.isSpace

/-- The shell functions by their documentation. -/
def shell (w : Whitespace) : Shell := ⟨trim w, commandLineToArgvW w⟩

/-! ## One unit -/

namespace Reading

theorem next_behind (a : WString) (r : Reading) (c : WChar) :
    (r.behind a).next c = (r.next c).behind a := by
  simp only [next, behind, finish]
  split
  · rfl
  · split
    · split
      · rename_i hodd
        simp [hodd]
      · rename_i heven
        simp [heven]
    · simp

theorem finish_behind (a : WString) (r : Reading) : (r.behind a).finish = a ++ r.finish := by
  simp [finish, behind]

theorem length_finish (r : Reading) : r.finish.length = r.size := by
  simp [finish, size]

theorem next_of_ne {c : WChar} (r : Reading) (hq : c ≠ quoteMark) :
    (r.next c).finish = r.finish ++ [c] ∧ (r.next c).quoted = r.quoted ∧
      (r.next c).size = r.size + 1 := by
  by_cases hb : c = backslash
  · subst hb
    simp [next, finish, size, List.replicate_succ', Nat.add_assoc]
  · simp [next, hb, hq, finish, size, Nat.add_assoc]

/-- A quotation mark loses at least one unit. -/
theorem size_next_quote (r : Reading) : (r.next quoteMark).size ≤ r.size := by
  rw [next, if_neg quoteMark_ne_backslash, if_pos rfl]
  split
  · simp only [size, List.length_append, List.length_replicate, List.length_singleton]
    omega
  · simp only [size, List.length_append, List.length_replicate]
    omega

theorem size_next_le (r : Reading) (c : WChar) : (r.next c).size ≤ r.size + 1 := by
  by_cases hq : c = quoteMark
  · subst hq
    have := r.size_next_quote
    omega
  · exact le_of_eq (r.next_of_ne hq).2.2

end Reading

/-! ## Arguments -/

/-- Text already written only prefixes the argument being read. -/
theorem readArgs_behind (w : Whitespace) (a s : WString) (r : Reading) :
    readArgs w (some (r.behind a)) s = (readArgs w (some r) s).modifyHead (a ++ ·) := by
  induction s generalizing r with
  | nil => simp [readArgs, Reading.finish_behind]
  | cons c s ih =>
    rw [readArgs, readArgs, show (r.behind a).quoted = r.quoted from rfl]
    split
    · simp [Reading.finish_behind]
    · rw [Reading.next_behind]
      exact ih _

/-- The end of the line, or whitespace. -/
def Stops (w : Whitespace) : WString → Prop
  | [] => True
  | c :: _ => w.isSpace c = true

instance (w : Whitespace) : DecidablePred (Stops w)
  | [] => inferInstanceAs (Decidable True)
  | c :: _ => inferInstanceAs (Decidable (w.isSpace c = true))

/-- Without quotation marks and whitespace. -/
def Plain (w : Whitespace) (t : WString) : Prop := ∀ c ∈ t, c ≠ quoteMark ∧ w.isSpace c = false

theorem readArgs_word (w : Whitespace) {t s : WString} (ht : Plain w t) (hs : Stops w s)
    {r : Reading} (hr : r.quoted = false) :
    readArgs w (some r) (t ++ s) = (r.finish ++ t) :: readArgs w none s := by
  induction t generalizing r with
  | nil =>
    cases s with
    | nil => simp [readArgs]
    | cons c s =>
      have hc : w.isSpace c = true := hs
      simp [readArgs, hc, hr]
  | cons c t ih =>
    obtain ⟨hq, hsp⟩ := ht c (List.mem_cons_self ..)
    obtain ⟨hf, hquoted, -⟩ := r.next_of_ne hq
    rw [List.cons_append, readArgs, hsp, Bool.false_and, if_neg Bool.false_ne_true,
      ih (fun d hd => ht d (List.mem_cons_of_mem _ hd)) (hquoted.trans hr), hf]
    simp

theorem readArgs_none_word (w : Whitespace) {t s : WString} (ht : Plain w t) (hne : t ≠ [])
    (hs : Stops w s) : readArgs w none (t ++ s) = t :: readArgs w none s := by
  cases t with
  | nil => exact absurd rfl hne
  | cons c t =>
    obtain ⟨hq, hsp⟩ := ht c (List.mem_cons_self ..)
    obtain ⟨hf, hquoted, -⟩ := Reading.start.next_of_ne hq
    rw [List.cons_append, readArgs, hsp, if_neg Bool.false_ne_true,
      readArgs_word w (fun d hd => ht d (List.mem_cons_of_mem _ hd)) hs hquoted, hf]
    rfl

theorem readArgs_none_space (w : Whitespace) {c : WChar} (hc : w.isSpace c = true) (s : WString) :
    readArgs w none (c :: s) = readArgs w none s := by
  rw [readArgs, if_pos hc]

/-- Plain words joined by single blanks are read back. -/
theorem readArgs_joined (w : Whitespace) {ts : List WString}
    (hts : ∀ t ∈ ts, Plain w t ∧ t ≠ []) :
    readArgs w none ([0x20].intercalate ts) = ts := by
  induction ts with
  | nil => rfl
  | cons t ts ih =>
    obtain ⟨ht, hne⟩ := hts t (List.mem_cons_self ..)
    have ih := ih fun t' h => hts t' (List.mem_cons_of_mem _ h)
    cases ts with
    | nil => simpa [List.intercalate, readArgs] using readArgs_none_word w ht hne (s := []) trivial
    | cons t' ts =>
      have hj : [0x20].intercalate (t :: t' :: ts) = t ++ 0x20 :: [0x20].intercalate (t' :: ts) := by
        simp [List.intercalate]
      rw [hj, readArgs_none_word w ht hne (s := 0x20 :: _) w.blank,
        readArgs_none_space w w.blank, ih]

/-! ## How many units the arguments take -/

/-- The length of the arguments with one separator each. -/
def cost (args : List WString) : Nat := (args.map (·.length + 1)).sum

theorem cost_readArgs_le (w : Whitespace) (s : WString) :
    (∀ r, cost (readArgs w (some r) s) ≤ r.size + s.length + 1) ∧
      cost (readArgs w none s) ≤ s.length + 1 := by
  induction s with
  | nil =>
    refine ⟨fun r => ?_, by simp [readArgs, cost]⟩
    simp [readArgs, cost, Reading.length_finish]
  | cons c s ih =>
    obtain ⟨hsome, hnone⟩ := ih
    constructor
    · intro r
      rw [readArgs]
      split
      · simp only [cost, List.map_cons, List.sum_cons, Reading.length_finish] at hnone ⊢
        simp only [List.length_cons]
        omega
      · have h₁ := hsome (r.next c)
        have h₂ := r.size_next_le c
        simp only [List.length_cons]
        omega
    · rw [readArgs]
      split
      · simp only [List.length_cons]
        omega
      · have h₁ := hsome (Reading.start.next c)
        have h₂ := Reading.start.size_next_le c
        have h₃ : Reading.start.size = 0 := rfl
        simp only [List.length_cons]
        omega

/-- If no unit is lost, there is no quotation mark, and every whitespace unit
separates two arguments. -/
theorem readArgs_of_cost_eq (w : Whitespace) (s : WString) :
    (∀ r, r.quoted = false → cost (readArgs w (some r) s) = r.size + s.length + 1 →
      quoteMark ∉ s ∧ (readArgs w (some r) s).length = s.countP w.isSpace + 1) ∧
    (cost (readArgs w none s) = s.length + 1 →
      quoteMark ∉ s ∧ (readArgs w none s).length = s.countP w.isSpace + 1) := by
  induction s with
  | nil => exact ⟨fun r _ _ => by simp [readArgs], by simp [readArgs, cost]⟩
  | cons c s ih =>
    obtain ⟨hsome, hnone⟩ := ih
    have hle := cost_readArgs_le w s
    -- the next unit is a quotation mark: something is lost
    have hquote : ∀ r : Reading, c = quoteMark →
        cost (readArgs w (some (r.next c)) s) ≤ r.size + s.length + 1 := by
      rintro r rfl
      have h₁ := hle.1 (r.next quoteMark)
      have h₂ := r.size_next_quote
      omega
    -- the next unit is neither quotation mark nor separator
    have hword : ∀ r : Reading, r.quoted = false → w.isSpace c = false →
        cost (readArgs w (some (r.next c)) s) = r.size + (s.length + 1) + 1 →
        quoteMark ∉ c :: s ∧
          (readArgs w (some (r.next c)) s).length = (c :: s).countP w.isSpace + 1 := by
      intro r hr hsp hcost
      by_cases hq : c = quoteMark
      · have := hquote r hq
        omega
      · obtain ⟨-, hquoted, hsize⟩ := r.next_of_ne hq
        obtain ⟨hqs, hlen⟩ := hsome (r.next c) (hquoted.trans hr) (by omega)
        refine ⟨?_, ?_⟩
        · simp only [List.mem_cons, not_or]
          exact ⟨Ne.symm hq, hqs⟩
        · rw [List.countP_cons_of_neg (by simp [hsp]), hlen]
    constructor
    · intro r hr hcost
      rw [readArgs, hr, Bool.not_false, Bool.and_true] at hcost ⊢
      rw [List.length_cons] at hcost
      by_cases hsp : w.isSpace c = true
      · rw [if_pos hsp] at hcost ⊢
        have hc : c ≠ quoteMark := ne_quoteMark_of_isSpace hsp
        simp only [cost, List.map_cons, List.sum_cons, Reading.length_finish] at hcost
        obtain ⟨hqs, hlen⟩ := hnone (by simp only [cost]; omega)
        refine ⟨?_, ?_⟩
        · simp only [List.mem_cons, not_or]
          exact ⟨Ne.symm hc, hqs⟩
        · rw [List.length_cons, hlen, List.countP_cons_of_pos hsp]
      · rw [if_neg hsp] at hcost ⊢
        exact hword r hr (by simpa using hsp) hcost
    · intro hcost
      rw [readArgs] at hcost ⊢
      rw [List.length_cons] at hcost
      by_cases hsp : w.isSpace c = true
      · rw [if_pos hsp] at hcost
        have := hle.2
        omega
      · rw [if_neg hsp] at hcost ⊢
        have h₃ : Reading.start.size = 0 := rfl
        exact hword Reading.start rfl (by simpa using hsp) (by omega)

/-! ## Whole lines -/

theorem argv_unquoted (w : Whitespace) {line : WString} (h : line.head? ≠ some quoteMark) :
    commandLineToArgvW w line =
      line.takeWhile (!w.isSpace ·) :: readArgs w none (line.dropWhile (!w.isSpace ·)) := by
  cases line with
  | nil => rfl
  | cons c s =>
    have hc : c ≠ quoteMark := fun he => h (by rw [he]; rfl)
    rw [commandLineToArgvW, programName, if_neg hc]

theorem argv_quoted (w : Whitespace) (s : WString) :
    commandLineToArgvW w (quoteMark :: s) =
      s.takeWhile (· ≠ quoteMark) :: readArgs w none (s.dropWhile (· ≠ quoteMark)).tail := by
  rw [commandLineToArgvW, programName, if_pos rfl]

theorem stops_dropWhile (w : Whitespace) (s : WString) : Stops w (s.dropWhile (!w.isSpace ·)) := by
  cases h : s.dropWhile (!w.isSpace ·) with
  | nil => trivial
  | cons c t =>
    have hc := List.head?_dropWhile_not (!w.isSpace ·) s
    rw [h] at hc
    simpa [Stops] using hc

/-- A first word without whitespace is cut off whole. -/
theorem span_word (w : Whitespace) {t s : WString} (ht : ∀ c ∈ t, w.isSpace c = false)
    (hs : Stops w s) :
    (t ++ s).takeWhile (!w.isSpace ·) = t ∧ (t ++ s).dropWhile (!w.isSpace ·) = s := by
  have hall : ∀ c ∈ t, (!w.isSpace c) = true := fun c hc => by rw [ht c hc]; rfl
  rw [List.takeWhile_append_of_pos hall, List.dropWhile_append_of_pos hall]
  cases s with
  | nil => simp
  | cons c s =>
    have hc : w.isSpace c = true := hs
    simp [hc]

theorem cost_readArgs_stops (w : Whitespace) {s : WString} (hs : Stops w s) :
    cost (readArgs w none s) ≤ s.length ∧
      (cost (readArgs w none s) = s.length →
        quoteMark ∉ s ∧ (readArgs w none s).length = s.countP w.isSpace) := by
  cases s with
  | nil => simp [readArgs, cost]
  | cons c s =>
    have hc : w.isSpace c = true := hs
    have hq : quoteMark ≠ c := (ne_quoteMark_of_isSpace hc).symm
    rw [readArgs_none_space w hc, List.length_cons, List.countP_cons_of_pos hc]
    refine ⟨(cost_readArgs_le w s).2, fun h => ?_⟩
    obtain ⟨h₁, h₂⟩ := (readArgs_of_cost_eq w s).2 h
    exact ⟨by simp [hq, h₁], h₂⟩

theorem cost_argv_le (w : Whitespace) (line : WString) :
    cost (commandLineToArgvW w line) ≤ line.length + 1 := by
  by_cases h : line.head? = some quoteMark
  · obtain ⟨s, rfl⟩ : ∃ s, line = quoteMark :: s := List.head?_eq_some_iff.mp h
    have hc := (cost_readArgs_le w (s.dropWhile (· ≠ quoteMark)).tail).2
    have hs := congrArg List.length
      (List.takeWhile_append_dropWhile (p := (· ≠ quoteMark)) (l := s))
    rw [argv_quoted]
    simp only [cost, List.map_cons, List.sum_cons, List.length_cons, List.length_append,
      List.length_tail] at hc hs ⊢
    omega
  · have hc := (cost_readArgs_stops w (stops_dropWhile w line)).1
    have hs := congrArg List.length
      (List.takeWhile_append_dropWhile (p := (!w.isSpace ·)) (l := line))
    rw [argv_unquoted w h]
    simp only [cost, List.map_cons, List.sum_cons, List.length_append] at hc hs ⊢
    omega

/-- If no unit of a line is lost, the line starts without a quotation mark, has
none after its first argument, and is cut at every whitespace unit. -/
theorem argv_of_cost_eq (w : Whitespace) {line : WString} (hne : line ≠ [])
    (h : cost (commandLineToArgvW w line) = line.length + 1) :
    line.head? ≠ some quoteMark ∧ quoteMark ∉ line.dropWhile (!w.isSpace ·) ∧
      (commandLineToArgvW w line).length = line.countP w.isSpace + 1 := by
  by_cases hq : line.head? = some quoteMark
  · exfalso
    obtain ⟨s, rfl⟩ : ∃ s, line = quoteMark :: s := List.head?_eq_some_iff.mp hq
    have hs := congrArg List.length
      (List.takeWhile_append_dropWhile (p := (· ≠ quoteMark)) (l := s))
    rw [argv_quoted] at h
    cases hd : s.dropWhile (· ≠ quoteMark) with
    | nil =>
      rw [hd] at h hs
      simp only [cost, readArgs, List.tail_nil, List.map_cons, List.map_nil, List.sum_cons,
        List.sum_nil, List.length_cons, List.length_append, List.length_nil] at h hs
      omega
    | cons c t =>
      have hc := (cost_readArgs_le w t).2
      rw [hd] at h hs
      simp only [cost, List.tail_cons, List.map_cons, List.sum_cons, List.length_cons,
        List.length_append] at h hs hc
      omega
  · have hstop := cost_readArgs_stops w (stops_dropWhile w line)
    have hs := congrArg List.length
      (List.takeWhile_append_dropWhile (p := (!w.isSpace ·)) (l := line))
    have hcount : line.countP w.isSpace = (line.dropWhile (!w.isSpace ·)).countP w.isSpace := by
      conv_lhs => rw [← List.takeWhile_append_dropWhile (p := (!w.isSpace ·)) (l := line)]
      rw [List.countP_append, List.countP_eq_zero.mpr, Nat.zero_add]
      intro c hc
      simpa using List.mem_takeWhile_imp hc
    rw [argv_unquoted w hq] at h ⊢
    simp only [cost, List.map_cons, List.sum_cons, List.length_append] at h hs hstop
    obtain ⟨h₁, h₂⟩ := hstop.2 (by omega)
    exact ⟨hq, h₁, by rw [List.length_cons, h₂, hcount]⟩

/-! ## Trimming -/

theorem length_trim_le (w : Whitespace) (s : WString) : (trim w s).length ≤ s.length :=
  (List.rdropWhile_prefix _ _).length_le.trans (List.dropWhile_sublist _).length_le

theorem mem_of_mem_trim {w : Whitespace} {s : WString} {c : WChar} (h : c ∈ trim w s) : c ∈ s :=
  (List.dropWhile_sublist _).subset ((List.rdropWhile_prefix _ _).subset h)

theorem trim_append_space (w : Whitespace) (s : WString) {c : WChar} (hc : w.isSpace c = true) :
    trim w (s ++ [c]) = trim w s := by
  rw [trim, trim, List.dropWhile_append]
  split
  · rename_i he
    rw [List.isEmpty_iff.mp he]
    simp [hc]
  · exact List.rdropWhile_concat_pos _ _ _ hc

/-- Only a string without whitespace at its ends keeps its length. -/
theorem trim_eq_self_of_length (w : Whitespace) {s : WString}
    (h : s.length ≤ (trim w s).length) : trim w s = s := by
  have h₁ := (List.rdropWhile_prefix w.isSpace (s.dropWhile w.isSpace)).length_le
  have h₂ := (List.dropWhile_sublist (p := w.isSpace) (l := s)).length_le
  have hd : s.dropWhile w.isSpace = s :=
    (List.dropWhile_sublist _).eq_of_length_le (h.trans h₁)
  have hr := (List.rdropWhile_prefix w.isSpace (s.dropWhile w.isSpace)).eq_of_length_le
    (h₂.trans h)
  rw [trim, hr, hd]

theorem head_not_space_of_trim_eq (w : Whitespace) {c : WChar} {s : WString}
    (h : trim w (c :: s) = c :: s) : w.isSpace c = false := by
  by_contra hc
  have hc : w.isSpace c = true := by simpa using hc
  have hl : (trim w (c :: s)).length ≤ s.length := by
    rw [trim, List.dropWhile_cons_of_pos hc]
    exact (List.rdropWhile_prefix _ _).length_le.trans (List.dropWhile_sublist _).length_le
  rw [h, List.length_cons] at hl
  omega

theorem trim_eq_self (w : Whitespace) {s : WString} (hl : ∀ c ∈ s.head?, w.isSpace c = false)
    (hr : ∀ c ∈ s.getLast?, w.isSpace c = false) : trim w s = s := by
  have hd : s.dropWhile w.isSpace = s := by
    cases s with
    | nil => rfl
    | cons c s => rw [List.dropWhile_cons_of_neg (by simp [hl c rfl])]
  rw [trim, hd]
  refine List.rdropWhile_eq_self_iff.mpr fun hne => ?_
  simpa using hr _ (List.getLast?_eq_some_getLast hne)

end Argv

end SearchAndIdna
