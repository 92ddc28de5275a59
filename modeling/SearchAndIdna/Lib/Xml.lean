import Mathlib

/-!
# Reading XML 1.0

Documents of elements, attributes, character data and references; there is no
declaration, comment, processing instruction or CDATA section.  The reader is an
automaton over characters that gives out events, and the events build a tree.

* `scan_append`, `build_append`: both work piece by piece;
* `scan_text`: character data without markup is given out as it stands;
* `length_scan_text`: a reference always shrinks, so character data with an
  ampersand never comes out as it stands.
-/

namespace SearchAndIdna.Xml

/-! ## Characters -/

def inRanges (ranges : List (Nat × Nat)) (c : Char) : Bool :=
  ranges.any fun r => r.1 ≤ c.toNat && c.toNat ≤ r.2

/-- `Char`. -/
def isChar (c : Char) : Bool :=
  inRanges [(0x9, 0xa), (0xd, 0xd), (0x20, 0xd7ff), (0xe000, 0xfffd), (0x10000, 0x10ffff)] c

/-- `S`. -/
def isSpace (c : Char) : Bool := c == ' ' || c == '\t' || c == '\n' || c == '\r'

/-- `NameStartChar`. -/
def isNameStart (c : Char) : Bool :=
  inRanges [(0x3a, 0x3a), (0x41, 0x5a), (0x5f, 0x5f), (0x61, 0x7a), (0xc0, 0xd6), (0xd8, 0xf6),
    (0xf8, 0x2ff), (0x370, 0x37d), (0x37f, 0x1fff), (0x200c, 0x200d), (0x2070, 0x218f),
    (0x2c00, 0x2fef), (0x3001, 0xd7ff), (0xf900, 0xfdcf), (0xfdf0, 0xfffd),
    (0x10000, 0xeffff)] c

/-- `NameChar`. -/
def isNameChar (c : Char) : Bool :=
  isNameStart c ||
    inRanges [(0x2d, 0x2e), (0x30, 0x39), (0xb7, 0xb7), (0x300, 0x36f), (0x203f, 0x2040)] c

/-- Line ends are read as a single line feed. -/
def normalizeNewlines : List Char → List Char
  | '\r' :: '\n' :: s => '\n' :: normalizeNewlines s
  | '\r' :: s => '\n' :: normalizeNewlines s
  | c :: s => c :: normalizeNewlines s
  | [] => []

/-! ## References -/

def digit (base : Nat) (c : Char) : Option Nat :=
  if '0' ≤ c ∧ c ≤ '9' then some (c.toNat - 0x30)
  else if base = 16 ∧ 'a' ≤ c ∧ c ≤ 'f' then some (c.toNat - 0x61 + 10)
  else if base = 16 ∧ 'A' ≤ c ∧ c ≤ 'F' then some (c.toNat - 0x41 + 10)
  else none

/-- `CharRef`: the number has digits and is a `Char`. -/
def charRef (base : Nat) (digits : List Char) : Option Char :=
  if digits = [] then none
  else
    match digits.foldlM (fun n c => (digit base c).map (n * base + ·)) 0 with
    | none => none
    | some n => if n.isValidChar ∧ isChar (Char.ofNat n) then some (Char.ofNat n) else none

/-- What stands between `&` and `;`; only the predefined entities are declared. -/
def reference : List Char → Option Char
  | '#' :: 'x' :: digits => charRef 16 digits
  | '#' :: digits => charRef 10 digits
  | name =>
    if name = "lt".toList then some '<'
    else if name = "gt".toList then some '>'
    else if name = "amp".toList then some '&'
    else if name = "apos".toList then some '\''
    else if name = "quot".toList then some '"'
    else none

/-! ## The automaton -/

/-- Where the reader is. -/
inductive Place
  /-- in content, behind so many brackets `]` -/
  | content (brackets : Nat)
  | contentRef (name : List Char)
  /-- behind `<` -/
  | markup
  | openName (name : List Char)
  /-- in a start tag; an attribute may start behind whitespace only -/
  | inTag (spaced : Bool)
  | attrName (name : List Char)
  | beforeEq
  | afterEq
  | value (quote : Char)
  | valueRef (quote : Char) (name : List Char)
  /-- behind the `/` of an empty element -/
  | emptyEnd
  | closeStart
  | closeName (name : List Char)
  | closeEnd
  deriving DecidableEq, Repr

inductive Event
  /-- a character of content; a reference is not allowed outside the root -/
  | char (c : Char) (referenced : Bool)
  | openTag (name : List Char)
  | attribute (name : List Char)
  | valueChar (c : Char)
  | endOpen
  | endEmpty
  | close (name : List Char)
  deriving DecidableEq, Repr

/-- One character in content. -/
def stepContent (brackets : Nat) (c : Char) : Option (Place × List Event) :=
  if c = '<' then some (.markup, [])
  else if c = '&' then some (.contentRef [], [])
  else if c = '>' ∧ 2 ≤ brackets then none
  else if c = ']' then some (.content (min 2 (brackets + 1)), [.char c false])
  else some (.content 0, [.char c false])

/-- One character in a reference. -/
def stepRef (name : List Char) (c : Char) (wait : List Char → Place) (done : Place)
    (event : Char → Event) : Option (Place × List Event) :=
  if c = ';' then (reference name).map fun r => (done, [event r])
  else if isNameChar c ∨ c = '#' then some (wait (name ++ [c]), [])
  else none

/-- The end of a start tag, or whitespace in it. -/
def stepTag (c : Char) (events : List Event) : Option (Place × List Event) :=
  if isSpace c then some (.inTag true, events)
  else if c = '/' then some (.emptyEnd, events)
  else if c = '>' then some (.content 0, events ++ [.endOpen])
  else none

def step (p : Place) (c : Char) : Option (Place × List Event) :=
  if isChar c then
    match p with
    | .content brackets => stepContent brackets c
    | .contentRef name => stepRef name c .contentRef (.content 0) (.char · true)
    | .markup =>
      if c = '/' then some (.closeStart, [])
      else if isNameStart c then some (.openName [c], [])
      else none
    | .openName name =>
      if isNameChar c then some (.openName (name ++ [c]), []) else stepTag c [.openTag name]
    | .inTag spaced =>
      if spaced ∧ isNameStart c then some (.attrName [c], []) else stepTag c []
    | .attrName name =>
      if isNameChar c then some (.attrName (name ++ [c]), [])
      else if c = '=' then some (.afterEq, [.attribute name])
      else if isSpace c then some (.beforeEq, [.attribute name])
      else none
    | .beforeEq =>
      if isSpace c then some (.beforeEq, [])
      else if c = '=' then some (.afterEq, [])
      else none
    | .afterEq =>
      if isSpace c then some (.afterEq, [])
      else if c = '"' ∨ c = '\'' then some (.value c, [])
      else none
    | .value quote =>
      if c = quote then some (.inTag false, [])
      else if c = '<' then none
      else if c = '&' then some (.valueRef quote [], [])
      else if isSpace c then some (.value quote, [.valueChar ' '])
      else some (.value quote, [.valueChar c])
    | .valueRef quote name => stepRef name c (.valueRef quote) (.value quote) .valueChar
    | .emptyEnd => if c = '>' then some (.content 0, [.endEmpty]) else none
    | .closeStart => if isNameStart c then some (.closeName [c], []) else none
    | .closeName name =>
      if isNameChar c then some (.closeName (name ++ [c]), [])
      else if c = '>' then some (.content 0, [.close name])
      else if isSpace c then some (.closeEnd, [.close name])
      else none
    | .closeEnd =>
      if isSpace c then some (.closeEnd, [])
      else if c = '>' then some (.content 0, [])
      else none
  else none

/-- The place behind a text, and the events in it. -/
def scan (p : Place) : List Char → Option (Place × List Event)
  | [] => some (p, [])
  | c :: s =>
    match step p c with
    | none => none
    | some (p', events) => (scan p' s).map fun r => (r.1, events ++ r.2)

/-! ## Trees -/

inductive Node
  | element (name : List Char) (attributes : List (List Char × List Char)) (children : List Node)
  | text (s : List Char)

namespace Node

def isElement : Node → Bool
  | .element .. => true
  | .text _ => false

/-- The character data of a text; an element has its own. -/
def data : Node → List Char
  | .element .. => []
  | .text s => s

end Node

/-- An element that is not closed yet. -/
structure Open where
  name : List Char
  attributes : List (List Char × List Char)
  children : List Node

/-- The open elements, innermost first; the start tag being read; the root. -/
structure Build where
  stack : List Open
  tag : Option Open
  root : Option Node

def Build.start : Build := ⟨[], none, none⟩

/-- Character data goes to the text in front of it. -/
def appendChar (children : List Node) (c : Char) : List Node :=
  match children.getLast? with
  | some (.text s) => children.dropLast ++ [.text (s ++ [c])]
  | _ => children ++ [.text [c]]

/-- A finished element goes to its parent, or is the root, the only one. -/
def Build.finish (b : Build) (node : Node) : Option Build :=
  match b.stack, b.root with
  | parent :: stack, root =>
    some ⟨{ parent with children := parent.children ++ [node] } :: stack, none, root⟩
  | [], none => some ⟨[], none, some node⟩
  | [], some _ => none

def Build.apply (b : Build) : Event → Option Build
  | .char c referenced =>
    match b.stack with
    | top :: stack => some { b with stack := { top with children := appendChar top.children c } :: stack }
    | [] => if isSpace c ∧ !referenced then some b else none
  | .openTag name => some { b with tag := some ⟨name, [], []⟩ }
  | .attribute name =>
    match b.tag with
    | none => none
    | some tag =>
      if tag.attributes.any (·.1 = name) then none
      else some { b with tag := some { tag with attributes := tag.attributes ++ [(name, [])] } }
  | .valueChar c =>
    match b.tag with
    | none => none
    | some tag =>
      match tag.attributes.getLast? with
      | none => none
      | some (name, v) =>
        some { b with tag := some { tag with
          attributes := tag.attributes.dropLast ++ [(name, v ++ [c])] } }
  | .endOpen =>
    match b.tag with
    | none => none
    | some tag =>
      if b.stack = [] ∧ b.root.isSome then none else some ⟨tag :: b.stack, none, b.root⟩
  | .endEmpty =>
    match b.tag with
    | none => none
    | some tag => Build.finish b (.element tag.name tag.attributes [])
  | .close name =>
    match b.stack with
    | [] => none
    | top :: stack =>
      if top.name = name then
        Build.finish ⟨stack, none, b.root⟩ (.element top.name top.attributes top.children)
      else none

def build (b : Build) (events : List Event) : Option Build := events.foldlM Build.apply b

/-- The root of a well-formed document. -/
def read (s : List Char) : Option Node :=
  match scan (.content 0) (normalizeNewlines s) with
  | some (.content _, events) =>
    match build .start events with
    | some ⟨[], none, some root⟩ => some root
    | _ => none
  | _ => none

/-! ## Piece by piece -/

theorem scan_append (p : Place) (s t : List Char) :
    scan p (s ++ t) =
      (scan p s).bind fun r => (scan r.1 t).map fun q => (q.1, r.2 ++ q.2) := by
  induction s generalizing p with
  | nil => simp [scan]
  | cons c s ih =>
    rw [List.cons_append, scan, scan]
    cases step p c with
    | none => rfl
    | some r =>
      simp only [ih]
      cases scan r.1 s with
      | none => rfl
      | some q => simp [Function.comp_def]

theorem scan_append_of {p p' : Place} {s : List Char} {events : List Event}
    (h : scan p s = some (p', events)) (t : List Char) :
    scan p (s ++ t) = (scan p' t).map fun q => (q.1, events ++ q.2) := by
  rw [scan_append, h]
  rfl

theorem build_append (b : Build) (events events' : List Event) :
    build b (events ++ events') = (build b events).bind (build · events') :=
  List.foldlM_append ..

theorem build_cons {b b' : Build} {event : Event} (h : b.apply event = some b')
    (events : List Event) : build b (event :: events) = build b' events := by
  rw [build, List.foldlM_cons, h]
  rfl

theorem build_append_of {b b' : Build} {events : List Event} (h : build b events = some b')
    (events' : List Event) : build b (events ++ events') = build b' events' := by
  rw [build_append, h]
  rfl

theorem normalizeNewlines_eq {s : List Char} (h : '\r' ∉ s) : normalizeNewlines s = s := by
  induction s with
  | nil => rfl
  | cons c s ih =>
    obtain ⟨hc, hs⟩ := not_or.mp (mt List.mem_cons.mpr h)
    rw [normalizeNewlines, ih hs]
    · exact fun _ he => absurd he (Ne.symm hc)
    · exact Ne.symm hc

/-! ## Text -/

/-- The characters of content among the events. -/
def charData (events : List Event) : List Char :=
  events.filterMap fun
    | .char c _ => some c
    | _ => none

theorem charData_text (s : List Char) (referenced : Bool) :
    charData (s.map (.char · referenced)) = s := by
  simp [charData]

def Event.IsChar : Event → Prop
  | .char _ _ => True
  | _ => False

theorem length_charData {events : List Event} (h : ∀ e ∈ events, e.IsChar) :
    (charData events).length = events.length := by
  induction events with
  | nil => rfl
  | cons e events ih =>
    have hrest := ih fun e he => h e (List.mem_cons_of_mem _ he)
    cases e with
    | char c referenced => simpa [charData] using hrest
    | _ => exact (h _ (List.mem_cons_self ..)).elim

/-- Character data without markup comes out as it stands. -/
theorem scan_text {s : List Char} (hs : ∀ c ∈ s, isChar c = true ∧ c ≠ '<' ∧ c ≠ '&' ∧ c ≠ '>')
    (n : Nat) : ∃ m, scan (.content n) s = some (.content m, s.map (.char · false)) := by
  induction s generalizing n with
  | nil => exact ⟨n, rfl⟩
  | cons c s ih =>
    obtain ⟨hc, hlt, hamp, hgt⟩ := hs c (List.mem_cons_self ..)
    have hstep : ∃ m, step (.content n) c = some (.content m, [.char c false]) := by
      rw [step, if_pos hc]
      simp only [stepContent, hlt, hamp, hgt, if_false, false_and]
      split
      · exact ⟨_, rfl⟩
      · exact ⟨_, rfl⟩
    obtain ⟨m, hm⟩ := hstep
    obtain ⟨m', hm'⟩ := ih (fun d hd => hs d (List.mem_cons_of_mem _ hd)) m
    exact ⟨m', by rw [scan, hm]; simp [hm']⟩

/-- Only `Char`s are read. -/
theorem isChar_of_scan {p : Place} {s : List Char} {r : Place × List Event}
    (h : scan p s = some r) : ∀ c ∈ s, isChar c = true := by
  induction s generalizing p r with
  | nil => exact fun c hc => absurd hc List.not_mem_nil
  | cons d s ih =>
    rw [scan] at h
    cases hstep : step p d with
    | none => simp [hstep] at h
    | some q =>
      rw [hstep] at h
      obtain ⟨r', hr', -⟩ := Option.map_eq_some_iff.mp h
      rintro c (_ | ⟨_, hc⟩)
      · by_contra hd
        rw [step.eq_def, if_neg hd] at hstep
        exact Option.some_ne_none _ hstep.symm
      · exact ih hr' c hc

/-- In content, or in a reference of it. -/
def Place.InText : Place → Prop
  | .content _ | .contentRef _ => True
  | _ => False

theorem stepRef_text {name : List Char} {c : Char} {r : Place × List Event}
    (h : stepRef name c .contentRef (.content 0) (.char · true) = some r) :
    r.1.InText ∧ (∀ e ∈ r.2, e.IsChar) ∧ r.2.length ≤ 1 ∧ c ≠ '&' := by
  rw [stepRef] at h
  split at h
  · rename_i hc
    obtain ⟨d, -, rfl⟩ := Option.map_eq_some_iff.mp h
    refine ⟨trivial, fun e he => ?_, le_refl _, ?_⟩
    · rw [List.mem_singleton.mp he]
      trivial
    · rw [hc]
      decide
  · split at h
    · rename_i hc
      rw [← Option.some.inj h]
      refine ⟨trivial, fun e he => absurd he List.not_mem_nil, Nat.zero_le _, ?_⟩
      rintro rfl
      exact absurd hc (by decide)
    · exact absurd h.symm (Option.some_ne_none _)

/-- One character of text gives at most one character, and an ampersand none. -/
theorem step_text {p : Place} (hp : p.InText) {c : Char} (hlt : c ≠ '<') {r : Place × List Event}
    (h : step p c = some r) :
    r.1.InText ∧ (∀ e ∈ r.2, e.IsChar) ∧ r.2.length + (if c = '&' then 1 else 0) ≤ 1 := by
  rw [step.eq_def] at h
  split at h
  · cases p with
    | content brackets =>
      simp only [stepContent, hlt, if_false] at h
      split at h
      · rename_i hamp
        rw [← Option.some.inj h, if_pos hamp]
        exact ⟨trivial, fun e he => absurd he List.not_mem_nil, le_refl _⟩
      · rename_i hamp
        rw [if_neg hamp]
        split at h
        · exact absurd h.symm (Option.some_ne_none _)
        · split at h
          · rw [← Option.some.inj h]
            refine ⟨trivial, fun e he => ?_, le_refl _⟩
            rw [List.mem_singleton.mp he]
            trivial
          · rw [← Option.some.inj h]
            refine ⟨trivial, fun e he => ?_, le_refl _⟩
            rw [List.mem_singleton.mp he]
            trivial
    | contentRef name =>
      obtain ⟨hin, hchar, hlen, hamp⟩ := stepRef_text h
      rw [if_neg hamp]
      exact ⟨hin, hchar, hlen⟩
    | _ => exact hp.elim
  · exact absurd h.symm (Option.some_ne_none _)

/-- Text gives at most as many characters as it has, without its ampersands. -/
theorem length_scan_text {s : List Char} (hs : '<' ∉ s) {p : Place} (hp : p.InText)
    {r : Place × List Event} (h : scan p s = some r) :
    r.1.InText ∧ (∀ e ∈ r.2, e.IsChar) ∧ r.2.length + s.count '&' ≤ s.length := by
  induction s generalizing p r with
  | nil =>
    rw [← Option.some.inj h]
    exact ⟨hp, fun e he => absurd he List.not_mem_nil, le_refl _⟩
  | cons c s ih =>
    obtain ⟨hc, hs⟩ := not_or.mp (mt List.mem_cons.mpr hs)
    rw [scan] at h
    cases hstep : step p c with
    | none => simp [hstep] at h
    | some q =>
      obtain ⟨hq, hchar, hlen⟩ := step_text hp (Ne.symm hc) hstep
      rw [hstep] at h
      obtain ⟨r', hr', rfl⟩ := Option.map_eq_some_iff.mp h
      obtain ⟨hin, hchars, hlens⟩ := ih hs hq hr'
      refine ⟨hin, fun e he => ?_, ?_⟩
      · rcases List.mem_append.mp he with he | he
        · exact hchar e he
        · exact hchars e he
      · simp only [List.length_append, List.length_cons, List.count_cons, beq_iff_eq]
        omega

/-- The value of an attribute without markup and whitespace comes out as it stands. -/
theorem scan_value {s : List Char} {quote : Char}
    (hs : ∀ c ∈ s, isChar c = true ∧ c ≠ quote ∧ c ≠ '<' ∧ c ≠ '&' ∧ isSpace c = false) :
    scan (.value quote) s = some (.value quote, s.map .valueChar) := by
  induction s with
  | nil => rfl
  | cons c s ih =>
    obtain ⟨hc, hquote, hlt, hamp, hspace⟩ := hs c (List.mem_cons_self ..)
    have hstep : step (.value quote) c = some (.value quote, [.valueChar c]) := by
      rw [step, if_pos hc]
      simp [hquote, hlt, hamp, hspace]
    rw [scan, hstep]
    simp [ih fun d hd => hs d (List.mem_cons_of_mem _ hd)]

/-! ## What is built from text -/

theorem build_valueChars (b : Build) (tag : Open) {attributes : List (List Char × List Char)}
    {name v : List Char} (hb : b.tag = some { tag with attributes := attributes ++ [(name, v)] })
    (s : List Char) :
    build b (s.map .valueChar) =
      some { b with tag := some { tag with attributes := attributes ++ [(name, v ++ s)] } } := by
  induction s generalizing b v with
  | nil =>
    rw [List.append_nil, ← hb]
    rfl
  | cons c s ih =>
    have happly : b.apply (.valueChar c) =
        some { b with tag := some { tag with attributes := attributes ++ [(name, v ++ [c])] } } := by
      rw [Build.apply, hb]
      simp
    rw [List.map_cons, build_cons happly]
    have hrest := ih { b with tag := some { tag with attributes := attributes ++ [(name, v ++ [c])] } }
      (v := v ++ [c]) rfl
    rwa [List.append_assoc] at hrest

/-- What a start tag with these attributes gives, up to its end. -/
def startTag (name : List Char) (attributes : List (List Char × List Char)) : List Event :=
  .openTag name :: attributes.flatMap fun a => .attribute a.1 :: a.2.map .valueChar

theorem build_attributes (b : Build) (tag : Open) (hb : b.tag = some tag)
    {attributes : List (List Char × List Char)}
    (h : ((tag.attributes ++ attributes).map Prod.fst).Nodup) :
    build b (attributes.flatMap fun a => .attribute a.1 :: a.2.map .valueChar) =
      some { b with tag := some { tag with attributes := tag.attributes ++ attributes } } := by
  induction attributes generalizing b tag with
  | nil =>
    rw [List.append_nil, ← hb]
    rfl
  | cons a attributes ih =>
    have hnew : tag.attributes.any (·.1 = a.1) = false := by
      rw [List.map_append, List.map_cons] at h
      have hdisjoint := (List.nodup_append.mp h).2.2
      rw [List.any_eq_false]
      intro x hx he
      exact hdisjoint x.1 (List.mem_map_of_mem hx) a.1 (List.mem_cons_self ..) (by simpa using he)
    have happly : b.apply (.attribute a.1) =
        some { b with tag := some { tag with attributes := tag.attributes ++ [(a.1, [])] } } := by
      rw [Build.apply, hb]
      simp only [hnew]
      rfl
    have hvalue := build_valueChars
      { b with tag := some { tag with attributes := tag.attributes ++ [(a.1, [])] } } tag rfl a.2
    have hrest := ih { b with tag := some { tag with attributes := tag.attributes ++ [(a.1, a.2)] } }
      { tag with attributes := tag.attributes ++ [(a.1, a.2)] } rfl
      (by simpa [List.append_assoc] using h)
    rw [List.flatMap_cons, List.cons_append, build_cons happly, build_append_of hvalue,
      List.nil_append, hrest, List.append_assoc]
    rfl

theorem build_startTag (b : Build) (name : List Char) (attributes : List (List Char × List Char))
    (h : (attributes.map Prod.fst).Nodup) :
    build b (startTag name attributes) = some { b with tag := some ⟨name, attributes, []⟩ } :=
  build_attributes { b with tag := some ⟨name, [], []⟩ } ⟨name, [], []⟩ rfl h

section Tags

variable (tag top parent : Open) (stack : List Open) (root : Option Node) (events : List Event)

theorem build_endOpen_root :
    build ⟨[], some tag, none⟩ (.endOpen :: events) = build ⟨[tag], none, none⟩ events :=
  build_cons rfl events

theorem build_endOpen :
    build ⟨top :: stack, some tag, root⟩ (.endOpen :: events) =
      build ⟨tag :: top :: stack, none, root⟩ events :=
  build_cons (by simp [Build.apply]) events

theorem build_endEmpty :
    build ⟨top :: stack, some tag, root⟩ (.endEmpty :: events) =
      build ⟨{ top with children := top.children ++ [.element tag.name tag.attributes []] } :: stack,
        none, root⟩ events :=
  build_cons rfl events

theorem build_close :
    build ⟨top :: parent :: stack, none, root⟩ (.close top.name :: events) =
      build ⟨{ parent with
        children := parent.children ++ [.element top.name top.attributes top.children] } :: stack,
        none, root⟩ events :=
  build_cons (by simp [Build.apply, Build.finish]) events

theorem build_close_root :
    build ⟨[top], none, none⟩ (.close top.name :: events) =
      build ⟨[], none, some (.element top.name top.attributes top.children)⟩ events :=
  build_cons (by simp [Build.apply, Build.finish]) events

end Tags

theorem build_chars {events : List Event} (h : ∀ e ∈ events, e.IsChar) (b : Build) {top : Open}
    {stack : List Open} (hb : b.stack = top :: stack) :
    build b events = some { b with
      stack := { top with children := (charData events).foldl appendChar top.children } :: stack } := by
  induction events generalizing b top with
  | nil =>
    rw [charData, List.filterMap_nil, List.foldl_nil, ← hb]
    rfl
  | cons e events ih =>
    have hevents := fun e he => h e (List.mem_cons_of_mem _ he)
    cases e with
    | char c referenced =>
      have happly : b.apply (.char c referenced) =
          some { b with stack := { top with children := appendChar top.children c } :: stack } := by
        rw [Build.apply, hb]
      rw [build_cons happly]
      exact ih hevents { b with stack := { top with children := appendChar top.children c } :: stack }
        rfl
    | _ => exact (h _ (List.mem_cons_self ..)).elim

theorem foldl_appendChar_text (children : List Node) (s t : List Char) :
    t.foldl appendChar (children ++ [.text s]) = children ++ [.text (s ++ t)] := by
  induction t generalizing s with
  | nil => simp
  | cons c t ih =>
    have hc : appendChar (children ++ [.text s]) c = children ++ [.text (s ++ [c])] := by
      simp [appendChar]
    rw [List.foldl_cons, hc, ih, List.append_assoc]
    rfl

/-- Text behind an element, or at the start, is one text. -/
theorem foldl_appendChar {children : List Node} (h : ∀ s, children.getLast? ≠ some (.text s))
    {t : List Char} (ht : t ≠ []) : t.foldl appendChar children = children ++ [.text t] := by
  obtain ⟨c, t, rfl⟩ := List.exists_cons_of_ne_nil ht
  have hc : appendChar children c = children ++ [.text [c]] := by
    rw [appendChar]
    split
    · rename_i s hs
      exact absurd hs (h s)
    · rfl
  rw [List.foldl_cons, hc, foldl_appendChar_text]
  rfl

end SearchAndIdna.Xml
