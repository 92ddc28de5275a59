import Mathlib

/-!
# Spans of a sequence

Some elements of a sequence open a span and some close it.  An element belongs
to a span if it opens one or comes inside of one, its closing element included.

* `next`, `kept`: whether a sequence leads inside of a span, and which of its
  elements belong to one;
* `kept_append`, `kept_of_plain`: piece by piece, and without ends;
* `kept_one`: one opening element and, behind it, one closing element.
-/

namespace SearchAndIdna

structure Span (α : Type*) where
  opens : α → Bool
  closes : α → Bool

namespace Span

variable {α : Type*} (S : Span α)

/-- Whether the place behind the element is inside of a span. -/
def next (inside : Bool) (a : α) : Bool := S.opens a || inside && !S.closes a

/-- The elements that belong to a span. -/
def kept : Bool → List α → List α
  | _, [] => []
  | inside, a :: as => (if inside || S.opens a then [a] else []) ++ kept (S.next inside a) as

/-- Neither opens nor closes a span. -/
def Plain (a : α) : Prop := S.opens a = false ∧ S.closes a = false

variable {S}

theorem kept_append (inside : Bool) (as bs : List α) :
    S.kept inside (as ++ bs) = S.kept inside as ++ S.kept (as.foldl S.next inside) bs := by
  induction as generalizing inside with
  | nil => rfl
  | cons a as ih => rw [List.cons_append, kept, kept, ih, List.foldl_cons, List.append_assoc]

theorem next_of_plain (inside : Bool) {a : α} (h : S.Plain a) : S.next inside a = inside := by
  rw [next, h.1, h.2]
  cases inside <;> rfl

theorem foldl_next_of_plain (inside : Bool) {as : List α} (h : ∀ a ∈ as, S.Plain a) :
    as.foldl S.next inside = inside := by
  induction as with
  | nil => rfl
  | cons a as ih =>
    rw [List.foldl_cons, next_of_plain inside (h a List.mem_cons_self)]
    exact ih fun b hb => h b (List.mem_cons_of_mem _ hb)

/-- Between two ends all is kept, or nothing. -/
theorem kept_of_plain (inside : Bool) {as : List α} (h : ∀ a ∈ as, S.Plain a) :
    S.kept inside as = if inside then as else [] := by
  induction as with
  | nil => cases inside <;> rfl
  | cons a as ih =>
    have ha := h a List.mem_cons_self
    rw [kept, next_of_plain inside ha, ha.1, Bool.or_false,
      ih fun b hb => h b (List.mem_cons_of_mem _ hb)]
    cases inside with
    | false => rfl
    | true => rfl

/-- A sequence with one span. -/
theorem kept_one {before during after : List α} {first last : α} (hfirst : S.opens first = true)
    (hlast : S.opens last = false ∧ S.closes last = true) (hbefore : ∀ a ∈ before, S.Plain a)
    (hduring : ∀ a ∈ during, S.Plain a) (hafter : ∀ a ∈ after, S.Plain a) :
    S.kept false (before ++ first :: during ++ last :: after) = first :: during ++ [last] := by
  have hopen : S.next false first = true := by rw [next, hfirst, Bool.true_or]
  have hclose : S.next true last = false := by
    rw [next, hlast.1, hlast.2]
    rfl
  have hone : S.kept true (during ++ last :: after) = during ++ [last] := by
    rw [kept_append, kept_of_plain true hduring, foldl_next_of_plain true hduring, kept, hclose,
      kept_of_plain false hafter]
    rfl
  rw [List.append_assoc, List.cons_append, kept_append, kept_of_plain false hbefore,
    foldl_next_of_plain false hbefore, kept, hopen, hone, hfirst]
  rfl

end Span

end SearchAndIdna
