import Mathlib

/-!
# Guarded automata and their runs

An automaton has an initial state and a partial step function: `step s e` is
`none` where the event `e` cannot happen in `s`.  A run is a sequence of events
that can all happen; a guarded run is one whose steps also meet a condition on
the event and the state before it.

* `Run.invariant`, `Run.history`: what holds at first and is kept by every step of
  a guarded run holds in every state such a run reaches;
* `run_iff_replay`: the unguarded runs are the successful replays, so a concrete
  run can be evaluated; `run_iff_restrict`: the guarded ones, too.
-/

namespace SearchAndIdna

structure Automaton (σ ε : Type*) where
  init : σ
  step : σ → ε → Option σ

namespace Automaton

variable {σ ε : Type*} (A : Automaton σ ε)

/-- The events `es` lead to the state, each under the condition `G`. -/
inductive Run (G : σ → ε → Prop) : List ε → σ → Prop
  | start : Run G [] A.init
  | next {es : List ε} {s s' : σ} {e : ε} :
      Run G es s → G s e → A.step s e = some s' → Run G (es ++ [e]) s'

/-- Any condition on the way. -/
abbrev Reaches (es : List ε) (s : σ) : Prop := A.Run (fun _ _ => True) es s

/-- Take the events one after the other. -/
def replay (s : σ) (es : List ε) : Option σ := es.foldlM A.step s

variable {A} {G : σ → ε → Prop} {es : List ε} {s : σ}

/-- The invariant may also tell of the events that led to the state. -/
theorem Run.history {P : List ε → σ → Prop} (hinit : P [] A.init)
    (hstep : ∀ es s e s', P es s → G s e → A.step s e = some s' → P (es ++ [e]) s')
    (h : A.Run G es s) : P es s := by
  induction h with
  | start => exact hinit
  | next _ hg hs ih => exact hstep _ _ _ _ ih hg hs

theorem Run.invariant {P : σ → Prop} (hinit : P A.init)
    (hstep : ∀ s e s', P s → G s e → A.step s e = some s' → P s') (h : A.Run G es s) : P s :=
  h.history hinit fun _ => hstep

theorem replay_cons (s : σ) (e : ε) (es : List ε) :
    A.replay s (e :: es) = (A.step s e).bind (A.replay · es) := by
  rw [replay, List.foldlM_cons]
  rfl

theorem replay_append (s : σ) (es fs : List ε) :
    A.replay s (es ++ fs) = (A.replay s es).bind (A.replay · fs) := by
  rw [replay, List.foldlM_append]
  rfl

theorem replay_trans {s s₁ s₂ : σ} {fs : List ε} (h : A.replay s es = some s₁)
    (h' : A.replay s₁ fs = some s₂) : A.replay s (es ++ fs) = some s₂ := by
  rw [replay_append, h]
  exact h'

theorem replay_singleton {s s' : σ} {e : ε} (h : A.step s e = some s') :
    A.replay s [e] = some s' := by
  rw [replay_cons, h]
  rfl

theorem replay_invariant {P : σ → Prop}
    (hstep : ∀ s e s', P s → A.step s e = some s' → P s') {s s' : σ} (hs : P s)
    (h : A.replay s es = some s') : P s' := by
  induction es generalizing s with
  | nil => exact Option.some.inj h ▸ hs
  | cons e es ih =>
    rw [replay_cons] at h
    obtain ⟨s₁, hs₁, h⟩ := Option.bind_eq_some_iff.mp h
    exact ih (hstep _ _ _ hs hs₁) h

theorem run_iff_replay : A.Reaches es s ↔ A.replay A.init es = some s := by
  constructor
  · intro h
    induction h with
    | start => rfl
    | next _ _ hs ih => exact replay_trans ih (replay_singleton hs)
  · induction es using List.reverseRecOn generalizing s with
    | nil =>
      intro h
      exact Option.some.inj h ▸ .start
    | append_singleton es e ih =>
      intro h
      rw [replay_append] at h
      obtain ⟨s₁, hs₁, hs⟩ := Option.bind_eq_some_iff.mp h
      rw [replay_cons] at hs
      obtain ⟨s₂, hs₂, hs⟩ := Option.bind_eq_some_iff.mp hs
      exact Option.some.inj hs ▸ .next (ih hs₁) trivial hs₂

/-- The automaton that takes only the guarded steps. -/
def restrict (A : Automaton σ ε) (G : σ → ε → Prop) [∀ s e, Decidable (G s e)] :
    Automaton σ ε where
  init := A.init
  step s e := if G s e then A.step s e else none

/-- A guarded run can be evaluated, too. -/
theorem run_iff_restrict [∀ s e, Decidable (G s e)] :
    A.Run G es s ↔ (A.restrict G).Reaches es s := by
  constructor
  · intro h
    induction h with
    | start => exact .start
    | next _ hg hs ih => exact .next ih trivial ((if_pos hg).trans hs)
  · intro h
    induction h with
    | start => exact .start
    | @next es s s' e _ _ hs ih =>
      by_cases hg : G s e
      · exact .next ih hg ((if_pos hg).symm.trans hs)
      · exact absurd ((if_neg hg).symm.trans hs).symm (Option.some_ne_none _)

theorem run_of_replay [∀ s e, Decidable (G s e)] (h : (A.restrict G).replay A.init es = some s) :
    A.Run G es s :=
  run_iff_restrict.mpr (run_iff_replay.mpr h)

end Automaton

end SearchAndIdna
