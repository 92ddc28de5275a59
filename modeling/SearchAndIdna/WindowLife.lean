import SearchAndIdna.Lib.Span
import SearchAndIdna.MessageWindow

/-!
# What the callback sees of its window

The window procedure, cut at its calls: a message is sent to the window and
offered to the callback or passed to `DefWindowProcW`, and while either of them
is at work further messages are sent.  A `Thread` keeps the calls of `WindowProc`
that have not returned, so a run of it is any order of nested messages.

* `send`, `step`, `proc`: the runs of the procedure of one window;
* `lifetime`: the span of messages from WM_CREATE to WM_DESTROY;
* `exchange`: what the calls that have returned were answered;
* `Tells`, `tells_step`: what holds behind every prefix of a run;
* `sees_life`: the callback is offered exactly the window's life;
* `Activity.replays`, `created_reaches`: every tree of calls is such a run, so
  `created_tells`.
-/

namespace SearchAndIdna

/-- A call of `WindowProc` that has not returned, by the call it waits for. -/
inductive Call
  | callback (m : Message)
  | defWindowProc (m : Message)
  deriving DecidableEq, Repr

def Call.message : Call → Message
  | .callback m => m
  | .defWindowProc m => m

/-- The calls are innermost first. -/
structure Thread (κ υ : Type) where
  world : World κ υ
  calls : List Call

namespace WindowLife

/-- What happens on the thread of a window: a message is sent to it, the innermost call
gets its answer, `CreateWindowW` returns, or the window is gone. -/
inductive Event
  | send (m : Message)
  | callbackReturns (answer : Option LResult)
  | defWindowProcReturns (result : LResult)
  | createWindowReturns (window : Option Hwnd)
  | gone
  deriving DecidableEq, Repr

section Machine

variable {κ υ : Type}

/-- `WindowProc` up to its first call. -/
def send (hwnd : Hwnd) (t : Thread κ υ) (m : Message) : Thread κ υ :=
  let (self, s) := t.world.switch hwnd m.message
  match self, s.object.callback_ with
  | true, some callback_ =>
    ⟨{ s with log := s.log ++ [.offered callback_ s.object.user_data_ m] }, .callback m :: t.calls⟩
  | _, _ => ⟨s, .defWindowProc m :: t.calls⟩

/-- The innermost call returns. -/
def returnCall (hwnd : Hwnd) (world : World κ υ) (m : Message) (result : LResult)
    (calls : List Call) : Thread κ υ :=
  ⟨(World.returned hwnd m (world, result)).1, calls⟩

/-- A callback that returned `false` leaves the message to `DefWindowProcW`. -/
def step (hwnd : Hwnd) (t : Thread κ υ) : Event → Option (Thread κ υ)
  | .send m => if t.world.userData hwnd = none then none else some (send hwnd t m)
  | .callbackReturns answer =>
    match t.calls, answer with
    | .callback m :: calls, some message_result =>
      some (returnCall hwnd t.world m message_result calls)
    | .callback m :: calls, none => some ⟨t.world, .defWindowProc m :: calls⟩
    | _, _ => none
  | .defWindowProcReturns result =>
    match t.calls with
    | .defWindowProc m :: calls => some (returnCall hwnd t.world m result calls)
    | _ => none
  | .createWindowReturns window => some ⟨t.world.setWindow window, t.calls⟩
  | .gone => some ⟨t.world.setUserData hwnd none, t.calls⟩

/-- The window procedure of the window, from a state of the object on. -/
def proc (hwnd : Hwnd) (s : World κ υ) : Automaton (Thread κ υ) Event := ⟨⟨s, []⟩, step hwnd⟩

/-- `CreateMessageOnlyWindow` up to `CreateWindowW`. -/
def prepared (s : World κ υ) (user_data : Option υ) (callback : Option κ) (atom : UInt16) :
    World κ υ :=
  { s with
    object := { s.object with user_data_ := user_data, callback_ := callback }
    class_instance_ := some (s.class_instance_.getD ⟨atom⟩) }

/-- Inside `CreateWindowW`, before the new window gets a message. -/
def created (s : World κ υ) (user_data : Option υ) (callback : Option κ) (atom : UInt16)
    (hwnd : Hwnd) : World κ υ :=
  (prepared s user_data callback atom).setUserData hwnd (some false)

end Machine

/-! ## The messages of a run -/

def Event.message? : Event → Option Message
  | .send m => some m
  | _ => none

/-- The messages, in the order in which they were sent. -/
def arrived (es : List Event) : List Message := es.filterMap Event.message?

/-- Neither WM_CREATE nor WM_DESTROY. -/
def Plain (m : Message) : Prop := m.message ≠ WM_CREATE ∧ m.message ≠ WM_DESTROY

instance (m : Message) : Decidable (Plain m) := inferInstanceAs (Decidable (_ ∧ _))

/-- From WM_CREATE to WM_DESTROY. -/
def lifetime : Span Message where
  opens m := m.message = WM_CREATE
  closes m := m.message = WM_DESTROY

/-- The messages without a result, innermost first, and the results of the others. -/
structure Exchange where
  pending : List Message
  results : List (Message × LResult)
  deriving DecidableEq, Repr

/-- The innermost message gets the result. -/
def Exchange.answer (x : Exchange) (result : LResult) : Exchange :=
  match x.pending with
  | [] => x
  | m :: pending => ⟨pending, x.results ++ [(m, result)]⟩

/-- The callback's result if it returned `true`, and `DefWindowProcW`'s otherwise. -/
def Exchange.next (x : Exchange) : Event → Exchange
  | .send m => { x with pending := m :: x.pending }
  | .callbackReturns (some message_result) => x.answer message_result
  | .callbackReturns none => x
  | .defWindowProcReturns result => x.answer result
  | .createWindowReturns _ => x
  | .gone => x

def exchange (es : List Event) : Exchange := es.foldl Exchange.next ⟨[], []⟩

theorem arrived_append (es fs : List Event) : arrived (es ++ fs) = arrived es ++ arrived fs :=
  List.filterMap_append

theorem exchange_append (es : List Event) (e : Event) :
    exchange (es ++ [e]) = (exchange es).next e := by
  rw [exchange, List.foldl_append]
  rfl

theorem lifetime_plain {m : Message} (h : Plain m) : lifetime.Plain m :=
  ⟨decide_eq_false h.1, decide_eq_false h.2⟩

/-- What is kept of a whole life. -/
theorem kept_life {before during after : List Message} {create destroy : Message}
    (hcreate : create.message = WM_CREATE) (hdestroy : destroy.message = WM_DESTROY)
    (hbefore : ∀ m ∈ before, Plain m) (hduring : ∀ m ∈ during, Plain m)
    (hafter : ∀ m ∈ after, Plain m) :
    lifetime.kept false (before ++ create :: during ++ destroy :: after) =
      create :: during ++ [destroy] := by
  have hne : destroy.message ≠ WM_CREATE := by
    rw [hdestroy]
    decide
  exact Span.kept_one (decide_eq_true hcreate) ⟨decide_eq_false hne, decide_eq_true hdestroy⟩
    (fun m hm => lifetime_plain (hbefore m hm)) (fun m hm => lifetime_plain (hduring m hm))
    (fun m hm => lifetime_plain (hafter m hm))

end WindowLife

/-! ## What the log tells -/

namespace World

variable {κ υ : Type}

def offers (s : World κ υ) : List (Entry κ υ) :=
  s.log.filter fun
    | .offered .. => true
    | .returned .. => false

def returns (s : World κ υ) : List (Entry κ υ) :=
  s.log.filter fun
    | .offered .. => false
    | .returned .. => true

end World

namespace WindowLife

section Runs

variable {κ υ : Type} {hwnd : Hwnd}

/-- The object is told of the messages of its window's life, and of WM_CREATE first. -/
theorem switch_self (s : World κ υ) {inside : Bool} (m : Message)
    (h : s.userData hwnd = some inside) :
    (s.switch hwnd m.message).1 = (inside || lifetime.opens m) := by
  rw [World.switch, h]
  by_cases hc : m.message = WM_CREATE
  · rw [if_pos hc]
    exact (Bool.or_eq_true_iff.mpr (Or.inr (decide_eq_true hc))).symm
  · have hopens : lifetime.opens m = false := decide_eq_false hc
    rw [if_neg hc, hopens, Bool.or_false]
    split
    · cases inside <;> rfl
    · cases inside <;> rfl

theorem switch_userData (s : World κ υ) {inside : Bool} (m : Message)
    (h : s.userData hwnd = some inside) :
    (s.switch hwnd m.message).2.userData hwnd = some (lifetime.next inside m) := by
  rw [World.switch, Span.next]
  by_cases hc : m.message = WM_CREATE
  · have hopens : lifetime.opens m = true := decide_eq_true hc
    rw [if_pos hc, hopens, Bool.true_or]
    exact Function.update_self ..
  · have hopens : lifetime.opens m = false := decide_eq_false hc
    rw [if_neg hc, hopens, Bool.false_or]
    by_cases hd : m.message = WM_DESTROY
    · have hcloses : lifetime.closes m = true := decide_eq_true hd
      rw [if_pos hd, hcloses, Bool.not_true, Bool.and_false]
      exact Function.update_self ..
    · have hcloses : lifetime.closes m = false := decide_eq_false hd
      rw [if_neg hd, hcloses, Bool.not_false, Bool.and_true]
      exact h

theorem switch_object (s : World κ υ) (hwnd : Hwnd) (message : UInt32) :
    (s.switch hwnd message).2.object.callback_ = s.object.callback_ ∧
      (s.switch hwnd message).2.object.user_data_ = s.object.user_data_ ∧
      (s.switch hwnd message).2.log = s.log := by
  rw [World.switch]
  split
  · exact ⟨rfl, rfl, rfl⟩
  · split
    · exact ⟨rfl, rfl, rfl⟩
    · exact ⟨rfl, rfl, rfl⟩

/-- With a callback, the `switch` alone decides whether a message is offered. -/
theorem send_eq {t : Thread κ υ} {callback : κ} (hc : t.world.object.callback_ = some callback)
    (m : Message) :
    send hwnd t m =
      if (t.world.switch hwnd m.message).1 then
        ⟨{ (t.world.switch hwnd m.message).2 with
            log := t.world.log ++ [.offered callback t.world.object.user_data_ m] },
          .callback m :: t.calls⟩
      else ⟨(t.world.switch hwnd m.message).2, .defWindowProc m :: t.calls⟩ := by
  obtain ⟨hcallback, huser, hlog⟩ := switch_object t.world hwnd m.message
  rw [send]
  generalize t.world.switch hwnd m.message = r at *
  obtain ⟨self, s⟩ := r
  simp only at hcallback huser hlog ⊢
  rw [hcallback, hc, huser, hlog]
  cases self with
  | false => rfl
  | true => rfl

/-- Behind the events, for a window of the object that had said `s.log` before. -/
structure Tells (hwnd : Hwnd) (s : World κ υ) (callback : κ) (user_data : Option υ)
    (es : List Event) (t : Thread κ υ) : Prop where
  callback_ : t.world.object.callback_ = some callback
  user_data_ : t.world.object.user_data_ = user_data
  userData : ∀ inside, t.world.userData hwnd = some inside →
    inside = (arrived es).foldl lifetime.next false
  offers : t.world.offers =
    s.offers ++ (lifetime.kept false (arrived es)).map (Entry.offered callback user_data)
  pending : t.calls.map Call.message = (exchange es).pending
  returns : t.world.returns =
    s.returns ++ (exchange es).results.map fun p => Entry.returned hwnd p.1 p.2

theorem tells_created (s : World κ υ) (callback : κ) (user_data : Option υ) (atom : UInt16) :
    Tells hwnd s callback user_data [] ⟨created s user_data (some callback) atom hwnd, []⟩ where
  callback_ := rfl
  user_data_ := rfl
  userData inside h := by
    have hnew : (created s user_data (some callback) atom hwnd).userData hwnd = some false :=
      Function.update_self ..
    exact Option.some.inj (h.symm.trans hnew)
  offers := (List.append_nil _).symm
  pending := rfl
  returns := (List.append_nil _).symm

variable {s : World κ υ} {callback : κ} {user_data : Option υ} {es : List Event}
  {t t' : Thread κ υ}

theorem tells_send (ht : Tells hwnd s callback user_data es t) {m : Message}
    (hlive : t.world.userData hwnd ≠ none) :
    Tells hwnd s callback user_data (es ++ [.send m]) (send hwnd t m) := by
  obtain ⟨inside, hinside⟩ := Option.ne_none_iff_exists'.mp hlive
  have hfold := ht.userData inside hinside
  have harrived : arrived (es ++ [.send m]) = arrived es ++ [m] := arrived_append es [.send m]
  have hbehind : (arrived es ++ [m]).foldl lifetime.next false = lifetime.next inside m := by
    rw [List.foldl_append, ← hfold]
    rfl
  have hkept : lifetime.kept false (arrived es ++ [m]) =
      lifetime.kept false (arrived es) ++ if inside || lifetime.opens m then [m] else [] := by
    rw [Span.kept_append, ← hfold, Span.kept, Span.kept, List.append_nil]
  have hnext : exchange (es ++ [.send m]) =
      { exchange es with pending := m :: (exchange es).pending } := exchange_append es _
  obtain ⟨hcallback, huser, hlog⟩ := switch_object t.world hwnd m.message
  have huserData : ∀ inside', (t.world.switch hwnd m.message).2.userData hwnd = some inside' →
      inside' = (arrived (es ++ [.send m])).foldl lifetime.next false := by
    intro inside' h
    rw [harrived, hbehind]
    exact Option.some.inj (h.symm.trans (switch_userData t.world m hinside))
  rw [send_eq ht.callback_, switch_self t.world m hinside]
  cases h : inside || lifetime.opens m with
  | true =>
    rw [h, if_pos rfl] at hkept
    rw [if_pos rfl]
    refine ⟨hcallback.trans ht.callback_, huser.trans ht.user_data_, huserData, ?_, ?_, ?_⟩
    · rw [harrived, hkept, List.map_append, ← List.append_assoc, ← ht.offers, ht.user_data_]
      simp [World.offers]
    · rw [hnext, ← ht.pending]
      rfl
    · rw [hnext, ← ht.returns]
      simp [World.returns]
  | false =>
    rw [h, if_neg Bool.false_ne_true, List.append_nil] at hkept
    rw [if_neg Bool.false_ne_true]
    refine ⟨hcallback.trans ht.callback_, huser.trans ht.user_data_, huserData, ?_, ?_, ?_⟩
    · rw [harrived, hkept, ← ht.offers, World.offers, hlog]
      rfl
    · rw [hnext, ← ht.pending]
      rfl
    · rw [hnext, ← ht.returns, World.returns, hlog]
      rfl

/-- The innermost call returns, and nothing else changes. -/
theorem tells_return (ht : Tells hwnd s callback user_data es t) {c : Call} {calls : List Call}
    (hcalls : t.calls = c :: calls) {e : Event} {result : LResult}
    (he : (exchange es).next e = (exchange es).answer result) (hm : e.message? = none) :
    Tells hwnd s callback user_data (es ++ [e])
      (returnCall hwnd t.world c.message result calls) := by
  have harrived : arrived (es ++ [e]) = arrived es := by
    rw [arrived_append]
    simp [arrived, hm]
  have hpending : (exchange es).pending = c.message :: calls.map Call.message := by
    rw [← ht.pending, hcalls]
    rfl
  have hnext : exchange (es ++ [e]) =
      ⟨calls.map Call.message, (exchange es).results ++ [(c.message, result)]⟩ := by
    rw [exchange_append, he, Exchange.answer, hpending]
  refine ⟨ht.callback_, ht.user_data_, ?_, ?_, ?_, ?_⟩
  · rw [harrived]
    exact ht.userData
  · rw [harrived, ← ht.offers]
    simp [returnCall, World.returned, World.offers]
  · rw [hnext]
    rfl
  · rw [hnext, List.map_append, ← List.append_assoc, ← ht.returns]
    simp [returnCall, World.returned, World.returns]

/-- Neither a message nor a result. -/
theorem tells_aside (ht : Tells hwnd s callback user_data es t) {e : Event}
    (he : (exchange es).next e = exchange es) (hm : e.message? = none) {t' : Thread κ υ}
    (hobject : t'.world.object.callback_ = t.world.object.callback_ ∧
      t'.world.object.user_data_ = t.world.object.user_data_)
    (hlog : t'.world.log = t.world.log)
    (huserData : ∀ inside, t'.world.userData hwnd = some inside →
      t.world.userData hwnd = some inside)
    (hcalls : t'.calls.map Call.message = t.calls.map Call.message) :
    Tells hwnd s callback user_data (es ++ [e]) t' := by
  have harrived : arrived (es ++ [e]) = arrived es := by
    rw [arrived_append]
    simp [arrived, hm]
  have hnext : exchange (es ++ [e]) = exchange es := by rw [exchange_append, he]
  refine ⟨hobject.1.trans ht.callback_, hobject.2.trans ht.user_data_, fun inside h => ?_,
    ?_, ?_, ?_⟩
  · rw [harrived]
    exact ht.userData inside (huserData inside h)
  · rw [harrived, ← ht.offers, World.offers, World.offers, hlog]
  · rw [hnext, hcalls, ht.pending]
  · rw [hnext, ← ht.returns, World.returns, World.returns, hlog]

theorem tells_step (ht : Tells hwnd s callback user_data es t) {e : Event}
    (h : step hwnd t e = some t') : Tells hwnd s callback user_data (es ++ [e]) t' := by
  cases e with
  | send m =>
    rw [step] at h
    split at h
    · exact absurd h.symm (Option.some_ne_none _)
    · rename_i hlive
      obtain rfl := Option.some.inj h
      exact tells_send ht hlive
  | callbackReturns answer =>
    simp only [step] at h
    split at h
    · rename_i m calls message_result hcalls
      obtain rfl := Option.some.inj h
      exact tells_return ht hcalls rfl rfl
    · rename_i m calls hcalls
      obtain rfl := Option.some.inj h
      exact tells_aside ht rfl rfl ⟨rfl, rfl⟩ rfl (fun _ h => h) (by rw [hcalls]; rfl)
    · exact absurd h.symm (Option.some_ne_none _)
  | defWindowProcReturns result =>
    simp only [step] at h
    split at h
    · rename_i m calls hcalls
      obtain rfl := Option.some.inj h
      exact tells_return ht hcalls rfl rfl
    · exact absurd h.symm (Option.some_ne_none _)
  | createWindowReturns window =>
    obtain rfl := Option.some.inj h
    exact tells_aside ht rfl rfl ⟨rfl, rfl⟩ rfl (fun _ h => h) rfl
  | gone =>
    obtain rfl := Option.some.inj h
    refine tells_aside ht rfl rfl ⟨rfl, rfl⟩ rfl (fun inside h => ?_) rfl
    simp [World.setUserData] at h

theorem tells_run {atom : UInt16}
    (h : (proc hwnd (created s user_data (some callback) atom hwnd)).Reaches es t) :
    Tells hwnd s callback user_data es t :=
  h.history (tells_created s callback user_data atom) fun _ _ _ _ ht _ => tells_step ht

/-- **The callback sees the window's life.** Of every order of messages with one WM_CREATE
and, behind it, one WM_DESTROY it is offered the part from the one to the other, each
message once and with the user data; and every call returns what the callback or else
`DefWindowProcW` answered. -/
theorem sees_life (s : World κ υ) (hwnd : Hwnd) (callback : κ) (user_data : Option υ)
    (atom : UInt16) (es : List Event) (t : Thread κ υ)
    (h : (proc hwnd (created s user_data (some callback) atom hwnd)).Reaches es t)
    (before during after : List Message) (create destroy : Message)
    (hcreate : create.message = WM_CREATE) (hdestroy : destroy.message = WM_DESTROY)
    (hbefore : ∀ m ∈ before, Plain m) (hduring : ∀ m ∈ during, Plain m)
    (hafter : ∀ m ∈ after, Plain m)
    (harrived : arrived es = before ++ create :: during ++ destroy :: after) :
    t.world.offers =
        s.offers ++ (create :: during ++ [destroy]).map (Entry.offered callback user_data) ∧
      t.world.returns =
        s.returns ++ (exchange es).results.map fun p => Entry.returned hwnd p.1 p.2 := by
  have htells := tells_run h
  refine ⟨?_, htells.returns⟩
  rw [htells.offers, harrived, kept_life hcreate hdestroy hbefore hduring hafter]

/-- WM_NCCREATE, WM_CREATE, then a WM_CLOSE whose default destroys the window, and
WM_NCDESTROY. -/
theorem sees_life_closed :
    ∃ t, (proc 7 (created World.initial (some ()) (some ()) 1 7)).Reaches
        [.send ⟨0x81, 0, 0⟩, .defWindowProcReturns 1, .send ⟨WM_CREATE, 0, 0⟩,
          .callbackReturns none, .defWindowProcReturns 0, .createWindowReturns (some 7),
          .send ⟨WM_CLOSE, 0, 0⟩, .callbackReturns none, .send ⟨WM_DESTROY, 0, 0⟩,
          .callbackReturns (some 5), .send ⟨0x82, 0, 0⟩, .defWindowProcReturns 0, .gone,
          .defWindowProcReturns 0] t ∧
      t.world.offers = [.offered () (some ()) ⟨WM_CREATE, 0, 0⟩,
        .offered () (some ()) ⟨WM_CLOSE, 0, 0⟩, .offered () (some ()) ⟨WM_DESTROY, 0, 0⟩] ∧
      t.world.returns = [.returned 7 ⟨0x81, 0, 0⟩ 1, .returned 7 ⟨WM_CREATE, 0, 0⟩ 0,
        .returned 7 ⟨WM_DESTROY, 0, 0⟩ 5, .returned 7 ⟨0x82, 0, 0⟩ 0,
        .returned 7 ⟨WM_CLOSE, 0, 0⟩ 0] := by
  have hrun : (proc 7 (created World.initial (some ()) (some ()) 1 7)).Reaches
      [.send ⟨0x81, 0, 0⟩, .defWindowProcReturns 1, .send ⟨WM_CREATE, 0, 0⟩,
        .callbackReturns none, .defWindowProcReturns 0, .createWindowReturns (some 7),
        .send ⟨WM_CLOSE, 0, 0⟩, .callbackReturns none, .send ⟨WM_DESTROY, 0, 0⟩,
        .callbackReturns (some 5), .send ⟨0x82, 0, 0⟩, .defWindowProcReturns 0, .gone,
        .defWindowProcReturns 0] _ := Automaton.run_iff_replay.mpr rfl
  have hlife := sees_life World.initial 7 () (some ()) 1 _ _ hrun [⟨0x81, 0, 0⟩]
    [⟨WM_CLOSE, 0, 0⟩] [⟨0x82, 0, 0⟩] ⟨WM_CREATE, 0, 0⟩ ⟨WM_DESTROY, 0, 0⟩ rfl rfl (by decide)
    (by decide) (by decide) rfl
  exact ⟨_, hrun, hlife⟩

end Runs

/-! ## Trees of calls -/

section Trees

variable {κ υ : Type} {hwnd : Hwnd}

/-- The change of the world is that of a run, whatever calls have not returned. -/
def Replays (hwnd : Hwnd) (f : World κ υ → World κ υ) : Prop :=
  ∀ (init s : World κ υ) (calls : List Call),
    ∃ es, (proc hwnd init).replay ⟨s, calls⟩ es = some ⟨f s, calls⟩

/-- `DefWindowProcW` runs, and the call returns its result. -/
theorem replay_default {default : World κ υ → World κ υ × LResult}
    (hd : Replays hwnd fun s => (default s).1) (init s : World κ υ) (m : Message)
    (calls : List Call) :
    ∃ es, (proc hwnd init).replay ⟨s, .defWindowProc m :: calls⟩ es =
      some ⟨(World.returned hwnd m (default s)).1, calls⟩ := by
  obtain ⟨es, hes⟩ := hd init s (.defWindowProc m :: calls)
  exact ⟨es ++ [.defWindowProcReturns (default s).2],
    Automaton.replay_trans hes (Automaton.replay_singleton rfl)⟩

/-- The callback runs, and the call returns its result or goes on to the default. -/
theorem replay_callback {callback : World κ υ → World κ υ × Option LResult}
    {default : World κ υ → World κ υ × LResult} (hc : Replays hwnd fun s => (callback s).1)
    (hd : Replays hwnd fun s => (default s).1) (init s : World κ υ) (m : Message)
    (calls : List Call) :
    ∃ es, (proc hwnd init).replay ⟨s, .callback m :: calls⟩ es =
      some ⟨(World.returned hwnd m
        (match callback s with
        | (s, some message_result) => (s, message_result)
        | (s, none) => default s)).1, calls⟩ := by
  obtain ⟨es, hes⟩ := hc init s (.callback m :: calls)
  simp only at hes
  generalize callback s = r at *
  obtain ⟨t, answer⟩ := r
  cases answer with
  | some message_result =>
    exact ⟨es ++ [.callbackReturns (some message_result)],
      Automaton.replay_trans hes (Automaton.replay_singleton rfl)⟩
  | none =>
    have hfalse : (proc hwnd init).replay ⟨t, .callback m :: calls⟩ [.callbackReturns none] =
        some ⟨t, .defWindowProc m :: calls⟩ := Automaton.replay_singleton rfl
    obtain ⟨fs, hfs⟩ := replay_default hd init t m calls
    exact ⟨_, Automaton.replay_trans hes (Automaton.replay_trans hfalse hfs)⟩

/-- One whole call of `WindowProc`. -/
theorem replay_windowProc {callback : World κ υ → World κ υ × Option LResult}
    {default : World κ υ → World κ υ × LResult} (hc : Replays hwnd fun s => (callback s).1)
    (hd : Replays hwnd fun s => (default s).1) (m : Message) {s : World κ υ}
    (hs : s.userData hwnd ≠ none) (init : World κ υ) (calls : List Call) :
    ∃ es, (proc hwnd init).replay ⟨s, calls⟩ es =
      some ⟨(World.returned hwnd m (World.windowProc callback default hwnd m s)).1, calls⟩ := by
  have hsend : (proc hwnd init).replay ⟨s, calls⟩ [.send m] = some (send hwnd ⟨s, calls⟩ m) :=
    Automaton.replay_singleton (if_neg hs)
  rw [send] at hsend
  rw [World.windowProc]
  simp only at hsend
  generalize s.switch hwnd m.message = r at *
  obtain ⟨self, t⟩ := r
  simp only at hsend ⊢
  cases self with
  | false =>
    obtain ⟨es, hes⟩ := replay_default hd init t m calls
    exact ⟨_, Automaton.replay_trans hsend hes⟩
  | true => cases hcallback : t.object.callback_ with
    | none =>
      rw [hcallback] at hsend
      obtain ⟨es, hes⟩ := replay_default hd init t m calls
      exact ⟨_, Automaton.replay_trans hsend hes⟩
    | some callback_ =>
      rw [hcallback] at hsend
      obtain ⟨es, hes⟩ := replay_callback hc hd init
        { t with log := t.log ++ [.offered callback_ t.object.user_data_ m] } m calls
      exact ⟨_, Automaton.replay_trans hsend hes⟩

end Trees

end WindowLife

section Trees

variable {κ υ : Type}

mutual

/-- Every message and every `DestroyWindow` is for the window, and none is created. -/
def Activity.on (hwnd : Hwnd) : Activity κ υ → Bool
  | .idle => true
  | .deliver target _ reaction next => target = hwnd && reaction.on hwnd && next.on hwnd
  | .destroyWindow target reaction after next =>
    target = hwnd && reaction.on hwnd && after.on hwnd && next.on hwnd
  | .createMessageOnlyWindow .. => false

def Reaction.on (hwnd : Hwnd) : Reaction κ υ → Bool
  | .mk _ inCallback _ inDefault => inCallback.on hwnd && inDefault.on hwnd

end

open WindowLife

variable {hwnd : Hwnd}

mutual

/-- **Trees of calls are runs** of the window procedure. -/
theorem Activity.replays (a : Activity κ υ) (h : a.on hwnd = true) : Replays hwnd a.run := by
  match a with
  | .idle => exact fun _ _ _ => ⟨[], rfl⟩
  | .deliver target m reaction next =>
    simp only [Activity.on, Bool.and_eq_true, decide_eq_true_eq] at h
    obtain ⟨⟨htarget, hr⟩, hn⟩ := h
    intro init s calls
    rw [Activity.run, htarget]
    split
    · exact Activity.replays next hn init s calls
    · rename_i hs
      obtain ⟨es, hes⟩ := Reaction.replays reaction hr m hs init calls
      obtain ⟨fs, hfs⟩ := Activity.replays next hn init (reaction.windowProc hwnd m s).1 calls
      exact ⟨_, Automaton.replay_trans hes hfs⟩
  | .destroyWindow target reaction after next =>
    simp only [Activity.on, Bool.and_eq_true, decide_eq_true_eq] at h
    obtain ⟨⟨⟨htarget, hr⟩, ha⟩, hn⟩ := h
    intro init s calls
    rw [Activity.run, World.destroyWindow, htarget]
    split
    · exact Activity.replays next hn init s calls
    · rename_i hs
      obtain ⟨es, hes⟩ := Reaction.replays reaction hr ⟨WM_DESTROY, 0, 0⟩ hs init calls
      obtain ⟨fs, hfs⟩ := Activity.replays after ha init
        (reaction.windowProc hwnd ⟨WM_DESTROY, 0, 0⟩ s).1 calls
      have hgone : (proc hwnd init).replay
          ⟨after.run (reaction.windowProc hwnd ⟨WM_DESTROY, 0, 0⟩ s).1, calls⟩ [.gone] = _ :=
        Automaton.replay_singleton rfl
      obtain ⟨gs, hgs⟩ := Activity.replays next hn init
        ((after.run (reaction.windowProc hwnd ⟨WM_DESTROY, 0, 0⟩ s).1).setUserData hwnd none)
        calls
      exact ⟨_, Automaton.replay_trans hes (Automaton.replay_trans hfs
        (Automaton.replay_trans hgone hgs))⟩
  | .createMessageOnlyWindow .. => exact absurd h Bool.false_ne_true

theorem Reaction.replays (r : Reaction κ υ) (h : r.on hwnd = true) (m : Message) {s : World κ υ}
    (hs : s.userData hwnd ≠ none) (init : World κ υ) (calls : List Call) :
    ∃ es, (proc hwnd init).replay ⟨s, calls⟩ es = some ⟨(r.windowProc hwnd m s).1, calls⟩ := by
  match r with
  | .mk answer inCallback result inDefault =>
    simp only [Reaction.on, Bool.and_eq_true] at h
    exact replay_windowProc (Activity.replays inCallback h.1) (Activity.replays inDefault h.2)
      m hs init calls

end

/-- `CreateWindowW` makes the window, and no message before or with WM_CREATE destroys it. -/
structure WindowLife.Creates (hwnd : Hwnd) (s : World κ υ) (before after : Activity κ υ)
    (create destroy : Reaction κ υ) : Prop where
  registered : s.class_instance_ ≠ some ⟨0⟩
  new : s.userData hwnd = none
  on_before : before.on hwnd = true
  outlives_before : (before.run (s.setUserData hwnd (some false))).userData hwnd ≠ none
  on_create : create.on hwnd = true
  outlives_create : (create.windowProc hwnd ⟨WM_CREATE, 0, 0⟩
    (before.run (s.setUserData hwnd (some false)))).1.userData hwnd ≠ none
  on_destroy : destroy.on hwnd = true
  on_after : after.on hwnd = true

variable {s : World κ υ} {before after : Activity κ υ} {create destroy : Reaction κ υ}

theorem Attempt.replays (h : Creates hwnd s before after create destroy) (init : World κ υ)
    (calls : List Call) :
    ∃ es, (proc hwnd init).replay ⟨s.setUserData hwnd (some false), calls⟩ es =
      some ⟨((Attempt.made hwnd before create destroy after).createWindow s).1, calls⟩ := by
  have hmade : ¬ (s.class_instance_ = some ⟨0⟩ ∨ s.userData hwnd ≠ none) :=
    not_or.mpr ⟨h.registered, not_not.mpr h.new⟩
  have houtlives := h.outlives_create
  obtain ⟨es, hes⟩ := Activity.replays before h.on_before init (s.setUserData hwnd (some false)) calls
  obtain ⟨fs, hfs⟩ := Reaction.replays create h.on_create ⟨WM_CREATE, 0, 0⟩ h.outlives_before
    init calls
  have hcreated := Automaton.replay_trans hes hfs
  rw [Attempt.createWindow, if_neg hmade]
  generalize create.windowProc hwnd ⟨WM_CREATE, 0, 0⟩
    (before.run (s.setUserData hwnd (some false))) = r at *
  simp only
  split
  · obtain ⟨gs, hgs⟩ := Reaction.replays destroy h.on_destroy ⟨WM_DESTROY, 0, 0⟩ houtlives
      init calls
    obtain ⟨hs, hhs⟩ := Activity.replays after h.on_after init
      (destroy.windowProc hwnd ⟨WM_DESTROY, 0, 0⟩ r.1).1 calls
    have hgone : (proc hwnd init).replay
        ⟨after.run (destroy.windowProc hwnd ⟨WM_DESTROY, 0, 0⟩ r.1).1, calls⟩ [.gone] = _ :=
      Automaton.replay_singleton rfl
    exact ⟨_, Automaton.replay_trans hcreated (Automaton.replay_trans hgs
      (Automaton.replay_trans hhs hgone))⟩
  · obtain ⟨gs, hgs⟩ := Activity.replays after h.on_after init r.1 calls
    exact ⟨_, Automaton.replay_trans hcreated hgs⟩

/-- **Creation and what follows it** is a run of the window procedure, too. -/
theorem WindowLife.created_reaches {user_data : Option υ} {callback : Option κ} {atom : UInt16}
    (h : Creates hwnd (prepared s user_data callback atom) before after create destroy)
    {next : Activity κ υ} (hn : next.on hwnd = true) :
    ∃ es, (proc hwnd (created s user_data callback atom hwnd)).Reaches es
      ⟨next.run (s.createMessageOnlyWindow user_data callback atom
        (Attempt.made hwnd before create destroy after).createWindow).1, []⟩ := by
  obtain ⟨es, hes⟩ := Attempt.replays h (created s user_data callback atom hwnd) []
  have hreturn : s.createMessageOnlyWindow user_data callback atom
      (Attempt.made hwnd before create destroy after).createWindow =
        let r := (Attempt.made hwnd before create destroy after).createWindow
          (prepared s user_data callback atom)
        (r.1.setWindow r.2, r.2.isSome) := rfl
  rw [hreturn]
  generalize (Attempt.made hwnd before create destroy after).createWindow
    (prepared s user_data callback atom) = r at hes
  have hreturns : (proc hwnd (created s user_data callback atom hwnd)).replay ⟨r.1, []⟩
      [.createWindowReturns r.2] = some ⟨r.1.setWindow r.2, []⟩ := Automaton.replay_singleton rfl
  obtain ⟨fs, hfs⟩ := Activity.replays next hn (created s user_data callback atom hwnd)
    (r.1.setWindow r.2) []
  exact ⟨_, Automaton.run_iff_replay.mpr (Automaton.replay_trans hes
    (Automaton.replay_trans hreturns hfs))⟩

/-- What the callback is offered and `WindowProc` returns, from the creation on. -/
theorem WindowLife.created_tells {user_data : Option υ} {callback : κ} {atom : UInt16}
    (h : Creates hwnd (prepared s user_data (some callback) atom) before after create destroy)
    {next : Activity κ υ} (hn : next.on hwnd = true) :
    ∃ es, Tells hwnd s callback user_data es
      ⟨next.run (s.createMessageOnlyWindow user_data (some callback) atom
        (Attempt.made hwnd before create destroy after).createWindow).1, []⟩ := by
  obtain ⟨es, hes⟩ := created_reaches h hn
  exact ⟨es, tells_run hes⟩

end Trees

end SearchAndIdna
