import HostedRepo.Client.Run
import HostedRepo.Remote.Script
import Mathlib.Tactic.Common

/-!
# Histories of plans

A history is what a plan does together with what comes of each act. `Plan.Leaves` says which
histories a plan can have when every call may be answered in every way; a runner picks one of them,
and `Through` follows its state along that history.
-/

namespace HostedRepo

/-- A call together with the reply that it got. -/
structure Answered where
  call : Call
  reply : Except RemoteError call.Reply

namespace Answered

def succeeded (x : Answered) : Bool := x.reply.isOk

def failed (x : Answered) (e : RemoteError) : Answered := ⟨x.call, .error e⟩

end Answered

inductive Act where
  | reported (e : Log.Event)
  | answered (x : Answered)
  | downloaded (link : Url) (reply : Except RemoteError Bytes)

abbrev History := List Act

namespace Act

def answered? : Act → Option Answered
  | .answered x => some x
  | _ => none

end Act

namespace History

/-- The calls of a history with their replies. -/
def answers (h : History) : List Answered := h.filterMap Act.answered?

@[simp] lemma answers_nil : answers [] = [] := rfl

@[simp] lemma answers_reported (e : Log.Event) (h : History) :
    answers (.reported e :: h) = answers h := rfl

@[simp] lemma answers_answered (x : Answered) (h : History) :
    answers (.answered x :: h) = x :: answers h := rfl

@[simp] lemma answers_downloaded (link : Url) (reply : Except RemoteError Bytes) (h : History) :
    answers (.downloaded link reply :: h) = answers h := rfl

@[simp] lemma answers_append (h₁ h₂ : History) :
    answers (h₁ ++ h₂) = answers h₁ ++ answers h₂ := List.filterMap_append

@[simp] lemma answers_map (xs : List Answered) : answers (xs.map .answered) = xs := by
  induction xs with
  | nil => rfl
  | cons x xs ih => simp [ih]

end History

namespace Plan

variable {α : Type}

/-- What a plan has become after the acts of a history. -/
inductive Leaves : Plan α → History → Plan α → Prop
  | stay (p : Plan α) : Leaves p [] p
  | report {e : Log.Event} {next p : Plan α} {h : History} :
    Leaves next h p → Leaves (.log e next) (.reported e :: h) p
  | call {c : Call} {next : Except RemoteError c.Reply → Plan α} {p : Plan α} {h : History}
    (reply : Except RemoteError c.Reply) :
    Leaves (next reply) h p → Leaves (.call c next) (.answered ⟨c, reply⟩ :: h) p
  | download {link : Url} {next : Except RemoteError Bytes → Plan α} {p : Plan α} {h : History}
    (reply : Except RemoteError Bytes) :
    Leaves (next reply) h p → Leaves (.download link next) (.downloaded link reply :: h) p

/-- The history of a plan that ends with a value. -/
def Yields (p : Plan α) (h : History) (a : α) : Prop := p.Leaves h (.done a)

lemma Leaves.trans {p q s : Plan α} {h₁ h₂ : History} (hp : p.Leaves h₁ q)
    (hq : q.Leaves h₂ s) : p.Leaves (h₁ ++ h₂) s := by
  induction hp with
  | stay p => exact hq
  | report _ ih => exact .report (ih hq)
  | call reply _ ih => exact .call reply (ih hq)
  | download reply _ ih => exact .download reply (ih hq)

lemma leaves_done_iff {a : α} {h : History} {p : Plan α} :
    (done a).Leaves h p ↔ h = [] ∧ p = .done a := by
  constructor
  · rintro ⟨⟩
    exact ⟨rfl, rfl⟩
  · rintro ⟨rfl, rfl⟩
    exact .stay _

lemma leaves_log_iff {e : Log.Event} {next : Plan α} {h : History} {p : Plan α} :
    (log e next).Leaves h p ↔
      (h = [] ∧ p = .log e next) ∨ ∃ h', h = .reported e :: h' ∧ next.Leaves h' p := by
  constructor
  · rintro (_ | hn)
    · exact .inl ⟨rfl, rfl⟩
    · exact .inr ⟨_, rfl, hn⟩
  · rintro (⟨rfl, rfl⟩ | ⟨h', rfl, hn⟩)
    · exact .stay _
    · exact .report hn

lemma leaves_call_iff {c : Call} {next : Except RemoteError c.Reply → Plan α} {h : History}
    {p : Plan α} :
    (call c next).Leaves h p ↔ (h = [] ∧ p = .call c next) ∨
      ∃ reply h', h = .answered ⟨c, reply⟩ :: h' ∧ (next reply).Leaves h' p := by
  constructor
  · intro hl
    cases hl with
    | stay => exact .inl ⟨rfl, rfl⟩
    | call reply hn => exact .inr ⟨reply, _, rfl, hn⟩
  · rintro (⟨rfl, rfl⟩ | ⟨reply, h', rfl, hn⟩)
    · exact .stay _
    · exact .call reply hn

end Plan

/-! ### Operations -/

namespace Operation

variable {β : Type}

lemma run_call_bind (c : Call) (f : c.Reply → Operation β) :
    (call c >>= f).run = .call c fun
      | .ok a => (f a).run
      | .error e => .done (.error e) := by
  change Plan.call c (fun r => ExceptT.bindCont f r) = _
  congr 1
  funext r
  cases r <;> rfl

lemma run_report (level : Log.Level) (message : String) (fields : List (String × String)) :
    (report level message fields).run =
      .log ⟨level, .operations, message, fields⟩ (.done (.ok ())) := rfl

/-- A call that an operation starts with is pending, or has failed and ended it, or has been
answered and is followed by the rest. -/
lemma leaves_call_bind_iff {c : Call} {f : c.Reply → Operation β} {h : History}
    {p : Plan (Except RemoteError β)} :
    (call c >>= f).run.Leaves h p ↔ (h = [] ∧ p = (call c >>= f).run) ∨
      (∃ e, h = [.answered ⟨c, .error e⟩] ∧ p = .done (.error e)) ∨
      ∃ a h', h = .answered ⟨c, .ok a⟩ :: h' ∧ (f a).run.Leaves h' p := by
  rw [run_call_bind, Plan.leaves_call_iff]
  apply or_congr Iff.rfl
  constructor
  · rintro ⟨reply, h', rfl, hn⟩
    cases reply with
    | ok a => exact .inr ⟨a, h', rfl, hn⟩
    | error e =>
      obtain ⟨rfl, rfl⟩ := Plan.leaves_done_iff.mp hn
      exact .inl ⟨e, rfl, rfl⟩
  · rintro (⟨e, rfl, rfl⟩ | ⟨a, h', rfl, hn⟩)
    · exact ⟨.error e, [], rfl, .stay _⟩
    · exact ⟨.ok a, h', rfl, hn⟩

lemma run_call_bind_ne_done {c : Call} {f : c.Reply → Operation β} (a : Except RemoteError β) :
    (call c >>= f).run ≠ .done a := by
  rw [run_call_bind]
  intro h
  cases h

end Operation

/-! ### Runners -/

/-- A state that moves along a history, one step for each act. -/
inductive Through {σ : Type} (step : σ → Act → σ → Prop) : σ → History → σ → Prop
  | nil (s : σ) : Through step s [] s
  | cons {s t u : σ} {a : Act} {h : History} :
    step s a t → Through step t h u → Through step s (a :: h) u

lemma through_nil_iff {σ : Type} {step : σ → Act → σ → Prop} {s t : σ} :
    Through step s [] t ↔ t = s := by
  constructor
  · rintro ⟨⟩
    rfl
  · rintro rfl
    exact .nil _

lemma through_cons_iff {σ : Type} {step : σ → Act → σ → Prop} {s u : σ} {a : Act} {h : History} :
    Through step s (a :: h) u ↔ ∃ t, step s a t ∧ Through step t h u := by
  constructor
  · rintro (_ | ⟨hs, ht⟩)
    exact ⟨_, hs, ht⟩
  · rintro ⟨t, hs, ht⟩
    exact .cons hs ht

lemma through_append_iff {σ : Type} {step : σ → Act → σ → Prop} {s u : σ} {h₁ h₂ : History} :
    Through step s (h₁ ++ h₂) u ↔ ∃ t, Through step s h₁ t ∧ Through step t h₂ u := by
  induction h₁ generalizing s with
  | nil => simp [through_nil_iff]
  | cons a h₁ ih =>
    simp only [List.cons_append, through_cons_iff, ih]
    constructor
    · rintro ⟨t, hs, t', h₁, h₂⟩
      exact ⟨t', ⟨t, hs, h₁⟩, h₂⟩
    · rintro ⟨t', ⟨t, hs, h₁⟩, h₂⟩
      exact ⟨t, hs, t', h₁, h₂⟩

/-- One act of a plan on a script. -/
def Script.Takes {σ : Type} (fetch : Url → σ → Except RemoteError Bytes × σ) :
    Script × σ → Act → Script × σ → Prop
  | (s, w), .reported e, t => t = ({ s with log := s.log ++ [e] }, w)
  | (s, w), .answered x, t => (s.answer x.call).1 = x.reply ∧ t = ((s.answer x.call).2, w)
  | (s, w), .downloaded link reply, t => (fetch link w).1 = reply ∧ t = (s, (fetch link w).2)

/-- A run on a script is one of the histories of the plan. -/
theorem runScript_history {α σ : Type} (fetch : Url → σ → Except RemoteError Bytes × σ)
    (p : Plan α) (s : Script) (w : σ) :
    ∃ h, p.Yields h (p.runScript fetch s w).1 ∧
      Through (Script.Takes fetch) (s, w) h (p.runScript fetch s w).2 := by
  induction p generalizing s w with
  | done a => exact ⟨[], .stay _, .nil _⟩
  | log e next ih =>
    obtain ⟨h, hy, ht⟩ := ih { s with log := s.log ++ [e] } w
    exact ⟨.reported e :: h, .report hy, .cons rfl ht⟩
  | call c next ih =>
    obtain ⟨h, hy, ht⟩ := ih (s.answer c).1 (s.answer c).2 w
    exact ⟨.answered ⟨c, (s.answer c).1⟩ :: h, .call _ hy, .cons ⟨rfl, rfl⟩ ht⟩
  | download link next ih =>
    obtain ⟨h, hy, ht⟩ := ih (fetch link w).1 s (fetch link w).2
    exact ⟨.downloaded link (fetch link w).1 :: h, .download _ hy, .cons ⟨rfl, rfl⟩ ht⟩

/-- One act of a plan on a client. -/
def Client.Takes (c : Client) (a : Http.Agent) : Http.Wire → Act → Http.Wire → Prop
  | w, .reported e, w' => w' = w.report e
  | w, .answered x, w' => (c.answer x.call).run w = (x.reply, w')
  | w, .downloaded link reply, w' => (downloadArchive a link).run w = (reply, w')

theorem runOn_history {α : Type} (c : Client) (a : Http.Agent) (p : Plan α) (w : Http.Wire) :
    ∃ h, p.Yields h (p.runOn c a w).1 ∧ Through (c.Takes a) w h (p.runOn c a w).2 := by
  induction p generalizing w with
  | done x => exact ⟨[], .stay _, .nil _⟩
  | log e next ih =>
    obtain ⟨h, hy, ht⟩ := ih (w.report e)
    exact ⟨.reported e :: h, .report hy, .cons rfl ht⟩
  | call request next ih =>
    obtain ⟨h, hy, ht⟩ := ih ((c.answer request).run w).1 ((c.answer request).run w).2
    exact ⟨.answered ⟨request, _⟩ :: h, .call _ hy, .cons rfl ht⟩
  | download link next ih =>
    obtain ⟨h, hy, ht⟩ := ih ((downloadArchive a link).run w).1 ((downloadArchive a link).run w).2
    exact ⟨.downloaded link _ :: h, .download _ hy, .cons rfl ht⟩

end HostedRepo
