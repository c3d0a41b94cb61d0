import HostedRepo.Proofs.RedirectChain

/-!
# Runs side by side

Two computations agree when they give one result from related states and leave related states. So
do two runs of an agent whose requests differ in what neither redirects nor the wire take notice of.
What an agent hands back hangs on the URLs that are reached and the responses that are left, and not
on what was sent or reported before.
-/

namespace HostedRepo

open Http

/-! ### Agreement -/

section Agreement

variable {σ α β ε : Type} {rel : σ → σ → Prop}

/-- From related states two computations give one result and related states. -/
def Agree (rel : σ → σ → Prop) (m₁ m₂ : StateM σ α) : Prop :=
  ∀ s₁ s₂, rel s₁ s₂ → (m₁.run s₁).1 = (m₂.run s₂).1 ∧ rel (m₁.run s₁).2 (m₂.run s₂).2

lemma Agree.pure (a : α) : Agree rel (pure a) (pure a) := fun _ _ h => ⟨rfl, h⟩

lemma Agree.modify {f : σ → σ} (hf : ∀ s₁ s₂, rel s₁ s₂ → rel (f s₁) (f s₂)) :
    Agree rel (modify f) (modify f) := fun s₁ s₂ h => ⟨rfl, hf s₁ s₂ h⟩

lemma Agree.bind {m₁ m₂ : StateM σ α} {f₁ f₂ : α → StateM σ β} (h : Agree rel m₁ m₂)
    (hf : ∀ a, Agree rel (f₁ a) (f₂ a)) : Agree rel (m₁ >>= f₁) (m₂ >>= f₂) := by
  intro s₁ s₂ hs
  obtain ⟨heq, hrel⟩ := h s₁ s₂ hs
  have hnext := hf (m₁.run s₁).1 _ _ hrel
  rw [show (m₂ >>= f₂).run s₂ = (f₂ (m₂.run s₂).1).run (m₂.run s₂).2 from rfl, ← heq]
  exact hnext

lemma Agree.andThen {x₁ x₂ : ExceptT ε (StateM σ) α} {f₁ f₂ : α → ExceptT ε (StateM σ) β}
    (h : Agree rel x₁.run x₂.run) (hf : ∀ a, Agree rel (f₁ a).run (f₂ a).run) :
    Agree rel (x₁ >>= f₁).run (x₂ >>= f₂).run := by
  change Agree rel (x₁.run >>= ExceptT.bindCont f₁) (x₂.run >>= ExceptT.bindCont f₂)
  refine h.bind fun r => ?_
  cases r with
  | ok a => exact hf a
  | error e => exact .pure _

end Agreement

/-! ### Agents -/

namespace Http

namespace Agent

/-- A change to requests of which neither redirects nor related wires take notice. -/
structure Unnoticed (rel : Wire → Wire → Prop) (f : Request → Request) : Prop where
  url : ∀ q, (f q).url = q.url
  redirected : ∀ q status u, redirected (f q) status u = f (redirected q status u)
  defaults : ∀ (a : Agent) (q : Request),
    ({ f q with headers := a.withDefaults (f q).headers } : Request) =
      f { q with headers := a.withDefaults q.headers }
  exchange : ∀ q, Agree rel (fun w => pure (w.exchange q)) (fun w => pure (w.exchange (f q)))

variable {rel : Wire → Wire → Prop} {f : Request → Request}

/-- Redirects are followed in the same way. -/
theorem Unnoticed.follow (hf : Unnoticed rel f) (a : Agent) (first : Url) (hops : Nat)
    (q : Request) : Agree rel (follow a first hops q) (follow a first hops (f q)) := by
  induction hops using Nat.strongRecOn generalizing q with
  | _ hops ih =>
    rw [follow.eq_def a first hops q, follow.eq_def a first hops (f q)]
    refine (hf.exchange q).bind fun outcome => ?_
    cases outcome with
    | unreachable => exact .pure _
    | dropped => exact .pure _
    | answered response =>
      dsimp only
      split
      · exact .pure _
      · rw [hf.url]
        cases target? q.url response with
        | none => exact .pure _
        | some u =>
          cases hops with
          | zero => exact .pure _
          | succ hops =>
            dsimp only
            split
            · -- The second run goes on with the change of what the first goes on with.
              rw [hf.redirected]
              exact ih hops (by omega) _
            · exact .pure _

lemma Unnoticed.send (hf : Unnoticed rel f) (a : Agent) (prepared : Except Fault Request) :
    Agree rel (a.send prepared) (a.send (prepared.map f)) := by
  cases prepared with
  | error fault => exact .pure _
  | ok q =>
    change Agree rel (ite _ _ _) (ite _ (Agent.follow _ _ _ { f q with
      headers := a.withDefaults (f q).headers }) _)
    rw [hf.url, hf.defaults]
    split
    · exact hf.follow a q.url redirectLimit _
    · exact .pure _

end Agent

/-- Wires that reach the same URLs and have the same responses left. -/
structure Wire.Alike (w₁ w₂ : Wire) : Prop where
  reaches : w₂.reaches = w₁.reaches
  responses : w₂.responses = w₁.responses

lemma Wire.exchange_alike (q : Request) :
    Agree Wire.Alike (fun w => pure (w.exchange q)) (fun w => pure (w.exchange q)) := by
  intro w₁ w₂ h
  change (w₁.exchange q).1 = (w₂.exchange q).1 ∧ Alike (w₁.exchange q).2 (w₂.exchange q).2
  unfold exchange
  rw [h.reaches]
  split
  · simp only [h.responses]
    cases w₁.responses with
    | nil => exact ⟨rfl, rfl, rfl⟩
    | cons response rest => exact ⟨rfl, rfl, rfl⟩
  · exact ⟨rfl, h⟩

/-- On wires that are alike a request has the same outcome. -/
theorem Agent.send_alike (a : Agent) (prepared : Except Fault Request) :
    Agree Wire.Alike (a.send prepared) (a.send prepared) := by
  have hid : Unnoticed Wire.Alike id := ⟨fun _ => rfl, fun _ _ _ => rfl, fun _ _ => rfl,
    Wire.exchange_alike⟩
  have hsame : prepared.map id = prepared := by cases prepared <;> rfl
  have hsend := hid.send a prepared
  rwa [hsame] at hsend

end Http
end HostedRepo
