import Mathlib.Tactic.Common

/-!
# Triples for computations with a state

A computation that has a state and may fail moves the state along a relation, and a result that is
not an error has a property. Such triples are put together step by step, and so is what is known
about the errors.
-/

namespace HostedRepo

/-- A relation between the earlier and the later states of a run, which keeps a condition. -/
structure Track {σ : Type} (I : σ → Prop) (T : σ → σ → Prop) : Prop where
  refl : ∀ s, T s s
  trans : ∀ {s₁ s₂ s₃}, T s₁ s₂ → T s₂ s₃ → T s₁ s₃
  kept : ∀ {s₁ s₂}, T s₁ s₂ → I s₁ → I s₂

section

variable {ε σ α β : Type}

lemma bind_eq_ok {x : Except ε α} {f : α → Except ε β} {b : β} (h : (x >>= f) = .ok b) :
    ∃ a, x = .ok a ∧ f a = .ok b := by
  cases x with
  | error e => cases h
  | ok a => exact ⟨a, rfl, h⟩

lemma map_eq_ok {f : α → β} {x : Except ε α} {b : β} (h : x.map f = .ok b) :
    ∃ a, x = .ok a ∧ f a = b := by
  cases x with
  | error e => cases h
  | ok a => exact ⟨a, rfl, Except.ok.inj h⟩

lemma mapError_eq_ok {δ : Type} {f : ε → δ} {x : Except ε α} {a : α}
    (h : x.mapError f = .ok a) : x = .ok a := by
  cases x with
  | error e => cases h
  | ok b => rw [Except.ok.inj h]

lemma forall₂_of_mapM {f : α → Except ε β} {as : List α} {bs : List β} (h : as.mapM f = .ok bs) :
    List.Forall₂ (fun a b => f a = .ok b) as bs := by
  induction as generalizing bs with
  | nil =>
    cases h
    exact .nil
  | cons a as ih =>
    rw [List.mapM_cons] at h
    obtain ⟨b, hb, h⟩ := bind_eq_ok h
    obtain ⟨bs, hbs, h⟩ := bind_eq_ok h
    cases h
    exact .cons hb (ih hbs)

lemma toOption_eq_some_iff {x : Except ε α} {a : α} : x.toOption = some a ↔ x = .ok a := by
  cases x <;> simp [Except.toOption]

lemma run_bind (x : ExceptT ε (StateM σ) α) (f : α → ExceptT ε (StateM σ) β) (s : σ) :
    (x >>= f).run s = match x.run s with
      | (.ok a, s') => (f a).run s'
      | (.error e, s') => (.error e, s') := by
  change (ExceptT.bindCont f (x.run s).1) (x.run s).2 = _
  rcases x.run s with ⟨_ | a, s'⟩ <;> rfl

lemma run_bind_eq_ok {x : ExceptT ε (StateM σ) α} {f : α → ExceptT ε (StateM σ) β} {s s' : σ}
    {b : β} (h : (x >>= f).run s = (.ok b, s')) :
    ∃ a s₁, x.run s = (.ok a, s₁) ∧ (f a).run s₁ = (.ok b, s') := by
  rw [run_bind] at h
  rcases hx : x.run s with ⟨_ | a, s₁⟩
  · rw [hx] at h
    cases h
  · rw [hx] at h
    exact ⟨a, s₁, rfl, h⟩

variable {I : σ → Prop} {T : σ → σ → Prop} {Q Q' : α → Prop} {S : β → Prop}

/-- From a state with a condition, a computation moves along a relation and ends in `Q` or with an
error. -/
def Along (I : σ → Prop) (T : σ → σ → Prop) (x : ExceptT ε (StateM σ) α) (Q : α → Prop) : Prop :=
  ∀ s, I s → T s (x.run s).2 ∧ ∀ a, (x.run s).1 = .ok a → Q a

lemma Track.pure (ht : Track I T) {a : α} (h : Q a) :
    Along I T (pure a : ExceptT ε (StateM σ) α) Q := by
  intro s _
  refine ⟨ht.refl s, fun b hb => ?_⟩
  cases hb
  exact h

lemma Track.bind (ht : Track I T) {x : ExceptT ε (StateM σ) α} {f : α → ExceptT ε (StateM σ) β}
    (hx : Along I T x Q) (hf : ∀ a, Q a → Along I T (f a) S) : Along I T (x >>= f) S := by
  intro s hs
  obtain ⟨hmoved, ha⟩ := hx s hs
  rw [run_bind]
  rcases hr : x.run s with ⟨e | a, s₁⟩
  · rw [hr] at hmoved
    exact ⟨hmoved, fun _ h => by cases h⟩
  · rw [hr] at hmoved ha
    obtain ⟨hrest, hb⟩ := hf a (ha a rfl) s₁ (ht.kept hmoved hs)
    exact ⟨ht.trans hmoved hrest, hb⟩

lemma Along.imp {x : ExceptT ε (StateM σ) α} (hx : Along I T x Q) (hQ : ∀ a, Q a → Q' a) :
    Along I T x Q' := by
  intro s hs
  obtain ⟨hmoved, ha⟩ := hx s hs
  exact ⟨hmoved, fun a h => hQ a (ha a h)⟩

/-! ### Errors -/

variable {E : ε → Prop}

/-- The error of a result, if it is one, has a property. -/
def Blames (E : ε → Prop) (r : Except ε α) : Prop := ∀ e, r = .error e → E e

lemma blames_ok (a : α) : Blames E (.ok a : Except ε α) := fun _ h => by cases h

lemma blames_error {e : ε} (h : E e) : Blames E (.error e : Except ε α) := by
  intro _ heq
  cases heq
  exact h

lemma blames_mapError {δ : Type} {g : δ → ε} (h : ∀ d, E (g d)) (r : Except δ α) :
    Blames E (r.mapError g) := by
  cases r with
  | error d => exact blames_error (h d)
  | ok a => exact blames_ok a

lemma Blames.bind {r : Except ε α} {f : α → Except ε β} (hr : Blames E r)
    (hf : ∀ a, Blames E (f a)) : Blames E (r >>= f) := by
  cases r with
  | error e => exact blames_error (hr e rfl)
  | ok a => exact hf a

lemma Blames.map {r : Except ε α} (hr : Blames E r) (f : α → β) : Blames E (r.map f) := by
  cases r with
  | error e => exact blames_error (hr e rfl)
  | ok a => exact blames_ok (f a)

/-- The errors that a computation can end with have a property. -/
def Fails (E : ε → Prop) (x : ExceptT ε (StateM σ) α) : Prop :=
  ∀ s e, (x.run s).1 = .error e → E e

lemma fails_pure (a : α) : Fails E (pure a : ExceptT ε (StateM σ) α) :=
  fun _ _ h => by cases h

lemma fails_lift (x : StateM σ α) : Fails E (ExceptT.lift x : ExceptT ε (StateM σ) α) :=
  fun _ _ h => by cases h

lemma fails_throw {e : ε} (h : E e) : Fails E (throw e : ExceptT ε (StateM σ) α) := by
  intro _ _ heq
  cases heq
  exact h

lemma Fails.bind {x : ExceptT ε (StateM σ) α} {f : α → ExceptT ε (StateM σ) β}
    (hx : Fails E x) (hf : ∀ a, Fails E (f a)) : Fails E (x >>= f) := by
  intro s e h
  rw [run_bind] at h
  have he := hx s
  rcases hr : x.run s with ⟨e' | a, s₁⟩
  · rw [hr] at h he
    cases h
    exact he e rfl
  · rw [hr] at h
    exact hf a s₁ e h

lemma Fails.lift_bind {x : ExceptT ε (StateM σ) α} {f : Except ε α → ExceptT ε (StateM σ) β}
    (hx : Fails E x) (hf : ∀ r, Blames E r → Fails E (f r)) :
    Fails E (ExceptT.lift x.run >>= f) := by
  intro s e h
  rw [run_bind] at h
  exact hf (x.run s).1 (hx s) (x.run s).2 e h

end
end HostedRepo
