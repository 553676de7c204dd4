import Mathlib.Data.List.Forall2
import ModelBroker.Lib.Runs

/-!
# Simulations between systems

`Simulation S ok T ok' R`: every step of a run of `T` is answered in `S` by one step or
by none, so that `R` goes on holding. What holds of the states `S` reaches then holds of
those `T` reaches, through `R`.

* `Simulation.reach`: a state reached in `T` is related to one reached in `S`.
* `Reach.project`: the case of a function, a part of the state of `T`.
* `Reach.pull`: under an environment of that part, which the rest of `T` does not see,
  the part runs as it does alone under its environment.
* `run_rel`: two systems that go in lock step.
-/

/-- The environment of a part `f` of the state, which reacts to the steps `act` of it. -/
def Env.pull {σ τ α β ω γ : Type*} (E : Env σ α ω γ) (f : τ → σ) (act : τ → β → Option α) :
    Env τ β ω γ where
  react t b t' w := (act t b).elim w fun a => E.react (f t) a (f t') w
  move t w c := E.move (f t) w c

namespace System

variable {σ τ α β : Type*} {S : System σ α} {T : System τ β} {ok : σ → α → Prop}
  {ok' : τ → β → Prop} {R : τ → σ → Prop}

/-- Runs of `T` are answered by runs of `S`. The answer may use that both states are
    reached. -/
structure Simulation (S : System σ α) (ok : σ → α → Prop) (T : System τ β) (ok' : τ → β → Prop)
    (R : τ → σ → Prop) : Prop where
  init : ∀ t, T.init t → ∃ s, S.init s ∧ R t s
  step : ∀ t s b t', T.Reach ok' t → S.Reach ok s → R t s → ok' t b → T.step t b = some t' →
    R t' s ∨ ∃ a s', ok s a ∧ S.step s a = some s' ∧ R t' s'

theorem Simulation.reach (h : Simulation S ok T ok' R) {t : τ} (ht : T.Reach ok' t) :
    ∃ s, S.Reach ok s ∧ R t s := by
  induction ht with
  | init ht =>
    obtain ⟨s, hs, hR⟩ := h.init _ ht
    exact ⟨s, .init hs, hR⟩
  | step ht hok hstep ih =>
    obtain ⟨s, hs, hR⟩ := ih
    rcases h.step _ s _ _ ht hs hR hok hstep with hR | ⟨a, s', ha, hs', hR⟩
    · exact ⟨s, hs, hR⟩
    · exact ⟨s', .step hs ha hs', hR⟩

/-- What every state of `S` satisfies is seen in `T`. -/
theorem Simulation.invariant (h : Simulation S ok T ok' R) {I : σ → Prop}
    (hI : ∀ s, S.Reach ok s → I s) {t : τ} (ht : T.Reach ok' t) : ∃ s, I s ∧ R t s := by
  obtain ⟨s, hs, hR⟩ := h.reach ht
  exact ⟨s, hI s hs, hR⟩

/-- A part of the state that makes no step of its own accord is in a reached state of
    its own system. -/
theorem Reach.project (f : τ → σ) (h0 : ∀ t, T.init t → S.init (f t))
    (hs : ∀ t b t', T.Reach ok' t → S.Reach ok (f t) → ok' t b → T.step t b = some t' →
      f t' = f t ∨ ∃ a, ok (f t) a ∧ S.step (f t) a = some (f t')) {t : τ}
    (ht : T.Reach ok' t) : S.Reach ok (f t) := by
  have hsim : Simulation S ok T ok' fun t s => f t = s := by
    refine ⟨fun t ht => ⟨_, h0 t ht, rfl⟩, ?_⟩
    rintro t _ b t' ht hreach rfl hok hstep
    rcases hs t b t' ht hreach hok hstep with heq | ⟨a, ha, hstep'⟩
    · exact .inl heq
    · exact .inr ⟨a, _, ha, hstep', rfl⟩
  obtain ⟨s, hreach, rfl⟩ := hsim.reach ht
  exact hreach

/-! ## Parts under an environment -/

variable {ω γ : Type*}

/-- The step takes the part `f` of the state along as `act` says. -/
def Tracks (S : System σ α) (f : τ → σ) (act : τ → β → Option α) (t : τ) (b : β) (t' : τ) : Prop :=
  (∃ a, act t b = some a ∧ S.step (f t) a = some (f t')) ∨ act t b = none ∧ f t' = f t

/-- A part whose environment sees only its steps runs as it does alone. -/
theorem Reach.pull {f : τ → σ} {act : τ → β → Option α} {E : Env σ α ω γ} {init : σ → ω → Prop}
    {ok : σ × ω → α ⊕ γ → Prop} {ok' : τ × ω → β ⊕ γ → Prop}
    (h0 : ∀ t, T.init t → S.init (f t))
    (htracks : ∀ t b t', T.Free t → T.step t b = some t' → S.Tracks f act t b t')
    (hact : ∀ t w b a, ok' (t, w) (.inl b) → act t b = some a → ok (f t, w) (.inl a))
    (hmove : ∀ t w c, ok' (t, w) (.inr c) → ok (f t, w) (.inr c)) {x : τ × ω}
    (h : (T.under (E.pull f act) fun t w => init (f t) w).Reach ok' x) :
    (S.under E init).Reach ok (f x.1, x.2) := by
  refine h.project (fun x => (f x.1, x.2)) ?_ ?_
  · rintro ⟨t, w⟩ ⟨ht, hw⟩
    exact ⟨h0 t ht, hw⟩
  · rintro ⟨t, w⟩ c ⟨t', w'⟩ hreach - hok hstep
    cases c with
    | inl b =>
      obtain ⟨ht, hw⟩ := under_inl.1 hstep
      dsimp only at ht hw
      rcases htracks t b t' (hreach.program fun _ _ _ => trivial) ht with
        ⟨a, ha, hs⟩ | ⟨hnone, hsame⟩
      · refine .inr ⟨.inl a, hact t w b a hok ha, under_inl.2 ⟨hs, ?_⟩⟩
        rw [hw]
        simp [Env.pull, ha]
      · refine .inl (Prod.ext hsame ?_)
        rw [hw]
        simp [Env.pull, hnone]
    | inr c =>
      obtain ⟨hw, ht⟩ := under_inr.1 hstep
      dsimp only at hw ht
      subst ht
      exact .inr ⟨.inr c, hmove t' w c hok, under_inr.2 ⟨hw, rfl⟩⟩

/-! ## Lock step -/

/-- Related actions are possible together, and lead from related states to related
    states: so does each list of them. -/
theorem run_rel {A : α → β → Prop}
    (hstep : ∀ s t a b, R t s → A a b → Option.Rel R (T.step t b) (S.step s a)) {as : List α}
    {bs : List β} (hA : List.Forall₂ A as bs) {s : σ} {t : τ} (hR : R t s) :
    Option.Rel R (T.run (fun _ _ => true) t bs) (S.run (fun _ _ => true) s as) := by
  induction hA generalizing s t with
  | nil => exact .some hR
  | @cons a b as bs hab _ ih =>
    have hrel := hstep s t a b hR hab
    simp only [run, if_true]
    generalize T.step t b = t' at hrel
    generalize S.step s a = s' at hrel
    cases hrel with
    | none => exact .none
    | some hR' => exact ih hR'

end System
