import Mathlib.Data.Nat.Init
import ModelBroker.Lib.Runs

/-!
# Driving a system to a goal

Every action belongs to a turn, or to none. Whoever drives the system chooses
whose turn it is, and the environment chooses the action of that turn; a turn can
be taken if it has a possible action. `S.Forces turn ok Q s` says that choosing
turns well leads from `s` to a state with `Q`, whatever the environment chooses
among the actions that satisfy `ok`.

* `Forces.bind`: one goal after the other.
* `Forces.of_measure`: a measure that can always be brought down.
* `Forces.reach`: the goal is met in a state that is reached.
* `Forces.simulate`: what can be forced in a part of a system can be forced in the whole,
  if each turn of the part can.
-/

namespace System

variable {σ α κ : Type*}

/-- Choosing turns leads to the goal, whatever the actions are. -/
inductive Forces (S : System σ α) (turn : α → Option κ) (ok : σ → α → Prop) (Q : σ → Prop) : σ → Prop
  | goal {s : σ} (h : Q s) : Forces S turn ok Q s
  | take {s : σ} (c : κ) (hcan : ∃ a t, turn a = some c ∧ ok s a ∧ S.step s a = some t)
      (h : ∀ a t, turn a = some c → ok s a → S.step s a = some t → Forces S turn ok Q t) :
      Forces S turn ok Q s

variable {S : System σ α} {turn : α → Option κ} {ok : σ → α → Prop} {P Q : σ → Prop} {s : σ}

theorem Forces.bind (h : S.Forces turn ok P s) (hPQ : ∀ t, P t → S.Forces turn ok Q t) :
    S.Forces turn ok Q s := by
  induction h with
  | goal h => exact hPQ _ h
  | take c hcan _ ih => exact .take c hcan ih

theorem Forces.mono (h : S.Forces turn ok P s) (hPQ : ∀ t, P t → Q t) : S.Forces turn ok Q s :=
  h.bind fun t ht => .goal (hPQ t ht)

/-- Only what can be taken in a turn matters. -/
theorem Forces.congr {ok' : σ → α → Prop} (h : S.Forces turn ok Q s)
    (hok : ∀ s a, turn a ≠ none → (ok s a ↔ ok' s a)) : S.Forces turn ok' Q s := by
  have htaken : ∀ {s : σ} {a : α} {c : κ}, turn a = some c → (ok s a ↔ ok' s a) := by
    intro s a c ha
    exact hok s a (by simp [ha])
  induction h with
  | goal h => exact .goal h
  | take c hcan _ ih =>
    obtain ⟨a, t, ha, hok, ht⟩ := hcan
    exact .take c ⟨a, t, ha, (htaken ha).1 hok, ht⟩
      fun a t ha hok ht => ih a t ha ((htaken ha).2 hok) ht

/-- While the measure can be brought down, the goal can be met. -/
theorem Forces.of_measure (m : σ → ℕ)
    (h : ∀ s, P s → S.Forces turn ok (fun t => Q t ∨ P t ∧ m t < m s) s) (hP : P s) :
    S.Forces turn ok Q s := by
  generalize hn : m s = n
  induction n using Nat.strong_induction_on generalizing s with
  | _ n ih =>
    refine (h s hP).bind fun t ht => ?_
    rcases ht with hQ | ⟨hP', hlt⟩
    · exact .goal hQ
    · exact ih (m t) (hn ▸ hlt) hP' rfl

/-- What is reached on the way is reached in a run. -/
theorem Forces.reach (h : S.Forces turn ok Q s) (hs : S.Reach ok s) :
    S.Forces turn ok (fun t => S.Reach ok t ∧ Q t) s := by
  induction h with
  | goal h => exact .goal ⟨hs, h⟩
  | take c hcan _ ih =>
    refine .take c hcan fun a t ha hok ht => ?_
    exact ih a t ha hok ht (.step hs hok ht)

/-- A goal that can be forced is met in some run. -/
theorem Forces.exists_reach (h : S.Forces turn ok Q s) :
    ∃ t, (S.startingIn fun s' => s' = s).Reach (fun s a => ok s a ∧ turn a ≠ none) t ∧ Q t := by
  induction h with
  | goal h => exact ⟨_, .init rfl, h⟩
  | @take s c hcan _ ih =>
    obtain ⟨a, t, ha, hok, ht⟩ := hcan
    obtain ⟨u, hu, hQ⟩ := ih a t ha hok ht
    refine ⟨u, Reach.of_startingIn (S := S.startingIn fun s' => s' = s) ?_ hu, hQ⟩
    rintro _ rfl
    exact .step (.init rfl) ⟨hok, by simp [ha]⟩ ht

/-- A driver of `S` drives `T`, where each turn of `S` can be forced. -/
theorem Forces.simulate {τ β κ' : Type*} {T : System τ β} {turn' : β → Option κ'}
    {ok' : τ → β → Prop} {R : τ → σ → Prop}
    (hturn : ∀ t s c, R t s → (∃ a s', turn a = some c ∧ ok s a ∧ S.step s a = some s') →
      T.Forces turn' ok'
        (fun t' => ∃ a s', turn a = some c ∧ ok s a ∧ S.step s a = some s' ∧ R t' s') t)
    (h : S.Forces turn ok Q s) {t : τ} (hR : R t s) :
    T.Forces turn' ok' (fun t' => ∃ s', R t' s' ∧ Q s') t := by
  induction h generalizing t with
  | goal h => exact .goal ⟨_, hR, h⟩
  | @take s c hcan _ ih =>
    refine (hturn t s c hR hcan).bind ?_
    rintro t' ⟨a, s', ha, hok, hs, hR'⟩
    exact ih a s' ha hok hs hR'

end System
