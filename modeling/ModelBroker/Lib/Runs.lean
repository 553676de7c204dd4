import Mathlib.Logic.Basic
import Mathlib.Tactic.SplitIfs

/-!
# Labelled systems and the states their runs reach

A `System` has initial states and a partial step function: `step s a = none`
means that the action `a` is not possible in `s`. `S.Reach ok` are the states
reached by runs all of whose steps satisfy `ok`, so that a theorem about
"every run in which …" is one about `S.Reach ok`, and one about every run is
about `S.Free`.

An open program is put under an environment with `System.under`: the
environment has a state of its own, reacts to what the program does, and moves
by itself. A history variable is the special case of an environment that never
moves (`Env.history`). What an environment promises is said by `ok`.
-/

/-- Initial states and a partial step function. -/
structure System (σ α : Type*) where
  init : σ → Prop
  step : σ → α → Option σ

namespace System

variable {σ α ω β : Type*}

/-- The states reached by runs whose steps all satisfy `ok`. -/
inductive Reach (S : System σ α) (ok : σ → α → Prop) : σ → Prop
  | init {s : σ} (h : S.init s) : Reach S ok s
  | step {s t : σ} {a : α} (h : Reach S ok s) (hok : ok s a) (ht : S.step s a = some t) :
      Reach S ok t

/-- The states reached by any run. -/
abbrev Free (S : System σ α) : σ → Prop := S.Reach fun _ _ => True

/-- The same steps from other initial states. -/
def startingIn (S : System σ α) (P : σ → Prop) : System σ α := { S with init := P }

/-- The state after a list of actions, if each of them is possible and allowed. -/
def run (S : System σ α) (ok : σ → α → Bool) (s : σ) : List α → Option σ
  | [] => some s
  | a :: as => if ok s a then (S.step s a).bind fun t => S.run ok t as else none

/-! ## Rules -/

/-- What holds initially and is preserved by every step holds in every state
    reached; the step may use that its source is reached. -/
theorem Reach.invariant {S : System σ α} {ok : σ → α → Prop} {I : σ → Prop}
    (h0 : ∀ s, S.init s → I s)
    (hs : ∀ s a t, S.Reach ok s → I s → ok s a → S.step s a = some t → I t) {s : σ}
    (h : S.Reach ok s) : I s := by
  induction h with
  | init h => exact h0 _ h
  | step h hok ht ih => exact hs _ _ _ h ih hok ht

theorem Reach.mono {S : System σ α} {ok ok' : σ → α → Prop} (hok : ∀ s a, ok s a → ok' s a)
    {s : σ} (h : S.Reach ok s) : S.Reach ok' s := by
  induction h with
  | init h => exact .init h
  | step _ ha ht ih => exact .step ih (hok _ _ ha) ht

theorem Reach.free {S : System σ α} {ok : σ → α → Prop} {s : σ} (h : S.Reach ok s) : S.Free s :=
  h.mono fun _ _ _ => trivial

/-- A run that begins with a step. -/
theorem run_cons {S : System σ α} {ok : σ → α → Bool} {s t : σ} {a : α} (hok : ok s a = true)
    (ht : S.step s a = some t) (as : List α) : S.run ok s (a :: as) = S.run ok t as := by
  rw [run, if_pos hok, ht, Option.bind_some]

/-- A list of actions leads from a reached state to a reached state. -/
theorem Reach.run {S : System σ α} {ok : σ → α → Bool} {as : List α} {s t : σ}
    (h : S.Reach (fun s a => ok s a = true) s) (hrun : S.run ok s as = some t) :
    S.Reach (fun s a => ok s a = true) t := by
  induction as generalizing s with
  | nil => exact Option.some.inj hrun ▸ h
  | cons a as ih =>
    rw [System.run] at hrun
    split_ifs at hrun with hok
    obtain ⟨u, hu, hrest⟩ := Option.bind_eq_some_iff.1 hrun
    exact ih (.step h hok hu) hrest

/-- A test that succeeds after a list of actions succeeds in a reached state. -/
theorem exists_reach {S : System σ α} {ok : σ → α → Bool} {s : σ} (h0 : S.init s) (as : List α)
    (P : σ → Bool) (h : (S.run ok s as).any P = true) :
    ∃ t, S.Reach (fun s a => ok s a = true) t ∧ P t = true := by
  obtain ⟨t, hrun, ht⟩ := (Option.any_eq_true ..).1 h
  exact ⟨t, (Reach.init h0).run hrun, ht⟩

/-- What every state reached from the initial states `P` of the same system
    satisfies, when `P` is a part of the initial states. -/
theorem Reach.of_startingIn {S : System σ α} {ok : σ → α → Prop} {P : σ → Prop}
    (hP : ∀ s, P s → S.Reach ok s) {s : σ} (h : (S.startingIn P).Reach ok s) : S.Reach ok s := by
  induction h with
  | init h => exact hP _ h
  | step _ ha ht ih => exact .step ih ha ht

end System

/-! ## Programs under an environment -/

/-- An environment of a program with states `σ` and actions `α`: its states are
    `ω` and its own moves are `β`. -/
structure Env (σ α ω β : Type*) where
  /-- How the environment changes with a step of the program. -/
  react : σ → α → σ → ω → ω
  /-- A move of the environment alone. -/
  move : σ → ω → β → Option ω

/-- The environment that only records, given what each step adds. -/
def Env.history {σ α ω : Type*} (record : σ → α → σ → ω → ω) : Env σ α ω Empty where
  react := record
  move _ _ b := b.elim

namespace System

variable {σ α ω β : Type*}

/-- The program `S` under the environment `E`. -/
def under (S : System σ α) (E : Env σ α ω β) (init : σ → ω → Prop) : System (σ × ω) (α ⊕ β) where
  init x := S.init x.1 ∧ init x.1 x.2
  step x
    | .inl a => (S.step x.1 a).map fun t => (t, E.react x.1 a t x.2)
    | .inr b => (E.move x.1 x.2 b).map fun w => (x.1, w)

theorem under_inl {S : System σ α} {E : Env σ α ω β} {init : σ → ω → Prop} {x y : σ × ω} {a : α} :
    (S.under E init).step x (.inl a) = some y ↔
      S.step x.1 a = some y.1 ∧ y.2 = E.react x.1 a y.1 x.2 := by
  simp only [under, Option.map_eq_some_iff]
  constructor
  · intro h
    obtain ⟨t, ht, rfl⟩ := h
    exact ⟨ht, rfl⟩
  · intro h
    exact ⟨y.1, h.1, by rw [← h.2]⟩

theorem under_inr {S : System σ α} {E : Env σ α ω β} {init : σ → ω → Prop} {x y : σ × ω} {b : β} :
    (S.under E init).step x (.inr b) = some y ↔ E.move x.1 x.2 b = some y.2 ∧ y.1 = x.1 := by
  simp only [under, Option.map_eq_some_iff]
  constructor
  · intro h
    obtain ⟨w, hw, rfl⟩ := h
    exact ⟨hw, rfl⟩
  · intro h
    exact ⟨y.2, h.1, by rw [← h.2]⟩

/-- A step of the program under an environment. -/
theorem Reach.react {S : System σ α} {E : Env σ α ω β} {init : σ → ω → Prop}
    {ok : σ × ω → α ⊕ β → Prop} {s t : σ} {w : ω} {a : α} (h : (S.under E init).Reach ok (s, w))
    (hok : ok (s, w) (.inl a)) (ht : S.step s a = some t) :
    (S.under E init).Reach ok (t, E.react s a t w) :=
  .step h hok (under_inl.2 ⟨ht, rfl⟩)

/-- What holds at first and is preserved by the steps of the program and by the
    moves of the environment holds in every state reached. -/
theorem Reach.environment {S : System σ α} {E : Env σ α ω β} {init : σ → ω → Prop}
    {ok : σ × ω → α ⊕ β → Prop} {I : σ → ω → Prop}
    (h0 : ∀ s w, S.init s → init s w → I s w)
    (hstep : ∀ s w a t, (S.under E init).Reach ok (s, w) → I s w → ok (s, w) (.inl a) →
      S.step s a = some t → I t (E.react s a t w))
    (hmove : ∀ s w b w', (S.under E init).Reach ok (s, w) → I s w → ok (s, w) (.inr b) →
      E.move s w b = some w' → I s w')
    {x : σ × ω} (h : (S.under E init).Reach ok x) : I x.1 x.2 := by
  induction h with
  | init h => exact h0 _ _ h.1 h.2
  | @step x y c hx hok hy ih =>
    cases c with
    | inl a =>
      obtain ⟨ht, hw⟩ := under_inl.1 hy
      rw [hw]
      exact hstep x.1 x.2 a y.1 hx ih hok ht
    | inr b =>
      obtain ⟨hw, hs⟩ := under_inr.1 hy
      rw [hs]
      exact hmove x.1 x.2 b y.2 hx ih hok hw

/-- A run under an environment is a run of the program alone. -/
theorem Reach.program {S : System σ α} {E : Env σ α ω β} {init : σ → ω → Prop}
    {ok : σ × ω → α ⊕ β → Prop} {ok' : σ → α → Prop}
    (hok : ∀ x a, ok x (.inl a) → ok' x.1 a) {x : σ × ω} (h : (S.under E init).Reach ok x) :
    S.Reach ok' x.1 := by
  induction h with
  | init h => exact .init h.1
  | @step s t a _ ha ht ih =>
    cases a with
    | inl a => exact .step ih (hok _ _ ha) (under_inl.1 ht).1
    | inr b => rw [(under_inr.1 ht).2]; exact ih

end System
