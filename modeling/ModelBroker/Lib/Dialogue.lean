import Mathlib.Logic.Basic
import Mathlib.Data.List.Forall2

/-!
# Programs that ask

A `Dialogue Q A α` is a program that asks an environment: it returns a value, or
asks a question and goes on with the answer. `run` plays it against the sequence
of answers an environment gives, and returns what was asked and the value.

Two dialogues are `Alike` for a relation between questions and one between
values if they ask related questions as long as the answers are equal, and end
together with related values. This is the two-run property of confinement:
whatever differs between the two programs shows in the questions only as far as
the relation lets it.

* `Alike.bind`: dialogues made of alike parts are alike.
* `Alike.run`: against the same answers, alike dialogues ask related questions
  and return related values.
* `Asks.run`: a property of every question of a dialogue holds of what is asked.
-/

/-- A program that asks questions in `Q`, is answered in `A`, and returns in `α`. -/
inductive Dialogue (Q A : Type) (α : Type) where
  | done (value : α)
  | ask (question : Q) (next : A → Dialogue Q A α)

namespace Dialogue

variable {Q A α β γ δ : Type}

/-- One program after the other. -/
def bind : Dialogue Q A α → (α → Dialogue Q A β) → Dialogue Q A β
  | done value, f => f value
  | ask question next, f => ask question fun answer => (next answer).bind f

instance : Monad (Dialogue Q A) where
  pure := done
  bind := bind

@[simp] theorem done_bind (value : α) (f : α → Dialogue Q A β) : (done value).bind f = f value := rfl

@[simp] theorem ask_bind (question : Q) (next : A → Dialogue Q A α) (f : α → Dialogue Q A β) :
    (ask question next).bind f = ask question fun answer => (next answer).bind f := rfl

/-- What is asked of an environment that gives these answers, one after the
    other, and the value returned. -/
def run : Dialogue Q A α → (ℕ → A) → List Q × α
  | done value, _ => ([], value)
  | ask question next, answers =>
    let rest := (next (answers 0)).run fun n => answers (n + 1)
    (question :: rest.1, rest.2)

/-- What is done with the value at the end asks nothing more. -/
theorem run_bind_done (d : Dialogue Q A α) (g : α → β) (answers : ℕ → A) :
    (d.bind fun value => done (g value)).run answers =
      ((d.run answers).1, g (d.run answers).2) := by
  induction d generalizing answers with
  | done value => rfl
  | ask question next ih => simp only [ask_bind, run, ih]

/-- Two dialogues whose questions are related by `R` and whose values are by `S`. -/
inductive Alike (R : Q → Q → Prop) (S : α → β → Prop) : Dialogue Q A α → Dialogue Q A β → Prop
  | done {value : α} {value' : β} (hv : S value value') : Alike R S (done value) (done value')
  | ask {q q' : Q} {next : A → Dialogue Q A α} {next' : A → Dialogue Q A β} (hq : R q q')
      (h : ∀ answer, Alike R S (next answer) (next' answer)) : Alike R S (ask q next) (ask q' next')

theorem Alike.refl {R : Q → Q → Prop} (hR : ∀ q, R q q) (d : Dialogue Q A α) : Alike R Eq d d := by
  induction d with
  | done value => exact .done rfl
  | ask question next ih => exact .ask (hR question) ih

theorem Alike.bind {R : Q → Q → Prop} {S : α → β → Prop} {T : γ → δ → Prop} {d : Dialogue Q A α}
    {d' : Dialogue Q A β} {f : α → Dialogue Q A γ} {f' : β → Dialogue Q A δ} (h : Alike R S d d')
    (hf : ∀ value value', S value value' → Alike R T (f value) (f' value')) :
    Alike R T (d.bind f) (d'.bind f') := by
  induction h with
  | done hv => exact hf _ _ hv
  | ask hq _ ih => exact .ask hq ih

theorem Alike.run {R : Q → Q → Prop} {S : α → β → Prop} {d : Dialogue Q A α} {d' : Dialogue Q A β}
    (h : Alike R S d d') (answers : ℕ → A) :
    List.Forall₂ R (d.run answers).1 (d'.run answers).1 ∧
      S (d.run answers).2 (d'.run answers).2 := by
  induction h generalizing answers with
  | done hv => exact ⟨.nil, hv⟩
  | ask hq _ ih =>
    obtain ⟨hrest, hvalue⟩ := ih (answers 0) fun n => answers (n + 1)
    exact ⟨.cons hq hrest, hvalue⟩

/-- A property of every question of a dialogue. -/
inductive Asks (P : Q → Prop) : Dialogue Q A α → Prop
  | done (value : α) : Asks P (done value)
  | ask {q : Q} {next : A → Dialogue Q A α} (hq : P q) (h : ∀ answer, Asks P (next answer)) :
      Asks P (ask q next)

theorem Asks.bind {P : Q → Prop} {d : Dialogue Q A α} {f : α → Dialogue Q A β} (h : Asks P d)
    (hf : ∀ value, Asks P (f value)) : Asks P (d.bind f) := by
  induction h with
  | done value => exact hf value
  | ask hq _ ih => exact .ask hq ih

theorem Asks.mono {P P' : Q → Prop} {d : Dialogue Q A α} (h : Asks P d) (hP : ∀ q, P q → P' q) :
    Asks P' d := by
  induction h with
  | done value => exact .done value
  | ask hq _ ih => exact .ask (hP _ hq) ih

theorem Asks.run {P : Q → Prop} {d : Dialogue Q A α} (h : Asks P d) (answers : ℕ → A) :
    ∀ q ∈ (d.run answers).1, P q := by
  induction h generalizing answers with
  | done value => exact fun q hq => absurd hq List.not_mem_nil
  | ask hq _ ih => exact List.forall_mem_cons.2 ⟨hq, ih _ _⟩

end Dialogue
