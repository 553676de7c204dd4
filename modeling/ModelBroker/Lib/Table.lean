import Mathlib.Algebra.GroupWithZero.Nat
import Mathlib.Data.List.Forall2
import Mathlib.Tactic.SplitIfs

/-!
# Tables of processes

A table of processes is a list: process `i` is at index `i`, a new process goes
to the end, and a step of process `i` replaces its entry. These lemmas say what
is found in the table, and how many entries have a property, after each of the
two changes.
-/

namespace Table

variable {α : Type*}

theorem lt_length {l : List α} {i : ℕ} {a : α} (h : l[i]? = some a) : i < l.length :=
  (List.getElem?_eq_some_iff.1 h).1

/-- What is found after a step of process `i`. -/
theorem get_set {l : List α} {i j : ℕ} {a b c : α} (hi : l[i]? = some a) :
    (l.set i b)[j]? = some c ↔ (j = i ∧ c = b) ∨ (j ≠ i ∧ l[j]? = some c) := by
  have := lt_length hi
  rw [List.getElem?_set]
  split_ifs with h
  · subst h; simp [eq_comm]
  · simp [Ne.symm (a := i) (b := j) h]

theorem get_set_self {l : List α} {i : ℕ} {a b : α} (hi : l[i]? = some a) :
    (l.set i b)[i]? = some b :=
  (get_set hi).2 (.inl ⟨rfl, rfl⟩)

/-- A process that goes on at the same point changes nothing. -/
theorem set_self {l : List α} {i : ℕ} {a : α} (hi : l[i]? = some a) : l.set i a = l := by
  obtain ⟨hlt, rfl⟩ := List.getElem?_eq_some_iff.1 hi
  exact List.set_getElem_self hlt

/-- What is known of every process is known after a step of process `i`. -/
theorem forall_set {P : ℕ → α → Prop} {l : List α} {i : ℕ} {a b : α} (hi : l[i]? = some a)
    (h : ∀ (j : ℕ) (c : α), l[j]? = some c → P j c) (hb : P i b) (j : ℕ) (c : α)
    (hc : (l.set i b)[j]? = some c) : P j c := by
  rcases (get_set hi).1 hc with ⟨rfl, rfl⟩ | ⟨-, hc⟩
  · exact hb
  · exact h j c hc

/-- Where a process with a property comes from after a step of process `i`: it
    had the property before, or the step gave it. -/
theorem origin (P : α → Prop) {Q : Prop} {l l' : List α} {i j : ℕ} {a b c : α}
    (hi : l[i]? = some a) (hl : l' = l.set i b) (hj : l'[j]? = some c) (hc : P c)
    (h : P b → P a ∨ Q) : (∃ c₀, l[j]? = some c₀ ∧ P c₀) ∨ Q := by
  rw [hl, get_set hi] at hj
  rcases hj with ⟨rfl, rfl⟩ | ⟨-, hj⟩
  · exact (h hc).imp_left fun ha => ⟨a, hi, ha⟩
  · exact .inl ⟨c, hj, hc⟩

/-- What becomes of a process with a property after a step of process `i`: it
    keeps the property, or the step took it. -/
theorem forward (P : α → Prop) {Q : Prop} {l l' : List α} {i j : ℕ} {a b c : α}
    (hi : l[i]? = some a) (hl : l' = l.set i b) (hj : l[j]? = some c) (hc : P c)
    (h : P a → P b ∨ Q) : (∃ c', l'[j]? = some c' ∧ P c') ∨ Q := by
  by_cases hji : j = i
  · subst hji
    obtain rfl : c = a := Option.some.inj (hj.symm.trans hi)
    exact (h hc).imp_left fun hb => ⟨b, hl ▸ get_set_self hi, hb⟩
  · exact .inl ⟨c, hl ▸ (get_set hi).2 (.inr ⟨hji, hj⟩), hc⟩

/-- A process stays when others are added. -/
theorem get_of_append {l m : List α} {j : ℕ} {c : α} (hj : l[j]? = some c) :
    (l ++ m)[j]? = some c := by
  rw [List.getElem?_append_left (lt_length hj), hj]

/-- What is found after a process is added. -/
theorem get_push {l : List α} {j : ℕ} {b c : α} :
    (l ++ [b])[j]? = some c ↔ (j = l.length ∧ c = b) ∨ l[j]? = some c := by
  rcases Nat.lt_trichotomy j l.length with h | rfl | h
  · rw [List.getElem?_append_left h]
    simp [Nat.ne_of_lt h]
  · simp [eq_comm]
  · rw [List.getElem?_append_right (by omega), List.getElem?_eq_none (by simp; omega),
      List.getElem?_eq_none (by omega)]
    simp; omega

/-- What is found after several processes are added. -/
theorem get_append {l m : List α} {j : ℕ} {c : α} :
    (l ++ m)[j]? = some c ↔ l[j]? = some c ∨ ∃ n, j = l.length + n ∧ m[n]? = some c := by
  rcases Nat.lt_or_ge j l.length with h | h
  · rw [List.getElem?_append_left h]
    constructor
    · exact .inl
    · rintro (h' | ⟨n, rfl, -⟩)
      · exact h'
      · omega
  · have hnone : l[j]? = none := List.getElem?_eq_none h
    rw [List.getElem?_append_right h, hnone]
    constructor
    · intro hc
      exact .inr ⟨j - l.length, by omega, hc⟩
    · rintro (h' | ⟨n, rfl, hn⟩)
      · cases h'
      · rwa [Nat.add_sub_cancel_left]

/-- The number of processes with a property after a step of process `i`. -/
theorem countP_set {p : α → Bool} {l : List α} {i : ℕ} {a b : α} (hi : l[i]? = some a) :
    (l.set i b).countP p + (if p a then 1 else 0) = l.countP p + (if p b then 1 else 0) := by
  obtain ⟨hlt, rfl⟩ := List.getElem?_eq_some_iff.1 hi
  rw [List.countP_set hlt]
  have hpos : p l[i] = true → 0 < l.countP p := fun h =>
    List.countP_pos_iff.2 ⟨_, List.getElem_mem hlt, h⟩
  split_ifs with h <;> simp_all

/-- A process with the property is counted. -/
theorem countP_pos {p : α → Bool} {l : List α} {i : ℕ} {a : α} (hi : l[i]? = some a)
    (ha : p a = true) : 0 < l.countP p :=
  List.countP_pos_iff.2 ⟨a, List.mem_of_getElem? hi, ha⟩

theorem countP_eq_zero {p : α → Bool} {l : List α} :
    l.countP p = 0 ↔ ∀ (i : ℕ) (a : α), l[i]? = some a → p a = false := by
  rw [List.countP_eq_zero]
  constructor
  · intro h i a hi
    simpa using h a (List.mem_of_getElem? hi)
  · intro h a ha
    obtain ⟨i, hi⟩ := List.mem_iff_getElem?.1 ha
    simp [h i a hi]

/-- Two tables of related processes have related entries. -/
theorem rel_get {β : Type*} {R : α → β → Prop} {l : List α} {l' : List β}
    (h : List.Forall₂ R l l') (i : ℕ) : Option.Rel R l[i]? l'[i]? := by
  induction h generalizing i with
  | nil => exact .none
  | cons hab _ ih =>
    cases i with
    | zero => exact .some hab
    | succ i => exact ih i

/-- They stay related in steps of process `i` to related points. -/
theorem rel_set {β : Type*} {R : α → β → Prop} {l : List α} {l' : List β} {a : α} {b : β}
    (h : List.Forall₂ R l l') (hab : R a b) (i : ℕ) : List.Forall₂ R (l.set i a) (l'.set i b) := by
  induction h generalizing i with
  | nil => exact .nil
  | cons hcd hrest ih =>
    cases i with
    | zero => exact .cons hab hrest
    | succ i => exact .cons hcd (ih i)

/-- A step of process `i` that brings its number down brings the sum down. -/
theorem sum_set_lt {l : List ℕ} {i m n : ℕ} (hi : l[i]? = some m) (hlt : n < m) :
    (l.set i n).sum < l.sum := by
  induction l generalizing i with
  | nil => cases hi
  | cons k l ih =>
    cases i with
    | zero =>
      obtain rfl := Option.some.inj hi
      rw [List.set_cons_zero, List.sum_cons, List.sum_cons]
      exact Nat.add_lt_add_right hlt _
    | succ i =>
      rw [List.getElem?_cons_succ] at hi
      rw [List.set_cons_succ, List.sum_cons, List.sum_cons]
      exact Nat.add_lt_add_left (ih hi) k

end Table
