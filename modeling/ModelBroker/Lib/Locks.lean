import Mathlib.Logic.Function.Basic
import Mathlib.Logic.Relation
import ModelBroker.Lib.Dialogue
import ModelBroker.Lib.Table
import ModelBroker.Lib.Turns

/-!
# Programs that share resources under locks

Threads run programs that ask questions (`Dialogue`) about one resource each. Some run
under a lock, and the others only read. Each question is one step, between those of the
other threads, and a resource may also change by itself. What a question does to its
resource is given (`Rules`).

* `serial`: if the threads that change a resource share a lock, each resource is as if
  they had run one after the other, in the order in which they have ended, and each has
  ended with a value that it could have had alone.
* `all_end`: if questions are always answered, all threads can be brought to their end.
-/

namespace Locks

/-- A program, the lock that it runs under, if any, and what its questions are about. -/
structure Job (Q A R κ ι : Type) where
  lock : Option ι
  about : κ
  program : Dialogue Q A R

/-- Where a thread is: before its lock, in its program, or past both. -/
inductive Point (Q A R : Type) where
  | waiting
  | running (rest : Dialogue Q A R)
  | ended (value : R)

structure Thread (Q A R κ ι : Type) where
  job : Job Q A R κ ι
  point : Point Q A R := .waiting

/-- A thread that has ended. -/
structure Entry (Q A R κ ι : Type) where
  thread : ℕ
  job : Job Q A R κ ι
  value : R

/-- The threads, the resources, and the threads that have ended, in their order. -/
structure State (Q A R κ ι υ : Type) where
  threads : List (Thread Q A R κ ι) := []
  world : κ → υ
  ended : List (Entry Q A R κ ι) := []

/-- What questions do to resources, and how these change by themselves. -/
structure Rules (Q A κ υ : Type) where
  does : κ → υ → Q → A → υ → Prop
  drifts : κ → υ → υ → Prop

/-- The question changes nothing. -/
def Rules.Reads {Q A κ υ : Type} (E : Rules Q A κ υ) (k : κ) (q : Q) : Prop :=
  ∀ v answer w, E.does k v q answer w → w = v

inductive Action (Q A R κ ι υ : Type) where
  | spawn (job : Job Q A R κ ι)
  /-- The lock is acquired, if there is one, and the program begins. -/
  | enter (i : ℕ)
  | ask (i : ℕ) (answer : A) (after : υ)
  /-- The program returns, and the lock is released. -/
  | finish (i : ℕ)
  | drift (k : κ) (after : υ)

variable {Q A R κ ι υ : Type} [DecidableEq κ] [DecidableEq ι]

/-- The thread holds the lock. -/
def Thread.holds (l : ι) (t : Thread Q A R κ ι) : Bool :=
  match t.point with
  | .running _ => decide (t.job.lock = some l)
  | _ => false

/-- The lock can be acquired. -/
def State.free (s : State Q A R κ ι υ) (l : ι) : Bool := s.threads.all fun t => !t.holds l

/-- The thread goes on. -/
def State.put (s : State Q A R κ ι υ) (i : ℕ) (job : Job Q A R κ ι) (point : Point Q A R) :
    State Q A R κ ι υ :=
  { s with threads := s.threads.set i ⟨job, point⟩ }

/-- The thread ends. -/
def State.conclude (s : State Q A R κ ι υ) (i : ℕ) (job : Job Q A R κ ι) (value : R) :
    State Q A R κ ι υ :=
  { s with
    threads := s.threads.set i ⟨job, .ended value⟩
    ended := s.ended ++ [⟨i, job, value⟩] }

/-- The resource changes. -/
def State.become (s : State Q A R κ ι υ) (k : κ) (after : υ) : State Q A R κ ι υ :=
  { s with world := Function.update s.world k after }

/-- One step. -/
def step (s : State Q A R κ ι υ) : Action Q A R κ ι υ → Option (State Q A R κ ι υ)
  | .spawn job => some { s with threads := s.threads ++ [{ job }] }
  | .enter i =>
    match s.threads[i]? with
    | some ⟨job, .waiting⟩ =>
      if job.lock.all s.free then some (s.put i job (.running job.program)) else none
    | _ => none
  | .ask i answer after =>
    match s.threads[i]? with
    | some ⟨job, .running (.ask _ next)⟩ =>
      some ((s.become job.about after).put i job (.running (next answer)))
    | _ => none
  | .finish i =>
    match s.threads[i]? with
    | some ⟨job, .running (.done value)⟩ =>
      some (s.conclude i job value)
    | _ => none
  | .drift k after => some (s.become k after)

/-- Threads that come and go, with these resources at first. -/
def system (world : κ → υ) : System (State Q A R κ ι υ) (Action Q A R κ ι υ) where
  init s := s = { world }
  step := step

/-- Resources do what the rules say. -/
def obeyed (E : Rules Q A κ υ) (s : State Q A R κ ι υ) : Action Q A R κ ι υ → Prop
  | .ask i answer after => ∀ (job : Job Q A R κ ι) (q : Q) (next : A → Dialogue Q A R),
      s.threads[i]? = some ⟨job, .running (.ask q next)⟩ →
      E.does job.about (s.world job.about) q answer after
  | .drift k after => E.drifts k (s.world k) after
  | .spawn _ | .enter _ | .finish _ => True

/-- The program has the lock of its resource, or only reads. -/
def Job.Proper (E : Rules Q A κ υ) (owns : κ → ι → Prop) (job : Job Q A R κ ι) : Prop :=
  (∀ l, job.lock = some l → owns job.about l) ∧
    (job.lock = none → job.program.Asks (E.Reads job.about))

/-- Resources do what the rules say, and the threads that come are proper. -/
def allowed (E : Rules Q A κ υ) (owns : κ → ι → Prop) (s : State Q A R κ ι υ)
    (a : Action Q A R κ ι υ) : Prop :=
  obeyed E s a ∧ ∀ job, a = .spawn job → job.Proper E owns

/-! ## One after the other -/

/-- A program goes on, with nobody else asking about the resource. -/
inductive Alone (E : Rules Q A κ υ) (k : κ) (v : υ) (d : Dialogue Q A R) :
    υ → Dialogue Q A R → Prop
  | refl : Alone E k v d v d
  | ask {w w' : υ} {q : Q} {next : A → Dialogue Q A R} {answer : A}
      (h : Alone E k v d w (.ask q next)) (hdoes : E.does k w q answer w') :
      Alone E k v d w' (next answer)
  | drift {w w' : υ} {d' : Dialogue Q A R} (h : Alone E k v d w d') (hdrift : E.drifts k w w') :
      Alone E k v d w' d'

/-- The resource after these programs, each run alone, one after the other. -/
inductive Serial (E : Rules Q A κ υ) (k : κ) (v : υ) : List (Entry Q A R κ ι) → υ → Prop
  | start : Serial E k v [] v
  | drift {es : List (Entry Q A R κ ι)} {w w' : υ} (h : Serial E k v es w)
      (hdrift : E.drifts k w w') : Serial E k v es w'
  | turn {es : List (Entry Q A R κ ι)} {e : Entry Q A R κ ι} {w w' : υ} (h : Serial E k v es w)
      (hrun : Alone E k w e.job.program w' (.done e.value)) : Serial E k v (es ++ [e]) w'

variable {s t : State Q A R κ ι υ} {a : Action Q A R κ ι υ} {job : Job Q A R κ ι}
  {point point' : Point Q A R} {rest : Dialogue Q A R} {value : R} {i j : ℕ} {k : κ} {l : ι}
  {E : Rules Q A κ υ} {owns : κ → ι → Prop} {world : κ → υ}

/-- The resource changes by itself, if at all. -/
abbrev Drifted (E : Rules Q A κ υ) (k : κ) : υ → υ → Prop := Relation.ReflTransGen (E.drifts k)

omit [DecidableEq κ] in
/-- A program that has returned has only seen its resource change by itself. -/
theorem Alone.of_done {v w : υ} {value : R} {d : Dialogue Q A R}
    (h : Alone E k v (.done value) w d) : d = .done value ∧ Drifted E k v w := by
  induction h with
  | refl => exact ⟨rfl, .refl⟩
  | ask _ _ ih => cases ih.1
  | drift _ hdrift ih => exact ⟨ih.1, ih.2.tail hdrift⟩

omit [DecidableEq κ] in
/-- The first question of a program, and what comes after it. -/
theorem Alone.of_ask {v w : υ} {q : Q} {next : A → Dialogue Q A R} {d : Dialogue Q A R}
    (h : Alone E k v (.ask q next) w d) :
    (d = .ask q next ∧ Drifted E k v w) ∨ ∃ v₁ answer v₂, Drifted E k v v₁ ∧
      E.does k v₁ q answer v₂ ∧ Alone E k v₂ (next answer) w d := by
  induction h with
  | refl => exact .inl ⟨rfl, .refl⟩
  | ask _ hdoes ih =>
    rcases ih with ⟨heq, hdrift⟩ | ⟨v₁, answer, v₂, hdrift, hfirst, halone⟩
    · cases heq
      exact .inr ⟨_, _, _, hdrift, hdoes, .refl⟩
    · exact .inr ⟨v₁, answer, v₂, hdrift, hfirst, halone.ask hdoes⟩
  | drift _ hdrift' ih =>
    rcases ih with ⟨heq, hdrift⟩ | ⟨v₁, answer, v₂, hdrift, hfirst, halone⟩
    · exact .inl ⟨heq, hdrift.tail hdrift'⟩
    · exact .inr ⟨v₁, answer, v₂, hdrift, hfirst, halone.drift hdrift'⟩

omit [DecidableEq κ] in
/-- A program that does something with its value at the end runs as without that. -/
theorem Alone.of_bind {R' : Type} {v w : υ} {d : Dialogue Q A R'} {g : R' → R} {d' : Dialogue Q A R}
    (h : Alone E k v (d.bind fun r => .done (g r)) w d') :
    ∃ d₁, d' = d₁.bind (fun r => .done (g r)) ∧ Alone E k v d w d₁ := by
  induction h with
  | refl => exact ⟨d, rfl, .refl⟩
  | ask _ hdoes ih =>
    obtain ⟨d₁, heq, halone⟩ := ih
    cases d₁ with
    | done r => cases heq
    | ask q next =>
      cases heq
      exact ⟨_, rfl, halone.ask hdoes⟩
  | drift _ hdrift ih =>
    obtain ⟨d₁, rfl, halone⟩ := ih
    exact ⟨d₁, rfl, halone.drift hdrift⟩

omit [DecidableEq κ] in
theorem Alone.of_bind_done {R' : Type} {v w : υ} {d : Dialogue Q A R'} {g : R' → R} {value : R}
    (h : Alone E k v (d.bind fun r => .done (g r)) w (.done value)) :
    ∃ r, Alone E k v d w (.done r) ∧ value = g r := by
  obtain ⟨d₁, heq, halone⟩ := h.of_bind
  cases d₁ with
  | done r =>
    cases heq
    exact ⟨r, halone, rfl⟩
  | ask q next => cases heq

omit [DecidableEq κ] [DecidableEq ι] in
/-- Each of the programs found the resource as those before it had left it. -/
theorem Serial.of_mem {v w : υ} {es : List (Entry Q A R κ ι)} {e : Entry Q A R κ ι}
    (h : Serial E k v es w) (he : e ∈ es) :
    ∃ es₁ es₂ u u', es = es₁ ++ e :: es₂ ∧ Serial E k v es₁ u ∧
      Alone E k u e.job.program u' (.done e.value) := by
  induction h with
  | start => cases he
  | drift _ _ ih => exact ih he
  | @turn es e' u u' hserial hrun ih =>
    rcases List.mem_append.1 he with he | he
    · obtain ⟨es₁, es₂, u₁, u₂, rfl, hserial₁, halone⟩ := ih he
      exact ⟨es₁, es₂ ++ [e'], u₁, u₂, by simp, hserial₁, halone⟩
    · obtain rfl := List.mem_singleton.1 he
      exact ⟨es, [], u, u', rfl, hserial, hrun⟩

/-- The thread changes the resource `k`. -/
def Job.changes (job : Job Q A R κ ι) (k : κ) : Bool := job.lock.isSome && decide (job.about = k)

/-- The ended threads that had their turn at the resource. -/
def State.turns (s : State Q A R κ ι υ) (k : κ) : List (Entry Q A R κ ι) :=
  s.ended.filter fun e => e.job.changes k

/-- The resource is as if the ended threads had run one after the other, and nobody else
    but the one that is at it now. -/
def State.Serialised (s : State Q A R κ ι υ) (E : Rules Q A κ υ) (world : κ → υ) (k : κ) : Prop :=
  ∃ v, Serial E k (world k) (s.turns k) v ∧
    ((s.world k = v ∧ ∀ (i : ℕ) (job : Job Q A R κ ι) (rest : Dialogue Q A R),
      s.threads[i]? = some ⟨job, .running rest⟩ → job.changes k = false) ∨
    ∃ (i : ℕ) (job : Job Q A R κ ι) (rest : Dialogue Q A R),
      s.threads[i]? = some ⟨job, .running rest⟩ ∧ job.changes k = true ∧
      Alone E k v job.program (s.world k) rest)

/-! ## The steps -/

/-- What a step can do. -/
inductive Step (s : State Q A R κ ι υ) : Action Q A R κ ι υ → State Q A R κ ι υ → Prop
  | spawn {job : Job Q A R κ ι} : Step s (.spawn job) { s with threads := s.threads ++ [{ job }] }
  | enter {i : ℕ} {job : Job Q A R κ ι} (hi : s.threads[i]? = some ⟨job, .waiting⟩)
      (hfree : ∀ l, job.lock = some l → s.free l = true) :
      Step s (.enter i) (s.put i job (.running job.program))
  | ask {i : ℕ} {job : Job Q A R κ ι} {q : Q} {next : A → Dialogue Q A R} {answer : A} {after : υ}
      (hi : s.threads[i]? = some ⟨job, .running (.ask q next)⟩) :
      Step s (.ask i answer after) ((s.become job.about after).put i job (.running (next answer)))
  | finish {i : ℕ} {job : Job Q A R κ ι} {value : R}
      (hi : s.threads[i]? = some ⟨job, .running (.done value)⟩) :
      Step s (.finish i) (s.conclude i job value)
  | drift {k : κ} {after : υ} : Step s (.drift k after) (s.become k after)

theorem step_cases (h : step s a = some t) : Step s a t := by
  cases a with
  | spawn job => cases h; exact .spawn
  | enter i =>
    simp only [step] at h
    split at h
    · next hi =>
      split_ifs at h with hfree
      cases h
      refine .enter hi fun l hl => ?_
      simpa [hl] using hfree
    · cases h
  | ask i answer after =>
    simp only [step] at h
    split at h
    · next hi => cases h; exact .ask hi
    · cases h
  | finish i =>
    simp only [step] at h
    split at h
    · next hi => cases h; exact .finish hi
    · cases h
  | drift k after => cases h; exact .drift

/-- A thread keeps its job. -/
theorem step_jobs (h : step s a = some t) (hspawn : ∀ job, a ≠ .spawn job) :
    t.threads.map (·.job) = s.threads.map (·.job) := by
  have hset : ∀ {i : ℕ} {job : Job Q A R κ ι} {point point' : Point Q A R},
      s.threads[i]? = some ⟨job, point⟩ →
      (s.threads.set i ⟨job, point'⟩).map (·.job) = s.threads.map (·.job) := by
    intro i job point point' hi
    rw [List.map_set]
    exact Table.set_self (by simp [hi])
  cases step_cases h with
  | spawn => exact absurd rfl (hspawn _)
  | enter hi hfree => exact hset hi
  | ask hi => exact hset hi
  | finish hi => exact hset hi
  | drift => rfl

/-! ## Locks -/

/-- The thread has the lock of its resource, or what it has still to ask changes nothing. -/
def Thread.Proper (E : Rules Q A κ υ) (owns : κ → ι → Prop) (t : Thread Q A R κ ι) : Prop :=
  (∀ l, t.job.lock = some l → owns t.job.about l) ∧
    (t.job.lock = none → t.job.program.Asks (E.Reads t.job.about) ∧
      ∀ rest, t.point = .running rest → rest.Asks (E.Reads t.job.about))

/-- Every thread is proper. -/
theorem proper (h : (system world).Reach (allowed E owns) s) (hi : s.threads[i]? = some ⟨job, point⟩) :
    Thread.Proper E owns ⟨job, point⟩ := by
  revert i job point
  refine h.invariant (I := fun s => ∀ {i : ℕ} {job : Job Q A R κ ι} {point : Point Q A R},
    s.threads[i]? = some ⟨job, point⟩ → Thread.Proper E owns ⟨job, point⟩) ?_ ?_
  · rintro s rfl i job point hi
    cases hi
  · intro s a t _ hproper hok hstep j job' point' hj
    cases step_cases hstep with
    | spawn =>
      rcases Table.get_push.1 hj with ⟨-, heq⟩ | hj
      · cases heq
        obtain ⟨howns, hreads⟩ := hok.2 _ rfl
        exact ⟨howns, fun hlock => ⟨hreads hlock, fun rest heq => by cases heq⟩⟩
      · exact hproper hj
    | enter hi =>
      rcases (Table.get_set hi).1 hj with ⟨-, heq⟩ | ⟨-, hj⟩
      · cases heq
        obtain ⟨howns, hreads⟩ := hproper hi
        refine ⟨howns, fun hlock => ⟨(hreads hlock).1, fun rest heq => ?_⟩⟩
        cases heq
        exact (hreads hlock).1
      · exact hproper hj
    | ask hi =>
      rcases (Table.get_set hi).1 hj with ⟨-, heq⟩ | ⟨-, hj⟩
      · cases heq
        obtain ⟨howns, hreads⟩ := hproper hi
        refine ⟨howns, fun hlock => ⟨(hreads hlock).1, fun rest heq => ?_⟩⟩
        cases heq
        cases (hreads hlock).2 _ rfl with
        | ask _ hnext => exact hnext _
      · exact hproper hj
    | finish hi =>
      rcases (Table.get_set hi).1 hj with ⟨-, heq⟩ | ⟨-, hj⟩
      · cases heq
        obtain ⟨howns, hreads⟩ := hproper hi
        exact ⟨howns, fun hlock => ⟨(hreads hlock).1, fun rest heq => by cases heq⟩⟩
      · exact hproper hj
    | drift => exact hproper hj

omit [DecidableEq κ] in
/-- Nobody runs under a free lock. -/
theorem not_running_of_free (hfree : s.free l = true)
    (hi : s.threads[i]? = some ⟨job, .running rest⟩) : job.lock ≠ some l := by
  intro hlock
  have hholds := List.all_eq_true.1 hfree _ (List.mem_of_getElem? hi)
  simp [Thread.holds, hlock] at hholds

/-- At most one thread runs under a lock. -/
theorem exclusive (h : (system world).Reach (allowed E owns) s) {job' : Job Q A R κ ι}
    {rest' : Dialogue Q A R} (hi : s.threads[i]? = some ⟨job, .running rest⟩)
    (hj : s.threads[j]? = some ⟨job', .running rest'⟩) (hl : job.lock = some l)
    (hl' : job'.lock = some l) : i = j := by
  revert i j job job' rest rest'
  refine h.invariant (I := fun s => ∀ {i j : ℕ} {job job' : Job Q A R κ ι}
    {rest rest' : Dialogue Q A R}, s.threads[i]? = some ⟨job, .running rest⟩ →
    s.threads[j]? = some ⟨job', .running rest'⟩ → job.lock = some l → job'.lock = some l → i = j)
    ?_ ?_
  · rintro s rfl i j job job' rest rest' hi
    cases hi
  · intro s a t _ hexclusive _ hstep i j job job' rest rest' hi hj hl hl'
    cases step_cases hstep with
    | spawn =>
      rcases Table.get_push.1 hi with ⟨-, heq⟩ | hi
      · cases heq
      · rcases Table.get_push.1 hj with ⟨-, heq⟩ | hj
        · cases heq
        · exact hexclusive hi hj hl hl'
    | enter h₀ hfree =>
      rcases (Table.get_set h₀).1 hi with ⟨rfl, heq⟩ | ⟨-, hi₁⟩ <;>
        rcases (Table.get_set h₀).1 hj with ⟨rfl, heq'⟩ | ⟨-, hj₁⟩
      · rfl
      · cases heq
        exact absurd hl' (not_running_of_free (hfree l hl) hj₁)
      · cases heq'
        exact absurd hl (not_running_of_free (hfree l hl') hi₁)
      · exact hexclusive hi₁ hj₁ hl hl'
    | ask h₀ =>
      rcases (Table.get_set h₀).1 hi with ⟨rfl, heq⟩ | ⟨-, hi₁⟩ <;>
        rcases (Table.get_set h₀).1 hj with ⟨rfl, heq'⟩ | ⟨-, hj₁⟩
      · rfl
      · cases heq
        exact hexclusive h₀ hj₁ hl hl'
      · cases heq'
        exact hexclusive hi₁ h₀ hl hl'
      · exact hexclusive hi₁ hj₁ hl hl'
    | finish h₀ =>
      rcases (Table.get_set h₀).1 hi with ⟨rfl, heq⟩ | ⟨-, hi₁⟩
      · cases heq
      · rcases (Table.get_set h₀).1 hj with ⟨rfl, heq⟩ | ⟨-, hj₁⟩
        · cases heq
        · exact hexclusive hi₁ hj₁ hl hl'
    | drift => exact hexclusive hi hj hl hl'

/-- At most one thread that changes a resource runs. -/
theorem changes_unique (hown : ∀ k l l', owns k l → owns k l' → l = l')
    (h : (system world).Reach (allowed E owns) s) {job' : Job Q A R κ ι} {rest' : Dialogue Q A R}
    (hi : s.threads[i]? = some ⟨job, .running rest⟩)
    (hj : s.threads[j]? = some ⟨job', .running rest'⟩) (hk : job.changes k = true)
    (hk' : job'.changes k = true) : i = j := by
  simp only [Job.changes, Bool.and_eq_true, decide_eq_true_eq, Option.isSome_iff_exists] at hk hk'
  obtain ⟨⟨l, hl⟩, rfl⟩ := hk
  obtain ⟨⟨l', hl'⟩, habout⟩ := hk'
  have howns := (proper h hi).1 l hl
  have howns' := (proper h hj).1 l' hl'
  dsimp only at howns howns'
  rw [habout] at howns'
  obtain rfl := hown _ _ _ howns howns'
  exact exclusive h hi hj hl hl'

/-! ## Serial order -/

/-- The threads that have ended, each once. -/
theorem ended_iff (h : (system world).Reach (allowed E owns) s) :
    (s.ended.map Entry.thread).Nodup ∧ ∀ (i : ℕ) (job : Job Q A R κ ι) (value : R),
      ⟨i, job, value⟩ ∈ s.ended ↔ s.threads[i]? = some ⟨job, .ended value⟩ := by
  refine h.invariant (I := fun s => (s.ended.map Entry.thread).Nodup ∧
    ∀ (i : ℕ) (job : Job Q A R κ ι) (value : R),
      ⟨i, job, value⟩ ∈ s.ended ↔ s.threads[i]? = some ⟨job, .ended value⟩) ?_ ?_
  · rintro s rfl
    exact ⟨.nil, fun i job value => by simp⟩
  · rintro s a t - ⟨hnodup, hiff⟩ - hstep
    -- a thread that is not over goes on, and is still not over
    have goesOn : ∀ {i : ℕ} {job : Job Q A R κ ι} {point point' : Point Q A R},
        s.threads[i]? = some ⟨job, point⟩ → (∀ value, point ≠ .ended value) →
        (∀ value, point' ≠ .ended value) →
        ∀ (j : ℕ) (job' : Job Q A R κ ι) (value : R), ⟨j, job', value⟩ ∈ s.ended ↔
          (s.threads.set i ⟨job, point'⟩)[j]? = some ⟨job', .ended value⟩ := by
      intro i job point point' hi hpoint hpoint' j job' value
      rw [hiff, Table.get_set hi]
      constructor
      · intro hj
        refine .inr ⟨?_, hj⟩
        rintro rfl
        rw [hi] at hj
        cases hj
        exact hpoint value rfl
      · rintro (⟨-, heq⟩ | ⟨-, hj⟩)
        · cases heq
          exact absurd rfl (hpoint' value)
        · exact hj
    cases step_cases hstep with
    | spawn =>
      refine ⟨hnodup, fun i job value => ?_⟩
      rw [hiff, Table.get_push]
      exact ⟨.inr, fun h => h.resolve_left fun heq => by cases heq.2⟩
    | enter hi => exact ⟨hnodup, goesOn hi (by simp) (by simp)⟩
    | ask hi => exact ⟨hnodup, goesOn hi (by simp) (by simp)⟩
    | @finish i job value hi =>
      have hnew : ∀ e ∈ s.ended, e.thread ≠ i := by
        rintro ⟨j, job', value'⟩ he rfl
        rw [hiff, hi] at he
        cases he
      refine ⟨?_, fun j job' value' => ?_⟩
      · show ((s.ended ++ [Entry.mk i job value]).map Entry.thread).Nodup
        rw [List.map_append, List.nodup_append]
        refine ⟨hnodup, by simp, ?_⟩
        rintro _ hmem _ hsingle rfl
        obtain ⟨e, he, heq⟩ := List.mem_map.1 hmem
        exact hnew e he (heq.trans (List.mem_singleton.1 hsingle))
      · show Entry.mk j job' value' ∈ s.ended ++ _ ↔ (s.threads.set i ⟨job, .ended value⟩)[j]? = _
        rw [List.mem_append, hiff, Table.get_set hi, List.mem_singleton]
        constructor
        · rintro (hj | heq)
          · exact .inr ⟨hnew _ ((hiff j job' value').2 hj), hj⟩
          · cases heq
            exact .inl ⟨rfl, rfl⟩
        · rintro (⟨rfl, heq⟩ | ⟨-, hj⟩)
          · cases heq
            exact .inr rfl
          · exact .inl hj
    | drift => exact ⟨hnodup, hiff⟩

omit [DecidableEq ι] in
/-- A step of a thread that does not change the resource. -/
theorem State.Serialised.others (h : s.Serialised E world k) (hi : s.threads[i]? = some ⟨job, point⟩)
    (hjob : job.changes k = false) (hthreads : t.threads = s.threads.set i ⟨job, point'⟩)
    (hworld : t.world k = s.world k) (hturns : t.turns k = s.turns k) : t.Serialised E world k := by
  obtain ⟨v, hserial, hnow⟩ := h
  refine ⟨v, hturns ▸ hserial, ?_⟩
  rw [hworld, hthreads]
  rcases hnow with ⟨hv, hnone⟩ | ⟨j, job', rest, hj, hk, halone⟩
  · refine .inl ⟨hv, fun j job' rest hj => ?_⟩
    rcases (Table.get_set hi).1 hj with ⟨-, heq⟩ | ⟨-, hj⟩
    · cases heq
      exact hjob
    · exact hnone j job' rest hj
  · refine .inr ⟨j, job', rest, (Table.get_set hi).2 (.inr ⟨?_, hj⟩), hk, halone⟩
    rintro rfl
    rw [hi] at hj
    cases hj
    rw [hk] at hjob
    cases hjob

/-- Who runs and changes the resource is the thread that is at it now. -/
theorem State.Serialised.at_it (hown : ∀ k l l', owns k l → owns k l' → l = l')
    (hs : (system world).Reach (allowed E owns) s) (h : s.Serialised E world k)
    (hi : s.threads[i]? = some ⟨job, .running rest⟩) (hjob : job.changes k = true) :
    ∃ v, Serial E k (world k) (s.turns k) v ∧ Alone E k v job.program (s.world k) rest := by
  obtain ⟨v, hserial, ⟨-, hnone⟩ | ⟨j, job', rest', hj, hk, halone⟩⟩ := h
  · rw [hnone i job rest hi] at hjob
    cases hjob
  · obtain rfl := changes_unique hown hs hi hj hjob hk
    rw [hi] at hj
    cases hj
    exact ⟨v, hserial, halone⟩

/-- The resources of threads that share a lock for each of them are as if these threads
    had run one after the other: in every state that is reached, whatever the threads are
    and however they take turns. -/
theorem serial (hown : ∀ k l l', owns k l → owns k l' → l = l')
    (h : (system world).Reach (allowed E owns) s) (k : κ) : s.Serialised E world k := by
  revert k
  refine h.invariant (I := fun s => ∀ k, s.Serialised E world k) ?_ ?_
  · rintro s rfl k
    exact ⟨world k, .start, .inl ⟨rfl, fun i job rest hi => by cases hi⟩⟩
  · intro s a t hs hserialised hok hstep k
    cases step_cases hstep with
    | spawn =>
      obtain ⟨v, hserial, ⟨hv, hnone⟩ | ⟨j, job', rest, hj, hk, halone⟩⟩ := hserialised k
      · refine ⟨v, hserial, .inl ⟨hv, fun i job' rest hi => ?_⟩⟩
        rcases Table.get_push.1 hi with ⟨-, heq⟩ | hi
        · cases heq
        · exact hnone i job' rest hi
      · exact ⟨v, hserial, .inr ⟨j, job', rest, Table.get_of_append hj, hk, halone⟩⟩
    | @enter i job hi hfree =>
      cases hk : job.changes k with
      | false => exact (hserialised k).others hi hk rfl rfl rfl
      | true =>
        obtain ⟨v, hserial, ⟨hv, -⟩ | ⟨j, job', rest, hj, hk', -⟩⟩ := hserialised k
        · exact ⟨v, hserial, .inr ⟨i, job, _, Table.get_set_self hi, hk, hv ▸ .refl⟩⟩
        · -- the other thread holds the lock
          exfalso
          simp only [Job.changes, Bool.and_eq_true, decide_eq_true_eq,
            Option.isSome_iff_exists] at hk hk'
          obtain ⟨⟨l, hl⟩, rfl⟩ := hk
          obtain ⟨⟨l', hl'⟩, habout⟩ := hk'
          have howns := (proper hs hi).1 l hl
          have howns' := (proper hs hj).1 l' hl'
          dsimp only at howns howns'
          rw [habout] at howns'
          obtain rfl := hown _ _ _ howns howns'
          exact not_running_of_free (hfree l hl) hj hl'
    | @ask i job q next answer after hi =>
      have hdoes := hok.1 job q next hi
      cases hk : job.changes k with
      | true =>
        obtain ⟨v, hserial, halone⟩ := (hserialised k).at_it hown hs hi hk
        refine ⟨v, hserial, .inr ⟨i, job, _, Table.get_set_self hi, hk, ?_⟩⟩
        simp only [Job.changes, Bool.and_eq_true, decide_eq_true_eq] at hk
        obtain ⟨-, rfl⟩ := hk
        have hworld : (s.become job.about after).world job.about = after := Function.update_self ..
        show Alone E job.about v job.program ((s.become job.about after).world job.about) _
        rw [hworld]
        exact halone.ask hdoes
      | false =>
        refine (hserialised k).others hi hk rfl ?_ rfl
        by_cases hkey : k = job.about
        · -- a thread without a lock only reads
          subst hkey
          have hlock : job.lock = none := by simpa [Job.changes] using hk
          cases ((proper hs hi).2 hlock).2 _ rfl with
          | ask hreads _ =>
            have hworld : (s.become job.about after).world job.about = after :=
              Function.update_self ..
            exact hworld.trans (hreads _ _ _ hdoes)
        · exact Function.update_of_ne hkey ..
    | @finish i job value hi =>
      cases hk : job.changes k with
      | true =>
        obtain ⟨v, hserial, halone⟩ := (hserialised k).at_it hown hs hi hk
        refine ⟨s.world k, ?_, .inl ⟨rfl, fun j job' rest hj => ?_⟩⟩
        · have hturns : (s.conclude i job value).turns k = s.turns k ++ [⟨i, job, value⟩] := by
            simp [State.turns, State.conclude, hk]
          rw [hturns]
          exact hserial.turn halone
        · rcases (Table.get_set hi).1 hj with ⟨-, heq⟩ | ⟨hne, hj⟩
          · cases heq
          · by_contra hother
            exact hne (changes_unique hown hs hj hi (by simpa using hother) hk)
      | false =>
        refine (hserialised k).others hi hk rfl rfl ?_
        simp [State.turns, State.conclude, hk]
    | @drift k' after =>
      have hdrift : E.drifts k' (s.world k') after := hok.1
      obtain ⟨v, hserial, hnow⟩ := hserialised k
      by_cases hkey : k = k'
      · subst hkey
        have hworld : (s.become k after).world k = after := Function.update_self ..
        rcases hnow with ⟨rfl, hnone⟩ | ⟨j, job, rest, hj, hk, halone⟩
        · exact ⟨after, hserial.drift hdrift, .inl ⟨hworld, hnone⟩⟩
        · refine ⟨v, hserial, .inr ⟨j, job, rest, hj, hk, ?_⟩⟩
          rw [hworld]
          exact halone.drift hdrift
      · have hworld : (s.become k' after).world k = s.world k := Function.update_of_ne hkey ..
        refine ⟨v, hserial, ?_⟩
        rw [hworld]
        exact hnow

/-! ## Progress -/

/-- Whose turn it is. -/
def Action.turn? : Action Q A R κ ι υ → Option ℕ
  | enter i | ask i _ _ | finish i => some i
  | spawn _ | drift _ _ => none

/-- Choosing threads well leads to the goal, whatever is answered. -/
abbrev Drives (E : Rules Q A κ υ) (world : κ → υ) (P : State Q A R κ ι υ → Prop)
    (s : State Q A R κ ι υ) : Prop :=
  (system world).Forces Action.turn? (obeyed E) P s

/-- The thread has ended, and the others are where they were. -/
def Ended (s : State Q A R κ ι υ) (i : ℕ) (job : Job Q A R κ ι) (t : State Q A R κ ι υ) : Prop :=
  ∃ value, t.threads = s.threads.set i ⟨job, .ended value⟩

/-- The step of a thread that runs. -/
theorem running_turn (hi : s.threads[i]? = some ⟨job, .running rest⟩) (ha : a.turn? = some i)
    (h : Step s a t) :
    (∃ value, rest = .done value ∧ t = s.conclude i job value) ∨
      ∃ q next answer after, rest = .ask q next ∧ a = .ask i answer after ∧
        t = (s.become job.about after).put i job (.running (next answer)) := by
  cases h with
  | spawn | drift => cases ha
  | enter hj =>
    cases ha
    rw [hi] at hj
    cases hj
  | ask hj =>
    cases ha
    rw [hi] at hj
    cases hj
    exact .inr ⟨_, _, _, _, rfl, rfl, rfl⟩
  | finish hj =>
    cases ha
    rw [hi] at hj
    cases hj
    exact .inl ⟨_, rfl, rfl⟩

/-- A thread that runs can be brought to its end. -/
theorem running_ends (hanswered : ∀ k v q, ∃ answer w, E.does k v q answer w)
    (hi : s.threads[i]? = some ⟨job, .running rest⟩) :
    Drives E world (Ended s i job) s := by
  induction rest generalizing s with
  | done value =>
    have hstep : step s (.finish i) = some (s.conclude i job value) := by simp [step, hi]
    refine .take i ⟨.finish i, _, rfl, trivial, hstep⟩ fun a t ha _ ht => .goal ?_
    rcases running_turn hi ha (step_cases ht) with ⟨value', heq, rfl⟩ | ⟨q, next, answer, after, heq, -⟩
    · exact ⟨value', rfl⟩
    · cases heq
  | ask q next ih =>
    obtain ⟨answer, after, hdoes⟩ := hanswered job.about (s.world job.about) q
    have hstep : step s (.ask i answer after) =
        some ((s.become job.about after).put i job (.running (next answer))) := by
      simp [step, hi]
    have hok : obeyed E s (.ask i answer after) := by
      intro job' q' next' hi'
      rw [hi] at hi'
      cases hi'
      exact hdoes
    refine .take i ⟨_, _, rfl, hok, hstep⟩ fun a t ha _ ht => ?_
    rcases running_turn hi ha (step_cases ht) with
      ⟨value, heq, -⟩ | ⟨q', next', answer', after', heq, -, rfl⟩
    · cases heq
    · cases heq
      refine (ih answer' (Table.get_set_self hi)).mono ?_
      rintro u ⟨value, hthreads⟩
      refine ⟨value, hthreads.trans ?_⟩
      exact List.set_set ..

/-- The thread runs. -/
def Thread.runs (t : Thread Q A R κ ι) : Bool :=
  match t.point with
  | .running _ => true
  | _ => false

/-- The thread has not begun. -/
def Thread.waits (t : Thread Q A R κ ι) : Bool :=
  match t.point with
  | .waiting => true
  | _ => false

omit [DecidableEq κ] in
theorem free_of_none_runs (h : s.threads.countP Thread.runs = 0) (l : ι) : s.free l = true := by
  refine List.all_eq_true.2 fun ⟨job, point⟩ hmem => ?_
  have hruns := List.countP_eq_zero.1 h _ hmem
  cases point with
  | running rest => exact absurd rfl hruns
  | waiting | ended => rfl

/-- A thread that has not begun can be brought to its end, if none runs. -/
theorem waiting_ends (hanswered : ∀ k v q, ∃ answer w, E.does k v q answer w)
    (hnone : s.threads.countP Thread.runs = 0)
    (hi : s.threads[i]? = some ⟨job, .waiting⟩) :
    Drives E world (Ended s i job) s := by
  have hfree : job.lock.all s.free = true := by
    cases job.lock with
    | none => rfl
    | some l => exact free_of_none_runs hnone l
  have hstep : step s (.enter i) = some (s.put i job (.running job.program)) := by
    simp [step, hi, hfree]
  refine .take i ⟨.enter i, _, rfl, trivial, hstep⟩ fun a t ha _ ht => ?_
  cases step_cases ht with
  | spawn | drift => cases ha
  | enter hj =>
    cases ha
    rw [hi] at hj
    cases hj
    refine (running_ends hanswered (Table.get_set_self hi)).mono ?_
    rintro u ⟨value, hthreads⟩
    refine ⟨value, hthreads.trans ?_⟩
    exact List.set_set ..
  | ask hj =>
    cases ha
    rw [hi] at hj
    cases hj
  | finish hj =>
    cases ha
    rw [hi] at hj
    cases hj

omit [DecidableEq κ] [DecidableEq ι] in
/-- A thread that has ended is not counted with those that were not over. -/
theorem Ended.countP_lt {test : Thread Q A R κ ι → Bool} (h : Ended s i job t)
    (hi : s.threads[i]? = some ⟨job, point⟩) (htest : test ⟨job, point⟩ = true)
    (hover : ∀ value, test ⟨job, .ended value⟩ = false) :
    t.threads.countP test < s.threads.countP test := by
  obtain ⟨value, hthreads⟩ := h
  have hcount := @Table.countP_set _ test _ i _ ⟨job, .ended value⟩ hi
  rw [← hthreads, htest, hover] at hcount
  simp only [if_true, Bool.false_eq_true, if_false] at hcount
  omega

omit [DecidableEq κ] [DecidableEq ι] in
theorem Ended.countP_eq {test : Thread Q A R κ ι → Bool} (h : Ended s i job t)
    (hi : s.threads[i]? = some ⟨job, point⟩) (htest : test ⟨job, point⟩ = false)
    (hover : ∀ value, test ⟨job, .ended value⟩ = false) :
    t.threads.countP test = s.threads.countP test := by
  obtain ⟨value, hthreads⟩ := h
  have hcount := @Table.countP_set _ test _ i _ ⟨job, .ended value⟩ hi
  rw [← hthreads, htest, hover] at hcount
  simpa using hcount

/-- The threads that run can be brought to their end. -/
theorem all_stop (hanswered : ∀ k v q, ∃ answer w, E.does k v q answer w) :
    Drives E world (fun t => t.threads.countP Thread.runs = 0) s := by
  refine System.Forces.of_measure (fun t => t.threads.countP Thread.runs) (P := fun _ => True) ?_
    trivial
  intro u _
  by_cases hzero : u.threads.countP Thread.runs = 0
  · exact .goal (.inl hzero)
  · obtain ⟨⟨job, point⟩, hmem, hruns⟩ := List.countP_pos_iff.1 (Nat.pos_of_ne_zero hzero)
    obtain ⟨i, hi⟩ := List.mem_iff_getElem?.1 hmem
    cases point with
    | running rest =>
      refine (running_ends hanswered hi).mono fun t ht => .inr ⟨trivial, ?_⟩
      exact ht.countP_lt hi hruns fun _ => rfl
    | waiting | ended => cases hruns

/-- If questions are always answered, choosing threads well brings all of them to their
    end, from every state. No thread waits for a lock for ever. -/
theorem all_end (hanswered : ∀ k v q, ∃ answer w, E.does k v q answer w) :
    Drives E world (fun t => ∀ (i : ℕ) (thread : Thread Q A R κ ι),
      t.threads[i]? = some thread → ∃ value, thread.point = .ended value) s := by
  refine (all_stop hanswered).bind fun t ht => ?_
  refine System.Forces.of_measure (fun t => t.threads.countP Thread.waits)
    (P := fun t => t.threads.countP Thread.runs = 0) ?_ ht
  intro u hnone
  by_cases hzero : u.threads.countP Thread.waits = 0
  · refine .goal (.inl ?_)
    rintro i ⟨job, point⟩ hi
    have hmem := List.mem_of_getElem? hi
    cases point with
    | waiting => exact absurd rfl (List.countP_eq_zero.1 hzero _ hmem)
    | running rest => exact absurd rfl (List.countP_eq_zero.1 hnone _ hmem)
    | ended value => exact ⟨value, rfl⟩
  · obtain ⟨⟨job, point⟩, hmem, hwaits⟩ := List.countP_pos_iff.1 (Nat.pos_of_ne_zero hzero)
    obtain ⟨i, hi⟩ := List.mem_iff_getElem?.1 hmem
    cases point with
    | waiting =>
      refine (waiting_ends hanswered hnone hi).mono fun t ht => .inr ⟨?_, ?_⟩
      · exact (ht.countP_eq hi rfl fun _ => rfl).trans hnone
      · exact ht.countP_lt hi hwaits fun _ => rfl
    | running | ended => cases hwaits

/-! ## Resources that answer in one way -/

/-- The rules of resources that are functions. -/
def Rules.ofFunction (f : κ → υ → Q → A × υ) : Rules Q A κ υ where
  does k v q answer w := f k v q = (answer, w)
  drifts _ _ _ := False

/-- A thread goes on. -/
def advance (f : κ → υ → Q → A × υ) (s : State Q A R κ ι υ) (i : ℕ) : Option (State Q A R κ ι υ) :=
  match s.threads[i]? with
  | some ⟨job, .running (.ask q _)⟩ =>
    let made := f job.about (s.world job.about) q
    step s (.ask i made.1 made.2)
  | some ⟨_, .running (.done _)⟩ => step s (.finish i)
  | _ => step s (.enter i)

/-- It goes on by the rules. -/
theorem advance_step {f : κ → υ → Q → A × υ} (h : advance f s i = some t) :
    ∃ a, obeyed (.ofFunction f) s a ∧ step s a = some t ∧ ∀ job, a ≠ .spawn job := by
  unfold advance at h
  split at h
  · next hi =>
    refine ⟨_, ?_, h, by simp⟩
    intro job q next hi'
    rw [hi] at hi'
    cases hi'
    rfl
  · exact ⟨.finish i, trivial, h, by simp⟩
  · exact ⟨.enter i, trivial, h, by simp⟩

/-- Threads that go on in this order. -/
theorem reach_advance {f : κ → υ → Q → A × υ}
    {ok : State Q A R κ ι υ → Action Q A R κ ι υ → Prop}
    (hok : ∀ s a, obeyed (.ofFunction f) s a → (∀ job, a ≠ .spawn job) → ok s a)
    (h : (system world).Reach ok s) {is : List ℕ} (hrun : is.foldlM (advance f) s = some t) :
    (system world).Reach ok t ∧ t.threads.map (·.job) = s.threads.map (·.job) := by
  induction is generalizing s with
  | nil => exact Option.some.inj hrun ▸ ⟨h, rfl⟩
  | cons i is ih =>
    rw [List.foldlM_cons] at hrun
    obtain ⟨u, hu, hrest⟩ := Option.bind_eq_some_iff.1 hrun
    obtain ⟨a, hobeyed, hstep, hspawn⟩ := advance_step hu
    obtain ⟨hreach, hjobs⟩ := ih (.step h (hok _ _ hobeyed hspawn) hstep) hrest
    exact ⟨hreach, hjobs.trans (step_jobs hstep hspawn)⟩

end Locks
