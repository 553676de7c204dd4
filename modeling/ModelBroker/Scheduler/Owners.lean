import ModelBroker.Scheduler.Refs

/-!
# The lock, and who owns which record

What holds in every reachable state about the lock and about the background
tasks, whatever is cancelled and whatever the servers answer.

* `Locking`: at most one request is inside `async with self.lock`.
* `Owners`: a live task owns one record, which is not ready, and no other task
  owns it; what `track` has still to do is not done yet by anyone.
* `Victims`: the victims of a live swap are ready and marked leaving, and no
  other live swap has them.
-/

namespace ModelBroker

variable {cfg : Config} {s t : State} {a : Act}

/-! ## The lock -/

/-- At most one request holds the lock. -/
def Locking (s : State) : Prop :=
  ∀ (p p' : ℕ) (q q' : Request), s.requests[p]? = some q → s.requests[p']? = some q' →
    q.holdsLock = true → q'.holdsLock = true → p = p'

/-- How the requests change in one step, and where the lock comes from. -/
inductive RequestStep (s t : State) : Prop
  | same (ht : t.requests = s.requests)
  | arrive {id : String} (ht : t.requests = s.requests ++ [.arrived id])
  | move {p : ℕ} {q q' : Request} (hq : s.requests[p]? = some q)
      (ht : t.requests = s.requests.set p q')
      (hlock : q'.holdsLock = true → q.holdsLock = true ∨ s.lockFree = true)

theorem Surveys.lock {p : ℕ} {q : Request} {variant : Variant} {next : Survey ⊕ Inspection}
    (h : Surveys cfg s p a q variant next) : q.holdsLock = true ∨ s.lockFree = true := by
  cases h with
  | start hfree => exact .inr hfree
  | props | states => exact .inl rfl

theorem step_requests (h : Step cfg s a t) : RequestStep s t := by
  cases h with
  | arrive => exact .arrive rfl
  | silent hq h =>
    refine .move hq rfl fun hl => ?_
    cases h with
    | survey h => exact h.lock
    | list hfree => exact .inr hfree
    | ask => exact .inl rfl
    | unknown | recheck | clean | unfit | noTicket | inOrder | block | again | sleep | wake
    | cancelled => cases hl
  | install hq h => exact .move hq rfl fun _ => h.lock
  | baseline hq | idle hq => exact .move hq rfl fun _ => .inl rfl
  | enter hq | join hq | queue hq | quit hq | busy hq | commit hq | joined hq | unjoin hq
  | release hq => exact .move hq rfl fun hl => by cases hl
  | tick | task | unloaded | crash | unloadFailed | crashFailed | loadFailed | dropped | gone
  | unsure | baselined => exact .same rfl

theorem not_holds_of_lockFree (h : s.lockFree = true) {p : ℕ} {q : Request}
    (hq : s.requests[p]? = some q) : q.holdsLock = false := by
  have := List.all_eq_true.1 h q (List.mem_of_getElem? hq)
  simpa using this

theorem locking_step (h : Locking s) (hstep : Step cfg s a t) : Locking t := by
  cases step_requests hstep with
  | same ht => unfold Locking; rw [ht]; exact h
  | arrive ht =>
    have hold : ∀ (p : ℕ) (q : Request), t.requests[p]? = some q → q.holdsLock = true →
        s.requests[p]? = some q := by
      intro p q hp hl
      rw [ht] at hp
      rcases Table.get_push.1 hp with ⟨-, rfl⟩ | hp
      · cases hl
      · exact hp
    intro p p' q q' hp hp' hl hl'
    exact h p p' q q' (hold p q hp hl) (hold p' q' hp' hl') hl hl'
  | @move p₀ q₀ q₁ h₀ ht hlock =>
    intro p p' q q' hp hp' hl hl'
    rw [ht, Table.get_set h₀] at hp hp'
    rcases hp with ⟨rfl, rfl⟩ | ⟨hne, hp⟩ <;> rcases hp' with ⟨rfl, rfl⟩ | ⟨hne', hp'⟩
    · rfl
    · rcases hlock hl with hl₀ | hfree
      · exact h _ _ q₀ q' h₀ hp' hl₀ hl'
      · rw [not_holds_of_lockFree hfree hp'] at hl'; cases hl'
    · rcases hlock hl' with hl₀ | hfree
      · exact h _ _ q q₀ hp h₀ hl hl₀
      · rw [not_holds_of_lockFree hfree hp] at hl; cases hl
    · exact h p p' q q' hp hp' hl hl'

/-- At first there is only `start()`. -/
theorem locking_initial (now : ℚ) (found : Survey) : Locking (initial now found) := by
  intro p p' q q' hp hp' _ _
  rw [(initial_requests hp).1, (initial_requests hp').1]

/-! ## Owners -/

/-- What live tasks and `track` own. -/
structure Owners (s : State) : Prop where
  unready : ∀ (i : ℕ) (k : Task) (r : Ref), s.tasks[i]? = some k → k.owns = some r →
    (s.heap r).ready = false
  unique : ∀ (i j : ℕ) (k k' : Task) (r : Ref), s.tasks[i]? = some k → s.tasks[j]? = some k' →
    k.owns = some r → k'.owns = some r → i = j
  nodup : ∀ (p : ℕ) (after : Option Variant) (model : Ref) (rest : List Ref),
    s.requests[p]? = some (.tracking after model rest) → rest.Nodup
  current : ∀ (p : ℕ) (after : Option Variant) (model : Ref) (rest : List Ref),
    s.requests[p]? = some (.tracking after model rest) → (s.heap model).ready = true
  unowned : ∀ (p : ℕ) (after : Option Variant) (model : Ref) (rest : List Ref),
    s.requests[p]? = some (.tracking after model rest) → ∀ r ∈ rest, (s.heap r).ready = false →
    ∀ (i : ℕ) (k : Task), s.tasks[i]? = some k → k.owns ≠ some r

/-- How a request comes to be tracking. -/
theorem step_tracking (h : Step cfg s a t) {p : ℕ} {after : Option Variant} {model : Ref}
    {rest : List Ref} (hp : t.requests[p]? = some (.tracking after model rest)) :
    s.requests[p]? = some (.tracking after model rest) ∨
      (∃ model₀ rest₀ pending, s.requests[p]? = some (.tracking after model₀ rest₀) ∧
        rest₀ = pending ++ model :: rest ∧ (s.heap model).ready = true ∧
        t.tasks = s.tasks ++ pending.map .finishReady) ∨
      ∃ q variant found pending, s.requests[p]? = some q ∧ after = some variant ∧
        Surveys cfg s p a q variant (.inl found) ∧
        newModels s found = pending ++ model :: rest ∧ (adopt s found model).ready = true ∧
        t = ((installed s found).background (pending.map .finishReady)).goto p
          (.tracking after model rest) := by
  cases h with
  | arrive =>
    rcases Table.get_push.1 hp with ⟨-, heq⟩ | hp
    · cases heq
    · exact .inl hp
  | silent h₀ hsil =>
    rcases (Table.get_set h₀).1 hp with ⟨-, heq⟩ | ⟨-, hp⟩
    · cases hsil <;> cases heq
    · exact .inl hp
  | @install p₀ _ q₀ q₁ variant found pending h₀ hs hto =>
    rcases (Table.get_set h₀).1 hp with ⟨rfl, rfl⟩ | ⟨-, hp⟩
    · obtain ⟨rfl, hsplit, hready⟩ := hto.asks
      exact .inr (.inr ⟨q₀, variant, found, pending, h₀, rfl, hs, hsplit, hready, rfl⟩)
    · exact .inl hp
  | @baseline p₀ after₀ model₀ rest₀ pending q₁ answer h₀ hto =>
    rcases (Table.get_set h₀).1 hp with ⟨rfl, rfl⟩ | ⟨-, hp⟩
    · obtain ⟨rfl, hsplit, hready⟩ := hto.asks
      exact .inr (.inl ⟨model₀, rest₀, pending, h₀, hsplit, hready, rfl⟩)
    · exact .inl hp
  | enter h₀ | join h₀ | queue h₀ | quit h₀ | busy h₀ | idle h₀ | commit h₀ | joined h₀ | unjoin h₀
  | release h₀ =>
    rcases (Table.get_set h₀).1 hp with ⟨-, heq⟩ | ⟨-, hp⟩
    · cases heq
    · exact .inl hp
  | tick | task | unloaded | crash | unloadFailed | crashFailed | loadFailed | dropped | gone
  | unsure | baselined => exact .inl hp

/-- A model `track` has still to give a `finish_load`. -/
def Untracked (s : State) (r : Ref) : Prop :=
  ∃ (p : ℕ) (after : Option Variant) (model : Ref) (rest : List Ref),
    s.requests[p]? = some (.tracking after model rest) ∧ r ∈ rest ∧ (s.heap r).ready = false

/-- A step of `track` gives this model its `finish_load`. -/
def Handed (s t : State) (r : Ref) : Prop :=
  ∃ (p : ℕ) (after : Option Variant) (model : Ref) (rest pending : List Ref) (q : Request),
    s.requests[p]? = some (.tracking after model rest) ∧ TrackTo s.heap after rest pending q ∧
      r ∈ pending ∧ t.requests = s.requests.set p q

theorem Handed.untracked {r : Ref} (h : Handed s t r) : Untracked s r := by
  obtain ⟨p, after, model, rest, pending, q, hq, hto, hr, -⟩ := h
  exact ⟨p, after, model, rest, hq, hto.refs.2 r hr, hto.unready r hr⟩

/-- The entry that a list of new tasks has for a record. -/
theorem get_pending {pending : List Ref} {r : Ref} {n : ℕ} {k : Task}
    (hn : (pending.map Task.finishReady)[n]? = some k) (ho : k.owns = some r) :
    pending[n]? = some r := by
  rw [List.getElem?_map, Option.map_eq_some_iff] at hn
  obtain ⟨r', hr', rfl⟩ := hn
  rwa [← Option.some.inj ho]

/-- Where the owner of a record comes from: it owned it before, or it is the
    only new one, of a record that had no owner. -/
theorem step_owner (hrefs : Refs cfg s) (hown : Owners s) (h : Step cfg s a t) {i : ℕ} {k : Task}
    {r : Ref} (hi : t.tasks[i]? = some k) (ho : k.owns = some r) :
    (∃ k₀, s.tasks[i]? = some k₀ ∧ k₀.owns = some r) ∨
      (∃ n, i = s.tasks.length + n ∧ (Handed s t r ∨ s.next ≤ r ∧ (t.heap r).ready = false) ∧
        ∀ (n' : ℕ) (k' : Task), t.tasks[s.tasks.length + n']? = some k' → k'.owns = some r →
          n' = n) := by
  -- the new tasks are one `finish_load` for each of `pending`
  have waiters : ∀ {pending : List Ref}, t.tasks = s.tasks ++ pending.map .finishReady →
      pending.Nodup → (r ∈ pending → Handed s t r ∨ s.next ≤ r ∧ (t.heap r).ready = false) →
      (∃ k₀, s.tasks[i]? = some k₀ ∧ k₀.owns = some r) ∨
      (∃ n, i = s.tasks.length + n ∧ (Handed s t r ∨ s.next ≤ r ∧ (t.heap r).ready = false) ∧
        ∀ (n' : ℕ) (k' : Task), t.tasks[s.tasks.length + n']? = some k' → k'.owns = some r →
          n' = n) := by
    intro pending ht hnd hfresh
    rw [ht, Table.get_append] at hi
    rcases hi with hi | ⟨n, rfl, hn⟩
    · exact .inl ⟨k, hi, ho⟩
    · have hr := get_pending hn ho
      refine .inr ⟨n, rfl, hfresh (List.mem_of_getElem? hr), fun n' k' hn' hk' => ?_⟩
      rw [ht, List.getElem?_append_right (Nat.le_add_right ..), Nat.add_sub_cancel_left] at hn'
      have hr' := get_pending hn' hk'
      exact (List.getElem?_inj (Table.lt_length hr') hnd).1 (hr'.trans hr.symm)
  cases step_tasks h with
  | same ht => exact .inl ⟨k, ht ▸ hi, ho⟩
  | @move j k₀ k' hk ht howns hvictims hunload hunasked =>
    rw [ht, Table.get_set hk] at hi
    rcases hi with ⟨rfl, rfl⟩ | ⟨-, hi⟩
    · rcases howns with hsame | hnone
      · exact .inl ⟨k₀, hk, hsame ▸ ho⟩
      · rw [hnone] at ho; cases ho
    · exact .inl ⟨k, hi, ho⟩
  | @track p after model rest pending q' hq hto ht hreq =>
    obtain ⟨later, hsplit⟩ := hto.prefix
    have hnd := hown.nodup p after model rest hq
    rw [hsplit] at hnd
    refine waiters ht (hnd.sublist (List.sublist_append_left ..)) fun hr => .inl ?_
    exact ⟨p, after, model, rest, pending, q', hq, hto, hr, hreq⟩
  | @install p q q' variant found pending hq hs hto ht =>
    have hnew := newModels_nodup_of hrefs (hrefs.complete hq hs)
    obtain ⟨later, hsplit⟩ := hto.prefix
    refine waiters (by rw [ht]; rfl) (hnew.sublist (hsplit ▸ List.sublist_append_left ..)) ?_
    intro hr
    obtain ⟨id, -, hid⟩ := newModels_fresh (hto.refs.2 r hr)
    refine .inr ⟨(adoptedRefs_lt hid).1, ?_⟩
    rw [ht]
    exact hto.unready r hr
  | @swap p job victims hd ht =>
    have htasks : t.tasks = s.tasks ++ [.swapReady victims s.next] := by rw [ht]; rfl
    have hzero : ∀ (n' : ℕ) (k' : Task), [Task.swapReady victims s.next][n']? = some k' →
        n' = 0 ∧ k' = .swapReady victims s.next := by
      intro n' k' hn'
      cases n' with
      | zero => exact ⟨rfl, (Option.some.inj hn').symm⟩
      | succ n' => cases hn'
    rw [htasks, Table.get_append] at hi
    rcases hi with hi | ⟨n, rfl, hn⟩
    · exact .inl ⟨k, hi, ho⟩
    · obtain ⟨rfl, rfl⟩ := hzero n k hn
      obtain rfl : s.next = r := Option.some.inj ho
      refine .inr ⟨0, rfl, .inr ⟨Nat.le_refl _, by simp [ht, committed, newModel]⟩, ?_⟩
      intro n' k' hn' hk'
      rw [htasks, List.getElem?_append_right (Nat.le_add_right ..), Nat.add_sub_cancel_left] at hn'
      exact (hzero n' k' hn').1

theorem Refs.owned_lt (h : Refs cfg s) {i : ℕ} {k : Task} {r : Ref} (hi : s.tasks[i]? = some k)
    (ho : k.owns = some r) : r < s.next :=
  h.task i k hi r (List.mem_append_left _ (by rw [ho]; exact List.mem_singleton_self r))

theorem Refs.untracked_lt (h : Refs cfg s) {r : Ref} (hr : Untracked s r) : r < s.next := by
  obtain ⟨p, after, model, rest, hq, hmem, -⟩ := hr
  exact h.request p _ hq r (List.mem_cons_of_mem _ hmem)

theorem Owners.not_untracked (h : Owners s) {i : ℕ} {k : Task} {r : Ref}
    (hi : s.tasks[i]? = some k) (ho : k.owns = some r) : ¬ Untracked s r :=
  fun ⟨p, after, model, rest, hq, hmem, hready⟩ =>
    h.unowned p after model rest hq r hmem hready i k hi ho

/-- A record that nobody owns stays as ready as it is. -/
theorem ready_of_unowned (h : Step cfg s a t) {r : Ref} (hr : r < s.next)
    (hun : ∀ (i : ℕ) (k : Task), s.tasks[i]? = some k → k.owns ≠ some r) :
    (t.heap r).ready = (s.heap r).ready := by
  rcases step_ready h hr with heq | ⟨-, i, k, hk, ho, -⟩
  · exact heq
  · exact absurd ho (hun i k hk)

theorem Owners.unready_step (hrefs : Refs cfg s) (h : Owners s) (hstep : Step cfg s a t) (i : ℕ)
    (k : Task) (r : Ref) (hi : t.tasks[i]? = some k) (ho : k.owns = some r) :
    (t.heap r).ready = false := by
  rcases step_owner hrefs h hstep hi ho with ⟨k₀, hk₀, ho₀⟩ | ⟨n, -, hhanded | hfresh, -⟩
  · have hready := h.unready i k₀ r hk₀ ho₀
    rcases step_ready hstep (hrefs.owned_lt hk₀ ho₀) with heq | ⟨-, j, k₁, hj, ho₁, ht⟩
    · rw [heq, hready]
    · -- the owner that ends is this one, but it is alive
      obtain rfl := h.unique i j k₀ k₁ r hk₀ hj ho₀ ho₁
      rw [ht, Table.get_set_self hj] at hi
      rw [← Option.some.inj hi] at ho
      cases ho
  · have hun := hhanded.untracked
    rw [ready_of_unowned hstep (hrefs.untracked_lt hun) fun j k₁ hj ho₁ =>
      h.not_untracked hj ho₁ hun]
    obtain ⟨-, -, -, -, -, -, hready⟩ := hun
    exact hready
  · exact hfresh.2

theorem Owners.unique_step (hrefs : Refs cfg s) (h : Owners s) (hstep : Step cfg s a t) (i j : ℕ)
    (k k' : Task) (r : Ref) (hi : t.tasks[i]? = some k) (hj : t.tasks[j]? = some k')
    (ho : k.owns = some r) (ho' : k'.owns = some r) : i = j := by
  -- a record with an owner gets no second one
  have clash : ∀ {i : ℕ} {k₀ : Task}, s.tasks[i]? = some k₀ → k₀.owns = some r →
      ¬ (Handed s t r ∨ s.next ≤ r ∧ (t.heap r).ready = false) := by
    rintro i k₀ hk₀ ho₀ (hhanded | ⟨hle, -⟩)
    · exact h.not_untracked hk₀ ho₀ hhanded.untracked
    · exact absurd (hrefs.owned_lt hk₀ ho₀) (Nat.not_lt.2 hle)
  rcases step_owner hrefs h hstep hi ho with ⟨k₀, hk₀, ho₀⟩ | ⟨n, rfl, hnew, huniq⟩ <;>
    rcases step_owner hrefs h hstep hj ho' with ⟨k₁, hk₁, ho₁⟩ | ⟨m, rfl, hnew', -⟩
  · exact h.unique i j k₀ k₁ r hk₀ hk₁ ho₀ ho₁
  · exact absurd hnew' (clash hk₀ ho₀)
  · exact absurd hnew (clash hk₁ ho₁)
  · rw [huniq m k' hj ho']

/-- What `track` has not given a `finish_load` yet has no owner. -/
theorem Owners.unowned_step (hrefs : Refs cfg s) (hlock : Locking s) (h : Owners s)
    (hstep : Step cfg s a t) (p : ℕ) (after : Option Variant) (model : Ref) (rest : List Ref)
    (hp : t.requests[p]? = some (.tracking after model rest)) (r : Ref) (hr : r ∈ rest)
    (hready : (t.heap r).ready = false) (i : ℕ) (k : Task) (hi : t.tasks[i]? = some k) :
    k.owns ≠ some r := by
  intro ho
  -- the models of the same tracker before the step
  have before : ∀ {model₀ : Ref} {rest₀ : List Ref},
      s.requests[p]? = some (.tracking after model₀ rest₀) → r ∈ rest₀ → False := by
    intro model₀ rest₀ hp₀ hr₀
    have hlt := hrefs.request p _ hp₀ r (List.mem_cons_of_mem _ hr₀)
    have hready₀ : (s.heap r).ready = false := by
      by_contra hne
      rw [step_ready_mono hstep hlt (by simpa using hne)] at hready
      cases hready
    have hun := h.unowned p after model₀ rest₀ hp₀ r hr₀ hready₀
    rcases step_owner hrefs h hstep hi ho with ⟨k₀, hk₀, ho₀⟩ | ⟨n, -, hhanded | hfresh, -⟩
    · exact hun i k₀ hk₀ ho₀
    · obtain ⟨p', after', model', rest', pending, q, hp', hto, hmem, hreq⟩ := hhanded
      obtain rfl := hlock p p' _ _ hp₀ hp' rfl rfl
      cases hp₀.symm.trans hp'
      rw [hreq, Table.get_set_self hp₀] at hp
      obtain rfl := Option.some.inj hp
      obtain ⟨-, hsplit, -⟩ := hto.asks
      have hnd := h.nodup p after model₀ rest₀ hp₀
      rw [hsplit] at hnd
      exact (List.nodup_append.1 hnd).2.2 r hmem r (List.mem_cons_of_mem _ hr) rfl
    · exact absurd hlt (Nat.not_lt.2 hfresh.1)
  rcases step_tracking hstep hp with hp₀ | ⟨model₀, rest₀, pending, hp₀, rfl, -⟩ |
    ⟨q, variant, found, pending, hq, rfl, hs, hnew, -, ht⟩
  · exact before hp₀ hr
  · exact before hp₀ (List.mem_append_right _ (List.mem_cons_of_mem _ hr))
  · have hmem : r ∈ newModels s found := by
      rw [hnew]
      exact List.mem_append_right _ (List.mem_cons_of_mem _ hr)
    obtain ⟨id, -, hid⟩ := newModels_fresh hmem
    have hge := (adoptedRefs_lt hid).1
    rw [ht] at hi
    rcases Table.get_append.1 hi with hi | ⟨n, -, hn⟩
    · exact absurd (hrefs.owned_lt hi ho) (Nat.not_lt.2 hge)
    · have hnd := newModels_nodup_of hrefs (hrefs.complete hq hs)
      rw [hnew] at hnd
      have hpend := List.mem_of_getElem? (get_pending hn ho)
      exact (List.nodup_append.1 hnd).2.2 r hpend r (List.mem_cons_of_mem _ hr) rfl

theorem owners_step (hrefs : Refs cfg s) (hlock : Locking s) (h : Owners s)
    (hstep : Step cfg s a t) : Owners t := by
  refine ⟨h.unready_step hrefs hstep, h.unique_step hrefs hstep, ?_, ?_,
    h.unowned_step hrefs hlock hstep⟩
  · intro p after model rest hp
    rcases step_tracking hstep hp with hp₀ | ⟨model₀, rest₀, pending, hp₀, rfl, -⟩ |
      ⟨q, variant, found, pending, hq, rfl, hs, hnew, -, -⟩
    · exact h.nodup p after model rest hp₀
    · exact ((List.nodup_append.1 (h.nodup p after model₀ _ hp₀)).2.1).of_cons
    · have hnd := newModels_nodup_of hrefs (hrefs.complete hq hs)
      rw [hnew] at hnd
      exact ((List.nodup_append.1 hnd).2.1).of_cons
  · intro p after model rest hp
    rcases step_tracking hstep hp with hp₀ | ⟨model₀, rest₀, pending, hp₀, rfl, hready, -⟩ |
      ⟨q, variant, found, pending, hq, rfl, hs, hnew, hready, ht⟩
    · have hlt := hrefs.request p _ hp₀ model List.mem_cons_self
      exact step_ready_mono hstep hlt (h.current p after model rest hp₀)
    · have hlt := hrefs.request p _ hp₀ model (by simp [Request.refs])
      exact step_ready_mono hstep hlt hready
    · rw [ht]
      exact hready

/-- At first there is one `finish_load` for each model the servers are loading,
    as far as `start()` has come. -/
theorem owners_initial {now : ℚ} {found : Survey} (hf : found.Complete cfg) :
    Owners (initial now found) := by
  obtain ⟨pending, q, hto, heq⟩ := initial_cases now found
  have hreq : ∀ (p : ℕ) (q' : Request), (initial now found).requests[p]? = some q' → q' = q := by
    intro p q' hp
    obtain ⟨rfl, -⟩ := initial_requests hp
    rw [heq] at hp
    exact (Option.some.inj hp).symm
  have htask : ∀ (i : ℕ) (k : Task), (initial now found).tasks[i]? = some k →
      (pending.map Task.finishReady)[i]? = some k := by
    intro i k hi
    rw [heq] at hi
    exact hi
  have hheap : (initial now found).heap = adopt (blank now) found := by rw [heq]; rfl
  have hvalues : (adoptedRefs (blank now) found).values.Nodup := by
    have hrec : (initial now found).recorded = (adoptedRefs (blank now) found).get := by
      rw [heq]; rfl
    refine Dict.values_nodup fun id id' r hr hr' => ?_
    rw [← hrec] at hr hr'
    exact (refs_initial hf).recorded_inj hr hr'
  obtain ⟨later, hsplit⟩ := hto.prefix
  rw [hsplit] at hvalues
  have hpending : pending.Nodup := hvalues.sublist (List.sublist_append_left ..)
  -- what `start()` has still to look after
  have hlater : ∀ {p : ℕ} {after : Option Variant} {model : Ref} {rest : List Ref},
      (initial now found).requests[p]? = some (.tracking after model rest) →
      later = model :: rest ∧ (adopt (blank now) found model).ready = true := by
    intro p after model rest hp
    obtain rfl := hreq p _ hp
    obtain ⟨-, hall, hready⟩ := hto.asks
    rw [hsplit] at hall
    exact ⟨List.append_cancel_left hall, hready⟩
  refine ⟨?_, ?_, ?_, ?_, ?_⟩
  · intro i k r hi ho
    rw [hheap]
    exact hto.unready r (List.mem_of_getElem? (get_pending (htask i k hi) ho))
  · intro i j k k' r hi hj ho ho'
    have hi' := get_pending (htask i k hi) ho
    have hj' := get_pending (htask j k' hj) ho'
    exact (List.getElem?_inj (Table.lt_length hi') hpending).1 (hi'.trans hj'.symm)
  · intro p after model rest hp
    rw [(hlater hp).1] at hvalues
    exact ((List.nodup_append.1 hvalues).2.1).of_cons
  · intro p after model rest hp
    rw [hheap]
    exact (hlater hp).2
  · intro p after model rest hp r hr _ i k hi ho
    rw [(hlater hp).1] at hvalues
    have hmem := List.mem_of_getElem? (get_pending (htask i k hi) ho)
    exact (List.nodup_append.1 hvalues).2.2 r hmem r (List.mem_cons_of_mem _ hr) rfl

end ModelBroker
