import ModelBroker.Scheduler.Owners

/-!
# Decisions

What holds while a request is between its acquisition of the lock in `place` and
its decision, and what the decision does to the tasks.

* `Decides`: the model is not in `loaded`, the conflicting models listed are all
  there are, and those already looked at were ready.
* `Victims`: the victims of a live swap are ready and leaving, and belong to
  that swap only.
* `Inv`, `inv`: these invariants and those of the modules before hold in every
  run, whatever is cancelled and whatever the servers answer.
-/

namespace ModelBroker

variable {cfg : Config} {s t : State} {a : Act}

/-! ## A request that decides -/

/-- The job of a request that is deciding, the conflicting models it has found
    ready, and those it has not looked at. -/
def Request.decides? : Request → Option (Job × List Ref × List Ref)
  | judging job look => some (job, look.seen, look.rest)
  | observing job look model => some (job, look.seen ++ [model], look.rest)
  | _ => none

/-- What a request that is deciding knows. -/
structure Decides (s : State) (job : Job) (asked rest : List Ref) : Prop where
  nodup : (asked ++ rest).Nodup
  absent : s.recorded job.variant.id = none
  complete : ∀ (id : String) (r : Ref), s.recorded id = some r →
    claimsConflict (s.heap r).variant job.variant = true → r ∈ asked ++ rest
  conflict : ∀ r ∈ asked ++ rest, claimsConflict (s.heap r).variant job.variant = true
  other : ∀ r ∈ asked ++ rest, (s.heap r).variant.id ≠ job.variant.id
  own : ∀ r ∈ asked ++ rest, ∀ r', s.recorded (s.heap r).variant.id = some r' → r' = r
  ready : ∀ r ∈ asked, (s.heap r).ready = true

/-- Every request that is deciding knows this. -/
def Deciding (s : State) : Prop :=
  ∀ (p : ℕ) (q : Request) (job : Job) (asked rest : List Ref), s.requests[p]? = some q →
    q.decides? = some (job, asked, rest) → Decides s job asked rest

theorem Request.job_of_decides {q : Request} {d : Job × List Ref × List Ref}
    (h : q.decides? = some d) : q.job? = some d.1 := by
  cases q <;> cases h <;> rfl

theorem Request.holdsLock_of_decides {q : Request} {d : Job × List Ref × List Ref}
    (h : q.decides? = some d) : q.holdsLock = true := by
  cases q <;> first | rfl | cases h

theorem Request.refs_of_decides {q : Request} {job : Job} {asked rest : List Ref}
    (h : q.decides? = some (job, asked, rest)) : q.refs = asked ++ rest := by
  cases q with
  | judging =>
    cases h
    rfl
  | observing =>
    cases h
    simp [Request.refs]
  | _ => cases h

theorem judged_decides (job : Job) (look : Look) (r : Ref) (model : LoadedModel) :
    (Request.judging job (judged cfg look r model)).decides? =
      some (job, look.seen ++ [r], look.rest) := by
  unfold judged Look.protect
  split_ifs <;> rfl

/-- How a request comes to be deciding. -/
theorem step_decides (h : Step cfg s a t) {p : ℕ} {q : Request} {job : Job} {asked rest : List Ref}
    (hp : t.requests[p]? = some q) (hd : q.decides? = some (job, asked, rest)) :
    (∃ q₀ : Request, s.requests[p]? = some q₀ ∧ q₀.decides? = some (job, asked, rest)) ∨
      (s.recorded job.variant.id = none ∧ asked = [] ∧ rest = conflictsOf s job ∧
        t.view = s.view ∧ t.heap = s.heap) ∨
      ∃ (q₀ : Request) (asked₀ : List Ref) (r : Ref), s.requests[p]? = some q₀ ∧
        q₀.decides? = some (job, asked₀, r :: rest) ∧ asked = asked₀ ++ [r] ∧
        (s.heap r).ready = true ∧ (s.heap r).leaving = false := by
  cases step_job h hp (Request.job_of_decides hd) with
  | same hp => exact .inl ⟨q, hp, hd⟩
  | head | busy => cases hd
  | idle h₀ _ _ heq =>
    subst heq
    rw [judged_decides] at hd
    exact .inl ⟨_, h₀, hd⟩
  | silent h₀ hsil ht =>
    cases hsil with
    | list hfree hnone =>
      cases hd
      exact .inr (.inl ⟨hnone, rfl, rfl, by rw [ht]; rfl, by rw [ht]; rfl⟩)
    | @ask _ look r _ hrest hleaving _ _ hready =>
      cases hd
      exact .inr (.inr ⟨_, look.seen, r, h₀, by simp [Request.decides?, hrest], rfl, hready,
        hleaving⟩)
    | unknown | recheck | clean | survey | unfit | noTicket | inOrder | block | again | sleep
    | wake | cancelled => cases hd

/-- While a request is deciding, others only take records out of `loaded`. -/
theorem loaded_of_deciding (hlock : Locking s) (hstep : Step cfg s a t) {p : ℕ} {q q' : Request}
    (hq : s.requests[p]? = some q) (hl : q.holdsLock = true) (hq' : t.requests[p]? = some q')
    {d : Job × List Ref × List Ref} (hd : q'.decides? = some d) (id : String) (r : Ref)
    (hr : t.recorded id = some r) : s.recorded id = some r := by
  cases step_loaded hstep with
  | fewer hfew => exact hfew id r hr
  | @commit p₀ job victims hdec ht =>
    obtain ⟨look, hp₀, -⟩ := decision_eq_some.1 hdec
    obtain rfl := hlock p p₀ q _ hq hp₀ hl rfl
    have hset : t.requests = s.requests.set p (.joining s.next) := by rw [ht]; rfl
    rw [hset, Table.get_set_self hq] at hq'
    obtain rfl := Option.some.inj hq'
    cases hd
  | @install p₀ q₀ q₁ variant found pending hp₀ hs hto ht =>
    have hp : p = p₀ := by
      rcases hs.lock with hl₀ | hfree
      · exact hlock p p₀ q q₀ hq hp₀ hl hl₀
      · rw [not_holds_of_lockFree hfree hq] at hl; cases hl
    subst hp
    have hset : t.requests = s.requests.set p q₁ := by rw [ht]; rfl
    rw [hset, Table.get_set_self hq] at hq'
    obtain rfl := Option.some.inj hq'
    rcases hto.shape with rfl | ⟨model, rest, rfl⟩ <;> cases hd

/-- What a request that is deciding knows stays true. -/
theorem Decides.step {p : ℕ} {q q' : Request} {job : Job} {asked rest : List Ref}
    (hrefs : Refs cfg s) (hlock : Locking s) (hstep : Step cfg s a t)
    (hq : s.requests[p]? = some q) (hd : q.decides? = some (job, asked, rest))
    (hq' : t.requests[p]? = some q') {d : Job × List Ref × List Ref}
    (hd' : q'.decides? = some d) (h : Decides s job asked rest) : Decides t job asked rest := by
  have hfew := loaded_of_deciding hlock hstep hq (Request.holdsLock_of_decides hd) hq' hd'
  have hlt : ∀ r ∈ asked ++ rest, r < s.next := by
    intro r hr
    exact hrefs.request p q hq r (by rw [Request.refs_of_decides hd]; exact hr)
  refine ⟨h.nodup, ?_, ?_, ?_, ?_, ?_, ?_⟩
  · cases hnone : t.recorded job.variant.id with
    | none => rfl
    | some r =>
      have habsent := h.absent
      rw [hfew _ r hnone] at habsent
      cases habsent
  · intro id r hr hconf
    have hr₀ := hfew id r hr
    rw [step_variant hstep (hrefs.keyed id r hr₀).1] at hconf
    exact h.complete id r hr₀ hconf
  · intro r hr
    rw [step_variant hstep (hlt r hr)]
    exact h.conflict r hr
  · intro r hr
    rw [step_variant hstep (hlt r hr)]
    exact h.other r hr
  · intro r hr r' hr'
    rw [step_variant hstep (hlt r hr)] at hr'
    exact h.own r hr r' (hfew _ r' hr')
  · intro r hr
    exact step_ready_mono hstep (hlt r (List.mem_append_left _ hr)) (h.ready r hr)

/-- One more of the models listed was found ready. -/
theorem Decides.ask {job : Job} {asked rest : List Ref} {r : Ref} (h : Decides s job asked (r :: rest))
    (hready : (s.heap r).ready = true) : Decides s job (asked ++ [r]) rest := by
  have hsplit : asked ++ [r] ++ rest = asked ++ r :: rest := by simp
  refine ⟨hsplit ▸ h.nodup, h.absent, hsplit ▸ h.complete, hsplit ▸ h.conflict,
    hsplit ▸ h.other, hsplit ▸ h.own, ?_⟩
  intro r' hr'
  rcases List.mem_append.1 hr' with hr' | hr'
  · exact h.ready r' hr'
  · rw [List.mem_singleton.1 hr', hready]

/-- The list with which `place` starts. -/
theorem decides_conflictsOf (hrefs : Refs cfg s) {job : Job}
    (habsent : s.recorded job.variant.id = none) : Decides s job [] (conflictsOf s job) := by
  have hstored : ∀ r ∈ conflictsOf s job, s.recorded (s.heap r).variant.id = some r := by
    intro r hr
    obtain ⟨id, hid⟩ := Dict.mem_values.1 (List.mem_filter.1 hr).1
    rw [(hrefs.keyed id r hid).2]
    exact hid
  refine ⟨?_, habsent, ?_, ?_, ?_, ?_, ?_⟩
  · have hinj : ∀ (id id' : String) (r : Ref), s.view.loaded.get id = some r →
        s.view.loaded.get id' = some r → id = id' := fun _ _ _ hr hr' => hrefs.recorded_inj hr hr'
    exact (Dict.values_nodup hinj).filter _
  · intro id r hr hconf
    exact List.mem_filter.2 ⟨Dict.mem_values.2 ⟨id, hr⟩, hconf⟩
  · intro r hr
    exact (List.mem_filter.1 hr).2
  · intro r hr heq
    have hrec := hstored r hr
    rw [heq, habsent] at hrec
    cases hrec
  · intro r hr r' hr'
    rw [hstored r hr] at hr'
    exact (Option.some.inj hr').symm
  · intro r hr
    cases hr

theorem deciding_step (hrefs : Refs cfg s) (hlock : Locking s) (h : Deciding s)
    (hstep : Step cfg s a t) : Deciding t := by
  intro p q job asked rest hp hd
  rcases step_decides hstep hp hd with ⟨q₀, hp₀, hd₀⟩ | ⟨hnone, rfl, rfl, hview, hheap⟩ |
    ⟨q₀, asked₀, r, hp₀, hd₀, rfl, hready, -⟩
  · exact (h p q₀ job asked rest hp₀ hd₀).step hrefs hlock hstep hp₀ hd₀ hp hd
  · have hs := decides_conflictsOf hrefs hnone
    have hrec : t.recorded = s.recorded := by unfold State.recorded; rw [hview]
    refine ⟨hs.nodup, ?_, ?_, ?_, ?_, ?_, ?_⟩
    · rw [hrec]; exact hs.absent
    · rw [hrec, hheap]; exact hs.complete
    · rw [hheap]; exact hs.conflict
    · rw [hheap]; exact hs.other
    · rw [hrec, hheap]; exact hs.own
    · rw [hheap]; exact hs.ready
  · have hlt := hrefs.request p q₀ hp₀ r (by rw [Request.refs_of_decides hd₀]; simp)
    have hs := (h p q₀ job asked₀ _ hp₀ hd₀).step hrefs hlock hstep hp₀ hd₀ hp hd
    exact hs.ask (step_ready_mono hstep hlt hready)

/-! ## Victims -/

/-- The victims of live swaps. -/
structure Victims (s : State) : Prop where
  leaving : ∀ (i : ℕ) (k : Task) (r : Ref), s.tasks[i]? = some k → r ∈ k.victims →
    (s.heap r).leaving = true ∧ (s.heap r).ready = true
  nodup : ∀ (i : ℕ) (k : Task), s.tasks[i]? = some k → k.victims.Nodup
  unique : ∀ (i j : ℕ) (k k' : Task) (r : Ref), s.tasks[i]? = some k → s.tasks[j]? = some k' →
    r ∈ k.victims → r ∈ k'.victims → i = j

/-- What the decision knows of its victims. -/
theorem Deciding.decision (h : Deciding s) {p : ℕ} {job : Job} {victims : List Ref}
    (hd : s.decision p = some (job, victims)) :
    Decides s job victims [] ∧ ∀ r ∈ victims, (s.heap r).inUse = false := by
  obtain ⟨look, hq, hrest, -, hidle, rfl⟩ := decision_eq_some.1 hd
  exact ⟨h p _ job look.seen [] hq (by simp [Request.decides?, hrest]), hidle⟩

theorem inUse_eq_false {model : LoadedModel} :
    model.inUse = false ↔ model.active = 0 ∧ model.queued = 0 ∧ model.leaving = false := by
  simp [LoadedModel.inUse, and_assoc]

theorem Task.victims_of_ended {k : Task} (h : k.owns = none) : k.victims = [] := by
  cases k <;> first | rfl | cases h

/-- The victims of a task are those it had before the step, or have just been
    chosen. -/
theorem step_victims (h : Step cfg s a t) {i : ℕ} {k : Task} (hi : t.tasks[i]? = some k) :
    k.victims = [] ∨
      (∃ k₀, s.tasks[i]? = some k₀ ∧ k₀.victims = k.victims ∧ k₀.owns = k.owns) ∨
      (i = s.tasks.length ∧ k.owns = some s.next ∧ ∃ p job,
        s.decision p = some (job, k.victims) ∧ t = committed s p job k.victims ∧
          a = .resume p) := by
  have waiters : ∀ {pending : List Ref}, t.tasks = s.tasks ++ pending.map .finishReady →
      k.victims = [] ∨ ∃ k₀, s.tasks[i]? = some k₀ ∧ k₀.victims = k.victims ∧ k₀.owns = k.owns := by
    intro pending ht
    rw [ht] at hi
    rcases Table.get_append.1 hi with hi | ⟨n, -, hn⟩
    · exact .inr ⟨k, hi, rfl, rfl⟩
    · rw [List.getElem?_map, Option.map_eq_some_iff] at hn
      obtain ⟨r', -, rfl⟩ := hn
      exact .inl rfl
  cases step_tasks h with
  | same ht => exact .inr (.inl ⟨k, ht ▸ hi, rfl, rfl⟩)
  | @move j k₀ k' hk ht howns hvictims hunload hunasked =>
    rw [ht, Table.get_set hk] at hi
    rcases hi with ⟨rfl, rfl⟩ | ⟨-, hi⟩
    · rcases hvictims with hv | hv
      · rcases howns with ho | ho
        · exact .inr (.inl ⟨k₀, hk, hv.symm, ho.symm⟩)
        · exact .inl (Task.victims_of_ended ho)
      · exact .inl hv
    · exact .inr (.inl ⟨k, hi, rfl, rfl⟩)
  | track _ _ ht => exact (waiters ht).imp_right .inl
  | install _ _ _ ht => exact (waiters (by rw [ht]; rfl)).imp_right .inl
  | @swap p job victims hd ht ha =>
    have htasks : t.tasks = s.tasks ++ [.swapReady victims s.next] := by rw [ht]; rfl
    rw [htasks] at hi
    rcases Table.get_push.1 hi with ⟨rfl, rfl⟩ | hi
    · exact .inr (.inr ⟨rfl, rfl, p, job, hd, ht, ha⟩)
    · exact .inr (.inl ⟨k, hi, rfl, rfl⟩)

/-- The same for one victim. -/
theorem step_victim (h : Step cfg s a t) {i : ℕ} {k : Task} {r : Ref} (hi : t.tasks[i]? = some k)
    (hr : r ∈ k.victims) :
    (∃ k₀, s.tasks[i]? = some k₀ ∧ r ∈ k₀.victims ∧ k₀.owns = k.owns) ∨
      (i = s.tasks.length ∧ k.owns = some s.next ∧ ∃ p job,
        s.decision p = some (job, k.victims) ∧ t = committed s p job k.victims ∧
          a = .resume p) := by
  rcases step_victims h hi with hnil | ⟨k₀, hk₀, heq, ho⟩ | hnew
  · rw [hnil] at hr; cases hr
  · exact .inl ⟨k₀, hk₀, heq ▸ hr, ho⟩
  · exact .inr hnew

theorem Task.victims_of_toUnload {k : Task} {r : Ref} (h : r ∈ k.toUnload) : r ∈ k.victims := by
  cases k with
  | swapReady => exact h
  | swapUnload done victim rest => exact List.mem_append_right done h
  | swapLoad | finishReady | finishWait | loadQuery | loadBaseline | ended | crashed => cases h

theorem Task.owns_of_toUnload {k : Task} {r : Ref} (h : r ∈ k.toUnload) :
    ∃ m, k.owns = some m := by
  cases ho : k.owns with
  | some m => exact ⟨m, rfl⟩
  | none =>
    have hnone := Task.victims_of_toUnload h
    rw [Task.victims_of_ended ho] at hnone
    cases hnone

theorem Task.owns_of_unasked {k : Task} {m : Ref} (h : k.unasked = some m) :
    k.owns = some m := by
  cases k <;> first | exact h | cases h

/-- The same for a victim that is still to be unloaded. -/
theorem step_toUnload (h : Step cfg s a t) {i : ℕ} {k : Task} {r : Ref} (hi : t.tasks[i]? = some k)
    (hr : r ∈ k.toUnload) :
    (∃ k₀, s.tasks[i]? = some k₀ ∧ r ∈ k₀.toUnload ∧ k₀.owns = k.owns) ∨
      (i = s.tasks.length ∧ k.owns = some s.next ∧ ∃ p job,
        s.decision p = some (job, k.victims) ∧ t = committed s p job k.victims ∧
          a = .resume p) := by
  have waiter : ∀ {pending : List Ref}, k ∉ pending.map Task.finishReady := by
    intro pending hmem
    obtain ⟨r', -, rfl⟩ := List.mem_map.1 hmem
    cases hr
  cases step_tasks h with
  | same ht => exact .inl ⟨k, ht ▸ hi, hr, rfl⟩
  | @move j k₀ k' hk ht howns hvictims hunload hunasked =>
    rw [ht, Table.get_set hk] at hi
    rcases hi with ⟨rfl, rfl⟩ | ⟨-, hi⟩
    · rcases howns with ho | ho
      · exact .inl ⟨k₀, hk, hunload r hr, ho.symm⟩
      · obtain ⟨m, ho'⟩ := Task.owns_of_toUnload hr
        rw [ho] at ho'
        cases ho'
    · exact .inl ⟨k, hi, hr, rfl⟩
  | track _ _ ht =>
    rw [ht, Table.get_append] at hi
    rcases hi with hi | ⟨n, -, hn⟩
    · exact .inl ⟨k, hi, hr, rfl⟩
    · exact absurd (List.mem_of_getElem? hn) waiter
  | install _ _ _ ht =>
    rw [ht] at hi
    rcases Table.get_append.1 hi with hi | ⟨n, -, hn⟩
    · exact .inl ⟨k, hi, hr, rfl⟩
    · exact absurd (List.mem_of_getElem? hn) waiter
  | @swap p job victims hd ht ha =>
    have htasks : t.tasks = s.tasks ++ [.swapReady victims s.next] := by rw [ht]; rfl
    rw [htasks] at hi
    rcases Table.get_push.1 hi with ⟨rfl, rfl⟩ | hi
    · exact .inr ⟨rfl, rfl, p, job, hd, ht, ha⟩
    · exact .inl ⟨k, hi, hr, rfl⟩

/-- The model of a swap that has not asked for it is so before the step, or new. -/
theorem step_unasked (h : Step cfg s a t) {i : ℕ} {k : Task} {m : Ref} (hi : t.tasks[i]? = some k)
    (hun : k.unasked = some m) :
    (∃ k₀, s.tasks[i]? = some k₀ ∧ k₀.unasked = some m) ∨
      (m = s.next ∧ ∃ p job victims, s.decision p = some (job, victims) ∧
        t = committed s p job victims ∧ a = .resume p) := by
  have waiters : ∀ {pending : List Ref}, t.tasks = s.tasks ++ pending.map .finishReady →
      s.tasks[i]? = some k := by
    intro pending ht
    rw [ht, Table.get_append] at hi
    rcases hi with hi | ⟨n, -, hn⟩
    · exact hi
    · obtain ⟨r', -, rfl⟩ := List.mem_map.1 (List.mem_of_getElem? hn)
      cases hun
  cases step_tasks h with
  | same ht => exact .inl ⟨k, ht ▸ hi, hun⟩
  | @move j k₀ k' hk ht howns hvictims hunload hunasked =>
    rw [ht, Table.get_set hk] at hi
    rcases hi with ⟨rfl, rfl⟩ | ⟨-, hi⟩
    · rcases hunasked with hsame | hnone
      · exact .inl ⟨k₀, hk, hsame ▸ hun⟩
      · rw [hnone] at hun; cases hun
    · exact .inl ⟨k, hi, hun⟩
  | track _ _ ht => exact .inl ⟨k, waiters ht, hun⟩
  | install _ _ _ ht => exact .inl ⟨k, waiters (by rw [ht]; rfl), hun⟩
  | @swap p job victims hd ht ha =>
    have htasks : t.tasks = s.tasks ++ [.swapReady victims s.next] := by rw [ht]; rfl
    rw [htasks] at hi
    rcases Table.get_push.1 hi with ⟨-, rfl⟩ | hi
    · exact .inr ⟨(Option.some.inj hun).symm, p, job, victims, hd, ht, ha⟩
    · exact .inl ⟨k, hi, hun⟩

theorem Refs.victim_lt (h : Refs cfg s) {i : ℕ} {k : Task} {r : Ref} (hi : s.tasks[i]? = some k)
    (hr : r ∈ k.victims) : r < s.next :=
  h.task i k hi r (List.mem_append_right _ hr)

theorem victims_step (hrefs : Refs cfg s) (hdec : Deciding s) (h : Victims s)
    (hstep : Step cfg s a t) : Victims t := by
  -- a chosen victim was in no live swap, since it was not leaving
  have chosen : ∀ {i : ℕ} {k : Task} {r : Ref} {p : ℕ} {job : Job} {victims : List Ref},
      s.tasks[i]? = some k → r ∈ k.victims → s.decision p = some (job, victims) →
      r ∉ victims := by
    intro i k r p job victims hk hr hd hmem
    have hleaving := (h.leaving i k r hk hr).1
    rw [(inUse_eq_false.1 ((hdec.decision hd).2 r hmem)).2.2] at hleaving
    cases hleaving
  refine ⟨?_, ?_, ?_⟩
  · intro i k r hi hr
    rcases step_victim hstep hi hr with ⟨k₀, hk₀, hr₀, -⟩ | ⟨-, -, p, job, hd, ht, -⟩
    · have hlt := hrefs.victim_lt hk₀ hr₀
      obtain ⟨hleaving, hready⟩ := h.leaving i k₀ r hk₀ hr₀
      refine ⟨?_, step_ready_mono hstep hlt hready⟩
      rcases step_leaving hstep hlt with heq | ⟨-, -, -, -, -, -, htrue⟩ |
        ⟨-, j, k₁, k', hj, hr₁, ht, hnone⟩
      · rw [heq, hleaving]
      · exact htrue
      · -- its own swap has just ended
        obtain rfl := h.unique i j k₀ k₁ r hk₀ hj hr₀ hr₁
        rw [ht, Table.get_set_self hj] at hi
        rw [← Option.some.inj hi, hnone] at hr
        cases hr
    · obtain ⟨look, hq, -, -, -, heq⟩ := decision_eq_some.1 hd
      have hlt := hrefs.request p _ hq r (List.mem_append_left _ (heq ▸ hr))
      rw [ht, committed_of_lt hlt, if_pos hr]
      exact ⟨rfl, (hdec.decision hd).1.ready r hr⟩
  · intro i k hi
    rcases step_victims hstep hi with hnil | ⟨k₀, hk₀, heq, -⟩ | ⟨-, -, p, job, hd, -⟩
    · rw [hnil]; exact .nil
    · exact heq ▸ h.nodup i k₀ hk₀
    · simpa using (hdec.decision hd).1.nodup
  · intro i j k k' r hi hj hr hr'
    rcases step_victim hstep hi hr with ⟨k₀, hk₀, hr₀, -⟩ | ⟨rfl, -, p, job, hd, -⟩ <;>
      rcases step_victim hstep hj hr' with ⟨k₁, hk₁, hr₁, -⟩ | ⟨rfl, -, p', job', hd', -⟩
    · exact h.unique i j k₀ k₁ r hk₀ hk₁ hr₀ hr₁
    · exact absurd hr' (chosen hk₀ hr₀ hd')
    · exact absurd hr (chosen hk₁ hr₁ hd)
    · rfl

/-! ## All of them -/

/-- What holds in every reachable state. -/
structure Inv (cfg : Config) (s : State) : Prop where
  refs : Refs cfg s
  locking : Locking s
  owners : Owners s
  deciding : Deciding s
  victims : Victims s

theorem inv_step (h : Inv cfg s) (hstep : Step cfg s a t) : Inv cfg t where
  refs := refs_step h.refs hstep
  locking := locking_step h.locking hstep
  owners := owners_step h.refs h.locking h.owners hstep
  deciding := deciding_step h.refs h.locking h.deciding hstep
  victims := victims_step h.refs h.deciding h.victims hstep

theorem deciding_initial (now : ℚ) (found : Survey) : Deciding (initial now found) := by
  intro p q job asked rest hp hd
  rcases (initial_requests hp).2 with rfl | ⟨model, rest, rfl⟩ <;> cases hd

/-- At first there are no swaps. -/
theorem victims_initial (now : ℚ) (found : Survey) : Victims (initial now found) := by
  have hnone : ∀ (i : ℕ) (k : Task), (initial now found).tasks[i]? = some k → k.victims = [] := by
    intro i k hi
    obtain ⟨r, id, rfl, -⟩ := initial_tasks hi
    rfl
  refine ⟨?_, ?_, ?_⟩
  · intro i k r hi hr
    rw [hnone i k hi] at hr
    cases hr
  · intro i k hi
    rw [hnone i k hi]
    exact .nil
  · intro i j k k' r hi hj hr
    rw [hnone i k hi] at hr
    cases hr

theorem inv_initial {now : ℚ} {found : Survey} (hf : found.Complete cfg) :
    Inv cfg (initial now found) where
  refs := refs_initial hf
  locking := locking_initial now found
  owners := owners_initial hf
  deciding := deciding_initial now found
  victims := victims_initial now found

/-- The invariants hold in every run. -/
theorem inv {ok : State → Act → Prop} (h : (scheduler cfg).Reach ok s) : Inv cfg s := by
  refine invariant_reach ?_ ?_ h
  · intro now found hf
    exact inv_initial hf
  · intro s a t _ hs _ hstep
    exact inv_step hs hstep

end ModelBroker
