import ModelBroker.Lib.Table
import ModelBroker.Scheduler.Cases

/-!
# Tickets and the order of placement

`Queue` is what is known of `self.waiting` in every reachable state: tickets
are in the order of their arrival, and every request between the creation and
the removal of its ticket finds its own there.

* `step_queue`: a step appends a new ticket, removes the ticket of the request
  that moves, or leaves the tickets alone.
* `ordered`: once a request has passed the check of `place` (lines 438–443), no
  earlier conflicting ticket waits, since the earlier tickets only become fewer.
* `placed_in_arrival_order`: so this holds when `place` commits its decision.
-/

namespace ModelBroker

variable {cfg : Config} {s t : State} {a : Act}

/-! ## What a step does to the tickets -/

/-- How the tickets change in one step. -/
inductive QueueStep (cfg : Config) (s t : State) : Prop
  | same (hw : t.waiting = s.waiting) (ht : t.tickets = s.tickets)
      (hjob : ∀ (p : ℕ) (q : Request), t.requests[p]? = some q → q.job? = none ∨
        ∃ q₀ : Request, s.requests[p]? = some q₀ ∧ q₀.job? = q.job?)
  | enter {p : ℕ} {q : Request} {variant : Variant} (hq : s.requests[p]? = some q)
      (hw : t.waiting = s.waiting ++ [⟨s.tickets, variant⟩]) (ht : t.tickets = s.tickets + 1)
      (hr : t.requests = s.requests.set p
        (.looping ⟨⟨s.tickets, variant⟩, s.now + cfg.maxWaitSeconds⟩))
  | leave {p : ℕ} {q q' : Request} {job : Job} (hq : s.requests[p]? = some q)
      (hjob : q.job? = some job)
      (hw : t.waiting = s.waiting.filter fun other => other.serial ≠ job.ticket.serial)
      (ht : t.tickets = s.tickets) (hr : t.requests = s.requests.set p q') (hq' : q'.job? = none)

theorem Silent.job {p : ℕ} {q q' : Request} (h : Silent cfg s p a q q') :
    q'.job? = none ∨ q.job? = q'.job? := by
  cases h <;> first | exact .inl rfl | exact .inr rfl | exact .inr ‹_›

/-- A step of request `p` that leaves the tickets alone. -/
theorem QueueStep.of_set {p : ℕ} {q q' : Request} (hq : s.requests[p]? = some q)
    (hw : t.waiting = s.waiting) (ht : t.tickets = s.tickets)
    (hr : t.requests = s.requests.set p q') (hjob : q'.job? = none ∨ q.job? = q'.job?) :
    QueueStep cfg s t := by
  refine .same hw ht fun p₁ q₁ h₁ => ?_
  rw [hr, Table.get_set hq] at h₁
  rcases h₁ with ⟨rfl, rfl⟩ | ⟨-, h₁⟩
  · exact hjob.imp_right fun hj => ⟨q, hq, hj⟩
  · exact .inr ⟨q₁, h₁, rfl⟩

theorem step_queue (h : Step cfg s a t) : QueueStep cfg s t := by
  cases h with
  | tick => exact .same rfl rfl fun p q hq => .inr ⟨q, hq, rfl⟩
  | arrive =>
    refine .same rfl rfl fun p q hq => ?_
    rcases Table.get_push.1 hq with ⟨-, rfl⟩ | hq
    · exact .inl rfl
    · exact .inr ⟨q, hq, rfl⟩
  | silent hq h => exact .of_set hq rfl rfl rfl h.job
  | enter hq => exact .enter hq rfl rfl rfl
  | install hq h hto => exact .of_set hq rfl rfl rfl (.inl hto.job)
  | baseline hq hto => exact .of_set hq rfl rfl rfl (.inl hto.job)
  | join hq => exact .leave hq rfl rfl rfl rfl rfl
  | queue hq => exact .leave hq rfl rfl rfl rfl rfl
  | quit hq hjob => exact .leave hq hjob rfl rfl rfl rfl
  | busy hq | idle hq => exact .of_set hq rfl rfl rfl (.inr rfl)
  | commit hq => exact .leave hq rfl rfl rfl rfl rfl
  | joined hq | unjoin hq | release hq => exact .of_set hq rfl rfl rfl (.inl rfl)
  | task | unloaded | crash | unloadFailed | crashFailed | loadFailed | dropped | gone | unsure
  | baselined => exact .same rfl rfl fun p q hq => .inr ⟨q, hq, rfl⟩

/-! ## The queue -/

/-- The tickets of a reachable state. -/
structure Queue (s : State) : Prop where
  sorted : s.waiting.Pairwise fun first second => first.serial < second.serial
  below : ∀ ticket ∈ s.waiting, ticket.serial < s.tickets
  queued : ∀ (p : ℕ) (q : Request) (job : Job), s.requests[p]? = some q → q.job? = some job →
    job.ticket ∈ s.waiting
  own : ∀ (p p' : ℕ) (q q' : Request) (job job' : Job), s.requests[p]? = some q →
    s.requests[p']? = some q' → q.job? = some job → q'.job? = some job' →
    job.ticket.serial = job'.ticket.serial → p = p'

/-- A ticket that is waiting is found by its serial. -/
theorem Queue.ext (h : Queue s) {first second : Ticket} (h₁ : first ∈ s.waiting)
    (h₂ : second ∈ s.waiting) (heq : first.serial = second.serial) : first = second := by
  have hnd : (s.waiting.map Ticket.serial).Nodup := by
    rw [List.Nodup, List.pairwise_map]
    exact h.sorted.imp fun hlt => Nat.ne_of_lt hlt
  exact List.inj_on_of_nodup_map hnd h₁ h₂ heq

theorem QueueStep.queue (hqs : QueueStep cfg s t) (h : Queue s) : Queue t := by
  cases hqs with
  | same hw ht hjob =>
    have hold : ∀ (p : ℕ) (q : Request) (job : Job), t.requests[p]? = some q → q.job? = some job →
        ∃ q₀ : Request, s.requests[p]? = some q₀ ∧ q₀.job? = some job := by
      intro p q job hq hj
      rcases hjob p q hq with hn | ⟨q₀, hq₀, hj₀⟩
      · rw [hj] at hn; cases hn
      · exact ⟨q₀, hq₀, hj₀.trans hj⟩
    refine ⟨hw ▸ h.sorted, by rw [hw, ht]; exact h.below, ?_, ?_⟩
    · intro p q job hq hj
      obtain ⟨q₀, hq₀, hj₀⟩ := hold p q job hq hj
      rw [hw]
      exact h.queued p q₀ job hq₀ hj₀
    · intro p p' q q' job job' hq hq' hj hj' hs
      obtain ⟨q₀, hq₀, hj₀⟩ := hold p q job hq hj
      obtain ⟨q₁, hq₁, hj₁⟩ := hold p' q' job' hq' hj'
      exact h.own p p' q₀ q₁ job job' hq₀ hq₁ hj₀ hj₁ hs
  | @enter p q variant hq hw ht hr =>
    refine ⟨?_, ?_, ?_, ?_⟩
    · rw [hw, List.pairwise_append]
      refine ⟨h.sorted, List.pairwise_singleton .., ?_⟩
      intro first hfirst second hsecond
      rw [List.mem_singleton.1 hsecond]
      exact h.below first hfirst
    · intro ticket hmem
      rw [hw, List.mem_append, List.mem_singleton] at hmem
      rw [ht]
      rcases hmem with hmem | rfl
      · exact Nat.lt_succ_of_lt (h.below ticket hmem)
      · exact Nat.lt_succ_self _
    · intro p₁ q₁ job hq₁ hj
      rw [hr, Table.get_set hq] at hq₁
      rw [hw, List.mem_append]
      rcases hq₁ with ⟨-, rfl⟩ | ⟨-, hq₁⟩
      · cases hj
        exact .inr (List.mem_singleton_self _)
      · exact .inl (h.queued p₁ q₁ job hq₁ hj)
    · intro p₁ p₂ q₁ q₂ job₁ job₂ hq₁ hq₂ hj₁ hj₂ hs
      rw [hr, Table.get_set hq] at hq₁ hq₂
      rcases hq₁ with ⟨rfl, rfl⟩ | ⟨-, hq₁⟩ <;> rcases hq₂ with ⟨rfl, rfl⟩ | ⟨-, hq₂⟩
      · rfl
      · have hlt := h.below _ (h.queued p₂ q₂ job₂ hq₂ hj₂)
        cases hj₁
        exact absurd hs (Nat.ne_of_gt hlt)
      · have hlt := h.below _ (h.queued p₁ q₁ job₁ hq₁ hj₁)
        cases hj₂
        exact absurd hs (Nat.ne_of_lt hlt)
      · exact h.own p₁ p₂ q₁ q₂ job₁ job₂ hq₁ hq₂ hj₁ hj₂ hs
  | @leave p q q' job hq hjob hw ht hr hq' =>
    have hold : ∀ (p₁ : ℕ) (q₁ : Request) (job₁ : Job), t.requests[p₁]? = some q₁ →
        q₁.job? = some job₁ →
        p₁ ≠ p ∧ s.requests[p₁]? = some q₁ := by
      intro p₁ q₁ job₁ hq₁ hj₁
      rw [hr, Table.get_set hq] at hq₁
      rcases hq₁ with ⟨-, rfl⟩ | hq₁
      · rw [hq'] at hj₁; cases hj₁
      · exact hq₁
    refine ⟨hw ▸ h.sorted.filter _, ?_, ?_, ?_⟩
    · intro ticket hmem
      rw [hw] at hmem
      rw [ht]
      exact h.below ticket (List.mem_of_mem_filter hmem)
    · intro p₁ q₁ job₁ hq₁ hj₁
      obtain ⟨hne, hq₀⟩ := hold p₁ q₁ job₁ hq₁ hj₁
      rw [hw, List.mem_filter]
      refine ⟨h.queued p₁ q₁ job₁ hq₀ hj₁, ?_⟩
      have hser : job₁.ticket.serial ≠ job.ticket.serial := fun hs =>
        hne (h.own p₁ p q₁ q job₁ job hq₀ hq hj₁ hjob hs)
      simpa using hser
    · intro p₁ p₂ q₁ q₂ job₁ job₂ hq₁ hq₂ hj₁ hj₂ hs
      exact h.own p₁ p₂ q₁ q₂ job₁ job₂ (hold p₁ q₁ job₁ hq₁ hj₁).2 (hold p₂ q₂ job₂ hq₂ hj₂).2
        hj₁ hj₂ hs

/-! ## Deadlines -/

/-- If the maximum wait is finite, so is every deadline. -/
theorem deadline_finite {ok : State → Act → Prop} (h : (scheduler cfg).Reach ok s)
    (hfinite : cfg.maxWaitSeconds ≠ ⊤) (p : ℕ) (q : Request) (job : Job)
    (hq : s.requests[p]? = some q) (hj : q.job? = some job) : job.deadline ≠ ⊤ := by
  refine invariant_reach (I := fun s => ∀ (p : ℕ) (q : Request) (job : Job),
    s.requests[p]? = some q → q.job? = some job → job.deadline ≠ ⊤) ?_ ?_ h p q job hq hj
  · intro now found _ p q job hq hj
    rcases (initial_requests hq).2 with rfl | ⟨model, rest, rfl⟩ <;> cases hj
  · intro s a t _ hs _ hstep p q job hq hj
    cases step_queue hstep with
    | same _ _ hjob =>
      rcases hjob p q hq with hnone | ⟨q₀, hq₀, hsame⟩
      · rw [hj] at hnone
        cases hnone
      · exact hs p q₀ job hq₀ (hsame.trans hj)
    | enter h₀ _ _ hr =>
      rw [hr, Table.get_set h₀] at hq
      rcases hq with ⟨-, rfl⟩ | ⟨-, hq⟩
      · cases hj
        exact WithTop.add_ne_top.2 ⟨WithTop.coe_ne_top, hfinite⟩
      · exact hs p q job hq hj
    | leave h₀ _ _ _ hr hnone =>
      rw [hr, Table.get_set h₀] at hq
      rcases hq with ⟨-, rfl⟩ | ⟨-, hq⟩
      · rw [hj] at hnone
        cases hnone
      · exact hs p q job hq hj

/-! ## The order of placement -/

/-- No earlier ticket waits for a different variant that conflicts. -/
def FirstInLine (s : State) (job : Job) : Prop :=
  ∀ other ∈ s.waiting, other.serial < job.ticket.serial → other.variant.id ≠ job.variant.id →
    claimsConflict other.variant job.variant = false

/-- The job of a request that has passed the check of `place`. -/
def Request.inLine? : Request → Option Job
  | placeLock job | judging job _ | observing job _ _ => some job
  | _ => none

theorem Request.job_of_inLine {q : Request} {job : Job} (h : q.inLine? = some job) :
    q.job? = some job := by
  cases q <;> first | exact h | cases h

/-- What every reachable state satisfies. -/
structure Ordered (s : State) : Prop extends Queue s where
  inLine : ∀ (p : ℕ) (q : Request) (job : Job), s.requests[p]? = some q → q.inLine? = some job →
    FirstInLine s job

/-- A request is past the check because it was already, or because it has just
    made it. -/
theorem step_inLine (hq : Queue s) (h : Step cfg s a t) {p : ℕ} {q : Request} {job : Job}
    (hp : t.requests[p]? = some q) (hj : q.inLine? = some job) :
    (∃ q₀ : Request, s.requests[p]? = some q₀ ∧ q₀.inLine? = some job) ∨
      (FirstInLine s job ∧ job.ticket ∈ s.waiting) := by
  cases step_job h hp (Request.job_of_inLine hj) with
  | same hp => exact .inl ⟨q, hp, hj⟩
  | head | busy => cases hj
  | idle h₀ _ _ heq =>
    subst heq
    exact .inl ⟨_, h₀, hj⟩
  | silent h₀ h =>
    cases h with
    | @inOrder job' before after ticket hsplit hser hfirst =>
      obtain rfl : job' = job := by simpa [Request.inLine?] using hj
      have hmem : job'.ticket ∈ s.waiting := hq.queued _ _ job' h₀ rfl
      have htick : ticket = job'.ticket := hq.ext (by simp [hsplit]) hmem hser
      refine .inr ⟨fun first hmem' hlt hne => ?_, hmem⟩
      have hsorted := hq.sorted
      rw [hsplit, List.pairwise_append] at hsorted
      rw [hsplit, List.mem_append] at hmem'
      rcases hmem' with hbefore | hafter
      · exact hfirst first hbefore hne
      · -- the tickets from this one on arrived no earlier
        rcases List.mem_cons.1 hafter with rfl | hafter
        · omega
        · have := (List.pairwise_cons.1 hsorted.2.1).1 first hafter
          omega
    | list | ask => exact .inl ⟨_, h₀, hj⟩
    | unknown | recheck | clean | survey | unfit | noTicket | block | again | sleep | wake
    | cancelled => cases hj

/-- The earlier tickets only become fewer. -/
theorem FirstInLine.step {job : Job} (hq : Queue s) (hqs : QueueStep cfg s t)
    (hmem : job.ticket ∈ s.waiting) (h : FirstInLine s job) : FirstInLine t job := by
  intro other hother hlt hne
  cases hqs with
  | same hw => exact h other (hw ▸ hother) hlt hne
  | enter _ hw =>
    rw [hw, List.mem_append, List.mem_singleton] at hother
    rcases hother with hother | rfl
    · exact h other hother hlt hne
    · have := hq.below _ hmem
      exact absurd hlt (by simp; omega)
  | leave _ _ hw =>
    rw [hw] at hother
    exact h other (List.mem_of_mem_filter hother) hlt hne

theorem ordered_step (h : Ordered s) (hstep : Step cfg s a t) : Ordered t := by
  have hqs := step_queue hstep
  refine ⟨hqs.queue h.toQueue, fun p q job hp hj => ?_⟩
  rcases step_inLine h.toQueue hstep hp hj with ⟨q₀, hp₀, hj₀⟩ | ⟨hfirst, hmem⟩
  · have hmem := h.queued p q₀ job hp₀ (Request.job_of_inLine hj₀)
    exact (h.inLine p q₀ job hp₀ hj₀).step h.toQueue hqs hmem
  · exact hfirst.step h.toQueue hqs hmem

theorem ordered_initial (now : ℚ) (found : Survey) : Ordered (initial now found) := by
  have hnone : ∀ (p : ℕ) (q : Request), (initial now found).requests[p]? = some q →
      q.job? = none := by
    intro p q hp
    rcases (initial_requests hp).2 with rfl | ⟨model, rest, rfl⟩ <;> rfl
  have hwait := initial_waiting now found
  refine ⟨⟨?_, ?_, ?_, ?_⟩, ?_⟩
  · rw [hwait]; exact .nil
  · rw [hwait]; simp
  · intro p q job hp hj
    rw [hnone p q hp] at hj
    cases hj
  · intro p p' q q' job job' hp hp' hj
    rw [hnone p q hp] at hj
    cases hj
  · intro p q job hp hj
    have hj' := Request.job_of_inLine hj
    rw [hnone p q hp] at hj'
    cases hj'

/-- In every run, tickets and their order are kept. -/
theorem ordered {ok : State → Act → Prop} (h : (scheduler cfg).Reach ok s) : Ordered s := by
  refine invariant_reach ?_ ?_ h
  · intro now found _
    exact ordered_initial now found
  · intro s a t _ hs _ hstep
    exact ordered_step hs hstep

/-- When `place` starts loading a ticket's variant, no ticket that arrived
    earlier and is still waiting is for a different variant whose claims
    conflict with it. -/
theorem placed_in_arrival_order {p : ℕ} {job : Job} {victims : List Ref}
    (h : (scheduler cfg).Free s) (hd : s.decision p = some (job, victims)) :
    ∀ other ∈ s.waiting, other.serial < job.ticket.serial →
      other.variant.id ≠ job.variant.id →
      claimsConflict other.variant job.variant = false := by
  obtain ⟨look, hq, -⟩ := decision_eq_some.1 hd
  exact (ordered h).inLine p _ job hq rfl

/-- One llama.cpp router and a model for each of two cards. -/
def twoCards : Config :=
  .ofVariants oneRouter
    [.claiming "llama" "a--cuda0" ["GPU0"], .claiming "llama" "b--cuda1" ["GPU1"]] (by decide)
    (by decide) 0 30

/-- A request for one card is placed while an earlier one for the other card
    waits. -/
theorem placed_in_arrival_order_twoCards :
    ∃ s p job victims, (scheduler twoCards).Free s ∧ s.decision p = some (job, victims) ∧
      s.waiting.length = 2 ∧ ∀ other ∈ s.waiting, other.serial < job.ticket.serial →
        other.variant.id ≠ job.variant.id →
        claimsConflict other.variant job.variant = false := by
  obtain ⟨s, hs, hP⟩ := reach_run twoCards (fun _ _ => true) 0 nothingLoaded
    [.arrive "b--cuda1", .arrive "a--cuda0", .resume 1, .resume 2, .resume 2, .resume 2]
    (fun s => (s.decision 2).isSome && s.waiting.length = 2) (by decide)
  simp only [Bool.and_eq_true, decide_eq_true_eq] at hP
  obtain ⟨⟨job, victims⟩, hd⟩ := Option.isSome_iff_exists.1 hP.1
  exact ⟨s, 2, job, victims, hs.free, hd, hP.2, placed_in_arrival_order hs.free hd⟩

end ModelBroker
