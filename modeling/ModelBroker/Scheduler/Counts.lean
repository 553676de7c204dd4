import ModelBroker.Scheduler.Order
import ModelBroker.Scheduler.Refs

/-!
# What `active` and `queued` count

`active` is the number of requests admitted to a record and not yet released,
`queued` the number of requests that wait in `join`, and every ticket in
`waiting` is that of a request that is still to be placed. What the source does
in a `finally` is one step with the outcome: the `notify()` after it changes
nothing, so a cancellation there does not either.

* `counted`: the counts are right in every run.
* `held`: no ticket is left behind.
* `admissions_counted`: both, and what follows for a request that has ended.
-/

namespace ModelBroker

variable {cfg : Config} {s t : State} {a : Act} {r : Ref}

/-- What the counts of a reachable state are. -/
structure Counted (s : State) : Prop where
  active : ∀ r < s.next, (s.heap r).active = s.requests.countP (Request.admittedTo r)
  queued : ∀ r < s.next, (s.heap r).queued = s.requests.countP (Request.joins r)

theorem Request.admittedTo_iff {q : Request} : q.admittedTo r = true ↔ q = .admitted r := by
  cases q <;> simp [Request.admittedTo]

theorem Request.joins_iff {q : Request} : q.joins r = true ↔ q = .joining r := by
  cases q <;> simp [Request.joins]

/-- How the counts of one record change in one step. -/
inductive CountStep (s t : State) (r : Ref) : Prop
  | same (ht : t.requests = s.requests ∨ ∃ id, t.requests = s.requests ++ [.arrived id])
      (hactive : (t.heap r).active = (s.heap r).active)
      (hqueued : (t.heap r).queued = (s.heap r).queued)
  | move {p : ℕ} {q q' : Request} (hq : s.requests[p]? = some q)
      (ht : t.requests = s.requests.set p q')
      (hactive : (t.heap r).active =
        (s.heap r).active - (q.admittedTo r).toNat + (q'.admittedTo r).toNat)
      (hqueued : (t.heap r).queued =
        (s.heap r).queued - (q.joins r).toNat + (q'.joins r).toNat)

/-- The request holds no count, neither before its step nor after it. -/
def Request.Idle (q : Request) : Prop := ∀ r, q.admittedTo r = false ∧ q.joins r = false

theorem Request.idle_of_job {q : Request} {job : Job} (h : q.job? = some job) : q.Idle := by
  cases q <;> first | exact fun r => ⟨rfl, rfl⟩ | cases h

theorem Surveys.idle {p : ℕ} {q : Request} {variant : Variant} {next : Survey ⊕ Inspection}
    (h : Surveys cfg s p a q variant next) : q.Idle := by
  cases h <;> exact fun r => ⟨rfl, rfl⟩

theorem TrackTo.idle {heap : Ref → LoadedModel} {after : Option Variant}
    {models pending : List Ref} {q : Request} (h : TrackTo heap after models pending q) :
    q.Idle := by
  rcases h.shape with rfl | ⟨model, rest, rfl⟩
  · cases after <;> exact fun r => ⟨rfl, rfl⟩
  · exact fun r => ⟨rfl, rfl⟩

theorem Silent.idle {p : ℕ} {q q' : Request} (h : Silent cfg s p a q q') : q.Idle ∧ q'.Idle := by
  cases h with
  | survey h => exact ⟨h.idle, fun r => ⟨rfl, rfl⟩⟩
  | block hjob _ => exact ⟨Request.idle_of_job hjob, fun r => ⟨rfl, rfl⟩⟩
  | cancelled _ _ hj had => exact ⟨fun r => ⟨had r, hj r⟩, fun r => ⟨rfl, rfl⟩⟩
  | unknown | recheck | clean | unfit | noTicket | inOrder | list | ask | again | sleep | wake =>
    exact ⟨fun r => ⟨rfl, rfl⟩, fun r => ⟨rfl, rfl⟩⟩

/-- A step of a request that holds no count. -/
theorem CountStep.of_idle {p : ℕ} {q q' : Request} (hq : s.requests[p]? = some q)
    (hidle : q.Idle) (hidle' : q'.Idle) (ht : t.requests = s.requests.set p q')
    (hactive : (t.heap r).active = (s.heap r).active)
    (hqueued : (t.heap r).queued = (s.heap r).queued) : CountStep s t r := by
  refine .move hq ht ?_ ?_
  · rw [hactive, (hidle r).1, (hidle' r).1]; rfl
  · rw [hqueued, (hidle r).2, (hidle' r).2]; rfl

/-- An edit that leaves the two counts alone. -/
theorem edit_counts (s : State) (r model : Ref) (f : LoadedModel → LoadedModel)
    (hf : ∀ m, (f m).active = m.active ∧ (f m).queued = m.queued) :
    ((s.edit [model] f).heap r).active = (s.heap r).active ∧
      ((s.edit [model] f).heap r).queued = (s.heap r).queued := by
  rw [State.edit_heap]
  split_ifs
  · exact hf _
  · exact ⟨rfl, rfl⟩

theorem step_counts (h : Step cfg s a t) (hr : r < s.next) : CountStep s t r := by
  have plain : ∀ {q : Request} {job : Job}, q.job? = some job → q.Idle := Request.idle_of_job
  cases h with
  | tick => exact .same (.inl rfl) rfl rfl
  | arrive => exact .same (.inr ⟨_, rfl⟩) rfl rfl
  | silent hq h => exact .of_idle hq h.idle.1 h.idle.2 rfl rfl rfl
  | enter hq hfrom =>
    refine .of_idle hq ?_ (plain rfl) rfl rfl rfl
    rcases hfrom with rfl | ⟨id, rfl, -⟩ <;> exact fun r => ⟨rfl, rfl⟩
  | install hq h hto =>
    refine .of_idle hq h.idle hto.idle rfl ?_ ?_ <;> simp [adopt_of_lt hr]
  | @baseline _ _ model _ _ _ answer hq hto =>
    have hedit := edit_counts s r model (fun m => m.withBaseline answer) fun m => by
      cases answer <;> exact ⟨rfl, rfl⟩
    exact .of_idle hq (fun r => ⟨rfl, rfl⟩) hto.idle rfl hedit.1 hedit.2
  | @join _ _ r' hq | @queue _ _ r' hq =>
    have hcomm : r = r' ↔ r' = r := eq_comm
    refine .move hq rfl ?_ ?_ <;> by_cases hm : r' = r <;>
      simp [hcomm, hm, Request.admittedTo, Request.joins]
  | quit hq hjob => exact .of_idle hq (plain hjob) (fun r => ⟨rfl, rfl⟩) rfl rfl rfl
  | @busy _ _ _ model activity _ hq | @idle _ _ _ model activity hq =>
    have hedit := edit_counts s r model (fun m => m.observed s.now activity) fun m => ⟨rfl, rfl⟩
    exact .of_idle hq (plain rfl) (plain rfl) rfl hedit.1 hedit.2
  | commit hq =>
    have hne : s.next ≠ r := Nat.ne_of_gt hr
    refine .move hq rfl ?_ ?_ <;> rw [committed_of_lt hr] <;>
      simp [Request.admittedTo, Request.joins, hne] <;> split_ifs <;> rfl
  | @joined _ r' hq | @unjoin _ _ r' _ hq | @release _ _ r' _ hq =>
    have hcomm : r = r' ↔ r' = r := eq_comm
    refine .move hq rfl ?_ ?_ <;> by_cases hm : r' = r <;>
      simp [hcomm, hm, Request.admittedTo, Request.joins]
  | task | unloaded | crash => exact .same (.inl rfl) rfl rfl
  | unloadFailed | crashFailed | loadFailed | dropped | gone | unsure =>
    refine .same (.inl rfl) ?_ ?_ <;>
      simp only [State.setTask_heap, State.edit_heap, State.delete_heap, State.report_heap] <;>
      split_ifs <;> rfl
  | @baselined _ model loader answer =>
    have hedit := edit_counts s r model
      (fun m => (m.withBaseline answer).settled s.now loader) fun m => by
        cases answer <;> exact ⟨rfl, rfl⟩
    exact .same (.inl rfl) hedit.1 hedit.2

/-- Nobody refers to a record that does not exist yet. -/
theorem Refs.no_counts (h : Refs cfg s) (hr : s.next ≤ r) :
    s.requests.countP (Request.admittedTo r) = 0 ∧ s.requests.countP (Request.joins r) = 0 := by
  have hnone : ∀ (p : ℕ) (q : Request), s.requests[p]? = some q → r ∉ q.refs := by
    intro p q hq hmem
    exact Nat.not_lt.2 hr (h.request p q hq r hmem)
  constructor
  · refine Table.countP_eq_zero.2 fun p q hq => ?_
    have hq' := hnone p q hq
    cases q <;> simp_all [Request.admittedTo, Request.refs, eq_comm]
  · refine Table.countP_eq_zero.2 fun p q hq => ?_
    have hq' := hnone p q hq
    cases q <;> simp_all [Request.joins, Request.refs, eq_comm]

/-- A count changes as the field that keeps it. -/
theorem countP_step {p : ℕ} {q q' : Request} {has : Request → Bool} {n n' : ℕ}
    (hq : s.requests[p]? = some q) (ht : t.requests = s.requests.set p q')
    (hn : n = s.requests.countP has) (hn' : n' = n - (has q).toNat + (has q').toNat) :
    n' = t.requests.countP has := by
  have hset := @Table.countP_set _ has _ p _ q' hq
  have hbit : ∀ b : Bool, (if b = true then 1 else 0) = b.toNat := by decide
  rw [hbit, hbit] at hset
  have hpos : (has q).toNat ≤ s.requests.countP has := by
    cases h : has q with
    | false => exact Nat.zero_le _
    | true => exact Table.countP_pos hq h
  rw [ht, hn', hn]
  omega

theorem counted_step (hrefs : Refs cfg s) (h : Counted s) (hstep : Step cfg s a t) : Counted t := by
  -- a record that exists before the step
  have old : ∀ r < s.next, (t.heap r).active = t.requests.countP (Request.admittedTo r) ∧
      (t.heap r).queued = t.requests.countP (Request.joins r) := by
    intro r hr
    cases step_counts hstep hr with
    | same ht hactive hqueued =>
      rw [hactive, hqueued, h.active r hr, h.queued r hr]
      rcases ht with ht | ⟨id, ht⟩
      · rw [ht]; exact ⟨rfl, rfl⟩
      · rw [ht, List.countP_append, List.countP_append]; exact ⟨rfl, rfl⟩
    | move hq ht hactive hqueued =>
      exact ⟨countP_step hq ht (h.active r hr) hactive, countP_step hq ht (h.queued r hr) hqueued⟩
  have new : ∀ r, s.next ≤ r → r < t.next →
      (t.heap r).active = t.requests.countP (Request.admittedTo r) ∧
        (t.heap r).queued = t.requests.countP (Request.joins r) := by
    intro r hr hlt
    obtain ⟨hadmitted, hjoins⟩ := hrefs.no_counts hr
    cases hstep with
    | @install p _ q q' variant found pending hq hs hto =>
      obtain ⟨id, hid⟩ := adopt_of_ge hr hlt
      obtain ⟨model, hm⟩ := adoptedRefs_isSome.1 ⟨r, hid⟩
      have hfresh := (hrefs.complete hq hs).fresh id model hm
      have hheap : adopt s found r = model := adopt_of_ref hid hm
      refine ⟨countP_step hq rfl hadmitted.symm ?_, countP_step hq rfl hjoins.symm ?_⟩
      · rw [(hs.idle r).1, (hto.idle r).1]
        show (adopt s found r).active = _
        rw [hheap, hfresh.active]
        rfl
      · rw [(hs.idle r).2, (hto.idle r).2]
        show (adopt s found r).queued = _
        rw [hheap, hfresh.queued]
        rfl
    | @commit p job look hq =>
      obtain rfl : r = s.next := Nat.le_antisymm (Nat.le_of_lt_succ hlt) hr
      refine ⟨countP_step hq rfl hadmitted.symm ?_, countP_step hq rfl hjoins.symm ?_⟩ <;>
        simp [committed, newModel, Request.admittedTo, Request.joins]
    | tick | arrive | silent | enter | baseline | join | queue | quit | busy | idle | joined | unjoin
    | release | task | unloaded | crash | unloadFailed | crashFailed | loadFailed | dropped | gone
    | unsure | baselined => exact absurd hlt (Nat.not_lt.2 hr)
  constructor
  · intro r hr
    rcases Nat.lt_or_ge r s.next with hlt | hge
    · exact (old r hlt).1
    · exact (new r hge hr).1
  · intro r hr
    rcases Nat.lt_or_ge r s.next with hlt | hge
    · exact (old r hlt).2
    · exact (new r hge hr).2

/-- The records of the first survey are fresh. -/
theorem initial_fresh {now : ℚ} {found : Survey} (hf : found.Complete cfg) {r : Ref}
    (hr : r < (initial now found).next) : ((initial now found).heap r).Fresh := by
  obtain ⟨pending, q, -, heq⟩ := initial_cases now found
  have hr' : r < (blank now).next + found.loaded.entries.length := by
    rw [heq] at hr
    exact Nat.lt_of_lt_of_eq hr (Nat.zero_add _).symm
  obtain ⟨id, hid⟩ := adopt_of_ge (Nat.zero_le r) hr'
  obtain ⟨model, hm⟩ := adoptedRefs_isSome.1 ⟨r, hid⟩
  rw [heq]
  show (adopt (blank now) found r).Fresh
  rw [adopt_of_ref hid hm]
  exact hf.fresh id model hm

/-- At first nobody refers to a record. -/
theorem counted_initial {now : ℚ} {found : Survey} (hf : found.Complete cfg) :
    Counted (initial now found) := by
  have hzero : ∀ r, (initial now found).requests.countP (Request.admittedTo r) = 0 ∧
      (initial now found).requests.countP (Request.joins r) = 0 := by
    intro r
    constructor <;> refine Table.countP_eq_zero.2 fun p q hp => ?_ <;>
      rcases (initial_requests hp).2 with rfl | ⟨model, rest, rfl⟩ <;> rfl
  constructor
  · intro r hr
    rw [(initial_fresh hf hr).active, (hzero r).1]
  · intro r hr
    rw [(initial_fresh hf hr).queued, (hzero r).2]

/-- The counts are right in every run. -/
theorem counted {ok : State → Act → Prop} (h : (scheduler cfg).Reach ok s) : Counted s := by
  refine invariant_reach ?_ ?_ h
  · intro now found hf
    exact counted_initial hf
  · intro s a t hs hcount _ hstep
    exact counted_step (refs hs) hcount hstep

/-! ## Every ticket is somebody's -/

/-- The request is between the creation of its ticket and its removal. -/
def State.Holds (s : State) (p : ℕ) (ticket : Ticket) : Prop :=
  ∃ (q : Request) (job : Job), s.requests[p]? = some q ∧ q.job? = some job ∧ job.ticket = ticket

theorem Surveys.job {p : ℕ} {q : Request} {variant : Variant} {next : Survey ⊕ Inspection}
    (h : Surveys cfg s p a q variant next) : q.job? = none := by
  cases h <;> rfl

/-- A request keeps its ticket, or the ticket does not wait any more. -/
theorem State.Holds.step {p : ℕ} {ticket : Ticket} (h : s.Holds p ticket)
    (hstep : Step cfg s a t) : t.Holds p ticket ∨ ticket ∉ t.waiting := by
  obtain ⟨q, job, hp, hj, rfl⟩ := h
  have forward := @Table.forward Request (fun q => q.job? = some job) (job.ticket ∉ t.waiting)
  have key : (∃ q', t.requests[p]? = some q' ∧ q'.job? = some job) ∨ job.ticket ∉ t.waiting := by
    cases hstep with
    | arrive => exact .inl ⟨q, Table.get_of_append hp, hj⟩
    | silent h₀ hsil =>
      refine forward h₀ rfl hp hj fun hjob => ?_
      cases hsil with
      | @noTicket job' hout =>
        obtain rfl : job' = job := Option.some.inj hjob
        exact .inr fun hmem => hout _ hmem rfl
      | inOrder | list | ask | again | sleep | wake => exact .inl hjob
      | block hjob' _ => exact .inl (hjob'.symm.trans hjob)
      | cancelled hq => rw [hq] at hjob; cases hjob
      | survey hs => rw [hs.job] at hjob; cases hjob
      | unknown | recheck | clean | unfit => cases hjob
    | enter h₀ hfrom =>
      refine forward h₀ rfl hp hj fun hjob => ?_
      rcases hfrom with rfl | ⟨id, rfl, -⟩ <;> cases hjob
    | install h₀ hs => exact forward h₀ rfl hp hj fun hjob => by rw [hs.job] at hjob; cases hjob
    | busy h₀ | idle h₀ => exact forward h₀ rfl hp hj fun hjob => .inl hjob
    | quit h₀ hjob' =>
      refine forward h₀ rfl hp hj fun hjob => .inr ?_
      obtain rfl := Option.some.inj (hjob'.symm.trans hjob)
      simp
    | join h₀ | queue h₀ | commit h₀ =>
      refine forward h₀ rfl hp hj fun hjob => .inr ?_
      obtain rfl := Option.some.inj hjob
      simp [committed]
    | baseline h₀ | joined h₀ | unjoin h₀ | release h₀ =>
      exact forward h₀ rfl hp hj fun hjob => by cases hjob
    | tick | task | unloaded | crash | unloadFailed | crashFailed | loadFailed | dropped | gone
    | unsure | baselined => exact .inl ⟨q, hp, hj⟩
  rcases key with ⟨q', hq', hj'⟩ | hgone
  · exact .inl ⟨q', job, hq', hj', rfl⟩
  · exact .inr hgone

/-- Whoever has an old ticket had it before. -/
theorem State.Holds.origin {p : ℕ} {ticket : Ticket} (hstep : Step cfg s a t)
    (h : t.Holds p ticket) : s.Holds p ticket ∨ ticket.serial = s.tickets := by
  obtain ⟨q, job, hp, hj, rfl⟩ := h
  cases step_queue hstep with
  | same _ _ hjob =>
    rcases hjob p q hp with hnone | ⟨q₀, hp₀, hj₀⟩
    · rw [hj] at hnone; cases hnone
    · exact .inl ⟨q₀, job, hp₀, hj₀.trans hj, rfl⟩
  | enter h₀ _ _ hr =>
    rw [hr, Table.get_set h₀] at hp
    rcases hp with ⟨-, rfl⟩ | ⟨-, hp⟩
    · cases hj
      exact .inr rfl
    · exact .inl ⟨q, job, hp, hj, rfl⟩
  | leave h₀ _ _ _ hr hnone =>
    rw [hr, Table.get_set h₀] at hp
    rcases hp with ⟨-, rfl⟩ | ⟨-, hp⟩
    · rw [hj] at hnone; cases hnone
    · exact .inl ⟨q, job, hp, hj, rfl⟩

theorem held_step (h : ∀ ticket ∈ s.waiting, ∃ p, s.Holds p ticket) (hstep : Step cfg s a t) :
    ∀ ticket ∈ t.waiting, ∃ p, t.Holds p ticket := by
  intro ticket hmem
  have old : ticket ∈ s.waiting → ∃ p, t.Holds p ticket := by
    intro hold
    obtain ⟨p, hp⟩ := h ticket hold
    exact ⟨p, (hp.step hstep).resolve_right fun hout => hout hmem⟩
  cases step_queue hstep with
  | same hw => exact old (hw ▸ hmem)
  | @enter p q variant h₀ hw ht hr =>
    rw [hw, List.mem_append, List.mem_singleton] at hmem
    rcases hmem with hold | rfl
    · exact old hold
    · exact ⟨p, _, _, by rw [hr]; exact Table.get_set_self h₀, rfl, rfl⟩
  | leave _ _ hw =>
    rw [hw] at hmem
    exact old (List.mem_of_mem_filter hmem)

/-- Every ticket that waits is that of a request which is still to be placed. -/
theorem held {ok : State → Act → Prop} (h : (scheduler cfg).Reach ok s) :
    ∀ ticket ∈ s.waiting, ∃ p, s.Holds p ticket := by
  refine invariant_reach (I := fun s => ∀ ticket ∈ s.waiting, ∃ p, s.Holds p ticket) ?_ ?_ h
  · intro now found _ ticket hmem
    rw [initial_waiting] at hmem
    cases hmem
  · intro s a t _ hs _ hstep
    exact held_step hs hstep

/-- Nobody else ever has the ticket of a request. -/
theorem holds_later (h : (scheduler cfg).Free s) {p : ℕ} {ticket : Ticket} (hp : s.Holds p ticket)
    (ht : ((scheduler cfg).startingIn fun s' => s' = s).Free t) {p' : ℕ}
    (hp' : t.Holds p' ticket) : p' = p := by
  have key : ticket.serial < t.tickets ∧ ∀ p', t.Holds p' ticket → p' = p := by
    refine ht.invariant (I := fun t => ticket.serial < t.tickets ∧
      ∀ p', t.Holds p' ticket → p' = p) ?_ ?_
    · rintro _ rfl
      have hqueue := (ordered h).toQueue
      obtain ⟨q, job, hq, hj, rfl⟩ := hp
      refine ⟨hqueue.below _ (hqueue.queued p q job hq hj), ?_⟩
      rintro p' ⟨q', job', hq', hj', heq⟩
      exact hqueue.own p' p q' q job' job hq' hq hj' hj (congrArg Ticket.serial heq)
    · intro u a v _ hu _ hstep
      have hstep := step_cases hstep
      constructor
      · cases step_queue hstep with
        | same _ htickets | leave _ _ _ htickets => rw [htickets]; exact hu.1
        | enter _ _ htickets => rw [htickets]; exact Nat.lt_succ_of_lt hu.1
      · intro p' hv
        rcases hv.origin hstep with hold | hnew
        · exact hu.2 p' hold
        · exact absurd hu.1 (by rw [hnew]; exact Nat.lt_irrefl _)
  exact key.2 p' hp'

/-- Admissions are counted exactly: in every run `active` is the number of
    requests that are admitted to a record and `queued` the number of those that
    wait for it in `join`; a request that has ended has left no ticket; and when
    all have ended there is none at all, and every count is 0. -/
theorem admissions_counted (h : (scheduler cfg).Free s) :
    (∀ r < s.next, (s.heap r).active = s.requests.countP (Request.admittedTo r) ∧
      (s.heap r).queued = s.requests.countP (Request.joins r)) ∧
    (∀ ticket ∈ s.waiting, ∃! p, s.Holds p ticket) ∧
    (∀ (t : State) (p : ℕ) (ticket : Ticket) (outcome : Outcome), s.Holds p ticket →
      ((scheduler cfg).startingIn fun s' => s' = s).Free t →
      t.requests[p]? = some (.finished outcome) → ticket ∉ t.waiting) ∧
    ((∀ (p : ℕ) (q : Request), s.requests[p]? = some q → ∃ outcome, q = .finished outcome) →
      s.waiting = [] ∧ ∀ r < s.next, (s.heap r).active = 0 ∧ (s.heap r).queued = 0) := by
  have hcount := counted h
  have hheld := held h
  refine ⟨fun r hr => ⟨hcount.active r hr, hcount.queued r hr⟩, ?_, ?_, ?_⟩
  · intro ticket hmem
    obtain ⟨p, hp⟩ := hheld ticket hmem
    exact ⟨p, hp, fun p' hp' => holds_later h hp (.init rfl) hp'⟩
  · intro t p ticket outcome hp ht hfinished hmem
    have hfree : (scheduler cfg).Free t := ht.of_startingIn fun s' heq => heq ▸ h
    obtain ⟨p', hp'⟩ := held hfree ticket hmem
    obtain rfl := holds_later h hp ht hp'
    obtain ⟨q, job, hq, hj, -⟩ := hp'
    rw [hfinished] at hq
    obtain rfl := Option.some.inj hq
    cases hj
  · intro hended
    constructor
    · refine List.eq_nil_iff_forall_not_mem.2 fun ticket hmem => ?_
      obtain ⟨p, q, job, hq, hj, -⟩ := hheld ticket hmem
      obtain ⟨outcome, rfl⟩ := hended p q hq
      cases hj
    · intro r hr
      rw [hcount.active r hr, hcount.queued r hr]
      constructor <;> refine Table.countP_eq_zero.2 fun p q hq => ?_ <;>
        obtain ⟨outcome, rfl⟩ := hended p q hq <;> rfl

/-- A request is admitted to a model while another one waits for the other card. -/
theorem admissions_counted_twoCards :
    ∃ s, (scheduler twoCards).Free s ∧ s.requests.countP (Request.admittedTo 0) = 1 ∧
      (s.heap 0).active = s.requests.countP (Request.admittedTo 0) ∧
      s.waiting.length = 1 ∧ ∀ ticket ∈ s.waiting, ∃! p, s.Holds p ticket := by
  obtain ⟨s, hs, hP⟩ := reach_run twoCards (fun _ _ => true) 0 nothingLoaded
    [.arrive "a--cuda0", .resume 1, .resume 1, .resume 1, .resume 1, .run 0, .call 0 (.ok ()),
      .taskActivity 0 (.ok ⟨false, 0, 0⟩), .resume 1, .arrive "b--cuda1", .resume 2]
    (fun s => s.requests.countP (Request.admittedTo 0) = 1 && 0 < s.next && s.waiting.length = 1)
    (by decide +kernel)
  simp only [Bool.and_eq_true, decide_eq_true_eq] at hP
  obtain ⟨⟨hone, hlt⟩, hwaiting⟩ := hP
  obtain ⟨hcount, hheld, -⟩ := admissions_counted hs.free
  exact ⟨s, hs.free, hone, (hcount 0 hlt).1, hwaiting, hheld⟩

end ModelBroker
