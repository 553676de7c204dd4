import ModelBroker.Scheduler.Counts
import ModelBroker.Scheduler.Protection
import ModelBroker.Scheduler.Tracking

/-!
# Admissions

A request is admitted to a record in `join`, with no lock, and possibly some
steps after its model has become ready.

* `step_admitted`, `step_joining`: how a request comes to be admitted, or queued.
* `admitted_sound`: in every run, a request is admitted only to a model that is
  ready and has not failed.
* `quiet`: in every run, nobody uses or waits for the victim of a live swap.
* `flow`: in a run without a re-inspection, an admitted request's record stays
  in `loaded` and does not become a victim.
-/

namespace ModelBroker

variable {cfg : Config} {s t : State} {a : Act} {r : Ref}

/-! ## How requests join -/

theorem step_admitted (h : Step cfg s a t) {p : ℕ} (hp : t.requests[p]? = some (.admitted r)) :
    s.requests[p]? = some (.admitted r) ∨
      ((∃ id, s.recorded id = some r) ∧ (s.heap r).leaving = false ∧ (s.heap r).ready = true ∧
        (s.heap r).error = none ∧ t.view = s.view ∧ (t.heap r).leaving = false) ∨
      (s.requests[p]? = some (.joining r) ∧ (s.heap r).ready = true ∧ (s.heap r).error = none) := by
  cases h with
  | arrive =>
    rcases Table.get_push.1 hp with ⟨-, heq⟩ | hp
    · cases heq
    · exact .inl hp
  | silent h₀ hsil =>
    rcases (Table.get_set h₀).1 hp with ⟨-, heq⟩ | ⟨-, hp⟩
    · cases hsil <;> cases heq
    · exact .inl hp
  | join h₀ hrec hleaving hready herror =>
    rcases (Table.get_set h₀).1 hp with ⟨-, heq⟩ | ⟨-, hp⟩
    · cases heq
      exact .inr (.inl ⟨⟨_, hrec⟩, hleaving, hready, herror, rfl, by simp [hleaving]⟩)
    · exact .inl hp
  | joined h₀ hready herror =>
    rcases (Table.get_set h₀).1 hp with ⟨rfl, heq⟩ | ⟨-, hp⟩
    · cases heq
      exact .inr (.inr ⟨h₀, hready, herror⟩)
    · exact .inl hp
  | install h₀ _ hto | @baseline _ after _ _ _ _ _ h₀ hto =>
    rcases (Table.get_set h₀).1 hp with ⟨-, heq⟩ | ⟨-, hp⟩
    · have hidle := (hto.idle r).1
      rw [← heq] at hidle
      simp [Request.admittedTo] at hidle
    · exact .inl hp
  | enter h₀ | queue h₀ | quit h₀ | busy h₀ | idle h₀ | commit h₀ | unjoin h₀ | release h₀ =>
    rcases (Table.get_set h₀).1 hp with ⟨-, heq⟩ | ⟨-, hp⟩
    · cases heq
    · exact .inl hp
  | tick | task | unloaded | crash | unloadFailed | crashFailed | loadFailed | dropped | gone
  | unsure | baselined => exact .inl hp

theorem step_joining (h : Step cfg s a t) {p : ℕ} (hp : t.requests[p]? = some (.joining r)) :
    s.requests[p]? = some (.joining r) ∨
      ((∃ id, s.recorded id = some r) ∧ (s.heap r).leaving = false ∧ t.view = s.view ∧
        (t.heap r).leaving = false) ∨
      ∃ job victims, s.decision p = some (job, victims) ∧ t = committed s p job victims ∧
        r = s.next := by
  cases h with
  | arrive =>
    rcases Table.get_push.1 hp with ⟨-, heq⟩ | hp
    · cases heq
    · exact .inl hp
  | silent h₀ hsil =>
    rcases (Table.get_set h₀).1 hp with ⟨-, heq⟩ | ⟨-, hp⟩
    · cases hsil <;> cases heq
    · exact .inl hp
  | queue h₀ hrec hleaving =>
    rcases (Table.get_set h₀).1 hp with ⟨-, heq⟩ | ⟨-, hp⟩
    · cases heq
      exact .inr (.inl ⟨⟨_, hrec⟩, hleaving, rfl, by simp [hleaving]⟩)
    · exact .inl hp
  | @commit p₀ job look h₀ hrest hreason hidle =>
    rcases (Table.get_set h₀).1 hp with ⟨rfl, heq⟩ | ⟨-, hp⟩
    · cases heq
      have hd := decision_eq_some.2 ⟨look, h₀, hrest, hreason, hidle, rfl⟩
      exact .inr (.inr ⟨job, look.seen, hd, rfl, rfl⟩)
    · exact .inl hp
  | install h₀ _ hto | @baseline _ after _ _ _ _ _ h₀ hto =>
    rcases (Table.get_set h₀).1 hp with ⟨-, heq⟩ | ⟨-, hp⟩
    · have hidle := (hto.idle r).2
      rw [← heq] at hidle
      simp [Request.joins] at hidle
    · exact .inl hp
  | enter h₀ | join h₀ | quit h₀ | busy h₀ | idle h₀ | joined h₀ | unjoin h₀ | release h₀ =>
    rcases (Table.get_set h₀).1 hp with ⟨-, heq⟩ | ⟨-, hp⟩
    · cases heq
    · exact .inl hp
  | tick | task | unloaded | crash | unloadFailed | crashFailed | loadFailed | dropped | gone
  | unsure | baselined => exact .inl hp

/-! ## In every run -/

theorem Refs.admitted_lt (h : Refs cfg s) {p : ℕ} (hp : s.requests[p]? = some (.admitted r)) :
    r < s.next := h.request p _ hp r (List.mem_singleton_self r)

theorem Refs.joining_lt (h : Refs cfg s) {p : ℕ} (hp : s.requests[p]? = some (.joining r)) :
    r < s.next := h.request p _ hp r (List.mem_singleton_self r)

/-- A model to which a request is admitted is ready and has not failed. -/
def AdmittedSound (s : State) : Prop :=
  ∀ (p : ℕ) (r : Ref), s.requests[p]? = some (.admitted r) →
    (s.heap r).ready = true ∧ (s.heap r).error = none

/-- What a ready record is stays so: nobody owns it. -/
theorem Inv.error_of_ready (hinv : Inv cfg s) (hstep : Step cfg s a t) (hr : r < s.next)
    (hready : (s.heap r).ready = true) : (t.heap r).error = (s.heap r).error := by
  rcases step_error hstep hr with hsame | ⟨-, i, k, hk, ho⟩
  · exact hsame
  · rw [hinv.owners.unready i k r hk ho] at hready
    cases hready

theorem admittedSound_step (hinv : Inv cfg s) (h : AdmittedSound s) (hstep : Step cfg s a t) :
    AdmittedSound t := by
  intro p r hp
  have hlt : r < s.next ∧ (s.heap r).ready = true ∧ (s.heap r).error = none := by
    rcases step_admitted hstep hp with hp₀ | ⟨⟨id, hid⟩, -, hready, herror, -⟩ |
      ⟨hp₀, hready, herror⟩
    · exact ⟨hinv.refs.admitted_lt hp₀, h p r hp₀⟩
    · exact ⟨(hinv.refs.keyed id r hid).1, hready, herror⟩
    · exact ⟨hinv.refs.joining_lt hp₀, hready, herror⟩
  refine ⟨step_ready_mono hstep hlt.1 hlt.2.1, ?_⟩
  rw [hinv.error_of_ready hstep hlt.1 hlt.2.1]
  exact hlt.2.2

theorem admitted_sound {ok : State → Act → Prop} (h : (scheduler cfg).Reach ok s) :
    AdmittedSound s := by
  refine invariant_reach ?_ ?_ h
  · intro now found _ p r hp
    rcases (initial_requests hp).2 with heq | ⟨model, rest, heq⟩ <;> cases heq
  · intro s a t hs hsound _ hstep
    exact admittedSound_step (inv hs) hsound hstep

/-- Nobody is admitted to a model whose load has failed. -/
theorem active_of_error (hc : Counted s) (hsound : AdmittedSound s) (hr : r < s.next)
    (herror : (s.heap r).error ≠ none) : (s.heap r).active = 0 := by
  rw [hc.active r hr, Table.countP_eq_zero]
  intro p q hp
  by_contra hq
  obtain rfl := Request.admittedTo_iff.1 (by simpa using hq)
  exact herror (hsound p r hp).2

/-- Nobody is admitted to the victim of a live swap, or waits for it. -/
def Quiet (s : State) : Prop :=
  ∀ (i : ℕ) (k : Task) (r : Ref), s.tasks[i]? = some k → r ∈ k.victims →
    (s.heap r).active = 0 ∧ (s.heap r).queued = 0

/-- No request is admitted to the record or waits for it. -/
def State.Unused (s : State) (r : Ref) : Prop :=
  ∀ p : ℕ, s.requests[p]? ≠ some (.admitted r) ∧ s.requests[p]? ≠ some (.joining r)

/-- The counts of a record that nobody uses. -/
theorem Counted.unused (h : Counted s) (hr : r < s.next) :
    ((s.heap r).active = 0 ∧ (s.heap r).queued = 0) ↔ s.Unused r := by
  rw [h.active r hr, h.queued r hr, Table.countP_eq_zero, Table.countP_eq_zero]
  constructor
  · intro ⟨hactive, hqueued⟩ p
    refine ⟨fun hp => ?_, fun hp => ?_⟩
    · have hno := hactive p _ hp
      rw [Request.admittedTo_iff.2 rfl] at hno
      cases hno
    · have hno := hqueued p _ hp
      rw [Request.joins_iff.2 rfl] at hno
      cases hno
  · intro hnone
    refine ⟨fun p q hp => ?_, fun p q hp => ?_⟩ <;> by_contra hq
    · exact (hnone p).1 (Request.admittedTo_iff.1 (by simpa using hq) ▸ hp)
    · exact (hnone p).2 (Request.joins_iff.1 (by simpa using hq) ▸ hp)

/-- Nobody can join a leaving record that is not used. -/
theorem unused_step (hstep : Step cfg s a t) (hr : r < s.next)
    (hleaving : (s.heap r).leaving = true) (hnone : s.Unused r) : t.Unused r := by
  intro p
  refine ⟨fun hp => ?_, fun hp => ?_⟩
  · rcases step_admitted hstep hp with hp₀ | ⟨-, hstay, -⟩ | ⟨hp₀, -⟩
    · exact (hnone p).1 hp₀
    · rw [hstay] at hleaving; cases hleaving
    · exact (hnone p).2 hp₀
  · rcases step_joining hstep hp with hp₀ | ⟨-, hstay, -⟩ | ⟨-, -, -, -, rfl⟩
    · exact (hnone p).2 hp₀
    · rw [hstay] at hleaving; cases hleaving
    · exact absurd hr (Nat.lt_irrefl _)

theorem quiet_step (hinv : Inv cfg s) (hc : Counted s) (h : Quiet s) (hstep : Step cfg s a t) :
    Quiet t := by
  have hct := counted_step hinv.refs hc hstep
  intro i k r hi hr
  rcases step_victim hstep hi hr with ⟨k₀, hk₀, hr₀, -⟩ | ⟨-, -, p, job, hd, ht, -⟩
  · have hlt := hinv.refs.victim_lt hk₀ hr₀
    refine (hct.unused (Nat.lt_of_lt_of_le hlt (step_next_le hstep))).2 ?_
    exact unused_step hstep hlt (hinv.victims.leaving i k₀ r hk₀ hr₀).1
      ((hc.unused hlt).1 (h i k₀ r hk₀ hr₀))
  · obtain ⟨look, hq, -, -, -, heq⟩ := decision_eq_some.1 hd
    have hlt := hinv.refs.request p _ hq r (List.mem_append_left _ (heq ▸ hr))
    have hidle := inUse_eq_false.1 ((hinv.deciding.decision hd).2 r hr)
    rw [ht, committed_of_lt hlt, if_pos hr]
    exact ⟨hidle.1, hidle.2.1⟩

theorem quiet {ok : State → Act → Prop} (h : (scheduler cfg).Reach ok s) : Quiet s := by
  refine invariant_reach ?_ ?_ h
  · intro now found _ i k r hi hr
    obtain ⟨r₀, id, rfl, -⟩ := initial_tasks hi
    cases hr
  · intro s a t hs hquiet _ hstep
    exact quiet_step (inv hs) (counted hs) hquiet hstep

/-! ## In a run without a re-inspection -/

/-- The error of a failed load is recorded before `load_failed` asks the server. -/
def FailedLoads (s : State) : Prop :=
  ∀ (i : ℕ) (r : Ref) (error : String) (loader : Loader),
    s.tasks[i]? = some (.loadQuery r error loader) → (s.heap r).error ≠ none

theorem step_loadQuery (h : Step cfg s a t) {i : ℕ} {error : String} {loader : Loader}
    (hi : t.tasks[i]? = some (.loadQuery r error loader)) :
    s.tasks[i]? = some (.loadQuery r error loader) ∨ (t.heap r).error ≠ none := by
  have waiters : ∀ {pending : List Ref}, t.tasks = s.tasks ++ pending.map .finishReady →
      s.tasks[i]? = some (.loadQuery r error loader) := by
    intro pending ht
    rw [ht] at hi
    rcases Table.get_append.1 hi with hi | ⟨n, -, hn⟩
    · exact hi
    · obtain ⟨r', -, heq⟩ := List.mem_map.1 (List.mem_of_getElem? hn)
      cases heq
  have moved : ∀ {j : ℕ} {k k' : Task}, s.tasks[j]? = some k → t.tasks = s.tasks.set j k' →
      k' ≠ .loadQuery r error loader → s.tasks[i]? = some (.loadQuery r error loader) := by
    intro j k k' hk ht hne
    rw [ht, Table.get_set hk] at hi
    exact hi.elim (fun hnew => absurd hnew.2.symm hne) And.right
  cases h with
  | install => exact .inl (waiters rfl)
  | baseline => exact .inl (waiters rfl)
  | commit =>
    rcases Table.get_push.1 hi with ⟨-, heq⟩ | hi
    · cases heq
    · exact .inl hi
  | task hk hsil =>
    refine .inl (moved hk rfl ?_)
    cases hsil with
    | @start victims => cases victims <;> exact fun heq => by cases heq
    | wait | loaded | awaited => exact fun heq => by cases heq
  | @unloaded _ _ rest _ _ _ _ hk =>
    exact .inl (moved hk rfl (by cases rest <;> exact fun heq => by cases heq))
  | @loadFailed j k model _ _ hk =>
    rcases (Table.get_set hk).1 hi with ⟨-, heq⟩ | ⟨-, hi⟩
    · cases heq
      exact .inr (by simp)
    · exact .inl hi
  | crash hk | unloadFailed hk | crashFailed hk | dropped hk | gone hk | unsure hk | baselined hk =>
    exact .inl (moved hk rfl fun heq => by cases heq)
  | tick | arrive | silent | enter | join | queue | quit | busy | idle | joined | unjoin | release =>
    exact .inl hi

theorem failedLoads_step (hrefs : Refs cfg s) (h : FailedLoads s) (hstep : Step cfg s a t) :
    FailedLoads t := by
  intro i r error loader hi
  rcases step_loadQuery hstep hi with hi₀ | hfailed
  · rcases step_error hstep (hrefs.owned_lt hi₀ rfl) with hsame | ⟨hfailed, -⟩
    · rw [hsame]
      exact h i r error loader hi₀
    · exact hfailed
  · exact hfailed

theorem failed_loads {ok : State → Act → Prop} (h : (scheduler cfg).Reach ok s) :
    FailedLoads s := by
  refine invariant_reach ?_ ?_ h
  · intro now found _ i r error loader hi
    obtain ⟨r₀, id, heq, -⟩ := initial_tasks hi
    cases heq
  · intro s a t hs hfailed _ hstep
    exact failedLoads_step (inv hs).refs hfailed hstep

/-- What a request that is admitted, or waits to be, can rely on. -/
structure Flow (s : State) : Prop where
  admitted : ∀ (p : ℕ) (r : Ref), s.requests[p]? = some (.admitted r) →
    s.recorded (s.heap r).variant.id = some r ∧ (s.heap r).leaving = false
  joining : ∀ (p : ℕ) (r : Ref), s.requests[p]? = some (.joining r) →
    (s.heap r).leaving = false ∧
      ((s.heap r).error = none → s.recorded (s.heap r).variant.id = some r)

/-- A record that a request uses, or waits for, does not become a victim. -/
theorem leaving_of_used (hinv : Inv cfg s) (hc : Counted s) (hstep : Step cfg s a t)
    (hr : r < s.next) (hused : ¬ s.Unused r) (hleaving : (s.heap r).leaving = false) :
    (t.heap r).leaving = false := by
  rcases step_leaving hstep hr with hsame | ⟨p, job, victims, hd, -, hmem, -⟩ | ⟨hfalse, -⟩
  · rw [hsame, hleaving]
  · have hidle := inUse_eq_false.1 ((hinv.deciding.decision hd).2 r hmem)
    exact absurd ((hc.unused hr).1 ⟨hidle.1, hidle.2.1⟩) hused
  · exact hfalse

/-- The task of a ready record has ended, so it cannot fail. -/
theorem Fails.unready (hinv : Inv cfg s) (h : Fails s a t r) : (s.heap r).ready = false := by
  obtain ⟨i, k, hk, ho, -⟩ := h
  exact hinv.owners.unready i k r hk ho

/-- A record whose task fails has an error, before or after. -/
theorem Fails.error (hf : FailedLoads s) (h : Fails s a t r) :
    (s.heap r).error ≠ none ∨ (t.heap r).error ≠ none := by
  obtain ⟨i, k, hk, -, -, ⟨herror, -⟩ | ⟨error, loader, -, rfl, -⟩⟩ := h
  · exact .inr herror
  · exact .inl (hf i r error loader hk)

theorem Flow.admitted_step (hinv : Inv cfg s) (hc : Counted s) (hs : Stored s)
    (hsound : AdmittedSound s) (h : Flow s) (hstep : Step cfg s a t) (hno : NoInstall cfg s a)
    (p : ℕ) (r : Ref) (hp : t.requests[p]? = some (.admitted r)) :
    t.recorded (t.heap r).variant.id = some r ∧ (t.heap r).leaving = false := by
  -- a ready record that is stored and in use stays where it is
  have stays : ∀ {r : Ref}, r < s.next → (s.heap r).ready = true → ¬ s.Unused r →
      s.recorded (s.heap r).variant.id = some r → (s.heap r).leaving = false →
      t.recorded (t.heap r).variant.id = some r ∧ (t.heap r).leaving = false := by
    intro r hlt hready hused hrec hleaving
    refine ⟨?_, leaving_of_used hinv hc hstep hlt hused hleaving⟩
    rw [step_variant hstep hlt]
    refine (hs.kept hinv hstep hno hrec (.inr hleaving)).resolve_right fun hfails => ?_
    rw [hfails.unready hinv] at hready
    cases hready
  rcases step_admitted hstep hp with hp₀ | ⟨⟨id, hid⟩, -, -, -, hview, hleaving⟩ | ⟨hp₀, hready, herror⟩
  · obtain ⟨hrec, hleaving⟩ := h.admitted p r hp₀
    exact stays (hinv.refs.admitted_lt hp₀) (hsound p r hp₀).1 (fun hu => (hu p).1 hp₀) hrec hleaving
  · obtain ⟨hlt, hvar⟩ := hinv.refs.keyed id r hid
    rw [step_variant hstep hlt, hvar]
    refine ⟨?_, hleaving⟩
    unfold State.recorded
    rw [hview]
    exact hid
  · obtain ⟨hleaving, hrec⟩ := h.joining p r hp₀
    exact stays (hinv.refs.joining_lt hp₀) hready (fun hu => (hu p).2 hp₀) (hrec herror) hleaving

theorem Flow.joining_step (hinv : Inv cfg s) (hc : Counted s) (hs : Stored s) (hf : FailedLoads s)
    (h : Flow s) (hstep : Step cfg s a t) (hno : NoInstall cfg s a) (p : ℕ) (r : Ref)
    (hp : t.requests[p]? = some (.joining r)) :
    (t.heap r).leaving = false ∧
      ((t.heap r).error = none → t.recorded (t.heap r).variant.id = some r) := by
  rcases step_joining hstep hp with hp₀ | ⟨⟨id, hid⟩, -, hview, hleaving⟩ |
    ⟨job, victims, hd, rfl, rfl⟩
  · have hlt := hinv.refs.joining_lt hp₀
    obtain ⟨hleaving, hrec⟩ := h.joining p r hp₀
    refine ⟨leaving_of_used hinv hc hstep hlt (fun hu => (hu p).2 hp₀) hleaving, fun hnone => ?_⟩
    have hnone₀ : (s.heap r).error = none := by
      rcases step_error hstep hlt with hsame | ⟨hfailed, -⟩
      · rw [← hsame, hnone]
      · exact absurd hnone hfailed
    rw [step_variant hstep hlt]
    refine (hs.kept hinv hstep hno (hrec hnone₀) (.inr hleaving)).resolve_right fun hfails => ?_
    rcases hfails.error hf with hfailed | hfailed
    · exact hfailed hnone₀
    · exact hfailed hnone
  · obtain ⟨hlt, hvar⟩ := hinv.refs.keyed id r hid
    refine ⟨hleaving, fun _ => ?_⟩
    rw [step_variant hstep hlt, hvar]
    unfold State.recorded
    rw [hview]
    exact hid
  · refine ⟨by simp [committed, newModel], fun _ => ?_⟩
    rw [recorded_committed]
    simp [committed, newModel]

/-- In a run without a re-inspection a request can rely on its record. -/
theorem flow {ok : State → Act → Prop} (hok : ∀ s a, ok s a → uninspected s a = true)
    (h : (scheduler cfg).Reach ok s) : Flow s := by
  refine invariant_reach ?_ ?_ h
  · intro now found _
    refine ⟨?_, ?_⟩ <;> intro p r hp <;>
      rcases (initial_requests hp).2 with heq | ⟨model, rest, heq⟩ <;> cases heq
  · intro s a t hs hflow ha hstep
    obtain ⟨hun, hstored⟩ := stored hok hs
    have hinv := inv hs
    have hno : NoInstall cfg s a := fun p q variant found hq => hun.not_surveys (hok s a ha) hq
    refine ⟨?_, ?_⟩
    · exact hflow.admitted_step hinv (counted hs) hstored (admitted_sound hs) hstep hno
    · exact hflow.joining_step hinv (counted hs) hstored (failed_loads hs) hstep hno

end ModelBroker
