import ModelBroker.Scheduler.Driving

/-!
# The scheduler can always be brought to rest

From every state of a run in which no swap dies and no `track` is cancelled early,
every request and every background task can be brought to its end (`Leads`), if the
maximum wait is finite. The servers answer what they like, as long as they kill no
swap: no unload succeeds for a victim that is no longer in `loaded`, for which
`del self.loaded[victim]` raises. The clock may be let run at any point, also where the
code does not suspend.

* `heads_ends`: the request that holds the lock, or could have it, gives it back, and
  comes to the head of the loop of `acquire`, or past it.
* `looping_ends`: after its deadline, one more look at the conflicting models is
  enough.
* `request_ends`: so a request can be brought to its end.
* `drains`: so can all of them, and then no lock is held, no ticket waits, no
  admission is counted, and every record is ready and not leaving.
-/

namespace ModelBroker

variable {cfg : Config} {s t : State} {a : Act} {p i : ℕ} {q q' : Request} {Q : State → Prop}
  {R R' : State → Request → Prop}

/-! ## The lock is released -/

theorem went_goto {u : State} (hreach : Finishing cfg (u.goto p q))
    (hu : u.requests = s.requests) (hnow : u.now = s.now)
    (hR : R (u.goto p q) q) : Went cfg p R s (u.goto p q) :=
  ⟨hreach, hnow, q, by rw [State.goto_requests, hu], hR⟩

/-- `track` comes to its end. -/
theorem tracked_ends {after : Option Variant} {model : Ref} {rest : List Ref} (h : Finishing cfg s)
    (hq : s.requests[p]? = some (.tracking after model rest)) :
    Leads cfg (Went cfg p (fun _ q => q = trackEnd after) s) s := by
  induction hn : rest.length using Nat.strong_induction_on generalizing s model rest with
  | _ n ih =>
    refine leads_track h hq fun answer hreach => ?_
    obtain ⟨pending, q', hto, heq⟩ :=
      track_cases (s.edit [model] fun m => m.withBaseline answer) p after rest
    rw [heq] at hreach ⊢
    generalize hrest : rest = models at hto
    cases hto with
    | done => exact .goal (went_goto hreach rfl rfl rfl)
    | @ask pending rest' model' _ _ =>
      have hlt : rest'.length < n := by
        rw [← hn, hrest]
        simp
        omega
      have hwent :=
        went_goto (s := s) (R := fun _ q => q = .tracking after model' rest') hreach rfl rfl rfl
      obtain ⟨q, hget, rfl⟩ := hwent.get hq
      exact (ih rest'.length hlt hreach hget rfl).mono fun _ ht => hwent.trans ht

/-- What a survey has found is tracked to the end. -/
theorem installed_ends {variant : Variant} {found : Survey} (hq : s.requests[p]? = some q)
    (h : Finishing cfg (surveyed s p variant (.inl found))) :
    Leads cfg (Went cfg p (fun _ q => q = .checked variant) s) (surveyed s p variant (.inl found)) := by
  obtain ⟨pending, q', hto, heq⟩ :=
    track_cases (installed s found) p (some variant) (newModels s found)
  have hs : surveyed s p variant (.inl found) =
      ((installed s found).background (pending.map .finishReady)).goto p q' := heq
  rw [hs] at h ⊢
  generalize newModels s found = models at hto
  cases hto with
  | done => exact .goal (went_goto h rfl rfl rfl)
  | @ask pending rest model _ _ =>
    have hwent :=
      went_goto (s := s) (R := fun _ q => q = .tracking (some variant) model rest) h rfl rfl rfl
    obtain ⟨q, hget, rfl⟩ := hwent.get hq
    exact (tracked_ends h hget).mono fun _ ht => hwent.trans ht

/-- A survey comes to its end. -/
theorem survey_ends {variant : Variant} {i : Inspection} (h : Finishing cfg s)
    (hq : s.requests[p]? = some (.surveying variant i)) :
    Leads cfg (Went cfg p (fun _ q => q = .checked variant) s) s := by
  induction hn : i.left using Nat.strong_induction_on generalizing s i with
  | _ n ih =>
    refine leads_survey h hq fun next hless hreach => ?_
    cases next with
    | inl found => exact installed_ends hq hreach
    | inr i' =>
      have hwent := went_goto (s := s) (R := fun _ q => q = .surveying variant i') hreach rfl rfl rfl
      obtain ⟨q, hget, rfl⟩ := hwent.get hq
      exact (ih i'.left (hn ▸ hless i' rfl) hreach hget rfl).mono fun _ ht => hwent.trans ht

/-- What `busy` has found so far leaves no reason to look again at once. -/
structure Look.Clean (look : Look) (s : State) : Prop where
  now : s.now ≤ look.untilTime
  later : look.reason ≠ "" → s.now < look.untilTime
  idle : ∀ r ∈ look.seen, (s.heap r).inUse = false

/-- A `Blocked` after which `acquire` does not look again at once. -/
def Blocked.Final (placed : Blocked) (s : State) : Prop :=
  ∀ u, placed.untilTime = some u → s.now < u

theorem observed_inUse (s : State) (model r : Ref) (activity : ModelActivity) :
    ((s.edit [model] fun m => m.observed s.now activity).heap r).inUse = (s.heap r).inUse := by
  by_cases hr : r = model <;> simp [hr, LoadedModel.observed, LoadedModel.inUse]

/-- One more idle model leaves no reason to look again at once. -/
theorem Look.Clean.observed {look : Look} {model : Ref} {activity : ModelActivity}
    (h : look.Clean s) (hidle : (s.heap model).inUse = false) :
    (judged cfg look model ((s.heap model).observed s.now activity)).Clean
      (s.edit [model] fun m => m.observed s.now activity) := by
  have hseen : ∀ r ∈ look.seen ++ [model],
      ((s.edit [model] fun m => m.observed s.now activity).heap r).inUse = false := by
    intro r hr
    rw [observed_inUse]
    rcases List.mem_append.1 hr with hr | hr
    · exact h.idle r hr
    · rw [List.mem_singleton.1 hr]
      exact hidle
  refine ⟨?_, ?_, by rw [judged_seen]; exact hseen⟩ <;> unfold judged Look.protect <;>
    dsimp only <;> split_ifs with hlater
  · exact h.now.trans hlater.le
  · exact h.now
  · exact fun _ => h.now.trans_lt hlater
  · exact h.later

/-- `busy` and the second check of `place` have come to their end: the request waits for
    its model, or is blocked, and not only for a moment if nothing has changed since. -/
def Looked (c : Prop) (job : Job) (s : State) (q : Request) : Prop :=
  (∃ r, q = .joining r) ∨ ∃ placed, q = .blocked job placed ∧ (c → placed.Final s)

/-- The answer blocks the request, or `busy` goes on with the next model. -/
theorem observing_ends (c : Prop) {job : Job} {look : Look} {model : Ref} (h : Finishing cfg s)
    (hq : s.requests[p]? = some (.observing job look model)) (hclean : c → look.Clean s)
    (hidle : c → (s.heap model).inUse = false)
    (hnext : ∀ u look', look'.rest = look.rest → (c → look'.Clean u) → Finishing cfg u →
      u.requests[p]? = some (.judging job look') → Leads cfg (Went cfg p (Looked c job) u) u) :
    Leads cfg (Went cfg p (Looked c job) s) s := by
  refine leads_observe h hq fun answer hreach => ?_
  cases answer with
  | error error =>
    exact .goal (went_goto (s := s) hreach rfl rfl (.inr ⟨_, rfl, fun _ _ hu => by cases hu⟩))
  | ok activity =>
    cases hwork : activity.working with
    | true =>
      simp only [observe, hwork, if_true] at hreach ⊢
      exact .goal (went_goto hreach rfl rfl (.inr ⟨_, rfl, fun _ _ hu => by cases hu⟩))
    | false =>
      rw [observe_idle cfg s p job look model hwork] at hreach ⊢
      have hwent := went_goto (s := s) (R := fun _ q => q = .judging job
        (judged cfg look model ((s.heap model).observed s.now activity))) hreach rfl rfl rfl
      obtain ⟨q, hget, rfl⟩ := hwent.get hq
      refine (hnext _ _ (judged_rest ..) (fun hc => ?_) hreach hget).mono fun _ ht => hwent.trans ht
      have hobserved : (judged cfg look model ((s.heap model).observed s.now activity)).Clean
          (s.edit [model] fun m => m.observed s.now activity) := (hclean hc).observed (hidle hc)
      exact ⟨hobserved.now, hobserved.later, hobserved.idle⟩

/-- `busy` looks at one conflicting model after the other. -/
theorem judging_ends (c : Prop) {job : Job} {look : Look} (h : Finishing cfg s)
    (hq : s.requests[p]? = some (.judging job look)) (hclean : c → look.Clean s) :
    Leads cfg (Went cfg p (Looked c job) s) s := by
  induction hn : look.rest.length using Nat.strong_induction_on generalizing s look with
  | _ n ih =>
    refine leads_resume h hq rfl rfl fun hreach => ?_
    unfold judge at hreach ⊢
    have blocked : ∀ {placed : Blocked}, Finishing cfg (s.goto p (.blocked job placed)) →
        (c → placed.Final s) →
        Leads cfg (Went cfg p (Looked c job) s) (s.goto p (.blocked job placed)) :=
      fun hreach hfinal => .goal (went_goto (s := s) hreach rfl rfl (.inr ⟨_, rfl, hfinal⟩))
    split at hreach
    · split_ifs at hreach ⊢ with hreason hused
      · exact blocked hreach fun hc u hu => Option.some.inj hu ▸ (hclean hc).later hreason
      · refine blocked hreach fun hc => ?_
        obtain ⟨r, hr, huse⟩ := List.any_eq_true.1 hused
        rw [(hclean hc).idle r hr] at huse
        cases huse
      · rw [commit_eq] at hreach ⊢
        exact .goal ⟨hreach, rfl, _, rfl, .inl ⟨_, rfl⟩⟩
    · next r rest hrest =>
      dsimp only at hreach ⊢
      split_ifs at hreach ⊢ with hleaving hbusy
      · exact blocked hreach fun _ _ hu => by cases hu
      · exact blocked hreach fun _ _ hu => by cases hu
      · simp only [not_or, Decidable.not_not, Bool.not_eq_false] at hbusy
        have hidle : (s.heap r).inUse = false :=
          inUse_eq_false.2 ⟨hbusy.1, hbusy.2.1, by simpa using hleaving⟩
        have hlt : rest.length < n := by rw [← hn, hrest]; simp
        have hwent := went_goto (s := s)
          (R := fun _ q => q = .observing job { look with rest := rest } r) hreach rfl rfl rfl
        obtain ⟨q, hget, rfl⟩ := hwent.get hq
        refine (observing_ends c hreach hget (fun hc => ⟨(hclean hc).now, (hclean hc).later,
          (hclean hc).idle⟩) (fun _ => hidle) fun u look' hrest' hclean' hu hget' => ?_).mono
          fun _ ht => hwent.trans ht
        exact ih look'.rest.length (by rw [hrest']; exact hlt) hu hget' hclean' rfl

/-! ## The end of a request -/

/-- The request waits for its model or uses it, or has ended. -/
def Request.served (q : Request) : Prop :=
  (∃ r, q = .joining r) ∨ (∃ r, q = .admitted r) ∨ ∃ outcome, q = .finished outcome

/-- The request is at the head of the loop of `acquire`, or past it. -/
def Request.heads (q : Request) : Prop := (∃ job, q = .looping job) ∨ q.served

theorem join_served (s : State) (p : ℕ) (r : Ref) :
    ∃ q, (join s p r).requests = s.requests.set p q ∧ (join s p r).now = s.now ∧ q.served := by
  unfold join
  split_ifs
  · split
    · exact ⟨_, rfl, rfl, .inr (.inr ⟨_, rfl⟩)⟩
    · exact ⟨_, rfl, rfl, .inr (.inl ⟨_, rfl⟩)⟩
  · exact ⟨_, rfl, rfl, .inl ⟨_, rfl⟩⟩

/-- The request is at the head of its loop, or past it; past it for certain if nothing
    was to be seen but lasting obstacles (`c`), and its deadline has passed. -/
def Back (c : Prop) (job : Job) (s : State) (q : Request) : Prop :=
  q.heads ∧ (c ∧ job.deadline ≤ s.now → q.served)

theorem back_of_served (c : Prop) (job : Job) (h : q.served) : Back c job s q := ⟨.inr h, fun _ => h⟩

/-- A blocked request gives up, waits or looks again; after its deadline it gives up,
    unless the obstacle is gone. -/
theorem blocked_ends (c : Prop) {job : Job} {placed : Blocked} (h : Finishing cfg s)
    (hq : s.requests[p]? = some (.blocked job placed)) (hfinal : c → placed.Final s) :
    Leads cfg (Went cfg p (fun _ => Back c job s) s) s := by
  refine leads_resume h hq rfl rfl fun hreach => ?_
  unfold afterBlocked at hreach ⊢
  dsimp only at hreach ⊢
  split_ifs at hreach ⊢ with hgone hlate hinf
  · obtain ⟨u, hu, hle⟩ := (Option.any_eq_true ..).1 hgone
    refine .goal (went_goto (s := s) hreach rfl rfl ⟨.inl ⟨job, rfl⟩, fun hc => ?_⟩)
    exact absurd (hfinal hc.1 u hu) (not_lt.2 (by simpa using hle))
  · exact .goal (went_goto (s := s) hreach rfl rfl (back_of_served c job (.inr (.inr ⟨_, rfl⟩))))
  · exact .goal (went_goto (s := s) hreach rfl rfl (back_of_served c job (.inr (.inr ⟨_, rfl⟩))))
  · have hwent := went_goto (s := s) (R := fun _ q => ∃ wake, q = .waiting job wake) hreach rfl rfl
      ⟨_, rfl⟩
    obtain ⟨q, hget, wake, rfl⟩ := hwent.get hq
    refine leads_resume hreach hget rfl rfl fun hreach' => .goal (hwent.trans ?_)
    exact went_goto hreach' rfl rfl ⟨.inl ⟨job, rfl⟩, fun hc => absurd hc.2 hlate⟩

/-- So does one that goes on to be blocked. -/
theorem went_blocked (c : Prop) {job : Job} (hq : s.requests[p]? = some q)
    (h : Went cfg p (fun t q => ∃ placed, q = .blocked job placed ∧ (c → placed.Final t)) s t) :
    Leads cfg (Went cfg p (fun _ => Back c job s) s) t := by
  obtain ⟨q, hget, placed, rfl, hfinal⟩ := h.get hq
  refine (blocked_ends c h.finishing hget hfinal).mono fun u hu => h.trans ?_
  have hsame : Back c job t = Back c job s := by
    unfold Back
    rw [h.now]
  rwa [hsame] at hu

/-- After its look the request goes back to the head of its loop, or past it. -/
theorem looked_ends (c : Prop) {job : Job} (hq : s.requests[p]? = some q)
    (h : Leads cfg (Went cfg p (Looked c job) s) t) :
    Leads cfg (Went cfg p (fun _ => Back c job s) s) t := by
  refine h.bind fun u hu => ?_
  obtain ⟨q, hset, ⟨r, rfl⟩ | ⟨placed, rfl, hfinal⟩⟩ := hu.moved
  · exact .goal ⟨hu.finishing, hu.now, _, hset, back_of_served c job (.inl ⟨r, rfl⟩)⟩
  · exact went_blocked c hq ⟨hu.finishing, hu.now, _, hset, placed, rfl, hfinal⟩

/-- With the lock, from `place` on. -/
theorem placeLock_ends (c : Prop) {job : Job} (h : Finishing cfg s)
    (hq : s.requests[p]? = some (.placeLock job)) (hfree : s.lockFree = true)
    (hgone : c → ∀ r, s.recorded job.variant.id = some r → (s.heap r).leaving = true) :
    Leads cfg (Went cfg p (fun _ => Back c job s) s) s := by
  refine leads_resume h hq rfl (by simp [resume, hfree]; rfl) fun hreach => ?_
  unfold place at hreach ⊢
  split at hreach
  · next existing hrec =>
    split_ifs at hreach ⊢ with hleaving
    · exact went_blocked c hq (went_goto (s := s) hreach rfl rfl ⟨_, rfl, fun _ _ hu => by cases hu⟩)
    · exact went_blocked c hq (went_goto (s := s) hreach rfl rfl
        ⟨_, rfl, fun hc => absurd (hgone hc existing hrec) hleaving⟩)
  · have hwent := went_goto (s := s) (R := fun _ q => ∃ look, q = .judging job look ∧ look.Clean s)
      hreach rfl rfl ⟨_, rfl, le_refl _, fun hne => absurd rfl hne, by simp⟩
    obtain ⟨q, hget, look, rfl, hclean⟩ := hwent.get hq
    have hlook := judging_ends c hreach hget fun _ => ⟨hclean.now, hclean.later, hclean.idle⟩
    exact looked_ends c hq (hlook.mono fun _ ht => hwent.trans ht)

/-- From the head of the loop after its deadline, the request gets past it. -/
theorem looping_ends {job : Job} (h : Finishing cfg s) (hfree : OthersFree p s)
    (hq : s.requests[p]? = some (.looping job)) (hlate : job.deadline ≤ s.now) :
    Leads cfg (Went cfg p (fun _ q => q.served) s) s := by
  have past : ∀ {t : State}, Went cfg p (fun _ => Back True job s) s t →
      Went cfg p (fun _ q => q.served) s t := by
    intro t ht
    obtain ⟨q, hset, -, hserved⟩ := ht.moved
    exact ⟨ht.finishing, ht.now, q, hset, hserved ⟨trivial, hlate⟩⟩
  refine leads_resume h hq rfl rfl fun hreach => ?_
  unfold loopHead at hreach ⊢
  split at hreach
  · next r _ =>
    obtain ⟨q, hset, hnow, hserved⟩ := join_served (s.remove job.ticket) p r
    exact .goal ⟨hreach, hnow, q, hset, hserved⟩
  · next hgone =>
    split at hreach
    · exact .goal (went_goto (s := s) hreach rfl rfl (.inr (.inr ⟨_, rfl⟩)))
    · split_ifs at hreach ⊢
      · exact (went_blocked True hq (went_goto (s := s) hreach rfl rfl
          ⟨_, rfl, fun _ _ hu => by cases hu⟩)).mono fun _ => past
      · have hwent := went_goto (s := s) (R := fun _ q => q = .placeLock job) hreach rfl rfl rfl
        obtain ⟨q, hget, rfl⟩ := hwent.get hq
        refine (placeLock_ends True hreach hget ((hfree.went hq hwent).lockFree hget rfl) ?_).mono
          fun u hu => past (hwent.trans hu)
        intro _ r hr
        by_contra hstays
        rw [show s.recorded job.variant.id = some r from hr, Option.filter_some,
          if_pos (by simpa using hstays)] at hgone
        cases hgone

/-! ## From anywhere -/

/-- After `check_router` the request enters the loop, or is refused. -/
theorem checked_ends {variant : Variant} (h : Finishing cfg s)
    (hq : s.requests[p]? = some (.checked variant)) :
    Leads cfg (Went cfg p (fun _ q => q.heads) s) s := by
  by_cases hfit : s.view.problems = []
  · refine leads_resume h hq rfl (by simp [resume, hfit]; rfl) fun hreach => .goal ?_
    exact ⟨hreach, rfl, _, rfl, .inl ⟨_, rfl⟩⟩
  · refine leads_resume h hq rfl (by simp [resume, hfit]; rfl) fun hreach => .goal ?_
    exact went_goto (s := s) hreach rfl rfl (.inr (.inr (.inr ⟨_, rfl⟩)))

theorem went_checked {variant : Variant} (hq : s.requests[p]? = some q)
    (h : Went cfg p (fun _ q => q = .checked variant) s t) :
    Leads cfg (Went cfg p (fun _ q => q.heads) s) t := by
  obtain ⟨q, hget, rfl⟩ := h.get hq
  exact (checked_ends h.finishing hget).mono fun _ hu => h.trans hu

/-- `check_router`, with the lock. -/
theorem checkLock_ends {variant : Variant} (h : Finishing cfg s)
    (hq : s.requests[p]? = some (.checkLock variant)) (hfree : s.lockFree = true) :
    Leads cfg (Went cfg p (fun _ q => q.heads) s) s := by
  by_cases hfit : s.view.problems = []
  · refine leads_resume h hq rfl (by simp [resume, hfree, hfit]; rfl) fun hreach => ?_
    exact went_checked hq (went_goto (s := s) hreach rfl rfl rfl)
  · refine leads_resume h hq rfl (by simp [resume, hfree, hfit]; rfl) fun hreach => ?_
    generalize surveyNext s.now {} cfg.adapters.entries = next at hreach
    cases next with
    | inl found => exact (installed_ends hq hreach).bind fun _ ht => went_checked hq ht
    | inr i =>
      have hwent := went_goto (s := s) (R := fun _ q => q = .surveying variant i) hreach rfl rfl rfl
      obtain ⟨q, hget, rfl⟩ := hwent.get hq
      exact (survey_ends hreach hget).bind fun _ ht => went_checked hq (hwent.trans ht)

/-- A request that needs no lock, or can have it, comes to the head of its loop, or past
    it. -/
theorem heads_ends (h : Finishing cfg s) (hfree : OthersFree p s) (hq : s.requests[p]? = some q) :
    Leads cfg (Went cfg p (fun _ q => q.heads) s) s := by
  have here : q.heads → Leads cfg (Went cfg p (fun _ q => q.heads) s) s := fun hheads =>
    .goal ⟨h, rfl, q, (Table.set_self hq).symm, hheads⟩
  have back : ∀ {job : Job}, Leads cfg (Went cfg p (fun _ => Back False job s) s) s →
      Leads cfg (Went cfg p (fun _ q => q.heads) s) s := fun hback => by
    refine hback.mono fun t ht => ?_
    obtain ⟨q, hset, hheads, -⟩ := ht.moved
    exact ⟨ht.finishing, ht.now, q, hset, hheads⟩
  cases q with
  | arrived id =>
    cases hid : cfg.catalogue.get id with
    | none =>
      refine leads_resume h hq rfl (by simp [resume, hid]; rfl) fun hreach => .goal ?_
      exact went_goto (s := s) hreach rfl rfl (.inr (.inr (.inr ⟨_, rfl⟩)))
    | some variant =>
      by_cases hfit : s.view.problems = []
      · refine leads_resume h hq rfl (by simp [resume, hid, hfit]; rfl) fun hreach => .goal ?_
        exact ⟨hreach, rfl, _, rfl, .inl ⟨_, rfl⟩⟩
      · refine leads_resume h hq rfl (by simp [resume, hid, hfit]; rfl) fun hreach => ?_
        have hwent := went_goto (s := s) (R := fun _ q => q = .checkLock variant) hreach rfl rfl rfl
        obtain ⟨q, hget, rfl⟩ := hwent.get hq
        exact (checkLock_ends hreach hget ((hfree.went hq hwent).lockFree hget rfl)).mono
          fun _ ht => hwent.trans ht
  | checkLock variant => exact checkLock_ends h hq (hfree.lockFree hq rfl)
  | surveying variant i => exact (survey_ends h hq).bind fun _ ht => went_checked hq ht
  | tracking after model rest =>
    refine (tracked_ends h hq).bind fun t ht => ?_
    cases after with
    | none =>
      obtain ⟨q, hset, rfl⟩ := ht.moved
      exact .goal ⟨ht.finishing, ht.now, _, hset, .inr (.inr (.inr ⟨_, rfl⟩))⟩
    | some variant => exact went_checked hq ht
  | checked variant => exact checked_ends h hq
  | placeLock job => exact back (placeLock_ends False h hq (hfree.lockFree hq rfl) (by simp))
  | judging job look => exact back (looked_ends False hq (judging_ends False h hq (by simp)))
  | observing job look model =>
    refine back (looked_ends False hq (observing_ends False h hq (by simp) (by simp) ?_))
    exact fun u look' _ _ hu hget => judging_ends False hu hget (by simp)
  | blocked job placed => exact back (blocked_ends False h hq (by simp))
  | waiting job wake =>
    refine leads_resume h hq rfl rfl fun hreach => .goal ?_
    exact went_goto (s := s) hreach rfl rfl (.inl ⟨job, rfl⟩)
  | looping job => exact here (.inl ⟨job, rfl⟩)
  | joining r => exact here (.inr (.inl ⟨r, rfl⟩))
  | admitted r => exact here (.inr (.inr (.inl ⟨r, rfl⟩)))
  | finished outcome => exact here (.inr (.inr (.inr ⟨outcome, rfl⟩)))

/-! ## At rest -/

/-- The request has ended, the others are where they were. -/
def Ended (cfg : Config) (p : ℕ) (s t : State) : Prop :=
  Finishing cfg t ∧ ∃ outcome, t.requests = s.requests.set p (.finished outcome)

theorem Ended.after {u : State} (h : t.requests = s.requests.set p q) (hu : Ended cfg p t u) :
    Ended cfg p s u := by
  obtain ⟨hreach, outcome, hset⟩ := hu
  exact ⟨hreach, outcome, by rw [hset, h, List.set_set]⟩

/-- An admission is released. -/
theorem admitted_ends {r : Ref} (h : Finishing cfg s) (hq : s.requests[p]? = some (.admitted r)) :
    Leads cfg (Ended cfg p s) s :=
  leads_resume h hq rfl rfl fun hreach => .goal ⟨hreach, .released, rfl⟩

/-- Once the tasks have ended, nobody waits for a model that is not ready. -/
theorem ready_of_tasksDead {r : Ref} (h : Finishing cfg s) (hfree : OthersFree p s)
    (hdead : TasksDead s) (hq : s.requests[p]? = some (.joining r)) : (s.heap r).ready = true := by
  by_contra hne
  rcases serves h p r hq (by simpa using hne) with ⟨i, k, hi, ho⟩ |
    ⟨p', after, model, rest, hp', -, -⟩
  · rcases hdead i k hi with rfl | rfl <;> cases ho
  · have hp : p' ≠ p := by
      rintro rfl
      rw [hq] at hp'
      cases hp'
    cases hfree p' _ hp hp'

theorem served_ends (h : Finishing cfg s) (hfree : OthersFree p s)
    (hq : s.requests[p]? = some q) (hserved : q.served) : Leads cfg (Ended cfg p s) s := by
  refine (tasks_end h).bind ?_
  rintro t ⟨hreach, hdead, hreq, -⟩
  have hset : t.requests = s.requests.set p q := by rw [hreq, Table.set_self hq]
  have hget : t.requests[p]? = some q := hreq ▸ hq
  have hfree' : OthersFree p t := by
    intro p' q' hne hp'
    exact hfree p' q' hne (hreq ▸ hp')
  rcases hserved with ⟨r, rfl⟩ | ⟨r, rfl⟩ | ⟨outcome, rfl⟩
  · have hready := ready_of_tasksDead hreach hfree' hdead hget
    refine leads_resume hreach hget rfl (by simp [resume, hready]; rfl) fun hreach' => ?_
    unfold joined at hreach' ⊢
    dsimp only at hreach' ⊢
    split at hreach'
    · exact .goal ⟨hreach', _, by rw [State.goto_requests, State.edit_requests, hset, List.set_set]⟩
    · refine (admitted_ends hreach' (Table.get_set_self hget)).mono fun u hu =>
        Ended.after (q := .admitted r) ?_ hu
      rw [State.goto_requests, State.edit_requests, State.edit_requests, hset, List.set_set]
  · exact (admitted_ends hreach hget).mono fun u hu => hu.after hset
  · exact .goal ⟨hreach, outcome, hset⟩

/-- A request that needs no lock, or can have it, can be brought to its end. -/
theorem request_ends (hfinite : cfg.maxWaitSeconds ≠ ⊤) (h : Finishing cfg s)
    (hfree : OthersFree p s) (hq : s.requests[p]? = some q) : Leads cfg (Ended cfg p s) s := by
  refine (heads_ends h hfree hq).bind fun t ht => ?_
  have hfree' := hfree.went hq ht
  obtain ⟨q', hset, hheads⟩ := ht.moved
  have hget : t.requests[p]? = some q' := hset ▸ Table.get_set_self hq
  refine System.Forces.mono (P := Ended cfg p t) ?_ fun u hu => hu.after hset
  rcases hheads with ⟨job, rfl⟩ | hserved
  · -- wait for the deadline
    obtain ⟨deadline, hdeadline⟩ :=
      WithTop.ne_top_iff_exists.1 (deadline_finite ht.finishing hfinite p _ job hget rfl)
    refine leads_clock ht.finishing (max 0 (deadline - t.now)) (le_max_left ..) fun hreach => ?_
    have hlate : job.deadline ≤ (t.now + max 0 (deadline - t.now) : ℚ) := by
      rw [← hdeadline, WithTop.coe_le_coe]
      exact sub_le_iff_le_add'.1 (le_max_right ..)
    have hothers : OthersFree p { t with now := t.now + max 0 (deadline - t.now) } := hfree'
    refine (looping_ends hreach hothers hget hlate).bind fun v hv => ?_
    obtain ⟨q', hset', hserved⟩ := hv.moved
    exact (served_ends hv.finishing (hothers.went hget hv) (hset' ▸ Table.get_set_self hget)
      hserved).mono fun w hw => hw.after hset'
  · exact served_ends ht.finishing hfree' hget hserved

/-- The request has not ended. -/
def Request.unfinished : Request → Bool
  | finished _ => false
  | _ => true

theorem Request.unfinished_eq_false (h : q.unfinished = false) : ∃ outcome, q = .finished outcome := by
  cases q <;> first | exact ⟨_, rfl⟩ | cases h

/-- The lock is free again when a request has ended that held it, or could have. -/
theorem Ended.lockFree (h : Ended cfg p s t) (hfree : OthersFree p s)
    (hq : s.requests[p]? = some q) : t.lockFree = true := by
  obtain ⟨-, outcome, ht⟩ := h
  have hget : t.requests[p]? = some (.finished outcome) := ht ▸ Table.get_set_self hq
  refine OthersFree.lockFree (p := p) (fun p' q' hne hp' => ?_) hget rfl
  rw [ht, Table.get_set hq] at hp'
  rcases hp' with ⟨rfl, -⟩ | ⟨-, hp'⟩
  · exact absurd rfl hne
  · exact hfree p' q' hne hp'

/-- With the lock free, every request can be brought to its end. -/
theorem requests_end (hfinite : cfg.maxWaitSeconds ≠ ⊤) (h : Finishing cfg s)
    (hfree : s.lockFree = true) :
    Leads cfg (fun t => Finishing cfg t ∧ t.requests.countP Request.unfinished = 0) s := by
  refine System.Forces.of_measure (fun t => t.requests.countP Request.unfinished)
    (P := fun t => Finishing cfg t ∧ t.lockFree = true) ?_ ⟨h, hfree⟩
  rintro u ⟨hu, hlock⟩
  by_cases hzero : u.requests.countP Request.unfinished = 0
  · exact .goal (.inl ⟨hu, hzero⟩)
  · obtain ⟨q, hmem, hun⟩ := List.countP_pos_iff.1 (Nat.pos_of_ne_zero hzero)
    obtain ⟨p, hq⟩ := List.mem_iff_getElem?.1 hmem
    refine (request_ends hfinite hu (othersFree_of_lockFree hlock) hq).mono fun t ht =>
      .inr ⟨⟨ht.1, ?_⟩, ?_⟩
    · exact ht.lockFree (othersFree_of_lockFree hlock) hq
    · obtain ⟨-, outcome, hset⟩ := ht
      have hcount := @Table.countP_set _ Request.unfinished _ p _ (.finished outcome) hq
      rw [← hset, hun] at hcount
      simp only [if_true, Request.unfinished, Bool.false_eq_true, if_false] at hcount
      omega

/-- Nothing is going on: every request and every task has ended, no ticket waits, no
    admission and no queue is counted, and every record is ready and not leaving. -/
structure AtRest (s : State) : Prop where
  requests : ∀ (p : ℕ) (q : Request), s.requests[p]? = some q → ∃ outcome, q = .finished outcome
  tasks : TasksDead s
  waiting : s.waiting = []
  counts : ∀ r < s.next, (s.heap r).active = 0 ∧ (s.heap r).queued = 0
  records : ∀ id r, s.recorded id = some r → (s.heap r).ready = true ∧ (s.heap r).leaving = false

theorem atRest (h : Finishing cfg s) (hdead : TasksDead s)
    (hzero : s.requests.countP Request.unfinished = 0) : AtRest s := by
  have hended : ∀ (p : ℕ) (q : Request), s.requests[p]? = some q → ∃ outcome, q = .finished outcome :=
    fun p q hq => Request.unfinished_eq_false (Table.countP_eq_zero.1 hzero p q hq)
  have hatt := attended h
  refine ⟨hended, hdead, ?_, fun r hr => ?_, fun id r hr => ⟨?_, ?_⟩⟩
  · refine List.eq_nil_iff_forall_not_mem.2 fun ticket hmem => ?_
    obtain ⟨p, q, job, hq, hjob, -⟩ := held h ticket hmem
    obtain ⟨outcome, rfl⟩ := hended p q hq
    cases hjob
  · refine ((counted h).unused hr).2 fun p => ⟨fun hp => ?_, fun hp => ?_⟩ <;>
      · obtain ⟨outcome, heq⟩ := hended p _ hp
        cases heq
  · by_contra hne
    rcases hatt.unready id r hr (by simpa using hne) with ⟨i, k, hi, ho⟩ |
      ⟨p, after, model, rest, hp, -, -⟩
    · rcases hdead i k hi with rfl | rfl <;> cases ho
    · obtain ⟨outcome, heq⟩ := hended p _ hp
      cases heq
  · by_contra hne
    obtain ⟨i, k, hi, hmem⟩ := hatt.leaving id r hr (by simpa using hne)
    rcases hdead i k hi with rfl | rfl <;> cases hmem

/-- The lock can be freed. -/
theorem leads_lockFree (hfinite : cfg.maxWaitSeconds ≠ ⊤) (h : Finishing cfg s) :
    Leads cfg (fun t => Finishing cfg t ∧ t.lockFree = true) s := by
  cases hfree : s.lockFree with
  | true => exact .goal ⟨h, hfree⟩
  | false =>
    obtain ⟨q, hmem, hheld⟩ := List.all_eq_false.1 hfree
    obtain ⟨p, hq⟩ := List.mem_iff_getElem?.1 hmem
    have hothers := othersFree_of_holds (inv h).locking hq (by simpa using hheld)
    exact (request_ends hfinite h hothers hq).mono fun t ht => ⟨ht.1, ht.lockFree hothers hq⟩

/-- With the lock free, requests and then tasks can be brought to their end. -/
theorem leads_atRest (hfinite : cfg.maxWaitSeconds ≠ ⊤) (h : Finishing cfg s)
    (hfree : s.lockFree = true) : Leads cfg AtRest s := by
  refine (requests_end hfinite h hfree).bind ?_
  rintro t ⟨ht, hzero⟩
  refine (tasks_end ht).mono ?_
  rintro u ⟨hu, hdead, hreq, -⟩
  exact atRest hu hdead (by rw [hreq, hzero])

/-- From every state of a run in which no swap dies and no `track` is cancelled early,
    choosing who goes on next, and how long to wait (at any point, also where the code
    does not suspend), brings the scheduler to rest without a new request or a
    cancellation, if the maximum wait is finite, whatever the servers answer short of
    killing a swap. -/
theorem drains (hfinite : cfg.maxWaitSeconds ≠ ⊤) (h : Finishing cfg s) : Leads cfg AtRest s :=
  (leads_lockFree hfinite h).bind fun _ ht => leads_atRest hfinite ht.1 ht.2

/-- The model of both cards is requested; its swap is unloading the first of the two
    models loaded, which another request asks for. -/
def midSwap : List Act :=
  [.activity 0 (.ok idle), .activity 0 (.ok idle), .tick 100, .arrive "c--cuda01", .resume 1,
    .resume 1, .resume 1, .resume 1, .activity 1 (.ok idle), .resume 1, .activity 1 (.ok idle),
    .resume 1, .run 0, .arrive "a--cuda0", .resume 2, .resume 2]

/-- They all come to their end. -/
theorem drains_pairedCards :
    ∃ s t, Finishing pairedCards s ∧ s.requests[1]?.any (Request.joins 2) = true ∧
      s.waiting ≠ [] ∧ s.tasks[0]? = some (.swapUnload [] 0 [1] 2) ∧
      ((scheduler pairedCards).startingIn fun s' => s' = s).Reach
        (fun s a => finishing s a = true ∧ a.turn? ≠ none) t ∧ AtRest t := by
  obtain ⟨s, hs, hP⟩ := reach_run pairedCards finishing 0 bothLoaded midSwap
    (fun s => s.requests[1]?.any (Request.joins 2) && !s.waiting.isEmpty &&
      decide (s.tasks[0]? = some (Task.swapUnload [] 0 [1] 2))) (by decide +kernel)
  simp only [Bool.and_eq_true, Bool.not_eq_true', List.isEmpty_eq_false_iff, decide_eq_true_eq] at hP
  obtain ⟨t, ht, hrest⟩ := (drains (by decide) hs).exists_reach
  exact ⟨s, t, hs, hP.1.1, hP.1.2, hP.2, ht, hrest⟩

end ModelBroker
