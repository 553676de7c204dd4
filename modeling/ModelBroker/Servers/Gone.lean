import ModelBroker.Scheduler.Admission
import ModelBroker.Scheduler.Finishing
import ModelBroker.Servers.World

/-!
# Models that are gone

A record in `loaded` whose model its server does not have any more, while
nothing is under way that would find it out: no task is running, no command is
outstanding and the view has no problems. `swap` leaves such a record when an
unload fails and its command is carried out later (lines 483–492): unlike
`load_failed` it does not ask the server what has become of the model, and it
does not mark the view unfit.

* `Believed`: why a record in `loaded` is still justified.
* `believed`: every record is, in the runs whose unloads take no effect after
  they have failed, and in which nothing that a re-inspection is finding goes
  meanwhile.
* `believed_loaded`: so at rest the server has every model in `loaded`.
* `late_unload_believed`: an unload times out and its command is carried out
  later. The model stays in `loaded`.
-/

namespace ModelBroker

variable {cfg : Config} {s t : State} {a : Act} {w w' : World} {m : Move} {r : Ref}

/-! ## Conditions -/

/-- `load` and `wait_for_state` return normally only when the model is loaded. -/
def completed (x : State × World) : Act → Bool
  | .call i (.ok _) =>
    match x.1.tasks[i]? with
    | some (.swapLoad model) | some (.finishWait model) =>
      x.2.has (x.1.heap model).variant = .loaded
    | _ => true
  | _ => true

/-- What the servers promise: their reports are true, and a load that returns
    normally has completed. -/
def reliable (cfg : Config) (x : State × World) (c : Act ⊕ Move) : Bool :=
  c.elim (fun a => faithful cfg x a && completed x a) fun _ => true

/-- When an unload fails, the servers still have its victim and the victims after
    it. -/
def intact (x : State × World) : Act → Bool
  | .call i (.error _) =>
    match x.1.tasks[i]? with
    | some (.swapUnload _ victim rest _) =>
      (victim :: rest).all fun r => x.2.has (x.1.heap r).variant = .loaded
    | _ => true
  | _ => true

/-- A survey in progress has read that the server has the model, or a `track` has
    still to start the model's `finish_load`. -/
def expected (x : State × World) (server id : String) : Bool :=
  x.1.requests.any fun q =>
    match q with
    | .surveying _ _ => (x.2.readings server).any fun values => values id ≠ .unloaded
    | .tracking _ _ rest => rest.any fun r =>
      !(x.1.heap r).ready && ((x.1.heap r).variant.backend = server &&
        (x.1.heap r).variant.id = id)
    | _ => false

/-- The sender of the command still waits for the model to be unloaded. -/
def timely (x : State × World) (c : Command) : Bool :=
  match x.1.tasks[c.task]? with
  | some (.swapUnload _ victim _ _) =>
    (x.1.heap victim).variant.backend = c.server && (x.1.heap victim).variant.id = c.id
  | _ => false

/-- A server drops a model only for a swap that still waits for it, and no model
    that is expected becomes unloaded. -/
def steady (x : State × World) : Move → Bool
  | .drop c => timely x c && !expected x c.server c.id
  | .fail server id => !expected x server id
  | _ => true

/-- The condition of the runs in which no record outlives its model. -/
def current (cfg : Config) (x : State × World) (c : Act ⊕ Move) : Bool :=
  reliable cfg x c &&
    c.elim (fun a => finishing x.1 a && intact x a) (steady x)

/-! ## What a survey in progress has read -/

/-- What a survey in progress has read in a server is still there. -/
def Steady (s : State) (w : World) : Prop :=
  ∀ (p : ℕ) (variant : Variant) (i : Inspection), s.requests[p]? = some (.surveying variant i) →
    ∀ server values, w.readings server = some values → ∀ id, values id ≠ .unloaded →
      w.value server id ≠ .unloaded ∧ (values id = .loaded → w.value server id = .loaded)

/-- What a survey has read, with what it reads in this step, is still there. -/
theorem Surveys.steady {p : ℕ} {q : Request} {variant : Variant} {next : Survey ⊕ Inspection}
    (hs : Surveys cfg s p a q variant next) (hq : s.requests[p]? = some q) (h : Steady s w)
    (server : String) (values : String → Value)
    (hread : (w.react s a t).readings server = some values) (id : String)
    (hv : values id ≠ .unloaded) :
    w.value server id ≠ .unloaded ∧ (values id = .loaded → w.value server id = .loaded) := by
  cases hs with
  | start hfree hunfit =>
    have hstart : s.reinspects (.resume p) = true := by
      simp [State.reinspects, hq, hfree, hunfit]
    simp [World.react, hstart] at hread
  | props hi => exact h p _ _ hq server values hread id hv
  | @states variant i props answer hi =>
    cases answer with
    | error error => exact h p _ _ hq server values hread id hv
    | ok states =>
      simp only [World.react, hq] at hread
      by_cases hserver : server = i.server.1
      · subst hserver
        rw [Function.update_self] at hread
        obtain rfl := Option.some.inj hread
        exact ⟨hv, fun hl => hl⟩
      · rw [Function.update_of_ne hserver] at hread
        exact h p _ _ hq server values hread id hv

theorem steady_step (hlock : Locking s) (h : Steady s w) (hstep : step cfg s a = some t) :
    Steady t (w.react s a t) := by
  intro p variant i hp server values hread id hv
  rw [react_value]
  rcases @step_readings cfg s t a w hlock hstep p variant i hp with ⟨hp₀, hsame⟩ | ⟨q, hq, hs⟩
  · rw [hsame] at hread
    exact h p variant i hp₀ server values hread id hv
  · exact hs.steady hq h server values hread id hv

theorem not_expected_reading {server id : String} (h : expected (s, w) server id = false) {p : ℕ}
    {variant : Variant} {i : Inspection} (hp : s.requests[p]? = some (.surveying variant i))
    {values : String → Value} (hread : w.readings server = some values) :
    values id = .unloaded := by
  have hnone := List.any_eq_false.1 h _ (List.mem_of_getElem? hp)
  simpa [hread] using hnone

theorem not_expected_untracked {server id : String} (h : expected (s, w) server id = false)
    (hr : Untracked s r) :
    ¬ ((s.heap r).variant.backend = server ∧ (s.heap r).variant.id = id) := by
  obtain ⟨p, after, model, rest, hp, hmem, hready⟩ := hr
  have hnone := List.any_eq_false.1 h _ (List.mem_of_getElem? hp)
  simp only [List.any_eq_true, not_exists, not_and] at hnone
  have hthis := hnone r hmem
  simpa [hready] using hthis

theorem steady_move (h : Steady s w) (hok : steady (s, w) m = true) (hmove : w.move m = some w') :
    Steady s w' := by
  intro p variant i hp server values hread id hv
  have hmoves := move_cases hmove
  rw [hmoves.readings] at hread
  obtain ⟨hne, hloaded⟩ := h p variant i hp server values hread id hv
  rcases hmoves.value server id with hsame | ⟨hnone, -⟩ | ⟨-, hnew⟩ |
    ⟨-, ⟨rfl, -⟩ | ⟨c, rfl, rfl, rfl⟩⟩
  · rw [hsame]
    exact ⟨hne, hloaded⟩
  · exact absurd hnone hne
  · rw [hnew]
    exact ⟨by simp, fun _ => rfl⟩
  · have hnot : expected (s, w) server id = false := by simpa [steady] using hok
    exact absurd (not_expected_reading hnot hp hread) hv
  · have hboth : timely (s, w) c = true ∧ expected (s, w) c.server c.id = false := by
      simpa [steady] using hok
    exact absurd (not_expected_reading hboth.2 hp hread) hv

/-! ## Why a record is believed -/

/-- The model that a task owns while it does not know that the model is loaded. -/
def Task.loading : Task → Option Ref
  | loadBaseline _ _ => none
  | k => k.owns

/-- Why a record in `loaded` is justified: its server has the model loaded; a
    task is getting it loaded, or `track` will start one; a swap is to unload
    it; or its load has failed and the view says so. -/
inductive Believed (s : State) (w : World) (r : Ref) : Prop
  | loaded (h : w.has (s.heap r).variant = .loaded)
  | loading {i : ℕ} {k : Task} (hi : s.tasks[i]? = some k) (hk : k.loading = some r)
  | untracked (h : Untracked s r) (hv : w.has (s.heap r).variant ≠ .unloaded)
  | leaving {i : ℕ} {k : Task} {v : Ref} (hi : s.tasks[i]? = some k) (hv : v ∈ k.toUnload)
      (hid : (s.heap v).variant.id = (s.heap r).variant.id)
  | failed (hready : (s.heap r).ready = true) (herror : (s.heap r).error ≠ none)
      (hunfit : s.view.problems ≠ [])

theorem Task.owns_of_loading {k : Task} (h : k.loading = some r) : k.owns = some r := by
  cases k <;> first | exact h | cases h

/-- The task that loads a model goes on, or learns that the model is loaded, or
    takes its record out, or has the view say that the load has failed. -/
theorem loading_forward (hfailed : FailedLoads s) (h : Step cfg s a t) (hok : s.crashes a = false)
    {i : ℕ} {k : Task} (hi : s.tasks[i]? = some k) (hk : k.loading = some r) :
    (∃ k', t.tasks[i]? = some k' ∧ k'.loading = some r) ∨
      (∃ (j : ℕ) (k₀ : Task) (answer : Unit), s.tasks[j]? = some k₀ ∧ a = .call j (.ok answer) ∧
        (k₀ = .swapLoad r ∨ k₀ = .finishWait r)) ∨
      t.recorded (s.heap r).variant.id ≠ some r ∨
      ((t.heap r).ready = true ∧ (t.heap r).error ≠ none ∧ t.view.problems ≠ []) := by
  have forward := @Table.forward Task fun k => k.loading = some r
  have appended : ∀ {ks : List Task}, t.tasks = s.tasks ++ ks →
      ∃ k', t.tasks[i]? = some k' ∧ k'.loading = some r := fun ht =>
    ⟨k, ht ▸ Table.get_of_append hi, hk⟩
  have next : ∀ (done rest : List Ref) (model : Ref),
      (swapNext done rest model).loading = some model := by
    intro done rest model
    cases rest <;> rfl
  cases h with
  | install | baseline | commit => exact .inl (appended rfl)
  | @task j _ _ _ hj hsil =>
    refine forward hj rfl hi hk fun hown => ?_
    cases hsil with
    | start => exact .inl ((next ..).trans hown)
    | wait => exact .inl hown
    | @loaded model answer =>
      obtain rfl := Option.some.inj hown
      exact .inr (.inl ⟨j, _, answer, hj, rfl, .inl rfl⟩)
    | @awaited model answer =>
      obtain rfl := Option.some.inj hown
      exact .inr (.inl ⟨j, _, answer, hj, rfl, .inr rfl⟩)
  | unloaded hj => exact forward hj rfl hi hk fun hown => .inl ((next ..).trans hown)
  | crash hj hr | crashFailed hj hr => simp [State.crashes, hj, hr] at hok
  | loadFailed hj hfrom =>
    refine forward hj rfl hi hk fun hown => .inl ?_
    rcases hfrom with ⟨rfl, -⟩ | ⟨rfl, -⟩ <;> exact hown
  | unloadFailed hj | dropped hj =>
    refine forward hj rfl hi hk fun hown => .inr (.inr (.inl ?_))
    obtain rfl := Option.some.inj hown
    intro hrec
    cases (s.recorded_delete_self _).symm.trans hrec
  | gone hj _ hr =>
    refine forward hj rfl hi hk fun hown => .inr (.inr (.inl ?_))
    obtain rfl := Option.some.inj hown
    exact hr
  | unsure hj =>
    refine forward hj rfl hi hk fun hown => .inr (.inr (.inr ?_))
    obtain rfl := Option.some.inj hown
    have herror := hfailed _ _ _ _ hj
    simpa [LoadedModel.settled] using herror
  | baselined hj => exact forward hj rfl hi hk fun hown => by cases hown
  | tick | arrive | silent | enter | join | queue | quit | busy | idle | joined | unjoin | release =>
    exact .inl ⟨k, hi, hk⟩

/-- Only the merge of a re-inspection clears problems. -/
theorem step_cleared (h : Step cfg s a t) (hs : s.view.problems ≠ []) (ht : t.view.problems = []) :
    ∃ p q variant found, s.requests[p]? = some q ∧ Surveys cfg s p a q variant (.inl found) ∧
      found.problems = [] ∧ t.recorded = (mergeLoaded s found).get := by
  cases h with
  | @install p _ q _ variant found _ hq hsurvey =>
    exact ⟨p, q, variant, found, hq, hsurvey, ht, rfl⟩
  | unsure => simp at ht
  | tick | arrive | silent | enter | baseline | join | queue | quit | busy | idle | commit | joined
  | unjoin | release | task | unloaded | crash | unloadFailed | crashFailed | loadFailed | dropped
  | gone | baselined => exact absurd ht hs

/-- A record whose load has failed and that a re-inspection without problems
    keeps is leaving. -/
theorem leaving_of_kept (hinv : Inv cfg s) (hc : Counted s) (hsound : AdmittedSound s)
    {found : Survey} (hf : found.Complete cfg) (hfit : found.problems = []) {id : String}
    (hr : s.recorded id = some r) (hr' : (mergeLoaded s found).get id = some r)
    (hready : (s.heap r).ready = true) (herror : (s.heap r).error ≠ none) :
    (s.heap r).leaving = true := by
  have hlt := (hinv.refs.keyed id r hr).1
  rw [get_mergeLoaded] at hr'
  split at hr'
  · rcases Option.or_eq_some_iff.1 hr' with hkept | ⟨-, hnew⟩
    · have hnone := (Option.filter_eq_some_iff.1 hkept).2
      exact absurd (by simpa using hnone) herror
    · exact absurd hlt (Nat.not_lt.2 (adoptedRefs_lt hnew).1)
  · have hkept := (Option.filter_eq_some_iff.1 hr').2
    have hreach : found.unreachable = [] := by
      by_contra hne
      exact hf.reported hne hfit
    have hactive := active_of_error hc hsound hlt herror
    simpa [LoadedModel.inProgress, hreach, hactive, hready] using hkept

/-- A record that stays in `loaded` stays justified. -/
theorem Believed.step (hreach : (scheduler cfg).Reach (fun s a => finishing s a = true) s)
    (hfin : finishing s a = true) (hdone : completed (s, w) a = true)
    (hintact : intact (s, w) a = true) (hstep : step cfg s a = some t) {id : String}
    (hr : s.recorded id = some r) (hr' : t.recorded id = some r) (h : Believed s w r) :
    Believed t (w.react s a t) r := by
  have hcases := step_cases hstep
  have hinv := inv hreach
  obtain ⟨hkeeps, hlives⟩ := finishing_iff.1 hfin
  obtain ⟨hlt, hid⟩ := hinv.refs.keyed id r hr
  have hvar := step_variant hcases hlt
  have hhas : (w.react s a t).has (t.heap r).variant = w.has (s.heap r).variant := by
    rw [World.has, react_value, hvar]
    rfl
  -- the victim of a live swap is unloaded, or the servers still have it
  have leaves : ∀ {i : ℕ} {k : Task} {v : Ref}, s.tasks[i]? = some k → v ∈ k.toUnload →
      (s.heap v).variant.id = (s.heap r).variant.id → Believed t (w.react s a t) r := by
    intro i k v hi hv heq
    obtain ⟨m, ho⟩ := Task.owns_of_toUnload hv
    have hvlt := hinv.refs.victim_lt hi (Task.victims_of_toUnload hv)
    rcases victim_forward hcases hlives hi hv ho with ⟨k', hi', hv', -⟩ | hgone |
      ⟨j, done, rest, victim, error, hj, rfl, hmem, -⟩
    · exact .leaving hi' hv' (by rw [step_variant hcases hvlt, hvar, heq])
    · rw [heq, hid, hr'] at hgone
      cases hgone
    · have hall : ∀ u ∈ victim :: rest, w.has (s.heap u).variant = .loaded := by
        simpa [intact, hj] using hintact
      refine .loaded ?_
      rw [hhas, ← hinv.refs.variant_eq hvlt hlt heq]
      exact hall v hmem
  cases h with
  | loaded h => exact .loaded (hhas.trans h)
  | loading hi hk =>
    rcases loading_forward (failed_loads hreach) hcases hlives hi hk with ⟨k', hi', hk'⟩ |
      ⟨j, k₀, answer, hj, rfl, hfrom⟩ | hgone | ⟨hready, herror, hunfit⟩
    · exact .loading hi' hk'
    · refine .loaded (hhas.trans ?_)
      rcases hfrom with rfl | rfl <;> simpa [completed, hj] using hdone
    · rw [hid] at hgone
      exact absurd hr' hgone
    · exact .failed hready herror hunfit
  | untracked hun hv =>
    rcases untracked_forward hcases hkeeps hun with hun' | ⟨i, hi⟩ | hready
    · exact .untracked hun' (by rw [hhas]; exact hv)
    · exact .loading hi rfl
    · rw [ready_of_unowned hcases hlt fun i k hi ho => hinv.owners.not_untracked hi ho hun] at hready
      obtain ⟨-, -, -, -, -, -, hnot⟩ := hun
      rw [hready] at hnot
      cases hnot
  | leaving hi hv heq => exact leaves hi hv heq
  | failed hready herror hunfit =>
    have herror' : (t.heap r).error ≠ none := by
      rw [hinv.error_of_ready hcases hlt hready]
      exact herror
    by_cases hfit : t.view.problems = []
    · obtain ⟨p, q, variant, found, hq, hs, hnone, hmerged⟩ := step_cleared hcases hunfit hfit
      rw [hmerged] at hr'
      have hleaving := leaving_of_kept hinv (counted hreach) (admitted_sound hreach)
        (hinv.refs.complete hq hs) hnone hr hr' hready herror
      obtain ⟨i, k, hi, hv⟩ := (attended hreach).leaving id r hr hleaving
      rw [← hmerged] at hr'
      exact leaves hi hv rfl
    · exact .failed (step_ready_mono hcases hlt hready) herror' hfit

/-- A record that comes into `loaded` is justified. -/
theorem believed_new (hinv : Inv cfg s) (hshow : Showing cfg s w) (hsteady : Steady s w)
    (htrue : faithful cfg (s, w) a = true) (hstep : step cfg s a = some t) {id : String}
    (hr : t.recorded id = some r) (hnew : s.recorded id ≠ some r) :
    Believed t (w.react s a t) r := by
  cases step_loaded (step_cases hstep) with
  | fewer hl => exact absurd (hl id r hr) hnew
  | @commit p job victims hd ht =>
    rw [ht, recorded_committed] at hr
    split_ifs at hr with hid
    · obtain rfl := Option.some.inj hr
      exact .loading (by rw [ht]; exact get_swap_committed ..) rfl
    · exact absurd hr hnew
  | @install p q q' variant found pending hq hs hto ht =>
    have hmerged : (mergeLoaded s found).get id = some r := by rw [ht] at hr; exact hr
    have hadopted := (mergeLoaded_cases hmerged).resolve_left hnew
    obtain ⟨model, hm⟩ := adoptedRefs_isSome.1 ⟨r, hadopted⟩
    have hheap : t.heap r = model := by rw [ht]; exact adopt_of_ref hadopted hm
    have hid := Catalogue.get_id ((hinv.refs.complete hq hs).known id model hm)
    obtain ⟨-, values, hread, hne, hloaded⟩ := (hs.shows hq hshow htrue).listed id model hm
    obtain ⟨hhas, hhas'⟩ := @Surveys.steady cfg s t a w p q variant _ hs hq hsteady _ values hread id hne
    have hvalue : (w.react s a t).has (t.heap r).variant = w.value model.variant.backend id := by
      rw [World.has, react_value, hheap, hid]
    cases hready : model.ready with
    | true =>
      refine .loaded ?_
      rw [hvalue]
      exact hhas' (hloaded.1 hready)
    | false =>
      have hunready : (t.heap r).ready = false := by rw [hheap, hready]
      have hmem := mem_newModels.2 ⟨id, hmerged, hnew⟩
      have hunready' : (adopt s found r).ready = false := by
        rw [adopt_of_ref hadopted hm, hready]
      rcases hto.covers hmem hunready' with hpending | hawaits
      · obtain ⟨i, hi⟩ := @awaited_of_pending t r _ _ (by rw [ht]; rfl) hpending
        exact .loading hi rfl
      · refine .untracked (untracked_iff.2 ⟨⟨p, q', ?_, hawaits⟩, hunready⟩) ?_
        · rw [ht]
          exact Table.get_set_self hq
        · rw [hvalue]
          exact hhas

/-- A record stays justified in a move that keeps the condition. -/
theorem Believed.move (h : Believed s w r) (hok : steady (s, w) m = true)
    (hmove : w.move m = some w') : Believed s w' r := by
  have hvalue := (move_cases hmove).value (s.heap r).variant.backend (s.heap r).variant.id
  -- the model has become unloaded only by a command that its swap still awaits
  have drops : w'.has (s.heap r).variant = .unloaded → w.has (s.heap r).variant ≠ .unloaded →
      (m = .fail (s.heap r).variant.backend (s.heap r).variant.id ∧
        w.has (s.heap r).variant = .loading) ∨
      ∃ c : Command, m = .drop c ∧ c.server = (s.heap r).variant.backend ∧
        c.id = (s.heap r).variant.id := by
    intro hnone hne
    rcases hvalue with hsame | ⟨hnone', -⟩ | ⟨-, hnew⟩ | ⟨-, hby⟩
    · exact absurd (hsame.symm.trans hnone) hne
    · exact absurd hnone' hne
    · cases hnew.symm.trans hnone
    · exact hby
  cases h with
  | loaded h =>
    cases hnew : w'.has (s.heap r).variant with
    | loaded => exact .loaded hnew
    | loading =>
      rcases hvalue with hsame | ⟨hnone, -⟩ | ⟨hnone, -⟩ | ⟨hnone, -⟩
      · cases hnew.symm.trans (hsame.trans h)
      · cases hnone.symm.trans h
      · cases hnone.symm.trans h
      · cases hnew.symm.trans hnone
    | unloaded =>
      rcases drops hnew (by rw [h]; simp) with ⟨-, hloading⟩ | ⟨c, rfl, hserver, hid⟩
      · rw [h] at hloading
        cases hloading
      · have hwaits : timely (s, w) c = true := (Bool.and_eq_true_iff.1 hok).1
        unfold timely at hwaits
        split at hwaits
        · next done victim rest model hi =>
          rw [Bool.and_eq_true, decide_eq_true_eq, decide_eq_true_eq] at hwaits
          exact .leaving hi List.mem_cons_self (hwaits.2.trans hid)
        · cases hwaits
  | loading hi hk => exact .loading hi hk
  | untracked hun hv =>
    refine .untracked hun fun hnone => ?_
    rcases drops hnone hv with ⟨rfl, -⟩ | ⟨c, rfl, hserver, hid⟩
    · exact not_expected_untracked (by simpa [steady] using hok) hun ⟨rfl, rfl⟩
    · have hnot : expected (s, w) c.server c.id = false := by
        simpa using (Bool.and_eq_true_iff.1 hok).2
      exact not_expected_untracked hnot hun ⟨hserver.symm, hid.symm⟩
  | leaving hi hv hid => exact .leaving hi hv hid
  | failed hready herror hunfit => exact .failed hready herror hunfit

/-- At first every record is one that its server has reported. -/
theorem believed_initial {earlier now : ℚ} {answer : String → ServerAnswer}
    (hw : w.Agrees cfg answer) {id : String}
    (hr : (initial now (survey cfg earlier answer)).recorded id = some r) :
    Believed (initial now (survey cfg earlier answer)) w r := by
  have hf := survey_complete cfg earlier answer
  obtain ⟨model, hm, hheap⟩ := initial_recorded hr
  obtain ⟨-, values, hread, hne, hloaded⟩ := (survey_shows cfg earlier answer).listed id model hm
  have hconf : cfg.adapters.contains model.variant.backend = true :=
    Dict.contains_iff.2 (Dict.mem_keys.1 (hf.server id model hm))
  have hvalue : w.has ((initial now (survey cfg earlier answer)).heap r).variant = values id := by
    rw [World.has, hheap, hw.reported _ values hconf hread, Catalogue.get_id (hf.known id model hm)]
  cases hready : model.ready with
  | true => exact .loaded (hvalue.trans (hloaded.1 hready))
  | false =>
    rcases (attended_initial hf).unready id r hr (by rw [hheap, hready]) with ⟨i, k, hi, ho⟩ | hun
    · obtain ⟨r', id', rfl, -⟩ := initial_tasks hi
      exact .loading hi ho
    · exact .untracked hun (by rw [hvalue]; exact hne)

/-! ## Every run -/

/-- What every state reached satisfies: the surveys in progress are right about
    the servers, and every record in `loaded` is justified. -/
theorem believed {x : State × World}
    (h : (served cfg).Reach (fun x c => current cfg x c = true) x) :
    (Showing cfg x.1 x.2 ∧ Steady x.1 x.2) ∧
      ∀ (id : String) (r : Ref), x.1.recorded id = some r → Believed x.1 x.2 r := by
  have started : ∀ {now : ℚ} {found : Survey} {p : ℕ} {variant : Variant} {i : Inspection},
      (initial now found).requests[p]? ≠ some (.surveying variant i) := by
    intro now found p variant i hp
    rcases (initial_requests hp).2 with heq | ⟨model, rest, heq⟩ <;> cases heq
  refine @System.Reach.environment _ _ _ _ _ _ _ _
    (fun s w => (Showing cfg s w ∧ Steady s w) ∧
      ∀ (id : String) (r : Ref), s.recorded id = some r → Believed s w r) ?_ ?_ ?_ _ h
  · rintro s w - ⟨earlier, now, answer, -, rfl, hw⟩
    exact ⟨⟨fun p variant i hp => absurd hp started, fun p variant i hp => absurd hp started⟩,
      fun id r hr => believed_initial hw hr⟩
  · rintro s w a t hs ⟨⟨hshow, hsteady⟩, hb⟩ hok hstep
    simp only [current, reliable, Sum.elim_inl, Bool.and_eq_true] at hok
    obtain ⟨⟨htrue, hdone⟩, hfin, hintact⟩ := hok
    have hreach : (scheduler cfg).Reach (fun s a => finishing s a = true) s := by
      refine hs.program fun x a hok => ?_
      simp only [current, Sum.elim_inl, Bool.and_eq_true] at hok
      exact hok.2.1
    have hinv := inv hreach
    refine ⟨⟨showing_step hinv.locking hshow hstep htrue, steady_step hinv.locking hsteady hstep⟩,
      fun id r hr => ?_⟩
    by_cases hold : s.recorded id = some r
    · exact (hb id r hold).step hreach hfin hdone hintact hstep hold hr
    · exact believed_new hinv hshow hsteady htrue hstep hr hold
  · rintro s w m w' - ⟨⟨hshow, hsteady⟩, hb⟩ hok hmove
    have hok : steady (s, w) m = true := (Bool.and_eq_true_iff.1 hok).2
    refine ⟨⟨fun p variant i hp => ?_, steady_move hsteady hok hmove⟩,
      fun id r hr => (hb id r hr).move hok hmove⟩
    rw [(move_cases hmove).readings]
    exact hshow p variant i hp

/-- Nothing is under way: no task is running, no command is outstanding, no
    server is loading a model of the catalogue, and the view has no problems. -/
def resting (cfg : Config) (x : State × World) : Bool :=
  (x.1.tasks.all fun k => k.owns.isNone) && x.2.commands.isEmpty &&
    (cfg.catalogue.variants.values.all fun variant => x.2.has variant ≠ .loading) &&
    x.1.view.problems = []

/-- When nothing is under way, every model in `loaded` is on its server, in every
    run in which no swap dies and no `track` is cancelled early; when an unload
    fails, the servers still have its victim and the victims after it, and drop
    them only for a swap that waits for it; and nothing becomes unloaded that a
    survey in progress has read otherwise. -/
theorem believed_loaded {x : State × World}
    (h : (served cfg).Reach (fun x c => current cfg x c = true) x) (hrest : resting cfg x = true)
    {id : String} {r : Ref} (hr : x.1.recorded id = some r) :
    x.2.value (x.1.heap r).variant.backend id ≠ .unloaded := by
  simp only [resting, Bool.and_eq_true, decide_eq_true_eq, List.all_eq_true] at hrest
  obtain ⟨⟨⟨hidle, -⟩, -⟩, hfit⟩ := hrest
  have ended : ∀ {i : ℕ} {k : Task} {m : Ref}, x.1.tasks[i]? = some k → k.owns ≠ some m := by
    intro i k m hi ho
    have hnone := hidle k (List.mem_of_getElem? hi)
    rw [ho] at hnone
    cases hnone
  have hreach : (scheduler cfg).Free x.1 := h.program fun _ _ _ => trivial
  have hid : (x.1.heap r).variant.id = id := ((inv hreach).refs.keyed id r hr).2
  rw [← hid]
  cases (believed h).2 id r hr with
  | loaded h =>
    intro hnone
    cases hnone.symm.trans h
  | loading hi hk => exact absurd (Task.owns_of_loading hk) (ended hi)
  | untracked _ hv => exact hv
  | leaving hi hv =>
    obtain ⟨m, ho⟩ := Task.owns_of_toUnload hv
    exact absurd ho (ended hi)
  | failed _ _ hunfit => exact absurd hfit hunfit

/-- The router has the first model of the shared card, and a request for the
    second has a swap started. -/
def swapStarted : List (Act ⊕ Move) :=
  [.inl (.activity 0 (.ok idle)), .inl (.tick 20), .inl (.arrive "b--cuda0"), .inl (.resume 1),
    .inl (.resume 1), .inl (.resume 1), .inl (.resume 1), .inl (.activity 1 (.ok idle)),
    .inl (.resume 1), .inl (.run 0)]

/-- The swap unloads the first model and loads the second one. -/
theorem believed_loaded_sharedCard :
    ∃ x, (served sharedCard).Reach (fun x c => current sharedCard x c = true) x ∧
      x.1.recorded "b--cuda0" = some 1 ∧ x.2.value "llama" "b--cuda0" ≠ .unloaded := by
  have h0 : (served sharedCard).init (initial 0 (survey sharedCard 0 (reporting "loaded")),
      World.of sharedCard (reporting "loaded")) := ⟨⟨0, 0, _, le_refl 0, rfl⟩, started_of ..⟩
  obtain ⟨x, hx, hP⟩ := @System.exists_reach _ _ _ (current sharedCard) _ h0
    (swapStarted ++ [.inr (.drop ⟨0, .unload, "llama", "a--cuda0"⟩), .inl (.call 0 (.ok ())),
      .inr (.start ⟨0, .load, "llama", "b--cuda0"⟩), .inr (.complete "llama" "b--cuda0"),
      .inl (.call 0 (.ok ())), .inl (.taskActivity 0 (.ok idle))])
    (fun x => resting sharedCard x && (x.1.recorded "b--cuda0" = some 1 &&
      (x.1.heap 1).variant.backend = "llama")) (by decide +kernel)
  simp only [Bool.and_eq_true, decide_eq_true_eq] at hP
  obtain ⟨hrest, hr, hback⟩ := hP
  exact ⟨x, hx, hr, hback ▸ believed_loaded hx hrest hr⟩

/-- The unload of the first model times out, and the router drops the model
    after that. It stays in `loaded`, and nothing is under way. -/
theorem late_unload_believed :
    ∃ x, (served sharedCard).Reach (fun x c => reliable sharedCard x c = true) x ∧
      resting sharedCard x = true ∧ x.1.recorded "a--cuda0" = some 0 ∧
      x.2.value (x.1.heap 0).variant.backend "a--cuda0" = .unloaded := by
  have h0 : (served sharedCard).init (initial 0 (survey sharedCard 0 (reporting "loaded")),
      World.of sharedCard (reporting "loaded")) := ⟨⟨0, 0, _, le_refl 0, rfl⟩, started_of ..⟩
  obtain ⟨x, hx, hP⟩ := @System.exists_reach _ _ _ (reliable sharedCard) _ h0
    (swapStarted ++ [.inl (.call 0 (.error "timed out")),
      .inr (.drop ⟨0, .unload, "llama", "a--cuda0"⟩)])
    (fun x => resting sharedCard x && (x.1.recorded "a--cuda0" = some 0 &&
      x.2.value (x.1.heap 0).variant.backend "a--cuda0" = .unloaded)) (by decide +kernel)
  simp only [Bool.and_eq_true, decide_eq_true_eq] at hP
  exact ⟨x, hx, hP.1, hP.2.1, hP.2.2⟩

end ModelBroker
