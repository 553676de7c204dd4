import ModelBroker.Scheduler.Counts
import ModelBroker.Scheduler.Finishing
import ModelBroker.Servers.World

/-!
# A re-inspection beside loads and unloads

`reinspect` holds the lock while it reads one server after the other, but a swap
or a `finish_load` that was started before goes on without the lock. What a
server had when it was read may be over when the survey is merged.

* `Tracks`: `loaded` tracks what the servers have and what tasks are doing.
* `Inspecting`: what holds from the beginning of a survey to its end, when it
  begins in such a state.
* `reinspect_merges_iff`: after the merge the view has problems, or `loaded` has
  what the servers have and the models in progress, exactly when the survey has
  problems, or the record of every model that has come or gone since its server
  was read makes up for it.
* `reinspect_loses_and_invents`: an unload and a load complete while the survey
  waits for the second server. The merge brings the unloaded model back and
  drops the loaded one.
-/

namespace ModelBroker

variable {cfg : Config} {s t : State} {a : Act} {w : World} {x y : State × World} {id : String}
  {r : Ref} {variant : Variant} {found : Survey}

/-! ## What `loaded` tracks -/

/-- A request is admitted to the model, a task is loading or unloading it, or its
    `finish_load` is about to be started. -/
def State.InProgress (s : State) (r : Ref) : Prop :=
  (∃ p : ℕ, s.requests[p]? = some (.admitted r)) ∨ s.Loads r ∨ s.Unloads r ∨ Untracked s r

/-- `loaded` tracks exactly the models that the servers have or tasks are loading
    or unloading, and a record says of itself whether it is loading or leaving. -/
structure Tracks (cfg : Config) (x : State × World) : Prop where
  held : ∀ variant ∈ cfg.catalogue.variants.values, x.2.has variant ≠ .unloaded →
    x.1.view.loaded.contains variant.id = true
  justified : ∀ r ∈ x.1.view.loaded.values,
    x.2.has (x.1.heap r).variant ≠ .unloaded ∨ x.1.Loads r ∨ x.1.Unloads r
  loading : ∀ k ∈ x.1.tasks, ∀ r ∈ k.owns, x.1.recorded (x.1.heap r).variant.id = some r
  unloading : ∀ k ∈ x.1.tasks, ∀ r ∈ k.toUnload, x.1.recorded (x.1.heap r).variant.id = some r
  unready : ∀ r ∈ x.1.view.loaded.values, (x.1.heap r).ready = false → x.1.Loads r
  leaving : ∀ r ∈ x.1.view.loaded.values, (x.1.heap r).leaving = true → x.1.Unloads r

/-- `loaded` has every catalogue model that a server has, and no other models but
    those in progress. -/
structure Merged (cfg : Config) (x : State × World) : Prop where
  tracked : ∀ id variant, cfg.catalogue.get id = some variant → x.2.has variant ≠ .unloaded →
    ∃ r, x.1.recorded id = some r
  real : ∀ id r, x.1.recorded id = some r →
    x.2.has (x.1.heap r).variant ≠ .unloaded ∨ x.1.InProgress r

theorem admitted_iff (h : Counted s) (hr : r < s.next) :
    (∃ p : ℕ, s.requests[p]? = some (.admitted r)) ↔ (s.heap r).active ≠ 0 := by
  rw [h.active r hr]
  constructor
  · rintro ⟨p, hp⟩
    exact Nat.ne_of_gt (Table.countP_pos hp (Request.admittedTo_iff.2 rfl))
  · intro hne
    by_contra hnone
    refine hne (Table.countP_eq_zero.2 fun p q hp => ?_)
    by_contra had
    obtain rfl := Request.admittedTo_iff.1 (Bool.not_eq_false _ ▸ had)
    exact hnone ⟨p, hp⟩

/-- A record in progress shows it. -/
theorem State.InProgress.shown (hinv : Inv cfg s) (hcount : Counted s) (hr : r < s.next)
    (h : s.InProgress r) : (s.heap r).inProgress = true := by
  unfold LoadedModel.inProgress
  rcases h with had | ⟨i, k, hi, ho⟩ | ⟨i, k, hi, hmem⟩ | ⟨-, -, -, -, -, -, hready⟩
  · simp [(admitted_iff hcount hr).1 had]
  · simp [hinv.owners.unready i k r hi ho]
  · simp [(hinv.victims.leaving i k r hi (Task.victims_of_toUnload hmem)).1]
  · simp [hready]

theorem inProgress_iff (hinv : Inv cfg s) (hcount : Counted s) (hatt : Attended s)
    (hr : s.recorded id = some r) : s.InProgress r ↔ (s.heap r).inProgress = true := by
  have hlt := (hinv.refs.keyed id r hr).1
  refine ⟨fun h => h.shown hinv hcount hlt, fun h => ?_⟩
  simp only [LoadedModel.inProgress, Bool.or_eq_true, decide_eq_true_eq, Bool.not_eq_true'] at h
  rcases h with (hactive | hleaving) | hready
  · exact .inl ((admitted_iff hcount hlt).2 hactive)
  · exact .inr (.inr (.inl (hatt.leaving id r hr hleaving)))
  · exact (hatt.unready id r hr hready).elim (fun h => .inr (.inl h)) fun h => .inr (.inr (.inr h))

/-! ## While a survey is in progress -/

/-- Nobody but a survey holds the lock. -/
def OnlySurveys (s : State) : Prop :=
  ∀ (p : ℕ) (q : Request), s.requests[p]? = some q → q.holdsLock = true →
    ∃ variant i, q = .surveying variant i

theorem OnlySurveys.of_lockFree (h : s.lockFree = true) : OnlySurveys s := by
  intro p q hp hl
  rw [not_holds_of_lockFree h hp] at hl
  cases hl

theorem OnlySurveys.of_surveying (hlock : Locking s) {p : ℕ} {i : Inspection}
    (hp : s.requests[p]? = some (.surveying variant i)) : OnlySurveys s := by
  intro p' q hp' hl
  obtain rfl := hlock p p' _ q hp hp' rfl hl
  exact ⟨variant, i, Option.some.inj (hp'.symm.trans hp)⟩

theorem OnlySurveys.undecided (h : OnlySurveys s) (p : ℕ) : s.decision p = none := by
  by_contra hne
  obtain ⟨⟨job, victims⟩, hd⟩ := Option.ne_none_iff_exists'.1 hne
  obtain ⟨look, hq, -⟩ := decision_eq_some.1 hd
  obtain ⟨variant, i, heq⟩ := h p _ hq rfl
  cases heq

theorem OnlySurveys.not_untracked (h : OnlySurveys s) : ¬ Untracked s r := by
  rintro ⟨p, after, model, rest, hp, -⟩
  obtain ⟨variant, i, heq⟩ := h p _ hp rfl
  cases heq

theorem OnlySurveys.not_abandons (h : OnlySurveys s) (a : Act) : s.abandons a = false := by
  unfold State.abandons
  split
  · split
    · next hp =>
      obtain ⟨variant, i, heq⟩ := h _ _ hp rfl
      cases heq
    · rfl
  · rfl

/-- Tasks, requests and `loaded` know of each other. -/
structure Orderly (s : State) : Prop where
  stored : Stored s
  present : Present s
  attended : Attended s

theorem Orderly.finishing (h : Orderly s) (hlock : OnlySurveys s) (a : Act) :
    finishing s a = true :=
  finishing_iff.2 ⟨hlock.not_abandons a, h.stored.not_crashes h.present⟩

theorem orderly_step (hinv : Inv cfg s) (h : Orderly s) (hlock : OnlySurveys s)
    (hstep : Step cfg s a t) (hno : NoInstall cfg s a) : Orderly t where
  stored := stored_step hinv h.stored hstep hno
  present := present_step hinv h.stored h.present hstep hno fun p job victims hd => by
    rw [hlock.undecided p] at hd
    cases hd
  attended := ⟨h.attended.unready_step hinv (h.finishing hlock a) hstep,
    h.attended.leaving_step hinv (h.finishing hlock a) hstep⟩

theorem Tracks.orderly (h : Tracks cfg x) (hfree : (scheduler cfg).Free x.1)
    (hlock : OnlySurveys x.1) : Orderly x.1 := by
  have hvalues : ∀ {id : String} {r : Ref}, x.1.recorded id = some r →
      r ∈ x.1.view.loaded.values := fun {id r} hr => Dict.mem_values.2 ⟨id, hr⟩
  have hpresent : Present x.1 := fun i k r hi hr =>
    h.unloading k (List.mem_of_getElem? hi) r hr
  refine ⟨⟨?_, ?_, ?_, clashing hfree⟩, hpresent, ⟨?_, ?_⟩⟩
  · intro i k r hi ho
    exact h.loading k (List.mem_of_getElem? hi) r ho
  · intro r hr
    exact absurd hr hlock.not_untracked
  · intro i k r r' hi hr hr'
    rw [hpresent i k r hi hr] at hr'
    exact (Option.some.inj hr').symm
  · intro id r hr hready
    exact .inl (h.unready r (hvalues hr) hready)
  · intro id r hr hleaving
    exact h.leaving r (hvalues hr) hleaving

/-- The client that has asked for the survey in progress disconnects. -/
def State.givesUp (s : State) : Act → Bool
  | .cancel p =>
    match s.requests[p]? with
    | some (.surveying _ _) => true
    | _ => false
  | _ => false

/-- The survey in progress goes on: the servers tell it the truth, it does not end
    yet, and nobody cancels it. -/
def inspecting (cfg : Config) (x : State × World) (c : Act ⊕ Move) : Bool :=
  c.elim (fun a => faithful cfg x a && ((x.1.concludes cfg a).isNone && !x.1.givesUp a))
    fun _ => true

/-- A re-inspection has just begun to read the servers, in a state in which
    `loaded` tracks them. -/
def Begun (cfg : Config) (x : State × World) : Prop :=
  ∃ (x₀ : State × World) (a : Act), (scheduler cfg).Free x₀.1 ∧ Tracks cfg x₀ ∧
    x₀.1.reinspects a = true ∧ x₀.1.concludes cfg a = none ∧
    (served cfg).step x₀ (.inl a) = some x

/-- The re-inspection, from the first server on. -/
def reinspection (cfg : Config) : System (State × World) (Act ⊕ Move) :=
  (served cfg).startingIn (Begun cfg)

/-- A request is inside its survey. -/
def Request.surveys (q : Request) : Prop := ∃ variant i, q = .surveying variant i

theorem noInstall_of_concludes (h : s.concludes cfg a = none) : NoInstall cfg s a := by
  intro p q variant found hq hs
  rw [hs.concludes hq] at h
  cases h

theorem surveys_step (hstep : Step cfg s a t) (hno : NoInstall cfg s a)
    (hstays : s.givesUp a = false) {p : ℕ} {q : Request} (hp : s.requests[p]? = some q)
    (hq : q.surveys) : ∃ q', t.requests[p]? = some q' ∧ q'.surveys := by
  have forward := @Table.forward Request Request.surveys False
  suffices h : (∃ q', t.requests[p]? = some q' ∧ q'.surveys) ∨ False from h.resolve_right id
  cases hstep with
  | arrive => exact .inl ⟨q, Table.get_of_append hp, hq⟩
  | silent h₀ hsil =>
    refine forward h₀ rfl hp hq ?_
    rintro ⟨variant, i, rfl⟩
    cases hsil with
    | survey => exact .inl ⟨_, _, rfl⟩
    | block hjob _ => cases hjob
    | cancelled => simp [State.givesUp, h₀] at hstays
  | install h₀ hs => exact absurd hs (hno _ _ _ _ h₀)
  | enter h₀ hfrom =>
    refine forward h₀ rfl hp hq ?_
    rintro ⟨variant, i, rfl⟩
    rcases hfrom with heq | ⟨id, heq, -⟩ <;> cases heq
  | quit h₀ hjob =>
    refine forward h₀ rfl hp hq ?_
    rintro ⟨variant, i, rfl⟩
    cases hjob
  | baseline h₀ | join h₀ | queue h₀ | busy h₀ | idle h₀ | commit h₀ | joined h₀ | unjoin h₀
  | release h₀ =>
    refine forward h₀ rfl hp hq ?_
    rintro ⟨variant, i, heq⟩
    cases heq
  | tick | task | unloaded | crash | unloadFailed | crashFailed | loadFailed | dropped | gone
  | unsure | baselined => exact .inl ⟨q, hp, hq⟩

/-- What holds while a survey is in progress that began in a state in which
    `loaded` tracks the servers. -/
structure Inspecting (cfg : Config) (x : State × World) : Prop where
  free : (scheduler cfg).Free x.1
  surveying : ∃ (p : ℕ) (q : Request), x.1.requests[p]? = some q ∧ q.surveys
  orderly : Orderly x.1
  showing : Showing cfg x.1 x.2

theorem Inspecting.onlySurveys (h : Inspecting cfg x) : OnlySurveys x.1 := by
  obtain ⟨p, q, hp, variant, i, rfl⟩ := h.surveying
  exact .of_surveying (inv h.free).locking hp

theorem inspecting_step (h : Inspecting cfg x) (hok : inspecting cfg x (.inl a) = true)
    (hy : (served cfg).step x (.inl a) = some y) : Inspecting cfg y := by
  obtain ⟨hstep, hw⟩ := System.under_inl.1 hy
  simp only [inspecting, Sum.elim_inl, Bool.and_eq_true, Bool.not_eq_true',
    Option.isNone_iff_eq_none] at hok
  obtain ⟨htrue, hgoes, hstays⟩ := hok
  have hno := noInstall_of_concludes hgoes
  have hinv := inv h.free
  obtain ⟨p, q, hp, hq⟩ := h.surveying
  refine ⟨.step h.free trivial hstep, ⟨p, surveys_step (step_cases hstep) hno hstays hp hq⟩,
    orderly_step hinv h.orderly h.onlySurveys (step_cases hstep) hno, ?_⟩
  rw [hw]
  exact showing_step hinv.locking h.showing hstep htrue

theorem inspecting_move {m : Move} (h : Inspecting cfg x)
    (hy : (served cfg).step x (.inr m) = some y) : Inspecting cfg y := by
  obtain ⟨hm, hs⟩ := System.under_inr.1 hy
  have hreadings := (move_cases hm).readings
  refine ⟨hs ▸ h.free, hs ▸ h.surveying, hs ▸ h.orderly, ?_⟩
  rw [Showing, hreadings, hs]
  exact h.showing

theorem Begun.inspecting (h : Begun cfg x) : Inspecting cfg x := by
  obtain ⟨x₀, a, hfree, htracks, hre, hgoes, hx⟩ := h
  obtain ⟨hstep, hw⟩ := System.under_inl.1 hx
  obtain ⟨p, variant, rfl, hp, hlock, hunfit⟩ := reinspects_iff.1 hre
  have hno := noInstall_of_concludes hgoes
  have hcases : Step cfg x₀.1 (.resume p) x.1 := step_cases hstep
  have hs := @Surveys.start cfg x₀.1 p variant hlock hunfit
  have hlocks := OnlySurveys.of_lockFree hlock
  have hinv := inv hfree
  have hshowing : Showing cfg x₀.1 x₀.2 := by
    intro p' variant' i hp'
    have := not_holds_of_lockFree hlock hp'
    cases this
  refine ⟨.step hfree trivial hstep, ?_,
    orderly_step hinv (htracks.orderly hfree hlocks) hlocks hcases hno, ?_⟩
  · have hsur := hs.step hp
    rw [show ModelBroker.step cfg x₀.1 (.resume p) = some x.1 from hstep] at hsur
    cases hnext : surveyNext x₀.1.now {} cfg.adapters.entries with
    | inl found => exact absurd (hnext ▸ hs) (hno p _ variant found hp)
    | inr i =>
      rw [hnext] at hsur
      rw [Option.some.inj hsur]
      exact ⟨p, _, Table.get_set_self hp, variant, i, rfl⟩
  · rw [hw]
    exact showing_step hinv.locking hshowing hstep rfl

theorem inspecting_reach (h : (reinspection cfg).Reach (fun x c => inspecting cfg x c = true) x) :
    Inspecting cfg x := by
  refine h.invariant (fun x (hx : Begun cfg x) => hx.inspecting) ?_
  intro x c y _ hx hok hy
  cases c with
  | inl a => exact inspecting_step hx hok hy
  | inr m => exact inspecting_move hx hy

/-! ## The merge -/

/-- The record of the model, if it has one, is held or in progress, and a model
    that its server has is recorded. -/
def accounted (x : State × World) (variant : Variant) : Bool :=
  match x.1.recorded variant.id with
  | some r => x.2.has variant ≠ .unloaded || (x.1.heap r).inProgress
  | none => x.2.has variant = .unloaded

/-- The model has neither come nor gone since its server was read with these
    values, or the merge leaves it a record in progress. A model read as unloaded
    keeps its record if that is in progress. Any other keeps its record if that
    has no error, and otherwise gets a new one, in progress if the model was read
    as loading. -/
def upToDate (x : State × World) (variant : Variant) (values : String → Value) : Bool :=
  if values variant.id = .unloaded then
    x.2.has variant = .unloaded || (x.1.recorded variant.id).any fun r => (x.1.heap r).inProgress
  else
    x.2.has variant ≠ .unloaded ||
      match (x.1.recorded variant.id).filter fun r => (x.1.heap r).error.isNone with
      | some r => (x.1.heap r).inProgress
      | none => values variant.id = .loading

/-- Every catalogue model of the servers that were read is up to date. -/
def UpToDate (cfg : Config) (readings : String → Option (String → Value)) (x : State × World) :
    Prop :=
  ∀ id variant values, cfg.catalogue.get id = some variant →
    readings variant.backend = some values → upToDate x variant values = true

theorem merged_iff (hinv : Inv cfg x.1) (hcount : Counted x.1) (hatt : Attended x.1) :
    Merged cfg x ↔
      ∀ id variant, cfg.catalogue.get id = some variant → accounted x variant = true := by
  constructor
  · intro h id variant hv
    have hid := Catalogue.get_id hv
    unfold accounted
    split
    · next r hr =>
      rw [hid] at hr
      have hvariant : (x.1.heap r).variant = variant :=
        Option.some.inj ((hinv.refs.stored hr).symm.trans hv)
      have hreal := h.real id r hr
      rw [hvariant, inProgress_iff hinv hcount hatt hr] at hreal
      simpa using hreal
    · next hr =>
      by_contra hne
      obtain ⟨r, hr'⟩ := h.tracked id variant hv (by simpa using hne)
      rw [hid, hr'] at hr
      cases hr
  · intro h
    constructor
    · intro id variant hv hne
      have hacc := h id variant hv
      unfold accounted at hacc
      rw [Catalogue.get_id hv] at hacc
      split at hacc
      · next r hr => exact ⟨r, hr⟩
      · exact absurd (of_decide_eq_true hacc) hne
    · intro id r hr
      have hkey := (hinv.refs.keyed id r hr).2
      have hacc := h id _ (hinv.refs.stored hr)
      simp only [accounted, hkey, hr, Bool.or_eq_true, decide_eq_true_eq] at hacc
      rw [inProgress_iff hinv hcount hatt hr]
      exact hacc

/-- What a survey without problems found of a model, given what its server had
    when it was read. -/
theorem found_of_shows {readings : String → Option (String → Value)} (hf : found.Complete cfg)
    (hshows : found.Shows cfg readings []) (hclear : found.problems = [])
    (hv : cfg.catalogue.get id = some variant) :
    ∃ values, readings variant.backend = some values ∧
      ((values id = .unloaded ∧ found.loaded.get id = none) ∨
        ∃ model, found.loaded.get id = some model ∧ model.Fresh ∧ values id ≠ .unloaded ∧
          (model.ready = true ↔ values id = .loaded)) := by
  have hreached : variant.backend ∉ found.unreachable := fun hmem =>
    hf.reported (List.ne_nil_of_mem hmem) hclear
  obtain ⟨values, hvalues, hfound⟩ := hshows.complete id variant hv (by simp) hreached
  refine ⟨values, hvalues, ?_⟩
  cases hm : found.loaded.get id with
  | none =>
    refine .inl ⟨?_, rfl⟩
    by_contra hne
    obtain ⟨model, hmodel⟩ := hfound hne
    rw [hm] at hmodel
    cases hmodel
  | some model =>
    obtain ⟨-, values', hvalues', hne, hready⟩ := hshows.listed id model hm
    have hvariant := hf.known id model hm
    rw [hv] at hvariant
    rw [← Option.some.inj hvariant, hvalues] at hvalues'
    obtain rfl := Option.some.inj hvalues'
    exact .inr ⟨model, rfl, hf.fresh id model hm, hne, hready⟩

/-- A step that merges a survey of true reports, and what holds after it. -/
structure Concluded (cfg : Config) (x : State × World) (found : Survey) (y : State × World) :
    Prop where
  before : Inv cfg x.1
  after : Inv cfg y.1
  counted : Counted y.1
  attended : Attended y.1
  complete : found.Complete cfg
  shows : found.Shows cfg y.2.readings []
  problems : y.1.view.problems = found.problems
  recorded : ∀ id, y.1.recorded id = (mergeLoaded x.1 found).get id
  heap : y.1.heap = adopt x.1 found
  value : y.2.value = x.2.value

theorem concluded (hx : Inspecting cfg x) (htrue : faithful cfg x a = true)
    (hfound : x.1.concludes cfg a = some found) (hy : (served cfg).step x (.inl a) = some y) :
    Concluded cfg x found y := by
  obtain ⟨hstep, hw⟩ := System.under_inl.1 hy
  obtain ⟨p, q, variant, hq, hs⟩ := surveys_of_concludes hfound
  have hinv := inv hx.free
  have hfree : (scheduler cfg).Free y.1 := .step hx.free trivial hstep
  have hcases : Step cfg x.1 a y.1 := step_cases hstep
  have hfinish := hx.orderly.finishing hx.onlySurveys a
  obtain ⟨pending, q', -, heq⟩ :=
    track_cases (installed x.1 found) p (some variant) (newModels x.1 found)
  have ht : y.1 = ((installed x.1 found).background (pending.map .finishReady)).goto p q' := by
    rw [← heq]
    exact Option.some.inj ((show step cfg x.1 a = some y.1 from hstep).symm.trans (hs.step hq))
  refine ⟨hinv, inv hfree, counted hfree,
    ⟨hx.orderly.attended.unready_step hinv hfinish hcases,
      hx.orderly.attended.leaving_step hinv hfinish hcases⟩, hinv.refs.complete hq hs, ?_,
    by rw [ht]; rfl, fun id => by rw [ht]; rfl, by rw [ht]; rfl, ?_⟩
  · rw [hw]
    exact hs.shows hq hx.showing htrue
  · rw [hw]
    exact react_value ..

variable {values : String → Value}

theorem Concluded.has (h : Concluded cfg x found y) (variant : Variant) :
    y.2.has variant = x.2.has variant := by
  rw [World.has, World.has, h.value]

/-- A record that was there before the merge is as it was. -/
theorem Concluded.heap_of_recorded (h : Concluded cfg x found y) (hr : x.1.recorded id = some r) :
    y.1.heap r = x.1.heap r := by
  rw [h.heap]
  exact adopt_of_lt (h.before.refs.keyed id r hr).1

/-- What the merge makes of a model that the survey has not found. -/
theorem Concluded.missing (h : Concluded cfg x found y) (hclear : found.problems = [])
    (hun : values variant.id = .unloaded) (hm : found.loaded.get variant.id = none) :
    accounted y variant = upToDate x variant values := by
  have hreached : found.unreachable = [] := by
    by_contra hne
    exact h.complete.reported hne hclear
  have hrec : y.1.recorded variant.id =
      (x.1.recorded variant.id).filter fun r => (x.1.heap r).inProgress := by
    rw [h.recorded, get_mergeLoaded, hm]
    simp [keptMissing, hreached]
  simp only [accounted, upToDate, hun, if_true, h.has, hrec]
  cases hr : x.1.recorded variant.id with
  | none => simp
  | some r =>
    rw [Option.filter_some]
    split_ifs with hin
    · simp [h.heap_of_recorded hr, hin]
    · simp [hin]

/-- What the merge makes of a model that the survey has found. -/
theorem Concluded.listed {model : LoadedModel} (h : Concluded cfg x found y)
    (hun : values variant.id ≠ .unloaded) (hm : found.loaded.get variant.id = some model)
    (hfresh : model.Fresh) (hready : model.ready = true ↔ values variant.id = .loaded) :
    accounted y variant = upToDate x variant values := by
  obtain ⟨r, hr⟩ := (@adoptedRefs_isSome x.1 found variant.id).2 ⟨model, hm⟩
  have hrec : y.1.recorded variant.id = (keptFound x.1 variant.id).or (some r) := by
    rw [h.recorded, get_mergeLoaded, hm, hr]
  simp only [accounted, upToDate, hun, if_false, h.has, hrec]
  cases hkept : keptFound x.1 variant.id with
  | some c =>
    have hc := (Option.filter_eq_some_iff.1 hkept).1
    rw [keptFound] at hkept
    simp [hkept, h.heap_of_recorded hc]
  | none =>
    -- the new record is in progress if it is not ready
    have hnew : (y.1.heap r).inProgress = decide (values variant.id = .loading) := by
      rw [h.heap, adopt_of_ref hr hm, LoadedModel.inProgress, hfresh.active, hfresh.leaving]
      cases hv : values variant.id with
      | unloaded => exact absurd hv hun
      | loading => simp [show model.ready = false by simpa [hv] using hready]
      | loaded => simp [show model.ready = true by simpa [hv] using hready]
    rw [keptFound] at hkept
    simp [hkept, hnew]

theorem Concluded.merged_iff (h : Concluded cfg x found y) (hclear : found.problems = []) :
    Merged cfg y ↔ UpToDate cfg y.2.readings x := by
  rw [ModelBroker.merged_iff h.after h.counted h.attended]
  have hsame : ∀ {id : String} {variant : Variant}, cfg.catalogue.get id = some variant →
      ∃ values, y.2.readings variant.backend = some values ∧
        accounted y variant = upToDate x variant values := by
    intro id variant hv
    obtain ⟨values, hvalues, hcases⟩ := found_of_shows h.complete h.shows hclear hv
    refine ⟨values, hvalues, ?_⟩
    rw [← Catalogue.get_id hv] at hcases
    rcases hcases with ⟨hun, hm⟩ | ⟨model, hm, hfresh, hun, hready⟩
    · exact h.missing hclear hun hm
    · exact h.listed hun hm hfresh hready
  constructor
  · intro hacc id variant values hv hvalues
    obtain ⟨values', hvalues', heq⟩ := hsame hv
    rw [hvalues] at hvalues'
    rw [Option.some.inj hvalues', ← heq]
    exact hacc id variant hv
  · intro hup id variant hv
    obtain ⟨values, hvalues, heq⟩ := hsame hv
    rw [heq]
    exact hup id variant values hv hvalues

/-- For every re-inspection that begins in a state in which `loaded` tracks the
    servers, whatever else happens until its survey ends and is merged: after the
    merge the view has problems or `loaded` is right, exactly when the survey has
    problems or every model is up to date. -/
theorem reinspect_merges_iff
    (hx : (reinspection cfg).Reach (fun x c => inspecting cfg x c = true) x)
    (htrue : faithful cfg x a = true) (hfound : x.1.concludes cfg a = some found)
    (hy : (served cfg).step x (.inl a) = some y) :
    y.1.view.problems ≠ [] ∨ Merged cfg y ↔
      found.problems ≠ [] ∨ UpToDate cfg y.2.readings x := by
  have hcon := concluded (inspecting_reach hx) htrue hfound hy
  rw [hcon.problems]
  by_cases hclear : found.problems = []
  · rw [hcon.merged_iff hclear]
  · simp [hclear]

/-! ## Two servers -/

theorem loads_iff : s.Loads r ↔ ∃ k ∈ s.tasks, k.owns = some r := by
  constructor
  · rintro ⟨i, k, hi, ho⟩
    exact ⟨k, List.mem_of_getElem? hi, ho⟩
  · rintro ⟨k, hk, ho⟩
    obtain ⟨i, hi⟩ := List.mem_iff_getElem?.1 hk
    exact ⟨i, k, hi, ho⟩

theorem unloads_iff : s.Unloads r ↔ ∃ k ∈ s.tasks, r ∈ k.toUnload := by
  constructor
  · rintro ⟨i, k, hi, hmem⟩
    exact ⟨k, List.mem_of_getElem? hi, hmem⟩
  · rintro ⟨k, hk, hmem⟩
    obtain ⟨i, hi⟩ := List.mem_iff_getElem?.1 hk
    exact ⟨i, k, hi, hmem⟩

instance (s : State) (r : Ref) : Decidable (s.Loads r) := decidable_of_iff _ loads_iff.symm

instance (s : State) (r : Ref) : Decidable (s.Unloads r) := decidable_of_iff _ unloads_iff.symm

instance (cfg : Config) (x : State × World) : Decidable (Tracks cfg x) :=
  decidable_of_iff
    ((∀ variant ∈ cfg.catalogue.variants.values, x.2.has variant ≠ .unloaded →
        x.1.view.loaded.contains variant.id = true) ∧
      (∀ r ∈ x.1.view.loaded.values,
        x.2.has (x.1.heap r).variant ≠ .unloaded ∨ x.1.Loads r ∨ x.1.Unloads r) ∧
      (∀ k ∈ x.1.tasks, ∀ r ∈ k.owns, x.1.recorded (x.1.heap r).variant.id = some r) ∧
      (∀ k ∈ x.1.tasks, ∀ r ∈ k.toUnload, x.1.recorded (x.1.heap r).variant.id = some r) ∧
      (∀ r ∈ x.1.view.loaded.values, (x.1.heap r).ready = false → x.1.Loads r) ∧
      ∀ r ∈ x.1.view.loaded.values, (x.1.heap r).leaving = true → x.1.Unloads r)
    ⟨fun ⟨h₁, h₂, h₃, h₄, h₅, h₆⟩ => ⟨h₁, h₂, h₃, h₄, h₅, h₆⟩,
      fun h => ⟨h.held, h.justified, h.loading, h.unloading, h.unready, h.leaving⟩⟩

/-- A test that succeeds after the re-inspection of a request, begun after these
    actions, has gone on like this, succeeds in a state it reaches. -/
theorem exists_reinspection (cfg : Config) (answer : String → ServerAnswer) (acts : List Act)
    (w : World) (p : ℕ) (later : List (Act ⊕ Move)) (P : State × World → Bool)
    (h : ((scheduler cfg).run (fun _ _ => true) (initial 0 (survey cfg 0 answer)) acts).any
      (fun s => decide (Tracks cfg (s, w)) &&
        (s.reinspects (.resume p) && (s.concludes cfg (.resume p)).isNone) &&
        ((served cfg).step (s, w) (.inl (.resume p))).any fun x =>
          ((reinspection cfg).run (inspecting cfg) x later).any P) = true) :
    ∃ x, (reinspection cfg).Reach (fun x c => inspecting cfg x c = true) x ∧ P x = true := by
  obtain ⟨s, hrun, hs⟩ := (Option.any_eq_true ..).1 h
  simp only [Bool.and_eq_true, decide_eq_true_eq, Option.isNone_iff_eq_none] at hs
  obtain ⟨⟨htracks, hre, hgoes⟩, hlater⟩ := hs
  obtain ⟨x, hx, hP⟩ := (Option.any_eq_true ..).1 hlater
  have h0 : (scheduler cfg).init (initial 0 (survey cfg 0 answer)) :=
    ⟨0, 0, answer, le_refl 0, rfl⟩
  have hfree : (scheduler cfg).Free s := ((System.Reach.init h0).run hrun).free
  have hbegun : (reinspection cfg).init x :=
    ⟨(s, w), .resume p, hfree, htracks, hre, hgoes, hx⟩
  exact System.exists_reach hbegun later P hP

/-- A router with three models, two of them for one card, and a second server. -/
def twoServers : Config :=
  .ofVariants ⟨[("llama", "llama.cpp"), ("strata", "Strata")], by decide⟩
    [.claiming "llama" "a--cuda0" ["GPU0"], .claiming "llama" "b--cuda0" ["GPU0"],
      .claiming "llama" "c--cuda1" ["GPU1"], .claiming "strata" "d--cuda2" ["GPU2"]]
    (by decide) (by decide) 0 30

/-- The router has the first model. -/
def routerHasFirst : String → ServerAnswer
  | "llama" => reporting "loaded" "llama"
  | _ => .ok (⟨0, false, none⟩, ∅)

/-- The router reports the first model loaded and the third loading. -/
def firstAndThird : Dict String ModelState :=
  ⟨[("a--cuda0", { value := "loaded" }), ("c--cuda1", { value := "loading" })], by decide⟩

/-- A request for the second model has the first one unloaded. The load of the
    third times out while the router is loading it, so the next request has the
    servers inspected. -/
def loadTimesOut : List Act :=
  [.activity 0 (.ok idle), .arrive "b--cuda0", .resume 1, .resume 1, .resume 1, .resume 1,
    .activity 1 (.ok idle), .resume 1, .run 0, .arrive "c--cuda1", .resume 2, .resume 2,
    .resume 2, .resume 2, .run 1, .call 1 (.error "timed out"), .taskStates 1 (.ok firstAndThird),
    .arrive "a--cuda0", .resume 3]

/-- The servers when the inspection begins. -/
def duringSwap : World where
  value server id :=
    if server = "llama" ∧ id = "a--cuda0" then .loaded
    else if server = "llama" ∧ id = "c--cuda1" then .loading
    else .unloaded
  commands := [⟨0, .unload, "llama", "a--cuda0"⟩]

/-- The router answers, and then the settings of the second server are read. -/
def routerRead : List (Act ⊕ Move) :=
  [.inl (.props 3 (.ok ⟨0, false, none⟩)), .inl (.states 3 (.ok firstAndThird)),
    .inl (.props 3 (.ok ⟨0, false, none⟩))]

/-- The second server answers: the survey ends and is merged. -/
def secondRead : Act := .states 3 (.ok ∅)

/-- The router has dropped the first model when the survey is merged, and the swap
    has not been told yet. Its record is still leaving, and everything is right. -/
theorem reinspect_merges_iff_twoServers :
    ∃ x found y, (reinspection twoServers).Reach (fun x c => inspecting twoServers x c = true) x ∧
      faithful twoServers x secondRead = true ∧
      x.1.concludes twoServers secondRead = some found ∧
      (served twoServers).step x (.inl secondRead) = some y ∧ y.1.view.problems = [] ∧
      Merged twoServers y := by
  obtain ⟨x, hx, hP⟩ := exists_reinspection twoServers routerHasFirst loadTimesOut duringSwap 3
    (routerRead ++ [.inr (.drop ⟨0, .unload, "llama", "a--cuda0"⟩)])
    (fun x => faithful twoServers x secondRead && (x.1.concludes twoServers secondRead).isSome &&
      ((served twoServers).step x (.inl secondRead)).any fun y : State × World =>
        decide (y.1.view.problems = []) && twoServers.catalogue.variants.values.all fun variant =>
          (y.2.readings variant.backend).all fun values => upToDate x variant values)
    (by decide +kernel)
  simp only [Bool.and_eq_true] at hP
  obtain ⟨⟨htrue, hsome⟩, hstep⟩ := hP
  obtain ⟨found, hfound⟩ := Option.isSome_iff_exists.1 hsome
  obtain ⟨y, hy, hafter⟩ := (Option.any_eq_true ..).1 hstep
  simp only [Bool.and_eq_true, decide_eq_true_eq, List.all_eq_true] at hafter
  obtain ⟨hclear, hall⟩ := hafter
  have hup : UpToDate twoServers y.2.readings x := by
    intro id variant values hv hvalues
    have hread := hall variant (Dict.mem_values.2 ⟨id, hv⟩)
    rw [hvalues] at hread
    exact hread
  have hmerged := (reinspect_merges_iff hx htrue hfound hy).2 (.inr hup)
  exact ⟨x, found, y, hx, htrue, hfound, hy, hclear, hmerged.resolve_left (· hclear)⟩

/-- While the survey waits for the second server, the swap unloads the first model
    and loads the second one, whose client has gone. -/
def swapDone : List (Act ⊕ Move) :=
  [.inr (.drop ⟨0, .unload, "llama", "a--cuda0"⟩), .inl (.call 0 (.ok ())),
    .inr (.start ⟨0, .load, "llama", "b--cuda0"⟩), .inr (.complete "llama" "b--cuda0"),
    .inl (.call 0 (.ok ())), .inl (.taskActivity 0 (.ok idle)), .inl (.cancel 1)]

/-- The router was read with the first model and without the second. The merge
    gives the first a new record, though it is gone, and drops that of the second,
    though the router has it. -/
theorem reinspect_loses_and_invents :
    ∃ x found y, (reinspection twoServers).Reach (fun x c => inspecting twoServers x c = true) x ∧
      faithful twoServers x secondRead = true ∧
      x.1.concludes twoServers secondRead = some found ∧
      (served twoServers).step x (.inl secondRead) = some y ∧
      (y.1.recorded "b--cuda0" = none ∧ y.2.value "llama" "b--cuda0" = .loaded) ∧
      (∃ r, y.1.recorded "a--cuda0" = some r ∧ y.2.value "llama" "a--cuda0" = .unloaded ∧
        ¬ y.1.InProgress r) ∧
      ¬ (y.1.view.problems ≠ [] ∨ Merged twoServers y) := by
  obtain ⟨x, hx, hP⟩ := exists_reinspection twoServers routerHasFirst loadTimesOut duringSwap 3
    (routerRead ++ swapDone)
    (fun x => faithful twoServers x secondRead && (x.1.concludes twoServers secondRead).isSome &&
      ((served twoServers).step x (.inl secondRead)).any fun y : State × World =>
        decide (y.1.view.problems = []) &&
        (decide (y.1.recorded "b--cuda0" = none) && y.2.value "llama" "b--cuda0" = .loaded) &&
        (y.1.recorded "a--cuda0" = some 3 && (y.2.value "llama" "a--cuda0" = .unloaded &&
          decide ((y.1.heap 3).inProgress = false))))
    (by decide +kernel)
  simp only [Bool.and_eq_true] at hP
  obtain ⟨⟨htrue, hsome⟩, hstep⟩ := hP
  obtain ⟨found, hfound⟩ := Option.isSome_iff_exists.1 hsome
  obtain ⟨y, hy, hafter⟩ := (Option.any_eq_true ..).1 hstep
  simp only [Bool.and_eq_true, decide_eq_true_eq] at hafter
  obtain ⟨⟨hclear, hlost⟩, ha, hgone, hidle⟩ := hafter
  have hfree : (scheduler twoServers).Free y.1 :=
    .step (inspecting_reach hx).free trivial (System.under_inl.1 hy).1
  have hdead : ¬ y.1.InProgress 3 := by
    intro h
    have hlt := ((inv hfree).refs.keyed _ _ ha).1
    rw [h.shown (inv hfree) (counted hfree) hlt] at hidle
    cases hidle
  refine ⟨x, found, y, hx, htrue, hfound, hy, hlost, ⟨3, ha, hgone, hdead⟩, ?_⟩
  rintro (hunfit | hmerged)
  · exact hunfit hclear
  · obtain ⟨r, hr⟩ := hmerged.tracked "b--cuda0" (.claiming "llama" "b--cuda0" ["GPU0"]) rfl (by
      rw [World.has, show (Variant.claiming "llama" "b--cuda0" ["GPU0"]).backend = "llama" from rfl,
        show (Variant.claiming "llama" "b--cuda0" ["GPU0"]).id = "b--cuda0" from rfl, hlost.2]
      decide)
    rw [hlost.1] at hr
    cases hr

end ModelBroker
