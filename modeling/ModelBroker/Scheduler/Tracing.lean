import ModelBroker.Scheduler.Journal

/-!
# Whose doing a line of the log is

"Background work started by a request, such as a model load, inherits them, so it can be
traced back to the request that caused it" (`events.py`, lines 7–9).

* `lines_traced`: each line about an unload, a load, a baseline or the end of an admission
  follows lines of the same context that account for it, each other line about a request
  names the model it asks for, and no request starts two swaps.
-/

namespace ModelBroker

open Log

variable {cfg : Config} {s t : State} {a : Act} {p c i : ℕ} {q q' : Request} {k : Task}
  {j : Journal} {lines lines' : List Line} {heap heap' : Ref → LoadedModel}

/-! ## Lines that others account for -/

/-- Each element is accounted for by those before it. -/
def Accounted {α : Type} (by_ : List α → α → Prop) (l : List α) : Prop :=
  ∀ before a after, l = before ++ a :: after → by_ before a

theorem Accounted.append {α : Type} {by_ by' : List α → α → Prop} {l new : List α}
    (h : Accounted by_ l) (hold : ∀ before a, by_ before a → by' before a)
    (hmono : ∀ before more a, by' before a → by' (before ++ more) a)
    (hnew : ∀ a ∈ new, by' l a) : Accounted by' (l ++ new) := by
  intro before a after hsplit
  rcases List.append_eq_append_iff.1 hsplit with ⟨more, rfl, heq⟩ | ⟨more, rfl, heq⟩
  · exact hmono l more a (hnew a (by simp [heq]))
  · cases more with
    | nil =>
      have hmem : a ∈ new := List.nil_append new ▸ heq ▸ List.mem_cons_self
      simpa using hnew a hmem
    | cons b more =>
      obtain ⟨rfl, -⟩ := List.cons.inj heq
      exact hold _ _ (h before a more rfl)

namespace Log

/-- The log says that this request makes room by unloading this model, and has seen to
    the unloads before it. -/
def Unloading (lines : List Line) (c : ℕ) (id : String) : Prop :=
  ∃ m done rest, ⟨c, .swapStarted m (done ++ id :: rest)⟩ ∈ lines ∧
    ∀ v ∈ done, ⟨c, .modelUnloaded v⟩ ∈ lines

/-- The log says that this request has found the model loading, or has it loaded, now
    that all there is to unload for it is unloaded. -/
def Loading (lines : List Line) (c : ℕ) (id : String) : Prop :=
  ⟨c, .modelAdopted id "loading"⟩ ∈ lines ∨
    ∃ victims, ⟨c, .swapStarted id victims⟩ ∈ lines ∧ ∀ v ∈ victims, ⟨c, .modelUnloaded v⟩ ∈ lines

/-- The lines before this one account for it. -/
def Line.Caused (asked : List String) (before : List Line) (l : Line) : Prop :=
  match l.event with
  | .requestAdmitted m | .requestWaiting m _ | .requestRefused m _ _ | .swapStarted m _ =>
    asked[l.cause]? = some m
  | .requestFinished m => ⟨l.cause, .requestAdmitted m⟩ ∈ before
  | .modelUnloaded v | .modelUnloadFailed v _ => Unloading before l.cause v
  | .modelLoaded m | .modelLoadFailed m _ _ => Loading before l.cause m
  | .baselineRecorded m _ =>
    ⟨l.cause, .modelAdopted m "loaded"⟩ ∈ before ∨ ⟨l.cause, .modelLoaded m⟩ ∈ before
  | _ => True

/-- The request starts a swap. -/
def Line.swapOf (p : ℕ) (l : Line) : Bool :=
  match l.event with
  | .swapStarted _ _ => l.cause = p
  | _ => false

theorem Unloading.mono {id : String} (h : Unloading lines c id) (hsub : lines ⊆ lines') :
    Unloading lines' c id := by
  obtain ⟨m, done, rest, hswap, hdone⟩ := h
  exact ⟨m, done, rest, hsub hswap, fun v hv => hsub (hdone v hv)⟩

theorem Loading.mono {id : String} (h : Loading lines c id) (hsub : lines ⊆ lines') :
    Loading lines' c id := by
  refine h.imp (fun hadopted => hsub hadopted) ?_
  rintro ⟨victims, hswap, hdone⟩
  exact ⟨victims, hsub hswap, fun v hv => hsub (hdone v hv)⟩

theorem Line.Caused.mono {asked : List String} (before more : List Line) (l : Line)
    (h : l.Caused asked before) : l.Caused asked (before ++ more) := by
  obtain ⟨c, e⟩ := l
  cases e with
  | requestAdmitted | requestWaiting | requestRefused | swapStarted => exact h
  | requestFinished => exact List.mem_append_left _ h
  | modelUnloaded | modelUnloadFailed => exact Unloading.mono h (List.subset_append_left ..)
  | modelLoaded | modelLoadFailed => exact Loading.mono h (List.subset_append_left ..)
  | baselineRecorded => exact Or.imp (List.mem_append_left _) (List.mem_append_left _) h
  | modelAdopted | routerProblemsFound | routerProblemsCleared | modelObserved
  | modelUnobservable => trivial

theorem Line.Caused.arrive {asked : List String} (id : String) (before : List Line) (l : Line)
    (h : l.Caused asked before) : l.Caused (asked ++ [id]) before := by
  obtain ⟨c, e⟩ := l
  cases e with
  | requestAdmitted | requestWaiting | requestRefused | swapStarted => exact Table.get_append.2 (.inl h)
  | requestFinished | modelUnloaded | modelUnloadFailed | modelLoaded | modelLoadFailed
  | baselineRecorded => exact h
  | modelAdopted | routerProblemsFound | routerProblemsCleared | modelObserved
  | modelUnobservable => trivial

end Log

/-! ## Tasks -/

/-- The log accounts for the task, which runs in the context of request `c`. -/
def Task.Traced (heap : Ref → LoadedModel) (lines : List Line) (c : ℕ) : Task → Prop
  | swapReady victims model =>
    ⟨c, .swapStarted (heap model).variant.id (victims.map fun r => (heap r).variant.id)⟩ ∈ lines
  | swapUnload done victim rest model =>
    ⟨c, .swapStarted (heap model).variant.id
      ((done ++ victim :: rest).map fun r => (heap r).variant.id)⟩ ∈ lines ∧
    ∀ r ∈ done, ⟨c, .modelUnloaded (heap r).variant.id⟩ ∈ lines
  | swapLoad model | loadQuery model _ _ => Loading lines c (heap model).variant.id
  | finishReady model | finishWait model =>
    ⟨c, .modelAdopted (heap model).variant.id "loading"⟩ ∈ lines
  | loadBaseline model _ => ⟨c, .modelLoaded (heap model).variant.id⟩ ∈ lines
  | ended | crashed => True

theorem Task.Traced.mono (h : k.Traced heap lines c) (hsub : lines ⊆ lines')
    (hheap : ∀ r ∈ k.refs, (heap' r).variant = (heap r).variant) :
    k.Traced heap' lines' c := by
  cases k with
  | swapReady victims model =>
    have hvictims : (victims.map fun r => (heap' r).variant.id) =
        victims.map fun r => (heap r).variant.id :=
      List.map_congr_left fun r hr => by rw [hheap r (List.mem_cons_of_mem _ hr)]
    simp only [Task.Traced]
    rw [hheap model List.mem_cons_self, hvictims]
    exact hsub h
  | swapUnload done victim rest model =>
    have hvictims : ((done ++ victim :: rest).map fun r => (heap' r).variant.id) =
        (done ++ victim :: rest).map fun r => (heap r).variant.id :=
      List.map_congr_left fun r hr => by rw [hheap r (List.mem_cons_of_mem _ hr)]
    simp only [Task.Traced]
    rw [hheap model List.mem_cons_self, hvictims]
    refine ⟨hsub h.1, fun r hr => hsub ?_⟩
    rw [hheap r (List.mem_cons_of_mem _ (List.mem_append_left (victim :: rest) hr))]
    exact h.2 r hr
  | swapLoad model | loadQuery model error loader =>
    simp only [Task.Traced]
    rw [hheap model List.mem_cons_self]
    exact Loading.mono h hsub
  | finishReady model | finishWait model | loadBaseline model loader =>
    simp only [Task.Traced]
    rw [hheap model List.mem_cons_self]
    exact hsub h
  | ended | crashed => trivial

/-- The next call of a swap, once the victims before it are logged. -/
theorem traced_swapNext {done rest : List Ref} {model : Ref}
    (hswap : ⟨c, .swapStarted (heap model).variant.id
      ((done ++ rest).map fun r => (heap r).variant.id)⟩ ∈ lines)
    (hdone : ∀ r ∈ done, ⟨c, .modelUnloaded (heap r).variant.id⟩ ∈ lines) :
    (swapNext done rest model).Traced heap lines c := by
  cases rest with
  | nil =>
    rw [List.append_nil] at hswap
    refine .inr ⟨_, hswap, fun v hv => ?_⟩
    obtain ⟨r, hr, rfl⟩ := List.mem_map.1 hv
    exact hdone r hr
  | cons victim rest => exact ⟨hswap, hdone⟩

/-- What a task logs is accounted for. -/
theorem TaskEmits.caused {asked : List String} {e : Log.Event} (h : TaskEmits s i e)
    (hk : s.tasks[i]? = some k) (htraced : k.Traced s.heap lines c) :
    Line.Caused asked lines ⟨c, e⟩ := by
  have unloading : ∀ {done rest : List Ref} {victim model : Ref},
      Task.Traced s.heap lines c (.swapUnload done victim rest model) →
      Unloading lines c (s.heap victim).variant.id := by
    rintro done rest victim model ⟨hswap, hdone⟩
    rw [List.map_append] at hswap
    refine ⟨_, _, _, hswap, fun v hv => ?_⟩
    obtain ⟨r, hr, rfl⟩ := List.mem_map.1 hv
    exact hdone r hr
  cases h with
  | unloaded hi | unloadFailed hi =>
    rw [hk] at hi
    obtain rfl := Option.some.inj hi
    exact unloading htraced
  | loaded hi hload =>
    rw [hk] at hi
    obtain rfl := Option.some.inj hi
    rcases hload with rfl | rfl
    · exact htraced
    · exact .inl htraced
  | failed hi =>
    rw [hk] at hi
    obtain rfl := Option.some.inj hi
    exact htraced
  | baseline hi =>
    rw [hk] at hi
    obtain rfl := Option.some.inj hi
    exact .inr htraced
  | found => trivial

theorem task_next (h : TaskMoves s i k a t) : t.next = s.next := by
  cases h with
  | start | wait | loaded | awaited | loadFailed | waitFailed | baselined => rfl
  | unloaded =>
    unfold unloaded
    split <;> rfl
  | unloadFailed =>
    unfold unloadFailed
    dsimp only
    split <;> rfl
  | queried =>
    unfold queried
    dsimp only
    split_ifs <;> rfl

/-- What a task has logged accounts for what it does next. -/
theorem traced_task (h : TaskMoves s i k a t) (hk : s.tasks[i]? = some k)
    (htraced : k.Traced s.heap lines c) : ∃ k', t.tasks = s.tasks.set i k' ∧
      k'.Traced s.heap (lines ++ (taskLog s i a).map (Line.mk c)) c := by
  cases h with
  | start => exact ⟨_, rfl, traced_swapNext (List.mem_append_left _ htraced) (by simp)⟩
  | wait => exact ⟨_, rfl, List.mem_append_left _ htraced⟩
  | loaded | awaited => exact ⟨_, rfl, List.mem_append_right _ (by simp [taskLog, hk])⟩
  | loadFailed => exact ⟨_, rfl, Loading.mono htraced (List.subset_append_left ..)⟩
  | waitFailed => exact ⟨_, rfl, .inl (List.mem_append_left _ htraced)⟩
  | @unloaded done rest victim model answer =>
    unfold unloaded
    split
    · exact ⟨_, rfl, trivial⟩
    · next r hr =>
      refine ⟨_, rfl, traced_swapNext ?_ fun u hu => ?_⟩
      · rw [List.append_assoc]
        exact List.mem_append_left _ htraced.1
      · rcases List.mem_append.1 hu with hu | hu
        · exact List.mem_append_left _ (htraced.2 u hu)
        · obtain rfl := List.mem_singleton.1 hu
          exact List.mem_append_right _ (by simp [taskLog, hk, hr])
  | unloadFailed =>
    unfold unloadFailed
    dsimp only
    split <;> exact ⟨_, rfl, trivial⟩
  | queried =>
    unfold queried
    dsimp only
    split_ifs <;> exact ⟨_, rfl, trivial⟩
  | baselined => exact ⟨_, rfl, trivial⟩

/-! ## Requests -/

theorem trackLog_append {pending rest : List Ref} (hp : ∀ r ∈ pending, (heap r).ready = false) :
    trackLog heap (pending ++ rest) =
      pending.map (fun r => .modelAdopted (heap r).variant.id "loading") ++ trackLog heap rest := by
  induction pending with
  | nil => rfl
  | cons r pending ih =>
    obtain ⟨hr, hp⟩ := List.forall_mem_cons.1 hp
    simp [trackLog, hr, ih hp]

/-- `track` logs every model it finds. -/
theorem TrackTo.logged {after : Option Variant} {models pending : List Ref}
    (h : TrackTo heap after models pending q) :
    (∀ r ∈ pending, Log.Event.modelAdopted (heap r).variant.id "loading" ∈ trackLog heap models) ∧
    ∀ after' model rest, q = .tracking after' model rest →
      Log.Event.modelAdopted (heap model).variant.id "loaded" ∈ trackLog heap models := by
  cases h with
  | done hp =>
    refine ⟨fun r hr => ?_, fun after' model rest heq => ?_⟩
    · rw [← List.append_nil models, trackLog_append hp]
      exact List.mem_append_left _ (List.mem_map_of_mem hr)
    · cases after <;> cases heq
  | ask hp hready =>
    rw [trackLog_append hp]
    refine ⟨fun r hr => List.mem_append_left _ (List.mem_map_of_mem hr), ?_⟩
    rintro after' model rest ⟨⟩
    exact List.mem_append_right _ (by simp [trackLog, hready])

theorem variant_baseline {r model : Ref} {answer : Except String ModelActivity} :
    ((s.edit [model] fun m => m.withBaseline answer).heap r).variant = (s.heap r).variant := by
  rw [State.edit_heap]
  split_ifs <;> simp

/-- A task that a request starts is logged. -/
theorem traced_request (hrefs : Refs cfg s) (h : Step cfg s a t) (ha : a.request? = some p) :
    ∃ new, t.tasks = s.tasks ++ new ∧
      ∀ k ∈ new, k.Traced t.heap ((requestLog cfg s p a).map (Line.mk p)) p := by
  cases h with
  | tick | arrive | silent | enter | join | queue | quit | busy | idle | joined | unjoin
  | release => exact ⟨[], (List.append_nil _).symm, by simp⟩
  | @install p' _ q q' variant found pending hq hs hto =>
    obtain rfl := Option.some.inj (hs.request.symm.trans ha)
    refine ⟨pending.map .finishReady, rfl, fun k hk => ?_⟩
    obtain ⟨r, hr, rfl⟩ := List.mem_map.1 hk
    refine List.mem_map_of_mem (List.mem_append_left _ ?_)
    rw [hs.concludes hq]
    exact List.mem_cons_of_mem _ (hto.logged.1 r hr)
  | @baseline p' after model rest pending q' answer hq hto =>
    obtain rfl := Option.some.inj ha
    refine ⟨pending.map .finishReady, rfl, fun k hk => ?_⟩
    obtain ⟨r, hr, rfl⟩ := List.mem_map.1 hk
    refine List.mem_map_of_mem (List.mem_append_right _ ?_)
    simp only [hq, State.goto_heap, State.background_heap, variant_baseline]
    exact List.mem_cons_of_mem _ (hto.logged.1 r hr)
  | @commit p' job look hq hrest hreason hidle =>
    obtain rfl := Option.some.inj ha
    have hd : s.decision p' = some (job, look.seen) :=
      decision_eq_some.2 ⟨look, hq, hrest, hreason, hidle, rfl⟩
    have hvictims : (look.seen.map fun r => ((committed s p' job look.seen).heap r).variant.id) =
        look.seen.map fun r => (s.heap r).variant.id := by
      refine List.map_congr_left fun r hr => ?_
      have hlt : r < s.next := hrefs.request p' _ hq r (List.mem_append_left look.rest hr)
      rw [committed_of_lt hlt, if_pos hr]
    refine ⟨[.swapReady look.seen s.next], rfl, fun k hk => ?_⟩
    obtain rfl := List.mem_singleton.1 hk
    refine List.mem_map_of_mem (List.mem_append_right _ ?_)
    simp only [hq, hd, hvictims, Option.elim, List.mem_singleton]
    simp [committed, newModel]
  | task hk hmove => cases hmove <;> cases ha
  | unloaded | crash | unloadFailed | crashFailed | loadFailed | dropped | gone | unsure
  | baselined => cases ha

/-- The model whose baseline a request asks for is logged. -/
theorem traced_tracking (hrefs : Refs cfg s) (h : Step cfg s a t) (ha : a.request? = some p)
    {after : Option Variant} {model : Ref} {rest : List Ref}
    (hq : t.requests[p]? = some (.tracking after model rest))
    (hold : ∀ after model rest, s.requests[p]? = some (.tracking after model rest) →
      ⟨p, .modelAdopted (s.heap model).variant.id "loaded"⟩ ∈ lines) :
    ⟨p, .modelAdopted (t.heap model).variant.id "loaded"⟩ ∈
      lines ++ (requestLog cfg s p a).map (Line.mk p) := by
  have same : s.requests[p]? = some (.tracking after model rest) →
      ⟨p, .modelAdopted (t.heap model).variant.id "loaded"⟩ ∈
        lines ++ (requestLog cfg s p a).map (Line.mk p) := by
    intro hsame
    rw [step_variant h (hrefs.request p _ hsame model List.mem_cons_self)]
    exact List.mem_append_left _ (hold _ _ _ hsame)
  cases h with
  | @install p' _ q q' variant found pending h₀ hs hto =>
    obtain rfl := Option.some.inj (hs.request.symm.trans ha)
    obtain rfl := Option.some.inj ((Table.get_set_self h₀).symm.trans hq)
    refine List.mem_append_right _ (List.mem_map_of_mem (List.mem_append_left _ ?_))
    rw [hs.concludes h₀]
    exact List.mem_cons_of_mem _ (hto.logged.2 _ _ _ rfl)
  | @baseline p' after₀ model₀ rest₀ pending q' answer h₀ hto =>
    obtain rfl := Option.some.inj ha
    obtain rfl := Option.some.inj ((Table.get_set_self h₀).symm.trans hq)
    refine List.mem_append_right _ (List.mem_map_of_mem (List.mem_append_right _ ?_))
    simp only [h₀, State.goto_heap, State.background_heap, variant_baseline]
    exact List.mem_cons_of_mem _ (hto.logged.2 _ _ _ rfl)
  | silent h₀ hsil =>
    rcases (Table.get_set h₀).1 hq with ⟨-, heq⟩ | ⟨-, hsame⟩
    · cases hsil <;> cases heq
    · exact same hsame
  | arrive =>
    rcases Table.get_push.1 hq with ⟨-, heq⟩ | hsame
    · cases heq
    · exact same hsame
  | enter h₀ | join h₀ | queue h₀ | quit h₀ | busy h₀ | idle h₀ | commit h₀ | joined h₀ | unjoin h₀
  | release h₀ =>
    rcases (Table.get_set h₀).1 hq with ⟨-, heq⟩ | ⟨-, hsame⟩
    · cases heq
    · exact same hsame
  | tick | task | unloaded | crash | unloadFailed | crashFailed | loadFailed | dropped | gone
  | unsure | baselined => exact same hq

theorem mem_lines_of_admissions {e : Log.Event} (h : e ∈ j.admissions p) : ⟨p, e⟩ ∈ j.lines := by
  obtain ⟨l, hl, heq⟩ := List.mem_filterMap.1 h
  unfold Line.admission? at heq
  split_ifs at heq with hl'
  obtain ⟨rfl, -⟩ : l.cause = p ∧ _ := by simpa using hl'
  obtain rfl := Option.some.inj heq
  exact hl

/-- What `acquire` logs is accounted for. -/
theorem Emits.caused {asked : List String} {e : Log.Event} (h : Emits s p a e)
    (hswap : ∀ job victims, s.decision p = some (job, victims) → asked[p]? = some job.variant.id)
    (htracking : ∀ after model rest, s.requests[p]? = some (.tracking after model rest) →
      ⟨p, .modelAdopted (s.heap model).variant.id "loaded"⟩ ∈ lines) :
    Line.Caused asked lines ⟨p, e⟩ := by
  cases h with
  | swap _ hd => exact hswap _ _ hd
  | baseline hq => exact .inl (htracking _ _ _ hq)
  | @observed _ _ _ answer => cases answer <;> trivial
  | found | cleared | adopted => trivial

/-- What `acquire` logs while it waits is accounted for. -/
theorem waitLog_caused {id reported reason : String} {e : Log.Event}
    (hid : j.asked[p]? = some id) (he : e ∈ waitLog id reported reason) :
    Line.Caused j.asked j.lines ⟨p, e⟩ := by
  unfold waitLog at he
  split_ifs at he
  · obtain rfl := List.mem_singleton.1 he
    exact hid
  · cases he

/-- What `admit` logs is accounted for. -/
theorem admitLog_caused {id : String} {e : Log.Event}
    (htold : q.Told id (j.reported p) (j.admissions p)) (hid : j.asked[p]? = some id)
    (he : e ∈ admitLog id q q') : Line.Caused j.asked j.lines ⟨p, e⟩ := by
  unfold admitLog at he
  split at he
  · obtain rfl := List.mem_singleton.1 he
    obtain ⟨reasons, outcome, heq, -, -, hclosed⟩ := htold
    obtain rfl : outcome = [_] := hclosed
    exact mem_lines_of_admissions (by rw [heq]; simp)
  · obtain rfl := List.mem_singleton.1 he
    exact hid
  · obtain ⟨r, -, rfl⟩ := Option.map_eq_some_iff.1 (Option.mem_toList.1 he)
    exact hid
  · cases he

/-! ## Swaps -/

/-- The request has still to be placed, and is not that of `start()`. -/
def Request.unplaced : Request → Bool
  | arrived _ => true
  | q => q.variant?.isSome

theorem Line.swapOf_iff {l : Line} :
    l.swapOf p ↔ ∃ m victims, l = ⟨p, .swapStarted m victims⟩ := by
  obtain ⟨c, e⟩ := l
  cases e <;> simp [Line.swapOf, and_comm]

/-- The request that decides logs nothing else. -/
theorem requestLog_judging {job : Job} {look : Look} (ha : a.request? = some p)
    (hq : s.requests[p]? = some (.judging job look)) : (requestLog cfg s p a).length ≤ 1 := by
  cases a with
  | resume =>
    obtain rfl := Option.some.inj ha
    simp only [requestLog, State.concludes, hq, Option.elim, List.nil_append]
    split <;> simp
  | cancel | props | states | activity =>
    obtain rfl := Option.some.inj ha
    simp [requestLog, State.concludes, hq]
  | tick | arrive | run | call | taskStates | taskActivity => cases ha

/-- A request starts a swap by a decision. -/
theorem swap_of_mem {m : String} {victims : List String} (ha : a.request? = some p)
    (h : .swapStarted m victims ∈ requestLog cfg s p a) :
    ∃ job look, s.requests[p]? = some (.judging job look) ∧ a = .resume p ∧
      s.decision p = some (job, look.seen) := by
  generalize he : Log.Event.swapStarted m victims = e at h
  cases emits ha h with
  | @swap job victims' heq hd =>
    obtain ⟨look, hq, hrest, hreason, hidle, rfl⟩ := decision_eq_some.1 hd
    exact ⟨job, look, hq, heq, hd⟩
  | @observed _ _ _ answer => cases answer <;> cases he
  | found | cleared | adopted | baseline => cases he

theorem not_swap_of_admission {id reported reason : String} {l : Line}
    (h : l ∈ (waitLog id reported reason ++ admitLog id q q').map (Line.mk p)) :
    ¬ l.swapOf c := by
  obtain ⟨e, he, rfl⟩ := List.mem_map.1 h
  have hadmission : e.admission = true :=
    (List.mem_append.1 he).elim waitLog_admission admitLog_admission
  cases e <;> simp_all [Line.swapOf, Log.Event.admission]

theorem not_swap_of_task {l : Line} (h : l ∈ (taskLog s i a).map (Line.mk p)) : ¬ l.swapOf c := by
  obtain ⟨e, he, rfl⟩ := List.mem_map.1 h
  cases taskEmits he <;> simp [Line.swapOf, baselineLog]

/-- No request starts two swaps, or one before it is placed. -/
structure Log.Journal.Once (j : Journal) (s : State) : Prop where
  once : ∀ p, j.lines.countP (·.swapOf p) ≤ 1
  fresh : ∀ (p : ℕ) (q : Request), s.requests[p]? = some q → q.unplaced = true →
    j.lines.countP (·.swapOf p) = 0

/-- Lines that start no swap. -/
theorem Log.Journal.Once.quiet {new : List Line} {j' : Journal} (h : j.Once s)
    (hlines : j'.lines = j.lines ++ new) (hnew : ∀ l ∈ new, ∀ c, ¬ l.swapOf c)
    (hfresh : ∀ (p : ℕ) (q : Request), t.requests[p]? = some q → q.unplaced →
      j.lines.countP (·.swapOf p) = 0) : j'.Once t := by
  have hcount : ∀ p, j'.lines.countP (·.swapOf p) = j.lines.countP (·.swapOf p) := by
    intro p
    have hzero : new.countP (·.swapOf p) = 0 := List.countP_eq_zero.2 fun l hl => hnew l hl p
    rw [hlines, List.countP_append, hzero, Nat.add_zero]
  exact ⟨fun p => hcount p ▸ h.once p, fun p q hq hun => (hcount p).trans (hfresh p q hq hun)⟩

theorem unplaced_of_variant {variant : Variant} (h : q.variant? = some variant) :
    q.unplaced = true := by
  cases q <;> simp_all [Request.unplaced]

theorem unplaced_of_goes (h : Goes cfg s a t q q') (hun : q'.unplaced = true) :
    q.unplaced = true := by
  cases h with
  | look => rfl
  | on hv | take hv => exact unplaced_of_variant hv
  | start | ends | enter => cases hun

theorem once_request (htells : j.Tells s) (hrefs : Refs cfg s) (h : j.Once s)
    (hstep : step cfg s a = some t) (ha : a.request? = some p) : (j.note cfg s a t).Once t := by
  obtain ⟨q, hq, hlive⟩ := request_live hstep ha
  obtain ⟨q', hq', hgoes⟩ := goes hrefs hstep ha hq
  obtain ⟨id, hid⟩ : ∃ id, j.asked[p]? = some id :=
    ⟨_, List.getElem?_eq_getElem (htells.asked ▸ Table.lt_length hq)⟩
  have hother : ∀ {p' : ℕ} {q₁ : Request}, p' ≠ p → t.requests[p']? = some q₁ →
      s.requests[p']? = some q₁ := by
    intro p' q₁ hne hq₁
    rwa [request_set hstep ha hq hq', List.getElem?_set_ne (Ne.symm hne)] at hq₁
  by_cases hswap : ∃ m victims, .swapStarted m victims ∈ requestLog cfg s p a
  · obtain ⟨m, victims, hmem⟩ := hswap
    obtain ⟨job, look, hjudging, rfl, hd⟩ := swap_of_mem ha hmem
    obtain rfl := Option.some.inj ((step_decision hd).symm.trans hstep)
    obtain rfl := Option.some.inj ((Table.get_set_self hq).symm.trans hq')
    have hnew : ∀ c, ((requestLog cfg s p (.resume p)).map (Line.mk p)).countP (·.swapOf c) ≤
        if c = p then 1 else 0 := by
      intro c
      split_ifs with hc
      · exact List.countP_le_length.trans (by simpa using requestLog_judging ha hjudging)
      · refine (List.countP_eq_zero.2 fun l hl hswap => hc ?_).le
        obtain ⟨e, -, rfl⟩ := List.mem_map.1 hl
        obtain ⟨m, victims, heq⟩ := Line.swapOf_iff.1 hswap
        cases heq
        rfl
    have hold := h.fresh p _ hjudging rfl
    have hcount : ∀ c, (j.note cfg s (.resume p) (committed s p job look.seen)).lines.countP
        (·.swapOf c) ≤ j.lines.countP (·.swapOf c) + if c = p then 1 else 0 := by
      intro c
      rw [note_request ha hid hq hq', List.map_append, List.countP_append, List.countP_append,
        List.countP_eq_zero.2 fun l hl => not_swap_of_admission hl]
      exact Nat.add_le_add_left (hnew c) _
    refine ⟨fun c => (hcount c).trans ?_, fun c q₁ hq₁ hun => ?_⟩
    · split_ifs with hc
      · rw [hc, hold]
      · exact h.once c
    · by_cases hc : c = p
      · subst hc
        obtain rfl := Option.some.inj (hq'.symm.trans hq₁)
        cases hun
      · have hzero := hcount c
        rw [if_neg hc, h.fresh c q₁ (hother hc hq₁) hun] at hzero
        exact Nat.le_zero.1 hzero
  · have hnote : j.note cfg s a t = _ := note_request ha hid hq hq'
    have hlines := congrArg Journal.lines hnote
    refine h.quiet hlines (fun l hl c hl' => ?_) fun p' q₁ hq₁ hun => ?_
    · rw [List.map_append] at hl
      rcases List.mem_append.1 hl with hl | hl
      · obtain ⟨e, he, rfl⟩ := List.mem_map.1 hl
        obtain ⟨m, victims, heq⟩ := Line.swapOf_iff.1 hl'
        cases heq
        exact hswap ⟨m, victims, he⟩
      · exact not_swap_of_admission hl hl'
    · by_cases hp : p' = p
      · subst hp
        obtain rfl := Option.some.inj (hq'.symm.trans hq₁)
        exact h.fresh p' q hq (unplaced_of_goes hgoes hun)
      · exact h.fresh p' q₁ (hother hp hq₁) hun

/-! ## Runs -/

/-- The log accounts for its lines, and for what goes on. -/
structure Log.Journal.Traced (j : Journal) (s : State) : Prop where
  accounted : Accounted (Line.Caused j.asked) j.lines
  tasks : ∀ (i : ℕ) (k : Task) (c : ℕ), s.tasks[i]? = some k → j.causes[i]? = some c →
    k.Traced s.heap j.lines c
  tracking : ∀ (p : ℕ) (after : Option Variant) (model : Ref) (rest : List Ref),
    s.requests[p]? = some (.tracking after model rest) →
      ⟨p, .modelAdopted (s.heap model).variant.id "loaded"⟩ ∈ j.lines
  once : j.Once s

/-- The tasks of before, while records keep their variants. -/
theorem Log.Journal.Traced.kept (hrefs : Refs cfg s) (h : j.Traced s) (hstep : Step cfg s a t)
    (hsub : j.lines ⊆ lines) (hk : s.tasks[i]? = some k) (hc : j.causes[i]? = some c) :
    k.Traced t.heap lines c :=
  (h.tasks i k c hk hc).mono hsub fun r hr => step_variant hstep (hrefs.task i k hk r hr)

theorem traced_step_request (hfree : (scheduler cfg).Free s) (hsound : j.Sound cfg s)
    (h : j.Traced s) (hstep : step cfg s a = some t) (ha : a.request? = some p) :
    (j.note cfg s a t).Traced t := by
  have hrefs := (inv hfree).refs
  have hcases := step_cases hstep
  obtain ⟨q, hq, hlive⟩ := request_live hstep ha
  obtain ⟨q', hq', hgoes⟩ := goes hrefs hstep ha hq
  obtain ⟨id, hid⟩ : ∃ id, j.asked[p]? = some id :=
    ⟨_, List.getElem?_eq_getElem (hsound.tells.asked ▸ Table.lt_length hq)⟩
  have htold := hsound.tells.told p q id hq hid
  have hnote : j.note cfg s a t = _ := note_request ha hid hq hq'
  refine ⟨?_, ?_, ?_, once_request hsound.tells hrefs h.once hstep ha⟩
  · rw [hnote]
    refine h.accounted.append (fun _ _ hl => hl) Line.Caused.mono fun l hl => ?_
    obtain ⟨e, he, rfl⟩ := List.mem_map.1 hl
    rcases List.mem_append.1 he with he | he
    · refine (emits ha he).caused (fun job victims hd => ?_) (h.tracking p)
      -- who decides is not `start()`, and decides about the model it names
      obtain ⟨look, hjudging, -⟩ := decision_eq_some.1 hd
      have hp : p ≠ 0 := by
        rintro rfl
        rcases first_start hfree hjudging with hstart | ⟨outcome, heq⟩
        · cases hstart
        · cases heq
      have habout := (Request.about_iff rfl).1 (hsound.abouts p _ id hp hjudging hid)
      rw [habout]
      exact hid
    · rcases List.mem_append.1 he with he | he
      · exact waitLog_caused hid he
      · exact admitLog_caused htold hid he
  · rw [hnote]
    obtain ⟨new, ht, hnew⟩ := traced_request hrefs hcases ha
    intro i k c hk hc
    rw [ht] at hk
    rcases Table.get_append.1 hk with hk | ⟨n, rfl, hn⟩
    · have hlt := hsound.tells.causes ▸ Table.lt_length hk
      rw [List.getElem?_append_left hlt] at hc
      exact h.kept hrefs hcases (List.subset_append_left ..) hk hc
    · rw [List.getElem?_append_right (hsound.tells.causes ▸ Nat.le_add_right ..)] at hc
      obtain rfl := List.eq_of_mem_replicate (List.mem_of_getElem? hc)
      refine (hnew k (List.mem_of_getElem? hn)).mono (fun l hl => ?_) fun _ _ => rfl
      rw [List.map_append]
      exact List.mem_append_right _ (List.mem_append_left _ hl)
  · rw [hnote]
    intro p' after model rest hp'
    by_cases hp : p' = p
    · subst hp
      have hmem := traced_tracking hrefs hcases ha hp' (h.tracking p')
      rw [List.map_append, ← List.append_assoc]
      exact List.mem_append_left _ hmem
    · rw [request_set hstep ha hq hq', List.getElem?_set_ne (Ne.symm hp)] at hp'
      rw [step_variant hcases (hrefs.request p' _ hp' model List.mem_cons_self)]
      exact List.mem_append_left _ (h.tracking p' after model rest hp')

theorem traced_step_task (hrefs : Refs cfg s) (htells : j.Tells s) (h : j.Traced s)
    (hstep : step cfg s a = some t) (ha : a.task? = some i) : (j.note cfg s a t).Traced t := by
  have hcases := step_cases hstep
  obtain ⟨k, hk, hmove⟩ := task_moves hstep ha
  obtain ⟨c, hc⟩ : ∃ c, j.causes[i]? = some c :=
    ⟨_, List.getElem?_eq_getElem (htells.causes ▸ Table.lt_length hk)⟩
  have hnote : j.note cfg s a t = _ := note_task ha hc
  have hrequests := task_requests hstep ha
  refine ⟨?_, ?_, ?_, ?_⟩
  · rw [hnote]
    refine h.accounted.append (fun _ _ hl => hl) Line.Caused.mono fun l hl => ?_
    obtain ⟨e, he, rfl⟩ := List.mem_map.1 hl
    exact (taskEmits he).caused hk (h.tasks i k c hk hc)
  · rw [hnote]
    obtain ⟨k', ht, htraced⟩ := traced_task hmove hk (h.tasks i k c hk hc)
    intro i' k₁ c₁ hk₁ hc₁
    by_cases hi : i' = i
    · subst hi
      obtain rfl := Option.some.inj (hc.symm.trans hc₁)
      rw [ht, Table.get_set_self hk] at hk₁
      obtain rfl := Option.some.inj hk₁
      refine htraced.mono (fun _ hl => hl) fun r hr => step_variant hcases ?_
      rw [← task_next hmove]
      exact (refs_step hrefs hcases).task i' k' (by rw [ht, Table.get_set_self hk]) r hr
    · rw [ht, List.getElem?_set_ne (Ne.symm hi)] at hk₁
      exact h.kept hrefs hcases (List.subset_append_left ..) hk₁ hc₁
  · rw [hnote, hrequests]
    intro p after model rest hp
    rw [step_variant hcases (hrefs.request p _ hp model List.mem_cons_self)]
    exact List.mem_append_left _ (h.tracking p after model rest hp)
  · have hlines : (j.note cfg s a t).lines = j.lines ++ (taskLog s i a).map (Line.mk c) := by
      rw [hnote]
    refine h.once.quiet hlines (fun l hl c hl' => not_swap_of_task hl hl') ?_
    rw [hrequests]
    exact h.once.fresh

theorem traced_step (hfree : (scheduler cfg).Free s) (hsound : j.Sound cfg s) (h : j.Traced s)
    (hstep : step cfg s a = some t) : (j.note cfg s a t).Traced t := by
  rcases a.actor with ⟨seconds, rfl⟩ | ⟨id, rfl⟩ | ⟨p, ha⟩ | ⟨i, ha⟩
  · simp only [step] at hstep
    split_ifs at hstep
    cases hstep
    exact ⟨h.accounted, h.tasks, h.tracking, h.once.once, h.once.fresh⟩
  · simp only [step] at hstep
    split_ifs at hstep
    cases hstep
    refine ⟨fun before l after heq => (h.accounted before l after heq).arrive id, h.tasks,
      fun p after model rest hp => ?_, h.once.once, fun p q hq hun => ?_⟩
    · rcases Table.get_push.1 hp with ⟨-, heq⟩ | hp
      · cases heq
      · exact h.tracking p after model rest hp
    · rcases Table.get_push.1 hq with ⟨rfl, rfl⟩ | hq
      · -- the log has no line of the new request
        refine List.countP_eq_zero.2 fun l hl hswap => ?_
        obtain ⟨m, victims, rfl⟩ := Line.swapOf_iff.1 hswap
        exact absurd (hsound.tells.known _ hl) (Nat.lt_irrefl _)
      · exact h.once.fresh p q hq hun
  · exact traced_step_request hfree hsound h hstep ha
  · exact traced_step_task (inv hfree).refs hsound.tells h hstep ha

theorem traced_opening (now : ℚ) (found : Survey) :
    (Journal.opening now found).Traced (initial now found) := by
  obtain ⟨pending, q, hto, heq⟩ := initial_cases now found
  have hmute : ∀ e ∈ trackLog (booted now found).heap (booted now found).view.loaded.values,
      ∃ m state, e = .modelAdopted m state := by
    intro e he
    obtain ⟨r, -, rfl⟩ := mem_trackLog he
    exact ⟨_, _, rfl⟩
  have hzero : ∀ p, (Journal.opening now found).lines.countP (·.swapOf p) = 0 := by
    refine fun p => List.countP_eq_zero.2 fun l hl hswap => ?_
    obtain ⟨e, he, rfl⟩ := List.mem_map.1 hl
    obtain ⟨m, state, rfl⟩ := hmute e he
    cases hswap
  refine ⟨?_, fun i k c hk hc => ?_, fun p after model rest hp => ?_, fun p => (hzero p).le.trans
    (Nat.zero_le 1), fun p q _ _ => hzero p⟩
  · rintro before l after hsplit
    have hl : l ∈ (Journal.opening now found).lines := by
      rw [hsplit]
      exact List.mem_append_right _ List.mem_cons_self
    obtain ⟨e, he, rfl⟩ := List.mem_map.1 hl
    obtain ⟨m, state, rfl⟩ := hmute e he
    trivial
  · obtain rfl := List.eq_of_mem_replicate (List.mem_of_getElem? hc)
    rw [heq] at hk ⊢
    obtain ⟨r, hr, rfl⟩ := List.mem_map.1 (List.mem_of_getElem? hk)
    exact List.mem_map_of_mem (hto.logged.1 r hr)
  · obtain ⟨rfl, -⟩ := initial_requests hp
    rw [heq] at hp ⊢
    obtain rfl := Option.some.inj hp
    exact List.mem_map_of_mem (hto.logged.2 _ _ _ rfl)

theorem traced {x : State × Journal} (h : (journalled cfg).Free x) : x.2.Traced x.1 := by
  refine System.Reach.environment (I := fun s j => j.Sound cfg s ∧ j.Traced s) ?_ ?_ ?_ h |>.2
  · rintro s j - ⟨now, found, rfl, rfl⟩
    exact ⟨sound_opening now found, traced_opening now found⟩
  · intro s j a t hs hj _ hstep
    have hfree : (scheduler cfg).Free s := hs.program fun _ _ _ => trivial
    exact ⟨sound_step hfree hj.1 hstep, traced_step hfree hj.1 hj.2 hstep⟩
  · intro s j b
    cases b

/-- In every run, every line of the log, at level `DEBUG`, about an unload, a load, a
    baseline or the end of an admission follows lines of the same context that account for
    it: an unload or a load is asked for by the swap of that request, or the load was found
    going on by its re-inspection; a model is loaded once all that its swap unloads is
    unloaded, in the order announced. Every other line about a request names the model it
    asks for, and so does what it swaps in, once. -/
theorem lines_traced {x : State × Journal} (h : (journalled cfg).Free x) :
    (∀ before l after, x.2.lines = before ++ l :: after → l.Caused x.2.asked before) ∧
    ∀ p, x.2.lines.countP (·.swapOf p) ≤ 1 :=
  ⟨(traced h).accounted, (traced h).once.once⟩

/-- Two models make room for a third. -/
def pairUnloaded : List Line :=
  [⟨0, .modelAdopted "a--cuda0" "loaded"⟩, ⟨0, .baselineRecorded "a--cuda0" (some 0)⟩,
    ⟨0, .modelAdopted "b--cuda1" "loaded"⟩, ⟨0, .baselineRecorded "b--cuda1" (some 0)⟩,
    ⟨1, .modelObserved "a--cuda0" idle false⟩, ⟨1, .modelObserved "b--cuda1" idle false⟩,
    ⟨1, .swapStarted "c--cuda01" ["a--cuda0", "b--cuda1"]⟩, ⟨1, .modelUnloaded "a--cuda0"⟩,
    ⟨1, .modelUnloaded "b--cuda1"⟩]

theorem lines_traced_pairedCards : ∃ x, (journalled pairedCards).Free x ∧
    x.2.lines = pairUnloaded ++ [⟨1, .modelLoaded "c--cuda01"⟩] ∧
    Loading pairUnloaded 1 "c--cuda01" ∧ x.2.lines.countP (·.swapOf 1) ≤ 1 := by
  have h0 : (journalled pairedCards).init (initial 0 (survey pairedCards 0 bothLoaded),
      .opening 0 (survey pairedCards 0 bothLoaded)) :=
    ⟨⟨0, 0, bothLoaded, le_refl 0, rfl⟩, 0, _, rfl, rfl⟩
  obtain ⟨x, hx, hP⟩ := @System.exists_reach _ _ _ (fun _ _ => true) _ h0
    [.inl (.activity 0 (.ok idle)), .inl (.activity 0 (.ok idle)), .inl (.tick 20),
      .inl (.arrive "c--cuda01"), .inl (.resume 1), .inl (.resume 1), .inl (.resume 1),
      .inl (.resume 1), .inl (.activity 1 (.ok idle)), .inl (.resume 1),
      .inl (.activity 1 (.ok idle)), .inl (.resume 1), .inl (.run 0), .inl (.call 0 (.ok ())),
      .inl (.call 0 (.ok ())), .inl (.call 0 (.ok ()))]
    (fun x => x.2.lines = pairUnloaded ++ [⟨1, .modelLoaded "c--cuda01"⟩]) (by decide +kernel)
  have hlines := of_decide_eq_true hP
  obtain ⟨hcaused, honce⟩ := lines_traced hx.free
  exact ⟨x, hx.free, hlines, hcaused pairUnloaded _ [] hlines, honce 1⟩

end ModelBroker
