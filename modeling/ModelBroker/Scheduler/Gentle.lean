import ModelBroker.Scheduler.Actors
import ModelBroker.Scheduler.Admission
import ModelBroker.Scheduler.Keeping

/-!
# Runs whose re-inspections take nothing away

A re-inspection (`reinspect`, `scheduler.py`, lines 389–417) merges its survey in
the middle of loads, unloads and running requests. A run is gentle if every
survey it merges leaves the records in use where they are, and finds no model
that a swap is unloading after its record has gone. Servers that change only
when the broker asks answer so.

* `stored_gentle`, `flow_gentle`: what holds between tasks, requests and `loaded`
  in a run without a re-inspection holds in every gentle run.
* `admission_undisturbed`: in a gentle run an admission keeps its model, ready
  and in `loaded`, until it is released.
-/

namespace ModelBroker

variable {cfg : Config} {s t : State} {a : Act} {r : Ref} {found : Survey}

/-- The survey takes no record from a request or a task, and finds no model whose
    unload is under way and whose record has left `loaded`. -/
structure Gentle (s : State) (found : Survey) : Prop extends Keepable s found where
  absent : ∀ r, s.Unloads r → s.recorded (s.heap r).variant.id = none →
    found.loaded.contains (s.heap r).variant.id = false

/-- The condition of a run in which every survey that is merged is gentle. -/
def gentle (cfg : Config) (s : State) (a : Act) : Prop :=
  ∀ found, s.concludes cfg a = some found → Gentle s found

/-! ## What an install does -/

/-- The survey that a step completes is installed in it. -/
theorem installs (h : step cfg s a = some t) (hc : s.concludes cfg a = some found) :
    ∃ (p : ℕ) (q q' : Request) (variant : Variant) (pending : List Ref),
      s.requests[p]? = some q ∧ Surveys cfg s p a q variant (.inl found) ∧
      TrackTo (adopt s found) (some variant) (newModels s found) pending q' ∧
      t = ((installed s found).background (pending.map .finishReady)).goto p q' := by
  obtain ⟨p, q, variant, hq, hs⟩ := surveys_of_concludes hc
  obtain ⟨pending, q', hto, heq⟩ :=
    track_cases (installed s found) p (some variant) (newModels s found)
  refine ⟨p, q, q', variant, pending, hq, hs, hto, ?_⟩
  rw [hs.step hq] at h
  rw [← Option.some.inj h]
  exact heq

theorem noInstall_of_none (hc : s.concludes cfg a = none) : NoInstall cfg s a := by
  intro p q variant found hq hs
  rw [hs.concludes hq] at hc
  cases hc

/-- A record in use stays where it is. -/
theorem Keepable.keeps (hinv : Inv cfg s) (hk : Keepable s found) {id : String}
    (hr : s.recorded id = some r) (hu : s.InUse r) :
    (installed s found).recorded id = some r := by
  by_cases hfound : found.loaded.contains id = true
  · exact (installed_found hinv.refs hr hfound).2 (hk.sound id r hr hu hfound)
  · rw [Bool.not_eq_true] at hfound
    rw [installed_missing hr hfound]
    rcases hinv.seen_or_queued hu with hin | honly
    · exact .inl hin
    · by_contra hnot
      rw [not_or] at hnot
      rw [hk.held id r hr honly hnot.2] at hfound
      cases hfound

/-- Nothing is stored under an id that is neither recorded nor found. -/
theorem installed_none {id : String} (hr : s.recorded id = none)
    (hf : found.loaded.contains id = false) : (installed s found).recorded id = none := by
  have hnone : found.loaded.get id = none := by simpa [Dict.contains] using hf
  have hget : (installed s found).recorded id = keptMissing s found id := by
    have := @get_mergeLoaded s found id
    rwa [hnone] at this
  rw [hget, keptMissing, hr]
  rfl

section Install

variable {p : ℕ} {q q' : Request} {variant : Variant} {pending : List Ref}

/-- Another request that holds the lock would keep the survey from ending. -/
theorem Inv.unlocked_of_surveys (hinv : Inv cfg s) (hq : s.requests[p]? = some q)
    (hs : Surveys cfg s p a q variant (.inl found)) {p' : ℕ} {q₁ : Request} (hne : p' ≠ p)
    (hq₁ : s.requests[p']? = some q₁) : q₁.holdsLock = false := by
  rcases hs.lock with hlock | hfree
  · by_contra hheld
    exact hne (hinv.locking p' p q₁ q hq₁ hq (by simpa using hheld) hlock)
  · exact not_holds_of_lockFree hfree hq₁

theorem stored_install (hinv : Inv cfg s) (h : Stored s) (hgentle : Gentle s found)
    (hq : s.requests[p]? = some q) (hs : Surveys cfg s p a q variant (.inl found))
    (hto : TrackTo (adopt s found) (some variant) (newModels s found) pending q')
    (ht : t = ((installed s found).background (pending.map .finishReady)).goto p q')
    (hstep : Step cfg s a t) : Stored t := by
  have hrefs := refs_step hinv.refs hstep
  -- a new model is stored under its own id
  have fresh : ∀ r ∈ newModels s found, t.recorded (t.heap r).variant.id = some r := by
    intro r hr
    obtain ⟨id, hid, -⟩ := mem_newModels.1 hr
    have hrec : t.recorded id = some r := by rw [ht]; exact hid
    rw [(hrefs.keyed id r hrec).2]
    exact hrec
  have kept : ∀ r, r < s.next → s.recorded (s.heap r).variant.id = some r → s.InUse r →
      t.recorded (t.heap r).variant.id = some r := by
    intro r hlt hrec hu
    rw [step_variant hstep hlt, ht]
    exact hgentle.toKeepable.keeps hinv hrec hu
  have old : ∀ {i : ℕ} {k : Task}, t.tasks[i]? = some k →
      s.tasks[i]? = some k ∨ ∃ r ∈ pending, k = .finishReady r := by
    intro i k hi
    rw [ht] at hi
    rcases Table.get_append.1 hi with hi | ⟨n, -, hn⟩
    · exact .inl hi
    · obtain ⟨r, hr, heq⟩ := List.mem_map.1 (List.mem_of_getElem? hn)
      exact .inr ⟨r, hr, heq.symm⟩
  refine ⟨?_, ?_, ?_, clashing_step hinv h.conflict hstep⟩
  · intro i k r hi ho
    rcases old hi with hk | ⟨r', hr', rfl⟩
    · exact kept r (hinv.refs.owned_lt hk ho) (h.model i k r hk ho)
        (.inr (.inr (.inr ⟨i, k, hk, ho⟩)))
    · obtain rfl : r' = r := Option.some.inj ho
      exact fresh r' (hto.refs.2 r' hr')
  · rintro r ⟨p', after, model, rest, hp', hr, -⟩
    rw [ht] at hp'
    rcases (Table.get_set hq).1 hp' with ⟨-, rfl⟩ | ⟨hne, hp'⟩
    · exact fresh r (hto.refs.1 r (List.mem_cons_of_mem _ hr))
    · cases hinv.unlocked_of_surveys hq hs hne hp'
  · intro i k r r' hi hr hr'
    rcases old hi with hk | ⟨r₀, -, rfl⟩
    · have hlt := hinv.refs.victim_lt hk (Task.victims_of_toUnload hr)
      have hu : s.Unloads r := ⟨i, k, hk, hr⟩
      rw [step_variant hstep hlt, ht] at hr'
      cases hrec : s.recorded (s.heap r).variant.id with
      | none =>
        have hnone := installed_none hrec (hgentle.absent r hu hrec)
        rw [show (installed s found).recorded _ = some r' from hr'] at hnone
        cases hnone
      | some r'' =>
        obtain rfl := h.victim i k r r'' hk hr hrec
        have hkept := hgentle.toKeepable.keeps hinv hrec (.inr (.inr (.inl hu)))
        rw [show (installed s found).recorded _ = some r' from hr'] at hkept
        exact Option.some.inj hkept
    · cases hr

theorem flow_install (hinv : Inv cfg s) (hc : Counted s) (h : Flow s) (hk : Keepable s found)
    (hq : s.requests[p]? = some q)
    (hto : TrackTo (adopt s found) (some variant) (newModels s found) pending q')
    (ht : t = ((installed s found).background (pending.map .finishReady)).goto p q') : Flow t := by
  have hheap : ∀ r < s.next, t.heap r = s.heap r := by
    intro r hr
    rw [ht]
    exact adopt_of_lt hr
  -- the request that installs is not using a model
  have other : ∀ {p' : ℕ} {q₁ : Request}, t.requests[p']? = some q₁ → ¬ q₁.Idle →
      s.requests[p']? = some q₁ := by
    intro p' q₁ hp' hidle
    rw [ht] at hp'
    rcases (Table.get_set hq).1 hp' with ⟨-, rfl⟩ | ⟨-, hp'⟩
    · exact absurd hto.idle hidle
    · exact hp'
  have keeps : ∀ {id : String} {r : Ref}, s.recorded id = some r → s.InUse r →
      t.recorded id = some r := by
    intro id r hr hu
    rw [ht]
    exact hk.keeps hinv hr hu
  constructor
  · intro p' r hp'
    have hp₀ := other hp' fun hidle => by simpa [Request.admittedTo] using (hidle r).1
    have hlt := hinv.refs.admitted_lt hp₀
    obtain ⟨hrec, hleaving⟩ := h.admitted p' r hp₀
    rw [hheap r hlt]
    refine ⟨keeps hrec (.inl fun hzero => ?_), hleaving⟩
    rw [hc.active r hlt, Table.countP_eq_zero] at hzero
    simpa [Request.admittedTo] using hzero p' _ hp₀
  · intro p' r hp'
    have hp₀ := other hp' fun hidle => by simpa [Request.joins] using (hidle r).2
    have hlt := hinv.refs.joining_lt hp₀
    obtain ⟨hleaving, hrec⟩ := h.joining p' r hp₀
    rw [hheap r hlt]
    refine ⟨hleaving, fun herror => keeps (hrec herror) (.inr (.inl fun hzero => ?_))⟩
    rw [hc.queued r hlt, Table.countP_eq_zero] at hzero
    simpa [Request.joins] using hzero p' _ hp₀

end Install

/-! ## Gentle runs -/

/-- In a gentle run tasks and `loaded` agree. -/
theorem stored_gentle {ok : State → Act → Prop} (hok : ∀ s a, ok s a → gentle cfg s a)
    (h : (scheduler cfg).Reach ok s) : Stored s := by
  refine h.invariant ?_ ?_
  · rintro s ⟨earlier, now, answer, -, rfl⟩
    exact stored_initial (survey_complete cfg earlier answer)
  · intro s a t hs hstored ha hstep
    have hinv := inv hs
    cases hc : s.concludes cfg a with
    | none => exact stored_step hinv hstored (step_cases hstep) (noInstall_of_none hc)
    | some found =>
      obtain ⟨p, q, q', variant, pending, hq, hsurvey, hto, ht⟩ := installs hstep hc
      exact stored_install hinv hstored (hok s a ha found hc) hq hsurvey hto ht (step_cases hstep)

/-- In a gentle run a request can rely on its record. -/
theorem flow_gentle {ok : State → Act → Prop} (hok : ∀ s a, ok s a → gentle cfg s a)
    (h : (scheduler cfg).Reach ok s) : Flow s := by
  refine h.invariant ?_ ?_
  · rintro s ⟨earlier, now, answer, -, rfl⟩
    refine ⟨?_, ?_⟩ <;> intro p r hp <;>
      rcases (initial_requests hp).2 with heq | ⟨model, rest, heq⟩ <;> cases heq
  · intro s a t hs hflow ha hstep
    have hinv := inv hs
    cases hc : s.concludes cfg a with
    | none =>
      have hno := noInstall_of_none hc
      have hstored := stored_gentle hok hs
      refine ⟨?_, ?_⟩
      · exact hflow.admitted_step hinv (counted hs) hstored (admitted_sound hs) (step_cases hstep)
          hno
      · exact hflow.joining_step hinv (counted hs) hstored (failed_loads hs) (step_cases hstep) hno
    | some found =>
      obtain ⟨p, q, q', variant, pending, hq, -, hto, ht⟩ := installs hstep hc
      exact flow_install hinv (counted hs) hflow (hok s a ha found hc).toKeepable hq hto ht

/-- A request goes on being admitted while others act. -/
theorem admitted_kept {p : ℕ} {ok : State → Act → Prop} (hok : ∀ s a, ok s a → a.request? ≠ some p)
    (h : (scheduler cfg).Free s) (hp : s.requests[p]? = some (.admitted r))
    (ht : ((scheduler cfg).startingIn fun s' => s' = s).Reach ok t) :
    t.requests[p]? = some (.admitted r) ∧ (t.heap r).variant = (s.heap r).variant := by
  refine ht.invariant (I := fun t => t.requests[p]? = some (.admitted r) ∧
    (t.heap r).variant = (s.heap r).variant) ?_ ?_
  · rintro _ rfl
    exact ⟨hp, rfl⟩
  · rintro u a v hu ⟨hadmitted, hvariant⟩ ha hstep
    have hreach : (scheduler cfg).Free u := hu.free.of_startingIn fun _ heq => heq ▸ h
    refine ⟨step_others hstep (hok u a ha) hadmitted, ?_⟩
    rw [step_variant (step_cases hstep) ((inv hreach).refs.admitted_lt hadmitted), hvariant]

/-- What a request that is admitted relies on. -/
theorem admitted_of_flow {ok : State → Act → Prop} {p : ℕ} (h : (scheduler cfg).Reach ok s)
    (hflow : Flow s) (hp : s.requests[p]? = some (.admitted r)) :
    s.recorded (s.heap r).variant.id = some r ∧ (s.heap r).ready = true ∧
      (s.heap r).error = none ∧ (s.heap r).leaving = false ∧ 0 < (s.heap r).active ∧
      ∀ (i : ℕ) (k : Task), s.tasks[i]? = some k → r ∉ k.victims ∧ k.owns ≠ some r := by
  obtain ⟨hready, herror⟩ := admitted_sound h p r hp
  obtain ⟨hrec, hleaving⟩ := hflow.admitted p r hp
  have hinv := inv h
  have hactive : 0 < (s.heap r).active := by
    rw [(counted h).active r (hinv.refs.admitted_lt hp)]
    exact Table.countP_pos hp (by simp [Request.admittedTo])
  refine ⟨hrec, hready, herror, hleaving, hactive, fun i k hi => ?_⟩
  constructor
  · intro hmem
    rw [(quiet h i k r hi hmem).1] at hactive
    cases hactive
  · intro ho
    rw [hinv.owners.unready i k r hi ho] at hready
    cases hready

/-- In every gentle run, from the moment a request is admitted until its own
    release: its record is the one in `loaded` under the id of its variant, it is
    ready, has no error and is not leaving, and no task is loading it or has it
    as a victim. -/
theorem admission_undisturbed {p : ℕ} (h : (scheduler cfg).Reach (gentle cfg) s)
    (hp : s.requests[p]? = some (.admitted r))
    (ht : ((scheduler cfg).startingIn fun s' => s' = s).Reach
      (fun s' a => gentle cfg s' a ∧ a.request? ≠ some p) t) :
    t.requests[p]? = some (.admitted r) ∧ t.recorded (s.heap r).variant.id = some r ∧
      (t.heap r).variant = (s.heap r).variant ∧ (t.heap r).ready = true ∧
      (t.heap r).error = none ∧ (t.heap r).leaving = false ∧ 0 < (t.heap r).active ∧
      ∀ (i : ℕ) (k : Task), t.tasks[i]? = some k → r ∉ k.victims ∧ k.owns ≠ some r := by
  obtain ⟨hadmitted, hvariant⟩ := admitted_kept (fun _ _ ha => ha.2) h.free hp ht
  have hreach : (scheduler cfg).Reach (gentle cfg) t :=
    (ht.mono fun _ _ ha => ha.1).of_startingIn fun _ heq => heq ▸ h
  obtain ⟨hrec, hready, herror, hleaving, hactive, htasks⟩ :=
    admitted_of_flow hreach (flow_gentle (fun _ _ hok => hok) hreach) hadmitted
  exact ⟨hadmitted, hvariant ▸ hrec, hvariant, hready, herror, hleaving, hactive, htasks⟩

/-- A test that a survey can be merged without harm: no record that was found has
    failed, nobody is queued and no swap has anything to unload. -/
def calmMerge (cfg : Config) (s : State) (a : Act) : Bool :=
  (s.concludes cfg a).all fun found =>
    s.view.loaded.entries.all (fun e =>
      decide ((s.heap e.2).queued = 0) &&
        (!found.loaded.contains e.1 || (s.heap e.2).error.isNone)) &&
    s.tasks.all fun k => k.toUnload.isEmpty

theorem gentle_of_calmMerge (h : calmMerge cfg s a = true) : gentle cfg s a := by
  intro found hc
  simp only [calmMerge, hc, Option.all_some, Bool.and_eq_true, List.all_eq_true,
    decide_eq_true_eq, Bool.or_eq_true, Bool.not_eq_true', List.isEmpty_iff] at h
  obtain ⟨hrecords, htasks⟩ := h
  refine ⟨⟨fun id r hr _ hfound => ?_, fun id r hr honly _ => ?_⟩, fun r hu _ => ?_⟩
  · rcases (hrecords _ (Dict.get_eq_some.1 hr)).2 with hmissing | hsound
    · rw [hfound] at hmissing; cases hmissing
    · simpa using hsound
  · exact absurd (hrecords _ (Dict.get_eq_some.1 hr)).1 honly.1
  · obtain ⟨i, k, hi, hmem⟩ := hu
    rw [htasks k (List.mem_of_getElem? hi)] at hmem
    cases hmem

/-- The model of the first card serves a request while that of the second fails
    to load, with an unknown outcome. -/
def failedBeside : List Act :=
  [.activity 0 (.ok idle), .arrive "a--cuda0", .resume 1, .resume 1,
    .arrive "b--cuda1", .resume 2, .resume 2, .resume 2, .resume 2, .run 0,
    .call 0 (.error "timed out"), .taskStates 0 (.error "timed out"), .resume 2]

/-- A third request has the router inspected. -/
def inspectedAgain : List Act :=
  [.arrive "b--cuda1", .resume 3, .resume 3, .props 3 (.ok ⟨0, false, none⟩),
    .states 3 (.ok (.ofList [("a--cuda0", { value := "loaded" })]))]

/-- The admission outlives the problem and the re-inspection that clears it. -/
theorem admission_undisturbed_pairedCards :
    ∃ s t, (scheduler pairedCards).Reach (gentle pairedCards) s ∧ s.view.problems ≠ [] ∧
      ((scheduler pairedCards).startingIn fun s' => s' = s).Free t ∧ t.view.problems = [] ∧
      t.requests[1]? = some (.admitted 0) ∧ t.recorded "a--cuda0" = some 0 ∧ 0 < (t.heap 0).active := by
  obtain ⟨s, hs, hP⟩ := reach_run pairedCards (calmMerge pairedCards) 0 (reporting "loaded")
    failedBeside
    (fun s => s.requests[1]?.any (Request.admittedTo 0) && !s.view.problems.isEmpty &&
      decide ((s.heap 0).variant.id = "a--cuda0") &&
      (((scheduler pairedCards).startingIn fun s' => s' = s).run
        (fun s a => calmMerge pairedCards s a && a.request? ≠ some 1) s inspectedAgain).any
          fun t => t.view.problems.isEmpty)
    (by decide +kernel)
  simp only [Bool.and_eq_true, Bool.not_eq_true', List.isEmpty_eq_false_iff,
    decide_eq_true_eq] at hP
  obtain ⟨⟨⟨hadmitted, hproblems⟩, hid⟩, hlater⟩ := hP
  obtain ⟨q, hq, hto⟩ := (Option.any_eq_true ..).1 hadmitted
  obtain rfl := Request.admittedTo_iff.1 hto
  obtain ⟨t, ht, hfit⟩ := @System.exists_reach _ _
    ((scheduler pairedCards).startingIn fun s' => s' = s) _ s rfl inspectedAgain _ hlater
  have hgentle : (scheduler pairedCards).Reach (gentle pairedCards) s :=
    hs.mono fun _ _ => gentle_of_calmMerge
  have hcalm : ((scheduler pairedCards).startingIn fun s' => s' = s).Reach
      (fun s' a => gentle pairedCards s' a ∧ a.request? ≠ some 1) t :=
    ht.mono fun _ _ ha => by
      simp only [Bool.and_eq_true, decide_eq_true_eq] at ha
      exact ⟨gentle_of_calmMerge ha.1, ha.2⟩
  obtain ⟨hkept, hrec, -, -, -, -, hactive, -⟩ := admission_undisturbed hgentle hq hcalm
  rw [hid] at hrec
  exact ⟨s, t, hgentle, hproblems, hcalm.free, by simpa using hfit, hkept, hrec, hactive⟩

end ModelBroker
