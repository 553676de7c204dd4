import ModelBroker.Scheduler.Finishing
import ModelBroker.Scheduler.Swap
import ModelBroker.Servers.World

/-!
# Exclusive resources are not double-booked

In a run without a re-inspection that starts from a survey without problems, a
model that a server has is in `loaded`, and two conflicting records are a victim
and the model of the swap that is unloading the victim. This relies on four
promises of the servers: they change only by the broker's commands, `unload`
returns only when the model is unloaded, a report of `unloaded` after a failed
load is final, and the activity of a model is answered only while the server has
the model.

* `Booked`: the invariant; `booked_step`, `booked_move`: every step of the
  scheduler and every move of the servers keep it.
* `never_double_booked`: what follows for every run.
* `answered_double_booked`: without the fourth promise it fails. A victim that
  is not in `loaded` any more is observed idle, and its swap dies.
-/

namespace ModelBroker

variable {cfg : Config} {s t : State} {a : Act} {w w' : World} {m : Move}

/-! ## What the servers promise -/

/-- What the servers promise about their commands: `unload` returns only when the
    model is unloaded, and a report of `unloaded` after a failed load is final. -/
def promised (x : State × World) : Act → Bool
  | .call i (.ok _) =>
    match x.1.tasks[i]? with
    | some (.swapUnload _ victim _ _) => x.2.has (x.1.heap victim).variant = .unloaded
    | _ => true
  | .taskStates i answer =>
    match x.1.tasks[i]? with
    | some (.loadQuery model _ _) =>
      !confirmsUnloaded (x.1.heap model).variant.id answer ||
        (x.2.has (x.1.heap model).variant = .unloaded &&
          !x.2.loads (x.1.heap model).variant.id)
    | _ => true
  | _ => true

/-- The activity of a model is answered only while its server has the model. -/
def answered (x : State × World) : Act → Bool
  | .activity p (.ok _) =>
    match x.1.requests[p]? with
    | some (.observing _ _ model) => x.2.has (x.1.heap model).variant ≠ .unloaded
    | _ => true
  | _ => true

/-- No re-inspection starts, and the servers keep their promises about commands. -/
def commanded (x : State × World) (c : Act ⊕ Move) : Bool :=
  c.elim (fun a => uninspected x.1 a && promised x a) fun _ => true

/-- In addition the servers answer only for models they have. -/
def booking (x : State × World) (c : Act ⊕ Move) : Bool :=
  c.elim (fun a => uninspected x.1 a && (promised x a && answered x a)) fun _ => true

/-! ## The invariant -/

/-- The swap of the model is to unload the victim. -/
def State.Displaces (s : State) (victim model : Ref) : Prop :=
  ∃ (i : ℕ) (k : Task), s.tasks[i]? = some k ∧ victim ∈ k.toUnload ∧ k.owns = some model

/-- What holds between the scheduler and its servers. -/
structure Booked (s : State) (w : World) : Prop where
  held : ∀ server id, w.value server id ≠ .unloaded →
    ∃ r, s.recorded id = some r ∧ (s.heap r).variant.backend = server
  pending : ∀ c ∈ w.commands, c.op = .load → w.value c.server c.id = .unloaded ∧
    ∃ r, s.recorded c.id = some r ∧ (s.heap r).variant.backend = c.server
  single : w.commands.Pairwise fun c d => c.op = .load → d.op = .load → c.id ≠ d.id
  unasked : ∀ (i : ℕ) (k : Task) (r : Ref), s.tasks[i]? = some k → k.unasked = some r →
    (∀ server, w.value server (s.heap r).variant.id = .unloaded) ∧
      w.loads (s.heap r).variant.id = false
  present : Present s
  begun : ∀ (i : ℕ) (k : Task) (r : Ref), s.tasks[i]? = some k → r ∈ k.toUnload →
    w.loads (s.heap r).variant.id = false
  judged : ∀ (p : ℕ) (q : Request) (seen : List Ref) (untilTime : Seconds) (reason : String),
    s.requests[p]? = some q → q.verdict? = some (seen, untilTime, reason) → ∀ r ∈ seen,
    s.recorded (s.heap r).variant.id = some r ∧ w.loads (s.heap r).variant.id = false
  staying : ∀ (p : ℕ) (q : Request) (job : Job) (asked rest : List Ref), s.requests[p]? = some q →
    q.decides? = some (job, asked, rest) → ∀ r ∈ asked, (s.heap r).leaving = false
  apart : ∀ id id' r r', s.recorded id = some r → s.recorded id' = some r' → id ≠ id' →
    claimsConflict (s.heap r).variant (s.heap r').variant = true →
    s.Displaces r r' ∨ s.Displaces r' r

/-- A model that is not in `loaded` is on no server, and no load of it is
    outstanding. -/
theorem Booked.absent (h : Booked s w) {id : String} (hnone : s.recorded id = none) :
    (∀ server, w.value server id = .unloaded) ∧ w.loads id = false := by
  constructor
  · intro server
    by_contra hne
    obtain ⟨r, hr, -⟩ := h.held server id hne
    rw [hnone] at hr
    cases hr
  · by_contra hne
    obtain ⟨c, hc, hop, rfl⟩ := World.loads_iff.1 (by simpa using hne)
    obtain ⟨-, r, hr, -⟩ := h.pending c hc hop
    rw [hnone] at hr
    cases hr

/-- A recorded model that its own server does not have is on no server. -/
theorem Booked.nowhere (h : Booked s w) {id : String} {r : Ref} (hr : s.recorded id = some r)
    (hv : w.value (s.heap r).variant.backend id = .unloaded) (server : String) :
    w.value server id = .unloaded := by
  by_contra hne
  obtain ⟨r', hr', rfl⟩ := h.held server id hne
  rw [hr] at hr'
  obtain rfl := Option.some.inj hr'
  exact hne hv

/-- A load of a model that its server has is not outstanding. -/
theorem Booked.not_loads (h : Booked s w) {id : String} {r : Ref} (hr : s.recorded id = some r)
    (hv : w.value (s.heap r).variant.backend id ≠ .unloaded) : w.loads id = false := by
  by_contra hne
  obtain ⟨c, hc, hop, rfl⟩ := World.loads_iff.1 (by simpa using hne)
  obtain ⟨hunloaded, r', hr', hback⟩ := h.pending c hc hop
  rw [hr] at hr'
  obtain rfl := Option.some.inj hr'
  rw [hback] at hv
  exact hv hunloaded

/-- A model whose activity is answered is in `loaded`. -/
theorem Booked.observed (hinv : Inv cfg s) (h : Booked s w) {p : ℕ} {job : Job} {look : Look}
    {model : Ref} {activity : ModelActivity} (hp : s.requests[p]? = some (.observing job look model))
    (hseen : answered (s, w) (.activity p (.ok activity)) = true) :
    s.recorded (s.heap model).variant.id = some model ∧
      w.loads (s.heap model).variant.id = false := by
  have hv : w.has (s.heap model).variant ≠ .unloaded := by simpa [answered, hp] using hseen
  obtain ⟨r, hr, -⟩ := h.held _ _ hv
  have hdec := hinv.deciding p _ job (look.seen ++ [model]) look.rest hp rfl
  obtain rfl := hdec.own model (by simp) r hr
  exact ⟨hr, h.not_loads hr hv⟩

/-! ## A step of the scheduler -/

section Step

variable (hinv : Inv cfg s) (hst : Stored s) (hno : NoInstall cfg s a) (h : Booked s w)
  (hstep : step cfg s a = some t) (hok : promised (s, w) a = true)

include hinv hst hno h hstep hok

/-- A record that a step takes out of `loaded` is of a model that is unloaded
    for good. -/
theorem Booked.lost {id : String} {r : Ref} (hr : s.recorded id = some r) :
    t.recorded id = some r ∨
      (∀ server, w.value server id = .unloaded) ∧ w.loads id = false := by
  rcases step_kept hinv.deciding (step_cases hstep) hr with hkept |
    ⟨victim, ⟨i, done, rest, model, answer, hk, rfl, -⟩, rfl⟩ | ⟨model, ⟨i, k, hk, ho, -, hfail⟩, rfl⟩ |
    ⟨p, q, variant, found, hq, hs⟩
  · exact .inl hkept
  · right
    have hrec := h.present i _ victim hk List.mem_cons_self
    have hv : w.has (s.heap victim).variant = .unloaded := by simpa [promised, hk] using hok
    exact ⟨h.nowhere hrec hv, h.begun i _ victim hk List.mem_cons_self⟩
  · right
    rcases hfail with ⟨-, hun⟩ | ⟨error, loader, answer, rfl, rfl, hc⟩
    · exact h.unasked i k model hk hun
    · have hv : w.has (s.heap model).variant = .unloaded ∧
          w.loads (s.heap model).variant.id = false := by
        simpa [promised, hk, hc] using hok
      exact ⟨h.nowhere (hst.model i _ model hk ho) hv.1, hv.2⟩
  · exact absurd hs (hno p q variant found hq)

theorem Booked.held_step (server id : String) (hv : (w.react s a t).value server id ≠ .unloaded) :
    ∃ r, t.recorded id = some r ∧ (t.heap r).variant.backend = server := by
  rw [react_value] at hv
  obtain ⟨r, hr, hback⟩ := h.held server id hv
  rcases h.lost hinv hst hno hstep hok hr with hkept | ⟨hnone, -⟩
  · refine ⟨r, hkept, ?_⟩
    rw [step_variant (step_cases hstep) (hinv.refs.keyed id r hr).1, hback]
  · exact absurd (hnone server) hv

omit h hok in
/-- A record that is ready and not leaving stays, and no load of it is sent. -/
theorem Stored.stays {r : Ref} (hr : s.recorded (s.heap r).variant.id = some r)
    (hready : (s.heap r).ready = true) (hloads : w.loads (s.heap r).variant.id = false) :
    (w.react s a t).loads (t.heap r).variant.id = false ∧
      ((s.heap r).leaving = false → t.recorded (t.heap r).variant.id = some r) := by
  have hlt := (hinv.refs.keyed _ r hr).1
  have hcases := step_cases hstep
  rw [step_variant hcases hlt]
  constructor
  · by_contra hne
    rcases react_loads hinv.refs hstep (by simpa using hne) with hold | ⟨i, k, m, hk, hun, -, hid⟩
    · rw [hloads] at hold; cases hold
    · -- the model that is asked for is not ready
      have hm := hst.model i k m hk (Task.owns_of_unasked hun)
      rw [hid, hr] at hm
      obtain rfl := Option.some.inj hm
      rw [hinv.owners.unready i k r hk (Task.owns_of_unasked hun)] at hready
      cases hready
  · intro hleaving
    refine (hst.kept hinv hcases hno hr (.inr hleaving)).resolve_right fun hfails => ?_
    obtain ⟨i, k, hk, ho, -⟩ := hfails
    rw [hinv.owners.unready i k r hk ho] at hready
    cases hready

omit hok in
theorem Booked.judged_step (hseen : answered (s, w) a = true) (p : ℕ) (q : Request)
    (seen : List Ref) (untilTime : Seconds) (reason : String) (hp : t.requests[p]? = some q)
    (hv : q.verdict? = some (seen, untilTime, reason)) (r : Ref) (hr : r ∈ seen) :
    t.recorded (t.heap r).variant.id = some r ∧
      (w.react s a t).loads (t.heap r).variant.id = false := by
  -- a model that was asked stays if it is in `loaded`
  have old : ∀ {q₀ : Request} {job : Job} {asked rest : List Ref}, s.requests[p]? = some q₀ →
      q₀.decides? = some (job, asked, rest) → r ∈ asked →
      s.recorded (s.heap r).variant.id = some r → w.loads (s.heap r).variant.id = false →
      t.recorded (t.heap r).variant.id = some r ∧
        (w.react s a t).loads (t.heap r).variant.id = false := by
    intro q₀ job asked rest hp₀ hd hmem hrec hloads
    have hready := (hinv.deciding p q₀ job asked rest hp₀ hd).ready r hmem
    have hleaving := h.staying p q₀ job asked rest hp₀ hd r hmem
    obtain ⟨hnot, hkept⟩ := hst.stays hinv hno hstep hrec hready hloads
    exact ⟨hkept hleaving, hnot⟩
  rcases step_verdict (step_cases hstep) hp hv with ⟨q₀, hp₀, hv₀⟩ | ⟨rfl, -⟩ |
    ⟨job, look, model, activity, hp₀, rfl, -, rfl, -⟩
  · obtain ⟨hrec, hloads⟩ := h.judged p q₀ seen untilTime reason hp₀ hv₀ r hr
    obtain ⟨job, more, rest, hd, -⟩ := Request.decides_of_verdict hv₀
    exact old hp₀ hd (List.mem_append_left _ hr) hrec hloads
  · cases hr
  · have hd : (Request.observing job look model).decides? =
        some (job, look.seen ++ [model], look.rest) := rfl
    obtain ⟨rfl, -⟩ := Prod.mk.inj (Option.some.inj hv)
    rw [judged_seen] at hr
    have hboth : s.recorded (s.heap r).variant.id = some r ∧
        w.loads (s.heap r).variant.id = false := by
      rcases List.mem_append.1 hr with hseen | hmodel
      · exact h.judged p _ look.seen look.untilTime look.reason hp₀ rfl r hseen
      · obtain rfl := List.mem_singleton.1 hmodel
        exact h.observed hinv hp₀ hseen
    exact old hp₀ hd hr hboth.1 hboth.2

theorem Booked.pending_step (c : Command) (hc : c ∈ (w.react s a t).commands)
    (hop : c.op = .load) : (w.react s a t).value c.server c.id = .unloaded ∧
      ∃ r, t.recorded c.id = some r ∧ (t.heap r).variant.backend = c.server := by
  rw [react_value]
  have hcases := step_cases hstep
  have old : c ∈ w.commands → w.value c.server c.id = .unloaded ∧
      ∃ r, t.recorded c.id = some r ∧ (t.heap r).variant.backend = c.server := by
    intro hc
    obtain ⟨hv, r, hr, hback⟩ := h.pending c hc hop
    refine ⟨hv, r, ?_, ?_⟩
    · refine (h.lost hinv hst hno hstep hok hr).resolve_right fun hlost => ?_
      rw [World.loads_iff.2 ⟨c, hc, hop, rfl⟩] at hlost
      cases hlost.2
    · rw [step_variant hcases (hinv.refs.keyed _ r hr).1, hback]
  rcases react_commands s a t w with heq | ⟨i, kept, ha, hsub, heq⟩
  · exact old (heq ▸ hc)
  · rw [heq] at hc
    rcases List.mem_append.1 hc with hc | hc
    · exact old (hsub.subset hc)
    · obtain ⟨m, hi, hserver, hid⟩ := mem_issued hc hop
      obtain ⟨k, hk, hun⟩ := unasked_of_issued hstep ha hi
      have hvar := step_variant hcases (hinv.refs.owned_lt hk (Task.owns_of_unasked hun))
      refine ⟨?_, m, ?_, hserver.symm⟩
      · rw [hid, hvar]
        exact (h.unasked i k m hk hun).1 _
      · rw [hid]
        exact (stored_step hinv hst hcases hno).model i _ m hi rfl

omit hst hno hok in
theorem Booked.single_step : (w.react s a t).commands.Pairwise fun c d =>
    c.op = .load → d.op = .load → c.id ≠ d.id := by
  rcases react_commands s a t w with heq | ⟨i, kept, ha, hsub, heq⟩
  · rw [heq]
    exact h.single
  · rw [heq, List.pairwise_append]
    refine ⟨h.single.sublist hsub, ?_, ?_⟩
    · unfold State.issued
      split <;> simp
    · intro c hc d hd hcop hdop hid
      obtain ⟨m, hi, -, hm⟩ := mem_issued hd hdop
      obtain ⟨k, hk, hun⟩ := unasked_of_issued hstep ha hi
      have hnone := (h.unasked i k m hk hun).2
      rw [← step_variant (step_cases hstep) (hinv.refs.owned_lt hk (Task.owns_of_unasked hun)),
        ← hm, ← hid, World.loads_iff.2 ⟨c, hsub.subset hc, hcop, rfl⟩] at hnone
      cases hnone

theorem Booked.unasked_step (i : ℕ) (k : Task) (r : Ref) (hi : t.tasks[i]? = some k)
    (hun : k.unasked = some r) :
    (∀ server, (w.react s a t).value server (t.heap r).variant.id = .unloaded) ∧
      (w.react s a t).loads (t.heap r).variant.id = false := by
  rw [react_value]
  have hcases := step_cases hstep
  rcases step_unasked hcases hi hun with ⟨k₀, hk₀, hun₀⟩ | ⟨rfl, p, job, victims, hd, rfl, rfl⟩
  · rw [step_variant hcases (hinv.refs.owned_lt hk₀ (Task.owns_of_unasked hun₀))]
    obtain ⟨hv, hloads⟩ := h.unasked i k₀ r hk₀ hun₀
    refine ⟨hv, ?_⟩
    by_contra hne
    rcases react_loads hinv.refs hstep (by simpa using hne) with hold | ⟨j, k₁, m, hk₁, hun₁, hj, hid⟩
    · rw [hloads] at hold; cases hold
    · -- the swap that has asked is this one, which has not
      have hm := hst.model j k₁ m hk₁ (Task.owns_of_unasked hun₁)
      rw [hid, hst.model i k₀ r hk₀ (Task.owns_of_unasked hun₀)] at hm
      obtain rfl := Option.some.inj hm
      obtain rfl := hinv.owners.unique i j k₀ k₁ r hk₀ hk₁ (Task.owns_of_unasked hun₀)
        (Task.owns_of_unasked hun₁)
      rw [hj] at hi
      obtain rfl := Option.some.inj hi
      cases hun
  · have hnew : ((committed s p job victims).heap s.next).variant = job.variant := by
      simp [committed, newModel]
    rw [hnew]
    obtain ⟨hv, hloads⟩ := h.absent (hinv.deciding.decision hd).1.absent
    refine ⟨hv, ?_⟩
    by_contra hne
    rcases react_loads hinv.refs hstep (by simpa using hne) with hold | ⟨j, k₁, m, hk₁, hun₁, hj, -⟩
    · rw [hloads] at hold; cases hold
    · have hget : s.tasks[j]? = some (.swapLoad m) := by
        rcases Table.get_push.1 hj with ⟨-, heq⟩ | hj
        · cases heq
        · exact hj
      rw [hk₁] at hget
      obtain rfl := Option.some.inj hget
      cases hun₁

omit hok in
theorem Booked.present_step : Present t := by
  refine ModelBroker.present_step hinv hst h.present (step_cases hstep) hno ?_
  intro p job victims hd _ r hr
  obtain ⟨look, hq, -, -, -, rfl⟩ := decision_eq_some.1 hd
  exact (h.judged p _ look.seen look.untilTime look.reason hq rfl r hr).1

omit hok in
theorem Booked.begun_step (i : ℕ) (k : Task) (r : Ref) (hi : t.tasks[i]? = some k)
    (hr : r ∈ k.toUnload) : (w.react s a t).loads (t.heap r).variant.id = false := by
  rcases step_toUnload (step_cases hstep) hi hr with ⟨k₀, hk₀, hr₀, -⟩ | ⟨-, -, p, job, hd, -, -⟩
  · have hready := (hinv.victims.leaving i k₀ r hk₀ (Task.victims_of_toUnload hr₀)).2
    exact (hst.stays hinv hno hstep (h.present i k₀ r hk₀ hr₀) hready
      (h.begun i k₀ r hk₀ hr₀)).1
  · have hv := Task.victims_of_toUnload hr
    have hready := (hinv.deciding.decision hd).1.ready r hv
    obtain ⟨look, hq, -, -, -, heq⟩ := decision_eq_some.1 hd
    obtain ⟨hrec, hloads⟩ :=
      h.judged p _ look.seen look.untilTime look.reason hq rfl r (heq ▸ hv)
    exact (hst.stays hinv hno hstep hrec hready hloads).1

omit hst hno hok in
theorem Booked.staying_step (p : ℕ) (q : Request) (job : Job) (asked rest : List Ref)
    (hp : t.requests[p]? = some q) (hd : q.decides? = some (job, asked, rest)) (r : Ref)
    (hr : r ∈ asked) : (t.heap r).leaving = false := by
  have hcases := step_cases hstep
  -- nobody else can decide meanwhile
  have old : ∀ {q₀ : Request} {d : Job × List Ref × List Ref}, s.requests[p]? = some q₀ →
      q₀.decides? = some d → r ∈ q₀.refs → (s.heap r).leaving = false →
      (t.heap r).leaving = false := by
    intro q₀ d hp₀ hd₀ hmem hleaving
    rcases step_leaving hcases (hinv.refs.request p q₀ hp₀ r hmem) with hsame |
      ⟨p', job', victims, hd', rfl, -, -⟩ | ⟨hfalse, -⟩
    · rw [hsame, hleaving]
    · obtain ⟨look, hp', -⟩ := decision_eq_some.1 hd'
      obtain rfl := hinv.locking p p' _ _ hp₀ hp' (Request.holdsLock_of_decides hd₀) rfl
      obtain rfl := Option.some.inj ((Table.get_set_self hp').symm.trans hp)
      cases hd
    · exact hfalse
  rcases step_decides hcases hp hd with ⟨q₀, hp₀, hd₀⟩ | ⟨-, rfl, -⟩ |
    ⟨q₀, asked₀, r', hp₀, hd₀, rfl, -, hleaving'⟩
  · refine old hp₀ hd₀ ?_ (h.staying p q₀ job asked rest hp₀ hd₀ r hr)
    rw [Request.refs_of_decides hd₀]
    exact List.mem_append_left _ hr
  · cases hr
  · have hrefs := Request.refs_of_decides hd₀
    rcases List.mem_append.1 hr with hr | hr
    · refine old hp₀ hd₀ ?_ (h.staying p q₀ job asked₀ _ hp₀ hd₀ r hr)
      rw [hrefs]
      exact List.mem_append_left _ hr
    · obtain rfl := List.mem_singleton.1 hr
      refine old hp₀ hd₀ ?_ hleaving'
      rw [hrefs]
      exact List.mem_append_right _ List.mem_cons_self

omit hok in
theorem Booked.apart_step (id id' : String) (r r' : Ref) (hr : t.recorded id = some r)
    (hr' : t.recorded id' = some r') (hne : id ≠ id')
    (hconf : claimsConflict (t.heap r).variant (t.heap r').variant = true) :
    t.Displaces r r' ∨ t.Displaces r' r := by
  have hcases := step_cases hstep
  have hlives : s.crashes a = false := hst.not_crashes h.present
  -- a swap goes on to displace a victim while both are in `loaded`
  have goes : ∀ {id id' : String} {r r' : Ref}, s.recorded id = some r → s.recorded id' = some r' →
      t.recorded id = some r → t.recorded id' = some r' → s.Displaces r r' → t.Displaces r r' := by
    rintro id id' r r' hr₀ hr₀' hr hr' ⟨i, k, hk, hmem, ho⟩
    rcases victim_forward hcases hlives hk hmem ho with hon | hgone |
      ⟨-, -, -, -, -, -, -, -, -, hgone⟩
    · exact ⟨i, hon⟩
    · rw [(hinv.refs.keyed id r hr₀).2, hr] at hgone; cases hgone
    · rw [(hinv.refs.keyed id' r' hr₀').2, hr'] at hgone; cases hgone
  have old : s.recorded id = some r → s.recorded id' = some r' →
      t.Displaces r r' ∨ t.Displaces r' r := by
    intro hr₀ hr₀'
    rw [step_variant hcases (hinv.refs.keyed id r hr₀).1,
      step_variant hcases (hinv.refs.keyed id' r' hr₀').1] at hconf
    exact (h.apart id id' r r' hr₀ hr₀' hne hconf).imp (goes hr₀ hr₀' hr hr')
      (goes hr₀' hr₀ hr' hr)
  cases step_loaded hcases with
  | fewer hl => exact old (hl id r hr) (hl id' r' hr')
  | @commit p job victims hd ht =>
    -- the new model displaces every model it conflicts with
    have hdec := (hinv.deciding.decision hd).1
    have hnew : (t.heap s.next).variant = job.variant := by
      rw [ht]
      simp [committed, newModel]
    have displaced : ∀ {id : String} {r : Ref}, s.recorded id = some r →
        claimsConflict (t.heap r).variant job.variant = true → t.Displaces r s.next := by
      intro id r hr hconf
      rw [step_variant hcases (hinv.refs.keyed id r hr).1] at hconf
      have hmem : r ∈ victims := by simpa using hdec.complete id r hr hconf
      exact ⟨_, .swapReady victims s.next, by rw [ht]; exact get_swap_committed .., hmem, rfl⟩
    rw [ht, recorded_committed] at hr hr'
    split_ifs at hr hr' with hid hid'
    · exact absurd (hid.trans hid'.symm) hne
    · obtain rfl := Option.some.inj hr
      rw [hnew, claimsConflict_comm] at hconf
      exact .inr (displaced hr' hconf)
    · obtain rfl := Option.some.inj hr'
      rw [hnew] at hconf
      exact .inl (displaced hr hconf)
    · exact old hr hr'
  | install hq hs => exact absurd hs (hno _ _ _ _ hq)

/-- Every step of the scheduler keeps the invariant. -/
theorem booked_step (hseen : answered (s, w) a = true) : Booked t (w.react s a t) where
  held := h.held_step hinv hst hno hstep hok
  pending := h.pending_step hinv hst hno hstep hok
  single := h.single_step hinv hstep
  unasked := h.unasked_step hinv hst hno hstep hok
  present := h.present_step hinv hst hno hstep
  begun := h.begun_step hinv hst hno hstep
  judged := h.judged_step hinv hst hno hstep hseen
  staying := h.staying_step hinv hstep
  apart := h.apart_step hinv hst hno hstep

end Step

/-! ## A move of the servers -/

/-- A move that does not give a server a model it did not have. -/
theorem Booked.settles (h : Booked s w) (hcommands : w'.commands.Sublist w.commands)
    (hvalue : ∀ server id, w.value server id = .unloaded → w'.value server id = .unloaded) :
    Booked s w' := by
  have hloads : ∀ id, w.loads id = false → w'.loads id = false := by
    intro id hnone
    by_contra hne
    obtain ⟨c, hc, hop, hid⟩ := World.loads_iff.1 (by simpa using hne)
    rw [World.loads_iff.2 ⟨c, hcommands.subset hc, hop, hid⟩] at hnone
    cases hnone
  refine ⟨?_, ?_, h.single.sublist hcommands, ?_, h.present, ?_, ?_, h.staying, h.apart⟩
  · intro server id hv
    exact h.held server id fun hnone => hv (hvalue server id hnone)
  · intro c hc hop
    obtain ⟨hv, hr⟩ := h.pending c (hcommands.subset hc) hop
    exact ⟨hvalue _ _ hv, hr⟩
  · intro i k r hi hun
    obtain ⟨hv, hnone⟩ := h.unasked i k r hi hun
    exact ⟨fun server => hvalue _ _ (hv server), hloads _ hnone⟩
  · intro i k r hi hr
    exact hloads _ (h.begun i k r hi hr)
  · intro p q seen untilTime reason hp hv r hr
    exact (h.judged p q seen untilTime reason hp hv r hr).imp_right (hloads _)

/-- A load that a server starts is no longer outstanding, and was the only one
    of its model. -/
theorem Booked.started (h : Booked s w) {c : Command} (hc : c ∈ w.commands) (hop : c.op = .load) :
    Booked s { w.put c.server c.id .loading with commands := w.commands.erase c } := by
  have hsub : (w.commands.erase c).Sublist w.commands := List.erase_sublist
  have honly : ∀ c' ∈ w.commands.erase c, c'.op = .load → c'.id ≠ c.id := by
    intro c' hc' hop' heq
    have hpair := (List.perm_cons_erase hc).pairwise h.single (by
      intro x y hxy hy hx
      exact (hxy hx hy).symm)
    exact (List.pairwise_cons.1 hpair).1 c' hc' hop hop' heq.symm
  have hother : ∀ id, w.loads id = false → id ≠ c.id := by
    rintro id hnone rfl
    rw [World.loads_iff.2 ⟨c, hc, hop, rfl⟩] at hnone
    cases hnone
  have hloads : ∀ id, w.loads id = false →
      World.loads { w.put c.server c.id .loading with commands := w.commands.erase c } id = false := by
    intro id hnone
    by_contra hne
    obtain ⟨c', hc', hop', hid⟩ := World.loads_iff.1 (by simpa using hne)
    rw [World.loads_iff.2 ⟨c', hsub.subset hc', hop', hid⟩] at hnone
    cases hnone
  refine ⟨?_, ?_, h.single.sublist hsub, ?_, h.present, ?_, ?_, h.staying, h.apart⟩
  · intro server id hv
    by_cases hat : server = c.server ∧ id = c.id
    · rw [hat.1, hat.2]
      exact (h.pending c hc hop).2
    · simp only [World.put_value, hat, if_false] at hv
      exact h.held server id hv
  · intro c' hc' hop'
    obtain ⟨hv, hr⟩ := h.pending c' (hsub.subset hc') hop'
    have hne := honly c' hc' hop'
    exact ⟨by simp [hne, hv], hr⟩
  · intro i k r hi hun
    obtain ⟨hv, hnone⟩ := h.unasked i k r hi hun
    have hne := hother _ hnone
    exact ⟨fun server => by simp [hne, hv], hloads _ hnone⟩
  · intro i k r hi hr
    exact hloads _ (h.begun i k r hi hr)
  · intro p q seen untilTime reason hp hv r hr
    exact (h.judged p q seen untilTime reason hp hv r hr).imp_right (hloads _)

/-- Every move of the servers keeps the invariant. -/
theorem booked_move (h : Booked s w) (hmove : w.move m = some w') : Booked s w' := by
  have hsub := (move_cases hmove).commands
  cases move_cases hmove with
  | start hc hop => exact h.started hc hop
  | complete hv =>
    refine h.settles hsub fun server id hnone => ?_
    rw [World.put_value, if_neg, hnone]
    rintro ⟨rfl, rfl⟩
    rw [hv] at hnone
    cases hnone
  | fail | drop =>
    refine h.settles hsub fun server id hnone => ?_
    simp [hnone]
  | refuse => exact h.settles hsub fun server id hnone => hnone

/-! ## Every run -/

/-- A survey without problems has read every server, and had no problem with
    what any of them reported. -/
theorem foldl_answers {now : ℚ} {answer : String → ServerAnswer} :
    ∀ (rest : List (String × String)) (found : Survey),
      (rest.foldl (surveyServer cfg now answer) found).problems = [] → found.problems = [] ∧
        ∀ server ∈ rest, ∃ props states, answer server.1 = .ok (props, states) ∧
          (reconcile (cfg.catalogue.own server.1) states now server.2).2 = [] := by
  intro rest
  induction rest with
  | nil => exact fun found h => ⟨h, fun server hmem => by cases hmem⟩
  | cons server rest ih =>
    intro found h
    obtain ⟨hnone, hrest⟩ := ih _ h
    unfold surveyServer at hnone
    split at hnone
    · simp [Survey.unavailable] at hnone
    · next props states heq =>
      obtain ⟨hfound, -, hrec⟩ := Survey.read_problems_eq_nil hnone
      refine ⟨hfound, List.forall_mem_cons.2 ⟨⟨props, states, heq, hrec⟩, hrest⟩⟩

/-- At first every model that a server has is in `loaded`. -/
theorem held_initial {earlier now : ℚ} {answer : String → ServerAnswer}
    (hfit : (survey cfg earlier answer).problems = []) (hw : w.Agrees cfg answer)
    {server id : String} (hv : w.value server id ≠ .unloaded) :
    ∃ r, (initial now (survey cfg earlier answer)).recorded id = some r ∧
      ((initial now (survey cfg earlier answer)).heap r).variant.backend = server := by
  have hcomplete := survey_complete cfg earlier answer
  have hconf : cfg.adapters.contains server = true := by
    by_contra hne
    exact hv (hw.nowhere server (by simpa using hne) id)
  obtain ⟨name, hname⟩ := Dict.contains_iff.1 hconf
  obtain ⟨-, hanswers⟩ := foldl_answers _ _ (List.append_eq_nil_iff.1 hfit).1
  obtain ⟨props, states, heq, hrec⟩ := hanswers _ (Dict.get_eq_some.1 hname)
  have hreading : (answer server).reading = some fun id => .ofState (states.get id) := by
    rw [heq]
    rfl
  rw [hw.reported server _ hconf hreading] at hv
  obtain ⟨state, hstate, hvalue⟩ := ofState_ne_unloaded.1 hv
  rw [reconcile_problems, List.append_eq_nil_iff, List.flatMap_eq_nil_iff] at hrec
  obtain ⟨⟨variant, hown⟩, -⟩ :=
    stateProblems_eq_nil (hrec.1 _ (Dict.get_eq_some.1 hstate)) hvalue
  obtain ⟨hknown, rfl⟩ := Catalogue.get_own.1 hown
  have hreach : variant.backend ∉ (survey cfg earlier answer).unreachable := by
    intro hmem
    exact hcomplete.reported (List.ne_nil_of_mem hmem) hfit
  obtain ⟨values, hvalues, hfound⟩ :=
    (survey_shows cfg earlier answer).complete id variant hknown (by simp) hreach
  rw [hreading] at hvalues
  obtain rfl := Option.some.inj hvalues
  obtain ⟨model, hm⟩ := hfound hv
  obtain ⟨r, hr, hheap⟩ := @initial_found _ id model now hm
  have hvariant := hcomplete.known id model hm
  rw [hknown] at hvariant
  exact ⟨r, hr, by rw [hheap, Option.some.inj hvariant]⟩

theorem booked_initial {earlier now : ℚ} {answer : String → ServerAnswer}
    (hfit : (survey cfg earlier answer).problems = []) (hw : w.Agrees cfg answer) :
    Booked (initial now (survey cfg earlier answer)) w := by
  have hcomplete := survey_complete cfg earlier answer
  have hloads : ∀ id, w.loads id = false := fun id => by simp [World.loads, hw.commands]
  have hnone : ∀ (i : ℕ) (k : Task),
      (initial now (survey cfg earlier answer)).tasks[i]? = some k → k.toUnload = [] ∧
        k.unasked = none := by
    intro i k hi
    obtain ⟨r, id, rfl, -⟩ := initial_tasks hi
    exact ⟨rfl, rfl⟩
  refine ⟨?_, ?_, ?_, ?_, ?_, ?_, ?_, ?_, ?_⟩
  · intro server id hv
    exact held_initial hfit hw hv
  · intro c hc
    rw [hw.commands] at hc
    cases hc
  · rw [hw.commands]
    exact .nil
  · intro i k r hi hun
    rw [(hnone i k hi).2] at hun
    cases hun
  · intro i k r hi hr
    rw [(hnone i k hi).1] at hr
    cases hr
  · intro i k r hi hr
    exact hloads _
  · intro p q seen untilTime reason hp hv
    rcases (initial_requests hp).2 with rfl | ⟨model, rest, rfl⟩ <;> cases hv
  · intro p q job asked rest hp hd
    rcases (initial_requests hp).2 with rfl | ⟨model, rest, rfl⟩ <;> cases hd
  · intro id id' r r' hr hr' hne hconf
    obtain ⟨model, hm, hheap⟩ := initial_recorded hr
    obtain ⟨model', hm', hheap'⟩ := initial_recorded hr'
    rw [hheap, hheap', hcomplete.fit hfit id id' model model' hm hm' hne] at hconf
    cases hconf

/-- The scheduler and its servers, started from a survey without problems. -/
def servedFit (cfg : Config) : System (State × World) (Act ⊕ Move) :=
  (scheduler cfg).under serving fun s w => Started cfg s w ∧ s.view.problems = []

theorem booked {x : State × World}
    (h : (servedFit cfg).Reach (fun x c => booking x c = true) x) : Booked x.1 x.2 := by
  refine System.Reach.environment ?_ ?_ ?_ h
  · rintro s w - ⟨⟨earlier, now, answer, -, rfl, hw⟩, hfit⟩
    rw [initial_problems] at hfit
    exact booked_initial hfit hw
  · intro s w a t hs hb hok hstep
    have hok : uninspected s a = true ∧ promised (s, w) a = true ∧ answered (s, w) a = true := by
      simpa [booking] using hok
    have hreach : (scheduler cfg).Reach (fun s a => uninspected s a = true) s :=
      hs.program fun x a hok => (Bool.and_eq_true_iff.1 hok).1
    obtain ⟨hun, hst⟩ := stored (fun _ _ hok => hok) hreach
    have hno : NoInstall cfg s a := fun p q variant found hq => hun.not_surveys hok.1 hq
    exact booked_step (inv hreach) hst hno hb hstep hok.2.1 hok.2.2
  · intro s w m w' _ hb _ hmove
    exact booked_move hb hmove

/-- A leaving victim and the model, not yet ready, of the one swap that is
    unloading the victim. -/
def State.Displacing (s : State) (victim model : Ref) : Prop :=
  (s.heap victim).leaving = true ∧ (s.heap model).ready = false ∧
    ∃ (i : ℕ) (k : Task), s.tasks[i]? = some k ∧ victim ∈ k.toUnload ∧ k.owns = some model ∧
      ∀ (j : ℕ) (k' : Task), s.tasks[j]? = some k' → victim ∈ k'.toUnload → j = i

theorem State.Displaces.displacing (hinv : Inv cfg s) {victim model : Ref}
    (h : s.Displaces victim model) : s.Displacing victim model := by
  obtain ⟨i, k, hi, hmem, ho⟩ := h
  have hv := Task.victims_of_toUnload hmem
  refine ⟨(hinv.victims.leaving i k victim hi hv).1, hinv.owners.unready i k model hi ho, i, k, hi,
    hmem, ho, ?_⟩
  intro j k' hj hmem'
  exact hinv.victims.unique j i k' k victim hj hi (Task.victims_of_toUnload hmem') hv

/-- In every run without a re-inspection from a survey without problems, if the
    servers keep their promises and `busy` learns the activity only of models they
    have: every model a server has is in `loaded`; two
    conflicting records are a leaving victim and the model, not yet ready, of the
    one swap that is unloading it; and while a swap awaits `load` every other
    catalogue model that conflicts with its model is unloaded on every server. -/
theorem never_double_booked {x : State × World}
    (h : (servedFit cfg).Reach (fun x c => booking x c = true) x) :
    (∀ server id, x.2.value server id ≠ .unloaded →
      ∃ r, x.1.recorded id = some r ∧ (x.1.heap r).variant.backend = server) ∧
    (∀ id id' r r', x.1.recorded id = some r → x.1.recorded id' = some r' → id ≠ id' →
      claimsConflict (x.1.heap r).variant (x.1.heap r').variant = true →
      x.1.Displacing r r' ∨ x.1.Displacing r' r) ∧
    ∀ (i : ℕ) (model : Ref), x.1.tasks[i]? = some (.swapLoad model) →
      ∀ id variant, cfg.catalogue.get id = some variant → id ≠ (x.1.heap model).variant.id →
        claimsConflict variant (x.1.heap model).variant = true →
        ∀ server, x.2.value server id = .unloaded := by
  have hb := booked h
  have hreach : (scheduler cfg).Reach (fun s a => uninspected s a = true) x.1 :=
    h.program fun x a hok => (Bool.and_eq_true_iff.1 hok).1
  have hinv := inv hreach
  obtain ⟨-, hst⟩ := stored (fun _ _ hok => hok) hreach
  refine ⟨hb.held, ?_, ?_⟩
  · intro id id' r r' hr hr' hne hconf
    exact (hb.apart id id' r r' hr hr' hne hconf).imp (·.displacing hinv) (·.displacing hinv)
  · intro i model hi id variant hv hne hconf server
    by_contra hheld
    obtain ⟨r, hr, -⟩ := hb.held server id hheld
    have hvariant := hinv.refs.stored hr
    rw [hv] at hvariant
    obtain rfl := Option.some.inj hvariant
    rcases hb.apart _ _ r model hr (hst.model i _ model hi rfl) hne hconf with
      ⟨j, k, hj, hmem, ho⟩ | ⟨j, k, hj, hmem, -⟩
    · -- its swap has no victims left
      obtain rfl := hinv.owners.unique i j _ k model hi hj rfl ho
      rw [hi] at hj
      obtain rfl := Option.some.inj hj
      cases hmem
    · have hready := (hinv.victims.leaving j k model hj (Task.victims_of_toUnload hmem)).2
      rw [hinv.owners.unready i _ model hi rfl] at hready
      cases hready

/-- A swap has unloaded both victims and loads its model; what it conflicts with is
    on no server. -/
theorem never_double_booked_pairedCards :
    ∃ x, (servedFit pairedCards).Reach (fun x c => booking x c = true) x ∧
      x.1.tasks[0]? = some (.swapLoad 2) ∧ ∀ server, x.2.value server "a--cuda0" = .unloaded := by
  have h0 : (servedFit pairedCards).init
      (initial 0 (survey pairedCards 0 bothLoaded), World.of pairedCards bothLoaded) :=
    ⟨⟨0, 0, bothLoaded, le_refl 0, rfl⟩, started_of .., by decide +kernel⟩
  obtain ⟨x, hx, hP⟩ := @System.exists_reach _ _ _ booking _ h0
    [.inl (.activity 0 (.ok idle)), .inl (.activity 0 (.ok idle)), .inl (.tick 20),
      .inl (.arrive "c--cuda01"), .inl (.resume 1), .inl (.resume 1), .inl (.resume 1),
      .inl (.resume 1), .inl (.activity 1 (.ok idle)), .inl (.resume 1),
      .inl (.activity 1 (.ok idle)), .inl (.resume 1), .inl (.run 0),
      .inr (.drop ⟨0, .unload, "llama", "a--cuda0"⟩), .inl (.call 0 (.ok ())),
      .inr (.drop ⟨0, .unload, "llama", "b--cuda1"⟩), .inl (.call 0 (.ok ()))]
    (fun x => x.1.tasks[0]? = some (.swapLoad 2) &&
      (decide ("a--cuda0" ≠ (x.1.heap 2).variant.id) &&
        claimsConflict (.claiming "llama" "a--cuda0" ["GPU0"]) (x.1.heap 2).variant))
    (by decide +kernel)
  simp only [Bool.and_eq_true, decide_eq_true_eq] at hP
  obtain ⟨hk, hne, hconf⟩ := hP
  exact ⟨x, hx, hk, (never_double_booked hx).2.2 0 2 hk "a--cuda0" _ rfl hne hconf⟩

/-- A request for m--cuda234 observes x--cuda2 while a swap unloads c--cuda03 and
    fails to unload d--cuda14. It then observes c--cuda03, which is not in `loaded`
    any more, and has it unloaded: its swap dies, and d--cuda14 stays a victim of
    nobody beside m--cuda234. -/
theorem answered_double_booked :
    ∃ x, (servedFit fiveCards).Reach (fun x c => commanded x c = true) x ∧
      x.1.recorded "d--cuda14" = some 2 ∧ x.1.recorded "m--cuda234" = some 4 ∧
      claimsConflict (x.1.heap 2).variant (x.1.heap 4).variant = true ∧
      ¬ x.1.Displacing 2 4 ∧ ¬ x.1.Displacing 4 2 := by
  have h0 : (servedFit fiveCards).init
      (initial 0 (survey fiveCards 0 threeLoaded), World.of fiveCards threeLoaded) :=
    ⟨⟨0, 0, threeLoaded, le_refl 0, rfl⟩, started_of .., by decide +kernel⟩
  obtain ⟨x, hx, hP⟩ := @System.exists_reach _ _ _ commanded _ h0
    [.inl (.activity 0 (.ok idle)), .inl (.activity 0 (.ok idle)), .inl (.activity 0 (.ok idle)),
      .inl (.arrive "n--cuda01"), .inl (.resume 1), .inl (.resume 1), .inl (.resume 1),
      .inl (.resume 1), .inl (.activity 1 (.ok idle)), .inl (.resume 1),
      .inl (.activity 1 (.ok idle)), .inl (.resume 1), .inl (.run 0),
      .inl (.arrive "m--cuda234"), .inl (.resume 2), .inl (.resume 2), .inl (.resume 2),
      .inl (.resume 2), .inr (.drop ⟨0, .unload, "llama", "c--cuda03"⟩), .inl (.call 0 (.ok ())),
      .inl (.call 0 (.error "timed out")), .inl (.activity 2 (.ok idle)), .inl (.resume 2),
      .inl (.activity 2 (.ok idle)), .inl (.resume 2), .inl (.activity 2 (.ok idle)),
      .inl (.resume 2), .inl (.run 1), .inr (.drop ⟨1, .unload, "llama", "x--cuda2"⟩),
      .inl (.call 1 (.ok ())), .inl (.call 1 (.ok ()))]
    (fun x => (x.1.recorded "d--cuda14" = some 2 && x.1.recorded "m--cuda234" = some 4) &&
      (claimsConflict (x.1.heap 2).variant (x.1.heap 4).variant &&
        x.1.tasks.all fun k => k.toUnload.isEmpty)) (by decide +kernel)
  simp only [Bool.and_eq_true, decide_eq_true_eq, List.all_eq_true, List.isEmpty_iff] at hP
  obtain ⟨⟨hd, hm⟩, hconf, hnone⟩ := hP
  have hnot : ∀ victim model, ¬ x.1.Displacing victim model := by
    rintro victim model ⟨-, -, i, k, hi, hmem, -⟩
    rw [hnone k (List.mem_of_getElem? hi)] at hmem
    cases hmem
  exact ⟨x, hx, hd, hm, hconf, hnot 2 4, hnot 4 2⟩

end ModelBroker
