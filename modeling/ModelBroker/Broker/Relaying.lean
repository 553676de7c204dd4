import ModelBroker.Broker.Mediation
import ModelBroker.Scheduler.Gentle
import ModelBroker.Servers.Exclusive

/-!
# Models of relayed responses

What holds for the model of a connection while its response is relayed, in every run of
the broker with any number of connections.

* `relay_undisturbed`: if re-inspections take nothing away, the record of the model stays
  in `loaded`, ready and sound, and no swap touches it.
* `scheduler_tracks`: the scheduler takes exactly the steps that the broker's steps say.
* `relay_exclusive`: with the servers, as long as they keep their promises, no server has
  a model that conflicts with the relayed one.
-/

namespace ModelBroker.Broker

open Python

variable {app : App} {codec : Codec} {x y : Server} {b : Action} {k : Connection}

/-- The connection's response is relayed, and its admission is not yet closed. -/
def Connection.relays (k : Connection) (model : String) : Prop :=
  ∃ payload backend upstream chat, k.phase = .proxying payload model backend upstream chat ∧
    .admission ∈ chat.resources

/-- Its request is admitted to a record of its model. -/
theorem Connection.Sound.admitted {s : State} {model : String} (h : k.Sound app codec s)
    (hrelays : k.relays model) :
    ∃ p r, k.asked = some p ∧ s.requests[p]? = some (.admitted r) ∧ r < s.next ∧
      (s.heap r).variant.id = model := by
  obtain ⟨payload, backend, upstream, chat, hphase, hmem⟩ := hrelays
  unfold Connection.Sound at h
  rw [hphase] at h
  obtain ⟨-, -, p, r, hp, hheld, hr, hid, -⟩ := h
  exact ⟨p, r, hp, hheld.1 hmem, hr, hid⟩

/-! ## With re-inspections -/

/-- In every run of the broker in which re-inspections take nothing from requests and
    tasks, as long as a connection's response is relayed: a record is stored in `loaded`
    under the model's id, is ready, has no error, is not leaving and counts an active
    request, and no task is loading it or has it as a victim. -/
theorem relay_undisturbed {c : ℕ} {model : String}
    (h : (system app codec).Reach (lifted app codec (gentle app.cfg)) x)
    (hc : x.connections[c]? = some k) (hrelays : k.relays model) :
    ∃ r, x.scheduler.recorded model = some r ∧ (x.scheduler.heap r).ready = true ∧
      (x.scheduler.heap r).error = none ∧ (x.scheduler.heap r).leaving = false ∧
      0 < (x.scheduler.heap r).active ∧
      ∀ (i : ℕ) (task : Task), x.scheduler.tasks[i]? = some task →
        r ∉ task.victims ∧ task.owns ≠ some r := by
  obtain ⟨p, r, -, hp, -, rfl⟩ := ((linked h).sound c k hc).admitted hrelays
  have hgentle := reach_scheduler h
  exact ⟨r, admitted_of_flow hgentle (flow_gentle (fun _ _ hok => hok) hgentle) hp⟩

/-- The error that a request has failed with. -/
def Request.failure? : Request → Option String
  | .finished (.loadFailed error) => some error
  | _ => none

theorem Request.failure?_eq_some {q : Request} {error : String} :
    Request.failure? q = some error ↔ q = .finished (.loadFailed error) := by
  unfold Request.failure?
  split
  · simp
  · next hne => exact iff_of_false (by simp) fun heq => hne _ heq

/-- The model of a response that is relayed. -/
def Phase.relayed? : Phase → Option String
  | proxying _ model _ _ chat => if .admission ∈ chat.resources then some model else none
  | _ => none

theorem Connection.relays_of_relayed? {model : String} (h : k.phase.relayed? = some model) :
    k.relays model := by
  unfold Phase.relayed? at h
  split at h
  · next payload model' backend upstream chat hphase =>
    split_ifs at h with hmem
    cases h
    exact ⟨payload, backend, upstream, chat, hphase, hmem⟩
  · cases h

/-- A test that a step merges its survey without harm. -/
def calmStep (app : App) (codec : Codec) (x : Server) (b : Action) : Bool :=
  (act? app codec x b).all (calmMerge app.cfg x.scheduler)

theorem gentle_of_calmStep (h : calmStep app codec x b = true) :
    lifted app codec (gentle app.cfg) x b := by
  intro a ha
  rw [calmStep, ha] at h
  exact gentle_of_calmMerge h

/-- The response of one client is relayed while the load of another's model fails with
    an unknown outcome, and a third has the router inspected. -/
def relayedBeside : List Action :=
  let chat := chatWith "test-key-for-vscode"
  [.schedule (.activity 0 (.ok idle)), .accept (chat [97]), .handle 0, .schedule (.resume 1),
    .schedule (.resume 1), .respond 0 ProxiedChat.smallReply, .proxy 0 .opened, .accept (chat [98]),
    .handle 1, .schedule (.resume 2), .schedule (.resume 2), .schedule (.resume 2),
    .schedule (.resume 2), .schedule (.run 0), .schedule (.call 0 (.error "timed out")),
    .proxy 0 .sent, .schedule (.taskStates 0 (.error "timed out")), .schedule (.resume 2),
    .refuse 1, .accept (chat [98]), .handle 2, .schedule (.resume 3), .schedule (.resume 3),
    .schedule (.props 3 (.ok ⟨0, false, none⟩)),
    .schedule (.states 3 (.ok (.ofList [("a--cuda0", { value := "loaded" })])))]

theorem relay_undisturbed_keyedBroker :
    ∃ x k r, (system keyedBroker namingCodec).Reach
        (lifted keyedBroker namingCodec (gentle pairedCards)) x ∧
      x.connections[0]? = some k ∧ k.relays "a--cuda0" ∧
      x.scheduler.requests[2]? = some (.finished (.loadFailed "timed out")) ∧
      x.scheduler.view.problems = [] ∧ x.scheduler.recorded "a--cuda0" = some r ∧
      (x.scheduler.heap r).ready = true := by
  obtain ⟨x, hx, hP⟩ := @System.exists_reach _ _ (system keyedBroker namingCodec)
    (calmStep keyedBroker namingCodec) (booting keyedBroker (reporting "loaded")) (init_booting ..)
    relayedBeside
    (fun x => (x.connections[0]?.any fun (k : Connection) =>
        decide (k.phase.relayed? = some "a--cuda0")) &&
      (x.scheduler.requests[2]?.any fun q => Request.failure? q = some "timed out") &&
      x.scheduler.view.problems.isEmpty) (by decide +kernel)
  simp only [Bool.and_eq_true, Option.any_eq_true, decide_eq_true_eq, List.isEmpty_iff] at hP
  obtain ⟨⟨⟨k, hk, hrelayed⟩, q, hq, hfailed⟩, hproblems⟩ := hP
  have hgentle := hx.mono fun _ _ => gentle_of_calmStep
  have hrelays := Connection.relays_of_relayed? hrelayed
  obtain ⟨r, hrec, hready, -⟩ := relay_undisturbed hgentle hk hrelays
  rw [Request.failure?_eq_some] at hfailed
  exact ⟨x, k, r, hgentle, hk, hrelays, hfailed ▸ hq, hproblems, hrec, hready⟩

/-! ## With the servers -/

/-- The scheduler takes exactly the steps that those of the broker say. -/
theorem scheduler_tracks (hlinked : Linked app codec x) (h : Step app codec x b y) :
    (scheduler app.cfg).Tracks Server.scheduler (act? app codec) x b y := by
  cases h with
  | accept | respond | refuse => exact .inr ⟨rfl, rfl⟩
  | answer hc hhandle | raise hc hhandle => exact .inr ⟨by simp [act?, hc, hhandle], rfl⟩
  | drop hc => exact .inr ⟨by simp [act?, hc], rfl⟩
  | @ask c _ _ _ model _ hc hhandle hs => exact .inl ⟨.arrive model, by simp [act?, hc, hhandle], hs⟩
  | @cancel c p _ _ _ _ hc hp hs => exact .inl ⟨.cancel p, by simp [act?, hc], hs⟩
  | schedule ha hs => exact .inl ⟨_, rfl, hs⟩
  | @proxy c p a request payload model backend upstream chat chat' hc hchat =>
    cases ProxiedChat.step_cases hchat with
    | refuse | respond | sent | failed | chunk | last | cancel | other | complete | disconnect
    | unwatch | leave | done => exact .inr ⟨rfl, rfl⟩
    | @close resource rest hphase hresources =>
      cases resource with
      | response =>
        exact .inr ⟨by simp [act?, hc, hresources], by simp [ProxiedChat.admission, hresources]⟩
      | admission =>
        obtain ⟨-, -, p', r, hp', hheld, -⟩ := hlinked.sound c _ hc
        obtain rfl := Option.some.inj hp'
        have hadmitted := hheld.1 (by simp [hresources])
        have hs := @ProxiedChat.resume_admitted app.cfg _ _ _ hadmitted
        refine .inl ⟨.resume p, by simp [act?, hc, hresources], ?_⟩
        simp only [Server.put_scheduler, ProxiedChat.admission, hresources, hs, Option.getD_some]
        exact hs

/-- The broker and its servers, started from a survey without problems. -/
def servedBroker (app : App) (codec : Codec) : System (Server × World) (Action ⊕ Move) :=
  (system app codec).under (serving.pull Server.scheduler (act? app codec)) fun x w =>
    Started app.cfg x.scheduler w ∧ x.scheduler.view.problems = []

/-- No re-inspection starts, and the servers keep their promises. -/
def bookingBroker (app : App) (codec : Codec) (x : Server × World) (c : Action ⊕ Move) : Prop :=
  ∀ b, c = .inl b → ∀ a, act? app codec x.1 b = some a →
    booking (x.1.scheduler, x.2) (.inl a) = true

/-- The scheduler and the servers run as they do without the connections. -/
theorem reach_served {x : Server × World}
    (h : (servedBroker app codec).Reach (bookingBroker app codec) x) :
    (servedFit app.cfg).Reach (fun x c => booking x c = true) (x.1.scheduler, x.2) := by
  refine System.Reach.pull ?_ ?_ ?_ ?_ h
  · intro x hinit
    exact hinit.1
  · intro x b y hx hstep
    exact scheduler_tracks (linked hx) (step_cases hstep)
  · intro x w b a hok ha
    exact hok b rfl a ha
  · intro x w m _
    rfl

/-- In every run of the broker with its servers without a re-inspection, from a survey
    without problems, if the servers keep their promises (`promised`: an `unload` that
    returns has unloaded the model, and `unloaded` reported after a failed load is final;
    `answered`: `busy` learns the activity only of models the servers have) and change only
    by the broker's commands: while a connection's response is relayed, no server has
    another model that conflicts with its model, and no response of such a model is
    relayed. -/
theorem relay_exclusive {x : Server × World} {c : ℕ} {model : String}
    (h : (servedBroker app codec).Reach (bookingBroker app codec) x)
    (hc : x.1.connections[c]? = some k) (hrelays : k.relays model) :
    ∃ variant, app.cfg.catalogue.get model = some variant ∧
      ∀ id other, app.cfg.catalogue.get id = some other → id ≠ model →
        claimsConflict other variant = true →
        (∀ server, x.2.value server id = .unloaded) ∧
          ∀ (c' : ℕ) (k' : Connection), x.1.connections[c']? = some k' → ¬ k'.relays id := by
  have hserved := reach_served h
  have hbooked := booked hserved
  have hreach : (scheduler app.cfg).Reach (fun s a => uninspected s a = true) x.1.scheduler :=
    hserved.program fun x a hok => (Bool.and_eq_true_iff.1 hok).1
  have hfree : (system app codec).Free x.1 := h.program fun _ _ _ => trivial
  have hlinked := linked hfree
  have hinv := inv hreach
  have relies : ∀ {p : ℕ} {r : Ref}, x.1.scheduler.requests[p]? = some (.admitted r) → _ :=
    fun hp => admitted_of_flow hreach (flow (fun _ _ hok => hok) hreach) hp
  obtain ⟨p, r, -, hp, hr, rfl⟩ := (hlinked.sound c k hc).admitted hrelays
  obtain ⟨hrec, -, -, -, -, htasks⟩ := relies hp
  refine ⟨_, hinv.refs.known r hr, ?_⟩
  intro id other hother hne hconf
  -- a stored record of the other model would be a victim of the relayed one, or the reverse
  have absent : ∀ r', x.1.scheduler.recorded id ≠ some r' := by
    intro r' hrec'
    have hvariant := hinv.refs.stored hrec'
    rw [hother] at hvariant
    obtain rfl := Option.some.inj hvariant
    rcases hbooked.apart _ _ r' r hrec' hrec hne hconf with ⟨i, task, hi, hmem, ho⟩ |
      ⟨i, task, hi, hmem, ho⟩
    · exact (htasks i task hi).2 ho
    · exact (htasks i task hi).1 (Task.victims_of_toUnload hmem)
  refine ⟨fun server => ?_, fun c' k' hc' hrelays' => ?_⟩
  · by_contra hheld
    obtain ⟨r', hrec', -⟩ := hbooked.held server id hheld
    exact absent r' hrec'
  · obtain ⟨p', r', -, hp', -, rfl⟩ := (hlinked.sound c' k' hc').admitted hrelays'
    exact absent r' (relies hp').1

/-- A test that no re-inspection starts and the servers keep their promises. -/
def bookingStep (app : App) (codec : Codec) (x : Server × World) (c : Action ⊕ Move) : Bool :=
  c.elim (fun b => (act? app codec x.1 b).all fun a => booking (x.1.scheduler, x.2) (.inl a))
    fun _ => true

theorem bookingBroker_of_step {x : Server × World} {c : Action ⊕ Move}
    (h : bookingStep app codec x c = true) : bookingBroker app codec x c := by
  rintro b rfl a ha
  simp only [bookingStep, Sum.elim_inl, ha, Option.all_some] at h
  exact h

/-- The models of the single cards make room for the one of both, whose response is
    relayed. -/
def relayedAlone : List (Action ⊕ Move) :=
  [.inl (.schedule (.activity 0 (.ok idle))), .inl (.schedule (.activity 0 (.ok idle))),
    .inl (.schedule (.tick 20)), .inl (.accept (chatWith "test-key-for-vscode" [99])),
    .inl (.handle 0), .inl (.schedule (.resume 1)), .inl (.schedule (.resume 1)),
    .inl (.schedule (.resume 1)), .inl (.schedule (.resume 1)),
    .inl (.schedule (.activity 1 (.ok idle))), .inl (.schedule (.resume 1)),
    .inl (.schedule (.activity 1 (.ok idle))), .inl (.schedule (.resume 1)),
    .inl (.schedule (.run 0)), .inr (.drop ⟨0, .unload, "llama", "a--cuda0"⟩),
    .inl (.schedule (.call 0 (.ok ()))), .inr (.drop ⟨0, .unload, "llama", "b--cuda1"⟩),
    .inl (.schedule (.call 0 (.ok ()))), .inr (.start ⟨0, .load, "llama", "c--cuda01"⟩),
    .inr (.complete "llama" "c--cuda01"), .inl (.schedule (.call 0 (.ok ()))),
    .inl (.schedule (.taskActivity 0 (.ok idle))), .inl (.schedule (.resume 1)),
    .inl (.respond 0 ProxiedChat.smallReply), .inl (.proxy 0 .opened), .inl (.proxy 0 .sent)]

theorem relay_exclusive_keyedBroker :
    ∃ x k, (servedBroker keyedBroker namingCodec).Reach (bookingBroker keyedBroker namingCodec) x ∧
      x.1.connections[0]? = some k ∧ k.relays "c--cuda01" ∧
      x.2.value "llama" "c--cuda01" = .loaded ∧ ∀ server, x.2.value server "a--cuda0" = .unloaded := by
  have h0 : (servedBroker keyedBroker namingCodec).init
      (booting keyedBroker bothLoaded, World.of pairedCards bothLoaded) :=
    ⟨init_booting .., started_of .., by decide +kernel⟩
  obtain ⟨x, hx, hP⟩ := @System.exists_reach _ _ _ (bookingStep keyedBroker namingCodec) _ h0
    relayedAlone
    (fun x => (x.1.connections[0]?.any fun (k : Connection) =>
        decide (k.phase.relayed? = some "c--cuda01")) &&
      decide (x.2.value "llama" "c--cuda01" = .loaded)) (by decide +kernel)
  simp only [Bool.and_eq_true, Option.any_eq_true, decide_eq_true_eq] at hP
  obtain ⟨⟨k, hk, hrelayed⟩, hloaded⟩ := hP
  have hbooking := hx.mono fun _ _ => bookingBroker_of_step
  have hrelays := Connection.relays_of_relayed? hrelayed
  obtain ⟨variant, hvariant, hothers⟩ := relay_exclusive hbooking hk hrelays
  have hget : pairedCards.catalogue.get "c--cuda01" =
      some (.claiming "llama" "c--cuda01" ["GPU0", "GPU1"]) := rfl
  obtain rfl := Option.some.inj (hvariant.symm.trans hget)
  have halone := (hothers "a--cuda0" (.claiming "llama" "a--cuda0" ["GPU0"]) rfl (by decide)
    (by decide)).1
  exact ⟨x, k, hbooking, hk, hrelays, hloaded, halone⟩

end ModelBroker.Broker
