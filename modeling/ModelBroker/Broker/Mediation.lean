import ModelBroker.Broker.Connections

/-!
# Who reaches the scheduler, and what they are told

In every run of the broker, for any number of connections and whatever the servers
answer:

* `mediated`: the scheduler works for accepted requests only. Every call of `admit` is
  that of one connection, with a valid key if there are keys, for the model that its body
  names; every swap is for a model that such a connection names; and a request that is
  not accepted is answered with 401 and nothing else.
* `chat_answered`: the status of a chat request says what became of it, and a chat
  request that has reached the scheduler fails with an exception only if models are
  protected for ever.
-/

namespace ModelBroker.Broker

open Python Auth
open ProxiedChat (Upstream)

variable {app : App} {codec : Codec} {x y : Server} {b : Action} {s : State} {k : Connection}
  {p : ℕ}

/-! ## Calls of `admit` -/

/-- The call of a connection is about the model its body names. -/
theorem Connection.Sound.call (hrefs : Refs app.cfg s) (h : k.Sound app codec s)
    (hp : k.asked = some p) :
    ∃ payload model q, k.request.Asks app codec payload model ∧ s.requests[p]? = some q ∧
      q.About app.cfg s model := by
  unfold Connection.Sound at h
  split at h
  · rw [h] at hp
    cases hp
  · obtain ⟨hasks, p', q, hp', hq, habout, -⟩ := h
    obtain rfl : p' = p := Option.some.inj (hp'.symm.trans hp)
    exact ⟨_, _, q, hasks, hq, habout⟩
  · next payload model backend upstream chat hphase =>
    obtain ⟨hasks, -, p', r, hp', hheld, hr, hid, -⟩ := h
    obtain rfl : p' = p := Option.some.inj (hp'.symm.trans hp)
    by_cases hmem : .admission ∈ chat.resources
    · exact ⟨payload, model, _, hasks, hheld.1 hmem, hid⟩
    · refine ⟨payload, model, _, hasks, hheld.2 hmem, ?_⟩
      show (app.cfg.catalogue.get model).isSome
      rw [← hid, hrefs.known r hr]
      rfl
  · rcases h with ⟨hnone, -⟩ | ⟨payload, model, p', outcome, hasks, hp', hq, hfits, -⟩
    · rw [hnone] at hp
      cases hp
    · obtain rfl : p' = p := Option.some.inj (hp'.symm.trans hp)
      exact ⟨payload, model, _, hasks, hq, hfits⟩
  · rcases h with ⟨hnone, -⟩ | ⟨payload, model, p', hasks, hp', hq, hknown⟩
    · rw [hnone] at hp
      cases hp
    · obtain rfl : p' = p := Option.some.inj (hp'.symm.trans hp)
      exact ⟨payload, model, _, hasks, hq, hknown⟩
  · obtain ⟨hq, payload, model, hasks⟩ := h p hp
    exact ⟨payload, model, _, hasks, hq, trivial⟩

/-- A connection stays, with its request. -/
theorem request_kept (h : Step app codec x b y) {c : ℕ} (hc : x.connections[c]? = some k) :
    ∃ k', y.connections[c]? = some k' ∧ k'.request = k.request := by
  have moved : ∀ {c' : ℕ} {k₀ k₁ : Connection}, x.connections[c']? = some k₀ →
      y.connections = x.connections.set c' k₁ → k₁.request = k₀.request →
      ∃ k', y.connections[c]? = some k' ∧ k'.request = k.request := by
    intro c' k₀ k₁ hc' hy hrequest
    rw [hy]
    by_cases heq : c = c'
    · subst heq
      rw [hc] at hc'
      obtain rfl := Option.some.inj hc'
      exact ⟨k₁, Table.get_set_self hc, hrequest⟩
    · exact ⟨k, (Table.get_set hc').2 (.inr ⟨heq, hc⟩), rfl⟩
  cases h with
  | accept => exact ⟨k, Table.get_of_append hc, rfl⟩
  | answer hc' | raise hc' | ask hc' | respond hc' | refuse hc' | drop hc' | cancel hc' | proxy hc' =>
    exact moved hc' rfl rfl
  | schedule => exact ⟨k, hc, rfl⟩

/-- Some connection asks for this model. -/
def Server.Asked (app : App) (codec : Codec) (x : Server) (model : String) : Prop :=
  ∃ (c : ℕ) (k : Connection) (payload : Json), x.connections[c]? = some k ∧
    k.request.Asks app codec payload model

theorem Server.Asked.step {model : String} (hstep : Step app codec x b y)
    (h : x.Asked app codec model) : y.Asked app codec model := by
  obtain ⟨c, k, payload, hc, hasks⟩ := h
  obtain ⟨k', hc', hrequest⟩ := request_kept hstep hc
  exact ⟨c, k', payload, hc', hrequest ▸ hasks⟩

/-- Swaps are for models that connections ask for. -/
def SwapsAsked (app : App) (codec : Codec) (x : Server) : Prop :=
  ∀ (i : ℕ) (k : Task) (r : Ref), x.scheduler.tasks[i]? = some k → k.swaps = some r →
    x.Asked app codec (x.scheduler.heap r).variant.id

/-- A decision is made for a connection. -/
theorem Linked.asked_of_decision (hlinked : Linked app codec x)
    (hfree : (scheduler app.cfg).Free x.scheduler) {job : Job} {victims : List Ref}
    (hd : x.scheduler.decision p = some (job, victims)) : x.Asked app codec job.variant.id := by
  obtain ⟨look, hq, -⟩ := decision_eq_some.1 hd
  have hpos : 0 < p := by
    refine Nat.pos_of_ne_zero ?_
    rintro rfl
    rcases first_start hfree hq with hstart | ⟨outcome, heq⟩
    · cases hstart
    · cases heq
  obtain ⟨c, k, hc, hp⟩ := hlinked.called p hpos (Table.lt_length hq)
  obtain ⟨payload, model, q, hasks, hq', habout⟩ :=
    (hlinked.sound c k hc).call (inv hfree).refs hp
  rw [hq] at hq'
  obtain rfl := Option.some.inj hq'
  have hid : job.variant.id = model := (Request.about_iff rfl).1 habout
  exact ⟨c, k, payload, hc, hid ▸ hasks⟩

theorem swapsAsked_step (hlinked : Linked app codec x)
    (hfree : (scheduler app.cfg).Free x.scheduler) (h : SwapsAsked app codec x)
    (hstep : Step app codec x b y) : SwapsAsked app codec y := by
  intro i k r hi hk
  rcases scheduler_step hstep with hsame | ⟨a, -, hs⟩
  · rw [hsame] at hi ⊢
    exact (h i k r hi hk).step hstep
  · have hs := ModelBroker.step_cases hs
    rcases swaps_step hs hi hk with ⟨i', k', hi', hk'⟩ | ⟨p, job, victims, hd, ht, rfl⟩
    · have hr : r < x.scheduler.next := (inv hfree).refs.owned_lt hi' (Task.owns_of_swaps hk')
      rw [step_variant hs hr]
      exact (h i' k' r hi' hk').step hstep
    · rw [ht]
      simpa [committed, newModel] using (hlinked.asked_of_decision hfree hd).step hstep

theorem swapsAsked {ok : Server → Action → Prop} (h : (system app codec).Reach ok x) :
    SwapsAsked app codec x := by
  refine h.invariant ?_ ?_
  · rintro x ⟨⟨earlier, now, answer, -, hscheduler⟩, -⟩ i k r hi hk
    rw [hscheduler] at hi
    obtain ⟨r', id, rfl, -⟩ := initial_tasks hi
    cases hk
  · intro x b y hx hasked _ hstep
    exact swapsAsked_step (linked hx) (free_scheduler hx) hasked (step_cases hstep)

/-! ## Requests that are not accepted -/

/-- The handler never sees a request that is not accepted. -/
theorem handle_refused {request : HttpRequest} (hkey : request.endpoint.needsKey = true)
    (hrefused : app.accepts request = false) :
    handle app codec s request = .answered unauthenticated := by
  simp [handle, hkey, hrefused]

theorem Connection.Sound.refused (h : k.Sound app codec s)
    (hkey : k.request.endpoint.needsKey = true) (hrefused : app.accepts k.request = false) :
    k.asked = none ∧
      (k.phase = .received ∨ k.phase = .cancelled ∨ k.phase = .answered unauthenticated) := by
  have hnot : ∀ {payload : Json} {model : String}, ¬ k.request.Asks app codec payload model := by
    intro payload model hasks
    rw [hasks.1] at hrefused
    cases hrefused
  unfold Connection.Sound at h
  split at h
  · next hphase => exact ⟨h, .inl hphase⟩
  · exact absurd h.1 hnot
  · exact absurd h.1 hnot
  · next response hphase =>
    rcases h with ⟨hnone, s', -, hhandle⟩ | ⟨payload, model, p, outcome, hasks, -⟩
    · rw [handle_refused hkey hrefused] at hhandle
      exact ⟨hnone, .inr (.inr (hphase.trans (Handled.answered.inj hhandle ▸ rfl)))⟩
    · exact absurd hasks hnot
  · rcases h with ⟨-, s', hhandle⟩ | ⟨payload, model, p, hasks, -⟩
    · rw [handle_refused hkey hrefused] at hhandle
      cases hhandle
    · exact absurd hasks hnot
  · next hphase =>
    refine ⟨?_, .inr (.inl hphase)⟩
    by_contra hsome
    obtain ⟨p, hp⟩ := Option.ne_none_iff_exists'.1 hsome
    obtain ⟨-, payload, model, hasks⟩ := h p hp
    exact hnot hasks

/-- The scheduler works for accepted requests only: every call of `admit` is that of
    exactly one connection, which is accepted and whose body names the model; every swap
    is for a model that an accepted body names; and a request that is not accepted never
    calls the scheduler, and is never answered but with 401. -/
theorem mediated (h : (system app codec).Free x) :
    (∀ p, 0 < p → p < x.scheduler.requests.length →
      ∃ (c : ℕ) (k : Connection) (payload : Json) (model : String) (q : Request),
        x.connections[c]? = some k ∧ k.asked = some p ∧
        (∀ (c' : ℕ) (k' : Connection), x.connections[c']? = some k' → k'.asked = some p → c' = c) ∧
        k.request.Asks app codec payload model ∧ x.scheduler.requests[p]? = some q ∧
        q.About app.cfg x.scheduler model) ∧
    (∀ (i : ℕ) (k : Task) (r : Ref), x.scheduler.tasks[i]? = some k → k.swaps = some r →
      x.Asked app codec (x.scheduler.heap r).variant.id) ∧
    ∀ (c : ℕ) (k : Connection), x.connections[c]? = some k →
      k.request.endpoint.needsKey = true → app.accepts k.request = false →
      k.asked = none ∧
        (k.phase = .received ∨ k.phase = .cancelled ∨ k.phase = .answered unauthenticated) := by
  have hlinked := linked h
  refine ⟨fun p hp hlt => ?_, swapsAsked h, fun c k hc => (hlinked.sound c k hc).refused⟩
  obtain ⟨c, k, hc, hk⟩ := hlinked.called p hp hlt
  obtain ⟨payload, model, q, hasks, hq, habout⟩ :=
    (hlinked.sound c k hc).call (inv (free_scheduler h)).refs hk
  refine ⟨c, k, payload, model, q, hc, hk, fun c' k' hc' hk' => ?_, hasks, hq, habout⟩
  exact hlinked.own c' c k' k p hc' hc hk' hk

/-- The body of a chat request. -/
def Endpoint.body? : Endpoint → Option (List UInt8)
  | chatCompletions body => some body
  | _ => none

theorem Endpoint.body?_eq_some {endpoint : Endpoint} {body : List UInt8} :
    endpoint.body? = some body ↔ endpoint = .chatCompletions body := by
  cases endpoint <;> simp [Endpoint.body?]

/-- A broker with two clients, for the models of two cards. -/
def keyedBroker : App where
  cfg := pairedCards
  apiKeys := (parseApiKeys twoClients).toOption
  started := 0

/-- A codec that knows three bodies. -/
def namingCodec : Codec where
  dumps _ := []
  loads body :=
    if body = [97] then .ok (.obj [("model", .str "a--cuda0")])
    else if body = [98] then .ok (.obj [("model", .str "b--cuda1")])
    else if body = [99] then .ok (.obj [("model", .str "c--cuda01")])
    else .error .json

/-- The broker once its scheduler is made. -/
def booting (app : App) (answer : String → ServerAnswer) : Server where
  scheduler := initial 0 (survey app.cfg 0 answer)

theorem init_booting (app : App) (codec : Codec) (answer : String → ServerAnswer) :
    (system app codec).init (booting app answer) :=
  ⟨⟨0, 0, answer, le_refl 0, rfl⟩, rfl⟩

/-- A chat request with this key. -/
def chatWith (key : String) (body : List UInt8) : HttpRequest where
  authorization := some ("Bearer " ++ key)
  endpoint := .chatCompletions body

/-- The status of a connection that is answered without a model's server. -/
def Phase.status? : Phase → Option ℕ
  | answered response => some response.status
  | _ => none

theorem Phase.status?_eq_some {phase : Phase} {status : ℕ} :
    phase.status? = some status ↔ ∃ response, phase = .answered response ∧ response.status = status := by
  cases phase <;> simp [Phase.status?]

/-- A client asks for the model of both cards, and another has the wrong key. The model
    is placed. -/
def placing : List Action :=
  [.schedule (.activity 0 (.ok idle)), .schedule (.activity 0 (.ok idle)), .schedule (.tick 20),
    .accept (chatWith "test-key-for-vscode" [99]), .accept (chatWith "test-key" [97]), .handle 0,
    .handle 1, .schedule (.resume 1), .schedule (.resume 1), .schedule (.resume 1),
    .schedule (.resume 1), .schedule (.activity 1 (.ok idle)), .schedule (.resume 1),
    .schedule (.activity 1 (.ok idle)), .schedule (.resume 1), .schedule (.run 0)]

/-- The swap unloads for the first of them, and the other is refused. -/
theorem mediated_keyedBroker :
    ∃ x k, (system keyedBroker namingCodec).Free x ∧
      x.scheduler.tasks[0]? = some (.swapUnload [] 0 [1] 2) ∧
      x.Asked keyedBroker namingCodec "c--cuda01" ∧ x.connections[1]? = some k ∧
      k.phase = .answered unauthenticated := by
  obtain ⟨x, hx, hP⟩ := @System.exists_reach _ _ (system keyedBroker namingCodec)
    (fun _ _ => true) (booting keyedBroker bothLoaded) (init_booting ..) placing
    (fun x => decide (x.scheduler.tasks[0]? = some (Task.swapUnload [] 0 [1] 2)) &&
      decide ((x.scheduler.heap 2).variant.id = "c--cuda01") &&
      x.connections[1]?.any fun (k : Connection) => k.request.endpoint.needsKey &&
        !keyedBroker.accepts k.request && decide (k.phase.status? = some 401)) (by decide +kernel)
  simp only [Bool.and_eq_true, decide_eq_true_eq, Option.any_eq_true] at hP
  obtain ⟨⟨htask, hid⟩, k, hk, hpart, hstatus⟩ := hP
  rw [Bool.not_eq_true'] at hpart
  obtain ⟨response, hphase, -⟩ := Phase.status?_eq_some.1 hstatus
  obtain ⟨-, hasked, hrefused⟩ := mediated hx.free
  refine ⟨x, k, hx.free, htask, hid ▸ hasked 0 _ 2 htask rfl, hk, ?_⟩
  rcases (hrefused 1 k hk hpart.1 hpart.2).2 with heq | heq | heq
  · rw [heq] at hphase
    cases hphase
  · rw [heq] at hphase
    cases hphase
  · exact heq

/-! ## What a chat request is told -/

/-- A body names one model at most. -/
theorem Names.unique {body : List UInt8} {payload payload' : Json} {model model' : String}
    (h : Names codec body payload model) (h' : Names codec body payload' model') :
    payload = payload' ∧ model = model' := by
  rw [← chatModel_eq_model] at h h'
  rw [h] at h'
  cases h'
  exact ⟨rfl, rfl⟩

theorem chatModel_answer {body : List UInt8} {response : Response}
    (h : chatModel codec body = .answer response) :
    response.status = 400 ∧ response.headers = [] ∧
      ∀ payload model, ¬ Names codec body payload model := by
  have hnames : ∀ payload model, ¬ Names codec body payload model := by
    intro payload model hnames
    rw [← chatModel_eq_model, h] at hnames
    cases hnames
  unfold chatModel at h
  split at h
  · split_ifs at h
    cases h
    exact ⟨rfl, rfl, hnames⟩
  · split at h
    · split_ifs at h
      cases h
      exact ⟨rfl, rfl, hnames⟩
    · cases h
      exact ⟨rfl, rfl, hnames⟩

theorem chatModel_raises {body : List UInt8} (h : chatModel codec body = .raises) :
    ∃ e, codec.loads body = .error e ∧ e.isValueError = false := by
  unfold chatModel at h
  split at h
  · next e he =>
    split_ifs at h with hvalue
    exact ⟨e, he, by simpa using hvalue⟩
  · split at h
    · split_ifs at h
    · cases h

/-- An accepted chat request is handled by its body. -/
theorem handle_chat {request : HttpRequest} {body : List UInt8}
    (hbody : request.endpoint = .chatCompletions body) (haccepts : app.accepts request = true) :
    handle app codec s request =
      match chatModel codec body with
      | .model payload model => .admitting payload model
      | .answer response => .answered response
      | .raises => .raised := by
  cases hmodel : chatModel codec body <;> simp [handle, hbody, haccepts, hmodel]

/-- The ways in which a chat request is answered without a model's server. -/
inductive ChatAnswer (app : App) (codec : Codec) (s : State) (request : HttpRequest)
    (body : List UInt8) (response : Response) : Prop
  | refused (hrefused : app.accepts request = false) (h : response = unauthenticated)
  | invalid (haccepts : app.accepts request = true)
      (hnames : ∀ payload model, ¬ Names codec body payload model) (hstatus : response.status = 400)
      (hheaders : response.headers = [])
  | failed {payload : Json} {model : String} {outcome : Outcome}
      (haccepts : app.accepts request = true) (hnames : Names codec body payload model)
      (hfits : outcome.Fits app.cfg s.heap s.next model) (h : refusal model outcome = some response)

theorem Connection.Sound.answer {body : List UInt8} {response : Response} (h : k.Sound app codec s)
    (hbody : k.request.endpoint = .chatCompletions body) (hphase : k.phase = .answered response) :
    ChatAnswer app codec s k.request body response := by
  unfold Connection.Sound at h
  rw [hphase] at h
  rcases h with ⟨-, s', -, hhandle⟩ | ⟨payload, model, p, outcome, hasks, -, -, hfits, hrefusal⟩
  · cases haccepts : app.accepts k.request with
    | false =>
      rw [handle_refused (by rw [hbody]; rfl) haccepts] at hhandle
      exact .refused haccepts (Handled.answered.inj hhandle).symm
    | true =>
      rw [handle_chat hbody haccepts] at hhandle
      split at hhandle
      · cases hhandle
      · next hanswer =>
        cases hhandle
        obtain ⟨hstatus, hheaders, hnames⟩ := chatModel_answer hanswer
        exact .invalid haccepts hnames hstatus hheaders
      · cases hhandle
  · obtain ⟨haccepts, body', hbody', hnames⟩ := hasks
    rw [hbody] at hbody'
    cases hbody'
    exact .failed haccepts hnames hfits hrefusal

/-- What a refusal says of the scheduler's outcome. -/
theorem refusal_status {model : String} {outcome : Outcome} {response : Response} {next : Ref}
    {heap : Ref → LoadedModel} (hfits : outcome.Fits app.cfg heap next model)
    (h : refusal model outcome = some response) :
    (response.status = 404 ∧ app.cfg.catalogue.get model = none ∧ response = modelNotFound model) ∨
    ((app.cfg.catalogue.get model).isSome ∧
      ((response.status = 502 ∧ response.headers = [] ∧ ∃ r error, r < next ∧
          (heap r).variant.id = model ∧ (heap r).error = some error ∧
          response = openaiError 502 error "model_load_failed" "server_error" none []) ∨
        (response.status = 503 ∧ (response.headers = [] ∨
          ∃ retryAfter : ℤ, 1 ≤ retryAfter ∧
            response.headers = [("Retry-After", toString retryAfter)])))) := by
  cases outcome with
  | unknownModel asked =>
    cases h
    exact .inl ⟨rfl, hfits.2, rfl⟩
  | resourceBusy reason retryAfter =>
    cases h
    exact .inr ⟨hfits.1, .inr ⟨rfl, .inr ⟨retryAfter, hfits.2, rfl⟩⟩⟩
  | loadFailed error =>
    obtain ⟨hknown, r, hr, hid, -, herror⟩ := hfits
    cases h
    exact .inr ⟨hknown, .inl ⟨rfl, rfl, r, error, hr, hid, herror, rfl⟩⟩
  | routerUnfit problems =>
    cases h
    exact .inr ⟨hfits.1, .inr ⟨rfl, .inl rfl⟩⟩
  | started | released | cancelled | valueError | overflowError => cases h

/-- In every run a chat request that is not relayed is told what is the matter: 401
    exactly if it is not accepted, 400 exactly if its body names no model, 404 exactly if
    the model is not in the catalogue, and 502 or 503 exactly if it is; 502 gives the error
    of a load of that model, and a time to retry after is positive. Where the servers'
    methods raise nothing but `BackendError`, as they do here, it fails with an exception
    only if `json.loads` does so, or models are protected for ever and its model is in the
    catalogue. A relayed one goes to the server of its model. -/
theorem chat_answered {c : ℕ} {body : List UInt8} (h : (system app codec).Free x)
    (hc : x.connections[c]? = some k) (hbody : k.request.endpoint = .chatCompletions body) :
    (∀ response, k.phase = .answered response →
      (response.status = 401 ↔ app.accepts k.request = false) ∧
      (response.status = 400 ↔ app.accepts k.request = true ∧
        ∀ payload model, ¬ Names codec body payload model) ∧
      (response.status = 404 ↔ app.accepts k.request = true ∧
        ∃ payload model, Names codec body payload model ∧ app.cfg.catalogue.get model = none) ∧
      (response.status = 502 ∨ response.status = 503 ↔ app.accepts k.request = true ∧
        ∃ payload model, Names codec body payload model ∧ (app.cfg.catalogue.get model).isSome) ∧
      (response.status = 502 → ∃ payload r error, r < x.scheduler.next ∧
        Names codec body payload (x.scheduler.heap r).variant.id ∧
        (x.scheduler.heap r).error = some error ∧
        response = openaiError 502 error "model_load_failed" "server_error" none []) ∧
      ∀ value, ("Retry-After", value) ∈ response.headers → response.status = 503 ∧
        ∃ retryAfter : ℤ, 1 ≤ retryAfter ∧ value = toString retryAfter) ∧
    (k.phase = .raised → (∃ e, codec.loads body = .error e ∧ e.isValueError = false) ∨
      app.cfg.protectSeconds = ⊤ ∧ app.accepts k.request = true ∧
        ∃ payload model, Names codec body payload model ∧ (app.cfg.catalogue.get model).isSome) ∧
    ∀ payload model backend upstream chat,
      k.phase = .proxying payload model backend upstream chat →
      app.accepts k.request = true ∧ Names codec body payload model ∧
        ∃ variant, app.cfg.catalogue.get model = some variant ∧ variant.backend = backend := by
  have hsound := (linked h).sound c k hc
  refine ⟨fun response hphase => ?_, fun hphase => ?_, ?_⟩
  · cases hsound.answer hbody hphase with
    | refused hrefused heq =>
      subst heq
      simp [hrefused, unauthenticated, invalidRequest, openaiError]
    | invalid haccepts hnames hstatus hheaders =>
      simp [haccepts, hnames, hstatus, hheaders]
    | @failed payload model outcome haccepts hnames hfits hrefusal =>
      have honly : ∀ {P : String → Prop},
          (∃ payload model, Names codec body payload model ∧ P model) ↔ P model := by
        intro P
        refine ⟨?_, fun hP => ⟨payload, model, hnames, hP⟩⟩
        rintro ⟨payload', model', hnames', hP⟩
        rwa [(hnames.unique hnames').2]
      have hsome : ¬ ∀ payload model, ¬ Names codec body payload model :=
        fun hnot => hnot _ _ hnames
      simp only [haccepts, honly, hsome, true_and, and_false, iff_false]
      rcases refusal_status hfits hrefusal with ⟨-, hnone, heq⟩ |
        ⟨hknown, ⟨hstatus, hheaders, r, error, hr, hid, herror, heq⟩ | ⟨hstatus, hheaders⟩⟩
      · simp [hnone, heq, modelNotFound, invalidRequest, openaiError]
      · have hne : app.cfg.catalogue.get model ≠ none := Option.isSome_iff_ne_none.1 hknown
        have hwhich : ∃ payload r error, r < x.scheduler.next ∧
            Names codec body payload (x.scheduler.heap r).variant.id ∧
            (x.scheduler.heap r).error = some error ∧
            response = openaiError 502 error "model_load_failed" "server_error" none [] :=
          ⟨payload, r, error, hr, hid ▸ hnames, herror, heq⟩
        simp only [hstatus, hheaders, hne, hknown]
        exact ⟨by simp, by simp, by simp, by simp, fun _ => hwhich, by simp⟩
      · have hne : app.cfg.catalogue.get model ≠ none := Option.isSome_iff_ne_none.1 hknown
        simp only [hstatus, hne, hknown]
        refine ⟨by simp, by simp, by simp, by simp, by simp, fun value hvalue => ⟨trivial, ?_⟩⟩
        rcases hheaders with hheaders | ⟨retryAfter, hpos, hheaders⟩
        · rw [hheaders] at hvalue
          cases hvalue
        · rw [hheaders, List.mem_singleton] at hvalue
          exact ⟨retryAfter, hpos, (Prod.mk.inj hvalue).2⟩
  · unfold Connection.Sound at hsound
    rw [hphase] at hsound
    rcases hsound with ⟨-, s', hhandle⟩ | ⟨payload, model, p, hasks, -, -, hknown, hprotect⟩
    swap
    · obtain ⟨haccepts, body', hbody', hnames⟩ := hasks
      rw [hbody] at hbody'
      cases hbody'
      exact .inr ⟨hprotect, haccepts, payload, model, hnames, hknown⟩
    refine .inl ?_
    cases haccepts : app.accepts k.request with
    | false =>
      rw [handle_refused (by rw [hbody]; rfl) haccepts] at hhandle
      cases hhandle
    | true =>
      rw [handle_chat hbody haccepts] at hhandle
      split at hhandle
      · cases hhandle
      · cases hhandle
      · next hraises => exact chatModel_raises hraises
  · intro payload model backend upstream chat hphase
    unfold Connection.Sound at hsound
    rw [hphase] at hsound
    obtain ⟨⟨haccepts, body', hbody', hnames⟩, -, p, r, -, -, hr, hid, hbackend⟩ := hsound
    rw [hbody] at hbody'
    cases hbody'
    refine ⟨haccepts, hnames, _, ?_, hbackend⟩
    rw [← hid]
    exact (inv (free_scheduler h)).refs.known r hr

/-- The model cannot be loaded. -/
def failingLoad : List Action :=
  [.accept (chatWith "test-key-for-vscode" [97]), .handle 0, .schedule (.resume 1),
    .schedule (.resume 1), .schedule (.resume 1), .schedule (.resume 1), .schedule (.run 0),
    .schedule (.call 0 (.error "out of memory")), .schedule (.taskStates 0 (.error "timed out")),
    .schedule (.resume 1), .refuse 0]

/-- The client is told so. -/
theorem chat_answered_keyedBroker :
    ∃ x k response r error, (system keyedBroker namingCodec).Free x ∧
      x.connections[0]? = some k ∧ k.phase = .answered response ∧ response.status = 502 ∧
      (x.scheduler.heap r).error = some error ∧
      response = openaiError 502 error "model_load_failed" "server_error" none [] := by
  obtain ⟨x, hx, hP⟩ := @System.exists_reach _ _ (system keyedBroker namingCodec)
    (fun _ _ => true) (booting keyedBroker nothingLoaded) (init_booting ..) failingLoad
    (fun x => x.connections[0]?.any fun (k : Connection) =>
      decide (k.request.endpoint.body? = some [97]) && decide (k.phase.status? = some 502))
    (by decide +kernel)
  obtain ⟨k, hk, hpart⟩ := (Option.any_eq_true ..).1 hP
  simp only [Bool.and_eq_true, decide_eq_true_eq] at hpart
  obtain ⟨response, hphase, hstatus⟩ := Phase.status?_eq_some.1 hpart.2
  have hbody := Endpoint.body?_eq_some.1 hpart.1
  obtain ⟨-, r, error, -, -, herror, heq⟩ :=
    ((chat_answered hx.free hk hbody).1 response hphase).2.2.2.2.1 hstatus
  exact ⟨x, k, response, r, error, hx.free, hk, hphase, hstatus, herror, heq⟩

end ModelBroker.Broker
