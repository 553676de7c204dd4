import ModelBroker.Broker.Mediation
import ModelBroker.Scheduler.Keeping

/-!
# What the broker does not look at

The broker reads of a request which endpoint it is for, whether its key is accepted, and
the model that its body names (`seen`). Nothing else of it, no prompt and no key, has any
influence: two runs of the same actions, whose requests look the same, go in lock step.

* `handle_seen`: a handler goes by what is seen of its request.
* `step_rel`: a step of two brokers that look the same.
* `unseen`: so do whole runs, also when the keys are others.
-/

namespace ModelBroker.Broker

open Python Auth
open ProxiedChat (Upstream admission)

/-! ## What is seen of a request -/

/-- What the broker goes by. -/
inductive Seen where
  | unauthenticated
  | health
  | listModels
  | getModel (model : String)
  | chat (model : String)
  /-- A body that names no model, and its answer. -/
  | malformed (response : Response)
  | raises

variable (app : App) (codec : Codec)

/-- What is seen of a chat request's body. -/
def Chat.seen : Chat → Seen
  | .model _ name => .chat name
  | .answer response => .malformed response
  | .raises => .raises

/-- What is seen of a request. -/
def HttpRequest.seen (request : HttpRequest) : Seen :=
  if request.endpoint.needsKey && !app.accepts request then .unauthenticated
  else
    match request.endpoint with
    | .health => .health
    | .listModels => .listModels
    | .getModel model => .getModel model
    | .chatCompletions body => (chatModel codec body).seen

/-- The broker with other keys. -/
def App.withKeys (keys : Option ApiKeys) : App := { app with apiKeys := keys }

/-! ## What looks the same -/

/-- A handler comes to the same thing, but for the payload. -/
inductive Handled.Alike : Handled → Handled → Prop
  | answered (response : Response) : Alike (.answered response) (.answered response)
  | admitting (payload payload' : Json) (model : String) :
      Alike (.admitting payload model) (.admitting payload' model)
  | raised : Alike .raised .raised

/-- A connection is at the same point, but for the payload. -/
inductive Phase.Alike : Phase → Phase → Prop
  | received : Alike .received .received
  | admitting (payload payload' : Json) (model : String) :
      Alike (.admitting payload model) (.admitting payload' model)
  | proxying (payload payload' : Json) (model backend : String) (upstream : Upstream)
      (chat : ProxiedChat.State) : Alike (.proxying payload model backend upstream chat)
        (.proxying payload' model backend upstream chat)
  | answered (response : Response) : Alike (.answered response) (.answered response)
  | raised : Alike .raised .raised
  | cancelled : Alike .cancelled .cancelled

/-- The same is seen of the connections, and they are at the same point. -/
structure Connection.Alike (app' : App) (k k' : Connection) : Prop where
  request : k.request.seen app codec = k'.request.seen app' codec
  asked : k.asked = k'.asked
  phase : k.phase.Alike k'.phase

/-- The brokers' schedulers are in the same state, and their connections look the same. -/
structure Server.Alike (app' : App) (x x' : Server) : Prop where
  scheduler : x.scheduler = x'.scheduler
  connections : List.Forall₂ (Connection.Alike app codec app') x.connections x'.connections

/-- The same happens, to requests that look the same. -/
inductive Action.Alike (app' : App) : Action → Action → Prop
  | accept {request request' : HttpRequest}
      (h : request.seen app codec = request'.seen app' codec) :
      Alike app' (.accept request) (.accept request')
  | same (b : Action) (h : ∀ request, b ≠ .accept request) : Alike app' b b

variable {app codec} {keys : Option ApiKeys} {x x' y : Server} {k k' : Connection} {s : State} {c : ℕ}

/-- What is seen of a request decides how it is handled, up to the payload. -/
def Seen.handled (app : App) (s : State) : Seen → Handled
  | unauthenticated => .answered Broker.unauthenticated
  | health => .answered ⟨200, Broker.health app s, []⟩
  | listModels => .answered ⟨200, Broker.listModels app, []⟩
  | getModel model => .answered (Broker.getModel app model)
  | chat model => .admitting .null model
  | malformed response => .answered response
  | raises => .raised

theorem handle_seen (request : HttpRequest) :
    (handle app codec s request).Alike ((request.seen app codec).handled app s) := by
  unfold handle HttpRequest.seen
  split_ifs
  · exact .answered _
  · cases request.endpoint with
    | health | listModels | getModel => exact .answered _
    | chatCompletions body =>
      dsimp only
      cases chatModel codec body with
      | model payload model => exact .admitting ..
      | answer response => exact .answered _
      | raises => exact .raised

theorem Handled.Alike.symm {a b : Handled} (h : a.Alike b) : b.Alike a := by
  cases h with
  | answered response => exact .answered response
  | admitting payload payload' model => exact .admitting payload' payload model
  | raised => exact .raised

theorem Handled.Alike.trans {a b d : Handled} (h : a.Alike b) (h' : b.Alike d) : a.Alike d := by
  cases h with
  | answered response => exact h'
  | admitting payload payload' model =>
    cases h' with
    | admitting => exact .admitting ..
  | raised => exact h'

/-- The keys show in whether there are any, and nowhere else. -/
theorem handled_withKeys (hkeys : keys.isNone = app.apiKeys.isNone) (seen : Seen) :
    seen.handled (app.withKeys keys) s = seen.handled app s := by
  cases seen with
  | health => simp [Seen.handled, health, App.withKeys, hkeys]
  | unauthenticated | listModels | getModel | chat | malformed | raises => rfl

/-- Requests that look the same are handled alike. -/
theorem handle_alike (hkeys : keys.isNone = app.apiKeys.isNone) {request request' : HttpRequest}
    (h : request.seen app codec = request'.seen (app.withKeys keys) codec) :
    (handle app codec s request).Alike (handle (app.withKeys keys) codec s request') := by
  have hsame := handled_withKeys (s := s) hkeys (request.seen app codec)
  refine (handle_seen request).trans (.trans ?_ (handle_seen request').symm)
  rw [← h, hsame]
  cases (request.seen app codec).handled app s with
  | answered response => exact .answered response
  | admitting payload model => exact .admitting ..
  | raised => exact .raised

/-! ## Lock step -/

/-- A connection goes on, in both brokers. -/
theorem alike_put {app' : App} {l l' : List Connection} {request request' : HttpRequest}
    {asked : Option ℕ} {phase phase' : Phase} {t : State}
    (h : List.Forall₂ (Connection.Alike app codec app') l l')
    (hseen : request.seen app codec = request'.seen app' codec) (hphase : phase.Alike phase') :
    Server.Alike app codec app' (Server.put ⟨t, l⟩ c ⟨request, asked, phase⟩)
      (Server.put ⟨t, l'⟩ c ⟨request', asked, phase'⟩) := by
  have hk : Connection.Alike app codec app' ⟨request, asked, phase⟩ ⟨request', asked, phase'⟩ :=
    ⟨hseen, rfl, hphase⟩
  exact ⟨rfl, Table.rel_set h hk c⟩

/-- A connection and its counterpart. -/
theorem alike_get {app' : App} {l l' : List Connection}
    (h : List.Forall₂ (Connection.Alike app codec app') l l') (c : ℕ) :
    (l[c]? = none ∧ l'[c]? = none) ∨
      ∃ (request request' : HttpRequest) (asked : Option ℕ) (phase phase' : Phase),
        l[c]? = some ⟨request, asked, phase⟩ ∧ l'[c]? = some ⟨request', asked, phase'⟩ ∧
        request.seen app codec = request'.seen app' codec ∧ phase.Alike phase' := by
  have hrel := Table.rel_get h c
  generalize l[c]? = a at hrel ⊢
  generalize l'[c]? = b at hrel ⊢
  cases hrel with
  | none => exact .inl ⟨rfl, rfl⟩
  | @some k k' hk =>
    obtain ⟨request, asked, phase⟩ := k
    obtain ⟨request', asked', phase'⟩ := k'
    obtain ⟨hseen, rfl, hphase⟩ := hk
    exact .inr ⟨request, request', asked, phase, phase', rfl, rfl, hseen, hphase⟩

section Steps

variable {l l' : List Connection}
  (h : List.Forall₂ (Connection.Alike app codec (app.withKeys keys)) l l')
include h

/-- A handler begins, in both brokers. -/
theorem handle_rel (hkeys : keys.isNone = app.apiKeys.isNone) (c : ℕ) :
    Option.Rel (Server.Alike app codec (app.withKeys keys)) (step app codec ⟨s, l⟩ (.handle c))
      (step (app.withKeys keys) codec ⟨s, l'⟩ (.handle c)) := by
  rcases alike_get h c with ⟨hc, hc'⟩ | ⟨request, request', asked, phase, phase', hc, hc', hseen, hphase⟩
  · simp only [step, hc, hc']
    exact .none
  · cases hphase with
    | admitting | proxying | answered | raised | cancelled =>
      simp only [step, hc, hc']
      exact .none
    | received =>
      have hhandle := handle_alike (s := s) hkeys hseen
      simp only [step, hc, hc']
      generalize handle app codec s request = a at hhandle ⊢
      generalize handle (app.withKeys keys) codec s request' = b at hhandle ⊢
      cases hhandle with
      | answered response => exact .some (alike_put h hseen (.answered response))
      | raised => exact .some (alike_put h hseen .raised)
      | admitting payload payload' model =>
        show Option.Rel _ (Option.map _ (ModelBroker.step app.cfg s (.arrive model)))
          (Option.map _ (ModelBroker.step app.cfg s (.arrive model)))
        cases ModelBroker.step app.cfg s (.arrive model) with
        | none => exact .none
        | some t => exact .some (alike_put h hseen (.admitting ..))

/-- A response begins, in both brokers. -/
theorem respond_rel (c : ℕ) (upstream : Upstream) :
    Option.Rel (Server.Alike app codec (app.withKeys keys)) (step app codec ⟨s, l⟩ (.respond c upstream))
      (step (app.withKeys keys) codec ⟨s, l'⟩ (.respond c upstream)) := by
  rcases alike_get h c with ⟨hc, hc'⟩ | ⟨request, request', asked, phase, phase', hc, hc', hseen, hphase⟩
  · simp only [step, hc, hc']
    exact .none
  · cases hphase with
    | received | proxying | answered | raised | cancelled =>
      simp only [step, hc, hc']
      exact .none
    | admitting payload payload' model =>
      cases asked with
      | none =>
        simp only [step, hc, hc']
        exact .none
      | some p =>
        simp only [step, hc, hc']
        split
        · exact .some (alike_put h hseen (.proxying ..))
        · exact .none

/-- A request is refused, in both brokers. -/
theorem refuse_rel (c : ℕ) :
    Option.Rel (Server.Alike app codec (app.withKeys keys)) (step app codec ⟨s, l⟩ (.refuse c))
      (step (app.withKeys keys) codec ⟨s, l'⟩ (.refuse c)) := by
  rcases alike_get h c with ⟨hc, hc'⟩ | ⟨request, request', asked, phase, phase', hc, hc', hseen, hphase⟩
  · simp only [step, hc, hc']
    exact .none
  · cases hphase with
    | received | proxying | answered | raised | cancelled =>
      simp only [step, hc, hc']
      exact .none
    | admitting payload payload' model =>
      cases asked with
      | none =>
        simp only [step, hc, hc']
        exact .none
      | some p =>
        simp only [step, hc, hc']
        split
        · next outcome _ =>
          refine .some (alike_put h hseen ?_)
          cases refusal model outcome with
          | none => exact .raised
          | some response => exact .answered response
        · exact .none

/-- A connection is cancelled, in both brokers. -/
theorem abort_rel (c : ℕ) :
    Option.Rel (Server.Alike app codec (app.withKeys keys)) (step app codec ⟨s, l⟩ (.abort c))
      (step (app.withKeys keys) codec ⟨s, l'⟩ (.abort c)) := by
  rcases alike_get h c with ⟨hc, hc'⟩ | ⟨request, request', asked, phase, phase', hc, hc', hseen, hphase⟩
  · simp only [step, hc, hc']
    exact .none
  · cases hphase with
    | proxying | answered | raised | cancelled =>
      simp only [step, hc, hc']
      exact .none
    | received =>
      simp only [step, hc, hc']
      exact .some (alike_put h hseen .cancelled)
    | admitting payload payload' model =>
      cases asked with
      | none =>
        simp only [step, hc, hc']
        exact .none
      | some p =>
        simp only [step, hc, hc']
        split_ifs
        · exact .none
        · show Option.Rel _ (Option.map _ (ModelBroker.step app.cfg s (.cancel p)))
            (Option.map _ (ModelBroker.step app.cfg s (.cancel p)))
          cases ModelBroker.step app.cfg s (.cancel p) with
          | none => exact .none
          | some t => exact .some (alike_put h hseen .cancelled)

/-- A response goes on, in both brokers. -/
theorem proxy_rel (c : ℕ) (a : ProxiedChat.Action) :
    Option.Rel (Server.Alike app codec (app.withKeys keys)) (step app codec ⟨s, l⟩ (.proxy c a))
      (step (app.withKeys keys) codec ⟨s, l'⟩ (.proxy c a)) := by
  rcases alike_get h c with ⟨hc, hc'⟩ | ⟨request, request', asked, phase, phase', hc, hc', hseen, hphase⟩
  · simp only [step, hc, hc']
    exact .none
  · cases hphase with
    | received | admitting | answered | raised | cancelled =>
      simp only [step, hc, hc']
      exact .none
    | proxying payload payload' model backend upstream chat =>
      cases asked with
      | none =>
        simp only [step, hc, hc']
        exact .none
      | some p =>
        simp only [step, hc, hc']
        cases ProxiedChat.step codec.dumps upstream chat a with
        | none => exact .none
        | some chat' => exact .some (alike_put h hseen (.proxying ..))

end Steps

/-- A step of two brokers that look the same. -/
theorem step_rel (hkeys : keys.isNone = app.apiKeys.isNone) {b b' : Action}
    (h : x.Alike app codec (app.withKeys keys) x') (hb : b.Alike app codec (app.withKeys keys) b') :
    Option.Rel (Server.Alike app codec (app.withKeys keys)) (step app codec x b)
      (step (app.withKeys keys) codec x' b') := by
  obtain ⟨s, l⟩ := x
  obtain ⟨s', l'⟩ := x'
  obtain ⟨heq, hconnections⟩ := h
  obtain rfl : s = s' := heq
  cases hb with
  | accept hseen =>
    simp only [step]
    split_ifs
    · exact .some ⟨rfl, List.rel_append hconnections (.cons ⟨hseen, rfl, .received⟩ .nil)⟩
    · exact .none
  | same _ hother =>
    cases b with
    | accept request => exact absurd rfl (hother request)
    | handle c => exact handle_rel hconnections hkeys c
    | respond c upstream => exact respond_rel hconnections c upstream
    | refuse c => exact refuse_rel hconnections c
    | abort c => exact abort_rel hconnections c
    | proxy c a => exact proxy_rel hconnections c a
    | schedule a =>
      simp only [step]
      split_ifs
      · show Option.Rel _ (Option.map _ (ModelBroker.step app.cfg s a))
          (Option.map _ (ModelBroker.step app.cfg s a))
        cases ModelBroker.step app.cfg s a with
        | none => exact .none
        | some t => exact .some ⟨rfl, hconnections⟩
      · exact .none

/-- Two brokers with the same scheduler, both with keys or both without, and two runs of the
    same actions, in which corresponding requests look the same: the same endpoint, both
    accepted or neither, and if so the same model named. The runs go in lock step. After
    them the schedulers are in the same state, and corresponding connections have made the
    same calls, have the same answers, and have relayed the same. -/
theorem unseen (hkeys : keys.isNone = app.apiKeys.isNone) {bs bs' : List Action}
    (hbs : List.Forall₂ (Action.Alike app codec (app.withKeys keys)) bs bs')
    (hx : (system app codec).init x) :
    Option.Rel (Server.Alike app codec (app.withKeys keys))
      ((system app codec).run (fun _ _ => true) x bs)
      ((system (app.withKeys keys) codec).run (fun _ _ => true) x bs') := by
  refine System.run_rel (S := system (app.withKeys keys) codec) (T := system app codec)
    (A := fun b' b => b.Alike app codec (app.withKeys keys) b')
    (fun s t b' b hst hb => step_rel hkeys hst hb) hbs.flip ⟨rfl, ?_⟩
  rw [hx.2]
  exact .nil

theorem seen_unauthenticated {request : HttpRequest} (hneeds : request.endpoint.needsKey = true)
    (h : app.accepts request = false) : request.seen app codec = .unauthenticated := by
  simp [HttpRequest.seen, hneeds, h]

theorem seen_chat {request : HttpRequest} {body : List UInt8} {payload : Json} {model : String}
    (h : app.accepts request = true) (hendpoint : request.endpoint = .chatCompletions body)
    (hbody : chatModel codec body = .model payload model) :
    request.seen app codec = .chat model := by
  simp [HttpRequest.seen, h, hendpoint, hbody, Chat.seen]

/-- A codec of bodies with a prompt after the letter for the model. -/
def promptCodec : Codec where
  dumps _ := []
  loads
    | 97 :: prompt =>
      .ok (.obj [("model", .str "a--cuda0"), ("prompt", .arr (prompt.map fun c => .int c.toNat))])
    | _ => .error .json

/-- The keys after a change of them. -/
def laterKeys : Option ApiKeys := (parseApiKeys "vscode later-key-for-vscode\n").toOption

/-- A client's response is relayed and another is refused. -/
def relayedPrompt (request request' : HttpRequest) : List Action :=
  [.schedule (.activity 0 (.ok idle)), .accept request, .handle 0, .schedule (.resume 1),
    .schedule (.resume 1), .respond 0 ProxiedChat.smallReply, .accept request', .handle 1,
    .proxy 0 .opened]

theorem relayedPrompt_alike {app' : App} {request₁ request₂ request₁' request₂' : HttpRequest}
    (h : request₁.seen app codec = request₁'.seen app' codec)
    (h' : request₂.seen app codec = request₂'.seen app' codec) :
    List.Forall₂ (Action.Alike app codec app') (relayedPrompt request₁ request₂)
      (relayedPrompt request₁' request₂') :=
  .cons (.same _ (by simp)) (.cons (.accept h) (.cons (.same _ (by simp)) (.cons (.same _ (by simp))
    (.cons (.same _ (by simp)) (.cons (.same _ (by simp)) (.cons (.accept h') (.cons (.same _ (by simp))
      (.cons (.same _ (by simp)) .nil))))))))

/-- With a later key and another prompt, and with the key that was valid before for the
    other client, the same happens. -/
theorem unseen_keyedBroker :
    ∃ y y', (system keyedBroker promptCodec).run (fun _ _ => true)
        (booting keyedBroker (reporting "loaded"))
        (relayedPrompt (chatWith "test-key-for-vscode" [97, 1, 2])
          (chatWith "later-key-for-vscode" [97])) = some y ∧
      (system (keyedBroker.withKeys laterKeys) promptCodec).run (fun _ _ => true)
        (booting keyedBroker (reporting "loaded"))
        (relayedPrompt (chatWith "later-key-for-vscode" [97, 3])
          (chatWith "test-key-for-vscode" [97])) = some y' ∧
      y.Alike keyedBroker promptCodec (keyedBroker.withKeys laterKeys) y' := by
  have accepted : ∀ (app : App) (key : String) (prompt : List UInt8),
      app.accepts (chatWith key (97 :: prompt)) = true →
      (chatWith key (97 :: prompt)).seen app promptCodec = .chat "a--cuda0" :=
    fun app key prompt h => seen_chat h rfl rfl
  have refused : ∀ (app : App) (key : String) (body : List UInt8),
      app.accepts (chatWith key body) = false →
      (chatWith key body).seen app promptCodec = .unauthenticated :=
    fun app key body h => seen_unauthenticated rfl h
  have halike := relayedPrompt_alike
    ((accepted keyedBroker "test-key-for-vscode" [1, 2] (by decide +kernel)).trans
      (accepted (keyedBroker.withKeys laterKeys) "later-key-for-vscode" [3] (by decide +kernel)).symm)
    ((refused keyedBroker "later-key-for-vscode" [97] (by decide +kernel)).trans
      (refused (keyedBroker.withKeys laterKeys) "test-key-for-vscode" [97] (by decide +kernel)).symm)
  have hrel := unseen (by decide +kernel) halike (init_booting keyedBroker _ (reporting "loaded"))
  have hsome : ((system keyedBroker promptCodec).run (fun _ _ => true)
      (booting keyedBroker (reporting "loaded"))
      (relayedPrompt (chatWith "test-key-for-vscode" [97, 1, 2])
        (chatWith "later-key-for-vscode" [97]))).isSome = true := by decide +kernel
  obtain ⟨y, hy⟩ := Option.isSome_iff_exists.1 hsome
  rw [hy] at hrel
  generalize (system (keyedBroker.withKeys laterKeys) promptCodec).run (fun _ _ => true)
    (booting keyedBroker (reporting "loaded"))
    (relayedPrompt (chatWith "later-key-for-vscode" [97, 3])
      (chatWith "test-key-for-vscode" [97])) = z at hrel ⊢
  cases hrel with
  | @some _ y' hsame => exact ⟨y, y', hy, rfl, hsame⟩

end ModelBroker.Broker
