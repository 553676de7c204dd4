import ModelBroker.Broker.Handlers
import ModelBroker.Lib.Simulation
import ModelBroker.Proxy.Release
import ModelBroker.Scheduler.Asking

/-!
# The broker

The application that `create_app` makes (`application.py`, lines 331–399) while it
serves: the scheduler, and the connections that call it. A connection runs its handler,
which is suspended in `scheduler.admit` until the scheduler has admitted or refused its
request, and then its proxied response, which closes the admission.

* `step_cases`: what a step can do.
* `reach_scheduler`: the scheduler runs as it does alone, whatever its connections do.
-/

namespace ModelBroker.Broker

open Python
open ProxiedChat (Upstream admission Held)

/-! ## States -/

/-- Where a connection is. What the model's server will answer to a proxied request is
    fixed with the call. -/
inductive Phase where
  | received
  /-- In `enter_async_context(scheduler.admit(model))` (line 280). -/
  | admitting (payload : Json) (model : String)
  | proxying (payload : Json) (model backend : String) (upstream : Upstream)
      (chat : ProxiedChat.State)
  | answered (response : Response)
  /-- The handler raised an exception. -/
  | raised
  /-- Its task was cancelled. -/
  | cancelled

/-- A connection, with the number of its call of `admit` among the scheduler's requests,
    once it is made. -/
structure Connection where
  request : HttpRequest
  asked : Option ℕ := none
  phase : Phase := .received

/-- The broker. -/
structure Server where
  scheduler : State
  connections : List Connection := []

/-- The connection goes on. -/
def Server.put (x : Server) (c : ℕ) (k : Connection) : Server :=
  { x with connections := x.connections.set c k }

@[simp] theorem Server.put_scheduler (x : Server) (c : ℕ) (k : Connection) :
    (x.put c k).scheduler = x.scheduler := rfl

/-- A request of the scheduler that is admitted. -/
def isAdmitted : Request → Bool
  | .admitted _ => true
  | _ => false

/-- What the scheduler does without its callers: a request does not arrive, is not
    cancelled and does not leave its admission by itself. -/
def internal (s : State) : Act → Bool
  | .arrive _ | .cancel _ => false
  | .resume p => !s.requests[p]?.any isAdmitted
  | _ => true

/-! ## Steps -/

/-- What happens next. -/
inductive Action where
  | accept (request : HttpRequest)
  | handle (c : ℕ)
  /-- `admit` is entered, and the response begins. -/
  | respond (c : ℕ) (upstream : Upstream)
  /-- `admit` has raised. -/
  | refuse (c : ℕ)
  /-- The connection's task is cancelled before the response begins. -/
  | abort (c : ℕ)
  | proxy (c : ℕ) (a : ProxiedChat.Action)
  | schedule (a : Act)

variable (app : App) (codec : Codec)

/-- One step. -/
def step (x : Server) : Action → Option Server
  | .accept request =>
    if x.scheduler.started then some { x with connections := x.connections ++ [{ request }] }
    else none
  | .handle c =>
    match x.connections[c]? with
    | some ⟨request, asked, .received⟩ =>
      match handle app codec x.scheduler request with
      | .answered response => some (x.put c ⟨request, asked, .answered response⟩)
      | .raised => some (x.put c ⟨request, asked, .raised⟩)
      | .admitting payload model =>
        (ModelBroker.step app.cfg x.scheduler (.arrive model)).map fun s =>
          { x with scheduler := s }.put c
            ⟨request, some x.scheduler.requests.length, .admitting payload model⟩
    | _ => none
  | .respond c upstream =>
    match x.connections[c]? with
    | some ⟨request, some p, .admitting payload model⟩ =>
      match x.scheduler.requests[p]? with
      | some (.admitted r) =>
        some (x.put c ⟨request, some p,
          .proxying payload model (x.scheduler.heap r).variant.backend upstream {}⟩)
      | _ => none
    | _ => none
  | .refuse c =>
    match x.connections[c]? with
    | some ⟨request, some p, .admitting _ model⟩ =>
      match x.scheduler.requests[p]? with
      | some (.finished outcome) =>
        some (x.put c ⟨request, some p, (refusal model outcome).elim .raised .answered⟩)
      | _ => none
    | _ => none
  | .abort c =>
    match x.connections[c]? with
    | some ⟨request, asked, .received⟩ => some (x.put c ⟨request, asked, .cancelled⟩)
    | some ⟨request, some p, .admitting _ _⟩ =>
      -- the handler goes on to the response without suspending
      if x.scheduler.requests[p]?.any isAdmitted then none
      else
        (ModelBroker.step app.cfg x.scheduler (.cancel p)).map fun s =>
          { x with scheduler := s }.put c ⟨request, some p, .cancelled⟩
    | _ => none
  | .proxy c a =>
    match x.connections[c]? with
    | some ⟨request, some p, .proxying payload model backend upstream chat⟩ =>
      (ProxiedChat.step codec.dumps upstream chat a).map fun chat' =>
        { x with scheduler := (admission app.cfg p).react chat a chat' x.scheduler }.put c
          ⟨request, some p, .proxying payload model backend upstream chat'⟩
    | _ => none
  | .schedule a =>
    if internal x.scheduler a then
      (ModelBroker.step app.cfg x.scheduler a).map fun s => { x with scheduler := s }
    else none

/-- The broker once `lifespan` has made the scheduler. It serves from the end of
    `scheduler.start()` on. -/
def system : System Server Action where
  init x := (scheduler app.cfg).init x.scheduler ∧ x.connections = []
  step := step app codec

/-- The action of the scheduler that a step takes. -/
def act? (x : Server) : Action → Option Act
  | .handle c =>
    match x.connections[c]? with
    | some ⟨request, _, .received⟩ =>
      match handle app codec x.scheduler request with
      | .admitting _ model => some (.arrive model)
      | _ => none
    | _ => none
  | .abort c =>
    match x.connections[c]? with
    | some ⟨_, some p, .admitting _ _⟩ => some (.cancel p)
    | _ => none
  | .proxy c .close =>
    match x.connections[c]? with
    | some ⟨_, some p, .proxying _ _ _ _ chat⟩ =>
      if chat.resources.head? = some .admission then some (.resume p) else none
    | _ => none
  | .schedule a => some a
  | _ => none

/-- The condition on the scheduler's steps, of the broker's. -/
def lifted (ok : State → Act → Prop) (x : Server) (b : Action) : Prop :=
  ∀ a, act? app codec x b = some a → ok x.scheduler a

variable {app codec} {x y : Server} {b : Action}

/-- What a step can do. -/
inductive Step (app : App) (codec : Codec) (x : Server) : Action → Server → Prop
  | accept {request : HttpRequest} (h : x.scheduler.started = true) :
      Step app codec x (.accept request) { x with connections := x.connections ++ [{ request }] }
  | answer {c : ℕ} {request : HttpRequest} {asked : Option ℕ} {response : Response}
      (hc : x.connections[c]? = some ⟨request, asked, .received⟩)
      (h : handle app codec x.scheduler request = .answered response) :
      Step app codec x (.handle c) (x.put c ⟨request, asked, .answered response⟩)
  | raise {c : ℕ} {request : HttpRequest} {asked : Option ℕ}
      (hc : x.connections[c]? = some ⟨request, asked, .received⟩)
      (h : handle app codec x.scheduler request = .raised) :
      Step app codec x (.handle c) (x.put c ⟨request, asked, .raised⟩)
  | ask {c : ℕ} {request : HttpRequest} {asked : Option ℕ} {payload : Json} {model : String}
      {s : State} (hc : x.connections[c]? = some ⟨request, asked, .received⟩)
      (h : handle app codec x.scheduler request = .admitting payload model)
      (hs : ModelBroker.step app.cfg x.scheduler (.arrive model) = some s) :
      Step app codec x (.handle c) ({ x with scheduler := s }.put c
        ⟨request, some x.scheduler.requests.length, .admitting payload model⟩)
  | respond {c p : ℕ} {request : HttpRequest} {payload : Json} {model : String} {r : Ref}
      {upstream : Upstream}
      (hc : x.connections[c]? = some ⟨request, some p, .admitting payload model⟩)
      (hp : x.scheduler.requests[p]? = some (.admitted r)) :
      Step app codec x (.respond c upstream) (x.put c ⟨request, some p,
        .proxying payload model (x.scheduler.heap r).variant.backend upstream {}⟩)
  | refuse {c p : ℕ} {request : HttpRequest} {payload : Json} {model : String} {outcome : Outcome}
      (hc : x.connections[c]? = some ⟨request, some p, .admitting payload model⟩)
      (hp : x.scheduler.requests[p]? = some (.finished outcome)) :
      Step app codec x (.refuse c)
        (x.put c ⟨request, some p, (refusal model outcome).elim .raised .answered⟩)
  | drop {c : ℕ} {request : HttpRequest} {asked : Option ℕ}
      (hc : x.connections[c]? = some ⟨request, asked, .received⟩) :
      Step app codec x (.abort c) (x.put c ⟨request, asked, .cancelled⟩)
  | cancel {c p : ℕ} {request : HttpRequest} {payload : Json} {model : String} {s : State}
      (hc : x.connections[c]? = some ⟨request, some p, .admitting payload model⟩)
      (hp : ∀ r, x.scheduler.requests[p]? ≠ some (.admitted r))
      (hs : ModelBroker.step app.cfg x.scheduler (.cancel p) = some s) :
      Step app codec x (.abort c) ({ x with scheduler := s }.put c ⟨request, some p, .cancelled⟩)
  | proxy {c p : ℕ} {a : ProxiedChat.Action} {request : HttpRequest} {payload : Json}
      {model backend : String} {upstream : Upstream} {chat chat' : ProxiedChat.State}
      (hc : x.connections[c]? =
        some ⟨request, some p, .proxying payload model backend upstream chat⟩)
      (h : ProxiedChat.step codec.dumps upstream chat a = some chat') :
      Step app codec x (.proxy c a)
        ({ x with scheduler := (admission app.cfg p).react chat a chat' x.scheduler }.put c
          ⟨request, some p, .proxying payload model backend upstream chat'⟩)
  | schedule {a : Act} {s : State} (ha : internal x.scheduler a = true)
      (hs : ModelBroker.step app.cfg x.scheduler a = some s) :
      Step app codec x (.schedule a) { x with scheduler := s }

theorem step_cases (h : step app codec x b = some y) : Step app codec x b y := by
  cases b with
  | accept request =>
    simp only [step] at h
    split_ifs at h with hstarted
    cases h
    exact .accept hstarted
  | handle c =>
    simp only [step] at h
    split at h
    · next hc =>
      split at h
      · next hanswer => cases h; exact .answer hc hanswer
      · next hraised => cases h; exact .raise hc hraised
      · next hadmit =>
        obtain ⟨s, hs, rfl⟩ := Option.map_eq_some_iff.1 h
        exact .ask hc hadmit hs
    · cases h
  | respond c upstream =>
    simp only [step] at h
    split at h
    · next hc =>
      split at h
      · next hp => cases h; exact .respond hc hp
      · cases h
    · cases h
  | refuse c =>
    simp only [step] at h
    split at h
    · next hc =>
      split at h
      · next hp => cases h; exact .refuse hc hp
      · cases h
    · cases h
  | abort c =>
    simp only [step] at h
    split at h
    · next hc => cases h; exact .drop hc
    · next p _ _ hc =>
      split_ifs at h with hadmitted
      obtain ⟨s, hs, rfl⟩ := Option.map_eq_some_iff.1 h
      refine .cancel hc (fun r hp => hadmitted ?_) hs
      rw [hp]
      rfl
    · cases h
  | proxy c a =>
    simp only [step] at h
    split at h
    · next hc =>
      obtain ⟨chat', hchat, rfl⟩ := Option.map_eq_some_iff.1 h
      exact .proxy hc hchat
    · cases h
  | schedule a =>
    simp only [step] at h
    split_ifs at h with ha
    obtain ⟨s, hs, rfl⟩ := Option.map_eq_some_iff.1 h
    exact .schedule ha hs

/-! ## The scheduler in the broker -/

/-- A step of a proxied response closes its admission, or leaves the scheduler alone. -/
theorem react_cases (app : App) (p : ℕ) (chat : ProxiedChat.State) (a : ProxiedChat.Action)
    (chat' : ProxiedChat.State) (s : State) :
    (admission app.cfg p).react chat a chat' s = s ∨
      a = .close ∧ chat.resources.head? = some .admission ∧
        ModelBroker.step app.cfg s (.resume p) =
          some ((admission app.cfg p).react chat a chat' s) := by
  simp only [admission]
  split
  · next rest hresources =>
    cases hs : ModelBroker.step app.cfg s (.resume p) with
    | none => exact .inl rfl
    | some t => exact .inr ⟨rfl, by simp [hresources], rfl⟩
  · exact .inl rfl

/-- A step of the broker is one of the scheduler, or leaves it alone. -/
theorem scheduler_step (h : Step app codec x b y) :
    y.scheduler = x.scheduler ∨ ∃ a, act? app codec x b = some a ∧
      ModelBroker.step app.cfg x.scheduler a = some y.scheduler := by
  cases h with
  | accept | answer | raise | respond | refuse | drop => exact .inl rfl
  | ask hc h hs => exact .inr ⟨_, by simp [act?, hc, h], hs⟩
  | cancel hc hp hs => exact .inr ⟨_, by simp [act?, hc], hs⟩
  | @proxy c p a _ _ _ _ _ chat chat' hc h =>
    rcases react_cases app p chat a chat' x.scheduler with hsame | ⟨rfl, hhead, hs⟩
    · exact .inl hsame
    · exact .inr ⟨_, by simp [act?, hc, hhead], hs⟩
  | schedule ha hs => exact .inr ⟨_, rfl, hs⟩

/-- The scheduler's part of a run is a run of the scheduler. -/
theorem reach_scheduler {ok : State → Act → Prop}
    (h : (system app codec).Reach (lifted app codec ok) x) :
    (scheduler app.cfg).Reach ok x.scheduler := by
  refine h.project Server.scheduler ?_ ?_
  · intro x hinit
    exact hinit.1
  · intro x b y _ _ hok hstep
    rcases scheduler_step (step_cases hstep) with hsame | ⟨a, ha, hs⟩
    · exact .inl hsame
    · exact .inr ⟨a, hok a ha, hs⟩

theorem free_scheduler {ok : Server → Action → Prop} (h : (system app codec).Reach ok x) :
    (scheduler app.cfg).Free x.scheduler :=
  reach_scheduler (h.mono fun _ _ _ _ _ => trivial)

end ModelBroker.Broker
