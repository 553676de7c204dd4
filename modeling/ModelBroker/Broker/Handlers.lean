import Mathlib.Data.List.Sort
import ModelBroker.Auth.Keys
import ModelBroker.Control.Client
import ModelBroker.Scheduler.State

/-!
# The broker's endpoints

The handlers of `application.py` (lines 146–283), each up to the scheduler: what a
request is answered with at once, or which model it asks the scheduler for.

* `chatModel_eq_model`: which bodies name a model.
* `handle_eq_admitting`: which requests reach the scheduler: those of `/v1/chat/completions`
  with a valid key, if keys are configured, and a body that names a model.
-/

namespace ModelBroker.Broker

open Python Auth

/-- A `JSONResponse`, with the headers it adds. -/
structure Response where
  status : ℕ
  content : Json
  headers : List (String × String)

/-! ## Errors -/

/-- `openai_error` (lines 146–156). -/
def openaiError (status : ℕ) (message code errorType : String) (param : Option String)
    (headers : List (String × String)) : Response where
  status := status
  content := .obj [("error", .obj [("message", .str message), ("type", .str errorType),
    ("param", param.elim .null .str), ("code", .str code)])]
  headers := headers

/-- `openai_error` with its default type. -/
def invalidRequest (status : ℕ) (message code : String) (param : Option String)
    (headers : List (String × String)) : Response :=
  openaiError status message code "invalid_request_error" param headers

/-- `model_not_found` (lines 159–162). -/
def modelNotFound (model : String) : Response :=
  invalidRequest 404 ("The model " ++ Python.repr model ++ " does not exist.") "model_not_found"
    (some "model") []

/-- `unauthenticated` (lines 188–195). -/
def unauthenticated : Response :=
  invalidRequest 401 "Missing or invalid API key. Send it as 'Authorization: Bearer <key>'."
    "invalid_api_key" none [("WWW-Authenticate", "Bearer")]

/-- `refusal` (lines 165–181), for the `SchedulerError`s among the outcomes; the last
    case of the source is `RouterUnfit`. -/
def refusal (model : String) : Outcome → Option Response
  | .unknownModel _ => some (modelNotFound model)
  | .resourceBusy reason retryAfter =>
    some (openaiError 503 ("The resources for " ++ Python.repr model ++ " are busy: " ++ reason)
      "resource_busy" "server_error" none [("Retry-After", toString retryAfter)])
  | .loadFailed error => some (openaiError 502 error "model_load_failed" "server_error" none [])
  | .routerUnfit problems =>
    some (openaiError 503 (String.intercalate "; " problems) "router_unavailable" "server_error" none
      [])
  | .started | .released | .cancelled | .valueError | .overflowError => none

/-! ## Requests -/

/-- The endpoints of `router` and `api`, with what the request says. -/
inductive Endpoint where
  | health
  | listModels
  | getModel (model : String)
  | chatCompletions (body : List UInt8)

/-- The endpoint belongs to `api`, and so needs a valid key (line 218). -/
def Endpoint.needsKey : Endpoint → Bool
  | health => false
  | listModels | getModel _ | chatCompletions _ => true

/-- A request of a client. -/
structure HttpRequest where
  authorization : Option String
  endpoint : Endpoint

/-- What `create_app` puts on `app.state` (lines 342–388), but for the scheduler's
    state: the scheduler's arguments, the keys and the time of the start. -/
structure App where
  cfg : Config
  apiKeys : Option ApiKeys
  started : ℤ

variable (app : App)

/-- `authenticate` (lines 198–213) accepts the request. -/
def App.accepts (request : HttpRequest) : Bool :=
  match app.apiKeys with
  | none => true
  | some keys => (clientFor keys request.authorization).isSome

/-- `sorted(…)` of texts. -/
def sorted (texts : List String) : List String := texts.insertionSort (· ≤ ·)

/-- `health` (lines 221–236). -/
def health (s : State) : Json :=
  let services := sorted (app.cfg.adapters.keys.filter (· ≠ "llama"))
  .obj ([("status", .str (if s.view.problems = [] then "ok" else "degraded")),
      ("models", .int app.cfg.catalogue.variants.entries.length),
      ("loaded", .arr ((sorted s.view.loaded.keys).map .str)),
      ("router", .obj [("build", s.view.build.elim .null .str),
        ("problems", .arr (s.view.problems.map .str))]),
      ("authentication", .str (if app.apiKeys.isNone then "off" else "on"))] ++
    if services = [] then [] else [("services", .arr (services.map .str))])

/-- `model_object` (lines 239–241). -/
def modelObject (variant : Variant) : Json :=
  .obj [("id", .str variant.id), ("object", .str "model"), ("created", .int app.started),
    ("owned_by", .str "model-broker")]

/-- `list_models` (lines 244–250). -/
def listModels : Json :=
  .obj [("object", .str "list"),
    ("data", .arr (app.cfg.catalogue.variants.values.map (modelObject app)))]

/-- `get_model` (lines 253–259). -/
def getModel (model : String) : Response :=
  match app.cfg.catalogue.get model with
  | none => modelNotFound model
  | some variant => ⟨200, modelObject app variant, []⟩

/-! ## Chat requests -/

/-- What the body of a chat request comes to: the payload and the model it names, an
    answer, or an exception that the handler does not catch. -/
inductive Chat where
  | model (payload : Json) (model : String)
  | answer (response : Response)
  | raises

/-- The lines of `chat_completions` before the scheduler (lines 270–276). -/
def chatModel (codec : Codec) (body : List UInt8) : Chat :=
  match codec.loads body with
  | .error e =>
    if e.isValueError then
      .answer (invalidRequest 400 "The request body must be JSON." "invalid_json" none [])
    else .raises
  | .ok payload =>
    match payload.dict?.bind fun d => (Json.field d "model").str? with
    | some model =>
      if model = "" then
        .answer (invalidRequest 400 "The request must name a model." "missing_model" (some "model") [])
      else .model payload model
    | none =>
      .answer (invalidRequest 400 "The request must name a model." "missing_model" (some "model") [])

/-- What becomes of a request before the scheduler. -/
inductive Handled where
  | answered (response : Response)
  | admitting (payload : Json) (model : String)
  | raised

/-- The request up to the scheduler: its authentication and its handler. -/
def handle (codec : Codec) (s : State) (request : HttpRequest) : Handled :=
  if request.endpoint.needsKey && !app.accepts request then .answered unauthenticated
  else
    match request.endpoint with
    | .health => .answered ⟨200, health app s, []⟩
    | .listModels => .answered ⟨200, listModels app, []⟩
    | .getModel model => .answered (getModel app model)
    | .chatCompletions body =>
      match chatModel codec body with
      | .model payload model => .admitting payload model
      | .answer response => .answered response
      | .raises => .raised

/-! ## Which requests reach the scheduler -/

variable {app} {codec : Codec} {s : State}

/-- The body is an object that names this model. -/
def Names (codec : Codec) (body : List UInt8) (payload : Json) (model : String) : Prop :=
  codec.loads body = .ok payload ∧ model ≠ "" ∧
    ∃ d, payload.dict? = some d ∧ Json.field d "model" = .str model

theorem str?_eq_some {document : Json} {text : String} :
    document.str? = some text ↔ document = .str text := by
  cases document <;> simp [Json.str?]

theorem chatModel_eq_model {body : List UInt8} {payload : Json} {model : String} :
    chatModel codec body = .model payload model ↔ Names codec body payload model := by
  unfold chatModel Names
  cases codec.loads body with
  | error e => dsimp only; split_ifs <;> simp
  | ok document =>
    dsimp only
    split
    · next name hname =>
      obtain ⟨d, hd, hfield⟩ := Option.bind_eq_some_iff.1 hname
      rw [str?_eq_some] at hfield
      split_ifs with hempty
      · refine iff_of_false (by simp) ?_
        rintro ⟨heq, hne, d', hd', hfield'⟩
        cases heq
        rw [hd] at hd'
        obtain rfl := Option.some.inj hd'
        rw [hfield] at hfield'
        cases hfield'
        exact hne hempty
      · constructor
        · intro h
          cases h
          exact ⟨rfl, hempty, d, hd, hfield⟩
        · rintro ⟨heq, -, d', hd', hfield'⟩
          cases heq
          rw [hd] at hd'
          obtain rfl := Option.some.inj hd'
          rw [hfield] at hfield'
          cases hfield'
          rfl
    · next hnone =>
      refine iff_of_false (by simp) ?_
      rintro ⟨heq, -, d, hd, hfield⟩
      cases heq
      simp [hd, hfield, Json.str?] at hnone

variable (app codec) in
/-- The request presents a valid key, if there are keys, and asks for this model. -/
def HttpRequest.Asks (request : HttpRequest) (payload : Json) (model : String) : Prop :=
  app.accepts request = true ∧
    ∃ body, request.endpoint = .chatCompletions body ∧ Names codec body payload model

/-- A request reaches the scheduler exactly if it asks for a model. -/
theorem handle_eq_admitting {request : HttpRequest} {payload : Json} {model : String} :
    handle app codec s request = .admitting payload model ↔
      request.Asks app codec payload model := by
  unfold handle HttpRequest.Asks
  split_ifs with hrefused
  · simp only [Bool.and_eq_true, Bool.not_eq_true'] at hrefused
    refine iff_of_false (by simp) ?_
    rw [hrefused.2]
    simp
  · cases hendpoint : request.endpoint with
    | health | listModels | getModel => simp
    | chatCompletions body =>
      have haccepts : app.accepts request = true := by
        simpa [hendpoint, Endpoint.needsKey] using hrefused
      simp only [haccepts, true_and, Endpoint.chatCompletions.injEq, exists_eq_left',
        ← chatModel_eq_model]
      cases chatModel codec body with
      | model payload' model' => simp
      | answer response => simp
      | raises => simp

end ModelBroker.Broker
