import ModelBroker.Servers.Answers

/-!
# The client of the service-control helper

`servicecontrol.py` (lines 22–147): the request the broker sends and how it reads
the reply. Bytes go through a JSON codec, which is a parameter: `dumps` writes a
document, and `loads` reads a line or raises one of the exceptions of
`json.loads`.

* `readResponse_backend_iff`: `read_response` raises nothing but a `BackendError`
  exactly if the line is decoded to an object or raises a `ValueError`.
-/

namespace ModelBroker

open Python

/-- `json.dumps` with its separators, and `json.loads`. -/
structure Codec where
  dumps : Json → List UInt8
  loads : List UInt8 → Except LoadsError Json

/-- The byte that ends a line. -/
def newline : UInt8 := 10

namespace Control

/-- `PROTOCOL_VERSION` (line 22). -/
def protocolVersion : ℤ := 1

/-- `ServiceStatus` (lines 30–48). -/
structure ServiceStatus where
  state : String
  exitCode : Option ℤ
  oomKilled : Bool
  settings : Dict String String

/-- `occupying` (lines 45–48). -/
def ServiceStatus.occupying (status : ServiceStatus) : Bool :=
  status.state = "running" || status.state = "restarting" || status.state = "paused"

/-- A dictionary whose values are all `str` (lines 66–69). -/
def settings? (document : Json) : Option (Dict String String) :=
  document.dict?.bind fun d =>
    if d.entries.all fun e => e.2.str?.isSome then
      some (d.mapValues fun _ value => value.str?.getD "")
    else none

/-- `parse_status` (lines 61–77). -/
def parseStatus (document : Json) : Except Raised ServiceStatus :=
  let result := document.dict?.getD ∅
  match (Json.field result "state").str?, exitCode? (Json.field result "exit_code"),
    (Json.field result "oom_killed").bool?, settings? (Json.field result "settings") with
  | some state, some exitCode, some oom, some settings => .ok ⟨state, exitCode, oom, settings⟩
  | _, _, _, _ => .error (.serviceControlError "service-control status response is malformed")

/-- The message of a request (lines 108–115). -/
def requestMessage (id operation service : String) (settings : Option (Dict String String)) : Json :=
  .obj ([("version", .int protocolVersion), ("id", .str id), ("request", .str operation),
      ("service", .str service)] ++
    if operation = "start" then
      [("settings", .obj ((settings.getD ∅).entries.map fun e => (e.1, .str e.2)))]
    else [])

/-- The line that `exchange` writes (line 120). -/
def requestLine (codec : Codec) (id operation service : String)
    (settings : Option (Dict String String)) : List UInt8 :=
  codec.dumps (requestMessage id operation service settings) ++ [newline]

/-- `read_response` (lines 133–147). `reply.get` fails for a document that is no
    dictionary. -/
def readResponse (codec : Codec) (line : List UInt8) (requestId operation service : String) :
    Except Raised ServiceStatus :=
  match codec.loads line with
  | .error e =>
    if e.isValueError then
      .error (.serviceControlError "service control sent no valid response")
    else .error .recursionError
  | .ok document =>
    match document.dict? with
    | none => .error .attributeError
    | some reply =>
      if (Json.field reply "ok").bool? ≠ some true then
        .error (.serviceControlError ("service control refused " ++ operation ++ " " ++ service ++
          ": " ++ (Json.field reply "error").toStr))
      else if !(Json.field reply "id").equalsStr requestId ||
          !(Json.field reply "version").equalsInt protocolVersion then
        .error (.serviceControlError "service control response does not match the request")
      else parseStatus (Json.field reply "result")

/-! ## What it raises -/

theorem parseStatus_backend (document : Json) : BackendOnly (parseStatus document) := by
  unfold parseStatus
  dsimp only
  split
  · exact .ok _
  · exact backendOnly_error.2 rfl

/-- A line that is decoded to an object, or not decoded because of its text. -/
def Readable (codec : Codec) (line : List UInt8) : Prop :=
  (∀ document, codec.loads line = .ok document → ∃ reply, document.dict? = some reply) ∧
    ∀ e, codec.loads line = .error e → e.isValueError = true

/-- `read_response` raises nothing but a `BackendError` exactly for readable
    lines. -/
theorem readResponse_backend_iff (codec : Codec) (line : List UInt8)
    (requestId operation service : String) :
    BackendOnly (readResponse codec line requestId operation service) ↔ Readable codec line := by
  unfold readResponse Readable
  cases codec.loads line with
  | error e =>
    dsimp only
    split
    · next he =>
      refine ⟨fun _ => ⟨nofun, fun _ h => ?_⟩, fun _ => backendOnly_error.2 rfl⟩
      cases h
      exact he
    · next he =>
      constructor
      · intro h
        cases h _ rfl
      · rintro ⟨-, h⟩
        exact absurd (h e rfl) he
  | ok document =>
    dsimp only
    cases hd : document.dict? with
    | none =>
      constructor
      · intro h
        cases h _ rfl
      · rintro ⟨h, -⟩
        obtain ⟨reply, hr⟩ := h document rfl
        rw [hd] at hr
        cases hr
    | some reply =>
      refine ⟨fun _ => ⟨fun _ h => ?_, nofun⟩, fun _ => ?_⟩
      · cases h
        exact ⟨reply, hd⟩
      dsimp only
      split
      · exact backendOnly_error.2 rfl
      · split
        · exact backendOnly_error.2 rfl
        · exact parseStatus_backend _

/-! ## Every unexpected answer -/

/-- For every answer that the parsers of `GET /models`, `GET /props`, Strata's
    status and the activity and the reader of the helper's replies are given: none
    of them raises anything but a `BackendError` exactly when the counts of an
    otherwise readable activity are finite and the line of the reply is readable. -/
theorem unexpected_answers (models props : Json) (role : String) (status slots : Json)
    (metrics : String) (codec : Codec) (line : List UInt8) (requestId operation service : String) :
    (BackendOnly (parseModelStates models) ∧ BackendOnly (parseRouterProps props role) ∧
      BackendOnly (parseStrataActivity status) ∧ BackendOnly (parseModelActivity slots metrics) ∧
      BackendOnly (readResponse codec line requestId operation service)) ↔
    CountsFinite slots metrics ∧ Readable codec line := by
  have hactivity := parseModelActivity_backend_iff slots metrics
  have hreply := readResponse_backend_iff codec line requestId operation service
  constructor
  · rintro ⟨-, -, -, hcounts, hline⟩
    exact ⟨hactivity.1 hcounts, hreply.1 hline⟩
  · rintro ⟨hcounts, hline⟩
    exact ⟨parseModelStates_backend models, parseRouterProps_backend props role,
      parseStrataActivity_backend status, hactivity.2 hcounts, hreply.2 hline⟩

/-- One idle slot. -/
def idleSlot : Json := .arr [.obj [("is_processing", .bool false)]]

/-- A page on which nobody knows how many requests are deferred. -/
def deferredNaN : String :=
  "llamacpp:requests_processing 0\nllamacpp:requests_deferred NaN\nllamacpp:n_decode_total 7\n"

/-- A codec that knows one line: an empty list. -/
def emptyListCodec : Codec where
  dumps _ := [91, 93]
  loads line := if line = [91, 93, newline] then .ok (.arr []) else .error .json

/-- NaN is no count, and a list has no `get`. -/
theorem unexpected_raised :
    ¬ (∀ slots metrics, BackendOnly (parseModelActivity slots metrics)) ∧
    ¬ ∀ codec line requestId operation service,
      BackendOnly (readResponse codec line requestId operation service) := by
  constructor
  · intro h
    have hraised : parseModelActivity idleSlot deferredNaN = .error .valueError := by
      decide +kernel
    cases h idleSlot deferredNaN _ hraised
  · intro h
    have hraised : readResponse emptyListCodec [91, 93, newline] "1" "status" "strata" =
      .error .attributeError := rfl
    cases h emptyListCodec [91, 93, newline] "1" "status" "strata" _ hraised

end Control

end ModelBroker
