import ModelBroker.Lib.Runs
import ModelBroker.Python.Json
import ModelBroker.Python.Text

/-!
# The proxied response

`ProxiedChat` (`proxy.py`, lines 40–129). The relay sends the request upstream and
passes the response on; the watcher waits for the client to leave and then cancels
the scope that both run in. Each is split at its `await`s, and an action is what an
`await` ends with. A cancellation may reach the relay at any `await`, at once or
after some more of them.

Results, for every answer upstream and every run:
* `accounted`: what was sent and what the relay has still to send make up the
  `script`, unless the relay was stopped; so a part of it was sent.
* `completed`: all of it, if the client stays and no message fails.
* `controlled`: `resources.aclose()` is called once, when relay and watcher have ended.
* `step_lt`, `exists_step`: every step but a message of the client to the watcher
  brings the end nearer, and until the end there is one.
-/

namespace ModelBroker.ProxiedChat

open Python

/-! ## Messages -/

/-- `HOP_HEADERS` (lines 21–31). -/
def hopHeaders : List String :=
  ["connection", "keep-alive", "transfer-encoding", "content-length", "content-encoding", "date",
    "server"]

/-- `text.encode()`. -/
def encode (text : String) : List UInt8 := text.toByteArray.data.toList

/-- The headers that are relayed (lines 102–106). -/
def relayedHeaders (headers : List (String × String)) : List (List UInt8 × List UInt8) :=
  (headers.filter fun header => !hopHeaders.contains (lower header.1)).map fun header =>
    (encode header.1, encode header.2)

/-- The document of `openai_error_body` (lines 34–36). -/
def openaiError (message errorType code : String) : Json :=
  .obj [("error", .obj [("message", .str message), ("type", .str errorType), ("param", .null),
    ("code", .str code)])]

/-- What is sent to the client. -/
inductive Message where
  | start (status : ℕ) (headers : List (List UInt8 × List UInt8))
  | body (bytes : List UInt8) (moreBody : Bool)

namespace Message

def isStart : Message → Bool
  | start _ _ => true
  | body _ _ => false

/-- The message ends the response. -/
def isFinal : Message → Bool
  | start _ _ => false
  | body _ moreBody => !moreBody

def body? : Message → Option (List UInt8)
  | start _ _ => none
  | body bytes _ => some bytes

end Message

/-- What upstream does with the request: a `BackendError`, or a response whose body
    ends, or breaks with an `httpx.HTTPError`, after some chunks. -/
inductive Upstream where
  | failed (error : String)
  | responded (status : ℕ) (headers : List (String × String)) (chunks : List (List UInt8))
      (broken : Option String)

/-- The chunks of the body upstream. -/
def Upstream.chunks : Upstream → List (List UInt8)
  | failed _ => []
  | responded _ _ chunks _ => chunks

/-! ## The system -/

/-- How the relay ends. -/
inductive Finish where
  | returned
  | cancelled
  | raised
  deriving DecidableEq

/-- Where the relay is: at an `await`, or at its end. -/
inductive Relay where
  /-- Lines 93–95. -/
  | opening
  /-- Lines 128 and 129: the two messages of `send_whole`. -/
  | refusing (error : String)
  | refusingBody (error : String)
  /-- Lines 107–109. -/
  | starting (status : ℕ) (headers : List (String × String)) (rest : List (List UInt8))
      (broken : Option String)
  /-- Line 112. -/
  | reading (rest : List (List UInt8)) (broken : Option String)
  /-- Line 114. -/
  | relaying (chunk : List UInt8) (rest : List (List UInt8)) (broken : Option String)
  /-- Line 122. -/
  | ending
  | finished (how : Finish)

/-- What the exit stack holds: the admission, and over it the response. -/
inductive Resource where
  | admission
  | response
  deriving DecidableEq

/-- Where `__call__` is: in the task group, in `aclose`, or at its end. -/
inductive Phase where
  | running
  | closing
  | ended
  deriving DecidableEq

/-- A proxied response on its way. -/
structure State where
  relay : Relay := .opening
  /-- The watcher waits for a message of the client. -/
  watching : Bool := true
  finishing : Bool := false
  disconnected : Bool := false
  /-- `group.cancel_scope.cancel()` was called. -/
  cancelled : Bool := false
  resources : List Resource := [.admission]
  phase : Phase := .running
  /-- The calls of `resources.aclose()`. -/
  closes : ℕ := 0
  sent : List Message := []

/-- What an `await` ends with. -/
inductive Action where
  /-- The relay's request is answered (line 93). -/
  | opened
  /-- The message is sent. -/
  | sent
  /-- `send` raises an exception, before or after the message has gone out. -/
  | failed (delivered : Bool)
  /-- The next chunk, the end of the body, or an error (line 112). -/
  | next
  /-- The cancellation reaches the relay, before or after its message has gone out. -/
  | cancel (delivered : Bool)
  /-- The watcher receives a message (line 76). -/
  | receive (disconnect : Bool)
  /-- The cancellation reaches the watcher. -/
  | unwatch
  /-- Both have ended, and `aclose` begins (line 87). -/
  | leave
  /-- A resource is closed; an error does not keep `aclose` from the next one. -/
  | close
  | done

variable (dumps : Json → List UInt8) (upstream : Upstream)

/-- The body of the error that reports a failure upstream (line 98). -/
def errorBody (error : String) : List UInt8 :=
  dumps (openaiError error "server_error" "router_unavailable")

/-- The message whose sending the relay awaits. -/
def Relay.message : Relay → Option Message
  | refusing _ => some (.start 502 [(encode "content-type", encode "application/json")])
  | refusingBody error => some (.body (errorBody dumps error) false)
  | starting status headers _ _ => some (.start status (relayedHeaders headers))
  | relaying chunk _ _ => some (.body chunk true)
  | ending => some (.body [] false)
  | opening | reading _ _ | finished _ => none

/-- Where the relay is once its message is sent. -/
def Relay.afterSend : Relay → Relay
  | refusing error => refusingBody error
  | starting _ _ rest broken | relaying _ rest broken => reading rest broken
  | _ => finished .returned

namespace State

/-- The relay ends. The scope is cancelled after it has returned (line 84), and with
    an exception by the task group. -/
def finish (x : State) (how : Finish) : State := { x with relay := .finished how, cancelled := true }

/-- Go on at the next `await`, or at the end. -/
def goto (x : State) : Relay → State
  | .finished how => x.finish how
  | relay => { x with relay }

/-- A message has gone out, if it has. -/
def record (x : State) (delivered : Bool) : State :=
  { x with sent := x.sent ++ if delivered then (x.relay.message dumps).toList else [] }

end State

/-- One step. -/
def step (x : State) : Action → Option State
  | .opened =>
    match x.relay, upstream with
    | .opening, .failed error => some { x with relay := .refusing error, finishing := true }
    | .opening, .responded status headers chunks broken =>
      some { x with
        relay := .starting status headers chunks broken
        resources := .response :: x.resources }
    | _, _ => none
  | .sent =>
    if (x.relay.message dumps).isSome then
      some ((x.record dumps true).goto x.relay.afterSend)
    else none
  | .failed delivered =>
    if (x.relay.message dumps).isSome then some ((x.record dumps delivered).finish .raised)
    else none
  | .next =>
    match x.relay with
    | .reading (chunk :: rest) broken => some { x with relay := .relaying chunk rest broken }
    -- lines 115–121: an error is reported, and the last message follows as after the end
    | .reading [] _ => some { x with relay := .ending, finishing := true }
    | _ => none
  | .cancel delivered =>
    match x.relay with
    | .finished _ => none
    | _ => if x.cancelled then some ((x.record dumps delivered).finish .cancelled) else none
  | .receive disconnect =>
    if !x.watching then none
    else if !disconnect then some x
    else if x.finishing then some { x with watching := false }
    else some { x with watching := false, disconnected := true, cancelled := true }
  | .unwatch => if x.watching && x.cancelled then some { x with watching := false } else none
  | .leave =>
    match x.relay, x.phase with
    | .finished _, .running =>
      if x.watching then none else some { x with phase := .closing, closes := x.closes + 1 }
    | _, _ => none
  | .close =>
    match x.phase, x.resources with
    | .closing, _ :: rest => some { x with resources := rest }
    | _, _ => none
  | .done =>
    match x.phase, x.resources with
    | .closing, [] => some { x with phase := .ended }
    | _, _ => none

/-- The response from the call of `__call__` on. -/
def system : System State Action where
  init x := x = {}
  step := step dumps upstream

/-! ## Steps -/

section Steps

variable {dumps upstream} {x y : State} {a : Action}

/-- What a step can do. -/
inductive Step (dumps : Json → List UInt8) (upstream : Upstream) (x : State) : Action → State → Prop
  | refuse {error : String} (hrelay : x.relay = .opening) (hupstream : upstream = .failed error) :
      Step dumps upstream x .opened { x with relay := .refusing error, finishing := true }
  | respond {status : ℕ} {headers : List (String × String)} {chunks : List (List UInt8)}
      {broken : Option String} (hrelay : x.relay = .opening)
      (hupstream : upstream = .responded status headers chunks broken) :
      Step dumps upstream x .opened
        { x with
          relay := .starting status headers chunks broken
          resources := .response :: x.resources }
  | sent {message : Message} (hmessage : x.relay.message dumps = some message) :
      Step dumps upstream x .sent
        ({ x with sent := x.sent ++ [message] }.goto x.relay.afterSend)
  | failed {message : Message} {delivered : Bool} (hmessage : x.relay.message dumps = some message) :
      Step dumps upstream x (.failed delivered) ((x.record dumps delivered).finish .raised)
  | chunk {chunk : List UInt8} {rest : List (List UInt8)} {broken : Option String}
      (hrelay : x.relay = .reading (chunk :: rest) broken) :
      Step dumps upstream x .next { x with relay := .relaying chunk rest broken }
  | last {broken : Option String} (hrelay : x.relay = .reading [] broken) :
      Step dumps upstream x .next { x with relay := .ending, finishing := true }
  | cancel {delivered : Bool} (hrelay : ∀ how, x.relay ≠ .finished how)
      (hcancelled : x.cancelled = true) :
      Step dumps upstream x (.cancel delivered) ((x.record dumps delivered).finish .cancelled)
  | other (hwatching : x.watching = true) : Step dumps upstream x (.receive false) x
  | complete (hwatching : x.watching = true) (hfinishing : x.finishing = true) :
      Step dumps upstream x (.receive true) { x with watching := false }
  | disconnect (hwatching : x.watching = true) (hfinishing : x.finishing = false) :
      Step dumps upstream x (.receive true)
        { x with watching := false, disconnected := true, cancelled := true }
  | unwatch (hwatching : x.watching = true) (hcancelled : x.cancelled = true) :
      Step dumps upstream x .unwatch { x with watching := false }
  | leave {how : Finish} (hrelay : x.relay = .finished how) (hphase : x.phase = .running)
      (hwatching : x.watching = false) :
      Step dumps upstream x .leave { x with phase := .closing, closes := x.closes + 1 }
  | close {resource : Resource} {rest : List Resource} (hphase : x.phase = .closing)
      (hresources : x.resources = resource :: rest) :
      Step dumps upstream x .close { x with resources := rest }
  | done (hphase : x.phase = .closing) (hresources : x.resources = []) :
      Step dumps upstream x .done { x with phase := .ended }

theorem step_cases (h : step dumps upstream x a = some y) : Step dumps upstream x a y := by
  cases a with
  | opened =>
    simp only [step] at h
    split at h
    · next hrelay => cases h; exact .refuse hrelay rfl
    · next hrelay => cases h; exact .respond hrelay rfl
    · cases h
  | sent =>
    simp only [step] at h
    split_ifs at h with hmessage
    obtain ⟨message, hmessage⟩ := Option.isSome_iff_exists.1 hmessage
    obtain rfl := Option.some.inj h
    have hrecord : x.record dumps true = { x with sent := x.sent ++ [message] } := by
      simp [State.record, hmessage]
    rw [hrecord]
    exact .sent hmessage
  | failed delivered =>
    simp only [step] at h
    split_ifs at h with hmessage
    obtain ⟨message, hmessage⟩ := Option.isSome_iff_exists.1 hmessage
    cases h
    exact .failed hmessage
  | next =>
    simp only [step] at h
    split at h
    · next hrelay => cases h; exact .chunk hrelay
    · next hrelay => cases h; exact .last hrelay
    · cases h
  | cancel delivered =>
    simp only [step] at h
    split at h
    · cases h
    · next hrelay =>
      split_ifs at h with hcancelled
      cases h
      exact .cancel hrelay hcancelled
  | receive disconnect =>
    simp only [step] at h
    split_ifs at h with hwatching hother hfinishing
    · cases h
      rw [Bool.not_eq_true'] at hother
      subst hother
      exact .other (by simpa using hwatching)
    · cases h
      obtain rfl : disconnect = true := by simpa using hother
      exact .complete (by simpa using hwatching) hfinishing
    · cases h
      obtain rfl : disconnect = true := by simpa using hother
      exact .disconnect (by simpa using hwatching) (by simpa using hfinishing)
  | unwatch =>
    simp only [step] at h
    split_ifs at h with hboth
    cases h
    rw [Bool.and_eq_true] at hboth
    exact .unwatch hboth.1 hboth.2
  | leave =>
    simp only [step] at h
    split at h
    · next how hrelay hphase =>
      split_ifs at h with hwatching
      cases h
      exact .leave hrelay hphase (by simpa using hwatching)
    · cases h
  | close =>
    simp only [step] at h
    split at h
    · next resource rest hphase hresources => cases h; exact .close hphase hresources
    · cases h
  | done =>
    simp only [step] at h
    split at h
    · next hphase hresources => cases h; exact .done hphase hresources
    · cases h

/-! ## The script -/

variable (dumps upstream) in
/-- What a client that stays is sent. -/
def script : Upstream → List Message
  | .failed error =>
    [.start 502 [(encode "content-type", encode "application/json")],
      .body (errorBody dumps error) false]
  | .responded status headers chunks _ =>
    .start status (relayedHeaders headers) :: (chunks.map fun chunk => .body chunk true) ++
      [.body [] false]

variable (dumps upstream) in
/-- What the relay has still to send. -/
def Relay.remaining : Relay → List Message
  | opening => script dumps upstream
  | refusing error => script dumps (.failed error)
  | refusingBody error => [.body (errorBody dumps error) false]
  | starting status headers rest broken => script dumps (.responded status headers rest broken)
  | reading rest _ => (rest.map fun chunk => .body chunk true) ++ [.body [] false]
  | relaying chunk rest _ =>
    .body chunk true :: ((rest.map fun chunk => .body chunk true) ++ [.body [] false])
  | ending => [.body [] false]
  | finished _ => []

theorem Relay.remaining_message {relay : Relay} {message : Message}
    (h : relay.message dumps = some message) :
    relay.remaining dumps upstream = message :: relay.afterSend.remaining dumps upstream := by
  cases relay with
  | opening | reading | finished => cases h
  | refusing | refusingBody | starting | relaying | ending =>
    obtain rfl := Option.some.inj h
    rfl

@[simp] theorem State.goto_relay (x : State) (relay : Relay) : (x.goto relay).relay = relay := by
  cases relay <;> rfl

@[simp] theorem State.goto_sent (x : State) (relay : Relay) : (x.goto relay).sent = x.sent := by
  cases relay <;> rfl

variable (dumps upstream) in
/-- What was sent and what the relay has still to send make up the script, unless the
    relay was stopped; then a part of it was sent. -/
def Accounted (x : State) : Prop :=
  x.sent ++ x.relay.remaining dumps upstream = script dumps upstream ∨
    (x.relay = .finished .cancelled ∨ x.relay = .finished .raised) ∧
      x.sent <+: script dumps upstream

/-- A prefix of the script was sent. -/
theorem Accounted.scripted (h : Accounted dumps upstream x) : x.sent <+: script dumps upstream := by
  rcases h with h | ⟨-, h⟩
  · exact ⟨_, h⟩
  · exact h

/-- So it is with the message that the relay awaits, whether it has gone out or not. -/
theorem Accounted.record (h : Accounted dumps upstream x) (hrelay : ∀ how, x.relay ≠ .finished how)
    (delivered : Bool) : (x.record dumps delivered).sent <+: script dumps upstream := by
  rcases h with h | ⟨hstopped | hstopped, -⟩
  · cases hmessage : x.relay.message dumps with
    | none => cases delivered <;> exact ⟨_, by simpa [State.record, hmessage] using h⟩
    | some message =>
      rw [Relay.remaining_message hmessage] at h
      cases delivered with
      | true => exact ⟨_, by simpa [State.record, hmessage] using h⟩
      | false => exact ⟨_, by simpa [State.record] using h⟩
  · exact absurd hstopped (hrelay _)
  · exact absurd hstopped (hrelay _)

/-- A relay that awaits its message has not ended. -/
theorem Relay.live_of_message {relay : Relay} {message : Message}
    (h : relay.message dumps = some message) : ∀ how, relay ≠ .finished how := by
  rintro how rfl
  cases h

/-- A step keeps the account. -/
theorem accounted_step (hstep : Step dumps upstream x a y) (h : Accounted dumps upstream x) :
    Accounted dumps upstream y := by
  -- a relay that has not been stopped goes on with the rest of the script
  have live : ∀ {relay : Relay}, x.relay = relay → (∀ how, relay ≠ .finished how) →
      x.sent ++ relay.remaining dumps upstream = script dumps upstream := by
    rintro _ rfl hlive
    rcases h with h | ⟨hstopped | hstopped, -⟩
    · exact h
    · exact absurd hstopped (hlive _)
    · exact absurd hstopped (hlive _)
  cases hstep with
  | refuse hrelay hupstream | respond hrelay hupstream =>
    subst hupstream
    have hrest := live hrelay nofun
    exact .inl hrest
  | @sent message hmessage =>
    have hrest := live rfl (Relay.live_of_message hmessage)
    rw [Relay.remaining_message hmessage] at hrest
    refine .inl ?_
    rw [State.goto_sent, State.goto_relay, List.append_assoc]
    exact hrest
  | failed hmessage => exact .inr ⟨.inr rfl, h.record (Relay.live_of_message hmessage) _⟩
  | chunk hrelay | last hrelay =>
    have hrest := live hrelay nofun
    exact .inl hrest
  | cancel hrelay => exact .inr ⟨.inl rfl, h.record hrelay _⟩
  | other | complete | disconnect | unwatch | leave | close | done => exact h

/-- In every state reached. -/
theorem accounted {ok : State → Action → Prop} (h : (system dumps upstream).Reach ok x) :
    Accounted dumps upstream x := by
  refine h.invariant (I := Accounted dumps upstream) ?_ fun _ _ _ _ hx _ ht =>
    accounted_step (step_cases ht) hx
  rintro _ rfl
  exact .inl rfl

/-! ## Scope and stack -/

@[simp] theorem State.goto_phase (x : State) (relay : Relay) : (x.goto relay).phase = x.phase := by
  cases relay <;> rfl

@[simp] theorem State.goto_closes (x : State) (relay : Relay) :
    (x.goto relay).closes = x.closes := by
  cases relay <;> rfl

@[simp] theorem State.goto_resources (x : State) (relay : Relay) :
    (x.goto relay).resources = x.resources := by
  cases relay <;> rfl

@[simp] theorem State.goto_watching (x : State) (relay : Relay) :
    (x.goto relay).watching = x.watching := by
  cases relay <;> rfl

/-- The scope is cancelled when the relay ends. -/
theorem State.goto_cancelled {x : State} {relay : Relay} :
    (x.goto relay).cancelled = true ↔ x.cancelled = true ∨ ∃ how, relay = .finished how := by
  cases relay <;> simp [State.goto, State.finish]

/-- It goes on to another `await`, or returns. -/
theorem Relay.afterSend_ne_opening (relay : Relay) : relay.afterSend ≠ .opening := by
  cases relay <;> exact nofun

theorem Relay.afterSend_finished {relay : Relay} {how : Finish} (h : relay.afterSend = .finished how) :
    how = .returned := by
  cases relay <;> cases h <;> rfl

/-- How far `__call__` is. -/
structure Controlled (x : State) : Prop where
  cancelled : ∀ how, x.relay = .finished how → x.cancelled = true
  left : x.phase ≠ .running → (∃ how, x.relay = .finished how) ∧ x.watching = false
  closes : x.closes = if x.phase = .running then 0 else 1
  resources : x.resources <:+ [.response, .admission]
  held : x.phase = .running → .admission ∈ x.resources
  opening : x.relay = .opening → x.resources = [.admission]
  ended : x.phase = .ended → x.resources = []

/-- Until the relay has ended, `__call__` is in the task group. -/
theorem Controlled.running (h : Controlled x) (hrelay : ∀ how, x.relay ≠ .finished how) :
    x.phase = .running := by
  by_contra hphase
  obtain ⟨how, hfinished⟩ := (h.left hphase).1
  exact hrelay how hfinished

/-- A relay that moves on does so in the task group. -/
theorem Controlled.moved (h : Controlled x) (hrelay : ∀ how, x.relay ≠ .finished how)
    (hcancelled : ∀ how, y.relay = .finished how → y.cancelled = true)
    (hphase : y.phase = x.phase) (hcloses : y.closes = x.closes)
    (hresources : y.resources = x.resources) (hopening : y.relay ≠ .opening) : Controlled y where
  cancelled := hcancelled
  left hleft := absurd (hphase.trans (h.running hrelay)) hleft
  closes := by rw [hcloses, h.closes, hphase]
  resources := hresources ▸ h.resources
  held hrunning := hresources ▸ h.held (hphase ▸ hrunning)
  opening hopen := absurd hopen hopening
  ended hended := hresources ▸ h.ended (hphase ▸ hended)

theorem controlled_step (hstep : Step dumps upstream x a y) (h : Controlled x) : Controlled y := by
  cases hstep with
  | refuse hrelay =>
    exact h.moved (by rw [hrelay]; exact nofun) nofun rfl rfl rfl nofun
  | respond hrelay =>
    have hrunning := h.running (by rw [hrelay]; exact nofun)
    have honly := h.opening hrelay
    exact {
      cancelled := nofun
      left := fun hleft => absurd hrunning hleft
      closes := h.closes
      resources := ⟨[], by simp [honly]⟩
      held := fun _ => List.mem_cons_of_mem _ (h.held hrunning)
      opening := nofun
      ended := fun hended => absurd (hended.symm.trans hrunning) nofun }
  | sent hmessage =>
    refine h.moved (Relay.live_of_message hmessage) ?_ (by simp) (by simp) (by simp) ?_
    · intro how hfinished
      rw [State.goto_relay] at hfinished
      exact State.goto_cancelled.2 (.inr ⟨how, hfinished⟩)
    · rw [State.goto_relay]
      exact Relay.afterSend_ne_opening _
  | failed hmessage =>
    exact h.moved (Relay.live_of_message hmessage) (fun _ _ => rfl) rfl rfl rfl nofun
  | chunk hrelay | last hrelay =>
    exact h.moved (by rw [hrelay]; exact nofun) nofun rfl rfl rfl nofun
  | cancel hrelay =>
    exact h.moved hrelay (fun _ _ => rfl) rfl rfl rfl nofun
  | other => exact h
  | complete | unwatch =>
    exact ⟨h.cancelled, fun hleft => ⟨(h.left hleft).1, rfl⟩, h.closes, h.resources, h.held, h.opening,
      h.ended⟩
  | disconnect =>
    exact ⟨fun _ _ => rfl, fun hleft => ⟨(h.left hleft).1, rfl⟩, h.closes, h.resources, h.held,
      h.opening, h.ended⟩
  | @leave how hrelay hphase hwatching =>
    refine ⟨h.cancelled, fun _ => ⟨⟨how, hrelay⟩, hwatching⟩, ?_, h.resources, nofun, h.opening, nofun⟩
    have hcloses := h.closes
    rw [if_pos hphase] at hcloses
    rw [if_neg nofun]
    exact congrArg (· + 1) hcloses
  | close hphase hresources =>
    have hleft : x.phase ≠ .running := by rw [hphase]; exact nofun
    obtain ⟨⟨how, hrelay⟩, hwatching⟩ := h.left hleft
    refine ⟨h.cancelled, h.left, h.closes, ?_, fun hrunning => absurd hrunning hleft, ?_, ?_⟩
    · exact (List.suffix_cons _ _).trans (hresources ▸ h.resources)
    · exact fun hopen => absurd (hopen.symm.trans hrelay) nofun
    · exact fun hended => absurd (hphase.symm.trans hended) nofun
  | done hphase hresources =>
    have hleft : x.phase ≠ .running := by rw [hphase]; exact nofun
    refine ⟨h.cancelled, fun _ => h.left hleft, ?_, h.resources, nofun, h.opening, fun _ => hresources⟩
    have hcloses := h.closes
    rw [if_neg hleft] at hcloses
    rw [if_neg nofun]
    exact hcloses

/-- In every state reached. -/
theorem controlled {ok : State → Action → Prop} (h : (system dumps upstream).Reach ok x) :
    Controlled x := by
  refine h.invariant (I := Controlled) ?_ fun _ _ _ _ hx _ ht => controlled_step (step_cases ht) hx
  rintro _ rfl
  exact ⟨nofun, fun hleft => absurd rfl hleft, rfl, List.suffix_cons _ _, fun _ => by decide,
    fun _ => rfl, nofun⟩

/-! ## Clients that stay -/

/-- The client is not gone before the last message is about to be sent, and no message
    fails. -/
def undisturbed (x : State) (a : Action) : Prop :=
  (a = .receive true → x.finishing = true) ∧ ∀ delivered, a ≠ .failed delivered

/-- The relay is not stopped. -/
structure Calm (x : State) : Prop where
  cancelled : x.cancelled = true → ∃ how, x.relay = .finished how
  returned : ∀ how, x.relay = .finished how → how = .returned

theorem calm_step (hstep : Step dumps upstream x a y) (hok : undisturbed x a) (h : Calm x) :
    Calm y := by
  -- while the relay goes on, the scope is not cancelled
  have live : (∀ how, x.relay ≠ .finished how) → x.cancelled ≠ true := by
    intro hrelay hcancelled
    obtain ⟨how, hfinished⟩ := h.cancelled hcancelled
    exact hrelay how hfinished
  cases hstep with
  | refuse hrelay | respond hrelay | chunk hrelay | last hrelay =>
    have hnot := live (by rw [hrelay]; exact nofun)
    exact ⟨fun hcancelled => absurd hcancelled hnot, nofun⟩
  | sent hmessage =>
    have hnot := live (Relay.live_of_message hmessage)
    constructor
    · intro hcancelled
      rw [State.goto_relay]
      exact (State.goto_cancelled.1 hcancelled).resolve_left hnot
    · intro how hfinished
      rw [State.goto_relay] at hfinished
      exact Relay.afterSend_finished hfinished
  | failed => exact absurd rfl (hok.2 _)
  | cancel hrelay hcancelled => exact absurd hcancelled (live hrelay)
  | disconnect _ hfinishing =>
    rw [hok.1 rfl] at hfinishing
    cases hfinishing
  | other | complete | unwatch | leave | close | done => exact ⟨h.cancelled, h.returned⟩

/-- A client that stays is sent the whole script, once the relay has ended. -/
theorem completed (h : (system dumps upstream).Reach undisturbed x) {how : Finish}
    (hrelay : x.relay = .finished how) : x.sent = script dumps upstream := by
  have hcalm : Calm x := by
    refine h.invariant (I := Calm) ?_ fun _ _ _ _ hx hok ht => calm_step (step_cases ht) hok hx
    rintro _ rfl
    exact ⟨nofun, nofun⟩
  obtain rfl := hcalm.returned how hrelay
  rcases accounted h with haccount | ⟨hstopped | hstopped, -⟩
  · rw [hrelay, Relay.remaining, List.append_nil] at haccount
    exact haccount
  · exact absurd (hrelay.symm.trans hstopped) nofun
  · exact absurd (hrelay.symm.trans hstopped) nofun

/-! ## The end -/

variable (upstream) in
/-- The `await`s before the relay ends, at most. -/
def Relay.length : Relay → ℕ
  | opening => 2 * upstream.chunks.length + 6
  | refusing _ => 3
  | refusingBody _ => 2
  | starting _ _ rest _ => 2 * rest.length + 4
  | reading rest _ => 2 * rest.length + 3
  | relaying _ rest _ => 2 * rest.length + 4
  | ending => 2
  | finished _ => 1

/-- The steps of `__call__` after its task group, at most. -/
def Phase.length : Phase → ℕ
  | running => 2
  | closing => 1
  | ended => 0

variable (upstream) in
/-- The steps until the end, at most. -/
def distance (x : State) : ℕ :=
  x.relay.length upstream + (if x.watching then 1 else 0) + x.resources.length + x.phase.length

theorem Relay.length_afterSend {relay : Relay} {message : Message}
    (h : relay.message dumps = some message) :
    relay.afterSend.length upstream < relay.length upstream := by
  cases relay with
  | opening | reading | finished => cases h
  | refusing | refusingBody | starting | relaying | ending => simp [Relay.afterSend, Relay.length]

theorem Relay.one_lt_length {relay : Relay} (h : ∀ how, relay ≠ .finished how) :
    1 < relay.length upstream := by
  cases relay with
  | finished how => exact absurd rfl (h how)
  | opening | refusing | refusingBody | starting | reading | relaying | ending =>
    simp [Relay.length]

/-- Every step but a message of the client to the watcher brings the end nearer. -/
theorem step_lt (hstep : Step dumps upstream x a y) (ha : a ≠ .receive false) :
    distance upstream y < distance upstream x := by
  unfold distance
  cases hstep with
  | refuse hrelay => simp [hrelay, Relay.length]
  | respond hrelay hupstream =>
    subst hupstream
    simp only [hrelay, Relay.length, Upstream.chunks, List.length_cons]
    omega
  | sent hmessage =>
    have hlt := @Relay.length_afterSend dumps upstream _ _ hmessage
    simp only [State.goto_relay, State.goto_watching, State.goto_resources, State.goto_phase]
    omega
  | failed hmessage =>
    have hlt := @Relay.one_lt_length upstream _ (Relay.live_of_message hmessage)
    show 1 + (if x.watching then 1 else 0) + x.resources.length + x.phase.length < _
    omega
  | cancel hrelay =>
    have hlt := @Relay.one_lt_length upstream _ hrelay
    show 1 + (if x.watching then 1 else 0) + x.resources.length + x.phase.length < _
    omega
  | chunk hrelay =>
    simp only [hrelay, Relay.length, List.length_cons]
    omega
  | last hrelay => simp [hrelay, Relay.length]
  | other => exact absurd rfl ha
  | complete hwatching | disconnect hwatching | unwatch hwatching => simp [hwatching]
  | leave _ hphase => simp [hphase, Phase.length]
  | close _ hresources => simp [hresources]
  | done hphase => simp [hphase, Phase.length]

/-- Until the end there is such a step. -/
theorem exists_step (h : Controlled x) (hphase : x.phase ≠ .ended) :
    ∃ a y, a ≠ .receive false ∧ step dumps upstream x a = some y := by
  have moves : ∀ {a}, a ≠ .receive false → (step dumps upstream x a).isSome = true →
      ∃ a y, a ≠ .receive false ∧ step dumps upstream x a = some y := by
    intro a ha hsome
    obtain ⟨y, hy⟩ := Option.isSome_iff_exists.1 hsome
    exact ⟨a, y, ha, hy⟩
  cases hrelay : x.relay with
  | opening => exact @moves .opened nofun (by cases upstream <;> simp [step, hrelay])
  | reading rest broken => exact @moves .next nofun (by cases rest <;> simp [step, hrelay])
  | refusing | refusingBody | starting | relaying | ending =>
    exact @moves .sent nofun (by simp [step, hrelay, Relay.message])
  | finished how =>
    cases hwatching : x.watching with
    | true => exact @moves .unwatch nofun (by simp [step, hwatching, h.cancelled how hrelay])
    | false =>
      cases hcurrent : x.phase with
      | running => exact @moves .leave nofun (by simp [step, hrelay, hcurrent, hwatching])
      | closing =>
        cases hresources : x.resources with
        | nil => exact @moves .done nofun (by simp [step, hcurrent, hresources])
        | cons => exact @moves .close nofun (by simp [step, hcurrent, hresources])
      | ended => exact absurd hcurrent hphase

end Steps

end ModelBroker.ProxiedChat
