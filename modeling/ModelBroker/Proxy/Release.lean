import ModelBroker.Proxy.Chat
import ModelBroker.Scheduler.Actors
import ModelBroker.Scheduler.Order

/-!
# The end of an admission

`chat_completions` (`application.py`, lines 262–283) gives the proxied response the
admission of its request (`admit`, `scheduler.py`, lines 325–343) to close. The
scheduler goes on meanwhile: it is the environment of the response, and closing the
admission is its step of that request.

* `wellFormed_of_part`: what was sent, as a part of the script, is a well-formed
  response.
* `admission_held`: the request is admitted until its admission is closed, and
  released from then on.
* `proxied_well_formed`: in every run a well-formed response is sent and the
  admission is released once, and in every run that ends well the response is
  complete.
-/

namespace ModelBroker.ProxiedChat

open Python

/-! ## Well-formed responses -/

/-- What a client makes of the messages: one start, which comes first; the bodies are a
    part of the body upstream, or the error; and no message follows the last. -/
structure WellFormed (dumps : Json → List UInt8) (upstream : Upstream) (sent : List Message) :
    Prop where
  first : sent = [] ∨ ∃ status headers rest, sent = .start status headers :: rest ∧
    ∀ message ∈ rest, message.isStart = false
  bodies :
    match upstream with
    | .responded _ _ chunks _ => (sent.filterMap Message.body?).flatten <+: chunks.flatten
    | .failed error => (sent.filterMap Message.body?).flatten = [] ∨
        (sent.filterMap Message.body?).flatten = errorBody dumps error
  last : ∀ message ∈ sent.dropLast, message.isFinal = false

/-- The response is complete: the last message was sent, and before it every chunk. -/
def Complete (upstream : Upstream) (sent : List Message) : Prop :=
  ∃ before final, sent = before ++ [final] ∧ final.isFinal = true ∧
    before.filterMap Message.body? = upstream.chunks

variable {dumps : Json → List UInt8} {upstream : Upstream}

/-- The script begins with a start, and no other is in it. -/
theorem script_start : ∃ status headers rest, script dumps upstream = .start status headers :: rest ∧
    ∀ message ∈ rest, message.isStart = false := by
  cases upstream with
  | failed error => exact ⟨_, _, _, rfl, by simp [Message.isStart]⟩
  | responded status headers chunks broken =>
    refine ⟨status, relayedHeaders headers, _, rfl, fun message hmessage => ?_⟩
    rcases List.mem_append.1 hmessage with hmessage | hmessage
    · obtain ⟨chunk, -, rfl⟩ := List.mem_map.1 hmessage
      rfl
    · rw [List.mem_singleton.1 hmessage]
      rfl

theorem filterMap_chunks (chunks : List (List UInt8)) :
    (chunks.map fun chunk => Message.body chunk true).filterMap Message.body? = chunks := by
  rw [List.filterMap_map]
  exact List.filterMap_some

/-- The script ends with the only final message in it. -/
theorem script_complete : ∃ before final, script dumps upstream = before ++ [final] ∧
    final.isFinal = true ∧ (∀ message ∈ before, message.isFinal = false) ∧
    before.filterMap Message.body? = upstream.chunks := by
  cases upstream with
  | failed error => exact ⟨[_], _, rfl, rfl, by simp [Message.isFinal], rfl⟩
  | responded status headers chunks broken =>
    refine ⟨.start status (relayedHeaders headers) :: chunks.map fun chunk => .body chunk true, _, rfl,
      rfl, fun message hmessage => ?_, ?_⟩
    · rcases List.mem_cons.1 hmessage with rfl | hmessage
      · rfl
      · obtain ⟨chunk, -, rfl⟩ := List.mem_map.1 hmessage
        rfl
    · exact filterMap_chunks chunks

/-- A part of the script is well formed. -/
theorem wellFormed_of_part {sent : List Message} (h : sent <+: script dumps upstream) :
    WellFormed dumps upstream sent where
  first := by
    obtain ⟨status, headers, rest, hscript, hrest⟩ := @script_start dumps upstream
    cases sent with
    | nil => exact .inl rfl
    | cons message tail =>
      rw [hscript, List.cons_prefix_cons] at h
      obtain ⟨rfl, htail⟩ := h
      exact .inr ⟨status, headers, tail, rfl, fun message hmessage => hrest _ (htail.mem hmessage)⟩
  bodies := by
    have hbodies := h.filterMap Message.body?
    cases upstream with
    | failed error =>
      have hscript : (script dumps (.failed error)).filterMap Message.body? =
          [] ++ [errorBody dumps error] := rfl
      rw [hscript, List.prefix_concat_iff, List.prefix_nil] at hbodies
      rcases hbodies with hbodies | hbodies
      · exact .inr (by simp [hbodies])
      · exact .inl (by simp [hbodies])
    | responded status headers chunks broken =>
      have hscript : (script dumps (.responded status headers chunks broken)).filterMap
          Message.body? = chunks ++ [[]] := by
        show ((chunks.map fun chunk => Message.body chunk true) ++ [Message.body [] false]).filterMap
          Message.body? = _
        rw [List.filterMap_append, filterMap_chunks]
        rfl
      rw [hscript] at hbodies
      simpa using hbodies.flatten
  last := by
    obtain ⟨before, final, hscript, -, hbefore, -⟩ := @script_complete dumps upstream
    rw [hscript, List.prefix_concat_iff] at h
    rcases h with rfl | h
    · rw [List.dropLast_concat]
      exact hbefore
    · exact fun message hmessage => hbefore _ (h.mem (List.mem_of_mem_dropLast hmessage))

/-! ## The response and the scheduler -/

/-- The scheduler, for the response that holds the admission of request `p`: closing
    the admission goes on with that request, and everything else happens by itself. -/
def admission (cfg : Config) (p : ℕ) : Env State Action ModelBroker.State Act where
  react x a _ w :=
    match a, x.resources with
    | .close, .admission :: _ => (ModelBroker.step cfg w (.resume p)).getD w
    | _, _ => w
  move _ w b := if b.request? = some p then none else ModelBroker.step cfg w b

/-- The response together with the scheduler, from a state of the scheduler on. -/
def proxied (cfg : Config) (dumps : Json → List UInt8) (upstream : Upstream) (p : ℕ)
    (w : ModelBroker.State) : System (State × ModelBroker.State) (Action ⊕ Act) :=
  (system dumps upstream).under (admission cfg p) fun _ w' => w' = w

/-- The client stays until the last message, and no message fails. -/
def staying (x : State × ModelBroker.State) (c : Action ⊕ Act) : Prop :=
  c.elim (undisturbed x.1) fun _ => True

variable {cfg : Config} {p : ℕ} {w : ModelBroker.State} {model : Ref}
  {ok : State × ModelBroker.State → Action ⊕ Act → Prop} {x : State × ModelBroker.State}

/-- The response runs as it does alone. -/
theorem reach_program (h : (proxied cfg dumps upstream p w).Reach ok x) :
    (system dumps upstream).Free x.1 :=
  h.program fun _ _ _ => trivial

/-- The end of `admit`. -/
theorem resume_admitted (hp : w.requests[p]? = some (.admitted model)) :
    ModelBroker.step cfg w (.resume p) = some (release w p model .released) := by
  simp [ModelBroker.step, hp, resume]

/-- The request is admitted until its admission is closed, and released then. -/
def Held (p : ℕ) (model : Ref) (x : State) (w : ModelBroker.State) : Prop :=
  (.admission ∈ x.resources → w.requests[p]? = some (.admitted model)) ∧
    (.admission ∉ x.resources → w.requests[p]? = some (.finished .released))

/-- Steps of the response that do not close a resource leave the admission alone. -/
theorem held_of_mem {s t : State} (h : Held p model s w)
    (hmem : .admission ∈ t.resources ↔ .admission ∈ s.resources) : Held p model t w := by
  unfold Held
  rw [hmem]
  exact h

/-- Closing the admission releases it; no other step of the response concerns it. -/
theorem held_react {s t : State} {a : Action} (hs : Controlled s)
    (hstep : Step dumps upstream s a t) (h : Held p model s w) :
    Held p model t ((admission cfg p).react s a t w) := by
  cases hstep with
  | refuse | chunk | last | failed | cancel | other | complete | disconnect | unwatch | leave | done =>
    exact h
  | respond => exact held_of_mem h (by simp)
  | sent => exact held_of_mem h (by simp)
  | @close resource rest hphase hresources =>
    have hstack := hs.resources
    rw [hresources] at hstack
    cases resource with
    | response =>
      have hreact : (admission cfg p).react s .close { s with resources := rest } w = w := by
        simp [admission, hresources]
      rw [hreact]
      exact held_of_mem h (by simp [hresources])
    | admission =>
      have hadmitted : w.requests[p]? = some (.admitted model) := h.1 (by simp [hresources])
      have hreact : (admission cfg p).react s .close { s with resources := rest } w =
          release w p model .released := by
        simp [admission, hresources, resume_admitted hadmitted]
      have hrest : rest = [] := by
        rcases List.suffix_cons_iff.1 hstack with heq | hsuffix
        · cases heq
        · rcases List.suffix_cons_iff.1 hsuffix with heq | hsuffix
          · exact (List.cons.inj heq).2
          · cases List.suffix_nil.1 hsuffix
      subst hrest
      rw [hreact]
      refine ⟨nofun, fun _ => ?_⟩
      exact Table.get_set_self hadmitted

/-- In every state reached. -/
theorem admission_held (hp : w.requests[p]? = some (.admitted model))
    (h : (proxied cfg dumps upstream p w).Reach ok x) : Held p model x.1 x.2 := by
  refine h.environment ?_ ?_ ?_
  · rintro _ _ rfl rfl
    exact ⟨fun _ => hp, fun hnot => absurd (List.mem_singleton_self _) hnot⟩
  · intro s w a t hreach hheld _ hstep
    exact held_react (controlled (reach_program hreach)) (step_cases hstep) hheld
  · intro s w b w' _ hheld _ hmove
    unfold admission at hmove
    dsimp only at hmove
    split_ifs at hmove with hown
    exact ⟨fun hmem => step_others hmove hown (hheld.1 hmem),
      fun hmem => step_others hmove hown (hheld.2 hmem)⟩

/-! ## Whole responses -/

/-- A response that has ended normally is complete. -/
theorem complete_of_staying (h : (proxied cfg dumps upstream p w).Reach staying x)
    (hphase : x.1.phase = .ended) : Complete upstream x.1.sent := by
  have halone : (system dumps upstream).Reach undisturbed x.1 := h.program fun _ _ hok => hok
  have hleft : x.1.phase ≠ .running := by
    rw [hphase]
    exact nofun
  obtain ⟨⟨how, hrelay⟩, -⟩ := (controlled halone).left hleft
  obtain ⟨before, final, hscript, hfinal, -, hchunks⟩ := @script_complete dumps upstream
  exact ⟨before, final, (completed halone hrelay).trans hscript, hfinal, hchunks⟩

/-- For every outcome upstream and every run: a well-formed response is sent,
    `aclose` is called once at most, and once the response has ended it was called and
    the admission is released. The response can go on until it has ended, and every step
    but a message of the client to the watcher brings the end nearer. If the client stays
    until the last message and none fails, the response is complete at its end. -/
theorem proxied_well_formed (hp : w.requests[p]? = some (.admitted model)) :
    (∀ x, (proxied cfg dumps upstream p w).Free x →
      WellFormed dumps upstream x.1.sent ∧ x.1.closes ≤ 1 ∧
      (x.1.phase = .ended → x.1.closes = 1 ∧ x.2.requests[p]? = some (.finished .released)) ∧
      (x.1.phase ≠ .ended → ∃ a y, a ≠ .receive false ∧
        (proxied cfg dumps upstream p w).step x (.inl a) = some y) ∧
      ∀ a y, a ≠ .receive false → (proxied cfg dumps upstream p w).step x (.inl a) = some y →
        distance upstream y.1 < distance upstream x.1) ∧
    ∀ x, (proxied cfg dumps upstream p w).Reach staying x → x.1.phase = .ended →
      Complete upstream x.1.sent := by
  refine ⟨fun x h => ?_, fun x h => complete_of_staying h⟩
  have halone := reach_program h
  have hcontrolled := controlled halone
  have hcloses := hcontrolled.closes
  refine ⟨wellFormed_of_part (accounted halone).scripted, ?_, fun hphase => ⟨?_, ?_⟩,
    fun hphase => ?_, fun a y ha hy => ?_⟩
  · split_ifs at hcloses <;> omega
  · rwa [hphase, if_neg nofun] at hcloses
  · refine (admission_held hp h).2 ?_
    rw [hcontrolled.ended hphase]
    exact List.not_mem_nil
  · obtain ⟨a, y, ha, hy⟩ := @exists_step dumps upstream _ hcontrolled hphase
    exact ⟨a, _, ha, System.under_inl (y := (y, _)).2 ⟨hy, rfl⟩⟩
  · exact step_lt (step_cases (System.under_inl.1 hy).1) ha

/-- A response of two chunks. -/
def smallReply : Upstream :=
  .responded 200 [("Content-Type", "text/event-stream"), ("Date", "today")] [[1, 2], [3]] none

/-- A scheduler with one admitted request. -/
def oneAdmitted : ModelBroker.State := { blank 0 with requests := [.admitted 0] }

/-- No message fails, and the client sends nothing. -/
def quietly (c : Action ⊕ Act) : Bool :=
  match c with
  | .inl (.receive _) | .inl (.failed _) => false
  | _ => true

theorem staying_of_quietly {c : Action ⊕ Act} (h : quietly c = true) : staying x c := by
  rcases c with a | b
  · cases a with
    | receive | failed => cases h
    | opened | sent | next | cancel | unwatch | leave | close | done => exact ⟨nofun, nofun⟩
  · trivial

/-- It is relayed to a client that stays, and its admission is released. -/
theorem proxied_well_formed_smallReply :
    ∃ x, (proxied twoCards (fun _ => []) smallReply 0 oneAdmitted).Free x ∧ x.1.phase = .ended ∧
      x.1.closes = 1 ∧ x.2.requests[0]? = some (.finished .released) ∧
      Complete smallReply x.1.sent := by
  obtain ⟨x, hx, hended⟩ := @System.exists_reach _ _
    (proxied twoCards (fun _ => []) smallReply 0 oneAdmitted) (fun _ c => quietly c)
    ({}, oneAdmitted) ⟨rfl, rfl⟩
    [.inl .opened, .inl .sent, .inl .next, .inl .sent, .inl .next, .inl .sent, .inl .next, .inl .sent,
      .inl .unwatch, .inl .leave, .inl .close, .inl .close, .inl .done]
    (fun x => x.1.phase = .ended) (by decide +kernel)
  have hphase : x.1.phase = .ended := by simpa using hended
  have hstaying : (proxied twoCards (fun _ => []) smallReply 0 oneAdmitted).Reach staying x :=
    hx.mono fun _ _ hok => staying_of_quietly hok
  obtain ⟨hall, hstay⟩ := @proxied_well_formed (fun _ => []) smallReply twoCards 0 oneAdmitted 0 rfl
  obtain ⟨-, -, hend, -⟩ := hall x hx.free
  exact ⟨x, hx.free, hphase, (hend hphase).1, (hend hphase).2, hstay x hstaying hphase⟩

end ModelBroker.ProxiedChat
