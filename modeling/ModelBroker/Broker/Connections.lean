import ModelBroker.Broker.System

/-!
# Connections and their requests

What a connection of the broker and its call of `admit` have to do with each other, in
every run, for any number of connections and every interleaving.

* `Connection.Sound`: what each phase of a connection says about its request.
* `linked`: every connection is sound, and every request of the scheduler but that of
  `start()` is the call of exactly one connection.
-/

namespace ModelBroker.Broker

open Python
open ProxiedChat (Upstream admission Held)

variable {app : App} {codec : Codec} {x y : Server} {b : Action} {s t : State} {a : Act}
  {k : Connection} {p : ℕ}

/-! ## One connection -/

/-- The request can still be refused or admitted. -/
def Undecided (q : Request) : Prop := q ≠ .finished .released ∧ q ≠ .finished .cancelled

/-- What is known of a connection. -/
def Connection.Sound (app : App) (codec : Codec) (s : State) (k : Connection) : Prop :=
  match k.phase with
  | .received => k.asked = none
  | .admitting payload model => k.request.Asks app codec payload model ∧
      ∃ p q, k.asked = some p ∧ s.requests[p]? = some q ∧ q.About app.cfg s model ∧ Undecided q
  | .proxying payload model backend upstream chat => k.request.Asks app codec payload model ∧
      (ProxiedChat.system codec.dumps upstream).Free chat ∧
      ∃ p r, k.asked = some p ∧ Held p r chat s ∧ r < s.next ∧ (s.heap r).variant.id = model ∧
        (s.heap r).variant.backend = backend
  | .answered response =>
      (k.asked = none ∧ ∃ s', (scheduler app.cfg).Free s' ∧
        handle app codec s' k.request = .answered response) ∨
      ∃ payload model p outcome, k.request.Asks app codec payload model ∧ k.asked = some p ∧
        s.requests[p]? = some (.finished outcome) ∧
        outcome.Fits app.cfg s.heap s.next model ∧ refusal model outcome = some response
  | .raised => (k.asked = none ∧ ∃ s', handle app codec s' k.request = .raised) ∨
      ∃ payload model p, k.request.Asks app codec payload model ∧ k.asked = some p ∧
        s.requests[p]? = some (.finished .overflowError) ∧
        (app.cfg.catalogue.get model).isSome ∧ app.cfg.protectSeconds = ⊤
  | .cancelled => ∀ p, k.asked = some p → s.requests[p]? = some (.finished .cancelled) ∧
      ∃ payload model, k.request.Asks app codec payload model

/-- The step of the scheduler is not the connection's. -/
def Apart (s : State) (a : Act) (k : Connection) : Prop :=
  internal s a = true ∨ ∀ p, k.asked = some p → a.request? ≠ some p

/-- Steps that are not its connection's leave an admitted request alone. -/
theorem admitted_kept_apart {r : Ref} (h : ModelBroker.step app.cfg s a = some t) (ha : Apart s a k)
    (hk : k.asked = some p) (hp : s.requests[p]? = some (.admitted r)) :
    t.requests[p]? = some (.admitted r) := by
  by_cases hown : a.request? = some p
  · have hinternal : internal s a = true := ha.resolve_right fun hne => hne p hk hown
    cases a with
    | resume p' => cases hown; simp [internal, hp, isAdmitted] at hinternal
    | cancel p' => cases hinternal
    | props p' | states p' | activity p' =>
      cases hown
      simp [ModelBroker.step, hp] at h
    | tick | arrive | run | call | taskStates | taskActivity => cases hown
  · exact step_others h hown hp

/-- A request is not ended without its connection. -/
theorem undecided_apart {q q' : Request} (hrefs : Refs app.cfg s)
    (h : ModelBroker.step app.cfg s a = some t) (ha : Apart s a k) (hk : k.asked = some p)
    (hq : s.requests[p]? = some q) (hq' : t.requests[p]? = some q') (hun : Undecided q) :
    Undecided q' := by
  by_cases hown : a.request? = some p
  · have hinternal : internal s a = true := ha.resolve_right fun hne => hne p hk hown
    obtain ⟨q₁, hq₁, hgoes⟩ := goes hrefs h hown hq
    obtain rfl : q₁ = q' := by rw [hq'] at hq₁; exact (Option.some.inj hq₁).symm
    have other : (∀ outcome, q₁ ≠ .finished outcome) → Undecided q₁ := fun hne => ⟨hne _, hne _⟩
    cases hgoes with
    | ends hends =>
      cases hends with
      | @released p' r heq =>
        subst heq
        cases hown
        simp [internal, hq, isAdmitted] at hinternal
      | cancelled heq => rw [heq] at hinternal; cases hinternal
      | started | unknown | unfit | noTicket | busy | overflow | failed | joinFailed =>
        exact ⟨by simp, by simp⟩
    | look hid hv => exact other fun outcome heq => by rw [heq] at hv; cases hv
    | on hv hv' => exact other fun outcome heq => by rw [heq] at hv'; cases hv'
    | start | enter => exact other (by simp)
    | take hv heq =>
      rcases heq with rfl | rfl <;> exact other (by simp)
  · rw [step_others h hown hq] at hq'
    exact Option.some.inj hq' ▸ hun

/-- A connection stays sound in steps of the scheduler that are not its own. -/
theorem Connection.Sound.apart (hinv : Inv app.cfg s) (hqueue : Queue s) (hbounded : Bounded app.cfg s)
    (h : ModelBroker.step app.cfg s a = some t) (ha : Apart s a k) (hk : k.Sound app codec s) :
    k.Sound app codec t := by
  have hstep := ModelBroker.step_cases h
  unfold Connection.Sound at hk ⊢
  split
  · next hphase => rw [hphase] at hk; exact hk
  · next payload model hphase =>
    rw [hphase] at hk
    obtain ⟨hasks, p, q, hp, hq, habout, hun⟩ := hk
    obtain ⟨q', hq', habout'⟩ := about_step hinv hqueue hbounded h hq habout
    exact ⟨hasks, p, q', hp, hq', habout', undecided_apart hinv.refs h ha hp hq hq' hun⟩
  · next payload model backend upstream chat hphase =>
    rw [hphase] at hk
    obtain ⟨hasks, hfree, p, r, hp, hheld, hr, hid, hbackend⟩ := hk
    refine ⟨hasks, hfree, p, r, hp, ⟨fun hmem => ?_, fun hmem => ?_⟩,
      Nat.lt_of_lt_of_le hr (step_next_le hstep), ?_, ?_⟩
    · exact admitted_kept_apart h ha hp (hheld.1 hmem)
    · exact finished_kept h (hheld.2 hmem)
    · rw [step_variant hstep hr, hid]
    · rw [step_variant hstep hr, hbackend]
  · next response hphase =>
    rw [hphase] at hk
    refine hk.imp_right ?_
    rintro ⟨payload, model, p, outcome, hasks, hp, hq, hfits, hrefusal⟩
    exact ⟨payload, model, p, outcome, hasks, hp, finished_kept h hq,
      hfits.step hinv hstep, hrefusal⟩
  · next hphase =>
    rw [hphase] at hk
    refine hk.imp_right ?_
    rintro ⟨payload, model, p, hasks, hp, hq, hknown⟩
    exact ⟨payload, model, p, hasks, hp, finished_kept h hq, hknown⟩
  · next hphase =>
    rw [hphase] at hk
    exact fun p hp => ⟨finished_kept h (hk p hp).1, (hk p hp).2⟩

/-! ## The steps of a connection -/

/-- A refusal has an answer, unless no time to retry after can be given. -/
theorem refusal_isSome {model : String} {outcome : Outcome} (hun : Undecided (.finished outcome))
    (h : outcome.Fits app.cfg s.heap s.next model) :
    (∃ response, refusal model outcome = some response) ∨ outcome = .overflowError := by
  cases outcome with
  | unknownModel | routerUnfit | resourceBusy | loadFailed => exact .inl ⟨_, rfl⟩
  | overflowError => exact .inr rfl
  | released => exact absurd rfl hun.1
  | cancelled => exact absurd rfl hun.2
  | started | valueError => exact h.elim

theorem Connection.Sound.refuse {request : HttpRequest} {payload : Json} {model : String}
    {outcome : Outcome}
    (h : Connection.Sound app codec s ⟨request, some p, .admitting payload model⟩)
    (hp : s.requests[p]? = some (.finished outcome)) :
    Connection.Sound app codec s ⟨request, some p, (refusal model outcome).elim .raised .answered⟩ := by
  obtain ⟨hasks, _, q, hp', hq, habout, hun⟩ := h
  cases hp'
  rw [hp] at hq
  obtain rfl := Option.some.inj hq
  rcases refusal_isSome hun habout with ⟨response, hresponse⟩ | rfl
  · rw [hresponse]
    exact .inr ⟨payload, model, p, outcome, hasks, rfl, hp, habout, hresponse⟩
  · exact .inr ⟨payload, model, p, hasks, rfl, hp, habout⟩

theorem Connection.Sound.respond {request : HttpRequest} {payload : Json} {model : String} {r : Ref}
    (upstream : Upstream) (hrefs : Refs app.cfg s)
    (h : Connection.Sound app codec s ⟨request, some p, .admitting payload model⟩)
    (hp : s.requests[p]? = some (.admitted r)) :
    Connection.Sound app codec s ⟨request, some p,
      .proxying payload model (s.heap r).variant.backend upstream {}⟩ := by
  obtain ⟨hasks, _, q, hp', hq, habout, -⟩ := h
  cases hp'
  rw [hp] at hq
  obtain rfl := Option.some.inj hq
  refine ⟨hasks, .init rfl, p, r, rfl, ⟨fun _ => hp, fun hnot => ?_⟩, hrefs.admitted_lt hp, habout, rfl⟩
  exact absurd (List.mem_singleton_self _) hnot

/-- A cancelled request ends so. -/
theorem cancel_finished {q : Request} (hq : s.requests[p]? = some q) (h : cancel s p q = some t) :
    t.requests[p]? = some (.finished .cancelled) := by
  rw [cancel_requests h]
  exact Table.get_set_self hq

theorem Connection.Sound.cancel {request : HttpRequest} {payload : Json} {model : String}
    (h : Connection.Sound app codec s ⟨request, some p, .admitting payload model⟩)
    (ht : ModelBroker.step app.cfg s (.cancel p) = some t) :
    Connection.Sound app codec t ⟨request, some p, .cancelled⟩ := by
  obtain ⟨q, hq, hcancel⟩ := Option.bind_eq_some_iff.1 ht
  rintro _ ⟨⟩
  exact ⟨cancel_finished hq hcancel, payload, model, h.1⟩

theorem Connection.Sound.proxy {request : HttpRequest} {payload : Json} {model backend : String}
    {upstream : Upstream} {chat chat' : ProxiedChat.State} {a : ProxiedChat.Action}
    (h : Connection.Sound app codec s
      ⟨request, some p, .proxying payload model backend upstream chat⟩)
    (hchat : ProxiedChat.step codec.dumps upstream chat a = some chat') :
    Connection.Sound app codec ((admission app.cfg p).react chat a chat' s)
      ⟨request, some p, .proxying payload model backend upstream chat'⟩ := by
  obtain ⟨hasks, hfree, _, r, hp, hheld, hr, hid, hbackend⟩ := h
  cases hp
  have hheld' : Held p r chat' ((admission app.cfg p).react chat a chat' s) :=
    ProxiedChat.held_react (ProxiedChat.controlled hfree) (ProxiedChat.step_cases hchat) hheld
  refine ⟨hasks, .step hfree trivial hchat, p, r, rfl, hheld', ?_⟩
  rcases react_cases app p chat a chat' s with hsame | ⟨-, -, hs⟩
  · rw [hsame]
    exact ⟨hr, hid, hbackend⟩
  · have hstep := ModelBroker.step_cases hs
    rw [step_variant hstep hr]
    exact ⟨Nat.lt_of_lt_of_le hr (step_next_le hstep), hid, hbackend⟩

/-! ## All connections -/

/-- Connections and the requests of the scheduler: the first of these is `start()`'s, and
    each other is the call of one connection. -/
structure Linked (app : App) (codec : Codec) (x : Server) : Prop where
  sound : ∀ (c : ℕ) (k : Connection), x.connections[c]? = some k → k.Sound app codec x.scheduler
  asked : ∀ (c : ℕ) (k : Connection) (p : ℕ), x.connections[c]? = some k → k.asked = some p →
    0 < p ∧ p < x.scheduler.requests.length
  own : ∀ (c c' : ℕ) (k k' : Connection) (p : ℕ), x.connections[c]? = some k →
    x.connections[c']? = some k' → k.asked = some p → k'.asked = some p → c = c'
  called : ∀ p, 0 < p → p < x.scheduler.requests.length →
    ∃ (c : ℕ) (k : Connection), x.connections[c]? = some k ∧ k.asked = some p

/-- A connection goes on, and no request is added. -/
theorem Linked.update {c : ℕ} {k' : Connection} (h : Linked app codec x)
    (hlength : t.requests.length = x.scheduler.requests.length)
    (hc : x.connections[c]? = some k) (hasked : k'.asked = k.asked)
    (hothers : ∀ (c₁ : ℕ) (k₁ : Connection), c₁ ≠ c → x.connections[c₁]? = some k₁ →
      k₁.Sound app codec t)
    (hsound : k'.Sound app codec t) : Linked app codec ({ x with scheduler := t }.put c k') := by
  -- a connection that has asked had asked before
  have before : ∀ {c₁ : ℕ} {k₁ : Connection}, (x.connections.set c k')[c₁]? = some k₁ →
      ∃ k₀ : Connection, x.connections[c₁]? = some k₀ ∧ k₀.asked = k₁.asked := by
    intro c₁ k₁ hc₁
    rcases (Table.get_set hc).1 hc₁ with ⟨rfl, rfl⟩ | ⟨-, hc₁⟩
    · exact ⟨k, hc, hasked.symm⟩
    · exact ⟨k₁, hc₁, rfl⟩
  refine ⟨?_, ?_, ?_, ?_⟩
  · intro c₁ k₁ hc₁
    rcases (Table.get_set hc).1 hc₁ with ⟨-, rfl⟩ | ⟨hne, hc₁⟩
    · exact hsound
    · exact hothers c₁ k₁ hne hc₁
  · intro c₁ k₁ p hc₁ hp
    obtain ⟨k₀, hc₀, heq⟩ := before hc₁
    obtain ⟨hpos, hlt⟩ := h.asked c₁ k₀ p hc₀ (heq.trans hp)
    exact ⟨hpos, Nat.lt_of_lt_of_eq hlt hlength.symm⟩
  · intro c₁ c₂ k₁ k₂ p hc₁ hc₂ hp₁ hp₂
    obtain ⟨k₀, hc₀, heq⟩ := before hc₁
    obtain ⟨k₀', hc₀', heq'⟩ := before hc₂
    exact h.own c₁ c₂ k₀ k₀' p hc₀ hc₀' (heq.trans hp₁) (heq'.trans hp₂)
  · intro p hp hlt
    obtain ⟨c₁, k₁, hc₁, hk₁⟩ := h.called p hp (Nat.lt_of_lt_of_eq hlt hlength)
    by_cases hne : c₁ = c
    · subst hne
      rw [hc] at hc₁
      obtain rfl := Option.some.inj hc₁
      exact ⟨c₁, k', Table.get_set_self hc, hasked.trans hk₁⟩
    · exact ⟨c₁, k₁, (Table.get_set hc).2 (.inr ⟨hne, hc₁⟩), hk₁⟩

/-- A connection goes on by itself. -/
theorem Linked.put {c : ℕ} {k' : Connection} (h : Linked app codec x)
    (hc : x.connections[c]? = some k) (hasked : k'.asked = k.asked)
    (hsound : k'.Sound app codec x.scheduler) : Linked app codec (x.put c k') :=
  h.update rfl hc hasked (fun c₁ k₁ _ hc₁ => h.sound c₁ k₁ hc₁) hsound

section Moves

variable (h : Linked app codec x) (hinv : Inv app.cfg x.scheduler) (hqueue : Queue x.scheduler)
  (hbounded : Bounded app.cfg x.scheduler)
include h hinv hqueue hbounded

/-- The scheduler takes a step of the connection's request. -/
theorem Linked.move {c : ℕ} {k' : Connection}
    (ht : ModelBroker.step app.cfg x.scheduler a = some t) (ha : a.request? = some p)
    (hc : x.connections[c]? = some k) (hp : k.asked = some p) (hasked : k'.asked = k.asked)
    (hsound : k'.Sound app codec t) : Linked app codec ({ x with scheduler := t }.put c k') := by
  have hlength := requests_length_eq ht fun id heq => by rw [heq] at ha; cases ha
  refine h.update hlength hc hasked ?_ hsound
  intro c₁ k₁ hne hc₁
  refine (h.sound c₁ k₁ hc₁).apart hinv hqueue hbounded ht (.inr fun p₁ hp₁ heq => hne ?_)
  rw [ha] at heq
  obtain rfl := Option.some.inj heq
  exact h.own c₁ c k₁ k p hc₁ hc hp₁ hp

/-- The scheduler goes on by itself. -/
theorem Linked.schedule (ha : internal x.scheduler a = true)
    (ht : ModelBroker.step app.cfg x.scheduler a = some t) :
    Linked app codec { x with scheduler := t } := by
  have hlength := requests_length_eq ht fun id heq => by rw [heq] at ha; cases ha
  refine ⟨fun c k hc => (h.sound c k hc).apart hinv hqueue hbounded ht (.inl ha), ?_, h.own, ?_⟩
  · intro c k p hc hp
    exact ⟨(h.asked c k p hc hp).1, Nat.lt_of_lt_of_eq (h.asked c k p hc hp).2 hlength.symm⟩
  · intro p hp hlt
    exact h.called p hp (Nat.lt_of_lt_of_eq hlt hlength)

/-- A connection calls the scheduler. -/
theorem Linked.ask {c : ℕ} {request : HttpRequest} {asked : Option ℕ} {payload : Json}
    {model : String} (hpos : 0 < x.scheduler.requests.length)
    (hc : x.connections[c]? = some ⟨request, asked, .received⟩)
    (hasks : request.Asks app codec payload model)
    (ht : ModelBroker.step app.cfg x.scheduler (.arrive model) = some t) :
    Linked app codec ({ x with scheduler := t }.put c
      ⟨request, some x.scheduler.requests.length, .admitting payload model⟩) := by
  obtain rfl : asked = none := h.sound c _ hc
  have hrequests : t.requests = x.scheduler.requests ++ [.arrived model] := by
    rcases requests_length (ModelBroker.step_cases ht) with heq | ⟨id, heq, hrequests⟩
    · simp only [ModelBroker.step] at ht
      split_ifs at ht
      cases ht
      rfl
    · cases heq
      exact hrequests
  have hlength : t.requests.length = x.scheduler.requests.length + 1 := by simp [hrequests]
  -- the connections that have asked are others
  have old : ∀ {c₁ : ℕ} {k₁ : Connection} {p : ℕ}, x.connections[c₁]? = some k₁ →
      k₁.asked = some p → c₁ ≠ c ∧ p ≠ x.scheduler.requests.length := by
    intro c₁ k₁ p hc₁ hp
    refine ⟨fun heq => ?_, Nat.ne_of_lt (h.asked c₁ k₁ p hc₁ hp).2⟩
    subst heq
    rw [hc] at hc₁
    obtain rfl := Option.some.inj hc₁
    cases hp
  refine ⟨?_, ?_, ?_, ?_⟩
  · intro c₁ k₁ hc₁
    rcases (Table.get_set hc).1 hc₁ with ⟨-, rfl⟩ | ⟨-, hc₁⟩
    · refine ⟨hasks, _, .arrived model, rfl, ?_, rfl, by simp, by simp⟩
      show t.requests[_]? = _
      rw [hrequests]
      exact List.getElem?_concat_length
    · exact (h.sound c₁ k₁ hc₁).apart hinv hqueue hbounded ht (.inr fun _ _ heq => by cases heq)
  · intro c₁ k₁ p hc₁ hp
    show 0 < p ∧ p < t.requests.length
    rcases (Table.get_set hc).1 hc₁ with ⟨-, rfl⟩ | ⟨-, hc₁⟩
    · cases hp
      exact ⟨hpos, by omega⟩
    · obtain ⟨hpos, hlt⟩ := h.asked c₁ k₁ p hc₁ hp
      exact ⟨hpos, by omega⟩
  · intro c₁ c₂ k₁ k₂ p hc₁ hc₂ hp₁ hp₂
    rcases (Table.get_set hc).1 hc₁ with ⟨rfl, rfl⟩ | ⟨-, hold₁⟩ <;>
      rcases (Table.get_set hc).1 hc₂ with ⟨rfl, rfl⟩ | ⟨-, hold₂⟩
    · rfl
    · cases hp₁
      exact absurd rfl (old hold₂ hp₂).2
    · cases hp₂
      exact absurd rfl (old hold₁ hp₁).2
    · exact h.own c₁ c₂ k₁ k₂ p hold₁ hold₂ hp₁ hp₂
  · intro p hp hlt
    have hlt' : p < x.scheduler.requests.length + 1 := Nat.lt_of_lt_of_eq hlt hlength
    rcases Nat.lt_succ_iff_lt_or_eq.1 hlt' with hlt | rfl
    · obtain ⟨c₁, k₁, hc₁, hk₁⟩ := h.called p hp hlt
      exact ⟨c₁, k₁, (Table.get_set hc).2 (.inr ⟨(old hc₁ hk₁).1, hc₁⟩), hk₁⟩
    · exact ⟨c, _, Table.get_set_self hc, rfl⟩

end Moves

theorem linked_initial (h : (system app codec).init x) : Linked app codec x := by
  obtain ⟨⟨earlier, now, answer, -, hscheduler⟩, hconnections⟩ := h
  have hlength : x.scheduler.requests.length = 1 := by
    obtain ⟨pending, q, -, heq⟩ := initial_cases now (survey app.cfg earlier answer)
    rw [hscheduler, heq]
    exact List.length_set ..
  refine ⟨?_, ?_, ?_, ?_⟩
  · intro c k hc
    rw [hconnections] at hc
    cases hc
  · intro c k p hc
    rw [hconnections] at hc
    cases hc
  · intro c c' k k' p hc
    rw [hconnections] at hc
    cases hc
  · intro p hp hlt
    omega

theorem linked_step (hfree : (scheduler app.cfg).Free x.scheduler) (h : Linked app codec x)
    (hstep : Step app codec x b y) : Linked app codec y := by
  have hinv := inv hfree
  have hqueue := (ordered hfree).toQueue
  have hbounded := bounded hfree
  cases hstep with
  | accept hstarted =>
    refine ⟨?_, ?_, ?_, ?_⟩
    · intro c k hc
      rcases Table.get_push.1 hc with ⟨-, rfl⟩ | hc
      · rfl
      · exact h.sound c k hc
    · intro c k p hc hp
      rcases Table.get_push.1 hc with ⟨-, rfl⟩ | hc
      · cases hp
      · exact h.asked c k p hc hp
    · intro c c' k k' p hc hc' hp hp'
      rcases Table.get_push.1 hc with ⟨-, rfl⟩ | hc
      · cases hp
      · rcases Table.get_push.1 hc' with ⟨-, rfl⟩ | hc'
        · cases hp'
        · exact h.own c c' k k' p hc hc' hp hp'
    · intro p hp hlt
      obtain ⟨c, k, hc, hk⟩ := h.called p hp hlt
      exact ⟨c, k, Table.get_of_append hc, hk⟩
  | answer hc hanswer => exact h.put hc rfl (.inl ⟨h.sound _ _ hc, _, hfree, hanswer⟩)
  | raise hc hraised => exact h.put hc rfl (.inl ⟨h.sound _ _ hc, _, hraised⟩)
  | ask hc hadmit hs =>
    exact h.ask hinv hqueue hbounded (requests_pos hfree) hc (handle_eq_admitting.1 hadmit) hs
  | @respond c p request payload model r upstream hc hp =>
    exact h.put hc rfl ((h.sound _ _ hc).respond upstream hinv.refs hp)
  | refuse hc hp => exact h.put hc rfl ((h.sound _ _ hc).refuse hp)
  | drop hc =>
    refine h.put hc rfl fun p hp => ?_
    have hnone := h.sound _ _ hc
    rw [show Connection.asked _ = none from hnone] at hp
    cases hp
  | cancel hc hp hs => exact h.move hinv hqueue hbounded hs rfl hc rfl rfl ((h.sound _ _ hc).cancel hs)
  | @proxy c p a _ _ _ _ _ chat chat' hc hchat =>
    have hsound := (h.sound _ _ hc).proxy hchat
    rcases react_cases app p chat a chat' x.scheduler with hsame | ⟨-, -, hs⟩
    · rw [hsame] at hsound ⊢
      exact h.put hc rfl hsound
    · exact h.move hinv hqueue hbounded hs rfl hc rfl rfl hsound
  | schedule ha hs => exact h.schedule hinv hqueue hbounded ha hs

/-- In every run. -/
theorem linked {ok : Server → Action → Prop} (h : (system app codec).Reach ok x) :
    Linked app codec x := by
  refine h.invariant (fun _ h0 => linked_initial h0) ?_
  intro x b y hx hlinked _ hstep
  exact linked_step (free_scheduler hx) hlinked (step_cases hstep)

end ModelBroker.Broker
