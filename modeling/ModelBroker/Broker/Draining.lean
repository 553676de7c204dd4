import ModelBroker.Broker.Accounting
import ModelBroker.Scheduler.Draining

/-!
# Bringing the broker to rest

Whoever drives the broker chooses which connection, request or task goes on next and how
long to wait; the servers choose their answers, and clients whether they stay. No client
comes, and no task is cancelled.

* `chat_ends`: a response on its way can be brought to its end, which closes its
  admission.
* `turn_steers`: a turn of the scheduler is one of the broker, or the response of an
  admitted request is brought to its end.
* `broker_drains`: every connection can be brought to its end, and the scheduler to rest,
  if the maximum wait is finite and no answer of a server kills a swap.
-/

namespace ModelBroker.Broker

open Python
open ProxiedChat (Upstream admission Held)

variable {app : App} {codec : Codec} {x y : Server} {b : Action} {s t : State} {a : Act}
  {k : Connection} {c p : ℕ}

/-! ## Turns -/

/-- Whose turn it is. -/
inductive Turn where
  | scheduler (turn : ModelBroker.Turn)
  | connection (c : ℕ)

/-- The turn of an action. Clients that come, messages of clients that stay and
    cancellations have none. -/
def Action.turn? : Action → Option Turn
  | schedule a => a.turn?.map .scheduler
  | handle c | respond c _ | refuse c => some (.connection c)
  | proxy _ (.receive false) => none
  | proxy c _ => some (.connection c)
  | accept _ | abort _ => none

theorem turn?_proxy {a : ProxiedChat.Action} (ha : a ≠ .receive false) :
    (Action.proxy c a).turn? = some (.connection c) := by
  cases a with
  | receive disconnect =>
    cases disconnect with
    | true => rfl
    | false => exact absurd rfl ha
  | opened | sent | failed | next | cancel | unwatch | leave | close | done => rfl

/-- The actions of a connection's turn. -/
theorem Action.of_turn (h : b.turn? = some (.connection c)) :
    b = .handle c ∨ (∃ upstream, b = .respond c upstream) ∨ b = .refuse c ∨
      ∃ a, b = .proxy c a ∧ a ≠ .receive false := by
  cases b with
  | schedule a =>
    obtain ⟨turn, -, heq⟩ := Option.map_eq_some_iff.1 h
    cases heq
  | handle c' => cases h; exact .inl rfl
  | respond c' upstream => cases h; exact .inr (.inl ⟨upstream, rfl⟩)
  | refuse c' => cases h; exact .inr (.inr (.inl rfl))
  | proxy c' a =>
    have hne : a ≠ .receive false := by
      rintro rfl
      cases h
    rw [turn?_proxy hne] at h
    cases h
    exact .inr (.inr (.inr ⟨a, rfl, hne⟩))
  | accept | abort => cases h

/-- The condition of a run in which no swap dies and no `track` is cancelled early. -/
abbrev orderly (app : App) (codec : Codec) : Server → Action → Prop :=
  lifted app codec fun s a => finishing s a = true

/-- A state of such a run. -/
abbrev Orderly (app : App) (codec : Codec) (x : Server) : Prop :=
  (system app codec).Reach (orderly app codec) x

/-- Choosing turns well brings the broker to the goal. -/
abbrev Steers (app : App) (codec : Codec) (Q : Server → Prop) (x : Server) : Prop :=
  (system app codec).Forces Action.turn? (orderly app codec) Q x

/-- A turn of a connection kills no swap and abandons nothing. -/
theorem orderly_of_turn (h : b.turn? = some (.connection c)) : orderly app codec x b := by
  intro a ha
  rcases Action.of_turn h with rfl | ⟨upstream, rfl⟩ | rfl | ⟨a', rfl, -⟩
  · simp only [act?] at ha
    split at ha
    · split at ha
      · cases ha; rfl
      · cases ha
    · cases ha
  · cases ha
  · cases ha
  · cases a' with
    | close =>
      simp only [act?] at ha
      split at ha
      · split_ifs at ha
        cases ha
        rfl
      · cases ha
    | opened | sent | failed | next | cancel | receive | unwatch | leave | done => cases ha

/-- A turn of a connection that has an action, and leads to the goal with each. -/
theorem steers_turn {Q : Server → Prop} (hcan : ∃ b y, b.turn? = some (.connection c) ∧
      step app codec x b = some y)
    (h : ∀ b y, b.turn? = some (.connection c) → orderly app codec x b →
      step app codec x b = some y → Steers app codec Q y) : Steers app codec Q x := by
  obtain ⟨b, y, hb, hstep⟩ := hcan
  exact .take (.connection c) ⟨b, y, hb, orderly_of_turn hb, hstep⟩ h

/-! ## Responses -/

/-- What has become of the scheduler while a response went on: its request is released
    if the admission was closed. -/
def Closed (app : App) (p : ℕ) (s t : State) (before after : ProxiedChat.State) : Prop :=
  (.admission ∈ before.resources ∧ .admission ∉ after.resources ∧
      ModelBroker.step app.cfg s (.resume p) = some t) ∨
    (.admission ∈ after.resources ↔ .admission ∈ before.resources) ∧ t = s

theorem Closed.trans {u : State} {chat₁ chat₂ chat₃ : ProxiedChat.State}
    (h : Closed app p s t chat₁ chat₂) (h' : Closed app p t u chat₂ chat₃) :
    Closed app p s u chat₁ chat₃ := by
  rcases h with ⟨hbefore, hafter, hs⟩ | ⟨hmem, rfl⟩
  · rcases h' with ⟨hmem, -⟩ | ⟨hmem, rfl⟩
    · exact absurd hmem hafter
    · exact .inl ⟨hbefore, fun h => hafter (hmem.1 h), hs⟩
  · unfold Closed at h' ⊢
    rwa [hmem] at h'

/-- A step of a response closes the admission, or leaves the scheduler alone. -/
theorem closed_react {dumps : Json → List UInt8} {upstream : Upstream}
    {chat chat' : ProxiedChat.State} {a : ProxiedChat.Action} {r : Ref}
    (hcontrolled : ProxiedChat.Controlled chat) (hheld : Held p r chat s)
    (h : ProxiedChat.Step dumps upstream chat a chat') :
    Closed app p s ((admission app.cfg p).react chat a chat' s) chat chat' := by
  cases h with
  | refuse | failed | chunk | last | cancel | other | complete | disconnect | unwatch | leave
  | done => exact .inr ⟨.rfl, rfl⟩
  | respond | sent => exact .inr ⟨by simp, rfl⟩
  | @close resource rest hphase hresources =>
    have hstack := hcontrolled.resources
    rw [hresources] at hstack
    cases resource with
    | response => exact .inr ⟨by simp [hresources], by simp [admission, hresources]⟩
    | admission =>
      have hrest : rest = [] := by
        rcases List.suffix_cons_iff.1 hstack with heq | hsuffix
        · cases heq
        · rcases List.suffix_cons_iff.1 hsuffix with heq | hsuffix
          · exact (List.cons.inj heq).2
          · cases List.suffix_nil.1 hsuffix
      have hs := @ProxiedChat.resume_admitted app.cfg _ _ _ (hheld.1 (by simp [hresources]))
      refine .inl ⟨by simp [hresources], by simp [hrest], ?_⟩
      simp only [admission, hresources, hs, Option.getD_some]

section Responses

variable {request : HttpRequest} {payload : Json} {model backend : String} {upstream : Upstream}
  {chat chat' : ProxiedChat.State}

theorem step_proxy {a : ProxiedChat.Action}
    (hc : x.connections[c]? = some ⟨request, some p, .proxying payload model backend upstream chat⟩)
    (h : ProxiedChat.step codec.dumps upstream chat a = some chat') :
    step app codec x (.proxy c a) =
      some ({ x with scheduler := (admission app.cfg p).react chat a chat' x.scheduler }.put c
        ⟨request, some p, .proxying payload model backend upstream chat'⟩) := by
  simp [step, hc, h]

/-- The actions in the turn of a connection that is proxying. -/
theorem proxying_turn
    (hc : x.connections[c]? = some ⟨request, some p, .proxying payload model backend upstream chat⟩)
    (hb : b.turn? = some (.connection c)) (h : Step app codec x b y) :
    ∃ a chat', a ≠ .receive false ∧ ProxiedChat.step codec.dumps upstream chat a = some chat' ∧
      y = { x with scheduler := (admission app.cfg p).react chat a chat' x.scheduler }.put c
        ⟨request, some p, .proxying payload model backend upstream chat'⟩ := by
  rcases Action.of_turn hb with rfl | ⟨upstream', rfl⟩ | rfl | ⟨a, rfl, ha⟩
  · cases h with
    | answer hc' | raise hc' | ask hc' => rw [hc] at hc'; cases hc'
  · cases h with
    | respond hc' => rw [hc] at hc'; cases hc'
  · cases h with
    | refuse hc' => rw [hc] at hc'; cases hc'
  · cases h with
    | proxy hc' hchat =>
      rw [hc] at hc'
      cases hc'
      exact ⟨a, _, ha, hchat, rfl⟩

/-- The steps of a response that are left. -/
def Server.left (x : Server) (c : ℕ) : ℕ :=
  match x.connections[c]? with
  | some ⟨_, _, .proxying _ _ _ upstream chat⟩ => ProxiedChat.distance upstream chat
  | _ => 0

/-- A response can be brought to its end. -/
theorem chat_ends (h : Orderly app codec x)
    (hc : x.connections[c]? = some ⟨request, some p, .proxying payload model backend upstream chat⟩) :
    Steers app codec (fun y => Orderly app codec y ∧ ∃ chat',
      y.connections = x.connections.set c
        ⟨request, some p, .proxying payload model backend upstream chat'⟩ ∧
      Closed app p x.scheduler y.scheduler chat chat' ∧ chat'.phase = .ended ∧
      .admission ∉ chat'.resources) x := by
  refine System.Forces.of_measure (fun y => y.left c)
    (P := fun y => Orderly app codec y ∧ ∃ chat',
      y.connections = x.connections.set c
        ⟨request, some p, .proxying payload model backend upstream chat'⟩ ∧
      Closed app p x.scheduler y.scheduler chat chat') ?_
    ⟨h, chat, (Table.set_self hc).symm, .inr ⟨.rfl, rfl⟩⟩
  rintro y ⟨hy, chat₁, hconnections, hclosed⟩
  have hc₁ : y.connections[c]? =
      some ⟨request, some p, .proxying payload model backend upstream chat₁⟩ := by
    rw [hconnections]
    exact Table.get_set_self hc
  obtain ⟨-, hfree, p', r, hp', hheld, -⟩ := (linked hy).sound c _ hc₁
  obtain rfl := Option.some.inj hp'
  have hcontrolled := ProxiedChat.controlled hfree
  by_cases hended : chat₁.phase = .ended
  · refine .goal (.inl ⟨hy, chat₁, hconnections, hclosed, hended, ?_⟩)
    rw [hcontrolled.ended hended]
    exact List.not_mem_nil
  · refine steers_turn (c := c) ?_ fun b z hb hok hstep => .goal (.inr ?_)
    · obtain ⟨a, chat₂, ha, hchat⟩ :=
        @ProxiedChat.exists_step codec.dumps upstream _ hcontrolled hended
      exact ⟨.proxy c a, _, turn?_proxy ha, step_proxy hc₁ hchat⟩
    · obtain ⟨a, chat₂, ha, hchat, rfl⟩ := proxying_turn hc₁ hb (step_cases hstep)
      have hreact : Closed app p y.scheduler _ chat₁ chat₂ :=
        closed_react hcontrolled hheld (ProxiedChat.step_cases hchat)
      refine ⟨⟨.step hy hok hstep, chat₂, ?_, hclosed.trans hreact⟩, ?_⟩
      · show y.connections.set c _ = _
        rw [hconnections, List.set_set]
      · have hget : (y.connections.set c
            ⟨request, some p, .proxying payload model backend upstream chat₂⟩)[c]? = _ :=
          Table.get_set_self hc₁
        simp only [Server.left, Server.put, hget, hc₁]
        exact ProxiedChat.step_lt (ProxiedChat.step_cases hchat) ha

end Responses

/-! ## Connections -/

/-- The actions in the turn of a connection whose request is with the scheduler. -/
theorem admitting_turn {request : HttpRequest} {payload : Json} {model : String}
    (hc : x.connections[c]? = some ⟨request, some p, .admitting payload model⟩)
    (hb : b.turn? = some (.connection c)) (h : Step app codec x b y) :
    (∃ r upstream, x.scheduler.requests[p]? = some (.admitted r) ∧
      y = x.put c ⟨request, some p,
        .proxying payload model (x.scheduler.heap r).variant.backend upstream {}⟩) ∨
    ∃ outcome, x.scheduler.requests[p]? = some (.finished outcome) ∧
      y = x.put c ⟨request, some p, (refusal model outcome).elim .raised .answered⟩ := by
  rcases Action.of_turn hb with rfl | ⟨upstream', rfl⟩ | rfl | ⟨a, rfl, ha⟩
  · cases h with
    | answer hc' | raise hc' | ask hc' => rw [hc] at hc'; cases hc'
  · cases h with
    | respond hc' hp =>
      rw [hc] at hc'
      cases hc'
      exact .inl ⟨_, _, hp, rfl⟩
  · cases h with
    | refuse hc' hp =>
      rw [hc] at hc'
      cases hc'
      exact .inr ⟨_, hp, rfl⟩
  · cases h with
    | proxy hc' => rw [hc] at hc'; cases hc'

/-- A refused request can be answered. -/
theorem refused_ends {request : HttpRequest} {payload : Json} {model : String} {outcome : Outcome}
    (h : Orderly app codec x)
    (hc : x.connections[c]? = some ⟨request, some p, .admitting payload model⟩)
    (hp : x.scheduler.requests[p]? = some (.finished outcome)) :
    Steers app codec (fun y => Orderly app codec y ∧ y.scheduler = x.scheduler ∧
      ∃ k, y.connections = x.connections.set c k ∧ k.over = true) x := by
  refine steers_turn (c := c) ⟨.refuse c, _, rfl, by simp only [step, hc, hp]; rfl⟩ ?_
  intro b y hb hok hstep
  rcases admitting_turn hc hb (step_cases hstep) with ⟨r, upstream, hp', -⟩ | ⟨outcome', -, rfl⟩
  · rw [hp] at hp'
    cases hp'
  · refine .goal ⟨.step h hok hstep, rfl, _, rfl, ?_⟩
    cases refusal model outcome' <;> rfl

/-- The response of an admitted request can be brought to its end, which releases it. -/
theorem admitted_ends {r : Ref} (h : Orderly app codec x) (hc : x.connections[c]? = some k)
    (hk : k.asked = some p) (hp : x.scheduler.requests[p]? = some (.admitted r)) :
    Steers app codec (fun y => Orderly app codec y ∧
      ModelBroker.step app.cfg x.scheduler (.resume p) = some y.scheduler ∧
      ∃ k, y.connections = x.connections.set c k ∧ k.over = true) x := by
  -- a response that has ended has closed its admission
  have closes : ∀ {t : State} {chat chat' : ProxiedChat.State},
      Closed app p x.scheduler t chat chat' → .admission ∈ chat.resources →
      .admission ∉ chat'.resources →
      ModelBroker.step app.cfg x.scheduler (.resume p) = some t := by
    intro t chat chat' hclosed hbefore hafter
    rcases hclosed with ⟨-, -, hs⟩ | ⟨hmem, -⟩
    · exact hs
    · exact absurd (hmem.2 hbefore) hafter
  have hsound := (linked h).sound c k hc
  obtain ⟨request, asked, phase⟩ := k
  obtain rfl : asked = some p := hk
  cases phase with
  | received => cases hsound
  | admitting payload model =>
    refine steers_turn (c := c)
      ⟨.respond c (.failed ""), _, rfl, by simp only [step, hc, hp]; rfl⟩ ?_
    intro b y hb hok hstep
    rcases admitting_turn hc hb (step_cases hstep) with ⟨r', upstream, -, rfl⟩ | ⟨outcome, hp', -⟩
    · refine (chat_ends (.step h hok hstep) (Table.get_set_self hc)).mono ?_
      rintro z ⟨hz, chat', hconnections, hclosed, hended, hafter⟩
      refine ⟨hz, closes hclosed (List.mem_singleton_self _) hafter,
        ⟨request, some p,
          .proxying payload model (x.scheduler.heap r').variant.backend upstream chat'⟩,
        ?_, decide_eq_true hended⟩
      rw [hconnections]
      exact List.set_set ..
    · rw [hp] at hp'
      cases hp'
  | proxying payload model backend upstream chat =>
    obtain ⟨-, -, p', r', hp', hheld, -⟩ := hsound
    cases hp'
    refine (chat_ends h hc).mono ?_
    rintro z ⟨hz, chat', hconnections, hclosed, hended, hafter⟩
    refine ⟨hz, closes hclosed ?_ hafter, _, hconnections, decide_eq_true hended⟩
    by_contra hnot
    have hreleased := hheld.2 hnot
    rw [hp] at hreleased
    cases hreleased
  | answered response =>
    rcases hsound with ⟨hnone, -⟩ | ⟨_, _, p', outcome, -, hp', hq, -⟩
    · cases hnone
    · cases hp'
      rw [hp] at hq
      cases hq
  | raised =>
    rcases hsound with ⟨hnone, -⟩ | ⟨_, _, p', -, hp', hq, -⟩
    · cases hnone
    · cases hp'
      rw [hp] at hq
      cases hq
  | cancelled =>
    have hq := (hsound p rfl).1
    rw [hp] at hq
    cases hq

/-- The connection's handler has not begun. -/
def Connection.fresh (k : Connection) : Bool :=
  match k.phase with
  | .received => true
  | _ => false

theorem Connection.fresh_of_over (h : k.over = true) : k.fresh = false := by
  unfold Connection.over at h
  unfold Connection.fresh
  split at h <;> simp_all

/-- A connection's handler can be begun. -/
theorem handled (h : Orderly app codec x) (hstarted : x.scheduler.started = true)
    (hc : x.connections[c]? = some k) (hk : k.fresh = true) :
    Steers app codec (fun y => Orderly app codec y ∧
      ∃ k', y.connections = x.connections.set c k' ∧ k'.fresh = false) x := by
  obtain ⟨request, asked, phase⟩ := k
  obtain rfl : phase = .received := by cases phase <;> first | rfl | cases hk
  refine steers_turn (c := c) ?_ ?_
  · cases hhandle : handle app codec x.scheduler request with
    | answered | raised => exact ⟨.handle c, _, rfl, by simp only [step, hc, hhandle]; rfl⟩
    | admitting payload model =>
      have harrive : ModelBroker.step app.cfg x.scheduler (.arrive model) = some _ := if_pos hstarted
      exact ⟨.handle c, _, rfl, by simp only [step, hc, hhandle, harrive]; rfl⟩
  · intro b y hb hok hstep
    have hy : Orderly app codec y := .step h hok hstep
    rcases Action.of_turn hb with rfl | ⟨upstream, rfl⟩ | rfl | ⟨a, rfl, -⟩
    · cases step_cases hstep with
      | answer | raise | ask =>
        exact .goal ⟨hy, _, rfl, rfl⟩
    · cases step_cases hstep with
      | respond hc' => rw [hc] at hc'; cases hc'
    · cases step_cases hstep with
      | refuse hc' => rw [hc] at hc'; cases hc'
    · cases step_cases hstep with
      | proxy hc' => rw [hc] at hc'; cases hc'

/-! ## The whole broker -/

/-- Clients come once the scheduler has started. -/
theorem started {ok : Server → Action → Prop} (h : (system app codec).Reach ok x)
    (hsome : x.connections ≠ []) : x.scheduler.started = true := by
  revert hsome
  refine h.invariant (I := fun x => x.connections ≠ [] → x.scheduler.started = true) ?_ ?_
  · rintro x ⟨-, hnone⟩ hsome
    exact absurd hnone hsome
  · intro x b y hx hstarted _ hstep _
    have hstep' := step_cases hstep
    have hbefore : x.scheduler.started = true ∨ y.connections = x.connections := by
      cases hstep' with
      | accept h => exact .inl h
      | schedule => exact .inr rfl
      | answer hc | raise hc | ask hc | respond hc | refuse hc | drop hc | cancel hc | proxy hc =>
        exact .inl (hstarted (List.ne_nil_of_mem (List.mem_of_getElem? hc)))
    have hbefore : x.scheduler.started = true := by
      rcases hbefore with hbefore | hsame
      · exact hbefore
      · exact hstarted (hsame ▸ ‹_›)
    rcases scheduler_step hstep' with hsame | ⟨a, -, hs⟩
    · rwa [hsame]
    · exact started_kept (inv (free_scheduler hx)).refs hs hbefore

/-- Every handler has begun. -/
def Begun (x : Server) : Prop :=
  ∀ (c : ℕ) (k : Connection), x.connections[c]? = some k → k.fresh = false

/-- All handlers can be begun. -/
theorem all_handled (h : Orderly app codec x) :
    Steers app codec (fun y => Orderly app codec y ∧ Begun y) x := by
  refine System.Forces.of_measure (fun y => y.connections.countP Connection.fresh)
    (P := Orderly app codec) ?_ h
  intro y hy
  by_cases hzero : y.connections.countP Connection.fresh = 0
  · exact .goal (.inl ⟨hy, Table.countP_eq_zero.1 hzero⟩)
  · obtain ⟨k, hmem, hk⟩ := List.countP_pos_iff.1 (Nat.pos_of_ne_zero hzero)
    obtain ⟨c, hc⟩ := List.mem_iff_getElem?.1 hmem
    refine (handled hy (started hy (List.ne_nil_of_mem hmem)) hc hk).mono ?_
    rintro z ⟨hz, k', hconnections, hk'⟩
    refine .inr ⟨hz, ?_⟩
    have hcount := @Table.countP_set _ Connection.fresh _ c _ k' hc
    rw [← hconnections, hk, hk'] at hcount
    simp only [if_true, Bool.false_eq_true, if_false] at hcount
    omega

/-- An action of the scheduler's turn. -/
theorem Action.of_scheduler {turn : ModelBroker.Turn} (h : b.turn? = some (.scheduler turn)) :
    ∃ a, b = .schedule a ∧ a.turn? = some turn := by
  cases b with
  | schedule a =>
    obtain ⟨turn', ha, heq⟩ := Option.map_eq_some_iff.1 h
    cases heq
    exact ⟨a, rfl, ha⟩
  | proxy c a =>
    cases a with
    | receive disconnect => cases disconnect <;> cases h
    | opened | sent | failed | next | cancel | unwatch | leave | close | done => cases h
  | accept | handle | respond | refuse | abort => cases h

/-- The broker has the scheduler in this state, and every handler has begun. -/
def At (app : App) (codec : Codec) (x : Server) (s : State) : Prop :=
  Orderly app codec x ∧ x.scheduler = s ∧ Begun x

/-- A turn of the scheduler is one of the broker, or the response of an admitted request
    is brought to its end. -/
theorem turn_steers {turn : ModelBroker.Turn} (h : At app codec x s)
    (hcan : ∃ a t, a.turn? = some turn ∧ finishing s a = true ∧
      ModelBroker.step app.cfg s a = some t) :
    Steers app codec (fun y => ∃ a t, a.turn? = some turn ∧ finishing s a = true ∧
      ModelBroker.step app.cfg s a = some t ∧ At app codec y t) x := by
  obtain ⟨hx, rfl, hbegun⟩ := h
  have hlinked := linked hx
  by_cases hadmitted : ∃ p r, turn = .request p ∧ x.scheduler.requests[p]? = some (.admitted r)
  · obtain ⟨p, r, rfl, hp⟩ := hadmitted
    have hpos : 0 < p := by
      refine Nat.pos_of_ne_zero ?_
      rintro rfl
      rcases first_start (free_scheduler hx) hp with hstart | ⟨outcome, heq⟩
      · cases hstart
      · cases heq
    obtain ⟨c, k, hc, hk⟩ := hlinked.called p hpos (Table.lt_length hp)
    refine (admitted_ends hx hc hk hp).mono ?_
    rintro y ⟨hy, hs, k', hconnections, hover⟩
    refine ⟨.resume p, _, rfl, rfl, hs, hy, rfl, fun c' k₁ hc' => ?_⟩
    rw [hconnections] at hc'
    exact Table.forall_set (P := fun _ (k : Connection) => k.fresh = false) hc hbegun
      (Connection.fresh_of_over hover) c' k₁ hc'
  · -- no action of the turn is a connection's
    have hinternal : ∀ a : Act, a.turn? = some turn → internal x.scheduler a = true := by
      intro a ha
      cases a with
      | resume p =>
        simp only [internal, Bool.not_eq_true', Bool.eq_false_iff]
        intro hany
        obtain ⟨q, hq, hq'⟩ := (Option.any_eq_true ..).1 hany
        cases q with
        | admitted r => exact hadmitted ⟨p, r, (Option.some.inj ha).symm, hq⟩
        | arrived | checkLock | surveying | tracking | checked | looping | placeLock | judging
        | observing | blocked | waiting | joining | finished => cases hq'
      | arrive | cancel => cases ha
      | tick | props | states | activity | run | call | taskStates | taskActivity => rfl
    obtain ⟨a, t, ha, hok, hs⟩ := hcan
    have hstep : step app codec x (.schedule a) = some { x with scheduler := t } := by
      simp [step, hinternal a ha, hs]
    refine .take (.scheduler turn) ⟨.schedule a, _, ?_, ?_, hstep⟩ ?_
    · simp [Action.turn?, ha]
    · rintro _ ⟨⟩
      exact hok
    · intro b y hb hok hstep
      obtain ⟨a, rfl, ha⟩ := Action.of_scheduler hb
      have hy : Orderly app codec y := .step hx hok hstep
      have hcases : Step app codec x (.schedule a) y := step_cases hstep
      cases hcases with
      | schedule _ hs => exact .goal ⟨a, _, ha, hok a rfl, hs, hy, rfl, hbegun⟩

/-- The scheduler can be brought to rest in the broker. -/
theorem scheduler_rests (hfinite : app.cfg.maxWaitSeconds ≠ ⊤) (h : Orderly app codec x)
    (hbegun : Begun x) :
    Steers app codec (fun y => ∃ s, At app codec y s ∧ AtRest s) x := by
  have hrest : Leads app.cfg AtRest x.scheduler :=
    (leads_lockFree hfinite (reach_scheduler h)).bind fun _ ht => leads_atRest hfinite ht.1 ht.2
  exact hrest.simulate (fun _ _ _ hy hcan => turn_steers hy hcan) ⟨h, rfl, hbegun⟩

/-- With the scheduler at rest, a connection can be brought to its end. -/
theorem over_ends (h : Orderly app codec x) (hbegun : Begun x) (hrest : AtRest x.scheduler)
    (hc : x.connections[c]? = some k) (hk : k.over = false) :
    Steers app codec (fun y => Orderly app codec y ∧ y.scheduler = x.scheduler ∧
      ∃ k, y.connections = x.connections.set c k ∧ k.over = true) x := by
  have hsound := (linked h).sound c k hc
  obtain ⟨request, asked, phase⟩ := k
  cases phase with
  | received => cases hbegun c _ hc
  | admitting payload model =>
    obtain ⟨-, p, q, rfl, hq, -⟩ := hsound
    obtain ⟨outcome, rfl⟩ := hrest.requests p q hq
    exact refused_ends h hc hq
  | proxying payload model backend upstream chat =>
    obtain ⟨-, -, p, r, rfl, hheld, -⟩ := hsound
    refine (chat_ends h hc).mono ?_
    rintro y ⟨hy, chat', hconnections, hclosed, hended, -⟩
    refine ⟨hy, ?_, ⟨_, hconnections, decide_eq_true hended⟩⟩
    rcases hclosed with ⟨hbefore, -⟩ | ⟨-, hsame⟩
    · obtain ⟨outcome, heq⟩ := hrest.requests p _ (hheld.1 hbefore)
      cases heq
    · exact hsame
  | answered | raised | cancelled => cases hk

/-- With the scheduler at rest, all connections can be brought to their end. -/
theorem connections_end (h : Orderly app codec x) (hbegun : Begun x) (hrest : AtRest x.scheduler) :
    Steers app codec (fun y => AtRest y.scheduler ∧
      ∀ (c : ℕ) (k : Connection), y.connections[c]? = some k → k.over = true) x := by
  refine System.Forces.of_measure (fun y => y.connections.countP fun k => !k.over)
    (P := fun y => Orderly app codec y ∧ Begun y ∧ AtRest y.scheduler) ?_ ⟨h, hbegun, hrest⟩
  rintro y ⟨hy, hbegun, hrest⟩
  by_cases hzero : (y.connections.countP fun k => !k.over) = 0
  · refine .goal (.inl ⟨hrest, fun c k hc => ?_⟩)
    simpa using Table.countP_eq_zero.1 hzero c k hc
  · obtain ⟨k, hmem, hk⟩ := List.countP_pos_iff.1 (Nat.pos_of_ne_zero hzero)
    obtain ⟨c, hc⟩ := List.mem_iff_getElem?.1 hmem
    have hover : k.over = false := by simpa using hk
    refine (over_ends hy hbegun hrest hc hover).mono ?_
    rintro z ⟨hz, hs, k', hconnections, hk'⟩
    refine .inr ⟨⟨hz, fun c' k₁ hc' => ?_, hs ▸ hrest⟩, ?_⟩
    · rw [hconnections] at hc'
      exact Table.forall_set (P := fun _ (k : Connection) => k.fresh = false) hc hbegun
        (Connection.fresh_of_over hk') c' k₁ hc'
    · have hcount := @Table.countP_set _ (fun k : Connection => !k.over) _ c _ k' hc
      rw [← hconnections, hk', hover] at hcount
      simp only [Bool.not_true, Bool.not_false, if_true, Bool.false_eq_true, if_false] at hcount
      omega

/-- From every state of a run of the broker in which no swap dies and no `track` is
    cancelled early, choosing who goes on next, and how long to wait (at any point, also
    where the code does not suspend), brings every connection to its end and the scheduler
    to rest without a new client or a cancellation, if the maximum wait is finite, whatever
    the model servers answer short of killing a swap. Clients need not read their answers to the end for it. -/
theorem broker_drains (hfinite : app.cfg.maxWaitSeconds ≠ ⊤) (h : Orderly app codec x) :
    Steers app codec (fun y => AtRest y.scheduler ∧
      ∀ (c : ℕ) (k : Connection), y.connections[c]? = some k → k.over = true) x := by
  refine (all_handled h).bind ?_
  rintro y ⟨hy, hbegun⟩
  refine (scheduler_rests hfinite hy hbegun).bind ?_
  rintro z ⟨s, ⟨hz, rfl, hbegun'⟩, hrest⟩
  exact connections_end hz hbegun' hrest

/-- A test that no swap dies and no `track` is cancelled early. -/
def orderlyStep (app : App) (codec : Codec) (x : Server) (b : Action) : Bool :=
  (act? app codec x b).all fun a => finishing x.scheduler a

theorem orderly_of_step (h : orderlyStep app codec x b = true) : orderly app codec x b := by
  intro a ha
  simpa [orderlyStep, ha] using h

/-- One response is relayed, two connections wait for another model's load, and one has
    just been accepted; they all come to their end. -/
theorem broker_drains_keyedBroker :
    ∃ x y, Orderly keyedBroker namingCodec x ∧ (x.scheduler.heap 0).active = 1 ∧
      (x.scheduler.heap 1).queued = 2 ∧ x.connections.countP Connection.fresh = 1 ∧
      ((system keyedBroker namingCodec).startingIn fun x' => x' = x).Reach
        (fun x b => orderly keyedBroker namingCodec x b ∧ b.turn? ≠ none) y ∧
      AtRest y.scheduler ∧ ∀ (c : ℕ) (k : Connection), y.connections[c]? = some k → k.over = true := by
  obtain ⟨x, hx, hP⟩ := @System.exists_reach _ _ (system keyedBroker namingCodec)
    (orderlyStep keyedBroker namingCodec) (booting keyedBroker (reporting "loaded"))
    (init_booting ..) (twoWaiting ++ [.accept (chatWith "test-key-for-vscode" [98])])
    (fun x => decide ((x.scheduler.heap 0).active = 1) &&
      decide ((x.scheduler.heap 1).queued = 2) &&
      decide (x.connections.countP Connection.fresh = 1)) (by decide +kernel)
  simp only [Bool.and_eq_true, decide_eq_true_eq] at hP
  have horderly : Orderly keyedBroker namingCodec x := hx.mono fun _ _ => orderly_of_step
  obtain ⟨y, hy, hrest, hover⟩ := (broker_drains (by decide) horderly).exists_reach
  exact ⟨x, y, horderly, hP.1.1, hP.1.2, hP.2, hy, hrest, hover⟩

end ModelBroker.Broker
