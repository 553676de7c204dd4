import ModelBroker.Broker.Relaying
import ModelBroker.Lib.Keys

/-!
# The books of the broker

The counts of the scheduler's records and its queue, in terms of the connections.

* `books_agree`: in every run of the broker, whatever its clients and its servers do,
  `active` counts the connections that are admitted to a record, `queued` those that wait
  for it, and every ticket is a connection's. So nothing is counted once all connections
  are over.
-/

namespace ModelBroker.Broker

open Python

variable {app : App} {codec : Codec} {x : Server} {s : State} {k : Connection} {p : ℕ}

/-- The call of the connection is at a point with this property. -/
def Connection.isAt (s : State) (test : Request → Bool) (k : Connection) : Bool :=
  k.asked.any fun p => s.requests[p]?.any test

/-- The connection is over. -/
def Connection.over (k : Connection) : Bool :=
  match k.phase with
  | .received | .admitting _ _ => false
  | .proxying _ _ _ _ chat => decide (chat.phase = .ended)
  | .answered _ | .raised | .cancelled => true

/-- The request of a connection that is over has ended. -/
theorem Connection.Sound.over (h : k.Sound app codec s) (hover : k.over = true) (hp : k.asked = some p) :
    ∃ outcome, s.requests[p]? = some (.finished outcome) := by
  unfold Connection.Sound at h
  unfold Connection.over at hover
  split at h
  · next hphase => rw [hphase] at hover; cases hover
  · next hphase => rw [hphase] at hover; cases hover
  · next hphase =>
    rw [hphase] at hover
    obtain ⟨-, hfree, p', r, hp', hheld, -⟩ := h
    obtain rfl : p' = p := Option.some.inj (hp'.symm.trans hp)
    refine ⟨_, hheld.2 ?_⟩
    rw [(ProxiedChat.controlled hfree).ended (of_decide_eq_true hover)]
    exact List.not_mem_nil
  · rcases h with ⟨hnone, -⟩ | ⟨payload, model, p', outcome, -, hp', hq, -⟩
    · rw [hnone] at hp
      cases hp
    · obtain rfl : p' = p := Option.some.inj (hp'.symm.trans hp)
      exact ⟨outcome, hq⟩
  · rcases h with ⟨hnone, -⟩ | ⟨payload, model, p', -, hp', hq, -⟩
    · rw [hnone] at hp
      cases hp
    · obtain rfl : p' = p := Option.some.inj (hp'.symm.trans hp)
      exact ⟨_, hq⟩
  · exact ⟨_, (h p hp).1⟩

/-- A property that only calls of connections have is counted by connections. -/
theorem Linked.countP (h : Linked app codec x) (hfree : (scheduler app.cfg).Free x.scheduler)
    {test : Request → Bool} (hstart : ∀ q : Request, q.isStart = true → test q = false)
    (hfinished : ∀ outcome, test (.finished outcome) = false) :
    x.scheduler.requests.countP test =
      x.connections.countP (Connection.isAt x.scheduler test) := by
  refine Table.countP_of_key Connection.asked h.own ?_
  intro p q hq htest
  refine h.called p (Nat.pos_of_ne_zero ?_) (Table.lt_length hq)
  rintro rfl
  rcases first_start hfree hq with hfirst | ⟨outcome, rfl⟩
  · rw [hstart q hfirst] at htest
    cases htest
  · rw [hfinished outcome] at htest
    cases htest

/-- In every run of the broker: a record's `active` is the number of connections that are
    admitted to it, its `queued` the number of those that wait for its load, and every
    ticket is that of one connection's call. Once every connection is over, whatever
    became of it, nothing is active or queued and no ticket waits. -/
theorem books_agree (h : (system app codec).Free x) :
    (∀ r < x.scheduler.next,
      (x.scheduler.heap r).active =
        x.connections.countP (Connection.isAt x.scheduler (Request.admittedTo r)) ∧
      (x.scheduler.heap r).queued =
        x.connections.countP (Connection.isAt x.scheduler (Request.joins r))) ∧
    (∀ ticket ∈ x.scheduler.waiting, ∃ (c : ℕ) (k : Connection) (p : ℕ) (q : Request) (job : Job),
      x.connections[c]? = some k ∧ k.asked = some p ∧ x.scheduler.requests[p]? = some q ∧
      q.job? = some job ∧ job.ticket = ticket) ∧
    ((∀ (c : ℕ) (k : Connection), x.connections[c]? = some k → k.over = true) →
      x.scheduler.waiting = [] ∧
      ∀ r < x.scheduler.next,
        (x.scheduler.heap r).active = 0 ∧ (x.scheduler.heap r).queued = 0) := by
  have hlinked := linked h
  have hfree := free_scheduler h
  have hcounted := counted hfree
  have hcalled : ∀ ticket ∈ x.scheduler.waiting,
      ∃ (c : ℕ) (k : Connection) (p : ℕ) (q : Request) (job : Job),
        x.connections[c]? = some k ∧ k.asked = some p ∧ x.scheduler.requests[p]? = some q ∧
        q.job? = some job ∧ job.ticket = ticket := by
    intro ticket hticket
    obtain ⟨p, q, job, hq, hjob, hown⟩ := held hfree ticket hticket
    have hpos : 0 < p := by
      refine Nat.pos_of_ne_zero ?_
      rintro rfl
      rcases first_start hfree hq with hfirst | ⟨outcome, rfl⟩
      · obtain ⟨model, rest, rfl⟩ := isStart_cases hfirst
        cases hjob
      · cases hjob
    obtain ⟨c, k, hc, hk⟩ := hlinked.called p hpos (Table.lt_length hq)
    exact ⟨c, k, p, q, job, hc, hk, hq, hjob, hown⟩
  refine ⟨fun r hr => ⟨?_, ?_⟩, hcalled, fun hover => ⟨?_, fun r hr => ?_⟩⟩
  · rw [hcounted.active r hr]
    refine hlinked.countP hfree (fun q hq => ?_) fun outcome => rfl
    obtain ⟨model, rest, rfl⟩ := isStart_cases hq
    rfl
  · rw [hcounted.queued r hr]
    refine hlinked.countP hfree (fun q hq => ?_) fun outcome => rfl
    obtain ⟨model, rest, rfl⟩ := isStart_cases hq
    rfl
  · refine List.eq_nil_iff_forall_not_mem.2 fun ticket hticket => ?_
    obtain ⟨c, k, p, q, job, hc, hk, hq, hjob, -⟩ := hcalled ticket hticket
    obtain ⟨outcome, hended⟩ := (hlinked.sound c k hc).over (hover c k hc) hk
    rw [hq] at hended
    obtain rfl := Option.some.inj hended
    cases hjob
  · -- every request has ended, but for that of `start()`
    have hidle : ∀ (p : ℕ) (q : Request), x.scheduler.requests[p]? = some q →
        (∃ outcome, q = .finished outcome) ∨ ∃ model rest, q = .tracking none model rest := by
      intro p q hq
      rcases Nat.eq_zero_or_pos p with rfl | hpos
      · exact (first_start hfree hq).symm.imp_right isStart_cases
      · obtain ⟨c, k, hc, hk⟩ := hlinked.called p hpos (Table.lt_length hq)
        obtain ⟨outcome, hended⟩ := (hlinked.sound c k hc).over (hover c k hc) hk
        exact .inl ⟨outcome, Option.some.inj (hq.symm.trans hended)⟩
    refine (hcounted.unused hr).2 fun p => ⟨fun hp => ?_, fun hp => ?_⟩ <;>
      rcases hidle p _ hp with ⟨outcome, heq⟩ | ⟨model, rest, heq⟩ <;> cases heq

/-- One response is relayed, and two connections wait for another model. -/
def twoWaiting : List Action :=
  let chat := chatWith "test-key-for-vscode"
  [.schedule (.activity 0 (.ok idle)), .accept (chat [97]), .handle 0, .schedule (.resume 1),
    .schedule (.resume 1), .respond 0 ProxiedChat.smallReply, .accept (chat [98]),
    .accept (chat [98]), .handle 1, .handle 2, .schedule (.resume 2), .schedule (.resume 2),
    .schedule (.resume 2), .schedule (.resume 2), .schedule (.resume 3), .schedule (.resume 3)]

theorem books_agree_keyedBroker :
    ∃ x, (system keyedBroker namingCodec).Free x ∧
      x.connections.countP (Connection.isAt x.scheduler (Request.joins 1)) = 2 ∧
      (x.scheduler.heap 0).active = 1 ∧ (x.scheduler.heap 1).queued = 2 := by
  obtain ⟨x, hx, hP⟩ := @System.exists_reach _ _ (system keyedBroker namingCodec)
    (fun _ _ => true) (booting keyedBroker (reporting "loaded")) (init_booting ..) twoWaiting
    (fun x => decide (1 < x.scheduler.next) &&
      decide (x.connections.countP (Connection.isAt x.scheduler (Request.admittedTo 0)) = 1) &&
      decide (x.connections.countP (Connection.isAt x.scheduler (Request.joins 1)) = 2))
    (by decide +kernel)
  simp only [Bool.and_eq_true, decide_eq_true_eq] at hP
  obtain ⟨⟨hnext, hone⟩, htwo⟩ := hP
  obtain ⟨hcounts, -⟩ := books_agree hx.free
  refine ⟨x, hx.free, htwo, ?_, ?_⟩
  · rw [(hcounts 0 (Nat.zero_lt_of_lt hnext)).1, hone]
  · rw [(hcounts 1 hnext).2, htwo]

end ModelBroker.Broker
