import DetectorLink.Link.Socket
import DetectorLink.Proofs.Link.Arrivals

/-!
# The client of a listener

Accepting changes nothing but which client is served. While a client stays connected, a wait for its
bytes is a wait of the receive buffer, and the client is served on.
-/

namespace DetectorLink

namespace Socket

variable {k : Socket}

/-! ### Accepting -/

/-- The client that the next operation serves. -/
def peer? (k : Socket) : Option Client := k.accept.1.toOption

/-- A client is served already; or an attempt to accept one is used up, and it brings none or the
first one that has connected. -/
theorem accept_cases (k : Socket) :
    (∃ client, k.client? = some client ∧ k.accept = (.ok client, k)) ∨
    k.client? = none ∧ let k' : Socket := { k with accepts := k.accepts.tail }
      (∃ e, k.accept = (.error e, k')) ∨
      ∃ t client backlog, k.backlog = (t, client) :: backlog ∧ t ≤ k.clock ∧
        k.accepts.next.1 = none ∧
        k.accept = (.ok client, { k' with backlog, client? := some client }) := by
  unfold accept arrived? Schedule.next
  cases hclient : k.client? with
  | some client => exact .inl ⟨client, rfl, rfl⟩
  | none =>
    refine .inr ⟨rfl, ?_⟩
    dsimp only
    cases hfault : k.accepts.head?.join with
    | some e => exact .inl ⟨_, rfl⟩
    | none =>
      cases hbacklog : k.backlog with
      | nil => exact .inl ⟨_, rfl⟩
      | cons first backlog =>
        obtain ⟨t, client⟩ := first
        by_cases ht : t ≤ k.clock
        · refine .inr ⟨t, client, backlog, rfl, ht, rfl, ?_⟩
          simp only [ht, ite_true]
        · refine .inl ⟨.notConnected, ?_⟩
          simp only [ht, ite_false]

theorem accept_of_arrived {t : Nat} {client : Client} {backlog : List (Nat × Client)}
    (hnone : k.client? = none) (hbacklog : k.backlog = (t, client) :: backlog) (ht : t ≤ k.clock)
    (hfault : k.accepts.next.1 = none) :
    k.accept = (.ok client,
      { k with accepts := k.accepts.tail, backlog, client? := some client }) := by
  simp only [Schedule.next] at hfault
  simp only [accept, arrived?, Schedule.next, hnone, hfault, hbacklog, ht, ite_true]

/-- The client that is served is so already, or is the first one that has connected. -/
theorem peer?_eq_some_iff {client : Client} :
    k.peer? = some client ↔ k.client? = some client ∨
      k.client? = none ∧ k.accepts.next.1 = none ∧
        ∃ t backlog, k.backlog = (t, client) :: backlog ∧ t ≤ k.clock := by
  rw [peer?]
  rcases k.accept_cases with ⟨c, hc, hk⟩ | ⟨hnone, ⟨e, hk⟩ | ⟨t, c, backlog, hb, ht, hf, hk⟩⟩
  · rw [hk, hc]
    exact ⟨.inl, fun h ↦ h.elim id fun h ↦ nomatch h.1⟩
  · rw [hk]
    refine ⟨nofun, ?_⟩
    rintro (h | ⟨-, hf, t, backlog, hb, ht⟩)
    · exact nomatch hnone.symm.trans h
    · exact nomatch (accept_of_arrived hnone hb ht hf).symm.trans hk
  · rw [hk]
    constructor
    · rintro ⟨⟩
      exact .inr ⟨hnone, hf, t, backlog, hb, ht⟩
    · rintro (h | ⟨-, -, t', backlog', hb', -⟩)
      · exact nomatch hnone.symm.trans h
      · cases hb.symm.trans hb'
        rfl

@[simp] theorem buffer_accept (k : Socket) : k.accept.2.buffer = k.buffer := by
  rcases k.accept_cases with ⟨_, -, hk⟩ | ⟨-, ⟨_, hk⟩ | ⟨_, _, _, -, -, -, hk⟩⟩ <;> rw [hk]

@[simp] theorem enabled_accept (k : Socket) : k.accept.2.enabled = k.enabled := by
  rcases k.accept_cases with ⟨_, -, hk⟩ | ⟨-, ⟨_, hk⟩ | ⟨_, _, _, -, -, -, hk⟩⟩ <;> rw [hk]

@[simp] theorem clock_accept (k : Socket) : k.accept.2.clock = k.clock := by
  rcases k.accept_cases with ⟨_, -, hk⟩ | ⟨-, ⟨_, hk⟩ | ⟨_, _, _, -, -, -, hk⟩⟩ <;> rw [hk]

/-- Let bytes of the client arrive at a time. -/
def feed (k : Socket) (time : Nat) (data : Bytes) : Socket :=
  let send (client : Client) := { client with incoming := client.incoming.feed time data }
  match k.client?, k.backlog with
  | some client, _ => { k with client? := some (send client) }
  | none, (t, client) :: rest => { k with backlog := (t, send client) :: rest }
  | none, [] => k

@[simp] theorem buffer_feed (k : Socket) (time : Nat) (data : Bytes) :
    (k.feed time data).buffer = k.buffer := by
  unfold feed
  split <;> rfl

@[simp] theorem enabled_feed (k : Socket) (time : Nat) (data : Bytes) :
    (k.feed time data).enabled = k.enabled := by
  unfold feed
  split <;> rfl

/-- What arrives does not depend on the time now. -/
theorem feed_clock (k : Socket) (clock time : Nat) (data : Bytes) :
    ({ k with clock } : Socket).feed time data = { k.feed time data with clock } := by
  unfold feed
  dsimp only
  split <;> rfl

theorem peer?_feed {client : Client} (h : k.peer? = some client) (time : Nat) (data : Bytes) :
    (k.feed time data).peer? =
      some { client with incoming := client.incoming.feed time data } := by
  rw [peer?_eq_some_iff] at h ⊢
  rcases h with hc | ⟨hnone, hfault, t, backlog, hbacklog, ht⟩
  · simp only [feed, hc, true_or]
  · simp only [feed, hnone, hbacklog]
    exact .inr ⟨trivial, hfault, t, backlog, rfl, ht⟩

/-- Which client is served does not depend on the buffer. -/
@[simp] theorem peer?_buffer (k : Socket) (buffer : Bytes) :
    ({ k with buffer } : Socket).peer? = k.peer? :=
  Option.ext fun _ ↦
    (peer?_eq_some_iff (k := { k with buffer })).trans (peer?_eq_some_iff (k := k)).symm

/-- A client that has connected stays so. -/
theorem peer?_later {client : Client} (h : k.peer? = some client) {clock : Nat}
    (hle : k.clock ≤ clock) : ({ k with clock } : Socket).peer? = some client := by
  rw [peer?_eq_some_iff] at h ⊢
  rcases h with hc | ⟨hnone, hfault, t, backlog, hbacklog, ht⟩
  · exact .inl hc
  · exact .inr ⟨hnone, hfault, t, backlog, hbacklog, Nat.le_trans ht hle⟩

/-! ### Waiting -/

/-- A wait for the bytes of a client that stays connected is a wait of the buffer. -/
theorem exec_wait_of_peer {client : Client} (hon : k.enabled = true) (h : k.peer? = some client)
    (hstays : client.incoming.Stays) (timeout : Option Nat) :
    let i : Intake := ⟨.connection, k.buffer, client.incoming, k.clock⟩
    let deadline := timeout.map (k.clock + ·)
    (wait timeout).exec k =
      ((i.wait capacity deadline).1,
        { k.accept.2 with
          buffer := (i.wait capacity deadline).2.buffer
          clock := (i.wait capacity deadline).2.clock
          client? := some
            { client with incoming := (i.wait capacity deadline).2.stream } }) := by
  intro i deadline
  have hconnect : (connect deadline).exec k = (.ok client, k.accept.2) := by
    rw [peer?] at h
    simp only [connect, LinkM.exec_ofFun, connectRounds]
    generalize k.accept = r at h
    obtain ⟨e | c, k'⟩ := r <;> cases h
    rfl
  have hwait : (wait timeout).exec k = (receive deadline client).exec k.accept.2 := by
    unfold wait
    rw [LinkM.exec_bind_ok _ (show (LinkM.read : SocketM Socket).exec k = (.ok k, k) from rfl),
      hon, ite_cond_eq_true _ _ (eq_true rfl), LinkM.exec_bind_ok _ hconnect]
  have hanswer := (Intake.wait_of_stays (i := i) (by decide : alignment ≤ capacity) deadline
    hstays).1
  have hi : Intake.mk .connection k.accept.2.buffer client.incoming k.accept.2.clock = i := by
    rw [buffer_accept, clock_accept]
  rw [hwait]
  simp only [receive, LinkM.exec_ofFun, hi]
  generalize i.wait capacity deadline = r at hanswer ⊢
  obtain ⟨answer, j⟩ := r
  rcases hanswer with ⟨data, hdata⟩ | htimeout
  · obtain rfl : answer = .ok data := hdata
    rfl
  · obtain rfl : answer = .error .timeout := htimeout
    rfl

/-! ### One client after the other -/

/-- All clients, in the order in which they are served. -/
def clients (k : Socket) : List Client :=
  k.gone.reverse ++ k.client?.toList ++ k.backlog.map Prod.snd

@[simp] theorem gone_accept (k : Socket) : k.accept.2.gone = k.gone := by
  rcases k.accept_cases with ⟨_, -, hk⟩ | ⟨-, ⟨_, hk⟩ | ⟨_, _, _, -, -, -, hk⟩⟩ <;> rw [hk]

@[simp] theorem clients_accept (k : Socket) : k.accept.2.clients = k.clients := by
  rcases k.accept_cases with ⟨_, -, hk⟩ | ⟨hnone, ⟨_, hk⟩ | ⟨t, c, rest, hbacklog, -, -, hk⟩⟩ <;>
    rw [hk]
  · rfl
  · simp only [clients, hnone, hbacklog, Option.toList_some, Option.toList_none, List.map_cons,
      List.append_nil, List.append_assoc, List.singleton_append]

theorem clients_dropClient (k : Socket) : k.dropClient.clients = k.clients := by
  simp only [dropClient, clients]
  cases k.client? <;> simp

/-- A listener serves the same clients, none of them has gone, and its buffer and its reception are
the same. -/
structure Beside (k k' : Socket) : Prop where
  clients : k'.clients = k.clients
  gone : k'.gone = k.gone
  buffer : k'.buffer = k.buffer
  enabled : k'.enabled = k.enabled

theorem Beside.trans {k' k'' : Socket} (h : Beside k k') (h' : Beside k' k'') : Beside k k'' :=
  ⟨h'.clients.trans h.clients, h'.gone.trans h.gone, h'.buffer.trans h.buffer,
    h'.enabled.trans h.enabled⟩

theorem beside_accept (k : Socket) : Beside k k.accept.2 :=
  ⟨k.clients_accept, k.gone_accept, k.buffer_accept, k.enabled_accept⟩

theorem client?_accept {client : Client} (h : k.accept.1 = .ok client) :
    k.accept.2.client? = some client := by
  rcases k.accept_cases with ⟨c, hc, hk⟩ | ⟨-, ⟨_, hk⟩ | ⟨_, _, _, -, -, -, hk⟩⟩ <;>
    rw [hk] at h ⊢ <;> cases h
  · exact hc
  · rfl

theorem beside_awaitClient (k : Socket) (deadline : Option Nat) :
    Beside k (k.awaitClient deadline).2 := by
  unfold awaitClient
  dsimp only
  split
  · exact ⟨rfl, rfl, rfl, rfl⟩
  · split <;> exact ⟨rfl, rfl, rfl, rfl⟩

/-- Rounds of waiting for a client fail, or one is served. -/
theorem connectRounds_cases (deadline : Option Nat) (rounds : Nat) (k : Socket) :
    ∃ r k', connectRounds deadline rounds k = (r, k') ∧ Beside k k' ∧
      ∀ client, r = .ok client → k'.client? = some client := by
  induction rounds generalizing k with
  | zero => exact ⟨_, k, rfl, ⟨rfl, rfl, rfl, rfl⟩, nofun⟩
  | succ rounds ih =>
    have haccept := k.beside_accept
    have hserved := @client?_accept k
    unfold connectRounds
    generalize k.accept = r at haccept hserved ⊢
    obtain ⟨answer, k₁⟩ := r
    dsimp only at haccept hserved ⊢
    split
    · next k₂ he =>
      obtain ⟨rfl, rfl⟩ := Prod.mk.inj he
      have hawait := k₁.beside_awaitClient deadline
      generalize k₁.awaitClient deadline = w at hawait ⊢
      obtain ⟨e | ⟨⟩, k₃⟩ := w
      · exact ⟨_, k₃, rfl, haccept.trans hawait, nofun⟩
      · obtain ⟨r, k', hexec, hk', hr⟩ := ih k₃
        exact ⟨r, k', hexec, haccept.trans (hawait.trans hk'), hr⟩
    · exact ⟨answer, k₁, rfl, haccept, fun client hc ↦ hserved hc⟩

/-- Waiting for a client fails, or one is served. -/
theorem connect_cases (k : Socket) (deadline : Option Nat) :
    ∃ r k', (connect deadline).exec k = (r, k') ∧ Beside k k' ∧
      ∀ client, r = .ok client → k'.client? = some client :=
  connectRounds_cases deadline _ k

/-- A wait that ends well ends when the first client has connected. -/
theorem awaitClient_ok {k' : Socket} {deadline : Option Nat}
    (h : k.awaitClient deadline = (.ok (), k')) :
    k'.client? = k.client? ∧ k'.accepts = k.accepts ∧
      ∃ t client backlog, k'.backlog = (t, client) :: backlog ∧ t ≤ k'.clock := by
  unfold awaitClient at h
  have hpast := @awaitEvent_happened k.clock (deadline.map (· - k.clock))
    (k.backlog.head?.map (·.1))
  dsimp only at h
  split at h
  · cases h
  · split at h
    · cases h
    · generalize awaitEvent k.clock (deadline.map (· - k.clock)) (k.backlog.head?.map (·.1)) =
        event at h hpast
      obtain ⟨_ | _, clock⟩ := event <;> cases h
      obtain ⟨t, ht, hle⟩ := hpast rfl
      obtain ⟨⟨t', client⟩, hfirst, rfl⟩ := Option.map_eq_some_iff.mp ht
      obtain ⟨backlog, hbacklog⟩ := List.head?_eq_some_iff.mp hfirst
      exact ⟨rfl, rfl, t', client, backlog, hbacklog, hle⟩

/-- More rounds than a wait for a client does change nothing: every round that goes on uses up an
entry of the schedule, and without one the next round accepts the client that has connected. -/
theorem connectRounds_of_le (deadline : Option Nat) {rounds more : Nat}
    (h : k.accepts.length + 2 ≤ rounds) (hle : rounds ≤ more) :
    connectRounds deadline more k = connectRounds deadline rounds k := by
  induction rounds generalizing k more with
  | zero => omega
  | succ rounds ih =>
    obtain ⟨more, rfl⟩ := Nat.exists_eq_add_one.mpr (Nat.lt_of_lt_of_le (Nat.succ_pos _) hle)
    rcases k.accept_cases with ⟨c, -, hk⟩ | ⟨hnone, ⟨e, hk⟩ | ⟨_, c, _, -, -, -, hk⟩⟩
    · rw [connectRounds, connectRounds, hk]
    · rw [connectRounds, connectRounds, hk]
      by_cases he : e = .notConnected
      · subst he
        dsimp only
        rcases ha : awaitClient deadline { k with accepts := k.accepts.tail } with ⟨x | ⟨⟩, k'⟩
        · rfl
        · obtain ⟨hclient, haccepts, t, client, backlog, hbacklog, ht⟩ := awaitClient_ok ha
          dsimp only
          by_cases hlist : k.accepts = []
          · obtain ⟨n, rfl⟩ := Nat.exists_eq_add_one.mpr (show 0 < rounds by omega)
            obtain ⟨m, rfl⟩ := Nat.exists_eq_add_one.mpr (show 0 < more by omega)
            have hfault : k'.accepts.next.1 = none := by
              rw [haccepts, hlist]
              rfl
            rw [connectRounds, connectRounds,
              accept_of_arrived (hclient.trans hnone) hbacklog ht hfault]
          · refine ih ?_ (Nat.le_of_succ_le_succ hle)
            rw [haccepts, List.length_tail]
            have hpos := List.length_pos_iff.mpr hlist
            omega
      · split
        · next he' => exact absurd (Except.error.inj (Prod.mk.inj he').1) he
        · rfl
    · rw [connectRounds, connectRounds, hk]

/-- What the clients have sent that was not taken up yet, one after the other. -/
def onTheWay (k : Socket) : List Bytes := k.clients.map (·.incoming.pending)

theorem onTheWay_congr {k' : Socket} (h : k'.clients = k.clients) : k'.onTheWay = k.onTheWay := by
  rw [onTheWay, onTheWay, h]

/-- The client that is served stands behind those that are gone. -/
theorem onTheWay_of_client {client : Client} (h : k.client? = some client) :
    k.onTheWay = k.gone.reverse.map (·.incoming.pending) ++
      client.incoming.pending :: k.backlog.map (·.2.incoming.pending) := by
  simp only [onTheWay, clients, h, Option.toList_some, List.map_append, List.map_cons,
    List.map_map, List.append_assoc, List.singleton_append]
  rfl

/-- Some bytes moved into the buffer, all of the client that was served. Clients may have gone. -/
structure Takes (k k' : Socket) (taken : Bytes) : Prop where
  buffer : k'.buffer = k.buffer ++ taken
  way : ∀ j, k.onTheWay.getD j [] =
    (if j = k.gone.length then taken else []) ++ k'.onTheWay.getD j []
  length : k'.onTheWay.length = k.onTheWay.length
  gone_le : k.gone.length ≤ k'.gone.length

theorem takes_nothing {k' : Socket} (hbuffer : k'.buffer = k.buffer)
    (hway : k'.onTheWay = k.onTheWay) (hgone : k.gone.length ≤ k'.gone.length) :
    Takes k k' [] := by
  refine ⟨by rw [hbuffer, List.append_nil], fun j ↦ ?_, congrArg _ hway, hgone⟩
  rw [hway]
  split <;> rfl

/-- Only what the served client has sent is less. -/
theorem takes_of_client {k' : Socket} {client client' : Client} {taken : Bytes}
    (hclient : k.client? = some client) (hclient' : k'.client? = some client')
    (hgone : k'.gone = k.gone) (hbacklog : k'.backlog = k.backlog)
    (hbuffer : k'.buffer = k.buffer ++ taken)
    (hpending : client.incoming.pending = taken ++ client'.incoming.pending) :
    Takes k k' taken := by
  refine ⟨hbuffer, fun j ↦ ?_, ?_, Nat.le_of_eq (congrArg List.length hgone.symm)⟩ <;>
    rw [onTheWay_of_client hclient, onTheWay_of_client hclient', hgone, hbacklog]
  case refine_2 => simp only [List.length_append, List.length_cons]
  rw [hpending]
  simp only [List.getD_eq_getElem?_getD, List.getElem?_append, List.length_map,
    List.length_reverse]
  rcases Nat.lt_trichotomy j k.gone.length with hlt | rfl | hgt
  · simp only [hlt, Nat.ne_of_lt hlt, ite_true, ite_false, List.nil_append]
  · simp only [Nat.lt_irrefl, ite_true, ite_false, Nat.sub_self, List.getElem?_cons_zero,
      Option.getD_some]
  · have hsub : j - k.gone.length = j - k.gone.length - 1 + 1 := by omega
    simp only [Nat.not_lt.mpr (Nat.le_of_lt hgt), Nat.ne_of_gt hgt, ite_false, List.nil_append]
    rw [hsub, List.getElem?_cons_succ, List.getElem?_cons_succ]

/-- Letting go of a client takes nothing. -/
theorem Takes.dropClient {k' : Socket} {taken : Bytes} (h : Takes k k' taken) :
    Takes k k'.dropClient taken := by
  have hway : k'.dropClient.onTheWay = k'.onTheWay := onTheWay_congr k'.clients_dropClient
  refine ⟨h.buffer, fun j ↦ by rw [hway, h.way j], (congrArg _ hway).trans h.length,
    Nat.le_trans h.gone_le ?_⟩
  simp only [Socket.dropClient, List.length_append]
  exact Nat.le_add_left _ _

/-- Collecting takes bytes of the client that is served, also if it is let go of then. -/
theorem receive_takes {client : Client} (hclient : k.client? = some client)
    (deadline : Option Nat) :
    ∃ answer k' taken, (receive deadline client).exec k = (answer, k') ∧ Takes k k' taken ∧
      ∀ window, answer = .ok window → window = k'.buffer ∧ alignment ≤ window.length := by
  obtain ⟨⟨⟨taken, htaken⟩, hunread, -⟩, hwindow⟩ :=
    (Intake.mk .connection k.buffer client.incoming k.clock).collects_wait capacity deadline
  simp only [receive, LinkM.exec_ofFun]
  generalize (Intake.mk .connection k.buffer client.incoming k.clock).wait capacity deadline = r
    at htaken hunread hwindow ⊢
  obtain ⟨answer, i⟩ := r
  dsimp only at htaken hunread hwindow
  have hpending : client.incoming.pending = taken ++ i.stream.pending := by
    rw [Intake.unread, Intake.unread, ← htaken, List.append_assoc] at hunread
    exact (List.append_cancel_left hunread).symm
  have htakes : Takes k { k with
      buffer := i.buffer, clock := i.clock
      client? := some { client with incoming := i.stream } } taken :=
    takes_of_client hclient rfl rfl rfl htaken.symm hpending
  dsimp only
  split
  · exact ⟨_, _, taken, rfl, htakes.dropClient, nofun⟩
  · exact ⟨_, _, taken, rfl, htakes, hwindow⟩

/-- A wait takes bytes of one client, and shows the buffer if it answers. -/
theorem wait_takes (k : Socket) (timeout : Option Nat) :
    ∃ answer k' taken, (wait timeout).exec k = (answer, k') ∧ Takes k k' taken ∧
      ∀ window, answer = .ok window → window = k'.buffer ∧ alignment ≤ window.length := by
  unfold wait
  rw [LinkM.exec_bind_ok _ (show (LinkM.read : SocketM Socket).exec k = (.ok k, k) from rfl)]
  by_cases hon : k.enabled = true
  · rw [ite_cond_eq_true _ _ (eq_true hon)]
    obtain ⟨r, k₁, hconnect, ⟨hclients, hgone, hbuffer, -⟩, hserved⟩ :=
      k.connect_cases (timeout.map (k.clock + ·))
    have hway : k₁.onTheWay = k.onTheWay := onTheWay_congr hclients
    cases r with
    | error e =>
      exact ⟨_, k₁, [], LinkM.exec_bind_error _ hconnect,
        takes_nothing hbuffer hway (hgone ▸ Nat.le_refl _), nofun⟩
    | ok client =>
      obtain ⟨answer, k', taken, hexec, htakes, hwindow⟩ :=
        receive_takes (hserved client rfl) (timeout.map (k.clock + ·))
      refine ⟨answer, k', taken, (LinkM.exec_bind_ok _ hconnect).trans hexec, ?_, hwindow⟩
      exact ⟨hbuffer ▸ htakes.buffer, hway ▸ hgone ▸ htakes.way, hway ▸ htakes.length,
        hgone ▸ htakes.gone_le⟩
  · rw [ite_cond_eq_false _ _ (eq_false hon)]
    exact ⟨_, k, [], rfl, takes_nothing rfl rfl (Nat.le_refl _), nofun⟩

/-- Nobody connects. -/
example : ((wait (some 20)).exec { fresh 0 with enabled := true }).1 = .error .timeout := rfl

/-- A client connects while it is waited for, and is gone once its bytes are released. -/
example :
    let client : Client := ⟨.sound [(20, List.replicate 8 7)] (some 30), []⟩
    let session : SocketM (Bytes × Nat) := do
      let window ← wait (some 5000)
      acknowledge window.length
      let sent ← send window
      return (window, sent)
    let r := session.exec { fresh 0 with enabled := true, backlog := [(20, client)] }
    r.1 = .ok (List.replicate 8 7, 8) ∧
      r.2.client?.map Client.received = some (List.replicate 8 7) ∧
      ((wait (some 2000)).exec r.2).1 = .error .connectionReset := ⟨rfl, rfl, rfl⟩

theorem pending_write (client : Client) (data : Bytes) :
    (client.write data).2.incoming.pending = client.incoming.pending := rfl

/-- Sending takes nothing, also if the client is let go of. -/
theorem send_takes (k : Socket) (data : Bytes) : Takes k ((send data).exec k).2 [] := by
  have hway : k.accept.2.onTheWay = k.onTheWay := onTheWay_congr k.clients_accept
  have hgone : k.gone.length ≤ k.accept.2.gone.length :=
    Nat.le_of_eq (congrArg _ k.gone_accept.symm)
  have hserved := @client?_accept k
  have hbuffer := k.buffer_accept
  simp only [send, LinkM.exec_ofFun]
  generalize k.accept = r at hway hgone hserved hbuffer ⊢
  obtain ⟨e | client, k'⟩ := r
  · exact takes_nothing hbuffer hway hgone
  · have hwrite := pending_write client data
    dsimp only
    generalize client.write data = w at hwrite ⊢
    obtain ⟨fault?, client'⟩ := w
    have htakes : Takes k { k' with client? := some client' } [] := by
      refine takes_nothing hbuffer ?_ hgone
      rw [← hway, onTheWay_of_client (hserved rfl), onTheWay_of_client rfl]
      exact congrArg (fun bytes ↦ _ ++ bytes :: _) hwrite
    cases fault? with
    | none => exact htakes
    | some fault => exact htakes.dropClient

/-- Without a client nothing is sent. -/
example (clock : Nat) (data : Bytes) : (send data).exec (fresh clock) =
    (.error .notConnected, fresh clock) := rfl

/-- A send that fails lets go of the client and takes nothing. -/
theorem dropClient_accept_takes (k : Socket) : Takes k k.accept.2.dropClient [] := by
  refine Takes.dropClient (takes_nothing k.buffer_accept ?_ ?_)
  · exact onTheWay_congr k.clients_accept
  · exact Nat.le_of_eq (congrArg _ k.gone_accept.symm)

end Socket

end DetectorLink
