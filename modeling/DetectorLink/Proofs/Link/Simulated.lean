import DetectorLink.Proofs.Link.Client
import DetectorLink.Proofs.Link.Level
import DetectorLink.Proofs.Link.Medium

/-!
# Receiving over a simulated link

A link over pipes, or over a listener whose client stays connected, receives through one buffer.
Waiting, reading and releasing do to this buffer, and to what arrives for it, just what a wait and
a release of the buffer do. So what was released, what is buffered and what is on its way are
together what was fed, in this order, however the bytes arrive and whatever the waits answer.
-/

namespace DetectorLink.Link

variable {δ : Type}

/-! ### The receive buffer of a simulated link -/

/-- Received bytes that were not released. -/
def buffered (link : Link) : Bytes :=
  match link.medium with
  | .hardware _ => []
  | .pipe p => p.buffer
  | .socket k => k.buffer

/-- Size of the receive buffer. -/
def bufferSize (link : Link) : Nat :=
  match link.medium with
  | .hardware _ => 0
  | .pipe _ => Pipe.capacity
  | .socket _ => Socket.capacity

/-- The listener as an operation finds it. -/
def listener (k : Socket) (host : Host δ) : Socket := { k with clock := host.clock }

/-- What arrives for the receive buffer. -/
def arriving (s : Link × Host δ) : Stream :=
  match s.1.medium with
  | .hardware _ => .empty
  | .pipe p => s.2.files.queue p.rx
  | .socket k => (listener k s.2).peer?.elim .empty Client.incoming

/-- What is read into the receive buffer. -/
def inlet (link : Link) : Inlet :=
  match link.medium with
  | .hardware _ | .pipe _ => .pipe
  | .socket _ => .connection

/-- The receive buffer with what arrives for it. -/
def intake (s : Link × Host δ) : Intake := ⟨s.1.inlet, s.1.buffered, arriving s, s.2.clock⟩

/-- Let bytes arrive from the other end at a time. -/
def feed (time : Nat) (data : Bytes) (s : Link × Host δ) : Link × Host δ :=
  match s.1.medium with
  | .hardware _ => s
  | .pipe p =>
    (s.1, { s.2 with files := s.2.files.setQueue p.rx ((s.2.files.queue p.rx).feed time data) })
  | .socket k => ({ s.1 with medium := .socket (k.feed time data) }, s.2)

/-- A link in charge that receives over pipes, or from a client that stays connected. -/
inductive Receives : Link × Host δ → Prop where
  | pipe {p : Pipe} {on : Bool} {host : Host δ} (hrx : p.rx ≠ []) (hon : p.enabled = true) :
    Receives (⟨.pipe p, false, on⟩, host)
  | socket {k : Socket} {on : Bool} {host : Host δ} {client : Client} (hon : k.enabled = true)
      (hpeer : (listener k host).peer? = some client) (hstays : client.incoming.Stays) :
    Receives (⟨.socket k, false, on⟩, host)

variable {s : Link × Host δ}

theorem Receives.debug (h : Receives s) : s.1.debug = false := by
  cases h <;> rfl

/-- The link goes on receiving, and its buffer and what arrives for it became `i`. -/
structure Becomes (s t : Link × Host δ) (i : Intake) : Prop where
  receives : Receives t
  intake : intake t = i
  bufferSize : t.1.bufferSize = s.1.bufferSize

/-- Time passes. -/
theorem becomes_sleep (h : Receives s) (n : Nat) :
    Becomes s (s.1, s.2.sleep n) { intake s with clock := s.2.clock + n } := by
  cases h with
  | pipe hrx hon => exact ⟨.pipe hrx hon, rfl, rfl⟩
  | @socket k on host client hon hpeer hstays =>
    have hlater : (listener k (host.sleep n)).peer? = some client :=
      Socket.peer?_later hpeer (Nat.le_add_right _ n)
    refine ⟨.socket hon hlater hstays, ?_, rfl⟩
    simp only [intake, arriving, hpeer, hlater]
    rfl

/-- Bytes that are fed arrive. -/
theorem becomes_feed (h : Receives s) (time : Nat) (data : Bytes) :
    Becomes s (feed time data s)
      { intake s with stream := (arriving s).feed time data } := by
  cases h with
  | @pipe p on host hrx hon =>
    refine ⟨.pipe hrx hon, ?_, rfl⟩
    simp only [intake, arriving, feed]
    rw [Files.queue_setQueue _ hrx]
  | @socket k on host client hon hpeer hstays =>
    have hfed : (listener (k.feed time data) host).peer? =
        some { client with incoming := client.incoming.feed time data } := by
      rw [listener, ← Socket.feed_clock]
      exact Socket.peer?_feed hpeer time data
    refine ⟨.socket (k.enabled_feed time data ▸ hon) hfed (hstays.feed time data), ?_, rfl⟩
    simp only [intake, arriving, feed, hpeer, hfed, buffered, Socket.buffer_feed]
    rfl

section Operations

variable [Driver δ]

/-- A wait is a wait of the buffer. -/
theorem becomes_wait (h : Receives s) (timeout : Option Nat) :
    let r := (intake s).wait s.1.bufferSize (timeout.map (s.2.clock + ·))
    ∃ t, (wait timeout).exec s = (r.1, t) ∧ Becomes s t r.2 := by
  intro r
  have hinlet : s.1.inlet = r.2.inlet :=
    ((intake s).collects_wait s.1.bufferSize (timeout.map (s.2.clock + ·))).1.inlet.symm
  have hbecame : Intake.mk s.1.inlet r.2.buffer r.2.stream r.2.clock = r.2 :=
    congrArg (Intake.mk · r.2.buffer r.2.stream r.2.clock) hinlet
  cases h with
  | @pipe p on host hrx hon =>
    have hexec : (Pipe.wait timeout).exec (p, host) = (r.1, p.settle host r.2) :=
      ite_cond_eq_true _ _ (eq_true hon)
    refine ⟨(⟨.pipe (p.settle host r.2).1, false, on⟩, (p.settle host r.2).2), ?_,
      .pipe hrx hon, ?_, rfl⟩
    · rw [wait, exec_onMedium_pipe _ _ _ _ rfl, hexec]
    · simp only [intake, arriving, Pipe.settle]
      rw [Files.queue_setQueue _ hrx]
      exact hbecame
  | @socket k on host client hon hpeer hstays =>
    let i : Intake := ⟨.connection, k.buffer, client.incoming, host.clock⟩
    have hi : intake (⟨.socket k, false, on⟩, host) = i := by
      simp only [intake, arriving, hpeer]
      rfl
    have hr : i.wait Socket.capacity (timeout.map (host.clock + ·)) = r := by
      simp only [r, hi]
      rfl
    have hstays' : r.2.stream.Stays :=
      hr ▸ (Intake.wait_of_stays (i := i) (by decide) (timeout.map (host.clock + ·)) hstays).2
    have hexec : (Socket.wait timeout).exec (listener k host) =
        (r.1, { (listener k host).accept.2 with
          buffer := r.2.buffer
          clock := r.2.clock
          client? := some { client with incoming := r.2.stream } }) := by
      rw [← hr]
      exact Socket.exec_wait_of_peer (k := listener k host) hon hpeer hstays timeout
    generalize hk : ({ (listener k host).accept.2 with
      buffer := r.2.buffer
      clock := r.2.clock
      client? := some { client with incoming := r.2.stream } } : Socket) = k' at hexec
    have hpeer' : (listener k' { host with clock := r.2.clock }).peer? =
        some { client with incoming := r.2.stream } := by
      rw [← hk]
      exact Socket.peer?_eq_some_iff.mpr (.inl rfl)
    refine ⟨(⟨.socket k', false, on⟩, { host with clock := r.2.clock }), ?_,
      .socket ?_ hpeer' hstays', ?_, rfl⟩
    · rw [wait, exec_onMedium_socket _ _ _ _ rfl, ← listener, hexec, ← hk]
    · rw [← hk]
      exact (Socket.enabled_accept _).trans hon
    · simp only [intake, arriving, hpeer']
      rw [← hk]
      exact hbecame

/-- A release takes bytes from the start of the buffer, at most all of them. -/
theorem becomes_releaseBytes (h : Receives s) (n : Nat) :
    ∃ t, (releaseBytes n).exec s = (.ok (), t) ∧
      Becomes s t { intake s with buffer := s.1.buffered.drop n } := by
  cases h with
  | @pipe p on host hrx hon =>
    exact ⟨_, exec_onMedium_pipe _ _ _ _ rfl, .pipe hrx hon, rfl, rfl⟩
  | @socket k on host client hon hpeer hstays =>
    have hpeer' : (listener { listener k host with buffer := k.buffer.drop n } host).peer? =
        some client := (Socket.peer?_buffer (listener k host) _).trans hpeer
    refine ⟨_, exec_onMedium_socket _ _ _ _ rfl, .socket hon hpeer' hstays, ?_, rfl⟩
    simp only [intake, arriving, hpeer]
    exact congrArg (fun client? ↦
      Intake.mk .connection (k.buffer.drop n) (Option.elim client? .empty Client.incoming)
        host.clock) hpeer'

/-- A link in charge releases as asked. -/
theorem becomes_acknowledge (h : Receives s) (n : Nat) :
    ∃ t, (acknowledge n).exec s = (.ok (), t) ∧
      Becomes s t { intake s with buffer := s.1.buffered.drop n } := by
  rw [exec_acknowledge, ite_cond_eq_false _ _ (eq_false (Bool.not_eq_true _ ▸ h.debug))]
  exact becomes_releaseBytes h n

/-- A read is a wait that releases what it answers. -/
theorem becomes_read (h : Receives s) (max : Nat) (timeout : Option Nat) :
    let r := (intake s).wait s.1.bufferSize (timeout.map (s.2.clock + ·))
    match r.1 with
    | .error e => ∃ t, (read max timeout).exec s = (.error e, t) ∧ Becomes s t r.2
    | .ok window =>
      let taken := window.take (alignDown (min window.length max))
      ∃ t, (read max timeout).exec s = (.ok taken, t) ∧
        Becomes s t { r.2 with buffer := r.2.buffer.drop taken.length } := by
  intro r
  obtain ⟨t, hwait, ht⟩ := becomes_wait h timeout
  cases hr : r.1 with
  | error e =>
    have hwait : (wait timeout).exec s = (.error e, t) := hwait.trans (by rw [hr])
    exact ⟨t, LinkM.exec_bind_error _ hwait, ht⟩
  | ok window =>
    let taken := window.take (alignDown (min window.length max))
    have hwait : (wait timeout).exec s = (.ok window, t) := hwait.trans (by rw [hr])
    have hlen : taken.length = alignDown (min window.length max) :=
      List.length_take_of_le (Nat.le_trans (alignDown_le _) (Nat.min_le_left _ _))
    obtain ⟨u, hrelease, hu⟩ := becomes_releaseBytes ht.receives taken.length
    have hbuffer : t.1.buffered = r.2.buffer := congrArg Intake.buffer ht.intake
    refine ⟨u, ?_, hu.receives, ?_, hu.bufferSize.trans ht.bufferSize⟩
    · have hread : (LinkM.read : LinkIO δ (Link × Host δ)).exec t = (.ok t, t) := rfl
      rw [read, LinkM.exec_bind_ok _ hwait, LinkM.exec_bind_ok _ hread, ht.receives.debug]
      rw [hlen] at hrelease
      exact LinkM.exec_bind_ok _ hrelease
    · rw [hu.intake, ht.intake, hbuffer]

/-- The status tells the number of buffered bytes. -/
theorem exec_status (h : Receives s) :
    ∃ status t, (Link.status).exec s = (.ok status, t) ∧
      status.regionUsed = s.1.buffered.length := by
  cases h with
  | pipe hrx hon => exact ⟨_, _, exec_onMedium_pipe _ _ _ _ rfl, rfl⟩
  | socket hon hpeer hstays => exact ⟨_, _, exec_onMedium_socket _ _ _ _ rfl, rfl⟩

end Operations

/-! ### Sessions -/

/-- What happens to a receiving link. -/
inductive Operation where
  /-- Bytes are fed that arrive after some milliseconds. -/
  | feed (delay : Nat) (data : Bytes)
  /-- Milliseconds pass. -/
  | elapse (n : Nat)
  /-- A window is waited for. -/
  | wait (timeout : Option Nat)
  /-- At most `max` bytes are read. -/
  | read (max : Nat) (timeout : Option Nat)
  /-- Bytes are released. -/
  | acknowledge (n : Nat)
  deriving DecidableEq, Repr

/-- A receiving link with the level that its sending half knows, and what went through it. -/
structure Session (δ : Type) where
  /-- The link. -/
  link : Link
  /-- Its host. -/
  host : Host δ
  /-- The level of its buffer. -/
  level : Nat
  /-- What was fed. -/
  fed : Bytes
  /-- What was released. -/
  released : Bytes

namespace Session

/-- A link of which nothing was released. -/
def start (link : Link) (host : Host δ) : Session δ where
  link := link
  host := host
  level := link.buffered.length
  fed := link.buffered ++ (arriving (link, host)).pending
  released := []

variable (c : Session δ)

/-- What is on its way. -/
def onTheWay : Bytes := (arriving (c.link, c.host)).pending

/-- The buffer with its level. -/
def metered : Metered := ⟨Link.intake (c.link, c.host), c.level⟩

/-- The buffer with its level after a wait. -/
def waited (timeout : Option Nat) : Metered :=
  (c.metered.wait c.link.bufferSize (timeout.map (c.host.clock + ·))).2

/-- Nothing is lost, doubled or moved, and the level is right. -/
structure Sound (c : Session δ) : Prop where
  receives : Receives (c.link, c.host)
  bytes : c.released ++ c.link.buffered ++ c.onTheWay = c.fed
  level : c.level = c.link.buffered.length

variable {c}

theorem sound_start {link : Link} {host : Host δ} (h : Receives (link, host)) :
    (start link host).Sound := ⟨h, rfl, rfl⟩

theorem Sound.metered (hc : c.Sound) : c.metered = .ofIntake (Link.intake (c.link, c.host)) :=
  congrArg (Metered.mk _) hc.level

theorem Sound.waited (hc : c.Sound) (timeout : Option Nat) :
    c.waited timeout = .ofIntake ((Link.intake (c.link, c.host)).wait c.link.bufferSize
      (timeout.map (c.host.clock + ·))).2 := by
  rw [Session.waited, hc.metered, Metered.wait_ofIntake]

/-- A session goes on with a link that became another. -/
theorem sound_of_becomes {t : Link × Host δ} {i : Intake}
    (ht : Becomes (c.link, c.host) t i) {level : Nat} {fed released : Bytes}
    (hlevel : level = i.buffer.length) (hbytes : released ++ i.unread = fed) :
    ({ c with link := t.1, host := t.2, level, fed, released } : Session δ).Sound := by
  have hi := ht.intake
  refine ⟨ht.receives, ?_, ?_⟩
  · rw [← hbytes, ← hi, List.append_assoc]
    rfl
  · rw [hlevel, ← hi]
    rfl

theorem Sound.unread (hc : c.Sound) :
    c.released ++ (Link.intake (c.link, c.host)).unread = c.fed := by
  rw [← hc.bytes, List.append_assoc]
  rfl

variable [Driver δ]

/-- Go on with an operation. The level is set where bytes come and go. -/
def step (c : Session δ) : Operation → Session δ
  | .feed delay data =>
    let (link, host) := Link.feed (c.host.clock + delay) data (c.link, c.host)
    { c with link, host, fed := c.fed ++ data }
  | .elapse n => { c with host := c.host.sleep n }
  | .wait timeout =>
    let (_, (link, host)) := (Link.wait timeout).exec (c.link, c.host)
    { c with link, host, level := (c.waited timeout).level }
  | .read max timeout =>
    match (Link.read max timeout).exec (c.link, c.host) with
    | (.ok taken, (link, host)) =>
      { c with
        link, host
        level := ((c.waited timeout).release taken.length).level
        released := c.released ++ taken }
    | (.error _, (link, host)) => { c with link, host, level := (c.waited timeout).level }
  | .acknowledge n =>
    match (Link.acknowledge n).exec (c.link, c.host) with
    | (.ok (), (link, host)) =>
      { c with
        link, host
        level := (c.metered.release n).level
        released := c.released ++ c.link.buffered.take n }
    | (.error _, (link, host)) => { c with link, host }

/-- Go on with operations, one after the other. -/
def run (c : Session δ) (operations : List Operation) : Session δ := operations.foldl step c

/-- Bytes from the start of the buffer and those that are left are the unread ones. -/
private theorem unread_release {i : Intake} {taken : Bytes} (h : taken <+: i.buffer) :
    taken ++ Intake.unread { i with buffer := i.buffer.drop taken.length } = i.unread := by
  obtain ⟨rest, hrest⟩ := h
  rw [Intake.unread, Intake.unread, ← hrest, List.drop_left, List.append_assoc]

/-- Every operation keeps the bytes and the level. -/
theorem sound_step (hc : c.Sound) (operation : Operation) : (c.step operation).Sound := by
  cases operation with
  | feed delay data =>
    refine sound_of_becomes (becomes_feed hc.receives (c.host.clock + delay) data) hc.level ?_
    rw [← hc.unread, Intake.unread, Stream.pending_feed, ← List.append_assoc, ← List.append_assoc,
      List.append_assoc c.released]
    rfl
  | elapse n => exact sound_of_becomes (becomes_sleep hc.receives n) hc.level hc.unread
  | wait timeout =>
    obtain ⟨t, hexec, ht⟩ := becomes_wait hc.receives timeout
    have hcollects := ((Link.intake (c.link, c.host)).collects_wait c.link.bufferSize
      (timeout.map (c.host.clock + ·))).1
    simp only [step, hexec, hc.waited]
    exact sound_of_becomes ht rfl (hcollects.unread.symm ▸ hc.unread)
  | read max timeout =>
    have hread := becomes_read hc.receives max timeout
    have hcollects := (Link.intake (c.link, c.host)).collects_wait c.link.bufferSize
      (timeout.map (c.host.clock + ·))
    have hwaited := hc.waited timeout
    dsimp only at hread
    generalize (Link.intake (c.link, c.host)).wait c.link.bufferSize
      (timeout.map (c.host.clock + ·)) = r at hread hcollects hwaited
    obtain ⟨answer, i⟩ := r
    obtain ⟨⟨-, hunread, -⟩, hwindow⟩ := hcollects
    cases answer with
    | error e =>
      obtain ⟨t, hexec, ht⟩ := hread
      simp only [step, hexec, hwaited]
      exact sound_of_becomes ht rfl (hunread.symm ▸ hc.unread)
    | ok window =>
      obtain ⟨t, hexec, ht⟩ := hread
      obtain ⟨hbuffer, -⟩ := hwindow window rfl
      simp only [step, hexec, hwaited, Metered.release_ofIntake]
      refine sound_of_becomes ht rfl ?_
      have htaken : window.take (alignDown (min window.length max)) <+: i.buffer :=
        hbuffer ▸ List.take_prefix _ window
      rw [← hc.unread, ← hunread, List.append_assoc, unread_release htaken]
  | acknowledge n =>
    obtain ⟨t, hexec, ht⟩ := becomes_acknowledge hc.receives n
    simp only [step, hexec, hc.metered, Metered.release_ofIntake]
    refine sound_of_becomes ht rfl ?_
    rw [← hc.unread, List.append_assoc, Intake.unread, ← List.append_assoc (List.take _ _)]
    exact congrArg (fun b ↦ c.released ++ (b ++ _)) (List.take_append_drop n c.link.buffered)

/-- Any operations keep the bytes and the level. -/
theorem sound_run (hc : c.Sound) (operations : List Operation) : (c.run operations).Sound := by
  induction operations generalizing c with
  | nil => exact hc
  | cons operation rest ih => exact ih (sound_step hc operation)

/-- A link that receives over pipes or from a client that stays connected, after any feeds, waits,
reads and releases: what was released, what is buffered and what is on its way are together what
was fed; a wait that answers shows the whole buffer, at least a word, starting with what was
buffered before; a release of no less than is buffered takes just the buffer; the status tells the
number of buffered bytes, and so does the level that the sending half knows. -/
theorem run_loses_nothing {link : Link} {host : Host δ} (h : Receives (link, host))
    (operations : List Operation) :
    let c := (start link host).run operations
    c.released ++ c.link.buffered ++ c.onTheWay = c.fed ∧
    (∀ timeout window t, (Link.wait timeout).exec (c.link, c.host) = (.ok window, t) →
      window = t.1.buffered ∧ alignment ≤ window.length ∧
        window ++ (arriving t).pending = c.link.buffered ++ c.onTheWay) ∧
    (∀ n, c.link.buffered.length ≤ n →
      ∃ t, (Link.acknowledge n).exec (c.link, c.host) = (.ok (), t) ∧ t.1.buffered = [] ∧
        (arriving t).pending = c.onTheWay) ∧
    (∃ status t, Link.status.exec (c.link, c.host) = (.ok status, t) ∧
      status.regionUsed = c.link.buffered.length) ∧
    c.level = c.link.buffered.length := by
  intro c
  have hc : c.Sound := sound_run (sound_start h) operations
  refine ⟨hc.bytes, ?_, ?_, exec_status hc.receives, hc.level⟩
  · intro timeout window t hexec
    obtain ⟨t', hexec', ht⟩ := becomes_wait hc.receives timeout
    obtain ⟨hcollects, hwindow⟩ := (Link.intake (c.link, c.host)).collects_wait c.link.bufferSize
      (timeout.map (c.host.clock + ·))
    obtain ⟨hanswer, rfl⟩ := Prod.mk.inj (hexec'.symm.trans hexec)
    obtain ⟨hbuffer, hword⟩ := hwindow window hanswer
    have hshown : window = t'.1.buffered := hbuffer.trans (congrArg Intake.buffer ht.intake).symm
    refine ⟨hshown, hword, ?_⟩
    have hunread := hcollects.unread
    rw [← ht.intake] at hunread
    rw [hshown]
    exact hunread
  · intro n hn
    obtain ⟨t, hexec, ht⟩ := becomes_acknowledge hc.receives n
    refine ⟨t, hexec, (congrArg Intake.buffer ht.intake).trans ?_,
      congrArg (fun i ↦ i.stream.pending) ht.intake⟩
    exact List.drop_eq_nil_of_le hn

/-- A wait that times out with half a word, one that goes on with the rest of it, and a read, over
pipes and from a client. -/
theorem run_loses_nothing_after_timeout :
    let operations : List Operation :=
      [.feed 0 [1, 2], .wait (some 5), .feed 3 [3, 4, 5, 6, 7], .wait none, .read 5 none,
        .feed 9 [8]]
    let host : Host Board := .bare (.fresh 64 [])
    let overPipes := (start ⟨.pipe ⟨["r"], ["t"], true, []⟩, false, true⟩ host).run operations
    let fromClient := (start
      ⟨.socket { Socket.fresh 0 with backlog := [(0, ⟨.empty, []⟩)], enabled := true },
        false, true⟩ host).run operations
    (overPipes.link.buffered = [5, 6, 7] ∧ overPipes.onTheWay = [8] ∧
      overPipes.released ++ overPipes.link.buffered ++ overPipes.onTheWay = overPipes.fed) ∧
    fromClient.link.buffered = [5, 6, 7] ∧ fromClient.onTheWay = [8] ∧
      fromClient.released ++ fromClient.link.buffered ++ fromClient.onTheWay =
        fromClient.fed := by
  intro operations host overPipes fromClient
  have hpipe : Receives ((⟨.pipe ⟨["r"], ["t"], true, []⟩, false, true⟩ : Link), host) :=
    .pipe (List.cons_ne_nil _ _) rfl
  have hsocket : Receives
      ((⟨.socket { Socket.fresh 0 with backlog := [(0, ⟨.empty, []⟩)], enabled := true },
        false, true⟩ : Link), host) := .socket rfl rfl Stream.stays_empty
  exact ⟨⟨by decide +kernel, by decide +kernel, (run_loses_nothing hpipe operations).1⟩,
    by decide +kernel, by decide +kernel, (run_loses_nothing hsocket operations).1⟩

end Session

end DetectorLink.Link
