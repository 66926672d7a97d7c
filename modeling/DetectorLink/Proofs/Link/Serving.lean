import DetectorLink.Proofs.Link.Client

/-!
# Windows of one client after the other

A listener keeps what it has buffered when a client goes, and what the next client sends comes
behind it. A record of every byte taken up, with the client that sent it, tells which windows hold
bytes of several clients: just those with bytes that were taken up before a client went and bytes
that were taken up after it.
-/

namespace DetectorLink.Socket

/-- A listener with a record of what it took up. -/
structure Serving where
  /-- The listener. -/
  socket : Socket
  /-- Every byte that was taken up, behind the number of the client that sent it. -/
  log : List (Nat × UInt8)
  /-- Number of bytes that were released. -/
  released : Nat
  /-- For each client that is gone, how many bytes had been taken up by then. -/
  ends : List Nat
  /-- What each client sends. -/
  sent : List Bytes

namespace Serving

/-- What happens to a listener. -/
inductive Operation where
  /-- A client connects after some milliseconds. -/
  | connect (delay : Nat) (incoming : Stream)
  /-- Attempts to accept a client and waits for one may fail, behind those that may already. -/
  | disturb (accepts : Schedule CallError) (polls : Schedule PollFault)
  /-- Milliseconds pass. -/
  | elapse (n : Nat)
  /-- A window is waited for. -/
  | wait (timeout : Option Nat)
  /-- Bytes are released. -/
  | acknowledge (n : Nat)
  /-- Bytes are sent. -/
  | send (data : Bytes)
  /-- A send to the client fails, which lets go of it. -/
  | sendFails
  deriving DecidableEq, Repr

/-- A listener that receives and that nobody has connected to. -/
def start (clock : Nat) : Serving :=
  ⟨((enableReceive true).exec (fresh clock)).2, [], 0, [], []⟩

variable (c : Serving)

/-- Go on with the listener as it became, recording what was taken up and who has gone since. -/
def goOn (k : Socket) : Serving :=
  let taken := k.buffer.drop c.socket.buffer.length
  let log := c.log ++ taken.map (c.socket.gone.length, ·)
  { c with
    socket := k
    log
    ends := c.ends ++ List.replicate (k.gone.length - c.socket.gone.length) log.length }

/-- Go on with an operation. -/
def step : Operation → Serving
  | .connect delay incoming =>
    { c with
      socket := { c.socket with
        backlog := c.socket.backlog ++ [(c.socket.clock + delay, ⟨incoming, []⟩)] }
      sent := c.sent ++ [incoming.pending] }
  | .disturb accepts polls =>
    { c with
      socket := { c.socket with
        accepts := c.socket.accepts ++ accepts, polls := c.socket.polls ++ polls } }
  | .elapse n => { c with socket := { c.socket with clock := c.socket.clock + n } }
  | .wait timeout => c.goOn ((Socket.wait timeout).exec c.socket).2
  | .acknowledge n =>
    { c with
      socket := ((Socket.acknowledge n).exec c.socket).2
      released := c.released + min n c.socket.buffer.length }
  | .send data => c.goOn ((Socket.send data).exec c.socket).2
  | .sendFails => c.goOn c.socket.accept.2.dropClient

/-- Go on with operations, one after the other. -/
def run (operations : List Operation) : Serving := operations.foldl step c

/-- The bytes that were taken up from a client. -/
def bytesOf (j : Nat) : Bytes := (c.log.filter (·.1 == j)).map Prod.snd

/-- The recorded bytes that are in the buffer. -/
def held : List (Nat × UInt8) := c.log.drop c.released

/-- The record is right: the buffer holds what was taken up and not released, a byte is of the
client whose number is that of the clients that had gone when it came, and what was taken up from a
client is the beginning of what it sends. -/
structure Sound (c : Serving) : Prop where
  buffer : c.socket.buffer = c.held.map Prod.snd
  released_le : c.released ≤ c.log.length
  ends_length : c.ends.length = c.socket.gone.length
  ends_le : ∀ e ∈ c.ends, e ≤ c.log.length
  owner : ∀ p byte, c.log[p]? = some byte → byte.1 = c.ends.countP (· ≤ p)
  sent_length : c.sent.length = c.socket.onTheWay.length
  sent : ∀ j, c.bytesOf j ++ c.socket.onTheWay.getD j [] = c.sent.getD j []

variable {c}

theorem sound_start (clock : Nat) : (start clock).Sound :=
  ⟨rfl, Nat.le_refl 0, rfl, nofun, nofun, rfl, fun _ ↦ rfl⟩

/-- Where no byte is of a client, nothing was taken up from it. -/
private theorem filter_tagged (n j : Nat) (bytes : Bytes) :
    ((bytes.map (n, ·)).filter (·.1 == j)).map Prod.snd = if j = n then bytes else [] := by
  induction bytes with
  | nil => split <;> rfl
  | cons byte rest ih =>
    by_cases h : n = j
    · subst h
      simp only [List.map_cons, List.filter_cons, beq_self_eq_true, ite_true, List.cons.injEq,
        true_and] at ih ⊢
      exact ih
    · have h' : j ≠ n := Ne.symm h
      simp only [List.map_cons, List.filter_cons, beq_iff_eq, h, h', ite_false] at ih ⊢
      exact ih

/-- Taking up bytes keeps the record right. -/
theorem sound_goOn (hc : c.Sound) {k : Socket} {taken : Bytes} (ht : Takes c.socket k taken) :
    (c.goOn k).Sound := by
  have htaken : k.buffer.drop c.socket.buffer.length = taken := by
    rw [ht.buffer, List.drop_left]
  have hgone := ht.gone_le
  have hlength := hc.ends_length
  have hle := hc.released_le
  simp only [goOn, htaken]
  constructor <;> dsimp only
  · rw [ht.buffer, hc.buffer, held, held, List.drop_append_of_le_length hle, List.map_append,
      List.map_map]
    exact congrArg (_ ++ ·) (List.map_id _).symm
  · rw [List.length_append]
    omega
  · rw [List.length_append, List.length_replicate]
    omega
  · intro e he
    rcases List.mem_append.mp he with hold | hnew
    · rw [List.length_append]
      exact Nat.le_trans (hc.ends_le e hold) (Nat.le_add_right _ _)
    · exact Nat.le_of_eq (List.mem_replicate.mp hnew).2
  · intro p byte hbyte
    have hlt := (List.getElem?_eq_some_iff.mp hbyte).1
    rw [List.countP_append, List.countP_replicate,
      ite_cond_eq_false _ _ (eq_false (by simpa using hlt)), Nat.add_zero]
    by_cases hp : p < c.log.length
    · rw [List.getElem?_append_left hp] at hbyte
      exact hc.owner p byte hbyte
    · rw [List.getElem?_append_right (Nat.le_of_not_lt hp), List.getElem?_map] at hbyte
      obtain ⟨b, -, rfl⟩ := Option.map_eq_some_iff.mp hbyte
      have hall : c.ends.countP (· ≤ p) = c.ends.length :=
        List.countP_eq_length.mpr fun e he ↦
          decide_eq_true (Nat.le_trans (hc.ends_le e he) (Nat.le_of_not_lt hp))
      rw [hall, hlength]
  · rw [hc.sent_length, ht.length]
  · intro j
    rw [← hc.sent j, ht.way j, bytesOf, bytesOf, List.filter_append, List.map_append,
      filter_tagged, List.append_assoc]

/-- A client that connects later has sent nothing that was taken up. -/
theorem sound_connect (hc : c.Sound) (delay : Nat) (incoming : Stream) :
    (c.step (.connect delay incoming)).Sound := by
  have hway : (c.step (.connect delay incoming)).socket.onTheWay =
      c.socket.onTheWay ++ [incoming.pending] := by
    simp only [step, onTheWay, clients, List.map_append, List.append_assoc]
    rfl
  refine ⟨hc.buffer, hc.released_le, hc.ends_length, hc.ends_le, hc.owner, ?_, fun j ↦ ?_⟩
  · rw [hway, List.length_append, ← hc.sent_length]
    exact List.length_append
  · have hj := hc.sent j
    have hlength := hc.sent_length
    rw [hway]
    simp only [step, List.getD_eq_getElem?_getD, List.getElem?_append] at hj ⊢
    show c.bytesOf j ++ _ = _
    rw [← hlength]
    split
    · exact hj
    · next hge =>
      have hout : c.sent[j]? = none := List.getElem?_eq_none (Nat.le_of_not_lt hge)
      have hout' : c.socket.onTheWay[j]? = none :=
        List.getElem?_eq_none (hlength ▸ Nat.le_of_not_lt hge)
      rw [hout, hout'] at hj
      rw [(List.append_eq_nil_iff.mp hj).1, List.nil_append]

/-- A release takes bytes from the start of those that are held. -/
theorem sound_acknowledge (hc : c.Sound) (n : Nat) : (c.step (.acknowledge n)).Sound := by
  have hlen : c.socket.buffer.length = c.log.length - c.released := by
    rw [hc.buffer, List.length_map, held, List.length_drop]
  have hle := hc.released_le
  refine ⟨?_, ?_, hc.ends_length, hc.ends_le, hc.owner, hc.sent_length, hc.sent⟩
  · show c.socket.buffer.drop n = (c.log.drop (c.released + min n c.socket.buffer.length)).map _
    rw [← List.drop_drop, List.map_drop, ← held, ← hc.buffer]
    rcases Nat.le_total n c.socket.buffer.length with hn | hn
    · rw [Nat.min_eq_left hn]
    · rw [Nat.min_eq_right hn, List.drop_length, List.drop_eq_nil_of_le hn]
  · show c.released + min n c.socket.buffer.length ≤ c.log.length
    omega

theorem sound_step (hc : c.Sound) (operation : Operation) : (c.step operation).Sound := by
  cases operation with
  | connect delay incoming => exact sound_connect hc delay incoming
  | disturb _ _ | elapse _ =>
    exact ⟨hc.buffer, hc.released_le, hc.ends_length, hc.ends_le, hc.owner, hc.sent_length,
      hc.sent⟩
  | wait timeout =>
    obtain ⟨answer, k, taken, hexec, htakes, -⟩ := c.socket.wait_takes timeout
    simp only [step, hexec]
    exact sound_goOn hc htakes
  | acknowledge n => exact sound_acknowledge hc n
  | send data => exact sound_goOn hc (c.socket.send_takes data)
  | sendFails => exact sound_goOn hc c.socket.dropClient_accept_takes

/-- Any operations keep the record right. -/
theorem sound_run (hc : c.Sound) (operations : List Operation) : (c.run operations).Sound := by
  induction operations generalizing c with
  | nil => exact hc
  | cons operation rest ih => exact ih (sound_step hc operation)

/-- More clients have gone by an end than by the place before it. -/
private theorem countP_lt_of_mem {ends : List Nat} {e : Nat} (he : e ∈ ends) (hpos : 0 < e) :
    ends.countP (· ≤ e - 1) < ends.countP (· ≤ e) := by
  induction ends with
  | nil => nomatch he
  | cons first rest ih =>
    have hmono : rest.countP (· ≤ e - 1) ≤ rest.countP (· ≤ e) :=
      List.countP_mono_left fun x _ hx ↦
        decide_eq_true (Nat.le_trans (of_decide_eq_true hx) (Nat.sub_le e 1))
    simp only [List.countP_cons, decide_eq_true_eq]
    rcases List.mem_cons.mp he with rfl | hrest
    · rw [ite_cond_eq_false _ _ (eq_false (by omega)),
        ite_cond_eq_true _ _ (eq_true (Nat.le_refl e))]
      omega
    · have hlt := ih hrest
      split <;> split <;> omega

/-- The buffer holds bytes of two clients exactly when one has gone between bytes of it. -/
theorem Sound.mixed_iff (hc : c.Sound) :
    (∃ a ∈ c.held, ∃ b ∈ c.held, a.1 ≠ b.1) ↔
      ∃ e ∈ c.ends, c.released < e ∧ e < c.log.length := by
  have hheld {byte : Nat × UInt8} (h : byte ∈ c.held) :
      ∃ p, c.released ≤ p ∧ p < c.log.length ∧ byte.1 = c.ends.countP (· ≤ p) := by
    obtain ⟨m, hm⟩ := List.mem_iff_getElem?.mp h
    rw [held, List.getElem?_drop] at hm
    exact ⟨c.released + m, Nat.le_add_right _ _, (List.getElem?_eq_some_iff.mp hm).1,
      hc.owner _ _ hm⟩
  have hplace {p : Nat} (hle : c.released ≤ p) (hlt : p < c.log.length) :
      ∃ byte ∈ c.held, byte.1 = c.ends.countP (· ≤ p) := by
    refine ⟨c.log[p], ?_, hc.owner p _ (List.getElem?_eq_getElem hlt)⟩
    rw [held, List.mem_iff_getElem?]
    refine ⟨p - c.released, ?_⟩
    rw [List.getElem?_drop, Nat.add_sub_cancel' hle, List.getElem?_eq_getElem hlt]
  constructor
  · rintro ⟨a, ha, b, hb, hne⟩
    refine Classical.byContradiction fun hnone ↦ ?_
    have hcount {p : Nat} (hle : c.released ≤ p) (hlt : p < c.log.length) :
        c.ends.countP (· ≤ p) = c.ends.countP (· ≤ c.released) := by
      refine List.countP_congr fun e he ↦ ?_
      simp only [decide_eq_true_eq]
      refine ⟨fun hep ↦ ?_, fun h ↦ Nat.le_trans h hle⟩
      exact Nat.le_of_not_lt fun hgt ↦ hnone ⟨e, he, hgt, Nat.lt_of_le_of_lt hep hlt⟩
    obtain ⟨p, hp, hplt, ha⟩ := hheld ha
    obtain ⟨q, hq, hqlt, hb⟩ := hheld hb
    exact hne (by rw [ha, hb, hcount hp hplt, hcount hq hqlt])
  · rintro ⟨e, he, hlow, hhigh⟩
    obtain ⟨a, ha, ha'⟩ := hplace (p := e - 1) (by omega) (by omega)
    obtain ⟨b, hb, hb'⟩ := hplace (p := e) (by omega) hhigh
    refine ⟨a, ha, b, hb, ?_⟩
    rw [ha', hb']
    exact Nat.ne_of_lt (countP_lt_of_mem he (by omega))

/-- A listener, after clients have connected, sent and gone in any way: a wait that answers shows
buffered bytes, and of each client the first that it sent were taken up. The window holds bytes of
two clients exactly when a client went after some of its bytes were taken up and before the others
were. -/
theorem run_window_mixed_iff (clock : Nat) (operations : List Operation) (timeout : Option Nat)
    (window : Bytes) (k : Socket)
    (hwait : (Socket.wait timeout).exec ((start clock).run operations).socket = (.ok window, k)) :
    let c := ((start clock).run operations).step (.wait timeout)
    window = c.held.map Prod.snd ∧
    (∀ j, c.bytesOf j <+: c.sent.getD j []) ∧
    ((∃ a ∈ c.held, ∃ b ∈ c.held, a.1 ≠ b.1) ↔
      ∃ e ∈ c.ends, c.released < e ∧ e < c.log.length) := by
  intro c
  have hc : c.Sound := sound_step (sound_run (sound_start clock) operations) (.wait timeout)
  obtain ⟨answer, k', taken, hexec, -, hwindow⟩ :=
    ((start clock).run operations).socket.wait_takes timeout
  obtain ⟨rfl, rfl⟩ := Prod.mk.inj (hexec.symm.trans hwait)
  have hsocket : c.socket = k' := congrArg Prod.snd hexec
  refine ⟨?_, fun j ↦ ⟨_, hc.sent j⟩, hc.mixed_iff⟩
  rw [(hwindow window rfl).1, ← hsocket]
  exact hc.buffer

/-- Two bytes of a client that has gone stand before those of the next one. -/
theorem run_window_mixed_iff_leftover :
    let operations : List Operation :=
      [.connect 0 (.sound [(0, [1, 2])] (some 1)), .wait (some 0), .elapse 1, .wait (some 0),
        .connect 0 (.sound [(1, [3, 4, 5, 6, 7, 8])] none)]
    let c := ((start 0).run operations).step (.wait (some 0))
    (∃ k, (Socket.wait (some 0)).exec ((start 0).run operations).socket =
      (.ok [1, 2, 3, 4, 5, 6, 7, 8], k)) ∧
    c.held.map Prod.fst = [0, 0, 1, 1, 1, 1, 1, 1] ∧ c.ends = [2] ∧ c.released = 0 ∧
      ∃ a ∈ c.held, ∃ b ∈ c.held, a.1 ≠ b.1 := by
  intro operations c
  have hwait : (Socket.wait (some 0)).exec ((start 0).run operations).socket =
      (.ok [1, 2, 3, 4, 5, 6, 7, 8], c.socket) :=
    by rfl
  refine ⟨⟨_, hwait⟩, by decide +kernel, by decide +kernel, by decide +kernel, ?_⟩
  exact (run_window_mixed_iff 0 operations (some 0) _ _ hwait).2.2.mpr
    ⟨2, by decide +kernel, by decide +kernel, by decide +kernel⟩

end Serving

end DetectorLink.Socket
