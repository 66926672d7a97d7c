import DetectorLink.Proofs.Link.Medium
import DetectorLink.Proofs.Link.Watched
import DetectorLink.Proofs.Ring.Copying
import DetectorLink.Ring.Direct

/-!
# A link that only looks on

A debug link is opened beside a link that is in charge. Whatever is asked of it, of its control
half, and of the rings and copiers that are made of it, the device is given no command but resets,
and those only where a reset is asked for. Nothing is released, so that each read begins at the
start of the region: it shows the same bytes again if the device replies the same and the region has
not changed.
-/

namespace DetectorLink

namespace Link

variable {δ α β : Type} {size : Nat}

/-- A debug link of an adapter that has released nothing. -/
def onlooker (size window : Nat) (bars : List (Nat × Nat)) : Link :=
  ⟨.hardware ⟨.optical, size, 0, window, bars⟩, true, false⟩

theorem medium_onlooker (size window : Nat) (bars : List (Nat × Nat)) :
    (onlooker size window bars).medium = .hardware ⟨.optical, size, 0, window, bars⟩ := rfl

/-- A link only looks on, at a region of some size. -/
def Onlooks (size : Nat) (link : Link) : Prop := ∃ window bars, link = onlooker size window bars

/-- The commands that the device was given. -/
def commands (s : Link × Host (Watched δ)) : List (Nat × Bytes) := s.2.driver.commands

/-- An operation by which a link that only looks on goes on doing so, and which gives the device no
command. -/
def Peeks (m : LinkIO (Watched δ) α) : Prop :=
  ∀ size s, Onlooks size s.1 → Onlooks size (m.exec s).2.1 ∧ commands (m.exec s).2 = commands s

theorem Peeks.bind {m : LinkIO (Watched δ) α} {f : α → LinkIO (Watched δ) β} (hm : Peeks m)
    (hf : ∀ a, Peeks (f a)) : Peeks (m >>= f) := by
  intro size s hs
  have ht := hm size s hs
  rcases hr : m.exec s with ⟨x | a, t⟩
  · rw [LinkM.exec_bind_error _ hr]
    rwa [hr] at ht
  · rw [LinkM.exec_bind_ok _ hr]
    rw [hr] at ht
    have hu := hf a size t ht.1
    exact ⟨hu.1, hu.2.trans ht.2⟩

theorem peeks_lift (r : Except LinkError α) : Peeks (δ := δ) (LinkM.lift r) :=
  fun _ _ hs ↦ ⟨hs, rfl⟩

/-- What is refused on a debug link does nothing. -/
theorem peeks_restrict_bind (operation : String) (f : Unit → LinkIO (Watched δ) α) :
    Peeks (restrict operation >>= f) := by
  rintro size ⟨link, host⟩ ⟨window, bars, rfl⟩
  exact ⟨⟨window, bars, rfl⟩, rfl⟩

/-- A steady operation of the adapter looks on. -/
theorem peeks_onMedium {adapter : HardwareM (Watched δ) α} (ha : Hardware.Steady adapter)
    (pipe : PipeM (Watched δ) α) (socket : SocketM α) : Peeks (onMedium adapter pipe socket) := by
  rintro size ⟨link, host⟩ ⟨window, bars, rfl⟩
  obtain ⟨⟨window', bars', hh⟩, hc⟩ := ha (⟨.optical, size, 0, window, bars⟩, host.driver) rfl
  rw [exec_onMedium_hardware adapter pipe socket host (medium_onlooker size window bars)]
  exact ⟨⟨window', bars', by rw [hh, onlooker, onlooker]⟩, hc⟩

variable [Driver δ]

theorem peeks_wait (timeout : Option Nat) : Peeks (δ := δ) (wait timeout) :=
  peeks_onMedium (Hardware.steady_wait timeout) _ _

theorem peeks_status : Peeks (δ := δ) status := by
  refine peeks_onMedium ?_ _ _
  rw [map_eq_pure_bind]
  exact Hardware.steady_readStatus.bind fun _ ↦ Hardware.steady_pure _

theorem peeks_registerRead (bar offset count : Nat) :
    Peeks (δ := δ) (registerRead bar offset count) :=
  (peeks_lift _).bind fun _ ↦ peeks_onMedium (Hardware.steady_registerRead bar offset count) _ _

theorem peeks_registerWrite (bar offset : Nat) (words : List UInt32) :
    Peeks (δ := δ) (registerWrite bar offset words) :=
  (peeks_lift _).bind fun _ ↦ peeks_onMedium (Hardware.steady_registerWrite bar offset words) _ _

/-- A read of a debug link is a wait, of which it shows as much as fits. -/
theorem exec_read_of_onlooks {s : Link × Host (Watched δ)} (hs : Onlooks size s.1) (max : Nat)
    (timeout : Option Nat) :
    (read max timeout).exec s =
      (((wait timeout).exec s).1.map fun window ↦
        window.take (alignDown (min window.length max)), ((wait timeout).exec s).2) := by
  have ht := (peeks_wait timeout size s hs).1
  rw [read, LinkM.exec_bind]
  generalize (wait timeout).exec s = waited at ht ⊢
  obtain ⟨x | data, ⟨link, host⟩⟩ := waited
  · rfl
  · obtain ⟨window, bars, rfl⟩ := ht
    rfl

/-- What a reset of a link that only looks on tells the device. -/
def onlookerReset : Nat × Bytes := (DriverCommand.reset, Word.toBytes 1)

/-- A reset is one command, whether or not it succeeds. -/
theorem exec_reset_of_onlooks {s : Link × Host (Watched δ)} (hs : Onlooks size s.1) :
    Onlooks size (reset.exec s).2.1 ∧
      commands (reset.exec s).2 = commands s ++ [onlookerReset] := by
  obtain ⟨link, host⟩ := s
  obtain ⟨window, bars, rfl⟩ := hs
  have hm := exec_onMedium_hardware Hardware.reset Pipe.reset Socket.reset host
    (medium_onlooker size window bars)
  have hw := Watched.commands_writeAt DriverCommand.reset (Word.toBytes 1) host.driver
  rw [reset, LinkM.exec_bind, hm]
  rcases Hardware.reset_cases ⟨.optical, size, 0, window, bars⟩ host.driver with
    ⟨x, e, hd, hx⟩ | ⟨n, e, f, hd, hr, ⟨x, hx⟩ | hx⟩
  · rw [hx]
    exact ⟨⟨window, bars, rfl⟩, (congrArg (·.2.commands) hd).symm.trans hw⟩
  · rw [hx]
    have he := (congrArg (·.2.commands) hd).symm.trans hw
    exact ⟨⟨window, bars, rfl⟩, (Watched.commands_of_reads hr).trans he⟩
  · rw [hx]
    have he := (congrArg (·.2.commands) hd).symm.trans hw
    exact ⟨⟨0, bars, rfl⟩, (Watched.commands_of_reads hr).trans he⟩

/-- An adapter that is opened for looking on is only read. -/
theorem reads_openDriver_debug (interface : Interface) (d : δ) :
    Driver.Reads d (Hardware.openDriver interface true d).2 := by
  have hversion : Driver.Reads d (Driver.readAt DriverCommand.version 8 d).2 :=
    .readAt _ _ (.refl d)
  have hstatus := Driver.Reads.readAt DriverCommand.getStatus StatusBlock.byteCount hversion
  dsimp only [Hardware.openDriver]
  split
  · exact hversion
  · split
    · exact hstatus
    · next block _ =>
      have hmap := Driver.Reads.mapRegion block.regionSize.toNat hstatus
      split <;> next hk => rwa [hk] at hmap

/-- A debug link is opened at the beginning of the region, with no command. -/
theorem onlooks_of_openDebug {device : String} {host host₀ : Host (Watched δ)} {link : Link}
    (ho : openDebug device .hardware host = (.ok link, host₀)) :
    (∃ size, link.Onlooks size) ∧ host₀.driver.commands = host.driver.commands := by
  dsimp only [openDebug] at ho
  rcases ha : openAdapter device .optical true host with ⟨x | h, host'⟩ <;> rw [ha] at ho <;>
    cases ho
  obtain ⟨d, hd, rfl⟩ := openAdapter_ok ha
  obtain ⟨⟨size, rfl⟩, -⟩ := Hardware.openDriver_ok hd
  have hreads := reads_openDriver_debug .optical host.driver
  rw [hd] at hreads
  exact ⟨⟨size.toNat, 0, [], rfl⟩, Watched.commands_of_reads hreads⟩

end Link

namespace Onlooking

/-! ### What is asked -/

/-- What the owner of a link asks of it. -/
inductive Request where
  /-- Reset it. -/
  | reset
  /-- Turn reception on or off. -/
  | enableReceive (on : Bool)
  /-- Wait for a window. -/
  | wait (timeout : Option Nat)
  /-- Release bytes. -/
  | acknowledge (n : Nat)
  /-- Take bytes. -/
  | read (max : Nat) (timeout : Option Nat)
  /-- Receive packets with link errors too, or not. -/
  | enableErrorPackets (on : Bool)
  /-- Keep packets from before the last reset, or not. -/
  | enableOldPackets (on : Bool)
  deriving DecidableEq, Repr

/-- What may happen at any time: what a control half is asked, and what becomes of the device. -/
inductive Control (δ : Type) where
  /-- Send a packet. -/
  | send (data : Bytes)
  /-- Tell the status of the board. -/
  | status
  /-- Read register words. -/
  | registerRead (bar offset count : Nat)
  /-- Write register words. -/
  | registerWrite (bar offset : Nat) (words : List UInt32)
  /-- Something happens at the device. -/
  | device (f : δ → δ)

variable {δ : Type} [Driver δ]

/-- The link and its host after a request. -/
def Request.after (r : Request) (s : Link × Host (Watched δ)) : Link × Host (Watched δ) :=
  match r with
  | reset => (Link.reset.exec s).2
  | enableReceive on => ((Link.enableReceive on).exec s).2
  | wait timeout => ((Link.wait timeout).exec s).2
  | acknowledge n => ((Link.acknowledge n).exec s).2
  | read max timeout => ((Link.read max timeout).exec s).2
  | enableErrorPackets on => ((Link.enableErrorPackets on).exec s).2
  | enableOldPackets on => ((Link.enableOldPackets on).exec s).2

/-- The link and its host after something that may happen at any time. -/
def Control.after (c : Control δ) (s : Link × Host (Watched δ)) : Link × Host (Watched δ) :=
  match c with
  | send data => ((Link.send data).exec s).2
  | status => (Link.status.exec s).2
  | registerRead bar offset count => ((Link.registerRead bar offset count).exec s).2
  | registerWrite bar offset words => ((Link.registerWrite bar offset words).exec s).2
  | device f => (s.1, { s.2 with driver := { s.2.driver with driver := f s.2.driver.driver } })

/-! ### What is made of a link -/

end Onlooking

/-- What has become of a link: its owner holds it, or a ring or a copier that it went into, or it
was closed. A control half works in any case. -/
inductive Onlooking (δ : Type) where
  /-- The link itself. -/
  | link (s : Link × Host (Watched δ))
  /-- A ring without memory of its own. -/
  | ring (ring : DirectRing) (s : Link × Host (Watched δ))
  /-- A copier, which waits for some time in each round. -/
  | copier (poll : Nat) (c : Copying (Link × Host (Watched δ)) (Onlooking.Control δ))
  /-- Nothing any more. -/
  | closed (s : Link × Host (Watched δ))

namespace Onlooking

/-- Something that happens. -/
inductive Event (δ : Type) where
  /-- The owner asks the link. -/
  | request (r : Request)
  /-- Something that may happen at any time. -/
  | control (c : Control δ)
  /-- The link goes into a ring without memory of its own. -/
  | openRing
  /-- The ring is waited on. -/
  | ringWait (timeout : Option Nat)
  /-- Bytes of the ring are consumed. -/
  | ringConsume (n : Nat)
  /-- The link is taken out of the ring. -/
  | closeRing
  /-- The link goes into a copier with a ring of some size. -/
  | startCopier (size poll : Nat)
  /-- The copier goes on. -/
  | copier (event : Copying.Event (Control δ))
  /-- The link is taken back from a copier that ended. -/
  | joinCopier
  /-- The link is closed, with the ring that it is in. -/
  | close

/-- True for a reset. -/
def Event.isReset {δ : Type} : Event δ → Bool
  | request .reset => true
  | _ => false

theorem Event.eq_of_isReset {δ : Type} {event : Event δ} (h : event.isReset = true) :
    event = .request .reset := by
  unfold isReset at h
  split at h
  · rfl
  · contradiction

variable {δ : Type}

/-- The link and its host. -/
def state : Onlooking δ → Link × Host (Watched δ)
  | link s | ring _ s | closed s => s
  | copier _ c => c.state

/-- The commands that the device was given. -/
def commands (o : Onlooking δ) : List (Nat × Bytes) := Link.commands o.state

variable [Driver δ]

/-- Something that may happen at any time. -/
def meanwhile (c : Control δ) : Onlooking δ → Onlooking δ
  | link s => link (c.after s)
  | ring r s => ring r (c.after s)
  | copier poll copying => copier poll (copying.step Link.source Control.after poll (.outside c))
  | closed s => closed (c.after s)

/-- What happens in an event. An event that cannot happen changes nothing. A link that cannot go
into a ring or a copier is closed. -/
def step (o : Onlooking δ) (event : Event δ) : Onlooking δ :=
  match o, event with
  | o, .control c => o.meanwhile c
  | link s, .request r => link (r.after s)
  | link s, .openRing =>
    match Link.status.exec s with
    | (.ok status, s) => ring (.ofSize status.regionSize) s
    | (.error _, s) => closed s
  | link s, .startCopier size poll =>
    match Ring.create size with
    | .ok r => copier poll (.start s r)
    | .error _ => closed s
  | link s, .close => closed s
  | ring r s, .ringWait timeout =>
    let (r, s) := ((DirectRing.wait Link.source timeout).exec (r, s)).2
    ring r s
  | ring r s, .ringConsume n =>
    let (r, s) := ((DirectRing.consume Link.source n).exec (r, s)).2
    ring r s
  | ring _ s, .closeRing => link s
  | ring _ s, .close => closed s
  | copier poll c, .copier event => copier poll (c.step Link.source Control.after poll event)
  | copier poll c, .joinCopier => if c.place = .ended then link c.state else copier poll c
  | o, _ => o

/-- What happens in events, one after the other. -/
def run (o : Onlooking δ) (events : List (Event δ)) : Onlooking δ := events.foldl step o

/-! ### What one event does -/

variable {size : Nat}

/-- A request other than a reset looks on. -/
theorem peeks_request {r : Request} (hr : r ≠ .reset) {s : Link × Host (Watched δ)}
    (hs : s.1.Onlooks size) :
    (r.after s).1.Onlooks size ∧ Link.commands (r.after s) = Link.commands s := by
  cases r with
  | reset => contradiction
  | enableReceive on => exact Link.peeks_restrict_bind _ _ size s hs
  | wait timeout => exact Link.peeks_wait timeout size s hs
  | acknowledge n => exact Link.peeks_restrict_bind _ _ size s hs
  | read max timeout =>
    rw [Request.after, Link.exec_read_of_onlooks hs]
    exact Link.peeks_wait timeout size s hs
  | enableErrorPackets on => exact Link.peeks_restrict_bind _ _ size s hs
  | enableOldPackets on => exact Link.peeks_restrict_bind _ _ size s hs

/-- What may happen at any time looks on. -/
theorem peeks_control (c : Control δ) {s : Link × Host (Watched δ)} (hs : s.1.Onlooks size) :
    (c.after s).1.Onlooks size ∧ Link.commands (c.after s) = Link.commands s := by
  cases c with
  | send data => exact Link.peeks_restrict_bind _ _ size s hs
  | status => exact Link.peeks_status size s hs
  | registerRead bar offset count => exact Link.peeks_registerRead bar offset count size s hs
  | registerWrite bar offset words => exact Link.peeks_registerWrite bar offset words size s hs
  | device f => exact ⟨hs, rfl⟩

/-- A step of a copier asks the link at most for a window or, in vain, for a release. -/
theorem peeks_copying (poll : Nat) (event : Copying.Event (Control δ))
    {c : Copying (Link × Host (Watched δ)) (Control δ)} (hs : c.state.1.Onlooks size) :
    (c.step Link.source Control.after poll event).state.1.Onlooks size ∧
      Link.commands (c.step Link.source Control.after poll event).state =
        Link.commands c.state := by
  cases event with
  | consume n => exact ⟨hs, rfl⟩
  | stop => exact ⟨hs, rfl⟩
  | outside what => exact peeks_control what hs
  | copier =>
    show (c.advance Link.source poll).state.1.Onlooks size ∧
      Link.commands (c.advance Link.source poll).state = Link.commands c.state
    unfold Copying.advance
    cases c.place with
    | looking =>
      rw [c.look_asks_nothing.2]
      exact ⟨hs, rfl⟩
    | waiting =>
      dsimp only
      rw [(Copying.take_asks_nothing _ _).2]
      exact Link.peeks_wait (some poll) size c.state hs
    | holding data =>
      rw [(c.push_asks_nothing data).2]
      exact ⟨hs, rfl⟩
    | releasing n =>
      dsimp only
      rw [(Copying.conclude_asks_nothing _ _).2]
      exact Link.peeks_restrict_bind _ _ size c.state hs
    | ended => exact ⟨hs, rfl⟩

/-- Waiting on a ring waits on the link, unless an error is kept. -/
theorem peeks_ringWait (timeout : Option Nat) (r : DirectRing) {s : Link × Host (Watched δ)}
    (hs : s.1.Onlooks size) :
    (((DirectRing.wait Link.source timeout).exec (r, s)).2.2.1.Onlooks size) ∧
      Link.commands ((DirectRing.wait Link.source timeout).exec (r, s)).2.2 = Link.commands s := by
  rw [DirectRing.wait, LinkM.exec_ofFun]
  dsimp only
  cases r.error with
  | some x => exact ⟨hs, rfl⟩
  | none => exact Link.peeks_wait timeout size s hs

/-- Consuming bytes of a ring is refused by the link. -/
theorem peeks_ringConsume (n : Nat) (r : DirectRing) {s : Link × Host (Watched δ)}
    (hs : s.1.Onlooks size) :
    (((DirectRing.consume Link.source n).exec (r, s)).2.2.1.Onlooks size) ∧
      Link.commands ((DirectRing.consume Link.source n).exec (r, s)).2.2 = Link.commands s := by
  obtain ⟨link, host⟩ := s
  obtain ⟨window, bars, rfl⟩ := hs
  exact ⟨⟨window, bars, rfl⟩, rfl⟩

/-- An event other than a reset gives the device no command. -/
theorem peeks_step {o : Onlooking δ} (hs : o.state.1.Onlooks size) {event : Event δ}
    (he : event.isReset = false) :
    (o.step event).state.1.Onlooks size ∧ (o.step event).commands = o.commands := by
  -- the cases of `step` in their order; what goes into a ring or a copier keeps its link
  unfold step
  split
  · next c =>
    cases o with
    | link s => exact peeks_control c hs
    | ring r s => exact peeks_control c hs
    | copier poll copying => exact peeks_copying poll (.outside c) hs
    | closed s => exact peeks_control c hs
  · next s r =>
    refine peeks_request ?_ hs
    rintro rfl
    contradiction
  · next s =>
    have ht := Link.peeks_status size s hs
    generalize Link.status.exec s = answered at ht ⊢
    obtain ⟨x | status, t⟩ := answered <;> exact ht
  · next s size poll => cases Ring.create size <;> exact ⟨hs, rfl⟩
  · exact ⟨hs, rfl⟩
  · next r s timeout => exact peeks_ringWait timeout r hs
  · next r s n => exact peeks_ringConsume n r hs
  · exact ⟨hs, rfl⟩
  · exact ⟨hs, rfl⟩
  · next poll c event => exact peeks_copying poll event hs
  · next poll c => split <;> exact ⟨hs, rfl⟩
  · exact ⟨hs, rfl⟩

/-- A reset gives the device one command if the owner holds the link, and none else. -/
theorem step_reset {o : Onlooking δ} (hs : o.state.1.Onlooks size) :
    (o.step (.request .reset)).state.1.Onlooks size ∧
      ((o.step (.request .reset)).commands = o.commands ∨
        (o.step (.request .reset)).commands = o.commands ++ [Link.onlookerReset]) := by
  cases o with
  | link s => exact (Link.exec_reset_of_onlooks hs).imp_right .inr
  | _ => exact ⟨hs, .inl rfl⟩

/-- However a debug link is used, it goes on looking on, and the device is given resets only, at
most as many as were asked for. -/
theorem run_commands {o : Onlooking δ} (hs : o.state.1.Onlooks size) (events : List (Event δ)) :
    (o.run events).state.1.Onlooks size ∧ ∃ k ≤ events.countP Event.isReset,
      (o.run events).commands = o.commands ++ List.replicate k Link.onlookerReset := by
  induction events generalizing o with
  | nil => exact ⟨hs, 0, Nat.le_refl 0, (List.append_nil _).symm⟩
  | cons event rest ih =>
    cases he : event.isReset with
    | false =>
      obtain ⟨ht, hc⟩ := peeks_step hs he
      obtain ⟨hu, k, hk, hrun⟩ := ih ht
      refine ⟨hu, k, ?_, hrun.trans (congrArg (· ++ _) hc)⟩
      rwa [List.countP_cons_of_neg (ne_true_of_eq_false he)]
    | true =>
      obtain rfl := Event.eq_of_isReset he
      obtain ⟨ht, hc⟩ := step_reset hs
      obtain ⟨hu, k, hk, hrun⟩ := ih ht
      rw [List.countP_cons_of_pos he]
      rcases hc with hc | hc
      · exact ⟨hu, k, Nat.le_succ_of_le hk, hrun.trans (congrArg (· ++ _) hc)⟩
      · refine ⟨hu, k + 1, Nat.succ_le_succ hk, ?_⟩
        rw [List.replicate_succ, List.append_cons, ← hc]
        exact hrun

/-- Two reads of a link that only looks on show the same if they hear the same replies and find the
same region. -/
theorem read_eq_of_replies {s t : Link × Host (Watched δ)} (hs : s.1.Onlooks size)
    (ht : t.1.Onlooks size) {max : Nat} {timeout timeout' : Option Nat} {replies : List Reply}
    (hd : ((Link.read max timeout).exec s).2.2.driver.replies = s.2.driver.replies ++ replies)
    (hd' : ((Link.read max timeout').exec t).2.2.driver.replies = t.2.driver.replies ++ replies)
    (hload : ∀ k ≤ size,
      Driver.load regionAddress k ((Link.read max timeout).exec s).2.2.driver =
        Driver.load regionAddress k ((Link.read max timeout').exec t).2.2.driver) :
    ((Link.read max timeout).exec s).1 = ((Link.read max timeout').exec t).1 := by
  rw [Link.exec_read_of_onlooks hs] at hd hload ⊢
  rw [Link.exec_read_of_onlooks ht] at hd' hload ⊢
  obtain ⟨link, host⟩ := s
  obtain ⟨window, bars, rfl⟩ := hs
  obtain ⟨link', host'⟩ := t
  obtain ⟨window', bars', rfl⟩ := ht
  have hwait : ((Hardware.wait timeout).exec (⟨.optical, size, 0, window, bars⟩, host.driver)).1 =
      ((Hardware.wait timeout').exec (⟨.optical, size, 0, window', bars'⟩, host'.driver)).1 :=
    Hardware.wait_eq_of_replies rfl rfl rfl hd hd' hload
  exact congrArg (Except.map _) hwait

/-- However a debug link of an adapter is used, and whatever the device replies: the device is given
no command but resets, at most as many as were asked for, and none by any other event; nothing is
released; and two reads of equally many bytes show the same if the device replies the same and the
region holds the same. -/
theorem run_looks_on {device : String} {host host₀ : Host (Watched δ)} {link : Link}
    (ho : Link.openDebug device .hardware host = (.ok link, host₀)) (events : List (Event δ)) :
    let o := run (.link (link, host₀)) events
    (∃ k ≤ events.countP Event.isReset,
      o.commands = host.driver.commands ++ List.replicate k Link.onlookerReset) ∧
    (∀ event, event.isReset = false → (o.step event).commands = o.commands) ∧
    ∃ h : Hardware, o.state.1.medium = .hardware h ∧ h.consumer = 0 ∧
      ∀ (later : List (Event δ)) (max : Nat) (timeout timeout' : Option Nat)
        (replies : List Reply), let s := o.state; let t := (o.run later).state
        ((Link.read max timeout).exec s).2.2.driver.replies = s.2.driver.replies ++ replies →
        ((Link.read max timeout').exec t).2.2.driver.replies = t.2.driver.replies ++ replies →
        (∀ k ≤ h.regionSize,
          Driver.load regionAddress k ((Link.read max timeout).exec s).2.2.driver =
            Driver.load regionAddress k ((Link.read max timeout').exec t).2.2.driver) →
        ((Link.read max timeout).exec s).1 = ((Link.read max timeout').exec t).1 := by
  intro o
  obtain ⟨⟨size, hl⟩, hcommands⟩ := Link.onlooks_of_openDebug ho
  obtain ⟨hs, k, hk, hrun⟩ := run_commands (o := .link (link, host₀)) hl events
  refine ⟨⟨k, hk, hrun.trans (congrArg (· ++ _) hcommands)⟩,
    fun event he ↦ (peeks_step hs he).2, ?_⟩
  obtain ⟨window, bars, hlink⟩ := id hs
  refine ⟨⟨.optical, size, 0, window, bars⟩, congrArg Link.medium hlink, rfl, ?_⟩
  intro later max timeout timeout' replies
  exact read_eq_of_replies hs (run_commands hs later).1

/-- Two reads beside a refused release show the first two words of the region, and a reset in
between is the only command. -/
theorem run_looks_on_twice :
    let b : Board := { Board.fresh 64 [.ofState 8 0x20 false, .ofState 8 0x20 false] with
      memory := Memory.zero.store regionAddress [1, 2, 3, 4, 5, 6, 7, 8] }
    let host : Host (Watched Board) := .ofFiles ⟨[(["d"], .device)], []⟩ (.start b)
    let host₀ : Host (Watched Board) :=
      { host with driver := (Hardware.openDriver .optical true host.driver).2 }
    let o := run (.link (Link.onlooker 64 0 [], host₀)) [.request .reset]
    let t := (o.run [.request (.read 8 none), .request (.acknowledge 8)]).state
    Link.openDebug "d" .hardware host = (.ok (Link.onlooker 64 0 []), host₀) ∧
      o.commands = [Link.onlookerReset] ∧
      ((Link.read 8 none).exec o.state).1.toOption = some [1, 2, 3, 4, 5, 6, 7, 8] ∧
      ((Link.read 8 none).exec o.state).1 = ((Link.read 8 (some 5)).exec t).1 := by
  intro b host host₀ o t
  have hopen : Link.openDebug "d" .hardware host = (.ok (Link.onlooker 64 0 []), host₀) := rfl
  obtain ⟨_, _, h, hm, _, hread⟩ := run_looks_on hopen [.request .reset]
  refine ⟨hopen, by decide +kernel, by decide +kernel, ?_⟩
  exact hread [.request (.read 8 none), .request (.acknowledge 8)] 8 none (some 5)
    [.readiness .ready, .answer (.ok (Word.toByteList [8, 0x20]))] rfl rfl (fun k _ ↦ rfl)

end Onlooking

end DetectorLink
