import DetectorLink.Link.Opening
import DetectorLink.Proofs.Link.Hardware
import DetectorLink.Proofs.Link.Pipe

/-!
# What stands behind a link

An operation on a link is the operation on its adapter or its pipes, and leaves the rest of the link
alone. A debug link releases nothing. An adapter is opened by its driver.
-/

namespace DetectorLink.Link

variable {δ : Type}

section Medium

variable {α : Type} (adapter : HardwareM δ α) (pipe : PipeM δ α) (socket : SocketM α) {link : Link}
  (host : Host δ)

/-- A link of an adapter does what its adapter does. -/
theorem exec_onMedium_hardware {h : Hardware} (hm : link.medium = .hardware h) :
    (onMedium adapter pipe socket).exec (link, host) =
      ((adapter.exec (h, host.driver)).1,
        ({ link with medium := .hardware (adapter.exec (h, host.driver)).2.1 },
          { host with driver := (adapter.exec (h, host.driver)).2.2 })) := by
  simp only [onMedium, LinkM.exec_ofFun, hm]

/-- A link over pipes does what its pipes do. -/
theorem exec_onMedium_pipe {p : Pipe} (hm : link.medium = .pipe p) :
    (onMedium adapter pipe socket).exec (link, host) =
      ((pipe.exec (p, host)).1,
        ({ link with medium := .pipe (pipe.exec (p, host)).2.1 }, (pipe.exec (p, host)).2.2)) := by
  simp only [onMedium, LinkM.exec_ofFun, hm]

/-- A link over a listener does what its listener does at the time of the host. -/
theorem exec_onMedium_socket {k : Socket} (hm : link.medium = .socket k) :
    (onMedium adapter pipe socket).exec (link, host) =
      ((socket.exec { k with clock := host.clock }).1,
        ({ link with medium := .socket (socket.exec { k with clock := host.clock }).2 },
          { host with clock := (socket.exec { k with clock := host.clock }).2.clock })) := by
  simp only [onMedium, LinkM.exec_ofFun, hm]

end Medium

/-! ### Links in order -/

/-- A link of an adapter or over pipes, as opening one leaves it. -/
def Ready (link : Link) : Prop :=
  match link.medium with
  | .hardware h => h.regionSize ≠ 0 → h.consumer < h.regionSize
  | .pipe p => p.rx ≠ []
  | .socket _ => False

/-- An operation that leaves a link in order. -/
def KeepsReady {α : Type} (m : LinkIO δ α) : Prop := ∀ s, s.1.Ready → (m.exec s).2.1.Ready

theorem KeepsReady.bind {α β : Type} {m : LinkIO δ α} {f : α → LinkIO δ β} (hm : KeepsReady m)
    (hf : ∀ a, KeepsReady (f a)) : KeepsReady (m >>= f) := by
  intro s hs
  have ht := hm s hs
  rcases hx : m.exec s with ⟨x | a, t⟩
  · rw [LinkM.exec_bind_error _ hx]
    rwa [hx] at ht
  · rw [LinkM.exec_bind_ok _ hx]
    rw [hx] at ht
    exact hf a t ht

theorem keepsReady_restrict (operation : String) : KeepsReady (δ := δ) (restrict operation) :=
  fun _ hs ↦ hs

theorem keepsReady_setReceiving (on : Bool) : KeepsReady (δ := δ) (setReceiving on) := fun _ hs ↦ hs

theorem keepsReady_onMedium {α : Type} {adapter : HardwareM δ α} {pipe : PipeM δ α}
    {socket : SocketM α}
    (hadapter : ∀ h d, (h.regionSize ≠ 0 → h.consumer < h.regionSize) →
      (adapter.exec (h, d)).2.1.regionSize ≠ 0 →
      (adapter.exec (h, d)).2.1.consumer < (adapter.exec (h, d)).2.1.regionSize)
    (hpipe : ∀ p host, p.rx ≠ [] → (pipe.exec (p, host)).2.1.rx ≠ []) :
    KeepsReady (onMedium adapter pipe socket) := by
  rintro ⟨link, host⟩ hs
  rcases hm : link.medium with h | p | s
  · rw [exec_onMedium_hardware _ _ _ _ hm]
    rw [Ready, hm] at hs
    exact hadapter h host.driver hs
  · rw [exec_onMedium_pipe _ _ _ _ hm]
    rw [Ready, hm] at hs
    exact hpipe p host hs
  · rw [Ready, hm] at hs
    exact hs.elim

variable [Driver δ]

/-! ### Operations -/

/-- The last steps of turning reception on or off. -/
def turn (on : Bool) : LinkIO δ Unit := do
  onMedium (Hardware.enableReceive on) (Pipe.enableReceive on) (Socket.enableReceive on)
  setReceiving on

/-- A link that is in charge releases bytes, a debug link refuses to. -/
theorem exec_acknowledge (link : Link) (host : Host δ) (n : Nat) :
    (acknowledge n).exec (link, host) =
      if link.debug = true then (.error (.restricted "acknowledge"), (link, host))
      else (releaseBytes n).exec (link, host) := by
  have hr : (restrict (δ := δ) "acknowledge").exec (link, host) =
    (if link.debug = true then .error (.restricted "acknowledge") else .ok (), (link, host)) := rfl
  rw [acknowledge, LinkM.exec_bind, hr]
  by_cases hd : link.debug = true
  · rw [ite_cond_eq_true _ _ (eq_true hd), ite_cond_eq_true _ _ (eq_true hd)]
  · rw [ite_cond_eq_false _ _ (eq_false hd), ite_cond_eq_false _ _ (eq_false hd)]

/-- An adapter that is opened behind a device file is opened by the driver there. -/
theorem openAdapter_ok {device : String} {interface : Interface} {debug : Bool}
    {host host' : Host δ} {h : Hardware}
    (ho : openAdapter device interface debug host = (.ok h, host')) :
    ∃ d, Hardware.openDriver interface debug host.driver = (.ok h, d) ∧
      host' = { host with driver := d } := by
  unfold openAdapter at ho
  split at ho
  · cases ho
  · split at ho
    · cases ho
    · split at ho
      · cases ho
      · cases ho
      · cases ho
      · cases ho
      · rcases hd : Hardware.openDriver interface debug host.driver with ⟨r, d⟩
        rw [hd] at ho
        cases ho
        exact ⟨d, rfl, rfl⟩

/-- A regular link of an adapter has its adapter opened, and does not count reception as on. -/
theorem openRegular_hardware_ok {device : String} {interface : Interface} {host host' : Host δ}
    {link : Link} (ho : openRegular device .hardware interface host = (.ok link, host')) :
    ∃ h, link = ⟨.hardware h, false, false⟩ ∧
      openAdapter device interface false host = (.ok h, host') := by
  dsimp only [openRegular] at ho
  rcases ha : openAdapter device interface false host with ⟨x | h, host''⟩ <;> rw [ha] at ho <;>
    cases ho
  exact ⟨h, rfl, rfl⟩

/-- An adapter is opened at the beginning of its region. -/
private theorem consumer_lt_of_openAdapter {device : String} {interface : Interface} {debug : Bool}
    {host host' : Host δ} {h : Hardware}
    (ho : openAdapter device interface debug host = (.ok h, host')) (hz : h.regionSize ≠ 0) :
    h.consumer < h.regionSize := by
  obtain ⟨d, hd, -⟩ := openAdapter_ok ho
  obtain ⟨⟨size, rfl⟩, -⟩ := Hardware.openDriver_ok hd
  exact Nat.pos_of_ne_zero hz

theorem ready_of_openDebug {device : String} {kind : LinkKind} {host host' : Host δ} {link : Link}
    (ho : openDebug device kind host = (.ok link, host')) : link.Ready := by
  cases kind with
  | hardware =>
    dsimp only [openDebug] at ho
    rcases ha : openAdapter device .optical true host with ⟨x | h, host''⟩ <;> rw [ha] at ho <;>
      cases ho
    exact consumer_lt_of_openAdapter ha
  | pipe | socket => cases ho

theorem ready_of_openRegular {device : String} {kind : LinkKind} {interface : Interface}
    {host host' : Host δ} {link : Link} (hkind : kind ≠ .socket)
    (ho : openRegular device kind interface host = (.ok link, host')) : link.Ready := by
  cases kind with
  | hardware =>
    obtain ⟨h, rfl, ha⟩ := openRegular_hardware_ok ho
    exact consumer_lt_of_openAdapter ha
  | pipe =>
    dsimp only [openRegular] at ho
    rcases hp : Pipe.openDevice device host with ⟨x | p, host''⟩ <;> rw [hp] at ho <;> cases ho
    exact Pipe.rx_ne_nil_of_openDevice host hp
  | socket => exact absurd rfl hkind

theorem keepsReady_reset : KeepsReady (δ := δ) reset := by
  refine (keepsReady_onMedium ?_ ?_).bind fun _ ↦ keepsReady_setReceiving false
  · intro h d hc
    rcases h.reset_cases d with ⟨x, e, -, hx⟩ | ⟨n, e, f, -, -, ⟨x, hx⟩ | hx⟩ <;> rw [hx]
    · exact hc
    · exact hc
    · exact Nat.pos_of_ne_zero
  · exact fun _ _ hp ↦ hp

theorem keepsReady_enableReceive (on : Bool) : KeepsReady (δ := δ) (enableReceive on) := by
  have hturn : KeepsReady (δ := δ) (turn on) := by
    refine (keepsReady_onMedium ?_ ?_).bind fun _ ↦ keepsReady_setReceiving on
    · intro h d hc
      rcases h.command_cases d DriverCommand.rxEnable (if on then 1 else 0) with
        ⟨n, e, -, hx⟩ | ⟨x, e, -, hx⟩ <;> rw [Hardware.enableReceive, hx] <;> exact hc
    · exact fun _ _ hp ↦ hp
  refine (keepsReady_restrict _).bind fun _ ↦ ?_
  refine KeepsReady.bind (fun _ hs ↦ hs) fun s ↦ ?_
  split
  · exact keepsReady_reset.bind fun _ ↦ hturn
  · exact hturn

theorem keepsReady_acknowledge (n : Nat) : KeepsReady (δ := δ) (acknowledge n) := by
  refine (keepsReady_restrict _).bind fun _ ↦ keepsReady_onMedium ?_ ?_
  · intro h d hc
    rcases h.acknowledge_cases d n with
      ⟨_, hx⟩ | ⟨_, _, hx⟩ | ⟨_, _, ⟨k, e, _, hx⟩ | ⟨x, e, _, hx⟩⟩ <;> rw [hx]
    · exact hc
    · exact hc
    · exact fun hz ↦ Nat.mod_lt _ (Nat.pos_of_ne_zero hz)
    · exact hc
  · exact fun _ _ hp ↦ hp

theorem keepsReady_wait [MappedMemory δ] (timeout : Option Nat) :
    KeepsReady (δ := δ) (wait timeout) := by
  refine keepsReady_onMedium ?_ ?_
  · intro h d hc
    by_cases hz : h.regionSize = 0
    · rw [Hardware.exec_wait_of_regionSize_eq_zero _ hz]
      exact hc
    · obtain ⟨e, -, ⟨x, hx⟩ | ⟨producer, -, hx⟩⟩ := Hardware.wait_cases d (hc hz) timeout <;>
        rw [hx] <;>
        exact hc
  · intro p host hp
    obtain ⟨r, p', host', hx, hrx, -⟩ := Pipe.wait_cases host hp timeout
    rw [hx]
    exact hrx ▸ hp

/-- What can become of a link of an adapter or over pipes. -/
inductive Opened : Link × Host δ → Prop where
  /-- A regular link is opened. -/
  | regular {device : String} {kind : LinkKind} {interface : Interface} {host host' : Host δ}
      {link : Link} (hkind : kind ≠ .socket)
      (ho : openRegular device kind interface host = (.ok link, host')) : Opened (link, host')
  /-- A debug link is opened. -/
  | debug {device : String} {kind : LinkKind} {host host' : Host δ} {link : Link}
      (ho : openDebug device kind host = (.ok link, host')) : Opened (link, host')
  /-- It is reset. -/
  | reset {s : Link × Host δ} (h : Opened s) : Opened (reset.exec s).2
  /-- Reception is turned on or off. -/
  | enableReceive {s : Link × Host δ} (h : Opened s) (on : Bool) :
    Opened ((enableReceive on).exec s).2
  /-- A window is waited for. -/
  | wait {s : Link × Host δ} (h : Opened s) (timeout : Option Nat) :
    Opened ((wait timeout).exec s).2
  /-- Bytes are released. -/
  | acknowledge {s : Link × Host δ} (h : Opened s) (n : Nat) : Opened ((acknowledge n).exec s).2
  /-- Something happens on the host. -/
  | outside {link : Link} {host : Host δ} (h : Opened (link, host)) (host' : Host δ) :
    Opened (link, host')

/-- A link is in order whatever has become of it. -/
theorem Opened.ready [MappedMemory δ] {s : Link × Host δ} (h : Opened s) : s.1.Ready := by
  induction h with
  | regular hkind ho => exact ready_of_openRegular hkind ho
  | debug ho => exact ready_of_openDebug ho
  | reset _ ih => exact keepsReady_reset _ ih
  | enableReceive _ on ih => exact keepsReady_enableReceive on _ ih
  | wait _ timeout ih => exact keepsReady_wait timeout _ ih
  | acknowledge _ n ih => exact keepsReady_acknowledge n _ ih
  | outside _ _ ih => exact ih

end DetectorLink.Link
