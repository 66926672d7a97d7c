import DetectorLink.Proofs.Link.Restart
import DetectorLink.Proofs.Link.Watched
import DetectorLink.Proofs.Tool.Kept
import DetectorLink.Tool.Run

/-!
# Reception after a command

A dump, a discovery and a verification turn reception on and off again. Between the two they wait,
release, send and sleep, and none of this tells the adapter anything about reception. A dump turns
reception off whatever became of it, once there is a ring to read from. The other two go on only as
long as nothing fails, so that every run of them that fails leaves the adapter receiving.
-/

namespace DetectorLink

variable {δ : Type} {given taken : List (Nat × Bytes)}

/-! ### What a driver was told of reception -/

namespace Recorded

/-- The commands that enable or disable reception. -/
def enablings (log : List (Nat × Bytes)) : List (Nat × Bytes) :=
  log.filter (·.1 == DriverCommand.rxEnable)

theorem enablings_concat (log : List (Nat × Bytes)) {command : Nat}
    (h : command ≠ DriverCommand.rxEnable) (data : Bytes) :
    enablings (log ++ [(command, data)]) = enablings log := by
  simp [enablings, h]

theorem enablings_concat_receptionEntry (log : List (Nat × Bytes)) (on : Bool) :
    enablings (log ++ [Link.receptionEntry on]) = enablings log ++ [Link.receptionEntry on] :=
  List.filter_append ..

end Recorded

namespace Watched

variable [Driver δ]

/-- Reading through a watched driver is reading. -/
theorem driver_of_reads {w v : Watched δ} (h : Driver.Reads w v) :
    Driver.Reads w.driver v.driver := by
  induction h with
  | refl => exact .refl _
  | await timeout _ ih => exact .await timeout ih
  | readAt command n _ ih => exact .readAt command n ih
  | mapRegion size _ ih => exact .mapRegion size ih

/-- A command is written down, and recorded if the driver takes it. -/
theorem writeAt_cases (command : Nat) (data : Bytes) (d : Watched (Recorded δ)) :
    (∃ n e, Driver.writeAt command data d = (.ok n, e) ∧
      e.commands = d.commands ++ [(command, data)] ∧
      e.driver.written = d.driver.written ++ [(command, data)] ∧
      e.replies = d.replies ++ [.taken (.ok n)]) ∨
    ∃ x e, Driver.writeAt command data d = (.error x, e) ∧
      e.commands = d.commands ++ [(command, data)] ∧
      e.driver.written = d.driver.written ∧
      e.replies = d.replies ++ [.taken (.error x)] := by
  have hd : Driver.writeAt command data d = ((Driver.writeAt command data d.driver).1,
    { d.reply (Driver.writeAt command data d.driver).2
        (.taken (Driver.writeAt command data d.driver).1) with
      commands := d.commands ++ [(command, data)] }) := rfl
  rcases hr : Driver.writeAt command data d.driver with ⟨x | n, r⟩ <;> rw [hr] at hd
  · exact .inr ⟨x, _, hd, rfl, Recorded.written_of_writeAt_error hr, rfl⟩
  · exact .inl ⟨n, _, hd, rfl, Recorded.written_of_writeAt_ok hr, rfl⟩

/-- A driver was given these commands about reception, and took those. -/
structure Told (given taken : List (Nat × Bytes)) (d : Watched (Recorded δ)) : Prop where
  given : Recorded.enablings d.commands = given
  taken : Recorded.enablings d.driver.written = taken

variable {d e : Watched (Recorded δ)}

/-- Reading is about nothing. -/
theorem Told.reads (h : Told given taken d) (hr : Driver.Reads d e) : Told given taken e where
  given := by rw [commands_of_reads hr, h.given]
  taken := by rw [Recorded.written_of_reads (driver_of_reads hr), h.taken]

/-- Other commands are about something else. -/
theorem Told.writeAt (h : Told given taken d) {command : Nat}
    (hc : command ≠ DriverCommand.rxEnable) (data : Bytes) :
    Told given taken (Driver.writeAt command data d).2 := by
  rcases writeAt_cases command data d with ⟨n, e, hd, hg, ht, -⟩ | ⟨x, e, hd, hg, ht, -⟩ <;> rw [hd]
  · exact ⟨by rw [hg, Recorded.enablings_concat _ hc, h.given],
      by rw [ht, Recorded.enablings_concat _ hc, h.taken]⟩
  · exact ⟨by rw [hg, Recorded.enablings_concat _ hc, h.given], by rw [ht, h.taken]⟩

end Watched

/-! ### Operations of an adapter -/

namespace Hardware

/-- The driver was told this of reception. -/
abbrev Told (given taken : List (Nat × Bytes)) (s : Hardware × Watched (Recorded δ)) : Prop :=
  s.2.Told given taken

theorem keeps_get : Keeps (Told given taken) (get (δ := Watched (Recorded δ))) := fun _ hs ↦ hs

theorem keeps_modify (f : Hardware → Hardware) :
    Keeps (Told given taken) (modify (δ := Watched (Recorded δ)) f) := fun _ hs ↦ hs

variable [Driver δ] {α : Type}

theorem keeps_of_onlyReads {m : HardwareM (Watched (Recorded δ)) α} (h : OnlyReads m) :
    Keeps (Told given taken) m := fun s hs ↦ hs.reads (h s)

theorem keeps_readStatus : Keeps (Told given taken) (readStatus (δ := Watched (Recorded δ))) :=
  keeps_of_onlyReads fun s ↦ .readAt _ _ (.refl s.2)

theorem keeps_writeAt {offset : Nat} (h : offset ≠ DriverCommand.rxEnable) (data : Bytes) :
    Keeps (Told given taken) (writeAt (δ := Watched (Recorded δ)) offset data) :=
  fun _ hs ↦ hs.writeAt h data

theorem keeps_command {offset : Nat} (h : offset ≠ DriverCommand.rxEnable) (value : UInt32) :
    Keeps (Told given taken) (command (δ := Watched (Recorded δ)) offset value) :=
  (keeps_writeAt h _).bind fun _ ↦ Keeps.pure ()

theorem keeps_reset : Keeps (Told given taken) (reset (δ := Watched (Recorded δ))) :=
  keeps_get.bind fun _ ↦ (keeps_command (by decide) _).bind fun _ ↦
    keeps_readStatus.bind fun _ ↦ keeps_modify _

theorem keeps_acknowledge (n : Nat) :
    Keeps (Told given taken) (acknowledge (δ := Watched (Recorded δ)) n) := by
  unfold acknowledge
  split
  · exact Keeps.fail _
  · refine keeps_get.bind fun h ↦ ?_
    dsimp only
    split
    · exact (keeps_command (by decide) _).bind fun _ ↦ keeps_modify _
    · exact Keeps.pure ()

theorem keeps_send (data : Bytes) :
    Keeps (Told given taken) (send (δ := Watched (Recorded δ)) data) := by
  unfold send
  split
  · exact Keeps.fail _
  · exact keeps_writeAt (by decide) data

/-- Opening an adapter tells it nothing of reception, whether or not it succeeds. -/
theorem told_openDriver (interface : Interface) (debug : Bool) {d : Watched (Recorded δ)}
    (hd : d.Told given taken) : (openDriver interface debug d).2.Told given taken := by
  have hread : Driver.Reads d (Driver.readAt DriverCommand.getStatus StatusBlock.byteCount
      (Driver.readAt DriverCommand.version 8 d).2).2 := .readAt _ _ (.readAt _ _ (.refl d))
  unfold openDriver
  dsimp only
  generalize (Driver.readAt DriverCommand.getStatus StatusBlock.byteCount
    (Driver.readAt DriverCommand.version 8 d).2).2 = f at hread ⊢
  split
  · exact hd.reads (.readAt _ _ (.refl d))
  · split
    · exact hd.reads hread
    · next block _ =>
      have hmap := hd.reads (hread.trans (.mapRegion block.regionSize.toNat (.refl f)))
      split
      · next hk => rwa [hk] at hmap
      · next hk =>
        rw [hk] at hmap
        have hreset := keeps_reset.exec (s := (⟨interface, block.regionSize.toNat, 0, 0, []⟩, _))
          hmap
        split
        · exact hmap
        · split <;> next he => rwa [he] at hreset

end Hardware

/-! ### Operations of a link -/

namespace Link

/-- A link in charge of an adapter, whose driver was told this of reception. -/
structure Told (rxEnabled : Bool) (given taken : List (Nat × Bytes))
    (s : Link × Host (Watched (Recorded δ))) : Prop where
  link : ∃ h, s.1 = onAdapter h rxEnabled
  driver : s.2.driver.Told given taken

variable {rxEnabled : Bool} {s : Link × Host (Watched (Recorded δ))}

theorem keeps_onMedium {α : Type} {adapter : HardwareM (Watched (Recorded δ)) α}
    (h : Keeps (Hardware.Told given taken) adapter) (pipe : PipeM (Watched (Recorded δ)) α)
    (socket : SocketM α) : Keeps (Told rxEnabled given taken) (onMedium adapter pipe socket) := by
  rintro ⟨link, host⟩ ⟨⟨k, hk⟩, hd⟩
  obtain rfl : link = onAdapter k rxEnabled := hk
  show Told _ _ _ ((onMedium adapter pipe socket).exec (onAdapter k rxEnabled, host)).2
  rw [exec_onMedium_hardware adapter pipe socket host (medium_onAdapter k rxEnabled)]
  exact ⟨⟨_, rfl⟩, h.exec (s := (k, host.driver)) hd⟩

theorem keeps_restrict (operation : String) :
    Keeps (Told (δ := δ) rxEnabled given taken) (restrict operation) := fun _ hs ↦ hs

theorem told_sleep (n : Nat) (hs : Told rxEnabled given taken s) :
    Told rxEnabled given taken (clock.sleep n s) := ⟨hs.link, hs.driver⟩

variable [Driver δ]

/-- Waits and releases tell the adapter nothing of reception. -/
theorem keeps_source :
    (source (δ := Watched (Recorded δ))).Keeps (Told rxEnabled given taken) where
  wait timeout := keeps_onMedium (Hardware.keeps_of_onlyReads (Hardware.onlyReads_wait timeout)) _ _
  release n := (keeps_restrict _).bind fun _ ↦ keeps_onMedium (Hardware.keeps_acknowledge n) _ _

/-- Nor do sends. -/
theorem keeps_sink : (sink (δ := Watched (Recorded δ))).Keeps (Told rxEnabled given taken) :=
  fun data ↦ (keeps_restrict _).bind fun _ ↦ keeps_onMedium (Hardware.keeps_send data) _ _

/-- The status is what the driver answers last. -/
theorem status_cases (hs : Told rxEnabled given taken s) :
    ∃ answer t, status.exec s = ((Hardware.checkStatus answer).map BoardStatus.ofBlock, t) ∧
      Told rxEnabled given taken t ∧ t.2.driver.replies.getLast? = some (.answer answer) := by
  obtain ⟨link, host⟩ := s
  obtain ⟨⟨k, hk⟩, hd⟩ := hs
  obtain rfl : link = onAdapter k rxEnabled := hk
  have hadapter : (BoardStatus.ofBlock <$> Hardware.readStatus).exec (k, host.driver) =
      ((Hardware.checkStatus
          (Driver.readAt DriverCommand.getStatus StatusBlock.byteCount host.driver).1).map
            BoardStatus.ofBlock,
        (k, (Driver.readAt DriverCommand.getStatus StatusBlock.byteCount host.driver).2)) := by
    rw [map_eq_pure_bind, LinkM.exec_bind, Hardware.exec_readStatus]
    cases Hardware.checkStatus
      (Driver.readAt DriverCommand.getStatus StatusBlock.byteCount host.driver).1 <;> rfl
  have hm := exec_onMedium_hardware (BoardStatus.ofBlock <$> Hardware.readStatus)
    ((·.1.status) <$> LinkM.read) (Socket.status <$> LinkM.read) host (medium_onAdapter k rxEnabled)
  rw [hadapter] at hm
  exact ⟨_, _, hm, ⟨⟨k, rfl⟩, hd.reads (.readAt _ _ (.refl _))⟩, List.getLast?_concat⟩

/-- The device is told to turn reception on or off, and does so or refuses. -/
theorem told_turn (on : Bool) (hs : Told rxEnabled given taken s) :
    ∃ r t, (turn on).exec s = (r, t) ∧
      (∃ answer, t.2.driver.replies.getLast? = some (.taken answer)) ∧
      (r = .ok () ∧ Told on (given ++ [receptionEntry on]) (taken ++ [receptionEntry on]) t ∨
        (∃ x, r = .error x) ∧ Told rxEnabled (given ++ [receptionEntry on]) taken t) := by
  obtain ⟨link, host⟩ := s
  obtain ⟨⟨k, hk⟩, hgiven, htaken⟩ := hs
  obtain rfl : link = onAdapter k rxEnabled := hk
  have hm := exec_onMedium_hardware (Hardware.enableReceive on) (Pipe.enableReceive on)
    (Socket.enableReceive on) host (medium_onAdapter k rxEnabled)
  have hconcat {log log' : List (Nat × Bytes)} (h : log' = log ++ [receptionEntry on]) :
      Recorded.enablings log' = Recorded.enablings log ++ [receptionEntry on] := by
    rw [h, Recorded.enablings_concat_receptionEntry]
  have hwrite := Watched.writeAt_cases DriverCommand.rxEnable (Word.toBytes (if on then 1 else 0))
    host.driver
  rcases Hardware.command_cases k host.driver DriverCommand.rxEnable (if on then 1 else 0) with
    ⟨n, e, hd, hx⟩ | ⟨x, e, hd, hx⟩ <;> rw [Hardware.enableReceive, hx] at hm <;>
    rw [hd] at hwrite <;>
    rcases hwrite with ⟨m, f, hf, hc, hw, hr⟩ | ⟨y, f, hf, hc, hw, hr⟩ <;> cases hf
  · refine ⟨_, _, LinkM.exec_bind_ok _ hm, ⟨.ok n, ?_⟩, .inl ⟨rfl, ⟨k, rfl⟩, ?_, ?_⟩⟩
    · exact (congrArg _ hr).trans List.getLast?_concat
    · exact (hconcat hc).trans (congrArg (· ++ _) hgiven)
    · exact (hconcat hw).trans (congrArg (· ++ _) htaken)
  · refine ⟨_, _, LinkM.exec_bind_error _ hm, ⟨.error x, ?_⟩, .inr ⟨⟨_, rfl⟩, ⟨k, rfl⟩, ?_, ?_⟩⟩
    · exact (congrArg _ hr).trans List.getLast?_concat
    · exact (hconcat hc).trans (congrArg (· ++ _) hgiven)
    · exact (congrArg _ hw).trans htaken

/-- A link that counts reception as off is reset, and then its device is told to turn it on. -/
theorem told_enableReceive_on (hs : Told false given taken s) :
    (∃ t, (enableReceive true).exec s = (.ok (), t) ∧
      Told true (given ++ [receptionEntry true]) (taken ++ [receptionEntry true]) t) ∨
    ∃ x t given', (enableReceive true).exec s = (.error x, t) ∧ Told false given' taken t := by
  have hcount : Keeps (Told (δ := δ) false given taken) (setReceiving false) := by
    rintro ⟨link, host⟩ ⟨⟨k, hk⟩, hd⟩
    obtain rfl : link = onAdapter k false := hk
    exact ⟨⟨k, rfl⟩, hd⟩
  have hreset : Keeps (Told (δ := δ) false given taken) reset :=
    (keeps_onMedium Hardware.keeps_reset _ _).bind fun _ ↦ hcount
  have hexec : (enableReceive true).exec s = (reset >>= fun _ ↦ turn true).exec s := by
    obtain ⟨link, host⟩ := s
    obtain ⟨⟨k, hk⟩, -⟩ := hs
    obtain rfl : link = onAdapter k false := hk
    exact exec_enableReceive_restart k host
  have ht := hreset.exec hs
  rw [hexec]
  rcases hr : reset.exec s with ⟨x | _, t⟩ <;> rw [hr] at ht
  · exact .inr ⟨x, t, given, LinkM.exec_bind_error _ hr, ht⟩
  · rw [LinkM.exec_bind_ok _ hr]
    rcases told_turn true ht with ⟨_, u, hu, -, ⟨rfl, htold⟩ | ⟨⟨x, rfl⟩, htold⟩⟩
    · exact .inl ⟨u, hu, htold⟩
    · exact .inr ⟨x, u, _, hu, htold⟩

/-- Opening the link of an adapter tells it nothing of reception, whether or not it succeeds. -/
theorem told_openRegular (device : String) (interface : Interface)
    {host : Host (Watched (Recorded δ))} (hd : host.driver.Told given taken) :
    (∃ link host', openRegular device .hardware interface host = (.ok link, host') ∧
      Told false given taken (link, host')) ∨
    ∃ x host', openRegular device .hardware interface host = (.error x, host') ∧
      host'.driver.Told given taken := by
  have hopen : (openAdapter device interface false host).2.driver.Told given taken := by
    unfold openAdapter
    split
    · exact hd
    · split
      · exact hd
      · split
        · exact hd
        · exact hd
        · exact hd
        · exact hd
        · exact Hardware.told_openDriver interface false hd
  dsimp only [openRegular]
  rcases ha : openAdapter device interface false host with ⟨x | k, host'⟩ <;> rw [ha] at hopen
  · exact .inr ⟨x, host', rfl, hopen⟩
  · exact .inl ⟨_, host', rfl, ⟨k, rfl⟩, hopen⟩

end Link

/-! ### Steps of a session -/

namespace Session

variable {α : Type}

/-- Work on the host ends where the host is left. -/
theorem ends_onHost {f : Host δ → Except LinkError α × Host δ} {s : Session δ}
    {good : α → Session δ → Prop} {bad : ToolError → Session δ → Prop}
    (h : match f s.host with
      | (.ok a, host) => good a { s with host }
      | (.error x, host) => bad (.link x) { s with host }) : Ends (onHost f) s good bad := by
  refine Ends.ofFun ?_
  dsimp only
  rcases hf : f s.host with ⟨x | a, host⟩ <;> rw [hf] at h <;> exact h

/-- An operation on a link works on the host. -/
theorem ends_onLink {link : Link} {m : LinkIO δ α} {s : Session δ}
    {good : α × Link → Session δ → Prop} {bad : ToolError → Session δ → Prop}
    (h : match m.exec (link, s.host) with
      | (.ok a, t) => good (a, t.1) { s with host := t.2 }
      | (.error x, t) => bad (.link x) { s with host := t.2 }) :
    Ends (onLink link m) s good bad := by
  refine ends_onHost ?_
  dsimp only
  rcases hm : m.exec (link, s.host) with ⟨x | a, t⟩ <;> rw [hm] at h <;> exact h

/-- A report leaves the host alone and does not fail. -/
theorem ends_report (settings : Settings) (j : Json) (lines : List String) {s : Session δ}
    {Q : Host δ → Prop} (hs : Q s.host) (bad : ToolError → Session δ → Prop) :
    Ends (report settings j lines) s (fun _ t ↦ Q t.host) bad := by
  unfold report
  split
  · exact hs
  · exact hs

variable [Driver δ] {settings : Settings} {s : Session (Watched (Recorded δ))} {link : Link}

/-- A regular link of an adapter is opened without a word about reception, or it is not. -/
theorem ends_openLink (hdebug : settings.debug = false)
    (hkind : settings.config.link.kind = .hardware) (hs : s.host.driver.Told given taken) :
    Ends (openLink settings) s (fun link t ↦ Link.Told false given taken (link, t.host))
      fun _ t ↦ t.host.driver.Told given taken := by
  unfold openLink
  refine ends_onHost ?_
  simp only [hdebug, hkind, Bool.false_eq_true, ite_false]
  rcases Link.told_openRegular settings.config.link.device settings.config.link.interface hs with
    ⟨link, host', ho, hl⟩ | ⟨x, host', ho, hl⟩ <;> rw [ho] <;> exact hl

/-- Reception is turned on, or the device did not take that. -/
theorem ends_turnOn (hs : Link.Told false given taken (link, s.host)) :
    Ends (onLink link (Link.enableReceive true)) s
      (fun a t ↦ Link.Told true (given ++ [Link.receptionEntry true])
        (taken ++ [Link.receptionEntry true]) (a.2, t.host))
      fun _ t ↦ ∃ given', t.host.driver.Told given' taken := by
  refine ends_onLink ?_
  rcases Link.told_enableReceive_on hs with ⟨t, ht, htold⟩ | ⟨x, t, given', ht, htold⟩ <;> rw [ht]
  · exact htold
  · exact ⟨given', htold.driver⟩

/-- The status is read, and is what the driver answered last. -/
theorem ends_status (hs : Link.Told true given taken (link, s.host)) :
    Ends (onLink link Link.status) s (fun a t ↦ Link.Told true given taken (a.2, t.host))
      fun _ t ↦ t.host.driver.Told given taken ∧ ∃ answer x,
        t.host.driver.replies.getLast? = some (.answer answer) ∧
        Hardware.checkStatus answer = .error x := by
  refine ends_onLink ?_
  obtain ⟨answer, t, ht, htold, hlast⟩ := Link.status_cases hs
  rw [ht]
  rcases hc : Hardware.checkStatus answer with x | block
  · exact ⟨htold.driver, answer, x, hlast, hc⟩
  · exact htold

/-- The device is told to turn reception off. -/
theorem ends_turnOff {rxEnabled : Bool} (hs : Link.Told rxEnabled given taken (link, s.host)) :
    Ends (onLink link (Link.enableReceive false)) s
      (fun _ t ↦ (∃ r, t.host.driver.replies.getLast? = some (.taken r)) ∧
        t.host.driver.Told (given ++ [Link.receptionEntry false])
          (taken ++ [Link.receptionEntry false]))
      fun _ t ↦ (∃ r, t.host.driver.replies.getLast? = some (.taken r)) ∧
        t.host.driver.Told (given ++ [Link.receptionEntry false]) taken := by
  have hexec : (Link.enableReceive false).exec (link, s.host) =
      (Link.turn false).exec (link, s.host) := by
    obtain ⟨⟨k, hk⟩, -⟩ := hs
    obtain rfl : link = Link.onAdapter k rxEnabled := hk
    have hon : false = true → rxEnabled = true := nofun
    exact Link.exec_enableReceive_resume hon k s.host
  refine ends_onLink ?_
  obtain ⟨r, t, ht, hlast, hr⟩ := Link.told_turn false hs
  rw [hexec, ht]
  rcases hr with ⟨rfl, htold⟩ | ⟨⟨x, rfl⟩, htold⟩ <;> exact ⟨hlast, htold.driver⟩

end Session

/-! ### Whole commands -/

/-- Reception is turned on. -/
abbrev Link.onOnly : List (Nat × Bytes) := [receptionEntry true]

/-- Reception is turned on, and off again. -/
abbrev Link.onOff : List (Nat × Bytes) := [receptionEntry true, receptionEntry false]

section

variable [Driver δ] {settings : Settings} {s : Session (Watched (Recorded δ))}

/-- An inquiry that fails leaves reception on; one that succeeds has turned it off. -/
theorem Inquiry.ends_conduct {X : Type} (hdebug : settings.debug = false)
    (hkind : settings.config.link.kind = .hardware) (hs : s.host.driver.Told [] [])
    {inquiry : ToolM (Inquiry (Watched (Recorded δ)) X) Unit}
    (hinquiry : Communicates inquiry) (initial : X) :
    Ends (conduct settings initial inquiry) s
      (fun _ t ↦ t.host.driver.Told Link.onOff Link.onOff)
      fun _ t ↦ (∃ given, t.host.driver.Told given []) ∨
        t.host.driver.Told Link.onOnly Link.onOnly ∨ t.host.driver.Told Link.onOff Link.onOnly := by
  unfold conduct
  -- A step that fails ends the inquiry with reception as it was before the step.
  refine (Session.ends_openLink hdebug hkind hs).bind (fun _ t ht ↦ .inl ⟨_, ht⟩) fun link t ht ↦ ?_
  refine (Session.ends_turnOn ht).bind (fun _ t ht ↦ .inl ht) fun ⟨_, link⟩ t ht ↦ ?_
  refine (Session.ends_status ht).bind (fun _ t ht ↦ .inr (.inl ht.1)) fun ⟨status, link⟩ t ht ↦ ?_
  refine (show Ends _ t
      (fun (a : Link × X) t ↦ Link.Told true Link.onOnly Link.onOnly (a.1, t.host))
      fun _ t ↦ t.host.driver.Told Link.onOnly Link.onOnly from ?_).bind
    (fun _ t ht ↦ .inr (.inl ht)) fun ⟨link, found⟩ t ht ↦ ?_
  · have hkept := hinquiry _ Link.keeps_source Link.keeps_sink (fun n _ ↦ Link.told_sleep n)
      (.zero, ((.ofSize status.regionSize, (link, t.host)), initial)) ht
    rcases hi : inquiry.exec (.zero, ((.ofSize status.regionSize, (link, t.host)), initial)) with
      ⟨x | _, stats, ⟨ring, link', host'⟩, found⟩ <;>
      rw [show inquiry.run.run _ = _ from hi] at hkept
    · refine Ends.ofFun ?_
      dsimp only
      rw [hi]
      exact hkept.driver
    · refine Ends.ofFun ?_
      dsimp only
      rw [hi]
      exact hkept
  · refine (Session.ends_turnOff ht).bind (fun _ t ht ↦ .inr (.inr ht.2)) fun _ t ht ↦ ht.2

namespace Session

/-- A dump ends before it reads: no ring of the configured size can be made, or, if it needs none,
the status of the board cannot be read. -/
def Unreadable {δ : Type} (settings : Settings) (d : Watched δ) : Prop :=
  if settings.config.link.localBufferSize > 0 then
    ∃ x, CopiedRing.start settings.config.link.localBufferSize = .error x
  else ∃ answer x, d.replies.getLast? = some (.answer answer) ∧
    Hardware.checkStatus answer = .error x

omit [Driver δ] in
/-- Whatever comes of a dump, its link was told nothing of reception. -/
theorem ends_dumpFrom {ρ : Type} {source : Source (ρ × (Link × Host (Watched (Recorded δ))))}
    (hsource : source.Keeps fun s ↦ Link.Told true given taken s.2) (request : DumpRequest)
    (rounds : Nat) (ring : ρ) {link : Link} (hs : Link.Told true given taken (link, s.host)) :
    Ends (dumpFrom request rounds ring source link) s
      (fun a t ↦ Link.Told true given taken (a.2, t.host)) fun _ _ ↦ False := by
  have hclock (n : Nat) (s : ρ × (Link × Host (Watched (Recorded δ))))
      (hs : Link.Told true given taken s.2) :
      Link.Told true given taken ((Link.clock.within Part.second).sleep n s).2 :=
    Link.told_sleep n hs
  have hkept := Dump.keeps_rounds hsource hclock request rounds
    (.zero, ((ring, (link, s.host)), Dump.start s.host.clock)) hs
  unfold dumpFrom
  dsimp only
  refine (show Ends _ s (fun (a : Except ToolError Unit × Dump × Link) t ↦
    Link.Told true given taken (a.2.2, t.host)) fun _ _ ↦ False from Ends.ofFun ?_).bind
    (fun _ _ hf ↦ hf) fun ⟨r, dump, link⟩ t ht ↦ ?_
  · dsimp only
    exact hkept
  · exact ht

/-- A dump that was read turns reception off, whatever came of it. -/
theorem ends_close (hread : ∀ (d : Watched (Recorded δ)) r,
      d.replies.getLast? = some (.taken r) → ¬Unreadable settings d)
    {link : Link} (hs : Link.Told true given taken (link, s.host)) (r : Except ToolError Unit) :
    Ends (do let _ ← onLink link (Link.enableReceive false); ToolM.lift r) s
      (fun _ t ↦ ¬Unreadable settings t.host.driver ∧
        t.host.driver.Told (given ++ [Link.receptionEntry false])
          (taken ++ [Link.receptionEntry false]))
      fun _ t ↦ ¬Unreadable settings t.host.driver ∧
        (t.host.driver.Told (given ++ [Link.receptionEntry false]) taken ∨
          t.host.driver.Told (given ++ [Link.receptionEntry false])
            (taken ++ [Link.receptionEntry false])) := by
  refine (ends_turnOff hs).bind (fun _ t ⟨⟨_, hr⟩, ht⟩ ↦ ⟨hread _ _ hr, .inl ht⟩)
    fun _ t ⟨⟨_, hr⟩, ht⟩ ↦ ?_
  cases r with
  | error e => exact ⟨hread _ _ hr, .inr ht⟩
  | ok _ => exact ⟨hread _ _ hr, ht⟩

/-- A dump turns reception off unless it ends before it reads. -/
theorem ends_dump (hdebug : settings.debug = false)
    (hkind : settings.config.link.kind = .hardware) (hs : s.host.driver.Told [] [])
    (count idle : Option Nat) :
    Ends (dump settings count idle) s
      (fun _ t ↦ ¬Unreadable settings t.host.driver ∧ t.host.driver.Told Link.onOff Link.onOff)
      fun _ t ↦ (∃ given, t.host.driver.Told given []) ∨
        Unreadable settings t.host.driver ∧ t.host.driver.Told Link.onOnly Link.onOnly ∨
        ¬Unreadable settings t.host.driver ∧
          (t.host.driver.Told Link.onOff Link.onOnly ∨
            t.host.driver.Told Link.onOff Link.onOff) := by
  unfold dump
  dsimp only
  refine (ends_openLink hdebug hkind hs).bind (fun _ t ht ↦ .inl ⟨_, ht⟩) fun link t ht ↦ ?_
  have hregular : ¬link.debug = true := by
    obtain ⟨⟨k, hk⟩, -⟩ := ht
    obtain rfl : link = Link.onAdapter k false := hk
    exact Bool.false_ne_true
  rw [ite_cond_eq_false _ _ (eq_false hregular)]
  refine (ends_turnOn ht).bind (fun _ t ht ↦ .inl ht) fun ⟨_, link⟩ t ht ↦ ?_
  dsimp only
  split
  · next hsize =>
    rcases hring : CopiedRing.start settings.config.link.localBufferSize with x | ring
    · have hun (d : Watched (Recorded δ)) : Unreadable settings d := by
        rw [Unreadable, ite_cond_eq_true _ _ (eq_true hsize)]
        exact ⟨x, hring⟩
      exact .inr (.inl ⟨hun _, ht.driver⟩)
    · have hread (d : Watched (Recorded δ)) : ¬Unreadable settings d := by
        rw [Unreadable, ite_cond_eq_true _ _ (eq_true hsize), hring]
        exact fun ⟨_, hx⟩ ↦ nomatch hx
      refine (show Ends (ToolM.lift (.ok ring)) t (fun _ u ↦ u = t) fun _ _ ↦ False from rfl).bind
        (fun _ _ hf ↦ hf.elim) ?_
      rintro ring _ rfl
      refine (ends_dumpFrom (CopiedRing.keeps_source Link.keeps_source _ _) _ _ ring ht).bind
        (fun _ _ hf ↦ hf.elim) fun ⟨r, link⟩ t ht ↦ ?_
      exact (ends_close (fun d _ _ ↦ hread d) ht r).imp (fun _ _ h ↦ h) fun _ _ h ↦ .inr (.inr h)
  · next hsize =>
    have hread (d : Watched (Recorded δ)) : Unreadable settings d ↔ ∃ answer x,
        d.replies.getLast? = some (.answer answer) ∧ Hardware.checkStatus answer = .error x := by
      rw [Unreadable, ite_cond_eq_false _ _ (eq_false hsize)]
    refine (ends_status ht).bind (fun _ t ⟨hd, hx⟩ ↦ .inr (.inl ⟨(hread _).mpr hx, hd⟩))
      fun ⟨status, link⟩ t ht ↦ ?_
    refine (ends_dumpFrom (DirectRing.keeps_source Link.keeps_source) _ _ _ ht).bind
      (fun _ _ hf ↦ hf.elim) fun ⟨r, link⟩ t ht ↦ ?_
    have htaken (d : Watched (Recorded δ)) (r : Except Errno Nat)
        (hr : d.replies.getLast? = some (.taken r)) : ¬Unreadable settings d := by
      rw [hread, hr]
      rintro ⟨answer, x, ha, -⟩
      cases ha
    exact (ends_close htaken ht r).imp (fun _ _ h ↦ h) fun _ _ h ↦ .inr (.inr h)

end Session

/-! ### Runs -/

/-- A command that has the adapter receive. -/
def ToolCommand.receives : ToolCommand → Bool
  | .dump _ _ | .discover _ | .verify => true
  | .status | .read _ _ _ | .write _ _ _ | .reset => false

/-- A host whose driver is watched from now on. -/
def Host.watched (host : Host δ) : Host (Watched (Recorded δ)) :=
  ⟨host.clock, host.files, .start (.start host.driver), host.responder, host.listen⟩

namespace Session

/-- A discovery or a verification that fails leaves reception on. -/
theorem ends_run_inquiry (hdebug : settings.debug = false)
    (hkind : settings.config.link.kind = .hardware) (hs : s.host.driver.Told [] [])
    {command : ToolCommand} (hcommand : command.receives = true)
    (hdump : ∀ count idle, command ≠ .dump count idle) :
    Ends (run settings command) s
      (fun _ t ↦ t.host.driver.Told Link.onOff Link.onOff)
      fun _ t ↦ (∃ given, t.host.driver.Told given []) ∨
        t.host.driver.Told Link.onOnly Link.onOnly ∨ t.host.driver.Told Link.onOff Link.onOnly := by
  cases command with
  | dump count idle => exact absurd rfl (hdump count idle)
  | discover window =>
    have hconduct := Inquiry.ends_conduct hdebug hkind hs
      (Discovery.communicates_inquiry settings window) Discovery.empty
    exact hconduct.bind (fun _ _ h ↦ h) fun found t ht ↦
      ends_report (Q := fun host ↦ Watched.Told Link.onOff Link.onOff host.driver) settings _ _ ht _
  | verify =>
    have hconduct := Inquiry.ends_conduct hdebug hkind hs
      ((Candidates.communicates_stage settings .discover).bind
        (Candidates.communicates_stage settings .readVersion))
      (Candidates.ofConfig settings.config)
    exact hconduct.bind (fun _ _ h ↦ h) fun verified t ht ↦
      ends_report (Q := fun host ↦ Watched.Told Link.onOff Link.onOff host.driver) settings _ _ ht _
  | status | read | write | reset => cases hcommand

/-- A run that succeeds turns reception on and off. If the device turned it on, the last that the
driver was told of reception is to turn it off, unless the run failed before. A dump fails before
only if there is nothing to read from; a discovery or a verification that fails, in whatever way,
leaves the device receiving. -/
theorem run_turns_reception_off_iff (hdebug : settings.debug = false)
    (hkind : settings.config.link.kind = .hardware) {command : ToolCommand}
    (hcommand : command.receives = true) (host : Host δ) :
    let ran := (run settings command).exec (start host.watched)
    let given := Recorded.enablings ran.2.host.driver.commands
    let taken := Recorded.enablings ran.2.host.driver.driver.written
    let on := Link.receptionEntry true
    let off := Link.receptionEntry false
    (ran.1 = .ok () → given = [on, off] ∧ taken = [on, off]) ∧
    (on ∉ taken → taken = []) ∧
    (on ∈ taken →
      (given = [on, off] ∨ given = [on] ∧ ran.1 ≠ .ok ()) ∧
      (taken = [on] ∨ taken = [on, off]) ∧
      (∀ count idle, command = .dump count idle →
        (given = [on, off] ↔ ¬Unreadable settings ran.2.host.driver)) ∧
      ((∀ count idle, command ≠ .dump count idle) →
        (taken = [on, off] ↔ ran.1 = .ok ()))) := by
  dsimp only
  have hs : (start host.watched).host.driver.Told [] [] := ⟨rfl, rfl⟩
  by_cases hdump : ∃ count idle, command = .dump count idle
  · obtain ⟨count, idle, rfl⟩ := hdump
    have h := (ends_dump hdebug hkind hs count idle).exec
    rw [show run settings (.dump count idle) = dump settings count idle from rfl]
    generalize (dump settings count idle).exec (start host.watched) = ran at h ⊢
    obtain ⟨x | _, t⟩ := ran
    · obtain ⟨given, ht⟩ | ⟨hun, ht⟩ | ⟨hun, ht | ht⟩ := h
      · simp [ht.taken]
      all_goals simp [ht.given, ht.taken, hun]
    · obtain ⟨hun, ht⟩ := h
      simp [ht.given, ht.taken, hun]
  · have hother : ∀ count idle, command ≠ .dump count idle :=
      fun count idle hc ↦ hdump ⟨count, idle, hc⟩
    have h := (ends_run_inquiry hdebug hkind hs hcommand hother).exec
    generalize (run settings command).exec (start host.watched) = ran at h ⊢
    obtain ⟨x | _, t⟩ := ran
    · obtain ⟨given, ht⟩ | ht | ht := h
      · simp [ht.taken]
      all_goals simp [ht.given, ht.taken, hother]
    · have ht : t.host.driver.Told _ _ := h
      simp [ht.given, ht.taken, hother]

end Session

end

/-- A host with a board behind its device file whose receive region is full at once. -/
def Host.ofStalled : Host Board :=
  .ofFiles ⟨[(["d"], .device)], []⟩ (.fresh 4096 [.ofState 0 StatusFlag.dmaStalled false])

/-- Settings for a link of the adapter behind that file, read without a copier. -/
def Settings.ofStalled : Settings :=
  ⟨⟨⟨.info, "occ"⟩, ⟨"d", .hardware, .optical, 0, 100⟩, []⟩, false, false, 10⟩

/-- Reception stalls in a discovery, and the device is left receiving. -/
theorem Session.run_turns_reception_off_iff_stalled :
    let settings := Settings.ofStalled
    let ran := (run settings (.discover 1000)).exec (start Host.ofStalled.watched)
    settings.debug = false ∧ settings.config.link.kind = .hardware ∧
    (ToolCommand.discover 1000).receives = true ∧
    Recorded.enablings ran.2.host.driver.commands = [Link.receptionEntry true] ∧
    Recorded.enablings ran.2.host.driver.driver.written = [Link.receptionEntry true] ∧
    ran.1 ≠ .ok () := by
  have htold :
      let t := ((run .ofStalled (.discover 1000)).exec (start Host.ofStalled.watched)).2
      Recorded.enablings t.host.driver.commands = [Link.receptionEntry true] ∧
      Recorded.enablings t.host.driver.driver.written = [Link.receptionEntry true] := by
    decide +kernel
  have hdebug : Settings.ofStalled.debug = false := rfl
  have hcommand : (ToolCommand.discover 1000).receives = true := rfl
  obtain ⟨-, -, h⟩ := run_turns_reception_off_iff hdebug rfl hcommand Host.ofStalled
  -- from here on the run is not evaluated again
  dsimp only at htold ⊢
  generalize (run .ofStalled (.discover 1000)).exec (start Host.ofStalled.watched) = ran
    at htold h ⊢
  obtain ⟨hgiven, htaken⟩ := htold
  obtain ⟨-, -, -, hoff⟩ := h (htaken ▸ List.mem_singleton.mpr rfl)
  refine ⟨hdebug, rfl, hcommand, hgiven, htaken, fun hok ↦ ?_⟩
  cases htaken.symm.trans ((hoff nofun).mpr hok)

end DetectorLink
