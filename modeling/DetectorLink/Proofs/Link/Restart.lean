import DetectorLink.Link.Opening
import DetectorLink.Proofs.Link.Hardware
import DetectorLink.Proofs.Link.Medium
import Mathlib.Control.Monad.Basic

/-!
# Turning reception on

A link resets its adapter before it turns reception on, so that the reader starts at the beginning
of the receive region. Whether reception is on already it knows only from its own flag, and a reset
that fails after the device has taken it leaves that flag as it was. This is the only way in which
the flag is wrong, and then reception comes on again without a reset, where the reader stood.
-/

namespace DetectorLink

/-! ### What the device was told of reception -/

namespace Recorded

/-- The commands that turn reception on or off. -/
def receptions (written : List (Nat × Bytes)) : List (Nat × Bytes) :=
  written.filter fun entry ↦ entry.1 == DriverCommand.reset || entry.1 == DriverCommand.rxEnable

/-- Reception is on at the device: it was turned on last. -/
def receives (written : List (Nat × Bytes)) : Bool :=
  (receptions written).getLast? == some (DriverCommand.rxEnable, Word.toBytes 1)

theorem receptions_append (first second : List (Nat × Bytes)) :
    receptions (first ++ second) = receptions first ++ receptions second := List.filter_append ..

/-- A reset turns reception off. -/
theorem receives_concat_reset (written : List (Nat × Bytes)) (data : Bytes) :
    receives (written ++ [(DriverCommand.reset, data)]) = false := by
  rw [receives, receptions_append, show receptions [(DriverCommand.reset, data)] =
    [(DriverCommand.reset, data)] from rfl, List.getLast?_concat]
  rfl

/-- The other command says whether reception is on. -/
theorem receives_concat_rxEnable (written : List (Nat × Bytes)) (on : Bool) :
    receives (written ++ [(DriverCommand.rxEnable, Word.toBytes (if on then 1 else 0))]) = on := by
  rw [receives, receptions_append, show receptions
    [(DriverCommand.rxEnable, Word.toBytes (if on then 1 else 0))] =
      [(DriverCommand.rxEnable, Word.toBytes (if on then 1 else 0))] from rfl, List.getLast?_concat]
  cases on <;> decide

end Recorded

namespace Link

variable {δ : Type}

/-- A link of an adapter that may do everything. -/
def onAdapter (h : Hardware) (rxEnabled : Bool) : Link := ⟨.hardware h, false, rxEnabled⟩

theorem medium_onAdapter (h : Hardware) (rxEnabled : Bool) :
    (onAdapter h rxEnabled).medium = .hardware h := rfl

/-- What a reset tells the device. -/
def resetEntry (h : Hardware) : Nat × Bytes :=
  (DriverCommand.reset, Word.toBytes (Hardware.resetCode h.interface))

/-- What turning reception on or off tells the device. -/
def receptionEntry (on : Bool) : Nat × Bytes :=
  (DriverCommand.rxEnable, Word.toBytes (if on then 1 else 0))

variable [Driver δ]

/-- A link that counts reception as off is reset first. -/
theorem exec_enableReceive_restart (h : Hardware) (host : Host δ) :
    (enableReceive true).exec (onAdapter h false, host) =
      (reset >>= fun _ ↦ turn true).exec (onAdapter h false, host) := rfl

/-- Nothing else is done first. -/
theorem exec_enableReceive_resume {on rxEnabled : Bool} (hon : on = true → rxEnabled = true)
    (h : Hardware) (host : Host δ) :
    (enableReceive on).exec (onAdapter h rxEnabled, host) =
      (turn on).exec (onAdapter h rxEnabled, host) := by
  cases on with
  | false => rfl
  | true =>
    rw [hon rfl]
    rfl

section Recorded

variable (h : Hardware) (rxEnabled : Bool) (host : Host (Recorded δ))

/-- The device refuses the reset, or it takes it; then the link may still fail to learn of it. -/
theorem reset_cases :
    (∃ x e, e.written = host.driver.written ∧
      reset.exec (onAdapter h rxEnabled, host) =
        (.error x, (onAdapter h rxEnabled, { host with driver := e }))) ∨
    ∃ e, e.written = host.driver.written ++ [resetEntry h] ∧
      ((∃ x, reset.exec (onAdapter h rxEnabled, host) =
        (.error x, (onAdapter h rxEnabled, { host with driver := e }))) ∨
      reset.exec (onAdapter h rxEnabled, host) =
        (.ok (), (onAdapter { h with consumer := 0, window := 0 } false,
          { host with driver := e }))) := by
  have hm := exec_onMedium_hardware Hardware.reset Pipe.reset Socket.reset host
    (medium_onAdapter h rxEnabled)
  rcases Hardware.reset_cases h host.driver with ⟨x, e, hd, hx⟩ | ⟨n, e, f, hd, hr, hend⟩
  · rw [hx] at hm
    exact .inl ⟨_, e, Recorded.written_of_writeAt_error hd, LinkM.exec_bind_error _ hm⟩
  · refine .inr ⟨f, (Recorded.written_of_reads hr).trans (Recorded.written_of_writeAt_ok hd), ?_⟩
    rcases hend with ⟨x, hx⟩ | hx <;> rw [hx] at hm
    · exact .inl ⟨x, LinkM.exec_bind_error _ hm⟩
    · exact .inr (LinkM.exec_bind_ok _ hm)

/-- The device refuses to turn reception on or off, or it does so. -/
theorem turn_cases (on : Bool) :
    (∃ x e, e.written = host.driver.written ∧
      (turn on).exec (onAdapter h rxEnabled, host) =
        (.error x, (onAdapter h rxEnabled, { host with driver := e }))) ∨
    ∃ e, e.written = host.driver.written ++ [receptionEntry on] ∧
      (turn on).exec (onAdapter h rxEnabled, host) =
        (.ok (), (onAdapter h on, { host with driver := e })) := by
  have hm := exec_onMedium_hardware (Hardware.enableReceive on) (Pipe.enableReceive on)
    (Socket.enableReceive on) host (medium_onAdapter h rxEnabled)
  rcases Hardware.command_cases h host.driver DriverCommand.rxEnable (if on then 1 else 0) with
    ⟨n, e, hd, hx⟩ | ⟨x, e, hd, hx⟩ <;> rw [Hardware.enableReceive, hx] at hm
  · exact .inr ⟨e, Recorded.written_of_writeAt_ok hd, LinkM.exec_bind_ok _ hm⟩
  · exact .inl ⟨_, e, Recorded.written_of_writeAt_error hd, LinkM.exec_bind_error _ hm⟩

/-- A wait tells the device nothing. -/
theorem exec_wait_adapter (timeout : Option Nat) :
    ∃ r h' e, e.written = host.driver.written ∧
      (wait timeout).exec (onAdapter h rxEnabled, host) =
        (r, (onAdapter h' rxEnabled, { host with driver := e })) :=
  ⟨_, _, _, Recorded.written_of_reads (Hardware.onlyReads_wait timeout (h, host.driver)), rfl⟩

/-- A release tells the device nothing about reception. -/
theorem exec_acknowledge_adapter (n : Nat) :
    ∃ r h' e more, e.written = host.driver.written ++ more ∧ Recorded.receptions more = [] ∧
      (acknowledge n).exec (onAdapter h rxEnabled, host) =
        (r, (onAdapter h' rxEnabled, { host with driver := e })) := by
  have hm : (acknowledge n).exec (onAdapter h rxEnabled, host) = _ :=
    exec_onMedium_hardware (Hardware.acknowledge n) (Pipe.acknowledge n) (Socket.acknowledge n)
      host (medium_onAdapter h rxEnabled)
  rcases h.acknowledge_cases host.driver n with
    ⟨_, hx⟩ | ⟨_, _, hx⟩ | ⟨_, _, ⟨k, e, hd, hx⟩ | ⟨x, e, hd, hx⟩⟩ <;> rw [hx] at hm
  · exact ⟨_, h, host.driver, [], (List.append_nil _).symm, rfl, hm⟩
  · exact ⟨_, h, host.driver, [], (List.append_nil _).symm, rfl, hm⟩
  · exact ⟨_, _, e, _, Recorded.written_of_writeAt_ok hd, rfl, hm⟩
  · exact ⟨_, _, e, [], (Recorded.written_of_writeAt_error hd).trans (List.append_nil _).symm, rfl,
      hm⟩

/-- An adapter that is opened was reset, and reception is off. -/
theorem openRegular_adapter {device : String} {interface : Interface} {link : Link}
    {host' : Host (Recorded δ)}
    (ho : openRegular device .hardware interface host = (.ok link, host')) :
    ∃ h, link = onAdapter h false ∧ Recorded.receives host'.driver.written = false := by
  obtain ⟨h, hl, ha⟩ := openRegular_hardware_ok ho
  obtain ⟨d, hd, rfl⟩ := openAdapter_ok ha
  obtain ⟨-, hreset⟩ := Hardware.openDriver_ok hd
  obtain ⟨n, f, g, hf, hw, hg⟩ := hreset rfl
  refine ⟨h, hl, ?_⟩
  show Recorded.receives d.written = false
  rw [Recorded.written_of_reads hg, Recorded.written_of_writeAt_ok hw]
  exact Recorded.receives_concat_reset _ _

end Recorded

end Link

/-- A host with a board behind its device file `d`. -/
def Host.ofBoard (b : Board) : Host (Recorded Board) :=
  .ofFiles ⟨[(["d"], .device)], []⟩ (.start b)

theorem Link.openRegular_ofBoard (b : Board) :
    Link.openRegular "d" .hardware .optical (Host.ofBoard b) =
      ((Hardware.openDriver .optical false (Recorded.start b)).1.map (Link.onAdapter · false),
        { Host.ofBoard b with
          driver := (Hardware.openDriver .optical false (Recorded.start b)).2 }) := rfl

/-! ### What becomes of a link -/

/-- What happens to a link and its device. -/
inductive Use (δ : Type) where
  /-- Reset the link. -/
  | reset
  /-- Turn reception on or off. -/
  | enable (on : Bool)
  /-- Wait for a window. -/
  | wait (timeout : Option Nat)
  /-- Release bytes. -/
  | acknowledge (n : Nat)
  /-- The device goes on by itself. -/
  | device (f : δ → δ)

namespace Use

variable {δ : Type} [Driver δ]

/-- Do it; only the outcome is told. -/
def perform : Use δ → LinkIO (Recorded δ) Unit
  | reset => Link.reset
  | enable on => Link.enableReceive on
  | wait timeout => do let _ ← Link.wait timeout
  | acknowledge n => Link.acknowledge n
  | device f => .change fun (link, host) ↦
    (link, { host with driver := { host.driver with driver := f host.driver.driver } })

/-- What is left after it. -/
def step (s : Link × Host (Recorded δ)) (u : Use δ) : Link × Host (Recorded δ) :=
  (u.perform.exec s).2

/-- What is left after many, one after the other. -/
def run (s : Link × Host (Recorded δ)) (uses : List (Use δ)) : Link × Host (Recorded δ) :=
  uses.foldl step s

/-- What the device was told. -/
def written (s : Link × Host (Recorded δ)) : List (Nat × Bytes) := s.2.driver.written

/-- What something did to a link, where `more` is what the device was told. -/
inductive Effect (u : Use δ) (s t : Link × Host (Recorded δ)) (more : List (Nat × Bytes)) :
    Prop where
  /-- Nothing about reception. -/
  | quiet (hflag : t.1.rxEnabled = s.1.rxEnabled) (hmore : Recorded.receptions more = [])
  /-- The device took a reset that failed for the link. -/
  | unnoticed (hu : u = .reset) (hfail : ∃ x, (u.perform.exec s).1 = .error x)
      (hflag : t.1.rxEnabled = s.1.rxEnabled) (hmore : ∃ data, more = [(DriverCommand.reset, data)])
  /-- The link knows what the device does. -/
  | settled (hok : u = .reset → (u.perform.exec s).1 = .ok ())
      (hflag : t.1.rxEnabled = Recorded.receives (written t))
      (hmore : Recorded.receptions more ≠ [])

variable (h : Hardware) (rxEnabled : Bool) (host : Host (Recorded δ))

theorem effect_reset :
    ∃ h' rxEnabled' host' more, step (Link.onAdapter h rxEnabled, host) .reset =
        (Link.onAdapter h' rxEnabled', host') ∧
      host'.driver.written = host.driver.written ++ more ∧
      Effect .reset (Link.onAdapter h rxEnabled, host)
        (Link.onAdapter h' rxEnabled', host') more := by
  have hstep : step (Link.onAdapter h rxEnabled, host) .reset =
    (Link.reset.exec (Link.onAdapter h rxEnabled, host)).2 := rfl
  rcases Link.reset_cases h rxEnabled host with ⟨x, e, he, hx⟩ | ⟨e, he, ⟨x, hx⟩ | hx⟩ <;>
    rw [hx] at hstep
  · exact ⟨h, rxEnabled, _, [], hstep, he.trans (List.append_nil _).symm, .quiet rfl rfl⟩
  · exact ⟨h, rxEnabled, _, _, hstep, he,
      .unnoticed rfl ⟨x, congrArg Prod.fst hx⟩ rfl ⟨_, rfl⟩⟩
  · refine ⟨_, false, _, _, hstep, he,
      .settled (fun _ ↦ congrArg Prod.fst hx) ?_ (List.cons_ne_nil _ _)⟩
    show false = Recorded.receives e.written
    rw [he]
    exact (Recorded.receives_concat_reset _ _).symm

/-- Turning reception on or off never leaves the flag wrong that was right before. -/
theorem effect_enable (on : Bool) :
    ∃ h' rxEnabled' host' more, step (Link.onAdapter h rxEnabled, host) (.enable on) =
        (Link.onAdapter h' rxEnabled', host') ∧
      host'.driver.written = host.driver.written ++ more ∧
      Effect (.enable on) (Link.onAdapter h rxEnabled, host)
        (Link.onAdapter h' rxEnabled', host') more := by
  have hstep : step (Link.onAdapter h rxEnabled, host) (.enable on) =
    ((Link.enableReceive on).exec (Link.onAdapter h rxEnabled, host)).2 := rfl
  by_cases hon : on = true → rxEnabled = true
  · rw [Link.exec_enableReceive_resume hon] at hstep
    rcases Link.turn_cases h rxEnabled host on with ⟨x, e, he, hx⟩ | ⟨e, he, hx⟩ <;>
      rw [hx] at hstep
    · exact ⟨h, rxEnabled, _, [], hstep, he.trans (List.append_nil _).symm, .quiet rfl rfl⟩
    · refine ⟨h, on, _, _, hstep, he, .settled nofun ?_ (List.cons_ne_nil _ _)⟩
      exact ((congrArg _ he).trans (Recorded.receives_concat_rxEnable _ on)).symm
  · obtain ⟨rfl, hrx⟩ := Classical.not_imp.mp hon
    obtain rfl := eq_false_of_ne_true hrx
    have hoff (e : Recorded δ) (he : e.written = host.driver.written ++ [Link.resetEntry h]) :
        false = Recorded.receives e.written :=
      ((congrArg _ he).trans (Recorded.receives_concat_reset _ _)).symm
    rw [Link.exec_enableReceive_restart, LinkM.exec_bind] at hstep
    rcases Link.reset_cases h false host with ⟨x, e, he, hx⟩ | ⟨e, he, ⟨x, hx⟩ | hx⟩ <;>
      rw [hx] at hstep
    · exact ⟨h, false, _, [], hstep, he.trans (List.append_nil _).symm, .quiet rfl rfl⟩
    · exact ⟨h, false, _, _, hstep, he, .settled nofun (hoff e he) (List.cons_ne_nil _ _)⟩
    · dsimp only at hstep
      rcases Link.turn_cases { h with consumer := 0, window := 0 } false
        { host with driver := e } true with ⟨x, f, hf, hx⟩ | ⟨f, hf, hx⟩ <;> rw [hx] at hstep
      · exact ⟨_, false, _, _, hstep, hf.trans he,
          .settled nofun (hoff f (hf.trans he)) (List.cons_ne_nil _ _)⟩
      · refine ⟨_, true, _, _, hstep, (hf.trans (congrArg (· ++ _) he)).trans
          (List.append_assoc ..), .settled nofun ?_ (List.cons_ne_nil _ _)⟩
        exact ((congrArg _ hf).trans (Recorded.receives_concat_rxEnable _ true)).symm

/-- The link is one of an adapter that may do everything. -/
def OnAdapter (s : Link × Host (Recorded δ)) : Prop :=
  ∃ h rxEnabled, s.1 = Link.onAdapter h rxEnabled

variable {s : Link × Host (Recorded δ)} {uses : List (Use δ)}

/-- Everything that can happen tells the device something or nothing and has one of the effects. -/
theorem effect_step (hs : OnAdapter s) (u : Use δ) :
    OnAdapter (step s u) ∧
      ∃ more, written (step s u) = written s ++ more ∧ Effect u s (step s u) more := by
  obtain ⟨link, host⟩ := s
  obtain ⟨h, rxEnabled, rfl⟩ : ∃ h rxEnabled, link = Link.onAdapter h rxEnabled := hs
  suffices hcases : ∃ h' rxEnabled' host' more, step (Link.onAdapter h rxEnabled, host) u =
        (Link.onAdapter h' rxEnabled', host') ∧
      host'.driver.written = host.driver.written ++ more ∧
      Effect u (Link.onAdapter h rxEnabled, host) (Link.onAdapter h' rxEnabled', host') more by
    obtain ⟨h', rxEnabled', host', more, hx, hw, he⟩ := hcases
    rw [hx]
    exact ⟨⟨h', rxEnabled', rfl⟩, more, hw, he⟩
  cases u with
  | reset => exact effect_reset h rxEnabled host
  | enable on => exact effect_enable h rxEnabled host on
  | wait timeout =>
    obtain ⟨r, h', e, he, hx⟩ := Link.exec_wait_adapter h rxEnabled host timeout
    refine ⟨h', rxEnabled, { host with driver := e }, [], ?_,
      he.trans (List.append_nil _).symm, .quiet rfl rfl⟩
    show (LinkM.exec (do let _ ← Link.wait timeout) _).2 = _
    rw [LinkM.exec_bind, hx]
    cases r <;> rfl
  | acknowledge n =>
    obtain ⟨r, h', e, more, he, hm, hx⟩ := Link.exec_acknowledge_adapter h rxEnabled host n
    exact ⟨h', rxEnabled, { host with driver := e }, more, congrArg Prod.snd hx, he, .quiet rfl hm⟩
  | device f => exact ⟨h, rxEnabled, _, [], rfl, (List.append_nil _).symm, .quiet rfl rfl⟩

theorem run_append (more : List (Use δ)) : run s (uses ++ more) = run (run s uses) more :=
  List.foldl_append

/-- What the device was told stays told. -/
theorem onAdapter_run (hs : OnAdapter s) (uses : List (Use δ)) :
    OnAdapter (run s uses) ∧ written s <+: written (run s uses) := by
  induction uses generalizing s with
  | nil => exact ⟨hs, List.prefix_rfl⟩
  | cons u rest ih =>
    obtain ⟨hstep, more, hw, -⟩ := effect_step hs u
    obtain ⟨hrest, hprefix⟩ := ih hstep
    exact ⟨hrest, List.IsPrefix.trans ⟨more, hw.symm⟩ hprefix⟩

/-! ### A reset that the link does not know of -/

/-- Among these uses of a link is a reset that the device took and that failed while the flag said
that reception is on, and nothing has turned reception on or off since. -/
def Unnoticed (s : Link × Host (Recorded δ)) (uses : List (Use δ)) : Prop :=
  ∃ pre post, uses = pre ++ .reset :: post ∧
    (run s pre).1.rxEnabled = true ∧
    (∃ x, (Link.reset.exec (run s pre)).1 = .error x) ∧
    (∃ data, written (step (run s pre) .reset) =
      written (run s pre) ++ [(DriverCommand.reset, data)]) ∧
    ∃ later, written (run s uses) = written (step (run s pre) .reset) ++ later ∧
      Recorded.receptions later = []

/-- Such a reset is the last use, or it was there before it and the last use did nothing about
reception. -/
theorem unnoticed_concat (hs : OnAdapter s) {u : Use δ} {more : List (Nat × Bytes)}
    (hw : written (step (run s uses) u) = written (run s uses) ++ more) :
    Unnoticed s (uses ++ [u]) ↔
      (u = .reset ∧ (run s uses).1.rxEnabled = true ∧
        (∃ x, (u.perform.exec (run s uses)).1 = .error x) ∧
        ∃ data, more = [(DriverCommand.reset, data)]) ∨
      (Unnoticed s uses ∧ Recorded.receptions more = []) := by
  have hlast : run s (uses ++ [u]) = step (run s uses) u := run_append [u]
  constructor
  · rintro ⟨pre, post, huses, hflag, hfail, ⟨data, hdata⟩, later, hlater, hnone⟩
    rw [hlast, hw] at hlater
    rcases List.eq_nil_or_concat post with rfl | ⟨post, u', rfl⟩
    · obtain ⟨rfl, hu⟩ := List.append_inj' huses rfl
      obtain rfl := List.singleton_inj.mp hu
      exact .inl ⟨rfl, hflag, hfail, data, List.append_cancel_left (hw.symm.trans hdata)⟩
    · rw [List.concat_eq_append, ← List.cons_append, ← List.append_assoc] at huses
      obtain ⟨rfl, -⟩ := List.append_inj' huses rfl
      have hpre := effect_step (onAdapter_run hs pre).1 .reset
      obtain ⟨between, hbetween⟩ := (onAdapter_run hpre.1 post).2
      rw [run_append] at hlater ⊢
      change written (run (step (run s pre) .reset) post) ++ more = _ at hlater
      rw [← hbetween, List.append_assoc] at hlater
      rw [← List.append_cancel_left hlater, Recorded.receptions_append,
        List.append_eq_nil_iff] at hnone
      refine .inr ⟨⟨pre, post, rfl, hflag, hfail, ⟨data, hdata⟩, between, ?_, hnone.1⟩, hnone.2⟩
      rw [run_append]
      exact hbetween.symm
  · rintro (⟨rfl, hflag, hfail, data, rfl⟩ |
      ⟨⟨pre, post, huses, hflag, hfail, hdata, later, hlater, hnone⟩, hmore⟩)
    · refine ⟨uses, [], rfl, hflag, hfail, ⟨data, hw⟩, [], ?_, rfl⟩
      rw [hlast, List.append_nil]
    · refine ⟨pre, post ++ [u], ?_, hflag, hfail, hdata, later ++ more, ?_, ?_⟩
      · rw [huses, List.append_assoc]
        rfl
      · rw [hlast, hw, hlater, List.append_assoc]
      · rw [Recorded.receptions_append, hnone, hmore]
        rfl

/-- The flag says that reception is on if it is, and it is wrong only after a reset that the link
does not know of. -/
structure Tracked (s : Link × Host (Recorded δ)) (uses : List (Use δ)) : Prop where
  rxEnabled : Recorded.receives (written (run s uses)) = true → (run s uses).1.rxEnabled = true
  unnoticed : Unnoticed s uses ↔
    (run s uses).1.rxEnabled = true ∧ Recorded.receives (written (run s uses)) = false

/-- One more use keeps it so. -/
theorem tracked_concat (hs : OnAdapter s) (ht : Tracked s uses) (u : Use δ) :
    Tracked s (uses ++ [u]) := by
  obtain ⟨-, more, hw, he⟩ := effect_step (onAdapter_run hs uses).1 u
  have hun := unnoticed_concat hs hw
  have hlast : run s (uses ++ [u]) = step (run s uses) u := run_append [u]
  cases he with
  | quiet hflag hmore =>
    have hsame : Recorded.receives (written (step (run s uses) u)) =
        Recorded.receives (written (run s uses)) := by
      rw [hw, Recorded.receives, Recorded.receptions_append, hmore, List.append_nil]
      rfl
    constructor <;> rw [hlast, hflag, hsame]
    · exact ht.rxEnabled
    · rw [hun, ht.unnoticed]
      refine ⟨?_, fun h ↦ .inr ⟨h, hmore⟩⟩
      rintro (⟨-, -, -, data, rfl⟩ | h)
      · exact absurd hmore (List.cons_ne_nil _ _)
      · exact h.1
  | unnoticed hu hfail hflag hmore =>
    obtain ⟨data, rfl⟩ := hmore
    have hoff : Recorded.receives (written (step (run s uses) u)) = false := by
      rw [hw]
      exact Recorded.receives_concat_reset _ _
    constructor <;> rw [hlast, hflag, hoff]
    · exact nofun
    · rw [hun]
      refine ⟨?_, fun h ↦ .inl ⟨hu, h.1, hfail, data, rfl⟩⟩
      rintro (⟨-, h, -⟩ | h)
      · exact ⟨h, rfl⟩
      · exact absurd h.2 (List.cons_ne_nil _ _)
  | settled hok hflag hmore =>
    constructor <;> rw [hlast, hflag]
    · exact id
    · rw [hun]
      constructor
      · rintro (⟨hu, -, ⟨x, hx⟩, -⟩ | h)
        · rw [hok hu] at hx
          cases hx
        · exact absurd h.2 hmore
      · rintro ⟨hon, hoff⟩
        rw [hoff] at hon
        cases hon

/-- Any uses keep it so. -/
theorem tracked_append (hs : OnAdapter s) (ht : Tracked s uses) (more : List (Use δ)) :
    Tracked s (uses ++ more) := by
  induction more generalizing uses with
  | nil =>
    rw [List.append_nil]
    exact ht
  | cons u rest ih =>
    have hrest := ih (tracked_concat hs ht u)
    rwa [List.append_assoc] at hrest

/-- A link is tracked from its opening on. -/
theorem tracked_run {h : Hardware} {host : Host (Recorded δ)}
    (hoff : Recorded.receives host.driver.written = false) (uses : List (Use δ)) :
    Tracked (Link.onAdapter h false, host) uses := by
  refine tracked_append ⟨h, false, rfl⟩ (show Tracked _ [] from ⟨?_, ?_⟩) uses
  · intro hon
    exact absurd (hoff.symm.trans hon) nofun
  · refine ⟨?_, fun h ↦ nomatch h.1⟩
    rintro ⟨pre, post, huses, -⟩
    exact absurd huses.symm (List.append_ne_nil_of_right_ne_nil _ (List.cons_ne_nil _ _))

/-- Turning reception on while it is off at the device resets the adapter and starts at the
beginning of the region, unless a reset failed that the device took while reception was on, with
nothing about reception since: then it goes on where the reader stood, without a reset. -/
theorem run_enableReceive_restarts_unless_unnoticed {device : String} {interface : Interface}
    {host host₀ : Host (Recorded δ)} {link : Link}
    (hopen : Link.openRegular device .hardware interface host = (.ok link, host₀))
    (uses : List (Use δ)) {t : Link × Host (Recorded δ)}
    (hoff : Recorded.receives (written (run (link, host₀) uses)) = false)
    (hon : (Link.enableReceive true).exec (run (link, host₀) uses) = (.ok (), t)) :
    ∃ h h', (run (link, host₀) uses).1.medium = .hardware h ∧ t.1.medium = .hardware h' ∧
      (¬Unnoticed (link, host₀) uses →
        written t = written (run (link, host₀) uses) ++
          [Link.resetEntry h, Link.receptionEntry true] ∧
        h'.consumer = 0 ∧ h'.window = 0) ∧
      (Unnoticed (link, host₀) uses →
        written t = written (run (link, host₀) uses) ++ [Link.receptionEntry true] ∧ h' = h) := by
  obtain ⟨h₀, rfl, hstart⟩ := Link.openRegular_adapter host hopen
  have htracked := tracked_run (h := h₀) hstart uses
  have hun := htracked.unnoticed
  rw [hoff] at hun
  obtain ⟨h, rxEnabled, hlink⟩ :=
    (onAdapter_run (s := (Link.onAdapter h₀ false, host₀)) ⟨h₀, false, rfl⟩ uses).1
  generalize run (Link.onAdapter h₀ false, host₀) uses = s at hlink hoff hon hun ⊢
  obtain ⟨link, host'⟩ := s
  obtain rfl : link = Link.onAdapter h rxEnabled := hlink
  cases rxEnabled with
  | false =>
    have hnot : ¬Unnoticed (Link.onAdapter h₀ false, host₀) uses := fun hu ↦ nomatch (hun.mp hu).1
    rw [Link.exec_enableReceive_restart, LinkM.exec_bind] at hon
    rcases Link.reset_cases h false host' with ⟨x, e, he, hx⟩ | ⟨e, he, ⟨x, hx⟩ | hx⟩ <;>
      rw [hx] at hon
    · cases hon
    · cases hon
    · dsimp only at hon
      rcases Link.turn_cases { h with consumer := 0, window := 0 } false
        { host' with driver := e } true with ⟨x, f, hf, hx⟩ | ⟨f, hf, hx⟩ <;> rw [hx] at hon <;>
        cases hon
      refine ⟨h, _, rfl, rfl, fun _ ↦ ⟨?_, rfl, rfl⟩, fun hu ↦ absurd hu hnot⟩
      exact (hf.trans (congrArg (· ++ _) he)).trans (List.append_assoc ..)
  | true =>
    rw [Link.exec_enableReceive_resume (fun _ ↦ rfl)] at hon
    rcases Link.turn_cases h true host' true with ⟨x, f, hf, hx⟩ | ⟨f, hf, hx⟩ <;>
      rw [hx] at hon <;> cases hon
    exact ⟨h, h, rfl, rfl, fun hnot ↦ absurd (hun.mpr ⟨rfl, rfl⟩) hnot, fun _ ↦ ⟨hf, rfl⟩⟩

/-- The board's status cannot be read during a reset: reception comes on again behind the word that
was released before. -/
theorem run_enableReceive_resumes_after_failed_reset :
    let b := Board.fresh 64 [.ofState 8 0x20 false]
    let opened : Link × Host (Recorded Board) := (Link.onAdapter ⟨.optical, 64, 0, 0, []⟩ false,
      { Host.ofBoard b with
        driver := (Hardware.openDriver .optical false (Recorded.start b)).2 })
    let uses : List (Use Board) :=
      [.enable true, .wait none, .acknowledge 4, .device fun b ↦ { b with status := [] }, .reset,
        .device fun c ↦ { c with status := b.status }]
    ∃ t h, (Link.enableReceive true).exec (run opened uses) = (.ok (), t) ∧
      written t = written (run opened uses) ++ [Link.receptionEntry true] ∧
      t.1.medium = .hardware h ∧ h.consumer = 4 := by
  intro b opened uses
  have hopen :
      Link.openRegular "d" .hardware .optical (Host.ofBoard b) = (.ok opened.1, opened.2) :=
    Link.openRegular_ofBoard b
  have hun : Unnoticed opened uses :=
    ⟨uses.take 4, uses.drop 5, rfl, by decide +kernel, ⟨.noData, by decide +kernel⟩,
      ⟨Word.toBytes 1, by decide +kernel⟩, [], by decide +kernel, rfl⟩
  have hok : ((Link.enableReceive true).exec (run opened uses)).1 = .ok () := by decide +kernel
  rcases hon : (Link.enableReceive true).exec (run opened uses) with ⟨outcome, t⟩
  rw [hon] at hok
  obtain rfl : outcome = .ok () := hok
  obtain ⟨h, h', hs, ht, -, hresume⟩ :=
    run_enableReceive_restarts_unless_unnoticed hopen uses (by decide +kernel) hon
  have hconsumer : (match (run (opened.1, opened.2) uses).1.medium with
      | .hardware h => h.consumer
      | _ => 0) = 4 := by decide +kernel
  rw [hs] at hconsumer
  exact ⟨t, h', rfl, (hresume hun).1, ht,
    (congrArg Hardware.consumer (hresume hun).2).trans hconsumer⟩

end Use

end DetectorLink
