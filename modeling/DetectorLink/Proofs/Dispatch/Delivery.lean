import DetectorLink.Proofs.Dispatch.Progress

/-!
# Delivery of a source

Handlers that mark nothing are shown the windows of a source, and the source goes on meanwhile.
What is known of the source is how its unread bytes change: they start with every window, a wait
keeps them, a release takes bytes from their front, and what happens around the source appends to
them. Then the handlers are shown the first packets of the scan of what came, however it comes and
whenever they are shown windows, and the scan of the unread bytes has the other ones.
-/

namespace DetectorLink.Dispatch

variable {σ τ ω : Type}

/-- What can happen around a source. -/
structure Surroundings (σ ω : Type) where
  /-- What is left of the source after it. -/
  apply : ω → σ → σ
  /-- The bytes that come with it. -/
  fed : ω → Bytes

/-- What is known of the unread bytes of a source while `holds left`: what is left of the last
window starts them, and at most that much of them can be released. -/
structure Shows (source : Source σ) (around : Surroundings σ ω) (unread : σ → Bytes)
    (holds : Bytes → σ → Prop) : Prop where
  left : ∀ {left s}, holds left s → left <+: unread s
  wait : ∀ {left s timeout answer t}, holds left s → (source.wait timeout).exec s = (answer, t) →
    holds (answer.toOption.getD left) t ∧ unread t = unread s
  release : ∀ {left s n}, holds left s → 0 < n → n % 4 = 0 → n ≤ left.length →
    ∃ t, (source.release n).exec s = (.ok (), t) ∧ holds (left.drop n) t ∧
      unread t = (unread s).drop n
  happen : ∀ {left s} what, holds left s →
    holds left (around.apply what s) ∧ unread (around.apply what s) = unread s ++ around.fed what

/-- What a window says can be released of a source that has it left. -/
theorem Shows.exists_release {source : Source σ} {around : Surroundings σ ω} {unread : σ → Bytes}
    {holds : Bytes → σ → Prop} (h : Shows source around unread holds) {window : Bytes} {s : σ}
    (hs : holds window s) :
    let n := (Progress.ofWindow window 0).bytes
    ∃ t, (if n = 0 then t = s else (source.release n).exec s = (.ok (), t)) ∧
      holds (window.drop n) t ∧ unread t = (unread s).drop n := by
  intro n
  by_cases hz : n = 0
  · rw [hz]
    exact ⟨s, rfl, hs, rfl⟩
  · obtain ⟨t, hrelease, ht⟩ := h.release hs (Nat.pos_of_ne_zero hz) (Progress.bytes_mod _)
      (Progress.bytes_ofWindow_zero_le window)
    exact ⟨t, by rwa [ite_cond_eq_false _ _ (eq_false hz)], ht⟩

/-- A source with handlers of its windows, what came for it and what they were shown. -/
structure Delivery (σ τ : Type) where
  /-- State of the source. -/
  state : σ
  /-- What the handlers work on. -/
  own : τ
  /-- What was there and what came. -/
  fed : Bytes
  /-- The packets that were shown. -/
  seen : List Packet

namespace Delivery

/-- What happens to a source and its handlers. -/
inductive Event (ω : Type) where
  /-- Something happens around the source. -/
  | around (what : ω)
  /-- A dispatch, with what happens while the handlers look at the window. -/
  | dispatch (timeout : Option Nat) (meanwhile : List ω)
  deriving DecidableEq, Repr

/-- A source with unread bytes, of which nothing was shown. -/
def start (s : σ) (own : τ) (bytes : Bytes) : Delivery σ τ := ⟨s, own, bytes, []⟩

/-- The bytes of the packets that were shown. -/
def delivered (d : Delivery σ τ) : List Bytes := d.seen.map Packet.bytes

/-- The source of a delivery. -/
def statePart : Part (Delivery σ τ) σ := ⟨state, fun s d ↦ { d with state := s }⟩

/-- Something happens around the source. -/
def happen (around : Surroundings σ ω) (d : Delivery σ τ) (what : ω) : Delivery σ τ :=
  { d with state := around.apply what d.state, fed := d.fed ++ around.fed what }

/-- What happens around the source while the handlers look at a window. -/
def goOn (around : Surroundings σ ω) (meanwhile : List ω) : Handler (Delivery σ τ) := fun _ ↦ do
  modify fun d ↦ meanwhile.foldl (happen around) d
  return []

/-- A handler that notes the packets that it is shown. -/
def note : Handler (Delivery σ τ) := fun reservation ↦ do
  modify fun d ↦ { d with seen := d.seen ++ reservation.packetList }
  return []

/-- A handler that works on what is its own. -/
def lift (h : Handler τ) : Handler (Delivery σ τ) := fun reservation ↦ do
  let d ← get
  let (marks, own) := (h reservation).run d.own
  set { d with own }
  return marks

variable (source : Source σ) (around : Surroundings σ ω) (handlers : List (Handler τ))

/-- What looks at a window while the source goes on. -/
def lookers (meanwhile : List ω) : List (Handler (Delivery σ τ)) :=
  goOn around meanwhile :: note :: handlers.map lift

/-- A dispatch: its answer, the counters and the delivery. -/
def dispatch (d : DispatchStats × Delivery σ τ) (timeout : Option Nat) (meanwhile : List ω) :
    Except LinkError Nat × (DispatchStats × Delivery σ τ) :=
  (once (source.within statePart) (lookers around handlers meanwhile) timeout).exec d

/-- Bytes that a dispatch releases, none if it fails. -/
def released (d : DispatchStats × Delivery σ τ) (timeout : Option Nat) : Nat :=
  (dispatch source around handlers d timeout []).1.toOption.getD 0

/-- Go on with an event. -/
def step (d : DispatchStats × Delivery σ τ) : Event ω → DispatchStats × Delivery σ τ
  | .around what => (d.1, d.2.happen around what)
  | .dispatch timeout meanwhile => (dispatch source around handlers d timeout meanwhile).2

/-- Go on with events, one after the other. -/
def run (d : DispatchStats × Delivery σ τ) (events : List (Event ω)) :
    DispatchStats × Delivery σ τ := events.foldl (step source around handlers) d

variable {handlers}

theorem unmarking_lookers (hm : ∀ h ∈ handlers, Unmarking h) (meanwhile : List ω) :
    ∀ h ∈ lookers (σ := σ) around handlers meanwhile, Unmarking h := by
  intro h hh
  rcases List.mem_cons.mp hh with rfl | hh
  · exact fun _ _ ↦ rfl
  · rcases List.mem_cons.mp hh with rfl | hh
    · exact fun _ _ ↦ rfl
    · obtain ⟨k, hk, rfl⟩ := List.mem_map.mp hh
      exact fun reservation d ↦ hm k hk reservation d.own

/-- The source goes on, the packets of the window are noted, and the handlers do what they do. -/
theorem effects_lookers (meanwhile : List ω) (window : Bytes) (d : Delivery σ τ) :
    effects (lookers around handlers meanwhile) window d =
      { meanwhile.foldl (happen around) d with
        own := effects handlers window (meanwhile.foldl (happen around) d).own
        seen := (meanwhile.foldl (happen around) d).seen ++ Packet.walk window } := by
  have hlift (d : Delivery σ τ) : effects (handlers.map lift) window d =
      { d with own := effects handlers window d.own } := by
    induction handlers generalizing d with
    | nil => rfl
    | cons h rest ih => exact ih _
  have hnote : effects (lookers around handlers meanwhile) window d =
      effects (handlers.map lift) window
        { meanwhile.foldl (happen around) d with
          seen := (meanwhile.foldl (happen around) d).seen ++
            Reservation.packetList ⟨window⟩ } := rfl
  rw [hnote, hlift, Reservation.packetList_eq]

/-- What is kept of a delivery: what is known of the source, and that behind the packets that were
shown the scan of what came goes on in the unread bytes, whatever comes next. -/
structure Sound (unread : σ → Bytes) (holds : Bytes → σ → Prop) (left : Bytes)
    (d : Delivery σ τ) : Prop where
  holds : holds left d.state
  scan : ∀ more, Packet.scan (d.fed ++ more) = d.delivered ++ Packet.scan (unread d.state ++ more)

variable {unread : σ → Bytes} {holds : Bytes → σ → Prop} {left : Bytes} {d : Delivery σ τ}

theorem sound_start {s : σ} (h : holds left s) {bytes : Bytes} (hu : unread s = bytes) (own : τ) :
    (start s own bytes).Sound unread holds left := ⟨h, fun _ ↦ hu ▸ rfl⟩

/-- What was shown are the first packets of what came. -/
theorem Sound.delivered_prefix (hd : d.Sound unread holds left) :
    d.delivered <+: Packet.scan d.fed := by
  have hscan := hd.scan []
  rw [List.append_nil] at hscan
  exact hscan ▸ List.prefix_append _ _

/-- What was shown are all packets of what came if there is none in the unread bytes. -/
theorem Sound.delivered_eq (hd : d.Sound unread holds left)
    (hnone : Packet.scan (unread d.state) = []) : d.delivered = Packet.scan d.fed := by
  have hscan := hd.scan []
  rwa [List.append_nil, List.append_nil, hnone, List.append_nil, eq_comm] at hscan

variable {source around}

/-- What happens around the source appends to what came and to the unread bytes alike. -/
theorem sound_happen (h : Shows source around unread holds) (hd : d.Sound unread holds left)
    (what : ω) : (d.happen around what).Sound unread holds left := by
  obtain ⟨hstate, hunread⟩ := h.happen what hd.holds
  refine ⟨hstate, fun more ↦ ?_⟩
  show Packet.scan (d.fed ++ around.fed what ++ more) =
    d.delivered ++ Packet.scan (unread (around.apply what d.state) ++ more)
  rw [hunread, List.append_assoc, List.append_assoc]
  exact hd.scan _

theorem sound_happenings (h : Shows source around unread holds) (hd : d.Sound unread holds left)
    (what : List ω) : (what.foldl (happen around) d).Sound unread holds left := by
  induction what generalizing d with
  | nil => exact hd
  | cons first rest ih => exact ih (sound_happen h hd first)

/-- A wait leaves what was shown and what is unread. -/
theorem sound_wait (h : Shows source around unread holds) (hd : d.Sound unread holds left)
    {timeout : Option Nat} {answer : Except LinkError Bytes} {t : σ}
    (hw : (source.wait timeout).exec d.state = (answer, t)) :
    ({ d with state := t } : Delivery σ τ).Sound unread holds (answer.toOption.getD left) := by
  obtain ⟨hstate, hunread⟩ := h.wait hd.holds hw
  refine ⟨hstate, fun more ↦ ?_⟩
  show _ = d.delivered ++ Packet.scan (unread t ++ more)
  rw [hunread]
  exact hd.scan more

/-- Showing a window that starts the unread bytes, and taking from them what it says, moves its
packets from the unread bytes to what was shown. -/
theorem sound_show {window : Bytes} (hd : d.Sound unread holds window)
    (hleft : window <+: unread d.state) (own : τ) {rest : Bytes} {t : σ} (ht : holds rest t)
    (hunread : unread t = (unread d.state).drop (Progress.ofWindow window 0).bytes) :
    ({ d with state := t, own, seen := d.seen ++ Packet.walk window } :
      Delivery σ τ).Sound unread holds rest := by
  refine ⟨ht, fun more ↦ ?_⟩
  obtain ⟨behind, hbehind⟩ := hleft
  have hle := Progress.bytes_ofWindow_zero_le window
  have hlen : (Progress.ofWindow window 0).bytes ≤ (unread d.state).length := by
    rw [← hbehind, List.length_append]
    exact Nat.le_add_right_of_le hle
  show Packet.scan (d.fed ++ more) =
    (d.seen ++ Packet.walk window).map Packet.bytes ++ Packet.scan (unread t ++ more)
  rw [hd.scan, hunread, List.map_append, List.append_assoc,
    ← List.drop_append_of_le_length hlen, ← hbehind, List.append_assoc,
    Progress.scan_append_eq_walk]
  rfl

/-- The ways a dispatch can go: its wait fails and nothing more is done, or the window is shown,
counted and taken from what is unread as far as it says. -/
theorem dispatch_cases (h : Shows source around unread holds) (hm : ∀ h ∈ handlers, Unmarking h)
    (hd : d.Sound unread holds left) (stats : DispatchStats) (timeout : Option Nat)
    (meanwhile : List ω) :
    ∃ answer t, (source.wait timeout).exec d.state = (answer, t) ∧
    ((∃ e, answer = .error e ∧ dispatch source around handlers (stats, d) timeout meanwhile =
        (.error e, (stats, { d with state := t }))) ∨
      ∃ window u, answer = .ok window ∧
        let progress := Progress.ofWindow window 0
        let next := meanwhile.foldl (happen around) { d with state := t }
        (progress.bytes = 0 → u = next.state) ∧ holds (window.drop progress.bytes) u ∧
        unread u = (unread next.state).drop progress.bytes ∧
        dispatch source around handlers (stats, d) timeout meanwhile =
          (.ok progress.bytes, (stats.count window progress, { next with
            state := u
            own := effects handlers window next.own
            seen := next.seen ++ Packet.walk window }))) := by
  rcases hw : (source.wait timeout).exec d.state with ⟨answer, t⟩
  refine ⟨answer, t, rfl, ?_⟩
  have hwait : ((source.within statePart).wait timeout).exec d = (answer, { d with state := t }) :=
    congrArg (fun r ↦ (r.1, { d with state := r.2 })) hw
  cases answer with
  | error e => exact .inl ⟨e, rfl, once_of_wait_error hwait⟩
  | ok window =>
    have hwaited : ({ d with state := t } : Delivery σ τ).Sound unread holds window :=
      sound_wait h hd hw
    have hnext := sound_happenings h hwaited meanwhile
    obtain ⟨u, hu, hleft, hunread⟩ := h.exists_release hnext.holds
    have hlookers := unmarking_lookers (σ := σ) around hm meanwhile
    split at hu
    · next hz =>
      refine .inr ⟨window, u, rfl, fun _ ↦ hu, hleft, hunread, once_of_release_ok hlookers hwait ?_⟩
      rw [effects_lookers, ite_cond_eq_true _ _ (eq_true hz), hu]
    · next hz =>
      refine .inr ⟨window, u, rfl, fun he ↦ absurd he hz, hleft, hunread,
        once_of_release_ok hlookers hwait ?_⟩
      rw [effects_lookers, ite_cond_eq_false _ _ (eq_false hz)]
      exact congrArg (fun r ↦ (r.1, statePart.set r.2 _)) hu

/-- A dispatch keeps what was shown the start of the scan. -/
theorem sound_dispatch (h : Shows source around unread holds) (hm : ∀ h ∈ handlers, Unmarking h)
    (hd : d.Sound unread holds left) (stats : DispatchStats) (timeout : Option Nat)
    (meanwhile : List ω) :
    ∃ rest, (dispatch source around handlers (stats, d) timeout meanwhile).2.2.Sound
      unread holds rest := by
  obtain ⟨answer, t, hw, hcases⟩ := dispatch_cases h hm hd stats timeout meanwhile
  have hwait := sound_wait h hd hw
  rcases hcases with ⟨e, rfl, hdispatch⟩ | ⟨window, u, rfl, -, hu, hunread, hdispatch⟩
  · exact ⟨left, by rwa [hdispatch]⟩
  · have hnext := sound_happenings h hwait meanwhile
    rw [hdispatch]
    exact ⟨_, sound_show hnext (h.left hnext.holds) _ hu hunread⟩

/-- Every event keeps what was shown the start of the scan. -/
theorem sound_step (h : Shows source around unread holds) (hm : ∀ h ∈ handlers, Unmarking h)
    (hd : d.Sound unread holds left) (stats : DispatchStats) (event : Event ω) :
    ∃ rest, (step source around handlers (stats, d) event).2.Sound unread holds rest := by
  cases event with
  | around what => exact ⟨left, sound_happen h hd what⟩
  | dispatch timeout meanwhile => exact sound_dispatch h hm hd stats timeout meanwhile

/-- Any events keep what was shown the start of the scan. -/
theorem sound_run (h : Shows source around unread holds) (hm : ∀ h ∈ handlers, Unmarking h)
    (hd : d.Sound unread holds left) (stats : DispatchStats) (events : List (Event ω)) :
    ∃ rest, (run source around handlers (stats, d) events).2.Sound unread holds rest := by
  induction events generalizing stats d left with
  | nil => exact ⟨left, hd⟩
  | cons event rest ih =>
    obtain ⟨next, hnext⟩ := sound_step h hm hd stats event
    exact ih hnext _

/-- A dispatch that releases nothing leaves the source as the wait did, and the window ends inside
its first packet if there is one. -/
theorem dispatch_of_released_eq_zero (h : Shows source around unread holds)
    (hm : ∀ h ∈ handlers, Unmarking h) (hd : d.Sound unread holds left) {stats : DispatchStats}
    {timeout : Option Nat} (hz : released source around handlers (stats, d) timeout = 0) :
    ∃ answer, (source.wait timeout).exec d.state =
        (answer, (dispatch source around handlers (stats, d) timeout []).2.2.state) ∧
      ∀ window, answer = .ok window →
        Packet.validLength? window = none ∧ Packet.corruptHead window = false := by
  obtain ⟨answer, t, hw, hcases⟩ := dispatch_cases h hm hd stats timeout []
  refine ⟨answer, ?_⟩
  unfold released at hz
  rcases hcases with ⟨e, rfl, hdispatch⟩ | ⟨window, u, rfl, hkeep, -, -, hdispatch⟩
  · rw [hdispatch]
    exact ⟨hw, nofun⟩
  · rw [hdispatch] at hz ⊢
    have hz : (Progress.ofWindow window 0).bytes = 0 := hz
    refine ⟨?_, fun _ hwindow ↦ ?_⟩
    · rw [hw]
      exact congrArg _ (hkeep hz).symm
    · cases hwindow
      exact (Progress.bytes_ofWindow_zero_eq_zero_iff window).mp hz

end Delivery

end DetectorLink.Dispatch
