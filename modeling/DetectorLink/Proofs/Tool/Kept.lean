import DetectorLink.Proofs.Dispatch.Accounts
import DetectorLink.Proofs.Tool.Effect
import DetectorLink.Ring.Copier
import DetectorLink.Tool.Dump
import DetectorLink.Tool.Inquiry

/-!
# What readers of a source keep

What every wait, release and send keeps, every reader keeps that does nothing else to a source: the
rings over it, a dispatch whose handlers keep it, and the loops that dump packets or listen for
answers.
-/

namespace DetectorLink

variable {σ τ : Type} {P : σ → Prop}

/-- A source keeps what its waits and releases keep. -/
structure Source.Keeps (P : σ → Prop) (source : Source σ) : Prop where
  wait : ∀ timeout, DetectorLink.Keeps P (source.wait timeout)
  release : ∀ n, DetectorLink.Keeps P (source.release n)

/-- A sink keeps what its sends keep. -/
def Sink.Keeps (P : σ → Prop) (sink : Sink σ) : Prop :=
  ∀ data, DetectorLink.Keeps P (sink.send data)

/-- A handler keeps what it leaves in place in every window. -/
def Handler.Keeps (P : σ → Prop) (h : Handler σ) : Prop :=
  ∀ reservation s, P s → P ((h reservation).run s).2

theorem Source.Keeps.within {source : Source σ} (h : source.Keeps P) {p : Part τ σ}
    (hp : p.Lawful) : (source.within p).Keeps fun t ↦ P (p.get t) :=
  ⟨fun timeout ↦ (h.wait timeout).within hp, fun n ↦ (h.release n).within hp⟩

theorem Sink.Keeps.within {sink : Sink σ} (h : sink.Keeps P) {p : Part τ σ} (hp : p.Lawful) :
    (sink.within p).Keeps fun t ↦ P (p.get t) :=
  fun data ↦ (h data).within hp

/-! ### Rings -/

/-- A direct ring does to its source what is asked of it. -/
theorem DirectRing.keeps_source {inner : Source σ} (h : inner.Keeps P) :
    (DirectRing.source inner).Keeps fun s ↦ P s.2 where
  wait timeout := by
    rintro ⟨d, s⟩ hs
    show P ((DirectRing.wait inner timeout).exec (d, s)).2.2
    simp only [DirectRing.wait, LinkM.exec_ofFun]
    split
    · exact hs
    · exact (h.wait timeout).exec hs
  release n := by
    rintro ⟨d, s⟩ hs
    have ht := (h.release (min (alignDown n) d.window)).exec hs
    show P ((DirectRing.consume inner n).exec (d, s)).2.2
    simp only [DirectRing.consume, LinkM.exec_ofFun]
    split
    · next he => rwa [he] at ht
    · next he => rwa [he] at ht

/-- A copier waits and releases. -/
theorem CopiedRing.keeps_step {inner : Source σ} (h : inner.Keeps P) (poll : Nat) (c : CopiedRing)
    {s : σ} (hs : P s) : P (c.step inner poll s).2.2 := by
  have hmove (data : Bytes) (t : σ) (ht : P t) : P (Copier.move inner data c.ring t).2.2 := by
    unfold Copier.move
    split
    · exact ht
    · dsimp only
      split
      · exact ht
      · have hu := (h.release (c.ring.push data).1).exec ht
        split <;> next he => rwa [he] at hu
  unfold CopiedRing.step
  split
  · show P (Copier.step inner poll c.ring s).2.2
    unfold Copier.step
    split
    · exact hs
    · have ht := (h.wait (some poll)).exec hs
      split <;> next he =>
        rw [he] at ht
        first | exact hmove _ _ ht | exact ht
  · exact hs

theorem CopiedRing.keeps_work {inner : Source σ} (h : inner.Keeps P) (clock : Clock σ)
    (deadline : Option Nat) (rounds : Nat) (c : CopiedRing) {s : σ} (hs : P s) :
    P (work inner clock deadline rounds c s).2 := by
  induction rounds generalizing c s with
  | zero => exact hs
  | succ rounds ih =>
    have ht := keeps_step h (deadline.elim Copier.defaultPoll (· - clock.now s)) c hs
    unfold work
    split
    · next he =>
      rw [he] at ht
      split
      · exact ht
      · exact ih _ ht
    · next he => rwa [he] at ht

theorem CopiedRing.keeps_source {inner : Source σ} (h : inner.Keeps P) (clock : Clock σ)
    (rounds : Nat) : (CopiedRing.source inner clock rounds).Keeps fun s ↦ P s.2 where
  wait _ := fun s hs ↦ keeps_work h clock _ rounds s.1 hs
  release _ := fun _ hs ↦ hs

/-! ### Dispatches -/

namespace Dispatch

theorem keeps_effects {handlers : List (Handler σ)} (hh : ∀ h ∈ handlers, h.Keeps P)
    (window : Bytes) {s : σ} (hs : P s) : P (effects handlers window s) := by
  induction handlers generalizing s with
  | nil => exact hs
  | cons h rest ih =>
    exact ih (fun k hk ↦ hh k (List.mem_cons_of_mem h hk)) (hh h List.mem_cons_self ⟨window⟩ s hs)

/-- A dispatch keeps what its source and its handlers keep. -/
theorem keeps_once {source : Source σ} (h : source.Keeps P) {handlers : List (Handler σ)}
    (hh : ∀ h ∈ handlers, h.Keeps P) (timeout : Option Nat) :
    Keeps (fun s ↦ P s.2) (once source handlers timeout) := by
  rintro ⟨stats, s⟩ hs
  have ht := (h.wait timeout).exec hs
  show P ((once source handlers timeout).exec (stats, s)).2.2
  rcases hw : (source.wait timeout).exec s with ⟨e | window, t⟩ <;> rw [hw] at ht
  · rw [once_of_wait_error hw]
    exact ht
  · rw [exec_once_of_wait_ok hw]
    have hu := keeps_effects hh window ht
    dsimp only
    split
    · exact hu
    · exact h.release _ _ hu

end Dispatch

/-! ### Dumps -/

namespace Dump

variable {source : Source σ} {clock : Clock σ}

/-- Work on the dump is none on its source. -/
theorem keeps_change (f : σ → Dump → Dump) : Keeps (fun s ↦ P s.2.1) (change f) := fun _ hs ↦ hs

/-- A round of a dump dispatches, sleeps and prints. -/
theorem keeps_round (h : source.Keeps P) (hc : ∀ n s, P s → P (clock.sleep n s))
    (request : DumpRequest) : Keeps (fun s ↦ P s.2.1) (round request source clock) := by
  have hhandler : ∀ k ∈ [runningHandler (σ := σ) request], k.Keeps fun s ↦ P s.1 := by
    intro k hk
    rw [List.mem_singleton.mp hk]
    exact fun _ _ hs ↦ hs
  have honce := Dispatch.keeps_once (h.within Part.lawful_first) hhandler (some request.poll)
  have hprint := keeps_change (P := P) fun _ d ↦ d.print request
  refine honce.outcome.bind fun r ↦ ?_
  dsimp only
  split
  · exact (Keeps.change fun s hs ↦ hc 1 s.2.1 hs).bind fun _ ↦ hprint
  · exact (keeps_change _).bind fun _ ↦ hprint
  · exact hprint
  · exact (Keeps.fail _).bind fun _ ↦ hprint

/-- A dump keeps what its source keeps, however it ends. -/
theorem keeps_rounds (h : source.Keeps P) (hc : ∀ n s, P s → P (clock.sleep n s))
    (request : DumpRequest) (n : Nat) :
    Keeps (fun s ↦ P s.2.1) (rounds request source clock n) := by
  induction n with
  | zero => exact Keeps.pure ()
  | succ n ih =>
    refine Keeps.read.bind fun s ↦ ?_
    split
    · exact Keeps.pure ()
    · refine (keeps_round h hc request).bind fun _ ↦ Keeps.read.bind ?_
      rintro ⟨stats, s, d⟩
      dsimp only
      split
      · exact Keeps.pure ()
      · exact ih

end Dump

/-! ### Inquiries -/

namespace Discovery

variable {sink : Sink σ}

theorem keeps_sendOne (h : sink.Keeps P) (packet : Except CodecError Packet) {s : σ} (hs : P s) :
    P (sendOne sink packet s).2 := by
  cases packet with
  | error e => exact hs
  | ok p =>
    have ht := (h p.bytes).exec hs
    unfold sendOne
    dsimp only
    split <;> next he => rwa [he] at ht

theorem keeps_sendAll (h : sink.Keeps P) (packets : List (Except CodecError Packet)) {s : σ}
    (hs : P s) : P (sendAll sink packets s) := by
  induction packets generalizing s with
  | nil => exact hs
  | cons p rest ih => exact ih (keeps_sendOne h p hs)

theorem keeps_handlePacket (h : sink.Keeps P) (d : Discovery) (p : Packet) {s : σ} (hs : P s) :
    P (d.handlePacket sink p s).2.2 := by
  unfold handlePacket
  split
  · exact keeps_sendAll h _ hs
  · exact hs

theorem keeps_handleAll (h : sink.Keeps P) (packets : List Packet) (d : Discovery) {s : σ}
    (hs : P s) : P (handleAll sink packets d s).2 := by
  induction packets generalizing d s with
  | nil => exact hs
  | cons p rest ih => exact ih (d.handlePacket sink p s).2.1 (keeps_handlePacket h d p hs)

end Discovery

theorem Commander.keeps_send {η : Type} {sink : Sink σ} (h : sink.Keeps P) (c : Commander η)
    (now : Nat) (command : Command) (channel : UInt8) (payload : List UInt32) {s : σ} (hs : P s) :
    P (c.send sink now command channel payload s).2.2 := by
  unfold send
  split
  · exact hs
  · split
    · exact hs
    · next packet _ =>
      have ht := (h packet.bytes).exec hs
      split <;> next he => rwa [he] at ht

theorem Candidates.keeps_ask {sink : Sink σ} (h : sink.Keeps P) (now : Nat) (command : Command)
    (cs : Candidates) {s : σ} (hs : P s) : P (ask sink now command s cs).2.2 := by
  induction cs generalizing s with
  | nil => exact hs
  | cons c rest ih =>
    unfold ask
    split
    · have ht := c.keeps_send h now command 0 [] hs
      split <;> next he =>
        rw [he] at ht
        first | exact ht | exact ih ht
    · exact ih hs

namespace Inquiry

variable {δ X : Type} [Driver δ] {P : Link × Host δ → Prop}

/-- The state of an inquiry's handlers has something left in place at its link. -/
abbrev OnLink (P : Link × Host δ → Prop) (s : (DirectRing × (Link × Host δ)) × X) : Prop :=
  P s.1.2

theorem keeps_sink (h : (Link.sink (δ := δ)).Keeps P) : (sink (δ := δ)).Keeps fun s ↦ P s.2 :=
  h.within Part.lawful_second

/-- An inquiry keeps what its link and its handler keep, however it ends. -/
theorem keeps_pump (h : (Link.source (δ := δ)).Keeps P) (hc : ∀ n s, P s → P (Link.clock.sleep n s))
    {handler : Handler ((DirectRing × (Link × Host δ)) × X)} (hh : handler.Keeps (OnLink P))
    (poll deadline : Nat) (done : X → Bool) (settle : Nat → X → X) (rounds : Nat) :
    Keeps (fun s ↦ OnLink P s.2) (pump handler poll deadline done settle rounds) := by
  have hhandler : ∀ k ∈ [handler], k.Keeps (OnLink P) := by
    intro k hk
    rwa [List.mem_singleton.mp hk]
  induction rounds with
  | zero => exact Keeps.pure ()
  | succ n ih =>
    have honce (timeout : Option Nat) := Dispatch.keeps_once
      ((DirectRing.keeps_source h).within Part.lawful_first) hhandler timeout
    have hrest {f : Inquiry δ X → Inquiry δ X} (hf : ∀ s, (f s).2.1 = s.2.1) :
        Keeps (fun s ↦ OnLink P s.2)
          (LinkM.change f >>= fun _ ↦ pump handler poll deadline done settle n) := by
      refine Keeps.bind (Keeps.change fun s hs ↦ ?_) fun _ ↦ ih
      show P (f s).2.1.2
      rwa [hf s]
    refine Keeps.read.bind fun s ↦ ?_
    dsimp only
    split
    · exact Keeps.pure ()
    · refine (honce _).outcome.bind fun r ↦ ?_
      split
      · exact (Keeps.change fun s hs ↦ hc 1 s.2.1.2 hs).bind fun _ ↦ hrest fun _ ↦ rfl
      · exact hrest fun _ ↦ rfl
      · exact hrest fun _ ↦ rfl
      · exact (Keeps.fail _).bind fun _ ↦ hrest fun _ ↦ rfl

end Inquiry

variable {δ : Type} [Driver δ]

/-- An inquiry does no more to its link than waits, releases, sends and sleeps do. -/
def Inquiry.Communicates {X : Type} (inquiry : ToolM (Inquiry δ X) Unit) : Prop :=
  ∀ P : Link × Host δ → Prop, Link.source.Keeps P → Link.sink.Keeps P →
    (∀ n s, P s → P (Link.clock.sleep n s)) → Keeps (fun s ↦ OnLink P s.2) inquiry

theorem Inquiry.Communicates.bind {X : Type} {first second : ToolM (Inquiry δ X) Unit}
    (h : Communicates first) (h' : Communicates second) :
    Communicates (first >>= fun _ ↦ second) := fun P hsource hsink hclock ↦
  (h P hsource hsink hclock).bind fun _ ↦ h' P hsource hsink hclock

theorem Discovery.communicates_inquiry (settings : Settings) (window : Nat) :
    Inquiry.Communicates (inquiry (δ := δ) settings window) := by
  intro P hsource hsink hclock
  have hhandler : (handler (δ := δ)).Keeps (Inquiry.OnLink P) := fun reservation s hs ↦
    keeps_handleAll (Inquiry.keeps_sink hsink) reservation.packetList s.2 hs
  refine Keeps.bind (fun s hs ↦ ?_) fun deadline ↦
    Inquiry.keeps_pump hsource hclock hhandler _ _ _ _ _
  exact keeps_sendOne (Inquiry.keeps_sink hsink) broadcastRequest hs

theorem Candidates.communicates_stage (settings : Settings) (command : Command) :
    Inquiry.Communicates (stage (δ := δ) settings command) := by
  intro P hsource hsink hclock
  have hhandler : (handler (δ := δ)).Keeps (Inquiry.OnLink P) := fun _ _ hs ↦ hs
  refine Keeps.bind (fun s hs ↦ ?_) fun deadline ↦
    Inquiry.keeps_pump hsource hclock hhandler _ _ _ _ _
  exact keeps_ask (Inquiry.keeps_sink hsink) _ command s.2.2 hs

end DetectorLink
