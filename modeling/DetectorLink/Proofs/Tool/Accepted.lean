import DetectorLink.Link.Board
import DetectorLink.Proofs.Dispatch.FullRing
import DetectorLink.Proofs.Link.Pipe
import DetectorLink.Tool.Settings

/-!
# Links of accepted configurations

What a configuration says of its link is checked when it is read and used when the link is opened.
The two do not agree everywhere: the check of a pipe device asks for a comma only, and that of an
adapter leaves the interface to the command line. Such links are accepted and then refused. Every
other refusal of an argument comes from the host: from a name that cannot be a pipe there, from an
address that cannot be listened on, or from the driver.
-/

namespace DetectorLink

namespace Pipe

/-- Nothing is before the first comma of a device, or nothing after it. -/
def OneSided (device : String) : Prop :=
  ∃ name, device.toList = ',' :: name ∨ ',' ∉ name ∧ device.toList = name ++ [',']

/-- A device with a comma is split unless it is one-sided. -/
theorem splitDevice_cases {device : String} (h : ',' ∈ device.toList) :
    (OneSided device ∧ splitDevice device = splitDevice.refused device) ∨
      (¬OneSided device ∧ ∃ rx tx, splitDevice device = .ok (rx, tx)) := by
  obtain ⟨rx, tx, hcs, hrx⟩ := List.eq_append_cons_of_mem h
  have hno : ∀ c ∈ rx, (c != ',') = true := fun c hc ↦ bne_iff_ne.mpr fun he ↦ hrx (he ▸ hc)
  have hbefore : device.toList.takeWhile (· != ',') = rx := by
    rw [hcs, List.takeWhile_append_of_pos hno]
    exact List.append_nil rx
  have hafter : device.toList.dropWhile (· != ',') = ',' :: tx := by
    rw [hcs, List.dropWhile_append_of_pos hno]
    rfl
  have hsided : OneSided device ↔ rx = [] ∨ tx = [] := by
    constructor
    · rintro ⟨name, hname | ⟨hn, hname⟩⟩
      · rw [hname] at hbefore
        exact .inl hbefore.symm
      · have hno : ∀ c ∈ name, (c != ',') = true :=
          fun c hc ↦ bne_iff_ne.mpr fun he ↦ hn (he ▸ hc)
        rw [hname, List.dropWhile_append_of_pos hno] at hafter
        exact .inr (List.cons.inj hafter).2.symm
    · rintro (rfl | rfl)
      · exact ⟨tx, .inl hcs⟩
      · exact ⟨rx, .inr ⟨hrx, hcs⟩⟩
  have hsplit : splitDevice device =
      if rx.isEmpty || tx.isEmpty then splitDevice.refused device
      else .ok (Text.trim (String.ofList rx), Text.trim (String.ofList tx)) := by
    unfold splitDevice
    simp only [hbefore, hafter]
  rw [hsplit, hsided, ← List.isEmpty_iff, ← List.isEmpty_iff, ← Bool.or_eq_true]
  split
  · next he => exact .inl ⟨he, rfl⟩
  · next he => exact .inr ⟨he, _, _, rfl⟩

end Pipe

/-! ### What is accepted -/

namespace LinkConfig

/-- A valid device of a pair of pipes has a comma. -/
theorem comma_mem_of_validate {c : LinkConfig} (hv : c.validate = .ok ()) (hk : c.kind = .pipe) :
    ',' ∈ c.device.toList := by
  unfold validate at hv
  split at hv
  · cases hv
  · split at hv
    · cases hv
    · split at hv
      · cases hv
      · split at hv
        · cases hv
        · next hc =>
          rw [Bool.not_eq_true', not_and, Bool.not_eq_false, List.contains_iff_mem] at hc
          exact hc hk

/-- A valid size is 0 or one that a ring can have. -/
theorem create_of_validate {c : LinkConfig} (hv : c.validate = .ok ())
    (hz : c.localBufferSize ≠ 0) : ∃ r, Ring.create c.localBufferSize = .ok r := by
  obtain ⟨hmod, hmax⟩ := localBufferSize_of_validate hv hz
  have hmaxlen : Packet.maxLength = 14424 := rfl
  exact ⟨_, Ring.create_eq_ok_iff.mpr ⟨by simp only [alignment]; omega, hmod, rfl⟩⟩

end LinkConfig

/-- A result of two steps is the second's on a result of the first. -/
theorem eq_ok_of_bind {ε α β : Type} {x : Except ε α} {f : α → Except ε β} {b : β}
    (h : x >>= f = .ok b) : ∃ a, x = .ok a ∧ f a = .ok b := by
  cases x with
  | error e => cases h
  | ok a => exact ⟨a, rfl, h⟩

/-- What is checked is valid, and a listener has the interface of one. -/
theorem Config.link_of_check {c : Config} (h : c.check = .ok ()) :
    c.link.validate = .ok () ∧ (c.link.kind = .socket → c.link.interface = .socket) := by
  obtain ⟨_, hv, hi⟩ := eq_ok_of_bind h
  obtain ⟨_, -, hv⟩ := eq_ok_of_bind hv
  obtain ⟨_, hl, -⟩ := eq_ok_of_bind hv
  refine ⟨hl, fun hk ↦ ?_⟩
  split at hi
  · cases hi
  · next hc => exact Decidable.of_not_not fun hne ↦ hc ⟨hk, hne⟩

namespace Arguments

variable {a : Arguments} {files : Files} {config : Config}

/-- What is resolved is what the command line says over the files, if the check lets it pass. -/
theorem resolve_eq_ok_iff :
    a.resolve files = .ok config ↔
      ∃ c, Config.ofFiles files a.config = .ok c ∧ a.override c = config ∧
        config.check = .ok () := by
  constructor
  · intro h
    obtain ⟨c, hc, h⟩ := eq_ok_of_bind h
    obtain ⟨_, hk, h⟩ := eq_ok_of_bind h
    cases h
    exact ⟨c, hc, rfl, hk⟩
  · rintro ⟨c, hc, rfl, hk⟩
    rw [resolve, hc]
    show ((a.override c).check >>= fun _ ↦ _) = _
    rw [hk]
    rfl

/-- An adapter has the interface of a listener only if the files say so and the command line says
nothing of the kind. -/
theorem overrideLink_adapter_iff (c : LinkConfig) :
    (a.overrideLink c).kind = .hardware ∧ (a.overrideLink c).interface = .socket ↔
      a.kind = none ∧ c.kind = .hardware ∧ c.interface = .socket := by
  unfold overrideLink
  cases a.kind with
  | none => cases a.device <;> simp
  | some kind => cases a.device <;> cases kind <;> simp [LinkConfig.withKind] <;> grind

end Arguments

/-! ### What is refused -/

/-- Only one number means that an argument was refused. -/
theorem LinkError.ofErrno_ne_invalidArgument {e : Errno} {context reason : String}
    (h : e.code ≠ 22) : ofErrno e context ≠ .invalidArgument reason := by
  unfold ofErrno
  split <;> rintro ⟨⟩
  exact h ‹_›

namespace Files

variable {f : Files} {name : String}

/-- A name that is not resolved is missing, or has a part below something that is no directory. -/
theorem code_of_follow {path : FilePath} {parts : List String} {e : Errno}
    (h : f.follow path parts = .error e) : e.code = 2 ∨ e.code = 20 := by
  induction parts generalizing path with
  | nil => cases h
  | cons part rest ih =>
    unfold follow at h
    split at h
    · cases h
      exact .inl rfl
    · split at h
      · exact ih h
      · split at h
        · exact ih h
        · split at h
          · split at h <;> cases h
            exact .inl rfl
          · exact ih h
    · cases h
      exact .inr rfl

theorem code_of_resolve {e : Errno} (h : f.resolve name = .error e) :
    e.code = 2 ∨ e.code = 20 := by
  unfold resolve at h
  split at h
  · cases h
    exact .inl rfl
  · exact code_of_follow h

theorem code_of_find {e : Errno} (h : f.find name = .error e) : e.code = 2 ∨ e.code = 20 := by
  unfold find at h
  cases hr : f.resolve name with
  | error e' =>
    rw [hr] at h
    cases h
    exact code_of_resolve hr
  | ok found =>
    obtain ⟨path, node | node⟩ := found <;> rw [hr] at h <;> cases h
    exact .inl rfl

theorem node?_ne_none_of_follow {path place : FilePath} {parts : List String} {node : FileNode}
    (h : f.follow path parts = .ok (place, some node)) : f.node? path ≠ none := by
  intro hnone
  cases parts with
  | nil =>
    rw [follow, hnone] at h
    cases h
  | cons part rest =>
    rw [follow, hnone] at h
    cases h

/-- What is found beside a new named pipe was there before. -/
theorem follow_of_put {pipe : FilePath} {queue : Stream} (hp : pipe ≠ []) {path place : FilePath}
    {parts : List String} {node : FileNode} (hnode : ∀ queue, node ≠ .fifo queue)
    (h : (f.put pipe (.fifo queue)).follow path parts = .ok (place, some node)) :
    f.follow path parts = .ok (place, some node) := by
  have hsame {other : FilePath} {n : FileNode}
      (hn : (f.put pipe (.fifo queue)).node? other = some n)
      (hno : ∀ queue, n ≠ .fifo queue) : f.node? other = some n := by
    by_cases ho : other = pipe
    · rw [ho, f.node?_put hp] at hn
      exact absurd (Option.some.inj hn).symm (hno queue)
    · rwa [f.node?_put_of_ne ho] at hn
  induction parts generalizing path with
  | nil =>
    rw [follow] at h ⊢
    obtain ⟨rfl, hn⟩ := Prod.mk.inj (Except.ok.inj h)
    rw [hsame hn hnode]
  | cons part rest ih =>
    unfold follow at h ⊢
    split at h
    · cases h
    · next hdir =>
      rw [hsame hdir fun _ hd ↦ FileNode.noConfusion hd]
      dsimp only
      split at h
      · next hpart => rw [ite_cond_eq_true _ _ (eq_true hpart), ih h]
      · next hpart =>
        rw [ite_cond_eq_false _ _ (eq_false hpart)]
        split at h
        · next hup => rw [ite_cond_eq_true _ _ (eq_true hup), ih h]
        · next hup =>
          rw [ite_cond_eq_false _ _ (eq_false hup)]
          split at h
          · split at h <;> cases h
          · split
            · next hnone => exact absurd hnone (node?_ne_none_of_follow (ih h))
            · exact ih h
    · cases h

theorem resolve_of_put {pipe : FilePath} {queue : Stream} (hp : pipe ≠ []) {place : FilePath}
    {node : FileNode} (hnode : ∀ queue, node ≠ .fifo queue)
    (h : (f.put pipe (.fifo queue)).resolve name = .ok (place, some node)) :
    f.resolve name = .ok (place, some node) := by
  unfold resolve at h ⊢
  split
  · next he =>
    rw [ite_cond_eq_true _ _ (eq_true he)] at h
    cases h
  · next he =>
    rw [ite_cond_eq_false _ _ (eq_false he)] at h
    exact follow_of_put hp hnode h

/-- A name stands for something that is no pipe. -/
def IsTaken (f : Files) (name : String) : Prop :=
  ∃ place node, f.resolve name = .ok (place, some node) ∧ ∀ queue, node ≠ .fifo queue

end Files

namespace Pipe

variable {name device reason : String} {files : Files}

/-- Why a name is refused as an argument. -/
def Unfit (files : Files) (name reason : String) : Prop :=
  Files.isUnaskable name = true ∧ reason = name ∨
    files.IsTaken name ∧ reason = s!"{name} exists and is not a FIFO"

/-- A pipe is there or is made, unless the name is refused or does not lead anywhere. -/
theorem ensureFifo_refused (h : ensureFifo name files = .error (.invalidArgument reason)) :
    Unfit files name reason := by
  unfold ensureFifo at h
  split at h
  · next hu =>
    cases h
    exact .inl ⟨hu, rfl⟩
  · split at h
    · cases h
    · next place node hno hr =>
      cases h
      exact .inr ⟨⟨place, node, hr, fun queue hq ↦ hno queue hq⟩, rfl⟩
    · cases h
    · next e hr =>
      refine absurd (Except.error.inj h) (LinkError.ofErrno_ne_invalidArgument ?_)
      rcases files.code_of_resolve hr with hc | hc <;> rw [hc] <;> decide

/-- A pipe that is made is a new one beside what was there. -/
theorem ensureFifo_ok {path : FilePath} {files' : Files}
    (h : ensureFifo name files = .ok (path, files')) :
    files' = files ∨ path ≠ [] ∧ files' = files.put path (.fifo .empty) := by
  unfold ensureFifo at h
  split at h
  · cases h
  · split at h
    · cases h
      exact .inl rfl
    · cases h
    · next hr =>
      cases h
      exact .inr ⟨files.ne_nil_of_resolve hr nofun, rfl⟩
    · cases h

/-- A second pipe is refused only for what was there before the first was made. -/
theorem Unfit.of_ensureFifo {first : String} {path : FilePath} {files' : Files}
    (hmade : ensureFifo first files = .ok (path, files')) (h : Unfit files' name reason) :
    Unfit files name reason := by
  rcases ensureFifo_ok hmade with rfl | ⟨hp, rfl⟩
  · exact h
  · rcases h with hu | ⟨⟨place, node, hr, hnode⟩, hreason⟩
    · exact .inl hu
    · exact .inr ⟨⟨place, node, Files.resolve_of_put hp hnode hr, hnode⟩, hreason⟩

/-- A pair of pipes is refused for one of its two names. -/
theorem openDevice_refused {δ : Type} {host : Host δ} {rx tx : String}
    (hs : splitDevice device = .ok (rx, tx))
    (h : (openDevice device host).1 = .error (.invalidArgument reason)) :
    ∃ name, (name = rx ∨ name = tx) ∧ Unfit host.files name reason := by
  unfold openDevice at h
  rw [hs] at h
  dsimp only at h
  split at h
  · next hrx =>
    cases h
    exact ⟨rx, .inl rfl, ensureFifo_refused hrx⟩
  · next hrx =>
    split at h
    · next htx =>
      cases h
      exact ⟨tx, .inr rfl, (ensureFifo_refused htx).of_ensureFifo hrx⟩
    · cases h

end Pipe

/-- A listener is refused as an argument only if the system says so of its address. -/
theorem Socket.openDevice_refused {δ : Type} {device reason : String} {host : Host δ}
    (h : openDevice device host = .error (.invalidArgument reason)) :
    host.listen device = .error (.system ⟨22⟩) ∧ reason = Errno.systemText ⟨22⟩ := by
  unfold openDevice at h
  rcases hl : host.listen device with e | ⟨⟩ <;> rw [hl] at h
  · have hcall : LinkError.ofCall e = .invalidArgument reason := Except.error.inj h
    rcases e with e | ⟨category, text⟩
    · by_cases hcode : e.code = 22
      · obtain rfl : e = ⟨22⟩ := congrArg Errno.mk hcode
        cases hcall
        exact ⟨rfl, rfl⟩
      · exact absurd hcall (LinkError.ofErrno_ne_invalidArgument hcode)
    · cases hcall
  · cases h

namespace Hardware

variable {reason : String}

theorem checkVersion_ne_invalidArgument (answer : Except Errno Bytes) :
    checkVersion answer ≠ .error (.invalidArgument reason) := by
  unfold checkVersion
  split
  · split <;> exact nofun
  · exact nofun

/-- An answer that came is never refused as an argument. -/
theorem checkStatus_ne_invalidArgument (bytes : Bytes) :
    checkStatus (.ok bytes) ≠ .error (.invalidArgument reason) := by
  show (if _ then _ else _) ≠ _
  split
  · exact nofun
  · split
    · exact nofun
    · split <;> exact nofun

end Hardware

namespace Link

variable {δ : Type} [Driver δ] {device reason : String} {interface : Interface} {debug : Bool}
  {host : Host δ}

theorem plainRefusal_ne_invalidArgument (content : Bytes) :
    plainRefusal content ≠ .invalidArgument reason := by
  unfold plainRefusal
  dsimp only
  split
  · next e he => exact fun h ↦ Hardware.checkVersion_ne_invalidArgument _ (h ▸ he)
  · split
    · next e he => exact fun h ↦ Hardware.checkStatus_ne_invalidArgument _ (h ▸ he)
    · exact nofun

/-- Behind a device file only the driver refuses an argument. -/
theorem openAdapter_refused (hi : interface ≠ .socket)
    (h : (openAdapter device interface debug host).1 = .error (.invalidArgument reason)) :
    (Hardware.openDriver interface debug host.driver).1 = .error (.invalidArgument reason) := by
  unfold openAdapter at h
  rw [ite_cond_eq_false _ _ (eq_false hi)] at h
  split at h
  · cases h
  · split at h
    · next e he =>
      have hcode : e.code ≠ 22 := by
        rcases Files.code_of_find he with hc | hc <;> rw [hc] <;> decide
      have h := Except.error.inj h
      split at h
      · cases h
      · exact absurd h (LinkError.ofErrno_ne_invalidArgument hcode)
    · cases h
    · exact absurd (Except.error.inj h) (plainRefusal_ne_invalidArgument _)
    · exact absurd (Except.error.inj h) (plainRefusal_ne_invalidArgument _)
    · exact h

end Link

/-! ### Accepted and refused -/

namespace LinkConfig

/-- A link that is refused whatever the host: an adapter with the interface of a listener, or a pair
of pipes of which one is not named. -/
def Misfit (link : LinkConfig) : Prop :=
  link.kind = .hardware ∧ link.interface = .socket ∨
    link.kind = .pipe ∧ Pipe.OneSided link.device

/-- What else is refused as an argument. -/
inductive Refused {δ : Type} [Driver δ] (link : LinkConfig) (host : Host δ) (reason : String) : Prop
  /-- One of two named pipes cannot be one. -/
  | pipe (rx tx name : String) (hkind : link.kind = .pipe)
      (hsplit : Pipe.splitDevice link.device = .ok (rx, tx)) (hname : name = rx ∨ name = tx)
      (hunfit : Pipe.Unfit host.files name reason)
  /-- The system refuses to listen on the address. -/
  | listener (hkind : link.kind = .socket)
      (hlisten : host.listen link.device = .error (.system ⟨22⟩))
      (hreason : reason = Errno.systemText ⟨22⟩)
  /-- The driver refuses. -/
  | driver (hkind : link.kind = .hardware) (hrefused :
      (Hardware.openDriver link.interface false host.driver).1 = .error (.invalidArgument reason))

variable {δ : Type} [Driver δ] {link : LinkConfig}

/-- A misfit is refused before the host is asked for anything. -/
theorem Misfit.openRegular (h : link.Misfit) (host : Host δ) :
    ∃ reason, Link.openRegular link.device link.kind link.interface host =
      (.error (.invalidArgument reason), host) := by
  rcases h with ⟨hk, hi⟩ | ⟨hk, hd⟩
  · rw [hk, hi]
    exact ⟨_, rfl⟩
  · have hcomma : ',' ∈ link.device.toList := by
      obtain ⟨name, hn | ⟨-, hn⟩⟩ := hd <;> rw [hn]
      · exact List.mem_cons_self
      · exact List.mem_append_right _ List.mem_cons_self
    rcases Pipe.splitDevice_cases hcomma with ⟨-, hs⟩ | ⟨hno, -⟩
    · rw [hk]
      unfold Link.openRegular Pipe.openDevice
      rw [hs]
      exact ⟨_, rfl⟩
    · exact absurd hd hno

/-- A valid link that is no misfit is refused only for what the host says of its files, its
addresses or its driver, or for a name that no host can be asked for. -/
theorem refused_of_openRegular (hv : link.validate = .ok ()) (hfit : ¬link.Misfit) {host : Host δ}
    {reason : String}
    (h : (Link.openRegular link.device link.kind link.interface host).1 =
      .error (.invalidArgument reason)) : link.Refused host reason := by
  cases hk : link.kind with
  | hardware =>
    have hi : link.interface ≠ .socket := fun hi ↦ hfit (.inl ⟨hk, hi⟩)
    rw [hk] at h
    dsimp only [Link.openRegular] at h
    have hopen : (Link.openAdapter link.device link.interface false host).1 =
        .error (.invalidArgument reason) := by
      cases ha : (Link.openAdapter link.device link.interface false host).1 with
      | error e =>
        rw [ha] at h
        exact congrArg _ (Except.error.inj h)
      | ok a =>
        rw [ha] at h
        cases h
    exact .driver hk (Link.openAdapter_refused hi hopen)
  | pipe =>
    rcases Pipe.splitDevice_cases (comma_mem_of_validate hv hk) with ⟨hd, -⟩ | ⟨-, rx, tx, hs⟩
    · exact absurd (.inr ⟨hk, hd⟩) hfit
    · rw [hk] at h
      dsimp only [Link.openRegular] at h
      cases ho : (Pipe.openDevice link.device host).1 with
      | error e =>
        rw [ho] at h
        obtain ⟨name, hname, hunfit⟩ :=
          Pipe.openDevice_refused hs (ho.trans (congrArg _ (Except.error.inj h)))
        exact .pipe rx tx name hk hs hname hunfit
      | ok p =>
        rw [ho] at h
        cases h
  | socket =>
    rw [hk] at h
    dsimp only [Link.openRegular] at h
    cases ho : Socket.openDevice link.device host with
    | error e =>
      rw [ho] at h
      obtain ⟨hlisten, hreason⟩ :=
        Socket.openDevice_refused (ho.trans (congrArg _ (Except.error.inj h)))
      exact .listener hk hlisten hreason
    | ok s =>
      rw [ho] at h
      cases h

end LinkConfig

/-- Of an accepted configuration a listener has the interface of one and a ring can have the size.
Yet a pair of pipes may be one-sided, and an adapter may have the interface of a listener: just if
the files say so and the command line says nothing of the kind. Then the link is refused whatever
the host, and else only for what the host says of its files, its addresses or its driver, or for a
name that no host can be asked for. -/
theorem Arguments.openRegular_resolved (a : Arguments) (files : Files) {config : Config}
    (h : a.resolve files = .ok config) :
    let link := config.link
    (link.kind = .socket → link.interface = .socket) ∧
    (link.localBufferSize ≠ 0 → ∃ r, Ring.create link.localBufferSize = .ok r) ∧
    (link.kind = .hardware ∧ link.interface = .socket ↔
      a.kind = none ∧ ∃ c, Config.ofFiles files a.config = .ok c ∧
        c.link.kind = .hardware ∧ c.link.interface = .socket) ∧
    (link.kind = .pipe →
      ((∃ names, Pipe.splitDevice link.device = .ok names) ↔ ¬Pipe.OneSided link.device)) ∧
    ∀ {δ : Type} [Driver δ] (host : Host δ),
      let opened := Link.openRegular link.device link.kind link.interface host
      (link.Misfit → ∃ reason, opened = (.error (.invalidArgument reason), host)) ∧
      (¬link.Misfit → ∀ reason, opened.1 = .error (.invalidArgument reason) →
        link.Refused host reason) := by
  intro link
  obtain ⟨c, hc, hover, hcheck⟩ := resolve_eq_ok_iff.mp h
  obtain ⟨hv, hsocket⟩ := Config.link_of_check hcheck
  refine ⟨hsocket, LinkConfig.create_of_validate hv, ?_, fun hk ↦ ?_, fun host ↦
    ⟨fun hm ↦ hm.openRegular host, fun hfit reason ↦ LinkConfig.refused_of_openRegular hv hfit⟩⟩
  · have hlink : link = a.overrideLink c.link := congrArg Config.link hover.symm
    rw [hlink, overrideLink_adapter_iff]
    constructor
    · exact fun ⟨hkind, hfile⟩ ↦ ⟨hkind, c, hc, hfile⟩
    · rintro ⟨hkind, c', hc', hfile⟩
      rw [hc] at hc'
      cases hc'
      exact ⟨hkind, hfile⟩
  · rcases Pipe.splitDevice_cases (LinkConfig.comma_mem_of_validate hv hk) with
      ⟨hd, hs⟩ | ⟨hd, rx, tx, hs⟩
    · rw [hs]
      exact iff_of_false nofun (not_not_intro hd)
    · exact iff_of_true ⟨(rx, tx), hs⟩ hd

/-- A text is read back from its bytes. -/
theorem fromUTF8?_toByteArray (s : String) :
    String.fromUTF8? ⟨s.toByteArray.data.toList.toArray⟩ = some s := by
  rw [Array.toArray_toList, String.fromUTF8?, dif_pos s.isValidUTF8]
  rfl

/-- What a file says is what its text says. -/
theorem Config.load_of_find {files : Files} {name content : String} {path : FilePath}
    (h : files.find name = .ok (path, .plain content.toByteArray.data.toList)) :
    load files name = parse content := by
  rw [load, h]
  simp only [fromUTF8?_toByteArray]

/-- A file gives an adapter the interface of a listener. It is accepted as it stands, and with a
pair of pipes put in place of the adapter of which the second is not named; no host opens either. -/
theorem Arguments.openRegular_resolved_misfits :
    let content := "[shared]\nservice_name = \"occ\"\n" ++
      "[link]\ndevice = \"d\"\ninterface = \"socket\"\n"
    let files : Files := ⟨[(["f"], .plain content.toByteArray.data.toList)], []⟩
    let adapter : LinkConfig := ⟨"d", .hardware, .socket, LinkConfig.defaultBufferSize, 100⟩
    let pipes : LinkConfig := ⟨"/tmp/rx,", .pipe, .optical, LinkConfig.defaultBufferSize, 100⟩
    let a : Arguments := ⟨some "f", none, none, false, false, false, .status⟩
    let b : Arguments := { a with device := some "/tmp/rx,", kind := some .pipe }
    a.resolve files = .ok ⟨⟨.info, "occ"⟩, adapter, []⟩ ∧
    b.resolve files = .ok ⟨⟨.info, "occ"⟩, pipes, []⟩ ∧
    ∀ host : Host Board,
      (∃ reason, Link.openRegular "d" .hardware .socket host =
        (.error (.invalidArgument reason), host)) ∧
      ∃ reason, Link.openRegular "/tmp/rx," .pipe .optical host =
        (.error (.invalidArgument reason), host) := by
  intro content files adapter pipes a b
  have hfind (node : FileNode) : (⟨[(["f"], node)], []⟩ : Files).find "f" = .ok (["f"], node) := rfl
  have hload : Config.load files "f" = .ok ⟨⟨.info, "occ"⟩, adapter, []⟩ := by
    rw [Config.load_of_find (hfind _)]
    show Config.parse ("[shared]\nservice_name = \"occ\"\n" ++
      "[link]\ndevice = \"d\"\ninterface = \"socket\"\n") =
        .ok ⟨⟨.info, "occ"⟩, ⟨"d", .hardware, .socket, LinkConfig.defaultBufferSize, 100⟩, []⟩
    decide +kernel
  have hadapter : Config.check
      ⟨⟨.info, "occ"⟩, ⟨"d", .hardware, .socket, LinkConfig.defaultBufferSize, 100⟩, []⟩ =
        .ok () := by
    rfl
  have hpipes : Config.check
      ⟨⟨.info, "occ"⟩, ⟨"/tmp/rx,", .pipe, .optical, LinkConfig.defaultBufferSize, 100⟩, []⟩ =
        .ok () := by
    rfl
  have ha : a.resolve files = .ok ⟨⟨.info, "occ"⟩, adapter, []⟩ :=
    resolve_eq_ok_iff.mpr ⟨_, hload, rfl, hadapter⟩
  have hb : b.resolve files = .ok ⟨⟨.info, "occ"⟩, pipes, []⟩ :=
    resolve_eq_ok_iff.mpr ⟨_, hload, rfl, hpipes⟩
  have hsided : Pipe.OneSided "/tmp/rx," := ⟨"/tmp/rx".toList, .inr (by decide)⟩
  obtain ⟨-, -, -, -, hopenA⟩ := openRegular_resolved a files ha
  obtain ⟨-, -, -, -, hopenB⟩ := openRegular_resolved b files hb
  exact ⟨ha, hb, fun host ↦
    ⟨(hopenA host).1 (.inl ⟨rfl, rfl⟩), (hopenB host).1 (.inr ⟨rfl, hsided⟩)⟩⟩

end DetectorLink
