import DetectorLink.Proofs.Dispatch.Copied
import DetectorLink.Proofs.Dispatch.Direct

/-!
# Two ways from a link to its handlers

A dispatcher takes the windows of a link from a direct ring, or from a ring that a copier fills.
Both rings hold back other bytes, release them at other times and cut other windows from them. Over
either, handlers that mark nothing are shown the first packets of the scan of what came, and all of
them once nothing more is taken up and a dispatch releases nothing: the same ones over both.
-/

namespace DetectorLink.Dispatch.Delivery

open Link

variable {δ τ τ₁ τ₂ : Type} [Driver δ]

/-- A dispatcher over a direct ring on a link, after some events. -/
def overDirect (size : Nat) (s : Link × Host δ) (handlers : List (Handler τ)) (own : τ)
    (events : List (Event Arrival)) :
    DispatchStats × Delivery (DirectRing × (Link × Host δ)) τ :=
  run (DirectRing.source Link.source) DirectRing.surroundings handlers
    (.zero, start (.ofSize size, s) own (unread s)) events

/-- A dispatcher over the ring of a copier of a link, after some events. -/
def overCopied (ring : Ring) (poll : Nat) (s : Link × Host δ) (handlers : List (Handler τ))
    (own : τ) (events : List (Event CopiedRing.Turn)) :
    DispatchStats × Delivery (CopiedRing.Feeding δ) τ :=
  run CopiedRing.reader (CopiedRing.surroundings poll) handlers
    (.zero, start (Copying.start s ring) own (unread s)) events

/-- A dispatch over a direct ring releases nothing, and leaves nothing on its way. -/
def RestsDirect (handlers : List (Handler τ))
    (d : DispatchStats × Delivery (DirectRing × (Link × Host δ)) τ) (timeout : Option Nat) : Prop :=
  let source := DirectRing.source Link.source
  let around := DirectRing.surroundings
  released source around handlers d timeout = 0 ∧
    (arriving (dispatch source around handlers d timeout []).2.2.state.2).pending = []

/-- A dispatch over the ring of a copier that runs releases nothing, and the copier has nothing to
take up: the ring is full, or less than a word is ahead of it. -/
def RestsCopied (poll : Nat) (handlers : List (Handler τ))
    (d : DispatchStats × Delivery (CopiedRing.Feeding δ) τ) (timeout : Option Nat) : Prop :=
  released CopiedRing.reader (CopiedRing.surroundings poll) handlers d timeout = 0 ∧
    d.2.state.stopping = false ∧
    (d.2.state.history.ring.isFull = true ∨ (CopiedRing.ahead d.2.state).length < alignment)

/-- Over a direct ring the first packets of the scan are shown, and all of them at rest. -/
theorem overDirect_delivers (size : Nat) {s : Link × Host δ} (h : Connected s)
    {handlers : List (Handler τ)} (hm : ∀ h ∈ handlers, Unmarking h) (own : τ)
    (events : List (Event Arrival)) :
    let d := overDirect size s handlers own events
    d.2.delivered <+: Packet.scan d.2.fed ∧
      ∀ timeout, RestsDirect handlers d timeout → d.2.delivered = Packet.scan d.2.fed := by
  obtain ⟨left, hd⟩ := sound_run DirectRing.shows hm
    (sound_start (DirectRing.facing_ofSize size h) rfl own) .zero events
  refine ⟨hd.delivered_prefix, fun timeout ⟨hz, htaken⟩ ↦ hd.delivered_eq ?_⟩
  obtain ⟨answer, hw, hpartial⟩ := dispatch_of_released_eq_zero DirectRing.shows hm hd hz
  exact hd.holds.scan_unread_eq_nil hw hpartial htaken

/-- Over a copied ring with room for the longest packet the first packets of the scan are shown, and
all of them at rest. -/
theorem overCopied_delivers {size : Nat} {ring : Ring} (hring : Ring.create size = .ok ring)
    (hsize : Packet.maxLength + alignment ≤ size) (poll : Nat) {s : Link × Host δ}
    (h : Connected s) {handlers : List (Handler τ)} (hm : ∀ h ∈ handlers, Unmarking h) (own : τ)
    (events : List (Event CopiedRing.Turn)) :
    let d := overCopied ring poll s handlers own events
    d.2.delivered <+: Packet.scan d.2.fed ∧
      ∀ timeout, RestsCopied poll handlers d timeout → d.2.delivered = Packet.scan d.2.fed := by
  have hshows := CopiedRing.shows (δ := δ) size poll (unread s)
  obtain ⟨left, hd⟩ := sound_run hshows hm
    (sound_start (CopiedRing.facing_start hring h) (CopiedRing.unread_start hring h) own) .zero
    events
  refine ⟨hd.delivered_prefix, fun timeout ⟨hz, hstop, htaken⟩ ↦ hd.delivered_eq ?_⟩
  obtain ⟨answer, hw, hpartial⟩ := dispatch_of_released_eq_zero hshows hm hd hz
  refine hd.holds.scan_unread_eq_nil hstop hsize (fun window hwindow ↦ hpartial window ?_) htaken
  exact (Prod.mk.inj hw).1.symm.trans hwindow

/-- A dispatcher over a direct ring on a connected link, and one over the ring of a copier of such a
link with room for the longest packet, whatever arrives in whatever pieces, whenever they dispatch
and the copier makes its steps, to handlers that mark nothing. What each of them has shown are first
packets of the scan of all bytes that start with what came; and when the same bytes came and both
are at rest, both have shown the same packets, those of the scan. -/
theorem run_delivers_same {size : Nat} {ring : Ring} (hring : Ring.create size = .ok ring)
    (hsize : Packet.maxLength + alignment ≤ size) (capacity poll : Nat) {s₁ s₂ : Link × Host δ}
    (h₁ : Connected s₁) (h₂ : Connected s₂) {handlers₁ : List (Handler τ₁)}
    (hm₁ : ∀ h ∈ handlers₁, Unmarking h) {handlers₂ : List (Handler τ₂)}
    (hm₂ : ∀ h ∈ handlers₂, Unmarking h) (own₁ : τ₁) (own₂ : τ₂)
    (events₁ : List (Event Arrival)) (events₂ : List (Event CopiedRing.Turn)) :
    let direct := overDirect capacity s₁ handlers₁ own₁ events₁
    let copied := overCopied ring poll s₂ handlers₂ own₂ events₂
    (∀ bytes, direct.2.fed <+: bytes → direct.2.delivered <+: Packet.scan bytes) ∧
    (∀ bytes, copied.2.fed <+: bytes → copied.2.delivered <+: Packet.scan bytes) ∧
    ∀ timeout₁ timeout₂, RestsDirect handlers₁ direct timeout₁ →
      RestsCopied poll handlers₂ copied timeout₂ → direct.2.fed = copied.2.fed →
      direct.2.delivered = copied.2.delivered ∧
        copied.2.delivered = Packet.scan copied.2.fed := by
  intro direct copied
  have hscan {came bytes : Bytes} (h : came <+: bytes) :
      Packet.scan came <+: Packet.scan bytes := by
    obtain ⟨more, rfl⟩ := h
    exact Packet.scan_prefix_append came more
  obtain ⟨hdirect, hdirect_all⟩ := overDirect_delivers capacity h₁ hm₁ own₁ events₁
  obtain ⟨hcopied, hcopied_all⟩ := overCopied_delivers hring hsize poll h₂ hm₂ own₂ events₂
  refine ⟨fun _ h ↦ hdirect.trans (hscan h), fun _ h ↦ hcopied.trans (hscan h), ?_⟩
  intro timeout₁ timeout₂ hrests₁ hrests₂ hsame
  have hall₁ : direct.2.delivered = _ := hdirect_all timeout₁ hrests₁
  have hall₂ : copied.2.delivered = _ := hcopied_all timeout₂ hrests₂
  exact ⟨by rw [hall₁, hall₂, hsame], hall₂⟩

/-- An impossible header, a packet behind its first word, and an incomplete one, in other pieces
over either ring: both show the packet. -/
theorem run_delivers_same_in_pieces :
    let bytes : Bytes := List.replicate 12 0 ++ 1 :: List.replicate 33 0
    let link : Link := ⟨.pipe ⟨["r"], ["t"], true, []⟩, false, true⟩
    let host : Host Board := .bare (.fresh 64 [])
    let count : Handler Nat := fun _ ↦ do modify (· + 1); return []
    let direct := overDirect Pipe.capacity (link, host) [count] 0
      [.around (.feed 0 (bytes.take 10)), .dispatch (some 5) [.feed 3 (bytes.drop 10)],
        .around (.elapse 4), .dispatch none [], .dispatch none []]
    let copied := overCopied ⟨.empty 14428, .empty, none⟩ 100 (link, host) [count, count] 0
      [.around (.arrival (.feed 0 (bytes.take 7))), .around .copier, .around .copier,
        .around .copier, .dispatch none [.copier, .arrival (.feed 2 (bytes.drop 7)), .copier],
        .around .copier, .around .copier, .around .copier, .dispatch none [], .dispatch none []]
    direct.2.fed = bytes ∧ copied.2.fed = bytes ∧
      copied.2.delivered = [(bytes.drop 4).take 24] ∧
      direct.2.delivered <+: Packet.scan bytes ∧ copied.2.delivered <+: Packet.scan bytes ∧
      direct.2.delivered = copied.2.delivered := by
  intro bytes link host count direct copied
  have hring : Ring.create 14428 = .ok ⟨.empty 14428, .empty, none⟩ := by rfl
  have hlink : Connected (link, host) :=
    connected_pipe (List.cons_ne_nil _ _) rfl Stream.stays_empty
  have hcount : Unmarking count := fun _ _ ↦ rfl
  have hfed₁ : direct.2.fed = bytes := by decide +kernel
  have hfed₂ : copied.2.fed = bytes := by decide +kernel
  have hrests₁ : RestsDirect [count] direct none := ⟨by decide +kernel, by decide +kernel⟩
  have hrests₂ : RestsCopied 100 [count, count] copied none :=
    ⟨by decide +kernel, by decide +kernel, .inr (by decide +kernel)⟩
  obtain ⟨hdirect, hcopied, hsame⟩ := run_delivers_same hring (by decide) Pipe.capacity 100 hlink
    hlink (List.forall_mem_singleton.mpr hcount)
    (List.forall_mem_cons.mpr ⟨hcount, List.forall_mem_singleton.mpr hcount⟩) 0 0
    [.around (.feed 0 (bytes.take 10)), .dispatch (some 5) [.feed 3 (bytes.drop 10)],
      .around (.elapse 4), .dispatch none [], .dispatch none []]
    [.around (.arrival (.feed 0 (bytes.take 7))), .around .copier, .around .copier,
      .around .copier, .dispatch none [.copier, .arrival (.feed 2 (bytes.drop 7)), .copier],
      .around .copier, .around .copier, .around .copier, .dispatch none [], .dispatch none []]
  have hall {came : Bytes} (h : came = bytes) : came <+: bytes := h ▸ List.prefix_rfl
  have hdelivered : copied.2.delivered = [(bytes.drop 4).take 24] := by decide +kernel
  exact ⟨hfed₁, hfed₂, hdelivered, hdirect bytes (hall hfed₁), hcopied bytes (hall hfed₂),
    (hsame none none hrests₁ hrests₂ (hfed₁.trans hfed₂.symm)).1⟩

end DetectorLink.Dispatch.Delivery
