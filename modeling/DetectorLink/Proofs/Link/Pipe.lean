import DetectorLink.Link.Pipe
import DetectorLink.Proofs.Link.Effect

/-!
# Nothing is lost in a pipe

The bytes that a reader of a pipe has not released are in its buffer or still on their way. Waiting
moves them from the way into the buffer, releasing takes them from its start, and what is sent
comes behind them. A wait that answers shows the whole buffer, at least a word of it.
-/

namespace DetectorLink

namespace Stream

/-- What is taken and what is left are the bytes that were there. -/
theorem takeArrived_append (now n : Nat) (chunks : List (Nat × Bytes)) :
    (takeArrived now n chunks).1 ++ (takeArrived now n chunks).2.flatMap Prod.snd =
      chunks.flatMap Prod.snd := by
  fun_induction takeArrived now n chunks with
  | case1 chunks => rfl
  | case2 => rfl
  | case3 => rfl
  | case4 n t data rest hn hnow hle more left hrest ih =>
    rw [hrest] at ih
    show data ++ more ++ left.flatMap Prod.snd = data ++ rest.flatMap Prod.snd
    rw [List.append_assoc, ih]
  | case5 n t data rest hn hnow hle =>
    show data.take n ++ (data.drop n ++ rest.flatMap Prod.snd) = data ++ rest.flatMap Prod.snd
    rw [← List.append_assoc, List.take_append_drop]

/-- What is sent comes last. -/
theorem pending_feed (s : Stream) (now : Nat) (data : Bytes) :
    (s.feed now data).pending = s.pending ++ data := by
  unfold feed
  split
  · next he => rw [List.isEmpty_iff.mp he, List.append_nil]
  · rw [pending, List.flatMap_append, List.flatMap_singleton]
    rfl

end Stream

namespace Intake

/-- The bytes that were not released. -/
def unread (i : Intake) : Bytes := i.buffer ++ i.stream.pending

/-- Bytes may have moved into the buffer, and none were lost. -/
structure Collects (i j : Intake) : Prop where
  buffer : i.buffer <+: j.buffer
  unread : j.unread = i.unread
  inlet : j.inlet = i.inlet

variable {i j k : Intake}

theorem Collects.refl (i : Intake) : Collects i i := ⟨List.prefix_rfl, rfl, rfl⟩

theorem Collects.trans (hi : Collects i j) (hj : Collects j k) : Collects i k :=
  ⟨hi.buffer.trans hj.buffer, hj.unread.trans hi.unread, hj.inlet.trans hi.inlet⟩

theorem Collects.length_le (h : Collects i j) : i.buffer.length ≤ j.buffer.length :=
  h.buffer.length_le

/-- Collecting once brings bytes from the start of those on their way, or tells that it brought
none. Besides, an entry of the schedule is used up, and time may pass. -/
theorem collect_cases (i : Intake) (capacity : Nat) (wait : Option Nat) :
    ∃ reads clock, let j : Intake := { i with stream := { i.stream with reads }, clock }
      (∃ answer, i.collect capacity wait = (answer, j) ∧ answer ≠ .ok true) ∨
      ∃ data chunks, data ≠ [] ∧ data ++ chunks.flatMap Prod.snd = i.stream.pending ∧
        i.collect capacity wait = (.ok true,
          { j with buffer := i.buffer ++ data, stream := { j.stream with chunks } }) := by
  obtain ⟨inlet, buffer, ⟨chunks, closedAt, reads, writes⟩, now⟩ := i
  unfold collect Stream.nextRead
  dsimp only
  generalize ReadFault.next reads = next
  obtain ⟨fault?, rest⟩ := next
  dsimp only
  split
  · next fault =>
    refine ⟨rest, now, .inl ⟨_, rfl, ?_⟩⟩
    split <;> nofun
  · generalize awaitEvent now wait (Stream.nextTime? ⟨chunks, closedAt, rest, writes⟩) = event
    obtain ⟨happened, clock⟩ := event
    refine ⟨rest, clock, ?_⟩
    dsimp only
    split
    · split
      · exact .inl ⟨_, rfl, nofun⟩
      · have hread := Stream.takeArrived_append clock (capacity - buffer.length) chunks
        unfold take Stream.read
        dsimp only
        generalize Stream.takeArrived clock (capacity - buffer.length) chunks = r at hread ⊢
        obtain ⟨data, left⟩ := r
        dsimp only at hread ⊢
        split
        · exact .inl ⟨_, rfl, nofun⟩
        · next hd => exact .inr ⟨data, left, mt List.isEmpty_iff.mpr hd, hread, rfl⟩
    · exact .inl ⟨_, rfl, nofun⟩

/-- Collecting once; if it says so, the buffer has grown. -/
theorem collects_collect (i : Intake) (capacity : Nat) (wait : Option Nat) :
    Collects i (i.collect capacity wait).2 ∧
      ((i.collect capacity wait).1 = .ok true →
        i.buffer.length < (i.collect capacity wait).2.buffer.length) := by
  obtain ⟨reads, clock, ⟨answer, hexec, hne⟩ | ⟨data, chunks, hd, hpending, hexec⟩⟩ :=
    i.collect_cases capacity wait <;> rw [hexec]
  · exact ⟨⟨List.prefix_rfl, rfl, rfl⟩, fun he ↦ absurd he hne⟩
  · refine ⟨⟨List.prefix_append _ _, ?_, rfl⟩, fun _ ↦ ?_⟩
    · show i.buffer ++ data ++ chunks.flatMap Prod.snd = i.buffer ++ i.stream.pending
      rw [List.append_assoc, hpending]
    · rw [List.length_append]
      exact Nat.lt_add_of_pos_right (List.length_pos_iff.mpr hd)

/-- Collecting until a word is there. Every round brings a byte, so enough rounds bring a word. -/
theorem collects_fill (capacity : Nat) (deadline : Option Nat) (rounds : Nat) (i : Intake) :
    Collects i (fill capacity deadline rounds i).2 ∧
      ((fill capacity deadline rounds i).1 = .ok () → alignment ≤ i.buffer.length + rounds →
        alignment ≤ (fill capacity deadline rounds i).2.buffer.length) := by
  induction rounds generalizing i with
  | zero => exact ⟨.refl i, fun _ h ↦ h⟩
  | succ rounds ih =>
    have hc := i.collects_collect capacity (deadline.map (· - i.clock))
    rw [fill]
    generalize i.collect capacity (deadline.map (· - i.clock)) = r at hc ⊢
    obtain ⟨e | _ | _, j⟩ := r
    · exact ⟨hc.1, nofun⟩
    · exact ⟨hc.1, nofun⟩
    · dsimp only at hc ⊢
      split
      · obtain ⟨hj, hword⟩ := ih j
        refine ⟨hc.1.trans hj, fun hok hle ↦ hword hok ?_⟩
        have hlt := hc.2 rfl
        omega
      · next hlen => exact ⟨hc.1, fun _ _ ↦ Nat.le_of_not_lt hlen⟩

theorem collects_topUp (i : Intake) (capacity : Nat) : Collects i (i.topUp capacity).2 := by
  unfold topUp
  split
  · exact (i.collects_collect capacity (some 0)).1
  · exact .refl i

/-- A wait moves bytes into the buffer and shows all of it, at least a word. -/
theorem collects_wait (i : Intake) (capacity : Nat) (deadline : Option Nat) :
    Collects i (i.wait capacity deadline).2 ∧
      ∀ data, (i.wait capacity deadline).1 = .ok data →
        data = (i.wait capacity deadline).2.buffer ∧ alignment ≤ data.length := by
  have hcollect : ∀ r, r = (if i.buffer.length < alignment then i.fill capacity deadline alignment
        else i.topUp capacity) →
      Collects i r.2 ∧ (r.1 = .ok () → alignment ≤ r.2.buffer.length) := by
    rintro r rfl
    split
    · have hf := collects_fill capacity deadline alignment i
      exact ⟨hf.1, fun hok ↦ hf.2 hok (Nat.le_add_left _ _)⟩
    · next hlen =>
      have ht := i.collects_topUp capacity
      exact ⟨ht, fun _ ↦ Nat.le_trans (Nat.le_of_not_lt hlen) ht.length_le⟩
  unfold wait
  generalize (if i.buffer.length < alignment then i.fill capacity deadline alignment
    else i.topUp capacity) = r at hcollect ⊢
  obtain ⟨hj, hword⟩ := hcollect r rfl
  obtain ⟨e | ⟨⟩, j⟩ := r
  · exact ⟨hj, nofun⟩
  · refine ⟨hj, ?_⟩
    rintro data hd
    cases hd
    exact ⟨rfl, hword rfl⟩

end Intake

namespace Files

variable (f : Files)

/-- Leaving out the entries of one key keeps those of another. -/
private theorem lookup_filter_ne {α : Type} {path other : FilePath} (h : other ≠ path)
    (nodes : List (FilePath × α)) :
    (nodes.filter (·.1 != path)).lookup other = nodes.lookup other := by
  induction nodes with
  | nil => rfl
  | cons entry rest ih =>
    obtain ⟨key, node⟩ := entry
    by_cases hkey : key = path
    · rw [List.filter_cons_of_neg (by simpa using hkey), ih, List.lookup_cons,
        beq_eq_false_iff_ne.mpr (hkey ▸ h)]
    · rw [List.filter_cons_of_pos (by simpa using hkey), List.lookup_cons, List.lookup_cons, ih]

theorem node?_put {path : FilePath} (hp : path ≠ []) (node : FileNode) :
    (f.put path node).node? path = some node := by
  have hempty : path.isEmpty = false := List.isEmpty_eq_false_iff.mpr hp
  rw [node?, hempty, put]
  exact List.lookup_cons_self

theorem node?_put_of_ne {path other : FilePath} (h : other ≠ path) (node : FileNode) :
    (f.put path node).node? other = f.node? other := by
  have hlookup : (f.put path node).nodes.lookup other = f.nodes.lookup other := by
    rw [put, List.lookup_cons, beq_eq_false_iff_ne.mpr h]
    exact lookup_filter_ne h f.nodes
  rw [node?, node?, hlookup]

/-- A named pipe holds what was put into it last. -/
theorem queue_setQueue {path : FilePath} (hp : path ≠ []) (q : Stream) :
    (f.setQueue path q).queue path = q := by
  rw [queue, setQueue, node?_put f hp]

/-- Other named pipes stay as they are. -/
theorem queue_setQueue_of_ne {path other : FilePath} (h : other ≠ path) (q : Stream) :
    (f.setQueue path q).queue other = f.queue other := by
  rw [queue, setQueue, node?_put_of_ne f h]
  rfl

/-- What following the parts of a name finds is what is at the place. -/
theorem node?_of_follow {path place : FilePath} {parts : List String} {node : Option FileNode}
    (h : f.follow path parts = .ok (place, node)) : f.node? place = node := by
  induction parts generalizing path with
  | nil =>
    cases h
    rfl
  | cons part rest ih =>
    unfold follow at h
    split at h
    · cases h
    · split at h
      · exact ih h
      · split at h
        · exact ih h
        · split at h
          · next hnone =>
            split at h <;> cases h
            exact hnone
          · exact ih h
    · cases h

/-- A place that is not taken, or is taken by a named pipe, is not the root. -/
theorem ne_nil_of_resolve {name : String} {place : FilePath} {node : Option FileNode}
    (h : f.resolve name = .ok (place, node)) (hnode : node ≠ some .directory) : place ≠ [] := by
  rintro rfl
  unfold resolve at h
  split at h
  · cases h
  · exact hnode (f.node?_of_follow h).symm

end Files

namespace Pipe

variable {δ : Type} (p : Pipe) (host : Host δ)

/-- The bytes that were not released: buffered, or on their way. -/
def unread : Bytes := (p.intake host).unread

variable {p}

/-- A wait moves bytes into the buffer and shows all of it, at least a word. -/
theorem wait_cases (hrx : p.rx ≠ []) (timeout : Option Nat) :
    ∃ answer p' host', (wait timeout).exec (p, host) = (answer, (p', host')) ∧ p'.rx = p.rx ∧
      p.buffer <+: p'.buffer ∧ p'.unread host' = p.unread host ∧
      ∀ data, answer = .ok data → data = p'.buffer ∧ alignment ≤ data.length := by
  by_cases he : p.enabled = true
  · have hc := (p.intake host).collects_wait capacity (timeout.map (host.clock + ·))
    refine ⟨_, _, _, ite_cond_eq_true _ _ (eq_true he), rfl, hc.1.buffer, ?_, hc.2⟩
    refine Eq.trans ?_ hc.1.unread
    show _ ++ Stream.pending ((host.files.setQueue p.rx _).queue p.rx) = _
    rw [Files.queue_setQueue _ hrx]
    rfl
  · exact ⟨_, p, host, ite_cond_eq_false _ _ (eq_false he), rfl, List.prefix_rfl, rfl, nofun⟩

/-- Bytes that are sent come behind those that were not released. -/
theorem unread_feed (hrx : p.rx ≠ []) (path : FilePath) (data : Bytes) :
    p.unread (host.feed path data) = p.unread host ++ if path = p.rx then data else [] := by
  show p.buffer ++ Stream.pending ((host.files.setQueue path _).queue p.rx) = _
  split
  · next hp =>
    subst hp
    rw [Files.queue_setQueue _ hrx, Stream.pending_feed, ← List.append_assoc]
    rfl
  · next hp =>
    rw [Files.queue_setQueue_of_ne _ (Ne.symm hp), List.append_nil]
    rfl

/-- Reads that fail lose nothing. -/
theorem unread_disturb (hrx : p.rx ≠ []) (path : FilePath) (reads : Schedule ReadFault) :
    p.unread (host.disturb path reads) = p.unread host := by
  show p.buffer ++ Stream.pending ((host.files.setQueue path _).queue p.rx) = _
  by_cases hp : path = p.rx
  · subst hp
    rw [Files.queue_setQueue _ hrx]
    rfl
  · rw [Files.queue_setQueue_of_ne _ (Ne.symm hp)]
    rfl

/-- The pipe of an opened pair from which bytes are received has a place below the root. -/
theorem rx_ne_nil_of_openDevice {device : String} {host' : Host δ}
    (ho : openDevice device host = (.ok p, host')) : p.rx ≠ [] := by
  have hfifo : ∀ {name files path files'}, ensureFifo name files = .ok (path, files') →
      path ≠ [] := by
    intro name files path files' hf
    unfold ensureFifo at hf
    split at hf
    · cases hf
    · split at hf
      · next hr =>
        cases hf
        exact files.ne_nil_of_resolve hr nofun
      · cases hf
      · next hr =>
        cases hf
        exact files.ne_nil_of_resolve hr nofun
      · cases hf
  unfold openDevice at ho
  split at ho
  · cases ho
  · split at ho
    · cases ho
    · next hrx =>
      split at ho
      · cases ho
      · cases ho
        exact hfifo hrx

/-- A release takes bytes from the start of the buffer. -/
theorem unread_acknowledge {n : Nat} (hn : n ≤ p.buffer.length) :
    unread { p with buffer := p.buffer.drop n } host = (p.unread host).drop n :=
  (List.drop_append_of_le_length hn).symm

end Pipe

end DetectorLink
