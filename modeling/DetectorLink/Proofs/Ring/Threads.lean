import DetectorLink.Proofs.Ring.Places

/-!
# A ring between two threads

The producer and the consumer of a ring hold its lock only to look at the offsets and to move them;
bytes are written and read outside the lock, at offsets that were fixed earlier. Their steps may
come in any order, down to single bytes. The places that the producer writes are never among those
that the consumer reads, the room that was reserved is still free when the bytes are published, and
a window stays what was pushed, in order, until it is consumed. The steps of one push and of one
wait, with nothing in between, are the push and the wait of the ring.
-/

namespace DetectorLink.Ring

variable {r : Ring}

/-- Where the producer is. -/
inductive Threads.Producer where
  /-- It pushes nothing. -/
  | idle
  /-- It reserved the places from `offset` on for `data` and wrote the first bytes of it. -/
  | copying (offset : Nat) (data : Bytes) (written : Nat)
  deriving DecidableEq, Repr

/-- Where the consumer is. -/
inductive Threads.Consumer where
  /-- It uses no window. -/
  | idle
  /-- It took a snapshot of the offsets and is about to form a window. -/
  | looking (index : RingIndex)
  /-- It copies both ends of the memory into a buffer of its own. -/
  | gathering (index : RingIndex) (head tail : Nat) (buffer : Bytes)
  /-- Its window is a piece of the memory. -/
  | direct (offset length : Nat)
  /-- Its window is a buffer of its own. -/
  | merged (window : Bytes)
  deriving DecidableEq, Repr

/-- A ring with what went through it, its producer and its consumer. -/
structure Threads where
  /-- The ring and what went through it. -/
  history : History
  /-- Where the producer is. -/
  producer : Threads.Producer
  /-- Where the consumer is. -/
  consumer : Threads.Consumer

namespace Threads

/-- A step of one of the threads. A thread that is not at the step does nothing. -/
inductive Event where
  /-- The producer, under the lock, reserves room for a part of some data. -/
  | reserve (data : Bytes)
  /-- The producer writes the next byte. -/
  | write
  /-- The producer, under the lock, publishes what it wrote. -/
  | publish
  /-- The producer, under the lock, records an error. -/
  | fail (e : LinkError)
  /-- The consumer, under the lock, takes a snapshot of the offsets. -/
  | look
  /-- The consumer decides on its window, or on the pieces to copy. -/
  | form
  /-- The consumer copies the next byte, or ends copying. -/
  | gather
  /-- The consumer, under the lock, consumes bytes. -/
  | consume (n : Nat)
  deriving DecidableEq, Repr

/-- Two threads that do nothing yet. -/
def start (r : Ring) : Threads := ⟨.start r, .idle, .idle⟩

variable (t : Threads)

/-- Reserve room, or record that there is none. -/
def reserve (data : Bytes) : Threads :=
  match t.producer with
  | .idle =>
    if alignDown data.length = 0 then t
    else
      let n := t.history.ring.accepts data.length
      if n = 0 then { t with history := t.history.step (.fail .overflow) }
      else { t with producer := .copying t.history.ring.index.producer (data.take n) 0 }
  | .copying .. => t

/-- Write the next byte. -/
def write : Threads :=
  match t.producer with
  | .idle => t
  | .copying offset data k =>
    match data[k]? with
    | some b =>
      { t with
        history := { t.history with ring := t.history.ring.writeByte offset k b }
        producer := .copying offset data (k + 1) }
    | none => t

/-- Publish what was written, once it is all there. -/
def publish : Threads :=
  match t.producer with
  | .idle => t
  | .copying _ data k =>
    if k = data.length then
      { t with
        history := { t.history with
          ring := t.history.ring.publish data.length
          accepted := t.history.accepted ++ data }
        producer := .idle }
    else t

/-- Take a snapshot of the offsets, unless there is an error or nothing to see. A window that was
still in use is given up. -/
def look : Threads :=
  match t.consumer with
  | .looking _ | .gathering .. => t
  | .idle | .direct .. | .merged _ =>
    if t.history.ring.error.isSome || t.history.ring.isEmpty then { t with consumer := .idle }
    else { t with consumer := .looking t.history.ring.index }

/-- Decide on the window. One of no whole unit is looked for again. -/
def form : Threads :=
  match t.consumer with
  | .looking index =>
    match index.window rolloverLimit with
    | .direct offset length =>
      if alignDown length = 0 then { t with consumer := .idle }
      else { t with consumer := .direct offset (alignDown length) }
    | .rollover head tail => { t with consumer := .gathering index head tail [] }
  | _ => t

/-- Copy the next byte of the two pieces; behind the last one they are a window. -/
def gather : Threads :=
  match t.consumer with
  | .gathering index head tail buffer =>
    if buffer.length < head + tail then
      let next := t.history.ring.storage.read (index.place index.consumer buffer.length) 1
      { t with consumer := .gathering index head tail (buffer ++ next) }
    else if alignDown (head + tail) = 0 then { t with consumer := .idle }
    else { t with consumer := .merged (buffer.take (alignDown (head + tail))) }
  | _ => t

/-- Consume bytes; the window is not used any more. -/
def consume (n : Nat) : Threads :=
  match t.consumer with
  | .looking _ | .gathering .. => t
  | .idle | .direct .. | .merged _ =>
    { t with history := t.history.step (.consume n), consumer := .idle }

/-- Go on with a step of one thread. -/
def step : Event → Threads
  | .reserve data => t.reserve data
  | .write => t.write
  | .publish => t.publish
  | .fail e => { t with history := t.history.step (.fail e) }
  | .look => t.look
  | .form => t.form
  | .gather => t.gather
  | .consume n => t.consume n

/-- Go on with steps in the given order. -/
def run (events : List Event) : Threads := events.foldl step t

/-- The places that the running push writes. -/
def writes : List Nat :=
  match t.producer with
  | .idle => []
  | .copying offset data _ => (List.range data.length).map (t.history.ring.index.place offset)

/-- The places of which the consumer reads, or is about to read. -/
def reads : List Nat :=
  match t.consumer with
  | .looking index => index.spanPlaces (index.window rolloverLimit)
  | .gathering index head tail _ => index.spanPlaces (.rollover head tail)
  | .direct offset length => List.range' offset length
  | .idle | .merged _ => []

/-- What the window in use shows when it is read now. -/
def window? : Option Bytes :=
  match t.consumer with
  | .direct offset length => some (t.history.ring.storage.read offset length)
  | .merged window => some window
  | .idle | .looking _ | .gathering .. => none

/-! ### What holds after every step -/

/-- Offsets that were seen in a ring; meanwhile the producer may have moved on. -/
structure Seen (r : Ring) (i : RingIndex) : Prop where
  offsets : i.WellFormed
  size : i.size = r.index.size
  consumer : i.consumer = r.index.consumer
  used_pos : 0 < i.used
  used_le : i.used ≤ r.used

/-- A running push copies into free places of a ring that held the same before. -/
inductive Pushing (size : Nat) (h : History) : Producer → Prop where
  | idle : Pushing size h .idle
  | copying (base : Ring) {data : Bytes} {k : Nat}
      (hbase : ({ h with ring := base } : History).Sound size)
      (hring : h.ring = base.copyIn (data.take k)) (hfree : data.length ≤ base.index.free)
      (hpos : 0 < data.length) (hmod : data.length % 4 = 0) (hk : k ≤ data.length) :
      Pushing size h (.copying base.index.producer data k)

/-- The consumer uses the first bytes pending. -/
inductive Using (r : Ring) : Consumer → Prop where
  | idle : Using r .idle
  | looking {i : RingIndex} (hi : Seen r i) : Using r (.looking i)
  | gathering {i : RingIndex} {head tail : Nat} {buffer : Bytes} (hi : Seen r i)
      (hw : i.window rolloverLimit = .rollover head tail) (hle : buffer.length ≤ head + tail)
      (hb : buffer <+: r.pending) : Using r (.gathering i head tail buffer)
  | direct {offset n : Nat} (ho : offset = r.index.consumer) (hpos : 0 < n) (hmod : n % 4 = 0)
      (hused : n ≤ r.used) (hend : offset + n ≤ r.index.size) : Using r (.direct offset n)
  | merged {w : Bytes} (hpos : 0 < w.length) (hmod : w.length % 4 = 0) (hw : w <+: r.pending) :
      Using r (.merged w)

/-- The ring is in order, and what is known of the threads holds. -/
structure Sound (size : Nat) (t : Threads) : Prop where
  history : t.history.Sound size
  producer : Pushing size t.history t.producer
  consumer : Using t.history.ring t.consumer

/-- What a consumer uses stays where it is while the producer goes on. -/
theorem Using.mono {r r' : Ring} {c : Consumer} (hu : Using r c)
    (hsize : r'.index.size = r.index.size) (hconsumer : r'.index.consumer = r.index.consumer)
    (hused : r.used ≤ r'.used) (hpending : r.pending <+: r'.pending) : Using r' c := by
  have hseen {i : RingIndex} (hi : Seen r i) : Seen r' i :=
    ⟨hi.offsets, hi.size.trans hsize.symm, hi.consumer.trans hconsumer.symm, hi.used_pos,
      Nat.le_trans hi.used_le hused⟩
  cases hu with
  | idle => exact .idle
  | looking hi => exact .looking (hseen hi)
  | gathering hi hw hle hb => exact .gathering (hseen hi) hw hle (hb.trans hpending)
  | direct ho hpos hmod hn hend =>
    exact .direct (ho.trans hconsumer.symm) hpos hmod (Nat.le_trans hn hused) (hsize.symm ▸ hend)
  | merged hpos hmod hw => exact .merged hpos hmod (hw.trans hpending)

variable {t} {size : Nat}

theorem sound_start (hr : Ring.create size = .ok r) : (start r).Sound size :=
  ⟨History.sound_start hr, .idle, .idle⟩

/-- Copying into free places keeps the history. -/
private theorem sound_copyIn {h : History} {base : Ring}
    (hbase : ({ h with ring := base } : History).Sound size) {data : Bytes}
    (hd : data.length ≤ base.index.free) :
    ({ h with ring := base.copyIn data } : History).Sound size := by
  have hw : base.WellFormed := hbase.ring
  refine ⟨wellFormed_copyIn hw hd, ?_, hbase.consumed_le, ?_⟩
  · exact (size_copyIn base data).trans hbase.size
  · exact (pending_copyIn hw hd).trans hbase.pending

theorem sound_reserve (hs : t.Sound size) (data : Bytes) : (t.reserve data).Sound size := by
  have hw : t.history.ring.WellFormed := hs.history.ring
  unfold reserve
  split
  · next hidle =>
    split
    · exact hs
    · dsimp only
      split
      · refine ⟨History.sound_step hs.history (.fail .overflow), ?_,
          hs.consumer.mono rfl rfl (Nat.le_refl _) List.prefix_rfl⟩
        rw [hidle]
        exact .idle
      · next hn =>
        have hlen : (data.take (t.history.ring.accepts data.length)).length =
            t.history.ring.accepts data.length :=
          List.length_take_of_le
            (Nat.le_trans (Nat.min_le_left _ _) (alignDown_le data.length))
        have hmod := fst_push_mod hw data
        rw [fst_push] at hmod
        refine ⟨hs.history, .copying t.history.ring hs.history ?_ ?_ ?_ ?_
          (Nat.zero_le _), hs.consumer⟩
        · rw [List.take_zero, copyIn_nil hw]
        · rw [hlen]
          exact Nat.min_le_right _ _
        · rw [hlen]
          exact Nat.pos_of_ne_zero hn
        · rw [hlen]
          exact hmod
  · exact hs

/-- What a consumer uses does not depend on what is copied into free places. -/
private theorem using_copyIn (hw : r.WellFormed) {data : Bytes} (hd : data.length ≤ r.index.free)
    {c : Consumer} : Using (r.copyIn data) c ↔ Using r c := by
  have hi : (r.copyIn data).index = r.index := index_copyIn data
  have hu : (r.copyIn data).used = r.used := by rw [used, used, hi]
  have hp : (r.copyIn data).pending = r.pending := pending_copyIn hw hd
  have hstarts {a b : Bytes} (he : a = b) : a <+: b := he ▸ List.prefix_rfl
  constructor <;> intro hc
  · exact hc.mono (by rw [hi]) (by rw [hi]) (Nat.le_of_eq hu) (hstarts hp)
  · exact hc.mono (by rw [hi]) (by rw [hi]) (Nat.le_of_eq hu.symm) (hstarts hp.symm)

theorem sound_write (hs : t.Sound size) : t.write.Sound size := by
  unfold write
  split
  · exact hs
  · next offset data k hp =>
    have hpush := hs.producer
    rw [hp] at hpush
    cases hpush with
    | @copying base _ _ hbase hring hfree hpos hmod hk =>
      have hw : base.WellFormed := hbase.ring
      have hle (m : Nat) : (data.take m).length ≤ base.index.free :=
        Nat.le_trans (List.length_take_le' _ _) hfree
      split
      · next b hb =>
        obtain ⟨hlt, rfl⟩ := List.getElem?_eq_some_iff.mp hb
        have hnext : t.history.ring.writeByte base.index.producer k data[k] =
            base.copyIn (data.take (k + 1)) := by
          rw [hring]
          exact writeByte_copyIn_take hw hlt
        have hc := hs.consumer
        rw [hring, using_copyIn hw (hle k)] at hc
        rw [hnext]
        exact ⟨sound_copyIn hbase (hle _), .copying base hbase rfl hfree hpos hmod hlt,
          (using_copyIn hw (hle _)).mpr hc⟩
      · exact hs

theorem sound_publish (hs : t.Sound size) : t.publish.Sound size := by
  unfold publish
  split
  · exact hs
  · next offset data k hp =>
    split
    · next hend =>
      have hpush := hs.producer
      rw [hp] at hpush
      cases hpush with
      | @copying base _ _ hbase hring hfree hpos hmod hk =>
        have hw : base.WellFormed := hbase.ring
        have hq := pending_publish_copyIn hw hfree hmod
        have hc := hs.consumer
        rw [hend, List.take_length] at hring
        rw [hring, using_copyIn hw hfree] at hc
        rw [hring]
        refine ⟨⟨wellFormed_publish_copyIn hw hfree hmod, hbase.size, ?_, ?_⟩, .idle, ?_⟩
        · rw [List.length_append]
          exact Nat.le_trans hbase.consumed_le (Nat.le_add_right _ _)
        · rw [hq, List.drop_append_of_le_length hbase.consumed_le]
          exact congrArg (· ++ data) hbase.pending
        · refine hc.mono ?_ ?_ ?_ ?_
          · rw [index_publish, index_copyIn, RingIndex.size_produce]
          · rw [index_publish, index_copyIn, RingIndex.consumer_produce]
          · rw [used, used, index_publish, index_copyIn,
              RingIndex.used_produce hw.offsets hfree hmod]
            exact Nat.le_add_right _ _
          · exact hq ▸ List.prefix_append _ _
    · exact hs

theorem sound_fail (hs : t.Sound size) (e : LinkError) : (t.step (.fail e)).Sound size := by
  refine ⟨History.sound_step hs.history (.fail e), ?_,
    hs.consumer.mono rfl rfl (Nat.le_refl _) List.prefix_rfl⟩
  have hpush := hs.producer
  simp only [step]
  generalize t.producer = p at hpush
  cases hpush with
  | idle => exact .idle
  | @copying base data k hbase hring hfree hpos hmod hk =>
    refine .copying (base.setError e) (History.sound_step hbase (.fail e)) ?_ hfree hpos hmod hk
    show t.history.ring.setError e = _
    rw [hring, setError_copyIn]

theorem sound_look (hs : t.Sound size) : t.look.Sound size := by
  have hseen : (if t.history.ring.error.isSome || t.history.ring.isEmpty then
      { t with consumer := .idle } else
      { t with consumer := .looking t.history.ring.index }).Sound size := by
    split
    · exact ⟨hs.history, hs.producer, .idle⟩
    · next hlook =>
      have hi := hs.history.ring.offsets
      have hne : ¬t.history.ring.index.isEmpty = true := by
        intro he
        exact hlook (by rw [Ring.isEmpty, he, Bool.or_true])
      rw [RingIndex.isEmpty_iff hi] at hne
      exact ⟨hs.history, hs.producer,
        .looking ⟨hi, rfl, rfl, Nat.pos_of_ne_zero hne, Nat.le_refl _⟩⟩
  unfold look
  split
  · exact hs
  · exact hs
  · exact hseen
  · exact hseen
  · exact hseen

/-- A window formed from a snapshot, or the pieces to copy for it, are what the consumer may use. -/
private theorem using_of_seen {i : RingIndex} (hi : Seen r i) :
    match i.window rolloverLimit with
    | .direct offset n => alignDown n = n ∧ n ≠ 0 ∧ Using r (.direct offset n)
    | .rollover head tail => Using r (.gathering i head tail []) := by
  have hpos := RingIndex.window_length_pos hi.offsets rolloverLimit hi.used_pos
  have hmod : (i.window rolloverLimit).length % 4 = 0 :=
    RingIndex.window_length_mod hi.offsets (by decide)
  have hle := Nat.le_trans (RingIndex.window_length_le hi.offsets rolloverLimit) hi.used_le
  have hp := hi.offsets.producer_lt
  have hc := hi.offsets.consumer_lt
  have hsize := hi.size
  have hdirect {n : Nat} (hw : i.window rolloverLimit = .direct i.consumer n)
      (hend : i.consumer + n ≤ i.size) :
      alignDown n = n ∧ n ≠ 0 ∧ Using r (.direct i.consumer n) := by
    rw [hw, RingSpan.length] at hpos hmod hle
    exact ⟨alignDown_of_mod_eq_zero hmod, Nat.ne_of_gt hpos,
      .direct hi.consumer hpos hmod hle (hsize ▸ hend)⟩
  rcases RingIndex.window_cases i rolloverLimit with ⟨_, hw⟩ | ⟨_, _, hw⟩ | ⟨_, _, hw⟩
  · have hd := hdirect hw (by omega)
    rw [hw]
    exact hd
  · have hd := hdirect hw (by omega)
    rw [hw]
    exact hd
  · have hg := Using.gathering hi hw (Nat.zero_le _) (List.nil_prefix)
    rw [hw]
    exact hg

theorem sound_form (hs : t.Sound size) : t.form.Sound size := by
  unfold form
  split
  · next i hc =>
    have hlook := hs.consumer
    rw [hc] at hlook
    cases hlook with
    | looking hi =>
      have hu := using_of_seen hi
      split
      · next hw =>
        rw [hw] at hu
        obtain ⟨hn, hne, hd⟩ := hu
        rw [ite_cond_eq_false _ _ (eq_false (hn.symm ▸ hne)), hn]
        exact ⟨hs.history, hs.producer, hd⟩
      · next hw =>
        rw [hw] at hu
        exact ⟨hs.history, hs.producer, hu⟩
  · exact hs

/-- The next byte copied is the next one pending. -/
private theorem read_place (hw : r.WellFormed) {i : RingIndex} (hi : Seen r i) {k : Nat}
    (hk : k < r.pending.length) :
    r.storage.read (i.place i.consumer k) 1 = [r.pending[k]] := by
  have hplace : i.place i.consumer k = r.index.place r.index.consumer k := by
    simp only [RingIndex.place, hi.size, hi.consumer]
  rw [hplace]
  apply Storage.read_one
  rw [← getElem?_pending hw (length_pending hw ▸ hk), List.getElem?_eq_getElem hk]

theorem sound_gather (hs : t.Sound size) : t.gather.Sound size := by
  unfold gather
  split
  · next i head tail buffer hc =>
    have hcopy := hs.consumer
    rw [hc] at hcopy
    cases hcopy with
    | gathering hi hspan hle hb =>
      have hw : t.history.ring.WellFormed := hs.history.ring
      have hlen := RingIndex.window_length_le hi.offsets rolloverLimit
      have hpos := RingIndex.window_length_pos hi.offsets rolloverLimit hi.used_pos
      have hmod : (i.window rolloverLimit).length % 4 = 0 :=
        RingIndex.window_length_mod hi.offsets (by decide)
      rw [hspan, RingSpan.length] at hlen hpos hmod
      split
      · next hlt =>
        have hk : buffer.length < t.history.ring.pending.length := by
          rw [length_pending hw]
          have := hi.used_le
          omega
        have hnext : buffer ++ [t.history.ring.pending[buffer.length]] =
            t.history.ring.pending.take (buffer.length + 1) := by
          rw [← List.take_append_getElem hk, ← List.prefix_iff_eq_take.mp hb]
        rw [read_place hw hi hk]
        refine ⟨hs.history, hs.producer, .gathering hi hspan ?_ (hnext ▸ List.take_prefix _ _)⟩
        rw [List.length_append, List.length_singleton]
        exact hlt
      · next hge =>
        have hall : buffer.length = head + tail := by omega
        rw [alignDown_of_mod_eq_zero hmod,
          ite_cond_eq_false _ _ (eq_false (Nat.ne_of_gt hpos)), ← hall, List.take_length]
        exact ⟨hs.history, hs.producer, .merged (hall ▸ hpos) (hall ▸ hmod) hb⟩
  · exact hs

/-- Consuming during a push leaves the room that was reserved. -/
private theorem pushing_consume {h : History} {p : Producer} (hp : Pushing size h p) (n : Nat) :
    Pushing size (h.step (.consume n)) p := by
  cases hp with
  | idle => exact .idle
  | @copying base data k hbase hring hfree hpos hmod hk =>
    have hw : base.WellFormed := hbase.ring
    have hu : h.ring.used = base.used := by rw [hring, used, used, index_copyIn]
    have hu' : (h.ring.consume n).used = (base.consume n).used := by
      rw [hring, used, used, index_consume, index_consume, used, used, index_copyIn]
    have hbase' := History.sound_step hbase (.consume n)
    refine .copying (base.consume n) ?_ ?_ ?_ hpos hmod hk
    · simpa only [History.step, hu, hu'] using hbase'
    · show h.ring.consume n = _
      rw [hring, consume_copyIn]
    · have hc := used_consume hw n
      simp only [used] at hc
      rw [RingIndex.free_eq hw.offsets] at hfree
      rw [RingIndex.free_eq (wellFormed_consume hw n).offsets, hc]
      show data.length ≤ base.index.size - alignment - _
      omega

theorem sound_consume (hs : t.Sound size) (n : Nat) : (t.consume n).Sound size := by
  have hc : ({ t with history := t.history.step (.consume n), consumer := .idle }).Sound size :=
    ⟨History.sound_step hs.history (.consume n), pushing_consume hs.producer n, .idle⟩
  unfold consume
  split
  · exact hs
  · exact hs
  · exact hc
  · exact hc
  · exact hc

/-- Every step of either thread keeps what is known of them. -/
theorem sound_step (hs : t.Sound size) (event : Event) : (t.step event).Sound size := by
  cases event with
  | reserve data => exact sound_reserve hs data
  | write => exact sound_write hs
  | publish => exact sound_publish hs
  | fail e => exact sound_fail hs e
  | look => exact sound_look hs
  | form => exact sound_form hs
  | gather => exact sound_gather hs
  | consume n => exact sound_consume hs n

/-- Steps in any order keep what is known of the threads. -/
theorem sound_run (hs : t.Sound size) (events : List Event) : (t.run events).Sound size := by
  induction events generalizing t with
  | nil => exact hs
  | cons event rest ih => exact ih (sound_step hs event)

/-! ### What the threads touch and show -/

/-- A running push writes free places behind the producer. -/
theorem Sound.reserved (hs : t.Sound size) {offset k : Nat} {data : Bytes}
    (hp : t.producer = .copying offset data k) :
    offset = t.history.ring.index.producer ∧ data.length ≤ t.history.ring.index.free := by
  have hpush := hs.producer
  rw [hp] at hpush
  cases hpush with
  | copying base hbase hring hfree hpos hmod hk =>
    rw [hring, index_copyIn]
    exact ⟨rfl, hfree⟩

/-- The producer writes free places only. -/
theorem Sound.writes_free (hs : t.Sound size) {p : Nat} (hp : p ∈ t.writes) :
    ∃ k < t.history.ring.index.free,
      p = t.history.ring.index.place t.history.ring.index.producer k := by
  unfold writes at hp
  split at hp
  · exact absurd hp List.not_mem_nil
  · next offset data written hcopy =>
    obtain ⟨rfl, hroom⟩ := hs.reserved hcopy
    obtain ⟨k, hk, rfl⟩ := List.mem_map.mp hp
    exact ⟨k, Nat.lt_of_lt_of_le (List.mem_range.mp hk) hroom, rfl⟩

/-- A write changes none but these places. -/
theorem Sound.getElem?_write (hs : t.Sound size) {j : Nat} (hj : j ∉ t.writes) :
    t.write.history.ring.storage.toList[j]? = t.history.ring.storage.toList[j]? := by
  unfold write
  split
  · rfl
  · next offset data k hcopy =>
    split
    · next b hb =>
      obtain ⟨hk, rfl⟩ := List.getElem?_eq_some_iff.mp hb
      have hpush := hs.producer
      rw [hcopy] at hpush
      have hne : j ≠ t.history.ring.index.place offset k := by
        rintro rfl
        simp only [writes, hcopy] at hj
        exact hj (List.mem_map_of_mem (List.mem_range.mpr hk))
      cases hpush with
      | @copying base _ _ hbase hring hfree hpos hmod hk' =>
        have hw : base.WellFormed := hbase.ring
        have htake : (data.take k).length = k := List.length_take_of_le hk'
        have hlen := length_copyIn hw (data.take k) (by omega)
        have hplt := hw.offsets.producer_lt
        have hroom := RingIndex.free_eq hw.offsets
        refine getElem?_writeByte_of_ne ?_ hne
        rw [hring, index_copyIn, hlen, htake, RingIndex.place]
        split <;> omega
    · rfl

/-- The consumer reads used places only. -/
theorem Sound.reads_used (hs : t.Sound size) {p : Nat} (hp : p ∈ t.reads) :
    ∃ k < t.history.ring.index.used,
      p = t.history.ring.index.place t.history.ring.index.consumer k := by
  have hc := hs.consumer
  have hspan {i : RingIndex} (hi : Seen t.history.ring i)
      (hmem : p ∈ i.spanPlaces (i.window rolloverLimit)) :
      ∃ k < t.history.ring.index.used,
        p = t.history.ring.index.place t.history.ring.index.consumer k := by
    have hle := RingIndex.window_length_le hi.offsets rolloverLimit
    have hused : i.used ≤ t.history.ring.index.used := hi.used_le
    rw [RingIndex.spanPlaces_window hi.offsets, List.mem_map] at hmem
    obtain ⟨k, hk, rfl⟩ := hmem
    rw [List.mem_range] at hk
    refine ⟨k, by omega, ?_⟩
    simp only [RingIndex.place, hi.size, hi.consumer]
  unfold reads at hp
  generalize t.consumer = c at hc hp
  cases hc with
  | idle => exact absurd hp List.not_mem_nil
  | looking hi => exact hspan hi hp
  | gathering hi hspan' hle hb => exact hspan hi (hspan' ▸ hp)
  | direct ho hpos hmod hn hend =>
    obtain ⟨hlow, hhigh⟩ := List.mem_range'_1.mp hp
    simp only [used] at hn
    refine ⟨p - t.history.ring.index.consumer, by omega, ?_⟩
    rw [RingIndex.place, ite_cond_eq_true _ _ (eq_true (by omega))]
    omega
  | merged hpos hmod hw => exact absurd hp List.not_mem_nil

/-- What is shown now are the first bytes pending. -/
theorem Sound.shown (hs : t.Sound size) {w : Bytes} (hw : t.window? = some w) :
    0 < w.length ∧ w.length % 4 = 0 ∧ w <+: t.history.ring.pending := by
  have hr : t.history.ring.WellFormed := hs.history.ring
  have hc := hs.consumer
  unfold window? at hw
  generalize t.consumer = c at hc hw
  cases hc with
  | idle => nomatch hw
  | looking hi => nomatch hw
  | gathering hi hspan hle hb => nomatch hw
  | @direct offset n ho hpos hmod hn hend =>
    obtain rfl := Option.some.inj hw
    rw [ho] at hend ⊢
    have hlen : (t.history.ring.pending.take n).length = n :=
      List.length_take_of_le (by rw [length_pending hr]; exact hn)
    rw [read_consumer hr hn hend, hlen]
    exact ⟨hpos, hmod, List.take_prefix _ _⟩
  | merged hpos hmod hprefix =>
    obtain rfl := Option.some.inj hw
    exact ⟨hpos, hmod, hprefix⟩

/-! ### Steps with nothing in between -/

/-- Pushing whole units that fit publishes all of them. -/
private theorem push_of_fits {data : Bytes} (hd : data.length ≤ r.index.free)
    (hpos : 0 < data.length) (hmod : data.length % 4 = 0) :
    r.push data = (data.length, (r.copyIn data).publish data.length) := by
  have ha : r.accepts data.length = data.length := by
    rw [accepts, alignDown_of_mod_eq_zero hmod, Nat.min_eq_left hd]
  have hne : data.length ≠ 0 := Nat.ne_of_gt hpos
  rw [push, alignDown_of_mod_eq_zero hmod, ite_cond_eq_false _ _ (eq_false hne)]
  simp only [ha, hne, List.take_length, ite_false]

theorem run_append (t : Threads) (a b : List Event) : t.run (a ++ b) = (t.run a).run b :=
  List.foldl_append

/-- Writing goes on byte by byte. -/
private theorem run_writes (hw : t.history.ring.WellFormed) {data : Bytes}
    (hp : t.producer = .copying t.history.ring.index.producer data 0) {k : Nat}
    (hk : k ≤ data.length) :
    t.run (List.replicate k .write) =
      { t with
        history := { t.history with ring := t.history.ring.copyIn (data.take k) }
        producer := .copying t.history.ring.index.producer data k } := by
  induction k with
  | zero =>
    rw [List.take_zero, copyIn_nil hw, ← hp]
    rfl
  | succ k ih =>
    rw [List.replicate_succ', run_append, ih (Nat.le_of_succ_le hk)]
    simp only [run, List.foldl_cons, List.foldl_nil, step, write,
      List.getElem?_eq_getElem (Nat.lt_of_succ_le hk)]
    rw [writeByte_copyIn_take hw (Nat.lt_of_succ_le hk)]

/-- The steps of a push, with nothing in between, are the push of the ring. -/
theorem run_push (hw : t.history.ring.WellFormed) (hp : t.producer = .idle) (data : Bytes) :
    t.run (.reserve data ::
        (List.replicate (t.history.ring.push data).1 .write ++ [.publish])) =
      { t with history := t.history.step (.push data) } := by
  obtain ⟨h, p, c⟩ := t
  obtain rfl : p = .idle := hp
  show run (reserve ⟨h, .idle, c⟩ data) _ = _
  rcases push_cases h.ring data with ⟨hd, hq⟩ | ⟨hd, hf, hq⟩ | ⟨hn, hq⟩
  · simp only [reserve, hd, hq, History.step, List.take_zero, List.append_nil]
    rfl
  · have hn : h.ring.accepts data.length = 0 := by rw [accepts, hf, Nat.min_zero]
    simp only [reserve, hd, hn, hq, History.step, List.take_zero, List.append_nil]
    rfl
  · have hd : alignDown data.length ≠ 0 := by
      simp only [accepts] at hn
      omega
    have hlen : (data.take (h.ring.accepts data.length)).length = h.ring.accepts data.length :=
      List.length_take_of_le (Nat.le_trans (Nat.min_le_left _ _) (alignDown_le data.length))
    simp only [reserve, hd, hn, hq, History.step, ite_false]
    have hwritten := run_writes
      (t := ⟨h, .copying h.ring.index.producer (data.take (h.ring.accepts data.length)) 0, c⟩)
      hw rfl (Nat.le_of_eq hlen.symm)
    rw [run_append, hwritten]
    simp only [run, List.foldl_cons, List.foldl_nil, step, publish, hlen, ite_true,
      List.take_take, Nat.min_self]

/-- The copy grows by what is pending. -/
private theorem run_gathers (hw : t.history.ring.WellFormed) {i : RingIndex} {head tail : Nat}
    (hi : Seen t.history.ring i) (hc : t.consumer = .gathering i head tail [])
    (hused : head + tail ≤ t.history.ring.used) {k : Nat} (hk : k ≤ head + tail) :
    t.run (List.replicate k .gather) =
      { t with consumer := .gathering i head tail (t.history.ring.pending.take k) } := by
  have hlen := length_pending hw
  induction k with
  | zero =>
    rw [List.take_zero, ← hc]
    rfl
  | succ k ih =>
    have hlt : k < t.history.ring.pending.length := by omega
    have htake : (t.history.ring.pending.take k).length = k :=
      List.length_take_of_le (Nat.le_of_lt hlt)
    rw [List.replicate_succ', run_append, ih (Nat.le_of_succ_le hk)]
    simp only [run, List.foldl_cons, List.foldl_nil, step, gather, htake]
    rw [ite_cond_eq_true _ _ (eq_true (Nat.lt_of_succ_le hk)), read_place hw hi hlt,
      List.take_append_getElem hlt]

/-- The steps of a wait, with nothing in between, show the window of the ring and change nothing
else. -/
theorem run_wait (hw : t.history.ring.WellFormed) (hc : t.consumer = .idle)
    (he : t.history.ring.error = none) (hu : 0 < t.history.ring.used) :
    ∃ copied, let shown := t.run (.look :: .form :: List.replicate copied .gather)
      shown.history = t.history ∧ shown.producer = t.producer ∧
        shown.window? = some t.history.ring.window := by
  obtain ⟨h, p, c⟩ := t
  obtain rfl : c = .idle := hc
  have hi : Seen h.ring h.ring.index := ⟨hw.offsets, rfl, rfl, hu, Nat.le_refl _⟩
  have hne : h.ring.isEmpty = false :=
    Bool.eq_false_iff.mpr fun he ↦
      Nat.ne_of_gt hu ((RingIndex.isEmpty_iff hw.offsets).mp he)
  have hlook : look ⟨h, p, .idle⟩ = ⟨h, p, .looking h.ring.index⟩ := by
    have he' : h.ring.error = none := he
    simp only [look, he', hne, Option.isSome_none, Bool.or_self, Bool.false_eq_true, ite_false]
  have hrun (copied : Nat) :
      run ⟨h, p, .idle⟩ (.look :: .form :: List.replicate copied .gather) =
        (form ⟨h, p, .looking h.ring.index⟩).run (List.replicate copied .gather) := by
    rw [← hlook]
    rfl
  have hshown := window_eq hw
  have hused := RingIndex.window_length_le hw.offsets rolloverLimit
  have hpos := RingIndex.window_length_pos hw.offsets rolloverLimit hu
  have hmod : (h.ring.index.window rolloverLimit).length % 4 = 0 :=
    RingIndex.window_length_mod hw.offsets (by decide)
  have hform := using_of_seen hi
  cases hspan : h.ring.index.window rolloverLimit with
  | direct offset n =>
    rw [hspan] at hform hshown hused
    obtain ⟨hn, hne, hd⟩ := hform
    have hdirect : form ⟨h, p, .looking h.ring.index⟩ = ⟨h, p, .direct offset n⟩ := by
      simp only [form, hspan, hn, hne, ite_false]
    refine ⟨0, ?_⟩
    rw [hrun, hdirect]
    refine ⟨rfl, rfl, ?_⟩
    cases hd with
    | direct ho hpos hmod hn' hend =>
      obtain rfl := ho
      rw [hshown]
      exact congrArg some (read_consumer hw hn' hend)
  | rollover head tail =>
    rw [hspan] at hshown hused hpos hmod
    have hgather : form ⟨h, p, .looking h.ring.index⟩ =
        ⟨h, p, .gathering h.ring.index head tail []⟩ := by
      simp only [form, hspan]
    have hcopied := run_gathers (t := ⟨h, p, .gathering h.ring.index head tail []⟩)
      hw hi rfl hused (Nat.le_refl _)
    have hlen : (h.ring.pending.take (head + tail)).length = head + tail :=
      List.length_take_of_le (length_pending hw ▸ hused)
    refine ⟨head + tail + 1, ?_⟩
    rw [hrun, hgather, List.replicate_succ', run_append, hcopied]
    simp only [run, List.foldl_cons, List.foldl_nil, step, gather, hlen, Nat.lt_irrefl, ite_false]
    rw [RingSpan.length] at hmod hpos
    rw [alignDown_of_mod_eq_zero hmod, ite_cond_eq_false _ _ (eq_false (Nat.ne_of_gt hpos)),
      List.take_take, Nat.min_self]
    exact ⟨rfl, rfl, congrArg some hshown.symm⟩

/-! ### One history for all orders -/

@[simp] theorem history_look (t : Threads) : t.look.history = t.history := by
  unfold look
  split
  · rfl
  · rfl
  all_goals split <;> rfl

@[simp] theorem history_form (t : Threads) : t.form.history = t.history := by
  unfold form
  split
  · split
    · split <;> rfl
    · rfl
  · rfl

@[simp] theorem history_gather (t : Threads) : t.gather.history = t.history := by
  unfold gather
  split
  · split
    · rfl
    · split <;> rfl
  · rfl

/-- Reserving changes nothing but the error. -/
theorem history_reserve (t : Threads) (data : Bytes) :
    (t.reserve data).history = t.history ∨
      (t.reserve data).history = t.history.step (.fail .overflow) := by
  unfold reserve
  split
  · split
    · exact .inl rfl
    · dsimp only
      split
      · exact .inr rfl
      · exact .inl rfl
  · exact .inl rfl

/-- A consumer that forms a window consumes nothing. -/
theorem history_consume (t : Threads) (n : Nat) :
    (t.consume n).history = t.history ∨ (t.consume n).history = t.history.step (.consume n) := by
  unfold consume
  split
  · exact .inl rfl
  · exact .inl rfl
  all_goals exact .inr rfl

/-- Histories of rings that agree in everything but the bytes written last. -/
structure Alike (h h' : History) : Prop where
  index : h.ring.index = h'.ring.index
  error : h.ring.error = h'.ring.error
  accepted : h.accepted = h'.accepted
  consumed : h.consumed = h'.consumed

section Alike

variable {h h' : History}

theorem Alike.fail (ha : Alike h h') (e : LinkError) :
    Alike (h.step (.fail e)) (h'.step (.fail e)) :=
  ⟨ha.index, congrArg (Option.orElse · fun _ ↦ some e) ha.error, ha.accepted, ha.consumed⟩

theorem Alike.consume (ha : Alike h h') (n : Nat) :
    Alike (h.step (.consume n)) (h'.step (.consume n)) := by
  have hindex : (h.ring.consume n).index = (h'.ring.consume n).index := by
    rw [index_consume, index_consume, used, used, ha.index]
  refine ⟨hindex, ha.error, ha.accepted, ?_⟩
  simp only [History.step, used]
  rw [hindex, ha.index, ha.consumed]

/-- Publishing what a push has copied is the push of just that. -/
theorem Sound.alike_publish (hs : t.Sound size) (ha : Alike t.history h) :
    ∃ actions, Alike t.publish.history (h.run actions) := by
  unfold publish
  split
  · exact ⟨[], ha⟩
  · next offset data k hp =>
    split
    · have hpush := hs.producer
      rw [hp] at hpush
      cases hpush with
      | @copying base _ _ hbase hring hfree hpos hmod hk =>
        have hindex : base.index = h.ring.index := by
          rw [← ha.index, hring, index_copyIn]
        have hpushed := push_of_fits (hindex ▸ hfree) hpos hmod
        refine ⟨[.push data], ?_⟩
        simp only [History.run, List.foldl_cons, List.foldl_nil, History.step, hpushed,
          List.take_length]
        refine ⟨?_, ?_, congrArg (· ++ data) ha.accepted, ha.consumed⟩
        · rw [index_publish, index_publish, index_copyIn, ha.index]
        · simp only [Ring.publish, error_copyIn, ha.error]
    · exact ⟨[], ha⟩

/-- A step under the lock is an action of the ring or none, every other step is none. -/
theorem Sound.alike_step (hs : t.Sound size) (ha : Alike t.history h) (event : Event) :
    ∃ actions, Alike (t.step event).history (h.run actions) := by
  cases event with
  | reserve data =>
    rcases history_reserve t data with he | he
    · exact ⟨[], he ▸ ha⟩
    · exact ⟨[.fail .overflow], he ▸ ha.fail .overflow⟩
  | write =>
    refine ⟨[], ?_⟩
    simp only [step]
    unfold write
    split
    · exact ha
    · split
      · exact ⟨ha.index, ha.error, ha.accepted, ha.consumed⟩
      · exact ha
  | publish => exact hs.alike_publish ha
  | fail e => exact ⟨[.fail e], ha.fail e⟩
  | look => exact ⟨[], (history_look t).symm ▸ ha⟩
  | form => exact ⟨[], (history_form t).symm ▸ ha⟩
  | gather => exact ⟨[], (history_gather t).symm ▸ ha⟩
  | consume n =>
    rcases history_consume t n with he | he
    · exact ⟨[], he ▸ ha⟩
    · exact ⟨[.consume n], he ▸ ha.consume n⟩

/-- Steps in any order are actions of the ring in some order. -/
theorem Sound.alike_run (hs : t.Sound size) (ha : Alike t.history h) (events : List Event) :
    ∃ actions, Alike (t.run events).history (h.run actions) := by
  induction events generalizing t h with
  | nil => exact ⟨[], ha⟩
  | cons event rest ih =>
    obtain ⟨first, hfirst⟩ := hs.alike_step ha event
    obtain ⟨later, hlater⟩ := ih (sound_step hs event) hfirst
    refine ⟨first ++ later, ?_⟩
    rw [History.run, List.foldl_append]
    exact hlater

end Alike

/-- A producer and a consumer of a ring of any size it can be made with, after steps of theirs in
any order: what a running push writes lies in the ring and is nothing that the consumer reads; the
room that was reserved is free; a window shows, whenever it is read, the accepted bytes that come
next; and what was accepted and consumed, with the offsets and the error, is what some pushes,
consumes and recorded errors of the ring lead to, one after the other. -/
theorem run_keeps_apart {size : Nat} {r : Ring} (hr : Ring.create size = .ok r)
    (events : List Event) :
    let t := (start r).run events
    (∀ p ∈ t.writes, p < size ∧ p ∉ t.reads) ∧
    (∀ p ∈ t.reads, p < size) ∧
    (∀ offset data written, t.producer = .copying offset data written →
      offset = t.history.ring.index.producer ∧ data.length ≤ t.history.ring.index.free) ∧
    (∀ window, t.window? = some window →
      0 < window.length ∧ window.length % alignment = 0 ∧
        t.history.consumed + window.length ≤ t.history.accepted.length ∧
        window = (t.history.accepted.drop t.history.consumed).take window.length) ∧
    ∃ actions, Alike t.history ((History.start r).run actions) := by
  intro t
  have hs : t.Sound size := sound_run (sound_start hr) events
  have hi := hs.history.ring.offsets
  have hz : t.history.ring.index.size = size := hs.history.size
  have hused := RingIndex.used_le hi
  have hfree := RingIndex.free_eq hi
  have hinside {offset k : Nat} (ho : offset < t.history.ring.index.size)
      (hk : k ≤ t.history.ring.index.size) : t.history.ring.index.place offset k < size :=
    hz ▸ RingIndex.place_lt ho hk
  refine ⟨?_, ?_, fun _ _ _ hcopy ↦ hs.reserved hcopy, ?_,
    (sound_start hr).alike_run ⟨rfl, rfl, rfl, rfl⟩ events⟩
  · intro p hp
    obtain ⟨k, hk, rfl⟩ := hs.writes_free hp
    refine ⟨hinside hi.producer_lt (by omega), fun hread ↦ ?_⟩
    obtain ⟨j, hj, he⟩ := hs.reads_used hread
    exact RingIndex.place_consumer_ne_place_producer hi hj hk he.symm
  · intro p hp
    obtain ⟨j, hj, rfl⟩ := hs.reads_used hp
    exact hinside hi.consumer_lt (by omega)
  · intro window hw
    obtain ⟨hpos, hmod, hprefix⟩ := hs.shown hw
    have hlen := hprefix.length_le
    have hle := hs.history.consumed_le
    rw [hs.history.pending] at hprefix hlen
    rw [List.length_drop] at hlen
    exact ⟨hpos, hmod, by omega, List.prefix_iff_eq_take.mp hprefix⟩

/-- In a ring of twenty the consumer copies a window of twelve bytes around the end while four
bytes are pushed behind it. -/
theorem run_keeps_apart_across_end :
    let r : Ring := ⟨.empty 20, .empty, none⟩
    let first : Bytes := [1, 2, 3, 4, 5, 6, 7, 8, 9, 10, 11, 12, 13, 14, 15, 16]
    let second : Bytes := [17, 18, 19, 20, 21, 22, 23, 24]
    let t := (start r).run
      ([.reserve first] ++ List.replicate 16 .write ++ [.publish, .consume 12, .reserve second] ++
        List.replicate 8 .write ++ [.publish, .look, .form, .gather, .gather,
          .reserve [25, 26, 27, 28, 29], .write, .gather])
    Ring.create 20 = .ok r ∧ t.writes = [4, 5, 6, 7] ∧
      t.reads = [12, 13, 14, 15, 16, 17, 18, 19, 0, 1, 2, 3] ∧ ∀ p ∈ t.writes, p ∉ t.reads := by
  have hr : Ring.create 20 = .ok ⟨.empty 20, .empty, none⟩ := by rfl
  refine ⟨hr, by decide +kernel, by decide +kernel, ?_⟩
  exact fun p hp ↦ ((run_keeps_apart hr _).1 p hp).2

end DetectorLink.Ring.Threads
