import DetectorLink.Proofs.Ring.Queue
import DetectorLink.Ring.Copier

/-!
# A copier, step by step

A round of a copier is not done at once: it looks whether the ring has room, waits for a window,
pushes it, and releases what was accepted. Between any two of these the reader of the ring may
consume, the copier may be told to stop, and the world around the source goes on. A copier of which
nothing comes in between does what its rounds say. Whatever comes in between, the ring has accepted
what was released, in order, and perhaps the one piece whose release is due or failed.
-/

namespace DetectorLink

/-- Moving a window of some bytes. -/
theorem Copier.move_of_ne_nil {σ : Type} (source : Source σ) {data : Bytes} (hd : data ≠ [])
    (ring : Ring) (s : σ) :
    move source data ring s =
      if (ring.push data).1 = 0 then (.ended, finish (ring.push data).2 none, s)
      else match (source.release (ring.push data).1).exec s with
        | (.error e, s) => (.ended, finish (ring.push data).2 (some e), s)
        | (.ok (), s) => (.moved, (ring.push data).2, s) :=
  ite_cond_eq_false _ _ (eq_false (mt List.isEmpty_iff.mp hd))

/-- What a copier asked of its source, and what happened around the source meanwhile. -/
inductive Copying.Entry (σ ω : Type) where
  /-- A wait was answered, and left the source in a state. -/
  | waited (answer : Except LinkError Bytes) (after : σ)
  /-- Bytes were released, or could not be. -/
  | released (n : Nat) (outcome : Except LinkError Unit)
  /-- Something happened. -/
  | happened (what : ω)

/-- Where a copier is in its round. -/
inductive Copying.Place where
  /-- It looks whether it has to stop and whether the ring has room. -/
  | looking
  /-- It waits for a window. -/
  | waiting
  /-- It pushes a window. -/
  | holding (data : Bytes)
  /-- It releases what was accepted. -/
  | releasing (n : Nat)
  /-- It ended. -/
  | ended
  deriving DecidableEq, Repr

/-- A copier between a source and a ring. -/
structure Copying (σ ω : Type) where
  /-- State of the source. -/
  state : σ
  /-- The ring with what went through it. -/
  history : Ring.History
  /-- Where the copier is. -/
  place : Copying.Place
  /-- It was told to stop. -/
  stopping : Bool
  /-- What went on at the source. -/
  log : List (Copying.Entry σ ω)

namespace Copying

variable {σ ω : Type}

/-! ### What a log says -/

/-- What was released and what is left of the last window, after one more entry. -/
def Entry.tally (t : Bytes × Bytes) : Entry σ ω → Bytes × Bytes
  | .waited (.ok window) _ => (t.1, window)
  | .released n (.ok ()) => (t.1 ++ t.2.take n, t.2.drop n)
  | _ => t

/-- The bytes that were released, as the windows showed them. -/
def acknowledged (log : List (Entry σ ω)) : Bytes := (log.foldl Entry.tally ([], [])).1

/-- What is left of the last window. -/
def shown (log : List (Entry σ ω)) : Bytes := (log.foldl Entry.tally ([], [])).2

/-- The error that an entry reports. -/
def Entry.error? : Entry σ ω → Option LinkError
  | .waited (.error e) _ | .released _ (.error e) => some e
  | _ => none

/-- The error of an entry that ends a copier. A wait that times out does not. -/
def Entry.fatal? : Entry σ ω → Option LinkError
  | .waited (.error .timeout) _ => none
  | entry => entry.error?

/-- The first error that ends a copier. -/
def fatal? (log : List (Entry σ ω)) : Option LinkError := log.findSome? Entry.fatal?

variable (log : List (Entry σ ω))

theorem acknowledged_concat (entry : Entry σ ω) :
    acknowledged (log ++ [entry]) = (entry.tally (acknowledged log, shown log)).1 := by
  rw [acknowledged, List.foldl_append]
  rfl

theorem shown_concat (entry : Entry σ ω) :
    shown (log ++ [entry]) = (entry.tally (acknowledged log, shown log)).2 := by
  rw [shown, List.foldl_append]
  rfl

theorem fatal?_concat (entry : Entry σ ω) :
    fatal? (log ++ [entry]) = (fatal? log).or entry.fatal? := by
  rw [fatal?, List.findSome?_append, List.findSome?_singleton]
  rfl

theorem fatal?_waited_error {e : LinkError} (he : e ≠ .timeout) (s : σ) :
    (Entry.waited (.error e) s : Entry σ ω).fatal? = some e := by
  unfold Entry.fatal?
  split
  · next h => exact absurd (Except.error.inj (Entry.waited.inj h).1) he
  · rfl

/-! ### Steps -/

/-- What can come next. -/
inductive Event (ω : Type) where
  /-- The copier makes a step. -/
  | copier
  /-- The reader of the ring consumes bytes. -/
  | consume (n : Nat)
  /-- The copier is told to stop. -/
  | stop
  /-- Something happens around the source. -/
  | outside (what : ω)

/-- A copier that begins. -/
def start (s : σ) (ring : Ring) : Copying σ ω := ⟨s, .start ring, .looking, false, []⟩

/-- Something goes on at the source and leaves it in a state. -/
def note (c : Copying σ ω) (entry : Entry σ ω) (s : σ) : Copying σ ω :=
  { c with state := s, log := c.log ++ [entry] }

/-- End, recording why. -/
def finish (c : Copying σ ω) (cause : Option LinkError) : Copying σ ω :=
  { c with
    history := { c.history with ring := Copier.finish c.history.ring cause }
    place := .ended }

variable (source : Source σ) (outside : ω → σ → σ) (poll : Nat) (c : Copying σ ω)

/-- Look whether to stop and whether the ring has room. -/
def look (c : Copying σ ω) : Copying σ ω :=
  if c.stopping then c.finish none
  else if c.history.ring.isFull then c
  else { c with place := .waiting }

/-- Take the answer to a wait. -/
def take (c : Copying σ ω) : Except LinkError Bytes → Copying σ ω
  | .ok data => { c with place := .holding data }
  | .error .timeout => { c with place := .looking }
  | .error e => c.finish (some e)

/-- Push a window. -/
def push (c : Copying σ ω) (data : Bytes) : Copying σ ω :=
  if data.isEmpty then { c with place := .looking }
  else
    let accepted := (c.history.ring.push data).1
    let c := { c with history := c.history.step (.push data) }
    if accepted = 0 then c.finish none else { c with place := .releasing accepted }

/-- Take the outcome of a release. -/
def conclude (c : Copying σ ω) : Except LinkError Unit → Copying σ ω
  | .ok () => { c with place := .looking }
  | .error e => c.finish (some e)

/-- The next step of the copier. -/
def advance : Copying σ ω :=
  match c.place with
  | .looking => c.look
  | .waiting =>
    let (answer, s) := (source.wait (some poll)).exec c.state
    (c.note (.waited answer s) s).take answer
  | .holding data => c.push data
  | .releasing n =>
    let (outcome, s) := (source.release n).exec c.state
    (c.note (.released n outcome) s).conclude outcome
  | .ended => c

/-- Go on with an event. -/
def step : Event ω → Copying σ ω
  | .copier => c.advance source poll
  | .consume n => { c with history := c.history.step (.consume n) }
  | .stop => { c with stopping := true }
  | .outside what => c.note (.happened what) (outside what c.state)

/-- Go on with events, one after the other. -/
def run (events : List (Event ω)) : Copying σ ω := events.foldl (step source outside poll) c

/-- Steps of the copier between which nothing comes. -/
def steps (n : Nat) : Copying σ ω := run source outside poll c (List.replicate n .copier)

theorem steps_succ (n : Nat) :
    steps source outside poll c (n + 1) = steps source outside poll (c.advance source poll) n := rfl

variable {c}

theorem take_error_of_ne {e : LinkError} (he : e ≠ .timeout) :
    c.take (.error e) = c.finish (some e) := by
  unfold take
  split
  · next h => cases h
  · next h => exact absurd (Except.error.inj h) he
  · next h => rw [Except.error.inj h]

theorem push_of_accepted (c : Copying σ ω) {data : Bytes} (hd : data ≠ [])
    (hn : (c.history.ring.push data).1 ≠ 0) :
    c.push data = { c with
      history := c.history.step (.push data)
      place := .releasing (c.history.ring.push data).1 } := by
  rw [push, ite_cond_eq_false _ _ (eq_false (mt List.isEmpty_iff.mp hd))]
  exact ite_cond_eq_false _ _ (eq_false hn)

theorem push_of_refused (c : Copying σ ω) {data : Bytes} (hd : data ≠ [])
    (hn : (c.history.ring.push data).1 = 0) :
    c.push data = finish { c with history := c.history.step (.push data) } none := by
  rw [push, ite_cond_eq_false _ _ (eq_false (mt List.isEmpty_iff.mp hd))]
  exact ite_cond_eq_true _ _ (eq_true hn)

/-- Looking asks nothing of the source. -/
theorem look_asks_nothing (c : Copying σ ω) :
    c.look.log = c.log ∧ c.look.state = c.state := by
  unfold look
  split
  · exact ⟨rfl, rfl⟩
  · split <;> exact ⟨rfl, rfl⟩

/-- Taking an answer asks nothing further. -/
theorem take_asks_nothing (c : Copying σ ω) (answer : Except LinkError Bytes) :
    (c.take answer).log = c.log ∧ (c.take answer).state = c.state := by
  unfold take
  split <;> exact ⟨rfl, rfl⟩

/-- Pushing asks nothing of the source. -/
theorem push_asks_nothing (c : Copying σ ω) (data : Bytes) :
    (c.push data).log = c.log ∧ (c.push data).state = c.state := by
  unfold push
  split
  · exact ⟨rfl, rfl⟩
  · dsimp only
    split <;> exact ⟨rfl, rfl⟩

/-- Taking an outcome asks nothing further. -/
theorem conclude_asks_nothing (c : Copying σ ω) (outcome : Except LinkError Unit) :
    (c.conclude outcome).log = c.log ∧ (c.conclude outcome).state = c.state := by
  unfold conclude
  split <;> exact ⟨rfl, rfl⟩

theorem steps_add (m n : Nat) :
    steps source outside poll c (m + n) =
      steps source outside poll (steps source outside poll c m) n := by
  rw [steps, ← List.replicate_append_replicate, run, List.foldl_append]
  rfl

/-- Steps between which nothing comes move a window as the copier does. -/
theorem steps_eq_copier_move {data : Bytes} (hp : c.place = .holding data) :
    ∃ n outcome, Copier.move source data c.history.ring c.state =
        (outcome, (steps source outside poll c n).history.ring,
          (steps source outside poll c n).state) ∧
      (steps source outside poll c n).place = if outcome = .ended then .ended else .looking := by
  obtain ⟨s, history, place, stopping, log⟩ := c
  subst hp
  have hpush : advance source poll ⟨s, history, .holding data, stopping, log⟩ =
    push ⟨s, history, .holding data, stopping, log⟩ data := rfl
  by_cases hd : data = []
  · subst hd
    exact ⟨1, .idle, rfl, rfl⟩
  · rw [Copier.move_of_ne_nil source hd]
    by_cases hn : (history.ring.push data).1 = 0
    · refine ⟨1, .ended, ?_⟩
      rw [steps_succ, hpush, push_of_refused ⟨s, history, _, stopping, log⟩ hd hn,
        ite_cond_eq_true _ _ (eq_true hn)]
      exact ⟨rfl, rfl⟩
    · rw [push_of_accepted ⟨s, history, _, stopping, log⟩ hd hn] at hpush
      have hrelease (outcome : Except LinkError Unit) (t : σ)
          (hr : (source.release (history.ring.push data).1).exec s = (outcome, t)) :
          steps source outside poll ⟨s, history, .holding data, stopping, log⟩ 2 =
            conclude ⟨t, history.step (.push data), .releasing (history.ring.push data).1, stopping,
              log ++ [.released (history.ring.push data).1 outcome]⟩ outcome := by
        rw [steps_succ, hpush, steps_succ]
        simp only [advance, hr]
        rfl
      rw [ite_cond_eq_false _ _ (eq_false hn)]
      rcases hr : (source.release (history.ring.push data).1).exec s with ⟨x | ⟨⟩, t⟩
      · refine ⟨2, .ended, ?_⟩
        rw [hrelease _ _ hr]
        exact ⟨rfl, rfl⟩
      · refine ⟨2, .moved, ?_⟩
        rw [hrelease _ _ hr]
        exact ⟨rfl, rfl⟩

/-- Steps between which nothing comes make up a round of the copier. -/
theorem steps_eq_copier_step (hp : c.place = .looking) (hs : c.stopping = false) :
    ∃ n outcome, Copier.step source poll c.history.ring c.state =
        (outcome, (steps source outside poll c n).history.ring,
          (steps source outside poll c n).state) ∧
      (steps source outside poll c n).place = if outcome = .ended then .ended else .looking := by
  obtain ⟨s, history, place, stopping, log⟩ := c
  subst hp hs
  by_cases hfull : history.ring.isFull = true
  · refine ⟨0, .full, ?_, rfl⟩
    exact ite_cond_eq_true _ _ (eq_true hfull)
  · have hwait (answer : Except LinkError Bytes) (t : σ)
        (hw : (source.wait (some poll)).exec s = (answer, t)) :
        steps source outside poll ⟨s, history, .looking, false, log⟩ 2 =
          take ⟨t, history, .waiting, false, log ++ [.waited answer t]⟩ answer := by
      have hlook : advance source poll ⟨s, history, .looking, false, log⟩ =
        ⟨s, history, .waiting, false, log⟩ := ite_cond_eq_false _ _ (eq_false hfull)
      rw [steps_succ, hlook, steps_succ]
      simp only [advance, hw]
      rfl
    rw [Copier.step, ite_cond_eq_false _ _ (eq_false hfull)]
    split
    · next data t hw =>
      obtain ⟨n, outcome, hmove⟩ := steps_eq_copier_move source outside poll
        (c := ⟨t, history, .holding data, false, log ++ [.waited (.ok data) t]⟩) rfl
      refine ⟨2 + n, outcome, ?_⟩
      rw [steps_add, hwait _ _ hw]
      exact hmove
    · next t hw =>
      refine ⟨2, .idle, ?_⟩
      rw [hwait _ _ hw]
      exact ⟨rfl, rfl⟩
    · next e t hne hw =>
      refine ⟨2, .ended, ?_⟩
      rw [hwait _ _ hw, take_error_of_ne (fun he ↦ hne he)]
      exact ⟨rfl, rfl⟩

/-- A copier that looks after it was told to stop leaves the ring as stopping does. -/
theorem advance_eq_stop (hp : c.place = .looking) (hs : c.stopping = true) :
    c.advance source poll = c.finish none ∧
      (c.finish none).history.ring = (CopiedRing.stop ⟨c.history.ring, true⟩).ring := by
  obtain ⟨s, history, place, stopping, log⟩ := c
  subst hp hs
  exact ⟨rfl, rfl⟩

/-! ### What holds in every run -/

/-- What is asked of a source and happens around it keeps `p`, and under `p` a wait that answers
shows at least a word. Only whole words of the last window are released. -/
structure Keeps (source : Source σ) (outside : ω → σ → σ)
    (p : List (Entry σ ω) → σ → Prop) : Prop where
  waited : ∀ {log s timeout answer t}, p log s → (source.wait timeout).exec s = (answer, t) →
    p (log ++ [.waited answer t]) t
  released : ∀ {log s n outcome t}, p log s → 0 < n → n % 4 = 0 → n ≤ (shown log).length →
    (source.release n).exec s = (outcome, t) → p (log ++ [.released n outcome]) t
  happened : ∀ {log s} what, p log s → p (log ++ [.happened what]) (outside what s)
  word : ∀ {log s timeout data t}, p log s → (source.wait timeout).exec s = (.ok data, t) →
    alignment ≤ data.length

/-- The last thing that the source was asked is a release of `n` bytes that failed. -/
def ReleaseFailed (log : List (Entry σ ω)) (n : Nat) : Prop :=
  ∃ (pre : List (Entry σ ω)) (e : LinkError) (post : List ω),
    log = pre ++ .released n (.error e) :: post.map .happened

/-- Nothing has gone wrong. -/
structure Going (history : Ring.History) (log : List (Entry σ ω)) : Prop where
  error : history.ring.error = none
  fatal : fatal? log = none

/-- What is known at each place of a round. -/
inductive Known (history : Ring.History) (log : List (Entry σ ω)) : Place → Prop where
  | looking (hg : Going history log) (ha : history.accepted = acknowledged log) :
    Known history log .looking
  | waiting (hg : Going history log) (ha : history.accepted = acknowledged log)
      (hfree : 0 < history.ring.index.free) : Known history log .waiting
  | holding {data : Bytes} (hg : Going history log) (ha : history.accepted = acknowledged log)
      (hfree : 0 < history.ring.index.free) (hword : alignment ≤ data.length)
      (hshown : shown log = data) : Known history log (.holding data)
  | releasing {n : Nat} (hg : Going history log)
      (ha : history.accepted = acknowledged log ++ (shown log).take n) (hpos : 0 < n)
      (hmod : n % 4 = 0) (hle : n ≤ (shown log).length) : Known history log (.releasing n)
  | ended (he : history.ring.error = some ((fatal? log).getD .shutdown))
      (ha : history.accepted = acknowledged log ∨ ∃ n, ReleaseFailed log n ∧
        n ≤ (shown log).length ∧ history.accepted = acknowledged log ++ (shown log).take n) :
    Known history log .ended

/-- Consuming makes room and changes nothing else that is known. -/
theorem Known.of_free_le {history history' : Ring.History} {log : List (Entry σ ω)} {place : Place}
    (hk : Known history log place) (ha' : history'.accepted = history.accepted)
    (he' : history'.ring.error = history.ring.error)
    (hle' : history.ring.index.free ≤ history'.ring.index.free) : Known history' log place := by
  have hgoing (hg : Going history log) : Going history' log := ⟨he'.trans hg.error, hg.fatal⟩
  cases hk with
  | looking hg ha => exact .looking (hgoing hg) (ha'.trans ha)
  | waiting hg ha hfree =>
    exact .waiting (hgoing hg) (ha'.trans ha) (Nat.lt_of_lt_of_le hfree hle')
  | holding hg ha hfree hword hshown =>
    exact .holding (hgoing hg) (ha'.trans ha) (Nat.lt_of_lt_of_le hfree hle') hword hshown
  | releasing hg ha hpos hmod hle =>
    exact .releasing (hgoing hg) (ha'.trans ha) hpos hmod hle
  | ended he ha =>
    rw [← ha'] at ha
    exact .ended (he'.trans he) ha

/-- What happens around the source changes nothing that is known. -/
theorem Known.happened {history : Ring.History} {log : List (Entry σ ω)} {place : Place}
    (hk : Known history log place) (what : ω) :
    Known history (log ++ [.happened what]) place := by
  have hack : acknowledged (log ++ [.happened what]) = acknowledged log := acknowledged_concat ..
  have hshow : shown (log ++ [.happened what]) = shown log := shown_concat ..
  have hfatal : fatal? (log ++ [.happened what]) = fatal? log :=
    (fatal?_concat ..).trans (Option.or_none ..)
  have hgoing (hg : Going history log) : Going history (log ++ [.happened what]) :=
    ⟨hg.error, hfatal.trans hg.fatal⟩
  cases hk with
  | looking hg ha => exact .looking (hgoing hg) (ha.trans hack.symm)
  | waiting hg ha hfree => exact .waiting (hgoing hg) (ha.trans hack.symm) hfree
  | holding hg ha hfree hword hshown =>
    exact .holding (hgoing hg) (ha.trans hack.symm) hfree hword (hshow.trans hshown)
  | releasing hg ha hpos hmod hle =>
    rw [← hack, ← hshow] at ha
    exact .releasing (hgoing hg) ha hpos hmod (hshow.symm ▸ hle)
  | ended he ha =>
    refine .ended (hfatal.symm ▸ he) ?_
    rw [hack, hshow]
    refine ha.imp_right ?_
    rintro ⟨n, ⟨pre, e, post, hlog⟩, hrest⟩
    refine ⟨n, ⟨pre, e, post ++ [what], ?_⟩, hrest⟩
    rw [hlog, List.append_assoc, List.map_append]
    rfl

/-- The ring is in order, and what is known of the copier holds. -/
structure Sound (size : Nat) (c : Copying σ ω) : Prop where
  history : c.history.Sound size
  known : Known c.history c.log c.place

variable {size : Nat}

theorem Sound.known_at (hs : c.Sound size) {place : Place} (hplace : c.place = place) :
    Known c.history c.log place :=
  hplace ▸ hs.known

theorem sound_start {ring : Ring} (hr : Ring.create size = .ok ring) (s : σ) :
    (start s ring : Copying σ ω).Sound size := by
  refine ⟨Ring.History.sound_start hr, .looking ⟨?_, rfl⟩ rfl⟩
  obtain ⟨_, _, rfl⟩ := Ring.create_eq_ok_iff.mp hr
  rfl

theorem sound_consume (hs : c.Sound size) (n : Nat) :
    (step source outside poll c (.consume n)).Sound size := by
  have hh := Ring.History.sound_step hs.history (.consume n)
  refine ⟨hh, hs.known.of_free_le rfl rfl ?_⟩
  have hu : (c.history.ring.consume n).index.used = c.history.ring.index.used - _ :=
    Ring.used_consume hs.history.ring n
  have hf' : (c.history.ring.consume n).index.free = c.history.ring.index.size - alignment -
    (c.history.ring.consume n).index.used := RingIndex.free_eq hh.ring.offsets
  show c.history.ring.index.free ≤ (c.history.ring.consume n).index.free
  rw [hf', hu, RingIndex.free_eq hs.history.ring.offsets]
  exact Nat.sub_le_sub_left (Nat.sub_le _ _) _

/-- A copier that ends leaves why in the ring, and nothing else. -/
theorem sound_finish (hh : c.history.Sound size) {cause : Option LinkError}
    (he : c.history.ring.error = none) (hf : fatal? c.log = cause)
    (ha : c.history.accepted = acknowledged c.log ∨ ∃ n, ReleaseFailed c.log n ∧
      n ≤ (shown c.log).length ∧ c.history.accepted = acknowledged c.log ++ (shown c.log).take n) :
    (c.finish cause).Sound size := by
  have hring : Copier.finish c.history.ring cause =
      { c.history.ring with error := some (cause.getD .shutdown) } := by
    cases cause <;> simp only [Copier.finish, Ring.setError, he] <;> rfl
  refine ⟨⟨?_, ?_, hh.consumed_le, ?_⟩, .ended ?_ ha⟩
  · show (Copier.finish c.history.ring cause).WellFormed
    rw [hring]
    exact ⟨hh.ring.offsets, hh.ring.written_le, hh.ring.producer_le, hh.ring.wrapped⟩
  · show (Copier.finish c.history.ring cause).size = size
    rw [hring]
    exact hh.size
  · show (Copier.finish c.history.ring cause).pending = _
    rw [hring]
    exact hh.pending
  · show (Copier.finish c.history.ring cause).error = some ((fatal? c.log).getD .shutdown)
    rw [hring, hf]

variable {source outside} {p : List (Entry σ ω) → σ → Prop}

/-- Looking into the ring. -/
theorem sound_look (hs : c.Sound size) (hplace : c.place = .looking) : c.look.Sound size := by
  obtain ⟨hg, ha⟩ := hs.known_at hplace
  unfold look
  split
  · exact sound_finish hs.history hg.error hg.fatal (.inl ha)
  · split
    · exact hs
    · next hfull =>
      refine ⟨hs.history, .waiting hg ha ?_⟩
      exact Nat.pos_of_ne_zero (mt (RingIndex.isFull_iff hs.history.ring.offsets).mpr hfull)

/-- Taking the answer to a wait, which shows at least a word. -/
theorem sound_take (hs : c.Sound size) (hplace : c.place = .waiting)
    {answer : Except LinkError Bytes} (t : σ)
    (hword : ∀ data, answer = .ok data → alignment ≤ data.length) :
    ((c.note (.waited answer t) t).take answer).Sound size := by
  obtain ⟨⟩ | ⟨hg, ha, hfree⟩ := hs.known_at hplace
  have hack := acknowledged_concat c.log (.waited answer t)
  have hshow := shown_concat c.log (.waited answer t)
  have hfatal := fatal?_concat c.log (.waited answer t)
  rw [hg.fatal, Option.none_or] at hfatal
  match answer with
  | .ok data =>
    exact ⟨hs.history,
      .holding ⟨hg.error, hfatal⟩ (ha.trans hack.symm) hfree (hword data rfl) hshow⟩
  | .error e =>
    by_cases he : e = .timeout
    · subst he
      exact ⟨hs.history, .looking ⟨hg.error, hfatal⟩ (ha.trans hack.symm)⟩
    · rw [take_error_of_ne he]
      refine sound_finish (c := c.note (.waited (.error e) t) t) hs.history hg.error
        (hfatal.trans ?_) (.inl (ha.trans hack.symm))
      exact fatal?_waited_error he t

/-- A window that is pushed finds room. -/
theorem Sound.push_pos (hs : c.Sound size) {data : Bytes} (hplace : c.place = .holding data) :
    0 < (c.history.ring.push data).1 := by
  obtain ⟨⟩ | ⟨⟩ | ⟨_, _, hfree, hword, _⟩ := hs.known_at hplace
  exact Ring.fst_push_pos hfree hword

/-- Pushing a window. -/
theorem sound_push (hs : c.Sound size) {data : Bytes} (hplace : c.place = .holding data) :
    (c.push data).Sound size := by
  have hpos := hs.push_pos hplace
  obtain ⟨⟩ | ⟨⟩ | ⟨hg, ha, hfree, hword, hshown⟩ := hs.known_at hplace
  have hdata : data ≠ [] := by
    rintro rfl
    exact absurd hword (by decide)
  rw [push_of_accepted c hdata (Nat.ne_of_gt hpos)]
  refine ⟨Ring.History.sound_step hs.history (.push data), .releasing ⟨?_, hg.fatal⟩ ?_ hpos ?_ ?_⟩
  · exact (Ring.error_push_of_accepted (Nat.ne_of_gt hpos)).trans hg.error
  · show c.history.accepted ++ data.take (c.history.ring.push data).1 = _
    rw [ha, ← hshown]
  · exact Ring.fst_push_mod hs.history.ring data
  · show _ ≤ (shown c.log).length
    rw [hshown]
    exact Ring.fst_push_le c.history.ring data

/-- Taking the outcome of a release. -/
theorem sound_conclude (hs : c.Sound size) {n : Nat} (hplace : c.place = .releasing n)
    (outcome : Except LinkError Unit) (t : σ) :
    ((c.note (.released n outcome) t).conclude outcome).Sound size := by
  obtain ⟨⟩ | ⟨⟩ | ⟨⟩ | ⟨hg, ha, hpos, hmod, hle⟩ := hs.known_at hplace
  have hack := acknowledged_concat c.log (.released n outcome)
  have hshow := shown_concat c.log (.released n outcome)
  have hfatal := fatal?_concat c.log (.released n outcome)
  rw [hg.fatal, Option.none_or] at hfatal
  match outcome with
  | .ok () => exact ⟨hs.history, .looking ⟨hg.error, hfatal⟩ (ha.trans hack.symm)⟩
  | .error e =>
    have hlog : (c.note (.released n (.error e)) t).log = c.log ++ [.released n (.error e)] := rfl
    refine sound_finish (c := c.note (.released n (.error e)) t) hs.history hg.error hfatal
      (.inr ⟨n, ⟨c.log, e, [], rfl⟩, ?_, ?_⟩)
    · rw [hlog, hshow]
      exact hle
    · rw [hlog, hack, hshow]
      exact ha

/-- The copier asks its source only what it writes down. -/
theorem keeps_advance (hp : Keeps source outside p) (hs : c.Sound size) (hc : p c.log c.state) :
    p (c.advance source poll).log (c.advance source poll).state := by
  unfold advance
  split
  · rwa [(look_asks_nothing c).1, (look_asks_nothing c).2]
  · rcases hw : (source.wait (some poll)).exec c.state with ⟨answer, t⟩
    dsimp only
    rw [(take_asks_nothing _ _).1, (take_asks_nothing _ _).2]
    exact hp.waited hc hw
  · next data _ => rwa [(push_asks_nothing c data).1, (push_asks_nothing c data).2]
  · next n hplace =>
    rcases hr : (source.release n).exec c.state with ⟨outcome, t⟩
    obtain ⟨⟩ | ⟨⟩ | ⟨⟩ | ⟨-, -, hpos, hmod, hle⟩ := hs.known_at hplace
    dsimp only
    rw [(conclude_asks_nothing _ _).1, (conclude_asks_nothing _ _).2]
    exact hp.released hc hpos hmod hle hr
  · exact hc

/-- The copier keeps in order. -/
theorem sound_advance (hp : Keeps source outside p) (hs : c.Sound size) (hc : p c.log c.state) :
    (c.advance source poll).Sound size := by
  unfold advance
  split
  · next hplace => exact sound_look hs hplace
  · next hplace =>
    rcases hw : (source.wait (some poll)).exec c.state with ⟨answer, t⟩
    refine sound_take hs hplace t ?_
    rintro data rfl
    exact hp.word hc hw
  · next hplace => exact sound_push hs hplace
  · next hplace => exact sound_conclude hs hplace _ _
  · exact hs

/-- Every event keeps a copier in order and what is kept of its source. -/
theorem sound_step (hp : Keeps source outside p) (hs : c.Sound size) (hc : p c.log c.state)
    (event : Event ω) :
    (step source outside poll c event).Sound size ∧
      p (step source outside poll c event).log (step source outside poll c event).state := by
  cases event with
  | copier => exact ⟨sound_advance poll hp hs hc, keeps_advance poll hp hs hc⟩
  | consume n => exact ⟨sound_consume source outside poll hs n, hc⟩
  | stop => exact ⟨⟨hs.history, hs.known⟩, hc⟩
  | outside what => exact ⟨⟨hs.history, hs.known.happened what⟩, hp.happened what hc⟩

/-- Any events keep a copier in order and what is kept of its source. -/
theorem sound_run (hp : Keeps source outside p) (hs : c.Sound size) (hc : p c.log c.state)
    (events : List (Event ω)) :
    (run source outside poll c events).Sound size ∧
      p (run source outside poll c events).log (run source outside poll c events).state := by
  induction events generalizing c with
  | nil => exact ⟨hs, hc⟩
  | cons event rest ih =>
    obtain ⟨hs', hc'⟩ := sound_step poll hp hs hc event
    exact ih hs' hc'

/-- The ring has accepted what was released, and perhaps the piece of the last window whose release
is due or failed. -/
theorem Sound.accepted_eq (hs : c.Sound size) :
    ∃ due, c.history.accepted = acknowledged c.log ++ due ∧ due <+: shown c.log ∧
      (due ≠ [] → c.place = .releasing due.length ∨
        c.place = .ended ∧ ReleaseFailed c.log due.length) := by
  have hk := hs.known
  generalize c.place = place at hk ⊢
  have hnone (ha : c.history.accepted = acknowledged c.log) :
      ∃ due, c.history.accepted = acknowledged c.log ++ due ∧ due <+: shown c.log ∧
        (due ≠ [] → place = .releasing due.length ∨
          place = .ended ∧ ReleaseFailed c.log due.length) :=
    ⟨[], ha.trans (List.append_nil _).symm, List.nil_prefix, fun h ↦ absurd rfl h⟩
  cases hk with
  | looking _ ha => exact hnone ha
  | waiting _ ha _ => exact hnone ha
  | holding _ ha _ _ _ => exact hnone ha
  | releasing _ ha _ _ hle =>
    refine ⟨_, ha, List.take_prefix _ _, fun _ ↦ .inl ?_⟩
    rw [List.length_take_of_le hle]
  | ended _ ha =>
    rcases ha with ha | ⟨n, hfailed, hle, ha⟩
    · exact hnone ha
    · refine ⟨_, ha, List.take_prefix _ _, fun _ ↦ .inr ⟨rfl, ?_⟩⟩
      rwa [List.length_take_of_le hle]

/-- A ring has no error before its copier ends. -/
theorem Sound.error_of_ne_ended (hs : c.Sound size) (hplace : c.place ≠ .ended) :
    c.history.ring.error = none := by
  have hk := hs.known
  generalize c.place = place at hk hplace
  cases hk with
  | looking hg | waiting hg | holding hg | releasing hg => exact hg.error
  | ended => exact absurd rfl hplace

/-- A copier that ended has left the first error that ends it in the ring, or else that it was shut
down. -/
theorem Sound.error_of_ended (hs : c.Sound size) (hplace : c.place = .ended) :
    c.history.ring.error = some ((fatal? c.log).getD .shutdown) := by
  obtain ⟨⟩ | ⟨⟩ | ⟨⟩ | ⟨⟩ | ⟨he, -⟩ := hs.known_at hplace
  exact he

/-! ### What a step of the copier leaves alone -/

/-- A copier that makes a step is told nothing and consumes nothing, and the ring accepts more. -/
structure Advances (c d : Copying σ ω) : Prop where
  stopping : d.stopping = c.stopping
  consumed : d.history.consumed = c.history.consumed
  accepted : c.history.accepted <+: d.history.accepted

theorem advances_look (c : Copying σ ω) : c.Advances c.look := by
  unfold look
  split
  · exact ⟨rfl, rfl, List.prefix_rfl⟩
  · split <;> exact ⟨rfl, rfl, List.prefix_rfl⟩

theorem advances_take (c : Copying σ ω) (answer : Except LinkError Bytes) :
    c.Advances (c.take answer) := by
  unfold take
  split <;> exact ⟨rfl, rfl, List.prefix_rfl⟩

theorem advances_push (c : Copying σ ω) (data : Bytes) : c.Advances (c.push data) := by
  unfold push
  split
  · exact ⟨rfl, rfl, List.prefix_rfl⟩
  · dsimp only
    split <;> exact ⟨rfl, rfl, List.prefix_append _ _⟩

theorem advances_conclude (c : Copying σ ω) (outcome : Except LinkError Unit) :
    c.Advances (c.conclude outcome) := by
  unfold conclude
  split <;> exact ⟨rfl, rfl, List.prefix_rfl⟩

theorem advances_advance (source : Source σ) (c : Copying σ ω) :
    c.Advances (c.advance source poll) := by
  unfold advance
  split
  · exact advances_look c
  · rcases (source.wait (some poll)).exec c.state with ⟨answer, t⟩
    have htake := advances_take (c.note (.waited answer t) t) answer
    exact ⟨htake.stopping, htake.consumed, htake.accepted⟩
  · next data _ => exact advances_push c data
  · next n _ =>
    rcases (source.release n).exec c.state with ⟨outcome, t⟩
    have hconclude := advances_conclude (c.note (.released n outcome) t) outcome
    exact ⟨hconclude.stopping, hconclude.consumed, hconclude.accepted⟩
  · exact ⟨rfl, rfl, List.prefix_rfl⟩

/-- A copier that runs ends only when it is told to stop, or with an error. -/
theorem advance_ne_ended (hs : c.Sound size) (hstop : c.stopping = false)
    (hplace : c.place ≠ .ended) (hfatal : fatal? (c.advance source poll).log = none) :
    (c.advance source poll).place ≠ .ended := by
  have hentry {entry : Entry σ ω} {e : LinkError} (he : entry.fatal? = some e) :
      fatal? (c.log ++ [entry]) ≠ none := by
    rw [fatal?_concat, he, Option.or_some]
    exact nofun
  unfold advance at hfatal ⊢
  split at hfatal
  · unfold look
    rw [hstop, ite_cond_eq_false _ _ (eq_false Bool.false_ne_true)]
    split
    · exact hplace
    · nofun
  · generalize (source.wait (some poll)).exec c.state = r at hfatal ⊢
    obtain ⟨answer, t⟩ := r
    dsimp only at hfatal ⊢
    rw [(take_asks_nothing _ _).1] at hfatal
    match answer with
    | .ok data => nofun
    | .error e =>
      by_cases he : e = .timeout
      · subst he
        nofun
      · exact absurd hfatal (hentry (fatal?_waited_error he t))
  · next data hholding =>
    have hpos := hs.push_pos hholding
    unfold push
    split
    · nofun
    · dsimp only
      rw [ite_cond_eq_false _ _ (eq_false (Nat.ne_of_gt hpos))]
      nofun
  · next n _ =>
    generalize (source.release n).exec c.state = r at hfatal ⊢
    obtain ⟨outcome, t⟩ := r
    dsimp only at hfatal ⊢
    rw [(conclude_asks_nothing _ _).1] at hfatal
    match outcome with
    | .ok () => nofun
    | .error e => exact absurd hfatal (hentry rfl)
  · next hended => exact absurd hended hplace

end Copying

end DetectorLink
