import SwaDemo.BusDelivery

/-!
Concurrent `Emit` calls on one bus. A call reads the clock first and gets the lock
later, so another call can pass it in between: the call with the earlier reading is
then delivered last. That is the only way in which timestamps get out of order.
-/
namespace SwaBus
open GoChannel SwaTrace Runs TraceBus

/-- `calls` holds the stamped event of every call, in the order of their readings of
    the clock; `entered` says in which order calls got the lock. -/
structure Emitters where
  bus : TraceBus
  now : Int
  calls : List TraceEvent
  entered : List Nat

inductive EmitAct where
  | clock (now : Int)
  /-- `Emit` of an event without a timestamp, up to the lock. -/
  | call (source type : String) (payload : Payload)
  | enter (c : Nat) (range : RangeOrder)
  | sub (op : SubOp)

namespace Emitters

def initial (bufSize : Int) (now : Int) : Emitters := ⟨newTraceBus bufSize, now, [], []⟩

/-- The clock never goes back. -/
def clock (now : Int) (s : Emitters) : Emitters := if s.now ≤ now then { s with now := now } else s

def call (ev : TraceEvent) (s : Emitters) : Emitters :=
  { s with calls := s.calls ++ [stamp s.now ev] }

/-- What an action does on the bus; a call gets the lock once. -/
def busOp (s : Emitters) : EmitAct → Option BusOp
  | .enter c range =>
    if c ∈ s.entered then none
    else s.calls[c]?.map fun ev => .emit s.now ev (range.visit s.bus.subs)
  | .sub op => some op.toBus
  | _ => none

def enters : EmitAct → List Nat
  | .enter c _ => [c]
  | _ => []

def step (s : Emitters) (a : EmitAct) : Option Emitters :=
  match a with
  | .clock now => some (s.clock now)
  | .call source type payload => some (s.call (newEvent source type payload))
  | a =>
    match s.busOp a with
    | none => some s
    | some op =>
      (s.bus.step op).map fun b => { s with bus := b, entered := s.entered ++ enters a }

/-- What an action receives on the channel `id`. -/
def received (id : Nat) (s : Emitters) (a : EmitAct) : List TraceEvent :=
  match s.busOp a with
  | none => []
  | some op => taken id s.bus op

end Emitters

def InTimeOrder (a b : TraceEvent) : Prop := ∃ x y, a.ts = some x ∧ b.ts = some y ∧ x ≤ y

/-- The calls' readings are in order, and what went through the channel `id` so far are
    the events of some of the calls, in the order in which these got the lock. -/
structure Clocked (id : Nat) (s : Emitters) (got : List TraceEvent) : Prop where
  sound : Sound s.bus
  inOrder : s.calls.Pairwise InTimeOrder
  read : ∀ ev ∈ s.calls, ∃ t, ev.ts = some t ∧ t ≤ s.now
  known : ∀ c ∈ s.entered, c < s.calls.length
  distinct : s.entered.Nodup
  log : ∃ picks : List Nat, picks.Sublist s.entered ∧
    (got ++ s.bus.bufOf id).map some = picks.map (s.calls[·]?)

theorem clocked_start (bufSize now : Int) (id : Nat) :
    Clocked id (Emitters.initial bufSize now) [] where
  sound := sound_start bufSize
  inOrder := List.Pairwise.nil
  read _ mem := nomatch mem
  known _ mem := nomatch mem
  distinct := List.nodup_nil
  log := ⟨[], List.Sublist.refl _, by simp [Emitters.initial, bufOf, newTraceBus]⟩

theorem clocked_clock {id : Nat} {s : Emitters} {got : List TraceEvent} (clocked : Clocked id s got)
    (now : Int) : Clocked id (s.clock now) got := by
  unfold Emitters.clock
  split
  · rename_i later
    refine { clocked with read := ?_ }
    intro ev mem
    obtain ⟨t, read, bound⟩ := clocked.read ev mem
    exact ⟨t, read, by simp only; omega⟩
  · exact clocked

theorem stamp_stamped {ev : TraceEvent} {t : Int} (read : ev.ts = some t) (now : Int) :
    stamp now ev = ev := by
  simp [stamp, read]

theorem clocked_call {id : Nat} {s : Emitters} {got : List TraceEvent} (clocked : Clocked id s got)
    (source type : String) (payload : Payload) :
    Clocked id (s.call (newEvent source type payload)) got := by
  obtain ⟨picks, sublist, log⟩ := clocked.log
  refine ⟨clocked.sound, ?_, ?_, ?_, clocked.distinct, picks, sublist, ?_⟩
  · refine List.pairwise_append.mpr ⟨clocked.inOrder, List.pairwise_singleton _ _, ?_⟩
    intro a old b new
    obtain ⟨t, read, bound⟩ := clocked.read a old
    rw [List.mem_singleton.mp new]
    exact ⟨t, s.now, read, rfl, bound⟩
  · intro ev mem
    rcases List.mem_append.mp mem with old | new
    · exact clocked.read ev old
    · rw [List.mem_singleton.mp new]
      exact ⟨s.now, rfl, Int.le_refl _⟩
  · intro c mem
    have old := clocked.known c mem
    simp only [Emitters.call, List.length_append, List.length_singleton]
    omega
  · rw [Emitters.call, log]
    refine List.map_congr_left ?_
    intro c mem
    exact (List.getElem?_append_left (clocked.known c (sublist.mem mem))).symm

theorem clocked_sub {id : Nat} {s : Emitters} {got : List TraceEvent} (clocked : Clocked id s got)
    (op : SubOp) : ∃ b, s.bus.step op.toBus = some b ∧
      Clocked id { s with bus := b } (got ++ taken id s.bus op.toBus) := by
  obtain ⟨b, steps, sound⟩ := sound_step s.bus op.toBus clocked.sound
  refine ⟨b, steps, { clocked with sound := sound, log := ?_ }⟩
  have places := step_places clocked.sound steps id
  have none_ : placed id s.bus op.toBus = [] := by cases op <;> rfl
  rw [none_, List.append_nil] at places
  rw [List.append_assoc, places]
  exact clocked.log

theorem clocked_enter {id : Nat} {s : Emitters} {got : List TraceEvent} (clocked : Clocked id s got)
    {c : Nat} {ev : TraceEvent} (called : s.calls[c]? = some ev) (waits : c ∉ s.entered)
    (range : RangeOrder) :
    ∃ b, s.bus.step (.emit s.now ev (range.visit s.bus.subs)) = some b ∧
      Clocked id { s with bus := b, entered := s.entered ++ [c] } got := by
  obtain ⟨b, steps, sound⟩ :=
    sound_step s.bus (.emit s.now ev (range.visit s.bus.subs)) clocked.sound
  obtain ⟨t, read, _⟩ := clocked.read ev (List.mem_of_getElem? called)
  obtain ⟨picks, sublist, log⟩ := clocked.log
  refine ⟨b, steps, sound, clocked.inOrder, clocked.read, ?_, ?_, ?_⟩
  · intro k mem
    rcases List.mem_append.mp mem with old | new
    · exact clocked.known k old
    · rw [List.mem_singleton.mp new]
      exact (List.getElem?_eq_some_iff.mp called).1
  · refine List.nodup_append.mpr ⟨clocked.distinct, by simp, ?_⟩
    intro x old y new same
    rw [List.mem_singleton.mp new] at same
    exact waits (same ▸ old)
  · have places := step_places clocked.sound steps id
    simp only [taken, placed, List.nil_append, stamp_stamped read] at places
    rw [places]
    split
    · refine ⟨picks ++ [c], sublist.append (List.Sublist.refl _), ?_⟩
      rw [← List.append_assoc, List.map_append, log, List.map_append]
      simp [called]
    · refine ⟨picks, sublist.trans (List.sublist_append_left _ _), ?_⟩
      rw [List.append_nil]
      exact log

theorem clocked_step {id : Nat} (s : Emitters) (a : EmitAct) (got : List TraceEvent)
    (clocked : Clocked id s got) :
    ∃ s', s.step a = some s' ∧ Clocked id s' (got ++ s.received id a) := by
  cases a with
  | clock now =>
    exact ⟨_, rfl, by simpa [Emitters.received, Emitters.busOp] using clocked_clock clocked now⟩
  | call source type payload =>
    refine ⟨_, rfl, ?_⟩
    simpa [Emitters.received, Emitters.busOp] using clocked_call clocked source type payload
  | sub op =>
    obtain ⟨b, steps, next⟩ := clocked_sub clocked op
    refine ⟨{ s with bus := b }, ?_, by simpa [Emitters.received, Emitters.busOp] using next⟩
    simp [Emitters.step, Emitters.busOp, Emitters.enters, steps]
  | enter c range =>
    by_cases waits : c ∈ s.entered
    · exact ⟨s, by simp [Emitters.step, Emitters.busOp, waits],
        by simpa [Emitters.received, Emitters.busOp, waits] using clocked⟩
    · cases called : s.calls[c]? with
      | none =>
        exact ⟨s, by simp [Emitters.step, Emitters.busOp, waits, called],
          by simpa [Emitters.received, Emitters.busOp, waits, called] using clocked⟩
      | some ev =>
        obtain ⟨b, steps, next⟩ := clocked_enter clocked called waits range
        refine ⟨{ s with bus := b, entered := s.entered ++ [c] }, ?_, ?_⟩
        · simp [Emitters.step, Emitters.busOp, Emitters.enters, waits, called, steps]
        · simpa [Emitters.received, Emitters.busOp, waits, called, taken] using next

/-- The events behind two calls, the earlier of them first. -/
def CallsInOrder (a b : Option TraceEvent) : Prop :=
  ∃ x y, a = some x ∧ b = some y ∧ InTimeOrder x y

theorem earlier_reading {id : Nat} {s : Emitters} {got : List TraceEvent}
    (clocked : Clocked id s got) {c d : Nat} (known : c < s.calls.length) (known' : d < s.calls.length)
    (before : c < d) : CallsInOrder s.calls[c]? s.calls[d]? :=
  ⟨_, _, List.getElem?_eq_getElem known, List.getElem?_eq_getElem known',
    List.pairwise_iff_getElem.mp clocked.inOrder c d known known' before⟩

theorem picks_order {id : Nat} {s : Emitters} {got : List TraceEvent} (clocked : Clocked id s got)
    {picks : List Nat} (sublist : picks.Sublist s.entered) :
    picks.Pairwise fun c d => CallsInOrder s.calls[c]? s.calls[d]? ∨ d < c := by
  refine (clocked.distinct.sublist sublist).imp_of_mem ?_
  intro c d mem mem' apart
  rcases Nat.lt_or_gt_of_ne apart with before | after
  · have known := clocked.known c (sublist.mem mem)
    have known' := clocked.known d (sublist.mem mem')
    exact Or.inl (earlier_reading clocked known known' before)
  · exact Or.inr after

theorem delivered_order {id : Nat} {s : Emitters} {got : List TraceEvent}
    (clocked : Clocked id s got) (order : s.entered.Pairwise (· < ·)) :
    (got ++ s.bus.bufOf id).Pairwise InTimeOrder := by
  obtain ⟨picks, sublist, log⟩ := clocked.log
  have sorted : (picks.map (s.calls[·]?)).Pairwise CallsInOrder := by
    refine List.pairwise_map.mpr ((order.sublist sublist).imp_of_mem ?_)
    intro c d mem mem' before
    exact earlier_reading clocked (clocked.known c (sublist.mem mem))
      (clocked.known d (sublist.mem mem')) before
  rw [← log] at sorted
  refine (List.pairwise_map.mp sorted).imp ?_
  rintro a b ⟨x, y, left, right, inOrder⟩
  cases left
  cases right
  exact inOrder

/-- Whatever concurrent calls of `Emit` do, two events come through a channel in the
    order of their timestamps, or the calls overlapped: the one that got the lock last
    had read the clock first. So calls that get the lock in the order of their readings
    are delivered in the order of their timestamps. -/
theorem inversions_overlap (bufSize now : Int) (acts : List EmitAct) :
    ∃ s, tryRun Emitters.step (Emitters.initial bufSize now) acts = some s ∧ ∀ id : Nat,
      (∃ picks : List Nat, picks.Sublist s.entered ∧
        (history Emitters.step (Emitters.received id) (Emitters.initial bufSize now) acts ++
          s.bus.bufOf id).map some = picks.map (s.calls[·]?) ∧
        picks.Pairwise fun c d => CallsInOrder s.calls[c]? s.calls[d]? ∨ d < c) ∧
      (s.entered.Pairwise (· < ·) →
        (history Emitters.step (Emitters.received id) (Emitters.initial bufSize now) acts ++
          s.bus.bufOf id).Pairwise InTimeOrder) := by
  obtain ⟨s, ran, _⟩ := tryRun_account (@clocked_step 0) (clocked_start bufSize now 0) acts
  refine ⟨s, ran, ?_⟩
  intro id
  obtain ⟨s', ran', clocked⟩ := tryRun_account (@clocked_step id)
    (clocked_start bufSize now id) acts
  cases ran.symm.trans ran'
  rw [List.nil_append] at clocked
  obtain ⟨picks, sublist, log⟩ := clocked.log
  exact ⟨⟨picks, sublist, log, picks_order clocked sublist⟩, delivered_order clocked⟩

def everyKey : RangeOrder := ⟨id, fun keys => .refl keys⟩

/-- Two calls read the clock at 1 and at 2; the second gets the lock first. -/
def overtaking : List EmitAct := [
  .sub .subscribe,
  .call "portal" "portal.resolve.requested" [],
  .clock 2,
  .call "portal" "carrier.event.raw" [],
  .enter 1 everyKey,
  .enter 0 everyKey]

theorem overtaken_emit_inverts :
    ¬ ∀ (bufSize now : Int) (acts : List EmitAct) (s : Emitters),
      tryRun Emitters.step (Emitters.initial bufSize now) acts = some s → ∀ id : Nat,
        (history Emitters.step (Emitters.received id) (Emitters.initial bufSize now) acts ++
          s.bus.bufOf id).Pairwise InTimeOrder := by
  intro all
  have sorted := all 8 1 overtaking _ rfl 0
  obtain ⟨x, y, left, right, inOrder⟩ := (List.pairwise_cons.mp sorted).1 _ (List.mem_singleton_self _)
  cases left
  cases right
  revert inOrder
  decide

end SwaBus
