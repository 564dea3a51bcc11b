import SwaDemo.BusDelivery

/-!
One subscriber beside any number of others. What it receives is what it would receive
alone on the bus, from the events emitted and its own operations: the others subscribe,
receive and leave as they like, and `Emit` visits the channels in any order.
-/
namespace SwaBus
open GoChannel SwaTrace Runs TraceBus

/-- `own k` is about the subscriber's `k`-th channel, `other k` about channel `k` of
    the bus. -/
inductive Turn where
  | emit (now : Int) (ev : TraceEvent) (range : RangeOrder)
  | own (op : SubOp)
  | other (op : SubOp)

/-- The bus and which of its channels `Subscribe` returned to the subscriber. -/
structure Shared where
  bus : TraceBus
  own : List Nat

namespace Shared

/-- What a turn does on the bus. The others do not hold the subscriber's channels. -/
def busOp (s : Shared) : Turn → Option BusOp
  | .emit now ev range => some (.emit now ev (range.visit s.bus.subs))
  | .own .subscribe => some .subscribe
  | .own (.unsubscribe k) => s.own[k]?.map .unsubscribe
  | .own (.receive k) => s.own[k]?.map .receive
  | .other .subscribe => some .subscribe
  | .other (.unsubscribe id) => if id ∈ s.own then none else some (.unsubscribe id)
  | .other (.receive id) => if id ∈ s.own then none else some (.receive id)

def gained (s : Shared) : Turn → List Nat
  | .own .subscribe => [s.bus.chans.length]
  | _ => []

def step (s : Shared) (turn : Turn) : Option Shared :=
  match s.busOp turn with
  | none => some s
  | some op => (s.bus.step op).map fun b => ⟨b, s.own ++ s.gained turn⟩

/-- The event the subscriber receives in a turn, and on which of its channels. -/
def received (s : Shared) : Turn → List (Nat × TraceEvent)
  | .own (.receive k) =>
    match s.own[k]? with
    | none => []
    | some id => (taken id s.bus (.receive id)).map (k, ·)
  | _ => []

end Shared

/-- What the subscriber's account depends on. -/
inductive Seen where
  | emitted (ev : TraceEvent)
  | own (op : SubOp)
  deriving DecidableEq, Repr

def Turn.seen : Turn → Option Seen
  | .emit now ev _ => some (.emitted (stamp now ev))
  | .own op => some (.own op)
  | .other _ => none

namespace Alone

def close (c : Chan TraceEvent) : Chan TraceEvent := { c with closed := true }

def pop (c : Chan TraceEvent) : Chan TraceEvent := { c with buf := c.buf.tail }

def hear (ev : TraceEvent) (c : Chan TraceEvent) : Chan TraceEvent :=
  match c.closed with
  | true => c
  | false => c.offer ev

/-- The subscriber's channels if there were no others. -/
def step (bufSize : Nat) (cs : List (Chan TraceEvent)) : Seen → List (Chan TraceEvent)
  | .emitted ev => cs.map (hear ev)
  | .own .subscribe => cs ++ [make bufSize]
  | .own (.unsubscribe k) => cs.modify k close
  | .own (.receive k) => cs.modify k pop

def received (cs : List (Chan TraceEvent)) : Seen → List (Nat × TraceEvent)
  | .own (.receive k) => ((cs[k]?.elim [] (·.buf)).take 1).map (k, ·)
  | _ => []

end Alone

/-- The subscriber's channels on the shared bus are those it would have alone. -/
structure Isolated (bufSize : Nat) (s : Shared) (cs : List (Chan TraceEvent)) : Prop where
  sound : Sound s.bus
  size : s.bus.bufSize = bufSize
  distinct : s.own.Nodup
  length : s.own.length = cs.length
  same : ∀ (k id : Nat), s.own[k]? = some id → s.bus.chans[id]? = cs[k]?

theorem isolated_start (bufSize : Int) :
    Isolated (newTraceBus bufSize).bufSize ⟨newTraceBus bufSize, []⟩ [] where
  sound := sound_start bufSize
  size := rfl
  distinct := List.nodup_nil
  length := rfl
  same k id here := by simp at here

theorem isolated_chan {bufSize : Nat} {s : Shared} {cs : List (Chan TraceEvent)}
    (isolated : Isolated bufSize s cs) {k id : Nat} (here : s.own[k]? = some id) :
    ∃ c, cs[k]? = some c ∧ s.bus.chans[id]? = some c := by
  have inside : k < cs.length := by
    rw [← isolated.length]
    exact (List.getElem?_eq_some_iff.mp here).1
  have at_ := List.getElem?_eq_getElem inside
  exact ⟨_, at_, (isolated.same k id here).trans at_⟩

theorem isolated_old {bufSize : Nat} {s : Shared} {cs : List (Chan TraceEvent)}
    (isolated : Isolated bufSize s cs) {id : Nat} (mem : id ∈ s.own) : id < s.bus.chans.length := by
  obtain ⟨k, here⟩ := List.mem_iff_getElem?.mp mem
  obtain ⟨_, _, there⟩ := isolated_chan isolated here
  exact (List.getElem?_eq_some_iff.mp there).1

/-- `b'` is `b` with `f` done to the channel `id` alone. -/
structure Touched (f : Chan TraceEvent → Chan TraceEvent) (id : Nat) (b b' : TraceBus) : Prop where
  sound : Sound b'
  size : b'.bufSize = b.bufSize
  here : b'.chans[id]? = b.chans[id]?.map f
  others : ∀ j, j ≠ id → b'.chans[j]? = b.chans[j]?

theorem touched_none {f : Chan TraceEvent → Chan TraceEvent} {id : Nat} {b : TraceBus}
    (sound : Sound b) (fixed : ∀ c, b.chans[id]? = some c → f c = c) : Touched f id b b where
  sound := sound
  size := rfl
  here := by
    cases there : b.chans[id]? with
    | none => rfl
    | some c => rw [Option.map_some, fixed c there]
  others _ _ := rfl

theorem unsubscribe_touches {b : TraceBus} (sound : Sound b) (id : Nat) :
    ∃ b', b.unsubscribe id = some b' ∧ Touched Alone.close id b b' := by
  obtain ⟨b', closes, sound'⟩ := sound_unsubscribe sound id
  refine ⟨b', closes, ?_⟩
  by_cases mem : id ∈ b.subs
  · obtain ⟨c, there, leaves⟩ := unsubscribe_closes sound mem
    have inside : id < b.chans.length := (List.getElem?_eq_some_iff.mp there).1
    rw [leaves] at closes
    cases closes
    refine ⟨sound', rfl, ?_, fun j apart => List.getElem?_set_ne (Ne.symm apart)⟩
    rw [there]
    exact List.getElem?_set_self inside
  · simp only [unsubscribe, mem, if_false, Option.some.injEq] at closes
    subst b'
    refine touched_none sound ?_
    intro c there
    have closed : c.closed = true := by
      by_contra open_
      exact mem ((sound.opened id c there).mp (by simpa using open_))
    rw [Alone.close, ← closed]

theorem receive_touches {b : TraceBus} (sound : Sound b) (id : Nat) :
    Touched Alone.pop id b (b.receive id) := by
  have sound' := sound_receive sound id
  cases waiting : b.bufOf id with
  | nil =>
    rw [receive_waits waiting]
    refine touched_none sound ?_
    intro c there
    have empty : c.buf = [] := by simpa [bufOf, there] using waiting
    rw [Alone.pop, empty, List.tail_nil, ← empty]
  | cons v rest =>
    obtain ⟨c, there, takes⟩ := receive_takes waiting
    have inside : id < b.chans.length := (List.getElem?_eq_some_iff.mp there).1
    have buf : c.buf = v :: rest := by simpa [bufOf, there] using waiting
    rw [takes] at sound' ⊢
    refine ⟨sound', rfl, ?_, fun j apart => List.getElem?_set_ne (Ne.symm apart)⟩
    rw [there, Option.map_some, Alone.pop, buf]
    exact List.getElem?_set_self inside

theorem isolated_other {bufSize : Nat} {s : Shared} {cs : List (Chan TraceEvent)} {b : TraceBus}
    {f : Chan TraceEvent → Chan TraceEvent} {id : Nat} (isolated : Isolated bufSize s cs)
    (foreign : id ∉ s.own) (touched : Touched f id s.bus b) : Isolated bufSize ⟨b, s.own⟩ cs where
  sound := touched.sound
  size := touched.size.trans isolated.size
  distinct := isolated.distinct
  length := isolated.length
  same k j here := by
    have apart : j ≠ id := fun same => foreign (same ▸ List.mem_of_getElem? here)
    rw [touched.others j apart]
    exact isolated.same k j here

theorem isolated_own {bufSize : Nat} {s : Shared} {cs : List (Chan TraceEvent)} {b : TraceBus}
    {f : Chan TraceEvent → Chan TraceEvent} {k id : Nat} (isolated : Isolated bufSize s cs)
    (mine : s.own[k]? = some id) (touched : Touched f id s.bus b) :
    Isolated bufSize ⟨b, s.own⟩ (cs.modify k f) where
  sound := touched.sound
  size := touched.size.trans isolated.size
  distinct := isolated.distinct
  length := by
    rw [List.length_modify]
    exact isolated.length
  same j id' there := by
    rw [List.getElem?_modify]
    by_cases at_ : k = j
    · subst j
      cases mine.symm.trans there
      rw [touched.here, isolated.same k id mine]
      simp
    · have apart : id' ≠ id := by
        intro same
        obtain ⟨inside, _⟩ := List.getElem?_eq_some_iff.mp mine
        exact at_ ((List.getElem?_inj inside isolated.distinct).mp (mine.trans (same ▸ there.symm)))
      rw [touched.others id' apart, isolated.same j id' there]
      simp [at_]

theorem isolated_emit {bufSize : Nat} {s : Shared} {cs : List (Chan TraceEvent)}
    (isolated : Isolated bufSize s cs) (now : Int) (ev : TraceEvent) (range : RangeOrder) :
    ∃ b, s.bus.step (.emit now ev (range.visit s.bus.subs)) = some b ∧
      Isolated bufSize ⟨b, s.own⟩ (cs.map (Alone.hear (stamp now ev))) := by
  have visits := range.perm s.bus.subs
  obtain ⟨b, emits, sent⟩ := step_emit isolated.sound now ev visits
  refine ⟨b, emits, ?_⟩
  exact {
    sound := sound_sent isolated.sound sent
    size := sent.bufSize.trans isolated.size
    distinct := isolated.distinct
    length := by
      rw [List.length_map]
      exact isolated.length
    same := by
      intro k id here
      obtain ⟨c, at_, there⟩ := isolated_chan isolated here
      have open_ : id ∈ range.visit s.bus.subs ↔ c.closed = false := by
        rw [visits.mem_iff, isolated.sound.opened id c there]
      rw [sent.chans id, there, List.getElem?_map, at_]
      cases closed : c.closed with
      | true => simp [open_, closed, Alone.hear]
      | false => simp [open_, closed, Alone.hear] }

theorem isolated_subscribe {bufSize : Nat} {s : Shared} {cs : List (Chan TraceEvent)}
    (isolated : Isolated bufSize s cs) :
    Isolated bufSize ⟨s.bus.subscribe, s.own ++ [s.bus.chans.length]⟩ (cs ++ [make bufSize]) := by
  refine ⟨sound_subscribe isolated.sound, isolated.size, ?_, ?_, ?_⟩
  · refine List.nodup_append.mpr ⟨isolated.distinct, by simp, ?_⟩
    intro x mem y new same
    rw [List.mem_singleton.mp new] at same
    exact Nat.lt_irrefl _ (same ▸ isolated_old isolated mem)
  · simp [isolated.length]
  · intro k id here
    rcases Nat.lt_or_ge k s.own.length with before | after
    · rw [List.getElem?_append_left before] at here
      have inside := isolated_old isolated (List.mem_of_getElem? here)
      have before' : k < cs.length := isolated.length ▸ before
      rw [subscribe, List.getElem?_append_left inside, List.getElem?_append_left before']
      exact isolated.same k id here
    · have at_ : k = s.own.length := by
        have bound := (List.getElem?_eq_some_iff.mp here).1
        simp only [List.length_append, List.length_singleton] at bound
        omega
      rw [at_, List.getElem?_concat_length] at here
      cases here
      rw [at_, isolated.length, subscribe, List.getElem?_concat_length, List.getElem?_concat_length,
        isolated.size]

theorem isolated_received {bufSize : Nat} {s : Shared} {cs : List (Chan TraceEvent)}
    (isolated : Isolated bufSize s cs) (turn : Turn) :
    s.received turn = turn.seen.elim [] (Alone.received cs) := by
  cases turn with
  | emit | other => rfl
  | own op =>
    cases op with
    | subscribe | unsubscribe => rfl
    | receive k =>
      simp only [Shared.received, Turn.seen, Option.elim_some, Alone.received]
      cases mine : s.own[k]? with
      | none =>
        have beyond : cs.length ≤ k := isolated.length ▸ List.getElem?_eq_none_iff.mp mine
        rw [List.getElem?_eq_none beyond]
        rfl
      | some id => simp [taken, bufOf, isolated.same k id mine]

/-- A turn does on the shared bus what the subscriber, alone, sees of it. -/
theorem isolated_step {bufSize : Nat} {s : Shared} {cs : List (Chan TraceEvent)}
    (isolated : Isolated bufSize s cs) (turn : Turn) :
    ∃ s', s.step turn = some s' ∧
      Isolated bufSize s' (turn.seen.elim cs (Alone.step bufSize cs)) := by
  have sound := isolated.sound
  cases turn with
  | emit now ev range =>
    obtain ⟨b, emits, next⟩ := isolated_emit isolated now ev range
    exact ⟨⟨b, s.own⟩, by simp [Shared.step, Shared.busOp, Shared.gained, emits], next⟩
  | own op =>
    cases op with
    | subscribe => exact ⟨_, rfl, isolated_subscribe isolated⟩
    | unsubscribe k =>
      cases mine : s.own[k]? with
      | none =>
        have beyond : cs.length ≤ k := isolated.length ▸ List.getElem?_eq_none_iff.mp mine
        refine ⟨s, by simp [Shared.step, Shared.busOp, mine], ?_⟩
        simpa [Turn.seen, Alone.step, List.modify_eq_self beyond] using isolated
      | some id =>
        obtain ⟨b, closes, touched⟩ := unsubscribe_touches sound id
        refine ⟨⟨b, s.own⟩, ?_, isolated_own isolated mine touched⟩
        simp [Shared.step, Shared.busOp, Shared.gained, mine, TraceBus.step, closes]
    | receive k =>
      cases mine : s.own[k]? with
      | none =>
        have beyond : cs.length ≤ k := isolated.length ▸ List.getElem?_eq_none_iff.mp mine
        refine ⟨s, by simp [Shared.step, Shared.busOp, mine], ?_⟩
        simpa [Turn.seen, Alone.step, List.modify_eq_self beyond] using isolated
      | some id =>
        refine ⟨⟨s.bus.receive id, s.own⟩, ?_, isolated_own isolated mine (receive_touches sound id)⟩
        simp [Shared.step, Shared.busOp, Shared.gained, mine, TraceBus.step]
  | other op =>
    cases op with
    | subscribe =>
      refine ⟨⟨s.bus.subscribe, s.own⟩, by simp [Shared.step, Shared.busOp, Shared.gained,
        TraceBus.step], ?_⟩
      refine ⟨sound_subscribe sound, isolated.size, isolated.distinct, isolated.length, ?_⟩
      intro k id here
      have inside := isolated_old isolated (List.mem_of_getElem? here)
      rw [subscribe, List.getElem?_append_left inside]
      exact isolated.same k id here
    | unsubscribe id =>
      by_cases mine : id ∈ s.own
      · exact ⟨s, by simp [Shared.step, Shared.busOp, mine], isolated⟩
      · obtain ⟨b, closes, touched⟩ := unsubscribe_touches sound id
        refine ⟨⟨b, s.own⟩, ?_, isolated_other isolated mine touched⟩
        simp [Shared.step, Shared.busOp, Shared.gained, mine, TraceBus.step, closes]
    | receive id =>
      by_cases mine : id ∈ s.own
      · exact ⟨s, by simp [Shared.step, Shared.busOp, mine], isolated⟩
      · refine ⟨⟨s.bus.receive id, s.own⟩, ?_,
          isolated_other isolated mine (receive_touches sound id)⟩
        simp [Shared.step, Shared.busOp, Shared.gained, mine, TraceBus.step]

/-- An execution never panics, and the subscriber receives what it would receive alone. -/
theorem receives_alone (bufSize : Int) (turns : List Turn) :
    history Shared.step Shared.received ⟨newTraceBus bufSize, []⟩ turns =
        history (fun cs seen => some (Alone.step (newTraceBus bufSize).bufSize cs seen))
          Alone.received [] (turns.filterMap Turn.seen) ∧
      ∃ s, tryRun Shared.step ⟨newTraceBus bufSize, []⟩ turns = some s := by
  have followed := tryRun_follows (R := Isolated (newTraceBus bufSize).bufSize)
    (fun s cs turn isolated => ⟨isolated_received isolated turn, isolated_step isolated turn⟩)
    (isolated_start bufSize) turns
  obtain ⟨received, s, ran, _⟩ := followed
  exact ⟨received, s, ran⟩

/-- Two executions with the same emitted events and the same operations of one
    subscriber, each at the same points, give it the same events in the same order,
    whatever the others do and however the map is visited. -/
theorem subscriber_isolation (bufSize : Int) (xs ys : List Turn)
    (same : xs.filterMap Turn.seen = ys.filterMap Turn.seen) :
    ∃ s t, tryRun Shared.step ⟨newTraceBus bufSize, []⟩ xs = some s ∧
      tryRun Shared.step ⟨newTraceBus bufSize, []⟩ ys = some t ∧
      history Shared.step Shared.received ⟨newTraceBus bufSize, []⟩ xs =
        history Shared.step Shared.received ⟨newTraceBus bufSize, []⟩ ys := by
  obtain ⟨left, s, ranLeft⟩ := receives_alone bufSize xs
  obtain ⟨right, t, ranRight⟩ := receives_alone bufSize ys
  refine ⟨s, t, ranLeft, ranRight, ?_⟩
  rw [left, right, same]

def keysInOrder : RangeOrder := ⟨id, fun keys => .refl keys⟩

def keysReversed : RangeOrder := ⟨List.reverse, List.reverse_perm⟩

def requested : TraceEvent := newEvent "portal" "portal.resolve.requested" []

/-- A stalled subscriber, and one that leaves in mid-run, beside one that receives. -/
theorem stalled_neighbour_unnoticed :
    ∃ s t,
      tryRun Shared.step ⟨newTraceBus 1, []⟩ [.other .subscribe, .own .subscribe,
        .emit 5 requested keysInOrder, .other (.unsubscribe 0), .own (.receive 0)] = some s ∧
      tryRun Shared.step ⟨newTraceBus 1, []⟩ [.own .subscribe, .other .subscribe,
        .emit 5 requested keysReversed, .other (.receive 0), .own (.receive 0)] = some t ∧
      history Shared.step Shared.received ⟨newTraceBus 1, []⟩ [.other .subscribe, .own .subscribe,
        .emit 5 requested keysInOrder, .other (.unsubscribe 0), .own (.receive 0)] =
      history Shared.step Shared.received ⟨newTraceBus 1, []⟩ [.own .subscribe, .other .subscribe,
        .emit 5 requested keysReversed, .other (.receive 0), .own (.receive 0)] :=
  subscriber_isolation 1 _ _ rfl

end SwaBus
