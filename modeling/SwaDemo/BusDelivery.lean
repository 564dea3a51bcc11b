import SwaDemo.TraceBus

/-!
What a subscriber of the trace bus gets, whatever the others do. The subscriber map
holds open channels only, so neither `Emit` nor `Unsubscribe` panics; and each
channel's account is fair.
-/
namespace SwaBus
open GoChannel SwaTrace Runs TraceBus

/-- The map has no key twice and holds exactly the channels that are open. -/
structure Sound (b : TraceBus) : Prop where
  distinct : b.subs.Nodup
  known : ∀ id ∈ b.subs, id < b.chans.length
  opened : ∀ (id : Nat) (ch : Chan TraceEvent), b.chans[id]? = some ch →
    (ch.closed = false ↔ id ∈ b.subs)
  sized : ∀ (id : Nat) (ch : Chan TraceEvent), b.chans[id]? = some ch → ch.cap = b.bufSize

theorem sound_start (bufSize : Int) : Sound (newTraceBus bufSize) where
  distinct := List.nodup_nil
  known := fun _ h => nomatch h
  opened := fun id ch h => by simp [newTraceBus] at h
  sized := fun id ch h => by simp [newTraceBus] at h

theorem sound_chan {b : TraceBus} (sound : Sound b) {id : Nat} (mem : id ∈ b.subs) :
    ∃ ch, b.chans[id]? = some ch ∧ ch.closed = false ∧ ch.cap = b.bufSize := by
  have inside := sound.known id mem
  have at_ := List.getElem?_eq_getElem inside
  exact ⟨_, at_, (sound.opened id _ at_).mpr mem, sound.sized id _ at_⟩

/-- What `Emit` leaves behind: the event is offered to each channel it visits. -/
structure Sent (ev : TraceEvent) (order : List Nat) (b b' : TraceBus) : Prop where
  subs : b'.subs = b.subs
  bufSize : b'.bufSize = b.bufSize
  length : b'.chans.length = b.chans.length
  chans : ∀ id, b'.chans[id]? =
    if id ∈ order then b.chans[id]?.map (Chan.offer ev) else b.chans[id]?

theorem sendAll_sent {ev : TraceEvent} {order : List Nat} {b : TraceBus} (distinct : order.Nodup)
    (opened : ∀ id ∈ order, ∃ ch, b.chans[id]? = some ch ∧ ch.closed = false) :
    ∃ b', sendAll ev order b = some b' ∧ Sent ev order b b' := by
  induction order generalizing b with
  | nil => exact ⟨b, rfl, rfl, rfl, rfl, fun id => by simp⟩
  | cons id order ih =>
    obtain ⟨fresh, distinct⟩ := List.nodup_cons.mp distinct
    obtain ⟨ch, here, open_⟩ := opened id (by simp)
    let next : TraceBus := { b with chans := b.chans.set id (ch.offer ev) }
    have visits : onChan (Chan.trySend ev) id b = some next := by
      simp [onChan, here, Chan.trySend, open_, next]
    have inside : id < b.chans.length := (List.getElem?_eq_some_iff.mp here).1
    have others (k : Nat) (other : k ≠ id) : next.chans[k]? = b.chans[k]? :=
      List.getElem?_set_ne (Ne.symm other)
    obtain ⟨b', sends, sent⟩ := ih (b := next) distinct (by
      intro k mem
      rw [others k (fun same => fresh (same ▸ mem))]
      exact opened k (by simp [mem]))
    refine ⟨b', by rw [sendAll, visits]; exact sends, sent.subs, sent.bufSize, ?_, ?_⟩
    · rw [sent.length]
      simp [next]
    · intro k
      rw [sent.chans k]
      by_cases same : k = id
      · subst k
        have now : next.chans[id]? = some (ch.offer ev) := List.getElem?_set_self inside
        simp [fresh, now, here]
      · rw [others k same]
        simp [same]

theorem emit_sent {b : TraceBus} (sound : Sound b) (now : Int) (ev : TraceEvent) {order : List Nat}
    (visits : order.Perm b.subs) :
    ∃ b', b.emit now ev order = some b' ∧ Sent (stamp now ev) order b b' := by
  refine sendAll_sent (visits.nodup_iff.mpr sound.distinct) ?_
  intro id mem
  obtain ⟨ch, here, open_, _⟩ := sound_chan sound (visits.mem_iff.mp mem)
  exact ⟨ch, here, open_⟩

theorem step_emit {b : TraceBus} (sound : Sound b) (now : Int) (ev : TraceEvent) {order : List Nat}
    (visits : order.Perm b.subs) :
    ∃ b', b.step (.emit now ev order) = some b' ∧ Sent (stamp now ev) order b b' := by
  obtain ⟨b', sends, sent⟩ := emit_sent sound now ev visits
  exact ⟨b', by rw [step, if_pos visits, sends], sent⟩

/-- An order that is not one of the map's leaves the bus as it is. -/
theorem emit_cases {b b' : TraceBus} (sound : Sound b) {now : Int} {ev : TraceEvent}
    {order : List Nat} (steps : b.step (.emit now ev order) = some b') :
    order.Perm b.subs ∧ Sent (stamp now ev) order b b' ∨ ¬ order.Perm b.subs ∧ b' = b := by
  by_cases visits : order.Perm b.subs
  · obtain ⟨next, emits, sent⟩ := step_emit sound now ev visits
    cases emits.symm.trans steps
    exact Or.inl ⟨visits, sent⟩
  · rw [step, if_neg visits] at steps
    cases steps
    exact Or.inr ⟨visits, rfl⟩

theorem sound_same {b b' : TraceBus} (sound : Sound b) (subs : b'.subs = b.subs)
    (bufSize : b'.bufSize = b.bufSize) (length : b'.chans.length = b.chans.length)
    (account : ∀ (id : Nat) (ch : Chan TraceEvent), b'.chans[id]? = some ch →
      ∃ old, b.chans[id]? = some old ∧ ch.closed = old.closed ∧ ch.cap = old.cap) : Sound b' := by
  refine ⟨?_, ?_, ?_, ?_⟩
  · rw [subs]
    exact sound.distinct
  · rw [subs, length]
    exact sound.known
  · intro id ch here
    obtain ⟨old, was, closed, _⟩ := account id ch here
    rw [subs, closed]
    exact sound.opened id old was
  · intro id ch here
    obtain ⟨old, was, _, cap⟩ := account id ch here
    rw [bufSize, cap]
    exact sound.sized id old was

theorem sound_sent {ev : TraceEvent} {order : List Nat} {b b' : TraceBus} (sound : Sound b)
    (sent : Sent ev order b b') : Sound b' := by
  refine sound_same sound sent.subs sent.bufSize sent.length ?_
  intro id ch here
  rw [sent.chans id] at here
  split at here
  · obtain ⟨old, was, rfl⟩ := Option.map_eq_some_iff.mp here
    exact ⟨old, was, rfl, rfl⟩
  · exact ⟨ch, here, rfl, rfl⟩

theorem sound_subscribe {b : TraceBus} (sound : Sound b) : Sound b.subscribe := by
  have fresh : b.chans.length ∉ b.subs := fun mem => Nat.lt_irrefl _ (sound.known _ mem)
  have account (id : Nat) (ch : Chan TraceEvent) (here : b.subscribe.chans[id]? = some ch) :
      b.chans[id]? = some ch ∧ id ≠ b.chans.length ∨ ch = make b.bufSize ∧ id = b.chans.length := by
    rcases Nat.lt_trichotomy id b.chans.length with old | rfl | beyond
    · rw [subscribe, List.getElem?_append_left old] at here
      exact Or.inl ⟨here, by omega⟩
    · rw [subscribe, List.getElem?_concat_length] at here
      exact Or.inr ⟨(Option.some.inj here).symm, rfl⟩
    · rw [subscribe, List.getElem?_eq_none (by simp; omega)] at here
      contradiction
  refine ⟨?_, ?_, ?_, ?_⟩
  · refine List.nodup_append.mpr ⟨sound.distinct, by simp, ?_⟩
    intro x old y new same
    rw [List.mem_singleton.mp new] at same
    exact fresh (same ▸ old)
  · intro id mem
    simp only [subscribe, List.mem_append, List.mem_singleton, List.length_append,
      List.length_singleton] at mem ⊢
    rcases mem with old | rfl
    · have := sound.known id old
      omega
    · omega
  · intro id ch here
    simp only [subscribe, List.mem_append, List.mem_singleton]
    rcases account id ch here with ⟨was, other⟩ | ⟨rfl, rfl⟩
    · simp [sound.opened id ch was, other]
    · simp [make]
  · intro id ch here
    rcases account id ch here with ⟨was, _⟩ | ⟨rfl, rfl⟩
    · exact sound.sized id ch was
    · rfl

theorem unsubscribe_closes {b : TraceBus} (sound : Sound b) {id : Nat} (mem : id ∈ b.subs) :
    ∃ ch, b.chans[id]? = some ch ∧ b.unsubscribe id = some { b with
      chans := b.chans.set id { ch with closed := true }
      subs := b.subs.erase id } := by
  obtain ⟨ch, here, open_, _⟩ := sound_chan sound mem
  refine ⟨ch, here, ?_⟩
  simp [unsubscribe, mem, onChan, here, Chan.close, open_]

theorem sound_unsubscribe {b : TraceBus} (sound : Sound b) (id : Nat) :
    ∃ b', b.unsubscribe id = some b' ∧ Sound b' := by
  by_cases mem : id ∈ b.subs
  · obtain ⟨ch, here, closes⟩ := unsubscribe_closes sound mem
    have inside : id < b.chans.length := (List.getElem?_eq_some_iff.mp here).1
    have account (k : Nat) (c : Chan TraceEvent)
        (after : (b.chans.set id { ch with closed := true })[k]? = some c) :
        k = id ∧ c = { ch with closed := true } ∨ k ≠ id ∧ b.chans[k]? = some c := by
      rw [List.getElem?_set] at after
      by_cases same : id = k
      · rw [if_pos same, if_pos inside] at after
        exact Or.inl ⟨same.symm, (Option.some.inj after).symm⟩
      · rw [if_neg same] at after
        exact Or.inr ⟨Ne.symm same, after⟩
    refine ⟨_, closes, sound.distinct.erase id, ?_, ?_, ?_⟩
    · intro k left
      rw [List.length_set]
      exact sound.known k (List.mem_of_mem_erase left)
    · intro k c after
      rw [sound.distinct.mem_erase_iff]
      rcases account k c after with ⟨rfl, rfl⟩ | ⟨other, was⟩
      · simp
      · simp [other, sound.opened k c was]
    · intro k c after
      rcases account k c after with ⟨rfl, rfl⟩ | ⟨_, was⟩
      · exact sound.sized k ch here
      · exact sound.sized k c was
  · exact ⟨b, by simp [unsubscribe, mem], sound⟩

theorem receive_takes {b : TraceBus} {id : Nat} {v : TraceEvent} {rest : List TraceEvent}
    (waiting : b.bufOf id = v :: rest) :
    ∃ ch, b.chans[id]? = some ch ∧
      b.receive id = { b with chans := b.chans.set id { ch with buf := rest } } := by
  unfold bufOf at waiting
  cases here : b.chans[id]? with
  | none => simp [here] at waiting
  | some ch =>
    have buf : ch.buf = v :: rest := by simpa [here] using waiting
    exact ⟨ch, rfl, by simp [receive, here, Chan.recv, buf]⟩

theorem receive_waits {b : TraceBus} {id : Nat} (empty : b.bufOf id = []) : b.receive id = b := by
  unfold bufOf at empty
  cases here : b.chans[id]? with
  | none => simp [receive, here]
  | some ch =>
    have buf : ch.buf = [] := by simpa [here] using empty
    simp [receive, here, Chan.recv, buf]

theorem receive_frame (b : TraceBus) (k : Nat) :
    (b.receive k).subs = b.subs ∧ (b.receive k).bufSize = b.bufSize ∧
      (b.receive k).chans.length = b.chans.length := by
  cases waiting : b.bufOf k with
  | nil =>
    rw [receive_waits waiting]
    exact ⟨rfl, rfl, rfl⟩
  | cons v rest =>
    obtain ⟨ch, _, takes⟩ := receive_takes waiting
    rw [takes]
    exact ⟨rfl, rfl, List.length_set⟩

theorem receive_subs (b : TraceBus) (k : Nat) : (b.receive k).subs = b.subs :=
  (receive_frame b k).1

theorem receive_bufSize (b : TraceBus) (k : Nat) : (b.receive k).bufSize = b.bufSize :=
  (receive_frame b k).2.1

theorem receive_length (b : TraceBus) (k : Nat) : (b.receive k).chans.length = b.chans.length :=
  (receive_frame b k).2.2

theorem sound_receive {b : TraceBus} (sound : Sound b) (id : Nat) : Sound (b.receive id) := by
  cases waiting : b.bufOf id with
  | nil =>
    rw [receive_waits waiting]
    exact sound
  | cons v rest =>
    obtain ⟨ch, here, takes⟩ := receive_takes waiting
    rw [takes]
    refine sound_same sound rfl rfl (by simp) ?_
    intro k c after
    simp only [List.getElem?_set] at after
    split at after
    · rename_i same
      subst same
      split at after
      · cases after
        exact ⟨ch, here, rfl, rfl⟩
      · contradiction
    · exact ⟨c, after, rfl, rfl⟩

/-- No step panics, and the map still holds exactly the open channels. -/
theorem sound_step (b : TraceBus) (op : BusOp) (sound : Sound b) :
    ∃ b', b.step op = some b' ∧ Sound b' := by
  cases op with
  | subscribe => exact ⟨_, rfl, sound_subscribe sound⟩
  | unsubscribe id => exact sound_unsubscribe sound id
  | emit now ev order =>
    by_cases visits : order.Perm b.subs
    · obtain ⟨b', emits, sent⟩ := step_emit sound now ev visits
      exact ⟨b', emits, sound_sent sound sent⟩
    · exact ⟨b, by simp [step, visits], sound⟩
  | receive id => exact ⟨_, rfl, sound_receive sound id⟩

theorem subscribe_bufOf (b : TraceBus) (id : Nat) : b.subscribe.bufOf id = b.bufOf id := by
  rcases Nat.lt_trichotomy id b.chans.length with old | rfl | beyond
  · simp [bufOf, subscribe, List.getElem?_append_left old]
  · simp [bufOf, subscribe, make]
  · simp [bufOf, subscribe, List.getElem?_eq_none (Nat.le_of_lt beyond)]
    rw [List.getElem?_eq_none (by simp; omega)]
    rfl

theorem unsubscribe_bufOf {b b' : TraceBus} (sound : Sound b) {k : Nat}
    (closes : b.unsubscribe k = some b') (id : Nat) : b'.bufOf id = b.bufOf id := by
  by_cases mem : k ∈ b.subs
  · obtain ⟨ch, here, leaves⟩ := unsubscribe_closes sound mem
    rw [leaves] at closes
    cases closes
    by_cases same : k = id
    · subst same
      have inside : k < b.chans.length := (List.getElem?_eq_some_iff.mp here).1
      simp only [bufOf, List.getElem?_set_self inside, here, Option.elim_some]
    · simp [bufOf, List.getElem?_set_ne same]
  · simp only [unsubscribe, mem, if_false, Option.some.injEq] at closes
    rw [closes]

theorem receive_bufOf (b : TraceBus) (k id : Nat) :
    (b.receive k).bufOf id = if k = id then (b.bufOf id).tail else b.bufOf id := by
  cases waiting : b.bufOf k with
  | nil =>
    rw [receive_waits waiting]
    split
    · rename_i same
      subst same
      rw [waiting]
      rfl
    · rfl
  | cons v rest =>
    obtain ⟨ch, here, takes⟩ := receive_takes waiting
    have inside : k < b.chans.length := (List.getElem?_eq_some_iff.mp here).1
    rw [takes]
    by_cases same : k = id
    · subst same
      rw [if_pos rfl, waiting]
      simp only [bufOf, List.getElem?_set_self inside, Option.elim_some, List.tail_cons]
    · simp only [bufOf, List.getElem?_set_ne same, if_neg same]

theorem sent_bufOf {ev : TraceEvent} {order : List Nat} {b b' : TraceBus} (sound : Sound b)
    (sent : Sent ev order b b') (visits : order.Perm b.subs) (id : Nat) :
    b'.bufOf id =
      if id ∈ b.subs ∧ (b.bufOf id).length < b.bufSize then b.bufOf id ++ [ev] else b.bufOf id := by
  unfold bufOf
  rw [sent.chans id]
  by_cases mem : id ∈ b.subs
  · obtain ⟨ch, here, _, cap⟩ := sound_chan sound mem
    simp [visits.mem_iff, mem, here, Chan.offer, cap]
  · simp [visits.mem_iff, mem]

theorem unsubscribe_frame {b b' : TraceBus} (sound : Sound b) {k : Nat}
    (closes : b.unsubscribe k = some b') : b'.subs = b.subs.erase k ∧ b'.bufSize = b.bufSize ∧
      b'.chans.length = b.chans.length := by
  by_cases mem : k ∈ b.subs
  · obtain ⟨_, _, leaves⟩ := unsubscribe_closes sound mem
    rw [leaves] at closes
    cases closes
    exact ⟨rfl, rfl, List.length_set⟩
  · simp only [unsubscribe, mem, if_false, Option.some.injEq] at closes
    subst closes
    exact ⟨(List.erase_of_not_mem mem).symm, rfl, rfl⟩

/-- What an operation puts in the channel `id`: the event, where there is room. -/
def placed (id : Nat) (b : TraceBus) : BusOp → List TraceEvent
  | .emit now ev order =>
    if order.Perm b.subs ∧ id ∈ b.subs ∧ (b.bufOf id).length < b.bufSize then [stamp now ev] else []
  | _ => []

theorem step_places {b b' : TraceBus} {op : BusOp} (sound : Sound b) (steps : b.step op = some b')
    (id : Nat) : taken id b op ++ b'.bufOf id = b.bufOf id ++ placed id b op := by
  cases op with
  | subscribe =>
    cases steps
    simp [subscribe_bufOf, taken, placed]
  | unsubscribe k => simp [unsubscribe_bufOf sound steps id, taken, placed]
  | emit now ev order =>
    rcases emit_cases sound steps with ⟨visits, sent⟩ | ⟨visits, rfl⟩
    · rw [sent_bufOf sound sent visits]
      by_cases fits : id ∈ b.subs ∧ (b.bufOf id).length < b.bufSize
      · simp [taken, placed, visits, fits]
      · rw [if_neg fits]
        simp [taken, placed, visits, fits]
    · simp [taken, placed, visits]
  | receive k =>
    cases steps
    rw [receive_bufOf]
    by_cases same : k = id
    · subst same
      cases waiting : b.bufOf k with
      | nil => simp [taken, placed, waiting]
      | cons v rest => simp [taken, placed, waiting]
    · simp [taken, placed, same]

/-! ## Subscriptions -/

/-- The channel `id` was made by the `Subscribe` that had so many before it, and no `Unsubscribe`
    of it came since. -/
def Subscribed (id : Nat) (done : List BusOp) : Prop :=
  ∃ before later, done = before ++ .subscribe :: later ∧ before.count .subscribe = id ∧
    .unsubscribe id ∉ later

theorem subscribed_nil (id : Nat) : ¬ Subscribed id [] := by
  rintro ⟨before, later, split, _⟩
  simp at split

theorem subscribed_concat (id : Nat) (done : List BusOp) (op : BusOp) :
    Subscribed id (done ++ [op]) ↔
      op = .subscribe ∧ id = done.count .subscribe ∨ op ≠ .unsubscribe id ∧ Subscribed id done := by
  constructor
  · rintro ⟨before, later, split, rank, kept⟩
    rcases List.eq_nil_or_concat later with rfl | ⟨later, last, rfl⟩
    · obtain ⟨rfl, new⟩ := List.append_inj' split rfl
      exact Or.inl ⟨List.singleton_inj.mp new, rank.symm⟩
    · rw [List.concat_eq_append, ← List.cons_append, ← List.append_assoc] at split
      obtain ⟨rfl, same⟩ := List.append_inj' split rfl
      cases List.singleton_inj.mp same
      simp only [List.concat_eq_append, List.mem_append, List.mem_singleton, not_or] at kept
      exact Or.inr ⟨Ne.symm kept.2, before, later, rfl, rank, kept.1⟩
  · rintro (⟨rfl, rfl⟩ | ⟨other, before, later, rfl, rank, kept⟩)
    · exact ⟨done, [], rfl, rfl, by simp⟩
    · refine ⟨before, later ++ [op], by simp, rank, ?_⟩
      simp [kept, Ne.symm other]

instance decidableSubscribed (id : Nat) (done : List BusOp) : Decidable (Subscribed id done) :=
  decidable_of_iff (∃ i < done.length, done[i]? = some .subscribe ∧
      (done.take i).count .subscribe = id ∧ .unsubscribe id ∉ done.drop (i + 1)) <| by
    constructor
    · rintro ⟨i, inside, here, rank, kept⟩
      obtain ⟨_, here⟩ := List.getElem?_eq_some_iff.mp here
      exact ⟨done.take i, done.drop (i + 1), by rw [← here]; simp, rank, kept⟩
    · rintro ⟨before, later, rfl, rank, kept⟩
      exact ⟨before.length, by simp, by simp, by simpa using rank, by simpa using kept⟩

/-- The channels that are subscribed after `done`. -/
def subscribers (done : List BusOp) : List Nat :=
  (List.range (done.count .subscribe)).filter (Subscribed · done)

theorem mem_subscribers {id : Nat} {done : List BusOp} :
    id ∈ subscribers done ↔ Subscribed id done := by
  simp only [subscribers, List.mem_filter, List.mem_range, decide_eq_true_eq, and_iff_right_iff_imp]
  rintro ⟨before, later, rfl, rfl, _⟩
  simp

/-- The bus knows the channels made so far, and its map those that are subscribed. -/
structure Registered (b : TraceBus) (done : List BusOp) : Prop where
  made : b.chans.length = done.count .subscribe
  subs : ∀ id, id ∈ b.subs ↔ Subscribed id done

theorem registered_start (bufSize : Int) : Registered (newTraceBus bufSize) [] :=
  ⟨rfl, fun id => by simp [newTraceBus, subscribed_nil]⟩

theorem Registered.visits {b : TraceBus} {done : List BusOp} (registered : Registered b done)
    (sound : Sound b) (order : List Nat) : order.Perm b.subs ↔ order.Perm (subscribers done) := by
  have same : b.subs.Perm (subscribers done) :=
    (List.perm_ext_iff_of_nodup sound.distinct (List.nodup_range.filter _)).mpr fun id =>
      (registered.subs id).trans mem_subscribers.symm
  exact ⟨fun p => p.trans same, fun p => p.trans same.symm⟩

/-- An operation other than `Subscribe` that leaves the map alone, but for the channel it closes. -/
theorem registered_other {b b' : TraceBus} {done : List BusOp} (registered : Registered b done)
    {op : BusOp} (other : op ≠ .subscribe) (length : b'.chans.length = b.chans.length)
    (subs : ∀ id, id ∈ b'.subs ↔ op ≠ .unsubscribe id ∧ id ∈ b.subs) :
    Registered b' (done ++ [op]) where
  made := by
    have none_ : [op].count .subscribe = 0 := List.count_eq_zero.mpr (by simpa using Ne.symm other)
    rw [length, registered.made, List.count_append, none_, Nat.add_zero]
  subs id := by simp [subs, registered.subs, subscribed_concat, other]

theorem registered_step {b b' : TraceBus} {op : BusOp} (sound : Sound b) {done : List BusOp}
    (registered : Registered b done) (steps : b.step op = some b') :
    Registered b' (done ++ [op]) := by
  cases op with
  | subscribe =>
    cases steps
    refine ⟨by simp [subscribe, registered.made], fun id => ?_⟩
    rw [subscribed_concat, ← registered.subs, ← registered.made]
    simp [subscribe, or_comm]
  | unsubscribe k =>
    obtain ⟨subs, _, length⟩ := unsubscribe_frame sound steps
    refine registered_other registered (by simp) length fun id => ?_
    rw [subs, sound.distinct.mem_erase_iff]
    simp [eq_comm]
  | emit now ev order =>
    rcases emit_cases sound steps with ⟨_, sent⟩ | ⟨_, rfl⟩
    · exact registered_other registered (by simp) sent.length fun id => by simp [sent.subs]
    · exact registered_other registered (by simp) rfl fun id => by simp
  | receive k =>
    cases steps
    exact registered_other registered (by simp) (receive_length b k) fun id => by
      simp [receive_subs]

/-- How many events wait in the channel `id` after `done`. -/
def held (bufSize : Int) (id : Nat) (done : List BusOp) : Nat :=
  (tryRun step (newTraceBus bufSize) done).elim 0 fun b => (b.bufOf id).length

/-- The event that `op` emits, after `done`, if `id` is subscribed then. -/
def offer (bufSize : Int) (id : Nat) (done : List BusOp) : BusOp → List (Offer TraceEvent)
  | .emit now ev order =>
    if order.Perm (subscribers done) ∧ Subscribed id done then
      [⟨stamp now ev, held bufSize id done⟩]
    else []
  | _ => []

/-- The events that `ops` emit, after `done`, while `id` is subscribed. -/
def offers (bufSize : Int) (id : Nat) : List BusOp → List BusOp → List (Offer TraceEvent)
  | _, [] => []
  | done, op :: ops => offer bufSize id done op ++ offers bufSize id (done ++ [op]) ops

theorem offers_concat (bufSize : Int) (id : Nat) (done ops : List BusOp) (op : BusOp) :
    offers bufSize id done (ops ++ [op]) =
      offers bufSize id done ops ++ offer bufSize id (done ++ ops) op := by
  induction ops generalizing done with
  | nil => simp [offers]
  | cons first ops ih => simp [offers, ih]

theorem fair_step {bufSize : Int} {b b' : TraceBus} {done : List BusOp} {op : BusOp}
    (sound : Sound b) (registered : Registered b done)
    (ran : tryRun step (newTraceBus bufSize) done = some b) (steps : b.step op = some b') (id : Nat)
    {sent : List (Offer TraceEvent)} {received : List TraceEvent}
    (fair : Fair b.bufSize sent received (b.bufOf id)) :
    b'.bufSize = b.bufSize ∧
      Fair b.bufSize (sent ++ offer bufSize id done op) (received ++ taken id b op) (b'.bufOf id) := by
  cases op with
  | subscribe =>
    cases steps
    rw [subscribe_bufOf]
    exact ⟨rfl, by simpa [offer, taken] using fair⟩
  | unsubscribe k =>
    rw [unsubscribe_bufOf sound steps id]
    exact ⟨(unsubscribe_frame sound steps).2.1, by simpa [offer, taken] using fair⟩
  | emit now ev order =>
    simp only [offer, ← registered.visits sound, ← registered.subs, held, ran, Option.elim_some]
    rcases emit_cases sound steps with ⟨visits, sent⟩ | ⟨visits, rfl⟩
    · rw [sent_bufOf sound sent visits]
      refine ⟨sent.bufSize, ?_⟩
      by_cases mem : id ∈ b.subs
      · have grown := fair_offer fair (stamp now ev)
        simpa [taken, visits, mem] using grown
      · simpa [taken, mem] using fair
    · exact ⟨rfl, by simpa [taken, visits] using fair⟩
  | receive k =>
    cases steps
    rw [receive_bufOf, receive_bufSize]
    refine ⟨rfl, ?_⟩
    by_cases same : k = id
    · subst same
      cases waiting : b.bufOf k with
      | nil =>
        rw [waiting] at fair
        simpa [offer, taken, waiting] using fair
      | cons v rest =>
        rw [waiting] at fair
        simpa [offer, taken, waiting] using fair_receive fair
    · simpa [offer, taken, same] using fair

theorem fair_run (bufSize : Int) (id : Nat) (ops : List BusOp) :
    ∃ b, tryRun step (newTraceBus bufSize) ops = some b ∧ Sound b ∧ Registered b ops ∧
      b.bufSize = (newTraceBus bufSize).bufSize ∧
      Fair b.bufSize (offers bufSize id [] ops)
        (history step (taken id) (newTraceBus bufSize) ops) (b.bufOf id) := by
  induction ops using List.reverseRecOn with
  | nil =>
    exact ⟨_, rfl, sound_start bufSize, registered_start bufSize, rfl, fair_start _⟩
  | append_singleton ops op ih =>
    obtain ⟨b, ran, sound, registered, size, fair⟩ := ih
    obtain ⟨next, steps, kept⟩ := sound_step b op sound
    obtain ⟨same, account⟩ := fair_step sound registered ran steps id fair
    refine ⟨next, by rw [tryRun_concat, ran, Option.bind_some, steps], kept,
      registered_step sound registered steps, same.trans size, ?_⟩
    rw [offers_concat, history_concat, ran, Option.elim_some, List.nil_append, same]
    exact account

theorem newTraceBus_bufSize (bufSize : Int) :
    ((newTraceBus bufSize).bufSize : Int) = max 1 bufSize := by
  unfold newTraceBus
  dsimp only
  split <;> omega

/-- Whatever is done with a bus, in any order: nothing panics, no buffer outgrows
    `max 1 bufSize`, and what a subscriber has received and still has waiting are the events
    emitted between its `Subscribe` and its `Unsubscribe`, in order, less those that found its
    buffer full. -/
theorem trace_bus_delivery (bufSize : Int) (ops : List BusOp) :
    ∃ b, tryRun step (newTraceBus bufSize) ops = some b ∧ ∀ id : Nat,
      ((b.bufOf id).length : Int) ≤ max 1 bufSize ∧
      history step (taken id) (newTraceBus bufSize) ops ++ b.bufOf id =
        ((offers bufSize id [] ops).filter fun o => (o.held : Int) ≠ max 1 bufSize).map (·.value) ∧
      ∀ o ∈ offers bufSize id [] ops, (o.held : Int) ≤ max 1 bufSize := by
  have size := newTraceBus_bufSize bufSize
  obtain ⟨b, ran, _⟩ := tryRun_safe sound_step (sound_start bufSize) ops
  refine ⟨b, ran, fun id => ?_⟩
  obtain ⟨b', ran', _, _, same, fair⟩ := fair_run bufSize id ops
  rw [ran] at ran'
  cases ran'
  rw [same] at fair
  have bound := fair.bound
  refine ⟨by omega, ?_, ?_⟩
  · rw [fair.kept, ← size]
    congr 1
    refine List.filter_congr ?_
    intro o _
    have full : o.held ≠ (newTraceBus bufSize).bufSize ↔
        (o.held : Int) ≠ ((newTraceBus bufSize).bufSize : Int) := by omega
    exact decide_eq_decide.mpr full
  · intro o mem
    have held := fair.held o mem
    omega

end SwaBus
