import SwaDemo.TraceForwarding
import SwaDemo.FrameSplit

/-!
How often one event of the carrier reaches the portal's bus. Each stream has a
subscription of its own and nothing compares what they bring, so an event is
republished once for each stream that was subscribed when it was emitted, and never
more often.
-/
namespace SwaForward
open SwaTrace SwaFrames SwaBus Runs TraceBus

/-- The frame was read through one of the chosen streams and holds the first byte of
    a frame written for `e`. -/
def PortalEvent.carries (chosen : Nat → Bool) (e : TraceEvent) (p : PortalEvent) : Bool :=
  match p.via with
  | none => false
  | some (i, tags) => chosen i && decide ((e, 0) ∈ tags)

def copies (chosen : Nat → Bool) (e : TraceEvent) (s : Services) : Nat :=
  s.portal.countP (PortalEvent.carries chosen e)

def Stream.registered (chosen : Nat → Bool) (b : TraceBus) (st : Stream) : Bool :=
  chosen st.id && st.chan.any fun ch => decide (ch ∈ b.subs)

/-- At an emission of `e`: how many of the chosen streams are subscribed. -/
def registered (chosen : Nat → Bool) (e : TraceEvent) (s : Services) : Action → List Nat
  | .emit now ev order =>
    if order.Perm s.carrier.subs ∧ stamp now ev = e then
      [s.streams.countP (Stream.registered chosen s.carrier)]
    else []
  | _ => []

theorem splitTags_text {τ : Type} (before : Option UInt8) (res : List (GoString × List τ))
    (cur : GoString) (tags : List τ) (xs : List (UInt8 × τ)) :
    (splitTags before res cur tags xs).map (·.map Prod.fst) =
      splitLoop before (res.map Prod.fst) cur (xs.map Prod.fst) := by
  induction xs generalizing before res cur tags with
  | nil =>
    by_cases empty : cur = []
    · simp [splitTags, splitLoop, empty]
    · simp [splitTags, splitLoop, empty]
  | cons x xs ih =>
    obtain ⟨b, t⟩ := x
    simp only [splitTags, splitLoop, List.map_cons]
    split
    · split
      · rfl
      · rw [ih]
        simp
    · rw [ih]

/-- Every tag ends up in exactly one chunk. -/
theorem splitTags_tags {τ : Type} {before : Option UInt8} {res : List (GoString × List τ)}
    {cur : GoString} {tags : List τ} {xs : List (UInt8 × τ)} {out : List (GoString × List τ)}
    (aligned : cur = [] → tags = []) (splits : splitTags before res cur tags xs = some out) :
    (out.map Prod.snd).flatten = (res.map Prod.snd).flatten ++ tags ++ xs.map Prod.snd := by
  induction xs generalizing before res cur tags with
  | nil =>
    cases splits
    by_cases empty : cur = []
    · simp [empty, aligned empty]
    · simp [empty]
  | cons x xs ih =>
    obtain ⟨b, t⟩ := x
    have grown : cur ++ stringOfByte b ≠ [] := by
      have size := stringOfByte_length b
      intro none_
      have := congrArg List.length none_
      simp only [List.length_append, List.length_nil] at this
      omega
    simp only [splitTags] at splits
    split at splits
    · split at splits
      · contradiction
      · rw [ih (fun _ => rfl) splits]
        simp
    · rw [ih (fun none_ => absurd none_ grown) splits]
      simp

/-- The tags change nothing: the frames are those of `splitFrames`. -/
theorem splitTaggedFrames_text {τ : Type} (bytes : List (UInt8 × τ)) :
    (splitTaggedFrames bytes).map (·.map Prod.fst) = splitFrames (bytes.map Prod.fst) := by
  have text := splitTags_text none [] [] [] bytes
  rw [splitFrames, splitOnDoubleNewline, ← List.map_nil, ← text, splitTaggedFrames]
  cases splitTags none [] [] [] bytes with
  | none => rfl
  | some chunks =>
    have same : (fun chunk : GoString × List τ => (taggedFrame chunk).map Prod.fst) =
        frameOf ∘ Prod.fst := by
      funext chunk
      cases seen : frameOf chunk.1 <;> simp [taggedFrame, seen]
    simp only [Option.map_some, List.map_filterMap, List.filterMap_map, same]

theorem chunks_with_tag {τ : Type} [BEq τ] [LawfulBEq τ] [DecidableEq τ] (t : τ)
    (chunks : List (GoString × List τ)) :
    (chunks.filterMap taggedFrame).countP (fun frame => decide (t ∈ frame.2)) ≤
      (chunks.map Prod.snd).flatten.count t := by
  induction chunks with
  | nil => simp
  | cons chunk chunks ih =>
    rw [List.map_cons, List.flatten_cons, List.count_append]
    cases seen : frameOf chunk.1 with
    | none =>
      have dropped : taggedFrame chunk = none := by simp [taggedFrame, seen]
      rw [List.filterMap_cons_none dropped]
      omega
    | some frame =>
      have kept : taggedFrame chunk = some (frame, chunk.2) := by simp [taggedFrame, seen]
      rw [List.filterMap_cons_some kept, List.countP_cons]
      by_cases mem : t ∈ chunk.2
      · have := List.one_le_count_iff.mpr mem
        simp only [mem, decide_true, if_true]
        omega
      · simp only [mem, decide_false, Bool.false_eq_true, if_false]
        omega

theorem frames_with_tag {τ : Type} [BEq τ] [LawfulBEq τ] [DecidableEq τ] {bytes : List (UInt8 × τ)}
    {frames : List (GoString × List τ)} (t : τ) (splits : splitTaggedFrames bytes = some frames) :
    frames.countP (fun frame => decide (t ∈ frame.2)) ≤ (bytes.map Prod.snd).count t := by
  obtain ⟨chunks, cut, rfl⟩ := Option.map_eq_some_iff.mp splits
  have tags := splitTags_tags (fun _ => rfl) cut
  have few := chunks_with_tag t chunks
  rw [tags] at few
  simpa using few

theorem writtenFrame_tag (marshal : TraceEvent → Bytes) (ev e : TraceEvent) :
    ((writtenFrame marshal ev).map Prod.snd).count (e, 0) = if ev = e then 1 else 0 := by
  have shape : encodeFrame (marshal ev) =
      100 :: ([97, 116, 97, 58, 32] ++ marshal ev ++ [newline, newline]) := rfl
  have later : ∀ bytes : Bytes, ((bytes.zipIdx 1).map fun x => (ev, x.2)).count (e, 0) = 0 := by
    intro bytes
    refine List.count_eq_zero.mpr ?_
    intro mem
    obtain ⟨x, at_, same⟩ := List.mem_map.mp mem
    have place := List.le_snd_of_mem_zipIdx at_
    have first : x.2 = 0 := congrArg Prod.snd same
    omega
  have tags : (writtenFrame marshal ev).map Prod.snd =
      (encodeFrame (marshal ev)).zipIdx.map fun x => (ev, x.2) := by
    simp [writtenFrame]
  rw [tags, shape, List.zipIdx_cons, List.map_cons, List.count_cons, later]
  simp

theorem sum_set {α : Type} (g : α → Nat) {l : List α} {i : Nat} {old : α} (here : l[i]? = some old)
    (new : α) : ((l.set i new).map g).sum + g old = (l.map g).sum + g new := by
  induction l generalizing i with
  | nil => simp at here
  | cons x l ih =>
    cases i with
    | zero =>
      cases here
      simp only [List.set_cons_zero, List.map_cons, List.sum_cons]
      omega
    | succ i =>
      have rest := ih here
      simp only [List.set_cons_succ, List.map_cons, List.sum_cons]
      omega

theorem sum_le_countP {α : Type} {g g' : α → Nat} {p : α → Bool} (l : List α)
    (each : ∀ x, g' x ≤ g x + if p x then 1 else 0) :
    (l.map g').sum ≤ (l.map g).sum + l.countP p := by
  induction l with
  | nil => simp
  | cons x l ih =>
    have here := each x
    simp only [List.map_cons, List.sum_cons, List.countP_cons]
    split at here <;> simp_all <;> omega

/-- The copies of `e` still on their way through a chosen stream. -/
def onTheWay (chosen : Nat → Bool) (e : TraceEvent) (b : TraceBus) (st : Stream) : Nat :=
  if chosen st.id then
    (st.wire.map Prod.snd).count (e, 0) + st.chan.elim 0 fun ch => (b.bufOf ch).count e
  else 0

/-- The copies that were republished and those on their way. -/
def potential (chosen : Nat → Bool) (e : TraceEvent) (s : Services) : Nat :=
  copies chosen e s + (s.streams.map (onTheWay chosen e s.carrier)).sum

variable {chosen : Nat → Bool} {e : TraceEvent}

theorem onTheWay_congr {b b' : TraceBus} (same : ∀ ch, b'.bufOf ch = b.bufOf ch) :
    onTheWay chosen e b' = onTheWay chosen e b := by
  funext st
  unfold onTheWay
  cases st.chan <;> simp [same]

theorem copies_own (s : Services) (events : List TraceEvent) :
    (s.portal ++ events.map fun ev => (⟨ev, none⟩ : PortalEvent)).countP
      (PortalEvent.carries chosen e) = copies chosen e s := by
  have none_ : (events.map fun ev => (⟨ev, none⟩ : PortalEvent)).countP
      (PortalEvent.carries chosen e) = 0 := by
    refine List.countP_eq_zero.mpr ?_
    intro p mem
    obtain ⟨ev, _, rfl⟩ := List.mem_map.mp mem
    simp [PortalEvent.carries]
  rw [List.countP_append, none_, copies, Nat.add_zero]

theorem potential_set {s s' : Services} {i : Nat} {st st' : Stream} (here : s.streams[i]? = some st)
    (streams : s'.streams = s.streams.set i st')
    (carrier : ∀ ch, s'.carrier.bufOf ch = s.carrier.bufOf ch)
    (balance : copies chosen e s' + onTheWay chosen e s.carrier st' ≤
      copies chosen e s + onTheWay chosen e s.carrier st) :
    potential chosen e s' ≤ potential chosen e s := by
  have sum := sum_set (onTheWay chosen e s.carrier) here st'
  unfold potential
  rw [streams, onTheWay_congr carrier]
  omega

theorem onTheWay_sent {b b' : TraceBus} {ev : TraceEvent} {order : List Nat} (sound : Sound b)
    (sent : Sent ev order b b') (visits : order.Perm b.subs) (st : Stream) :
    onTheWay chosen e b' st ≤ onTheWay chosen e b st +
      if Stream.registered chosen b st && decide (ev = e) then 1 else 0 := by
  unfold onTheWay Stream.registered
  cases chosen st.id with
  | false => simp
  | true =>
    cases st.chan with
    | none => simp
    | some ch =>
      simp only [if_true, Option.elim_some, Option.any_some, Bool.true_and,
        sent_bufOf sound sent visits ch]
      by_cases mem : ch ∈ b.subs
      · by_cases same : ev = e
        · simp only [mem, same, true_and, decide_true, Bool.and_self, if_true]
          split
          · simp
            omega
          · omega
        · simp only [mem, same, true_and, decide_true, decide_false, Bool.and_false]
          split
          · simp [List.count_append, same]
          · simp
      · simp [mem]

theorem potential_emit (marshal : TraceEvent → Bytes) (peerHost : GoString) {s s' : Services}
    (sound : Sound s.carrier) {now : Int} {ev : TraceEvent} {order : List Nat}
    (steps : step marshal peerHost s (.emit now ev order) = some s') :
    Sound s'.carrier ∧ potential chosen e s' ≤
      potential chosen e s + (registered chosen e s (.emit now ev order)).sum := by
  by_cases visits : order.Perm s.carrier.subs
  · obtain ⟨b, emits, sent⟩ := step_emit sound now ev visits
    cases (step_carrier marshal peerHost emits).symm.trans steps
    refine ⟨sound_sent sound sent, ?_⟩
    have left : potential chosen e { s with carrier := b } =
        copies chosen e s + (s.streams.map (onTheWay chosen e b)).sum := rfl
    rw [left, potential]
    have grows (st : Stream) := @onTheWay_sent chosen e _ _ _ _ sound sent visits st
    have total := sum_le_countP s.streams grows
    by_cases same : stamp now ev = e
    · simp only [same, decide_true, Bool.and_true] at total
      change _ ≤ _ + s.streams.countP (Stream.registered chosen s.carrier) at total
      simp only [registered, visits, same, and_self, if_true, List.sum_cons, List.sum_nil]
      omega
    · simp only [same, decide_false, Bool.and_false, List.countP_false, Function.const_apply] at total
      omega
  · have still : s.carrier.step (.emit now ev order) = some s.carrier := by
      rw [TraceBus.step, if_neg visits]
    cases (step_carrier marshal peerHost still).symm.trans steps
    exact ⟨sound, by simp [registered, visits]⟩

theorem receive_count (b : TraceBus) (k id : Nat) (e : TraceEvent) :
    ((b.receive k).bufOf id).count e ≤ (b.bufOf id).count e := by
  rw [receive_bufOf]
  split
  · exact (List.tail_sublist _).count_le e
  · exact Nat.le_refl _

theorem onTheWay_receive (b : TraceBus) (k : Nat) (st : Stream) :
    onTheWay chosen e (b.receive k) st ≤ onTheWay chosen e b st := by
  unfold onTheWay
  split
  · cases st.chan with
    | none => exact Nat.le_refl _
    | some ch =>
      have less := receive_count b k ch e
      simp only [Option.elim_some]
      omega
  · exact Nat.le_refl _

theorem sum_set_le {α : Type} {g g' : α → Nat} {l : List α} {i : Nat} {old new : α}
    (here : l[i]? = some old) (at_ : g' new ≤ g old) (others : ∀ x, g' x ≤ g x) :
    ((l.set i new).map g').sum ≤ (l.map g).sum := by
  induction l generalizing i with
  | nil => simp at here
  | cons x l ih =>
    cases i with
    | zero =>
      cases here
      have rest := sum_le_countP (p := fun _ => false) l (fun x => by simpa using others x)
      simp only [List.countP_false, Function.const_apply] at rest
      simp only [List.set_cons_zero, List.map_cons, List.sum_cons]
      omega
    | succ i =>
      have rest := ih here
      have first := others x
      simp only [List.set_cons_succ, List.map_cons, List.sum_cons]
      omega

theorem potential_forward (marshal : TraceEvent → Bytes) {s : Services} {i ch : Nat} {st : Stream}
    (here : s.streams[i]? = some st) (owns : st.chan = some ch) :
    potential chosen e (forward marshal i st ch s) ≤ potential chosen e s := by
  cases waiting : s.carrier.bufOf ch with
  | nil => exact Nat.le_of_eq (congrArg (potential chosen e) (forward_waits marshal waiting))
  | cons ev rest =>
    have moved : onTheWay chosen e (s.carrier.receive ch)
        { st with wire := st.wire ++ writtenFrame marshal ev } ≤ onTheWay chosen e s.carrier st := by
      unfold onTheWay
      split
      · simp only [owns, Option.elim_some, receive_bufOf, if_true, waiting, List.tail_cons,
          List.map_append, List.count_append, writtenFrame_tag, List.count_cons]
        simp only [beq_iff_eq]
        omega
      · exact Nat.le_refl _
    have sum := sum_set_le here moved (onTheWay_receive s.carrier ch)
    rw [forward_writes marshal waiting]
    unfold potential copies
    dsimp only
    omega

theorem potential_read {s s' : Services} {i n : Nat} {failed : Bool} {st : Stream}
    (here : s.streams[i]? = some st) (reads : read i n failed st s = some s') :
    potential chosen e s' ≤ potential chosen e s := by
  obtain ⟨frames, splits, rfl⟩ := read_iff.mp reads
  refine potential_set here rfl (fun _ => rfl) ?_
  have few := frames_with_tag (e, 0) splits
  have cut : (st.wire.map Prod.snd).count (e, 0) =
      ((st.wire.take n).map Prod.snd).count (e, 0) + ((st.wire.drop n).map Prod.snd).count (e, 0) := by
    rw [← List.count_append, ← List.map_append, List.take_append_drop]
  unfold copies onTheWay
  rw [List.countP_append, List.countP_map]
  by_cases pick : chosen st.id = true
  · have carried : (frames.countP (PortalEvent.carries chosen e ∘ fun frame : GoString × List Tag =>
        (⟨rawEvent frame.1, some (st.id, frame.2)⟩ : PortalEvent))) ≤
        ((st.wire.take n).map Prod.snd).count (e, 0) := by
      refine Nat.le_trans (Nat.le_of_eq (List.countP_congr ?_)) few
      intro frame _
      simp [PortalEvent.carries, pick]
    simp only [pick, if_true]
    omega
  · have carried : (frames.countP (PortalEvent.carries chosen e ∘ fun frame : GoString × List Tag =>
        (⟨rawEvent frame.1, some (st.id, frame.2)⟩ : PortalEvent))) = 0 := by
      refine List.countP_eq_zero.mpr ?_
      intro frame _
      simp [PortalEvent.carries, pick]
    rw [carried]
    simp [pick]

theorem onTheWay_same {b : TraceBus} {st st' : Stream} (id : st'.id = st.id) (chan : st'.chan = st.chan)
    (wire : st'.wire = st.wire) : onTheWay chosen e b st' = onTheWay chosen e b st := by
  unfold onTheWay
  rw [id, chan, wire]

theorem onTheWay_subscribe {b : TraceBus} {st : Stream} (fresh : st.chan = none) :
    onTheWay chosen e b { st with chan := some b.chans.length, serving := true } =
      onTheWay chosen e b st := by
  have empty : b.bufOf b.chans.length = [] := by simp [bufOf]
  simp [onTheWay, fresh, empty]

theorem copies_same {s s' : Services} (portal : s'.portal = s.portal) :
    copies chosen e s' = copies chosen e s := by
  rw [copies, copies, portal]

theorem copies_beside {s s' : Services} {events : List TraceEvent}
    (portal : s'.portal = s.portal ++ events.map fun ev => ⟨ev, none⟩) :
    copies chosen e s' = copies chosen e s := by
  rw [copies, portal, copies_own]

theorem potential_kept {s s' : Services} {i : Nat} {st st' : Stream} (here : s.streams[i]? = some st)
    (streams : s'.streams = s.streams.set i st')
    (carrier : ∀ ch, s'.carrier.bufOf ch = s.carrier.bufOf ch)
    (portal : copies chosen e s' = copies chosen e s)
    (same : onTheWay chosen e s.carrier st' = onTheWay chosen e s.carrier st) :
    potential chosen e s' ≤ potential chosen e s :=
  potential_set here streams carrier (by omega)

/-- The step keeps the carrier's bus sound and pays for the copies it adds. -/
def Pays (chosen : Nat → Bool) (e : TraceEvent) (s : Services) (cost : Nat) (s' : Services) : Prop :=
  Sound s'.carrier ∧ potential chosen e s' ≤ potential chosen e s + cost

theorem pays_lookup (peerHost shipmentID : GoString) {s : Services} (sound : Sound s.carrier) :
    Pays chosen e s 0 (lookup peerHost shipmentID s) := by
  by_cases valid : validShipmentID shipmentID = true
  · have beside : copies chosen e (lookup peerHost shipmentID s) = copies chosen e s := by
      rw [lookup, if_pos valid]
      exact copies_beside (rfl : _ = s.portal ++
        [newEvent "portal" "mtls.handshake.start" [("peer_host", .str peerHost)]].map
          fun ev => ⟨ev, none⟩)
    have added : ((lookup peerHost shipmentID s).streams.map (onTheWay chosen e s.carrier)).sum =
        (s.streams.map (onTheWay chosen e s.carrier)).sum := by
      rw [lookup, if_pos valid, List.map_append, List.sum_append]
      simp [onTheWay]
    have same : (lookup peerHost shipmentID s).carrier = s.carrier := by
      rw [lookup, if_pos valid]
    refine ⟨by rw [same]; exact sound, ?_⟩
    rw [potential, potential, same, beside, added]
    exact Nat.le_refl _
  · rw [lookup, if_neg valid]
    exact ⟨sound, Nat.le_refl _⟩

theorem pays_onStream {s s' : Services} {i : Nat} {act : Stream → Option Services}
    (sound : Sound s.carrier) (steps : onStream i s act = some s')
    (each : ∀ st, s.streams[i]? = some st → act st = some s' → Pays chosen e s 0 s') :
    Pays chosen e s 0 s' := by
  rcases onStream_cases steps with rfl | ⟨st, here, acts⟩
  · exact ⟨sound, Nat.le_refl _⟩
  · exact each st here acts

theorem pays_return (peerHost : GoString) {s : Services} {i : Nat} {st : Stream}
    (sound : Sound s.carrier) (here : s.streams[i]? = some st) (result : LookupResult) :
    Pays chosen e s 0 (return_ peerHost i result st s) :=
  ⟨sound, potential_kept here rfl (fun _ => rfl) (copies_beside rfl) (onTheWay_same rfl rfl rfl)⟩

theorem pays_refused {s : Services} {i : Nat} {st : Stream} (sound : Sound s.carrier)
    (here : s.streams[i]? = some st) (err : Option GoString) :
    Pays chosen e s 0 (refused i err st s) := by
  have beside : copies chosen e (refused i err st s) = copies chosen e s := by
    cases err with
    | none => exact copies_same (List.append_nil _)
    | some err =>
      exact copies_beside (rfl : _ = s.portal ++
        [newEvent "portal" "carrier.trace.unreachable" [("err", .str err)]].map fun ev => ⟨ev, none⟩)
  exact ⟨sound, potential_kept here rfl (fun _ => rfl) beside (onTheWay_same rfl rfl rfl)⟩

theorem pays_disconnect {s s' : Services} {i ch : Nat} {st : Stream} (sound : Sound s.carrier)
    (here : s.streams[i]? = some st) (leaves : disconnect i st ch s = some s') :
    Pays chosen e s 0 s' := by
  obtain ⟨b, closes, built⟩ := Option.bind_eq_some_iff.mp leaves
  cases built
  obtain ⟨b', closes', kept⟩ := sound_unsubscribe sound ch
  rw [closes] at closes'
  cases closes'
  exact ⟨kept, potential_kept here rfl (unsubscribe_bufOf sound closes) (copies_same rfl)
    (onTheWay_same rfl rfl rfl)⟩

theorem pays_forward (marshal : TraceEvent → Bytes) {s : Services} {i ch : Nat} {st : Stream}
    (sound : Sound s.carrier) (here : s.streams[i]? = some st) (owns : st.chan = some ch) :
    Pays chosen e s 0 (forward marshal i st ch s) := by
  refine ⟨?_, potential_forward marshal here owns⟩
  unfold forward
  split
  · exact sound
  · exact sound_receive sound ch

theorem pays_read {s s' : Services} {i n : Nat} {failed : Bool} {st : Stream}
    (sound : Sound s.carrier) (here : s.streams[i]? = some st) (reads : read i n failed st s = some s') :
    Pays chosen e s 0 s' := by
  refine ⟨?_, potential_read here reads⟩
  obtain ⟨frames, _, rfl⟩ := read_iff.mp reads
  exact sound

theorem pays_subscribe {s : Services} {i : Nat} {st : Stream} (sound : Sound s.carrier)
    (here : s.streams[i]? = some st) (fresh : st.chan = none) :
    Pays chosen e s 0 (subscribe i st s) :=
  ⟨sound_subscribe sound, potential_kept here rfl (subscribe_bufOf s.carrier) (copies_same rfl)
    (onTheWay_subscribe fresh)⟩

theorem pays_update {s : Services} {i : Nat} {st st' : Stream} (sound : Sound s.carrier)
    (here : s.streams[i]? = some st) (id : st'.id = st.id) (chan : st'.chan = st.chan)
    (wire : st'.wire = st.wire) : Pays chosen e s 0 (updateStream i st' s) :=
  ⟨sound, potential_kept here rfl (fun _ => rfl) (copies_same rfl) (onTheWay_same id chan wire)⟩

/-- One step republishes or puts on the way no more copies than there are chosen streams
    subscribed when it emits the event. -/
theorem step_pays (marshal : TraceEvent → Bytes) (peerHost : GoString) (s : Services) (a : Action)
    (s' : Services) (sound : Sound s.carrier) (steps : step marshal peerHost s a = some s') :
    Pays chosen e s (registered chosen e s a).sum s' := by
  have still : Pays chosen e s 0 s := ⟨sound, Nat.le_refl _⟩
  cases a with
  | emit now ev order => exact potential_emit marshal peerHost sound steps
  | lookup shipmentID =>
    cases steps
    exact pays_lookup peerHost shipmentID sound
  | subscribe i =>
    refine pays_onStream sound steps fun st here acts => ?_
    split at acts
    · rename_i fresh
      cases acts
      exact pays_subscribe sound here fresh
    · cases acts
      exact still
  | opened i =>
    refine pays_onStream sound steps fun st here acts => ?_
    split at acts
    · cases acts
      exact pays_update sound here rfl rfl rfl
    · cases acts
      exact still
  | refused i err =>
    refine pays_onStream sound steps fun st here acts => ?_
    split at acts
    · cases acts
      exact pays_refused sound here err
    · cases acts
      exact still
  | forward i =>
    refine pays_onStream sound steps fun st here acts => ?_
    split at acts
    · rename_i owns _
      cases acts
      exact pays_forward marshal sound here owns
    · cases acts
      exact still
  | disconnect i =>
    refine pays_onStream sound steps fun st here acts => ?_
    split at acts
    · exact pays_disconnect sound here acts
    · cases acts
      exact still
  | read i n failed =>
    refine pays_onStream sound steps fun st here acts => ?_
    split at acts
    · exact pays_read sound here acts
    · cases acts
      exact still
  | return_ i result =>
    refine pays_onStream sound steps fun st here acts => ?_
    split at acts
    · cases acts
      exact still
    · cases acts
      exact pays_return peerHost sound here result
  | cancel i =>
    refine pays_onStream sound steps fun st here acts => ?_
    cases acts
    exact pays_update sound here rfl rfl rfl

/-- The streams are numbered in the order of their lookups, so no two share a number. -/
def Numbered (s : Services) : Prop := s.streams.map Stream.id = List.range s.streams.length

theorem numbered_set {s s' : Services} {i : Nat} {st st' : Stream} (numbered : Numbered s)
    (here : s.streams[i]? = some st) (id : st'.id = st.id) (streams : s'.streams = s.streams.set i st') :
    Numbered s' := by
  have same : (s.streams.map Stream.id)[i]? = some st'.id := by simp [here, id]
  obtain ⟨inside, at_⟩ := List.getElem?_eq_some_iff.mp same
  rw [Numbered, streams, List.map_set, List.length_set, ← at_, List.set_getElem_self]
  exact numbered

theorem numbered_lookup (peerHost shipmentID : GoString) {s : Services} (numbered : Numbered s) :
    Numbered (lookup peerHost shipmentID s) := by
  rw [lookup]
  split
  · simpa [Numbered, List.range_succ] using numbered
  · exact numbered

theorem numbered_onStream {s s' : Services} {i : Nat} {act : Stream → Option Services}
    (numbered : Numbered s) (steps : onStream i s act = some s')
    (each : ∀ st, act st = some s' →
      s' = s ∨ ∃ st', s'.streams = s.streams.set i st' ∧ st'.id = st.id) : Numbered s' := by
  rcases onStream_cases steps with rfl | ⟨st, here, acts⟩
  · exact numbered
  · rcases each st acts with rfl | ⟨st', streams, id⟩
    · exact numbered
    · exact numbered_set numbered here id streams

theorem step_numbered (marshal : TraceEvent → Bytes) (peerHost : GoString) (s : Services) (a : Action)
    (s' : Services) (numbered : Numbered s) (steps : step marshal peerHost s a = some s') :
    Numbered s' := by
  cases a with
  | emit now ev order =>
    obtain ⟨b, _, built⟩ := Option.bind_eq_some_iff.mp steps
    cases built
    exact numbered
  | lookup shipmentID =>
    cases steps
    exact numbered_lookup peerHost shipmentID numbered
  | subscribe i | opened i | refused i err =>
    refine numbered_onStream numbered steps fun st acts => ?_
    split at acts
    · cases acts
      exact Or.inr ⟨_, rfl, rfl⟩
    · cases acts
      exact Or.inl rfl
  | forward i =>
    refine numbered_onStream numbered steps fun st acts => ?_
    split at acts
    · cases acts
      unfold forward
      split
      · exact Or.inl rfl
      · exact Or.inr ⟨_, rfl, rfl⟩
    · cases acts
      exact Or.inl rfl
  | disconnect i =>
    refine numbered_onStream numbered steps fun st acts => ?_
    split at acts
    · obtain ⟨b, _, built⟩ := Option.bind_eq_some_iff.mp acts
      cases built
      exact Or.inr ⟨_, rfl, rfl⟩
    · cases acts
      exact Or.inl rfl
  | read i n failed =>
    refine numbered_onStream numbered steps fun st acts => ?_
    split at acts
    · obtain ⟨frames, _, rfl⟩ := read_iff.mp acts
      exact Or.inr ⟨_, rfl, rfl⟩
    · cases acts
      exact Or.inl rfl
  | return_ i result =>
    refine numbered_onStream numbered steps fun st acts => ?_
    split at acts
    · cases acts
      exact Or.inl rfl
    · cases acts
      exact Or.inr ⟨_, rfl, rfl⟩
  | cancel i =>
    refine numbered_onStream numbered steps fun st acts => ?_
    cases acts
    exact Or.inr ⟨_, rfl, rfl⟩

/-- One lookup has one stream, so at most one of its subscriptions is registered. -/
theorem registered_own {s : Services} (numbered : Numbered s) (b : TraceBus) (i : Nat) :
    s.streams.countP (Stream.registered (· == i) b) ≤ 1 := by
  calc s.streams.countP (Stream.registered (· == i) b)
      ≤ s.streams.countP ((· == i) ∘ Stream.id) :=
        List.countP_mono_left fun st _ reg => (Bool.and_eq_true_iff.mp reg).1
    _ = (s.streams.map Stream.id).count i := by rw [List.count, List.countP_map]
    _ ≤ 1 := by
        rw [numbered]
        exact List.nodup_iff_count.mp List.nodup_range i

def emits (e : TraceEvent) : Action → Bool
  | .emit now ev _ => decide (stamp now ev = e)
  | _ => false

theorem registered_emits {s : Services} (numbered : Numbered s) (e : TraceEvent) (i : Nat) (a : Action) :
    (registered (· == i) e s a).sum ≤ if emits e a then 1 else 0 := by
  cases a with
  | emit now ev order =>
    by_cases is : stamp now ev = e
    · have once := registered_own numbered s.carrier i
      by_cases perm : order.Perm s.carrier.subs
      · simpa [registered, emits, is, perm] using once
      · simp [registered, emits, is, perm]
    · simp [registered, emits, is]
  | _ => exact Nat.zero_le _

/-- An event is republished through the chosen streams at most as often as, summed over
    its emissions, one of them was subscribed to the carrier's bus; and through the stream
    of any one lookup at most as often as it was emitted. -/
theorem republished_per_subscription (marshal : TraceEvent → Bytes) (peerHost : GoString)
    (bufSize : Int) (acts : List Action) (s : Services) (chosen : Nat → Bool) (e : TraceEvent)
    (ran : tryRun (step marshal peerHost) (start bufSize) acts = some s) :
    copies chosen e s ≤
        (history (step marshal peerHost) (registered chosen e) (start bufSize) acts).sum ∧
      ∀ i, copies (· == i) e s ≤ acts.countP (emits e) := by
  have within (chosen : Nat → Bool) : copies chosen e s ≤
      (history (step marshal peerHost) (registered chosen e) (start bufSize) acts).sum := by
    have paid : potential chosen e s ≤ potential chosen e (start bufSize) +
        (history (step marshal peerHost) (registered chosen e) (start bufSize) acts).sum :=
      tryRun_potential (P := fun t : Services => Sound t.carrier) (step_pays marshal peerHost)
        (sound_start bufSize) ran
    have none_ : potential chosen e (start bufSize) = 0 := rfl
    have part : copies chosen e s ≤ potential chosen e s := Nat.le_add_right _ _
    omega
  refine ⟨within chosen, fun i => (within (· == i)).trans ?_⟩
  exact history_sum_le (step_numbered marshal peerHost)
    (fun s a numbered => registered_emits numbered e i a) (rfl : Numbered (start bufSize)) acts

def sampleEvent : TraceEvent := newEvent "carrier" "carrier.lookup.ok" []

def sampleID : GoString := [83, 72, 80, 45, 49]

def sampleRun : List Action :=
  [.lookup sampleID, .subscribe 0, .opened 0, .emit 1 sampleEvent [0], .forward 0, .read 0 10 false]

/-- One lookup, one event. -/
theorem single_lookup_republishes :
    ∃ s, tryRun (step (fun _ => [123, 125]) []) (start 4) sampleRun = some s ∧
      copies (fun _ => true) (stamp 1 sampleEvent) s ≤ 1 :=
  ⟨_, rfl, Nat.le_trans (republished_per_subscription (fun _ => [123, 125]) [] 4 sampleRun _
    (fun _ => true) (stamp 1 sampleEvent) rfl).1 (by decide)⟩

/-- Two lookups are in progress; the carrier emits one event and each stream brings it. -/
theorem overlapping_lookups_duplicate :
    ¬ ∀ (marshal : TraceEvent → Bytes) (peerHost : GoString) (bufSize : Int) (acts : List Action)
      (s : Services) (e : TraceEvent),
      tryRun (step marshal peerHost) (start bufSize) acts = some s → acts.countP (emits e) = 1 →
      copies (fun _ => true) e s ≤ 1 := by
  intro once
  have twice := once (fun _ => [123, 125]) [] 4 [.lookup sampleID, .lookup sampleID, .subscribe 0,
    .opened 0, .subscribe 1, .opened 1, .emit 1 sampleEvent [0, 1], .forward 0, .forward 1,
    .read 0 10 false, .read 1 10 false] _ (stamp 1 sampleEvent) rfl (by decide)
  exact absurd twice (by decide)

end SwaForward
