import SwaDemo.CarrierLookup
import SwaDemo.ForwardCopies
import SwaDemo.SplitterLaws

/-!
What the `/trace` stream of a lookup brings of the events that the carrier emits for
it. The stream is opened by a goroutine beside the request to `/lookup`, and the
carrier's bus keeps nothing for a subscriber that comes later: the grace period saves
the tail of the trace, the head depends on which of the two requests is served first.
-/
namespace SwaForward
open SwaTrace SwaFrames SwaBus Runs TraceBus

/-- What reaches a subscriber from whose subscription on nothing is lost. -/
structure Listener where
  listening : Bool
  heard : List TraceEvent

def newListener : Listener := ⟨false, []⟩

def listen (i : Nat) (l : Listener) : Action → Listener
  | .subscribe j => { l with listening := l.listening || j == i }
  | .emit now ev _ => if l.listening then { l with heard := l.heard ++ [stamp now ev] } else l
  | _ => l

def emitted : Action → Option TraceEvent
  | .emit _ ev _ => some ev
  | _ => none

/-- The events as `Emit` sends them, with their time. -/
def stamped : Action → Option TraceEvent
  | .emit now ev _ => some (stamp now ev)
  | _ => none

/-- The carrier subscribes for stream `i` before anything is emitted. -/
def SubscribedFirst (i : Nat) (acts : List Action) : Prop :=
  ∃ before after, acts = before ++ Action.subscribe i :: after ∧ before.filterMap emitted = []

theorem stamped_cons (a : Action) (acts : List Action) :
    (a :: acts).filterMap stamped = (stamped a).toList ++ acts.filterMap stamped := by
  cases a <;> rfl

theorem listen_heard (i : Nat) (l : Listener) (a : Action) :
    (listen i l a).heard = l.heard ++ if l.listening then (stamped a).toList else [] := by
  cases a <;> cases listening : l.listening <;> simp [listen, stamped, listening]

theorem still_listening {i : Nat} {l : Listener} (listening : l.listening = true) (a : Action) :
    (listen i l a).listening = true := by
  cases a <;> simp [listen, listening]

theorem hears_rest {i : Nat} {l : Listener} (acts : List Action) (listening : l.listening = true) :
    (run (listen i) l acts).heard = l.heard ++ acts.filterMap stamped := by
  induction acts generalizing l with
  | nil => simp
  | cons a acts ih =>
    rw [run_cons, ih (still_listening listening a), listen_heard, if_pos listening, stamped_cons,
      List.append_assoc]

theorem stamped_none (a : Action) : stamped a = none ↔ emitted a = none := by
  cases a <;> simp [stamped, emitted]

theorem silent_iff {acts : List Action} :
    acts.filterMap stamped = [] ↔ acts.filterMap emitted = [] := by
  simp only [List.filterMap_eq_nil_iff, stamped_none]

theorem subscribed_hears_all {i : Nat} {l : Listener} {acts : List Action}
    (first : SubscribedFirst i acts) :
    (run (listen i) l acts).heard = l.heard ++ acts.filterMap stamped := by
  obtain ⟨before, after, rfl, quiet⟩ := first
  have silent := silent_iff.mpr quiet
  have same : (run (listen i) l before).heard = l.heard := by
    refine run_invariant_mem (P := fun t : Listener => t.heard = l.heard) ?_ rfl
    intro t a mem same
    rw [listen_heard, List.filterMap_eq_nil_iff.mp silent a mem, same]
    simp
  have started : (listen i (run (listen i) l before) (.subscribe i)).listening = true := by
    simp [listen]
  rw [run_append, run_cons, hears_rest after started, listen_heard, same, List.filterMap_append,
    silent, stamped_cons]
  simp [stamped]

theorem hears_at_most {i : Nat} {l : Listener} (acts : List Action) :
    (run (listen i) l acts).heard.length ≤ l.heard.length + (acts.filterMap stamped).length := by
  induction acts generalizing l with
  | nil => simp
  | cons a acts ih =>
    have rest := ih (l := listen i l a)
    rw [listen_heard, List.length_append] at rest
    rw [run_cons, stamped_cons, List.length_append]
    split at rest
    · omega
    · rw [List.length_nil] at rest
      omega

theorem hears_all_subscribed {i : Nat} {l : Listener} {acts : List Action}
    (off : l.listening = false) (emits : acts.filterMap stamped ≠ [])
    (all : l.heard.length + (acts.filterMap stamped).length ≤ (run (listen i) l acts).heard.length) :
    SubscribedFirst i acts := by
  induction acts generalizing l with
  | nil => exact absurd rfl emits
  | cons a acts ih =>
    -- an action that neither emits nor subscribes stream `i` leaves the listener as it is
    have later (same : listen i l a = l) (silent : stamped a = none) (quiet : emitted a = none) :
        SubscribedFirst i (a :: acts) := by
      rw [List.filterMap_cons_none silent] at emits all
      rw [run_cons, same] at all
      obtain ⟨before, after, rfl, none_⟩ := ih off emits all
      exact ⟨a :: before, after, rfl, by rw [List.filterMap_cons_none quiet, none_]⟩
    cases a with
    | emit now ev order =>
      have missed : listen i l (.emit now ev order) = l := by simp [listen, off]
      have most := hears_at_most (i := i) (l := l) acts
      rw [run_cons, missed, stamped_cons, List.length_append] at all
      simp only [stamped, Option.toList_some, List.length_singleton] at all
      omega
    | subscribe j =>
      by_cases own : j = i
      · subst own
        exact ⟨[], acts, rfl, rfl⟩
      · have other : (j == i) = false := by simpa using own
        exact later (by rw [listen, other, Bool.or_false]) rfl rfl
    | _ => exact later rfl rfl rfl

/-- The event that the portal emits for an event of the carrier. -/
def rawOf (marshal : TraceEvent → Bytes) (ev : TraceEvent) : TraceEvent :=
  rawEvent (stringOfBytes (marshal ev))

/-- What the portal emitted for frames it read. -/
def raised (portal : List PortalEvent) : List TraceEvent :=
  portal.filterMap fun p => p.via.map fun _ => p.event

/-- The next `Read` ends where a frame ends. -/
def WholeRead (marshal : TraceEvent → Bytes) (st : Stream) (n : Nat) : Prop :=
  ∃ evs : List TraceEvent, st.wire.take n = evs.flatMap (writtenFrame marshal)

/-- A step of stream `i` or an emission while no other lookup is in progress: no buffer is
    full, frames arrive whole, and the handler does not lose its client. -/
def Smooth (marshal : TraceEvent → Bytes) (i : Nat) (s : Services) : Action → Prop
  | .lookup _ => False
  | .disconnect _ => False
  | .emit _ _ order => order.Perm s.carrier.subs ∧
    ∀ ch ∈ s.carrier.subs, (s.carrier.bufOf ch).length < s.carrier.bufSize
  | .read j n _ => j = i ∧ ∀ st, s.streams[j]? = some st → WholeRead marshal st n
  | .subscribe j => j = i
  | .opened j => j = i
  | .refused j _ => j = i
  | .forward j => j = i
  | .return_ j _ => j = i
  | .cancel j => j = i

/-- What waits in the channel of a stream. -/
def waiting (b : TraceBus) (st : Stream) : List TraceEvent := st.chan.elim [] b.bufOf

/-- Everything that stream `i` was sent has arrived. -/
def Drained (i : Nat) (s : Services) : Prop :=
  ∀ st, s.streams[i]? = some st → st.wire = [] ∧ waiting s.carrier st = []

theorem writtenFrame_head (marshal : TraceEvent → Bytes) (ev : TraceEvent) :
    ∃ later, writtenFrame marshal ev = (100, ev, 0) :: later :=
  ⟨_, rfl⟩

/-- The tag of the first byte tells whose frame it is. -/
theorem written_prefix {marshal : TraceEvent → Bytes} {evs onWire : List TraceEvent}
    {rest : List (UInt8 × Tag)}
    (front : evs.flatMap (writtenFrame marshal) ++ rest = onWire.flatMap (writtenFrame marshal)) :
    ∃ later, onWire = evs ++ later ∧ rest = later.flatMap (writtenFrame marshal) := by
  induction evs generalizing onWire with
  | nil => exact ⟨onWire, rfl, by simpa using front⟩
  | cons ev evs ih =>
    obtain ⟨tail, shape⟩ := writtenFrame_head marshal ev
    cases onWire with
    | nil => simp [shape] at front
    | cons first onWire =>
      obtain ⟨tail', shape'⟩ := writtenFrame_head marshal first
      have same : ev = first := by
        simp only [List.flatMap_cons, shape, shape', List.cons_append, List.cons.injEq] at front
        exact congrArg (fun x : UInt8 × Tag => x.2.1) front.1
      subst same
      rw [List.flatMap_cons, List.flatMap_cons, List.append_assoc] at front
      obtain ⟨later, rfl, behind⟩ := ih (List.append_cancel_left front)
      exact ⟨later, rfl, behind⟩

theorem written_bytes (marshal : TraceEvent → Bytes) (evs : List TraceEvent) :
    (evs.flatMap (writtenFrame marshal)).map Prod.fst = encodeFrames (evs.map marshal) := by
  have one (ev : TraceEvent) : (writtenFrame marshal ev).map Prod.fst = encodeFrame (marshal ev) := by
    rw [writtenFrame, List.map_map]
    exact List.zipIdx_map_fst 0 _
  rw [List.map_flatMap, encodeFrames, List.flatMap_map]
  exact List.flatMap_congr fun ev _ => one ev

theorem read_whole {marshal : TraceEvent → Bytes} (bodies : ∀ ev, FrameBody (marshal ev))
    (evs : List TraceEvent) (id : Nat) :
    ∃ frames, splitTaggedFrames (evs.flatMap (writtenFrame marshal)) = some frames ∧
      raised (frames.map fun frame => ⟨rawEvent frame.1, some (id, frame.2)⟩) =
        evs.map (rawOf marshal) := by
  have text := splitTaggedFrames_text (evs.flatMap (writtenFrame marshal))
  have good : ∀ b ∈ evs.map marshal, FrameBody b := by
    intro b mem
    obtain ⟨ev, _, rfl⟩ := List.mem_map.mp mem
    exact bodies ev
  rw [written_bytes, split_frames _ good] at text
  obtain ⟨frames, splits, texts⟩ := Option.map_eq_some_iff.mp text
  refine ⟨frames, splits, ?_⟩
  have each : raised (frames.map fun frame => ⟨rawEvent frame.1, some (id, frame.2)⟩) =
      (frames.map Prod.fst).map rawEvent := by
    simp [raised, List.filterMap_map, Function.comp_def]
  rw [each, texts, List.map_map, List.map_map]
  rfl

/-- Where the events that a listener has heard are: already raised, on the wire as whole
    frames, or in the channel. -/
structure Pipe (marshal : TraceEvent → Bytes) (old : List PortalEvent) (s : Services) (l : Listener)
    (st : Stream) (onWire : List TraceEvent) (republished : List PortalEvent) : Prop where
  sound : Sound s.carrier
  listening : st.chan.isSome = l.listening
  subscribed : ∀ ch, st.chan = some ch → st.serving = true ∧ ch ∈ s.carrier.subs
  wire : st.wire = onWire.flatMap (writtenFrame marshal)
  portal : s.portal = old ++ republished
  account : raised republished ++ (onWire ++ waiting s.carrier st).map (rawOf marshal) =
    l.heard.map (rawOf marshal)

def Follows (marshal : TraceEvent → Bytes) (old : List PortalEvent) (i : Nat) (s : Services)
    (l : Listener) : Prop :=
  ∃ st onWire republished, s.streams[i]? = some st ∧ Pipe marshal old s l st onWire republished

section follows
variable {marshal : TraceEvent → Bytes} {old : List PortalEvent} {peerHost : GoString} {i : Nat}
  {s : Services} {l : Listener} {st : Stream} {onWire : List TraceEvent}
  {republished : List PortalEvent}

theorem raised_append (front back : List PortalEvent) :
    raised (front ++ back) = raised front ++ raised back := List.filterMap_append

theorem raised_own (events : List TraceEvent) : raised (events.map (⟨·, none⟩)) = [] := by
  refine List.filterMap_eq_nil_iff.mpr ?_
  intro p mem
  obtain ⟨ev, _, rfl⟩ := List.mem_map.mp mem
  rfl

theorem set_stream (here : s.streams[i]? = some st) (st' : Stream) :
    (s.streams.set i st')[i]? = some st' :=
  List.getElem?_set_self (List.getElem?_eq_some_iff.mp here).1

theorem follows_beside {s' : Services} {st' : Stream} {events : List TraceEvent}
    (here : s.streams[i]? = some st) (pipe : Pipe marshal old s l st onWire republished)
    (streams : s'.streams = s.streams.set i st') (carrier : s'.carrier = s.carrier)
    (portal : s'.portal = s.portal ++ events.map (⟨·, none⟩))
    (chan : st'.chan = st.chan) (serving : st'.serving = st.serving) (wire : st'.wire = st.wire) :
    Follows marshal old i s' l := by
  refine ⟨st', onWire, republished ++ events.map (⟨·, none⟩), ?_, ?_, ?_, ?_, ?_, ?_, ?_⟩
  · rw [streams]
    exact set_stream here st'
  · rw [carrier]
    exact pipe.sound
  · rw [chan]
    exact pipe.listening
  · rw [chan, serving, carrier]
    exact pipe.subscribed
  · rw [wire]
    exact pipe.wire
  · rw [portal, pipe.portal, List.append_assoc]
  · have same : waiting s'.carrier st' = waiting s.carrier st := by
      rw [waiting, waiting, chan, carrier]
    rw [raised_append, raised_own, List.append_nil, same]
    exact pipe.account

theorem follows_subscribe (here : s.streams[i]? = some st)
    (pipe : Pipe marshal old s l st onWire republished) (fresh : st.chan = none) :
    Follows marshal old i (subscribe i st s) (listen i l (.subscribe i)) := by
  have empty : s.carrier.bufOf s.carrier.chans.length = [] := by simp [bufOf]
  refine ⟨_, onWire, republished, set_stream here _, sound_subscribe pipe.sound, ?_, ?_, pipe.wire,
    pipe.portal, ?_⟩
  · simp [listen]
  · intro ch owns
    cases owns
    exact ⟨rfl, by simp [subscribe, TraceBus.subscribe]⟩
  · have still : l.heard = (listen i l (.subscribe i)).heard := rfl
    have account := pipe.account
    rw [waiting, fresh, Option.elim_none] at account
    rw [← still, ← account, waiting, Option.elim_some]
    simp only [subscribe, subscribe_bufOf, empty]

theorem follows_forward {ch : Nat} (here : s.streams[i]? = some st)
    (pipe : Pipe marshal old s l st onWire republished) (owns : st.chan = some ch) :
    Follows marshal old i (forward marshal i st ch s) l := by
  cases held : s.carrier.bufOf ch with
  | nil =>
    rw [forward_waits marshal held]
    exact ⟨st, onWire, republished, here, pipe⟩
  | cons ev rest =>
    rw [forward_writes marshal held]
    refine ⟨_, onWire ++ [ev], republished, set_stream here _, sound_receive pipe.sound ch,
      pipe.listening, ?_, ?_, pipe.portal, ?_⟩
    · intro k other
      rw [receive_subs]
      exact pipe.subscribed k other
    · simp [pipe.wire]
    · have account := pipe.account
      rw [waiting, owns, Option.elim_some, held] at account
      rw [← account, waiting, owns, Option.elim_some, receive_bufOf, if_pos rfl, held]
      simp

theorem follows_read (bodies : ∀ ev, FrameBody (marshal ev)) {n : Nat} {failed : Bool}
    (here : s.streams[i]? = some st) (pipe : Pipe marshal old s l st onWire republished)
    (whole : WholeRead marshal st n) :
    ∃ s', read i n failed st s = some s' ∧ Follows marshal old i s' l := by
  obtain ⟨evs, front⟩ := whole
  obtain ⟨frames, splits, texts⟩ := read_whole bodies evs st.id
  have cut : evs.flatMap (writtenFrame marshal) ++ st.wire.drop n =
      onWire.flatMap (writtenFrame marshal) := by
    rw [← front, List.take_append_drop, pipe.wire]
  obtain ⟨later, rfl, left⟩ := written_prefix cut
  rw [← front] at splits
  refine ⟨_, read_iff.mpr ⟨frames, splits, rfl⟩, _, later, republished ++ frames.map fun frame =>
    ⟨rawEvent frame.1, some (st.id, frame.2)⟩, set_stream here _, pipe.sound, pipe.listening,
    pipe.subscribed, left, ?_, ?_⟩
  · rw [pipe.portal, List.append_assoc]
  · have account := pipe.account
    rw [raised_append, texts, ← account]
    simp [waiting]

theorem follows_emit {now : Int} {ev : TraceEvent} {order : List Nat}
    (here : s.streams[i]? = some st) (pipe : Pipe marshal old s l st onWire republished)
    (visits : order.Perm s.carrier.subs)
    (room : ∀ ch ∈ s.carrier.subs, (s.carrier.bufOf ch).length < s.carrier.bufSize) :
    ∃ s', step marshal peerHost s (.emit now ev order) = some s' ∧
      Follows marshal old i s' (listen i l (.emit now ev order)) := by
  obtain ⟨b, emits, sent⟩ := step_emit pipe.sound now ev visits
  refine ⟨_, step_carrier marshal peerHost emits, st, onWire, republished, here,
    sound_sent pipe.sound sent, ?_, ?_, pipe.wire, pipe.portal, ?_⟩
  · rw [pipe.listening]
    simp only [listen]
    split <;> rfl
  · intro ch owns
    rw [sent.subs]
    exact pipe.subscribed ch owns
  · have account := pipe.account
    cases owns : st.chan with
    | none =>
      have off : l.listening = false := by
        rw [← pipe.listening, owns]
        rfl
      rw [waiting, owns, Option.elim_none] at account ⊢
      rw [account, listen, off]
      rfl
    | some ch =>
      have on : l.listening = true := by
        rw [← pipe.listening, owns]
        rfl
      have placed : b.bufOf ch = s.carrier.bufOf ch ++ [stamp now ev] := by
        obtain ⟨_, mem⟩ := pipe.subscribed ch owns
        rw [sent_bufOf pipe.sound sent visits, if_pos ⟨mem, room ch mem⟩]
      rw [waiting, owns, Option.elim_some] at account ⊢
      rw [placed, listen, if_pos on, ← List.append_assoc, List.map_append, ← List.append_assoc,
        account, List.map_append]

/-- What the listener has heard is on its way or has arrived after one more smooth step. -/
theorem smooth_step (bodies : ∀ ev, FrameBody (marshal ev)) (a : Action)
    (smooth : Smooth marshal i s a) (follows : Follows marshal old i s l) :
    ∃ s', step marshal peerHost s a = some s' ∧ Follows marshal old i s' (listen i l a) := by
  have stay := follows
  obtain ⟨st, onWire, republished, here, pipe⟩ := follows
  have beside {st' : Stream} (chan : st'.chan = st.chan) (serving : st'.serving = st.serving)
      (wire : st'.wire = st.wire) : Follows marshal old i (updateStream i st' s) l := by
    have portal : s.portal = s.portal ++ ([] : List TraceEvent).map (⟨·, none⟩) :=
      (List.append_nil _).symm
    exact follows_beside here pipe rfl rfl portal chan serving wire
  cases a with
  | lookup shipmentID => exact absurd smooth id
  | disconnect j => exact absurd smooth id
  | emit now ev order => exact follows_emit here pipe smooth.1 smooth.2
  | subscribe j =>
    cases smooth
    rw [step, onStream_here here]
    split
    · rename_i fresh
      exact ⟨_, rfl, follows_subscribe here pipe fresh⟩
    · rename_i taken
      have on : l.listening = true := by
        rw [← pipe.listening, Option.isSome_iff_ne_none]
        exact taken
      have same : listen i l (.subscribe i) = l := by
        rw [listen, on, Bool.true_or, ← on]
      rw [same]
      exact ⟨_, rfl, stay⟩
  | opened j =>
    cases smooth
    rw [step, onStream_here here]
    split
    · exact ⟨_, rfl, beside rfl rfl rfl⟩
    · exact ⟨_, rfl, stay⟩
  | refused j err =>
    cases smooth
    rw [step, onStream_here here]
    split
    · refine ⟨_, rfl, ?_⟩
      have portal : (refused i err st s).portal = s.portal ++ (err.toList.map fun err =>
          newEvent "portal" "carrier.trace.unreachable" [("err", .str err)]).map (⟨·, none⟩) := by
        simp [refused]
      exact follows_beside here pipe rfl rfl portal rfl rfl rfl
    · exact ⟨_, rfl, stay⟩
  | forward j =>
    cases smooth
    rw [step, onStream_here here]
    split
    · rename_i owns _
      exact ⟨_, rfl, follows_forward here pipe owns⟩
    · exact ⟨_, rfl, stay⟩
  | read j n failed =>
    obtain ⟨rfl, whole⟩ := smooth
    rw [step, onStream_here here]
    split
    · exact follows_read bodies here pipe (whole st here)
    · exact ⟨_, rfl, stay⟩
  | return_ j result =>
    cases smooth
    rw [step, onStream_here here]
    split
    · exact ⟨_, rfl, stay⟩
    · exact ⟨_, rfl, follows_beside here pipe rfl rfl rfl rfl rfl rfl⟩
  | cancel j =>
    cases smooth
    rw [step, onStream_here here]
    exact ⟨_, rfl, beside rfl rfl rfl⟩

end follows

/-- Once the stream has nothing left, everything that the listener heard was republished. -/
theorem drained_heard {marshal : TraceEvent → Bytes} {old republished : List PortalEvent} {i : Nat}
    {s : Services} {l : Listener} {st : Stream} {onWire : List TraceEvent}
    (here : s.streams[i]? = some st) (pipe : Pipe marshal old s l st onWire republished)
    (drained : Drained i s) : raised republished = l.heard.map (rawOf marshal) := by
  obtain ⟨dry, empty⟩ := drained st here
  have none_ : onWire = [] := by
    cases onWire with
    | nil => rfl
    | cons ev onWire =>
      obtain ⟨tail, shape⟩ := writtenFrame_head marshal ev
      have wire := pipe.wire
      rw [dry, List.flatMap_cons, shape] at wire
      contradiction
  have account := pipe.account
  rw [none_, empty, List.append_nil, List.map_nil, List.append_nil] at account
  exact account

theorem follows_lookup (marshal : TraceEvent → Bytes) (peerHost : GoString) {shipmentID : GoString}
    (valid : validShipmentID shipmentID = true) {s : Services} (sound : Sound s.carrier) :
    Follows marshal s.portal s.streams.length (lookup peerHost shipmentID s) newListener := by
  rw [lookup, if_pos valid]
  refine ⟨_, [], _, List.getElem?_concat_length, sound, rfl, ?_, rfl, rfl, rfl⟩
  intro ch owns
  contradiction

theorem sound_reached {marshal : TraceEvent → Bytes} {peerHost : GoString} {bufSize : Int}
    {acts : List Action} {s : Services}
    (ran : tryRun (step marshal peerHost) (start bufSize) acts = some s) : Sound s.carrier := by
  refine tryRun_invariant (P := fun t : Services => Sound t.carrier) ?_ (sound_start bufSize) ran
  intro t a t' sound steps
  exact (@step_pays (fun _ => false) sampleEvent marshal peerHost t a t' sound steps).1

/-- An identifier that the portal lets through is one that the carrier's handler takes. -/
theorem valid_id_received (c : SwaCarrier.Codec) (fixtures : GoString → Option Payload)
    (d : SwaCarrier.HandlerDeps) {shipmentID : GoString} (valid : validShipmentID shipmentID = true) :
    (SwaCarrier.handleLookup c fixtures d (goString "/lookup/" ++ shipmentID)).events ≠ [] := by
  have trimmed : SwaCarrier.trimPrefix (goString "/lookup/" ++ shipmentID) (goString "/lookup/") =
      shipmentID := by
    simp [SwaCarrier.trimPrefix]
  simp only [validShipmentID, Bool.and_eq_true, List.all_eq_true, decide_eq_true_eq] at valid
  obtain ⟨⟨front, long⟩, each⟩ := valid
  have some_ : shipmentID ≠ [] := List.length_pos_iff.mp (by omega)
  have plain : SwaCarrier.slash ∉ shipmentID := by
    obtain ⟨tail, rfl⟩ := List.isPrefixOf_iff_prefix.mp front
    intro mem
    rcases List.mem_append.mp mem with inPrefix | inTail
    · exact absurd inPrefix (by decide)
    · exact absurd (each SwaCarrier.slash inTail) (by decide)
  have good : ¬ (shipmentID = [] ∨ SwaCarrier.slash ∈ shipmentID) := by
    rintro (empty | mem)
    · exact some_ empty
    · exact plain mem
  rw [SwaCarrier.handleLookup, trimmed]
  simp [if_neg good, SwaCarrier.emit]

/-- Every event that the carrier emits for a lookup is republished, once all that was sent
    has arrived, exactly when the carrier subscribed for the lookup's stream before its
    handler emitted the first one. -/
theorem lookup_events_republished (marshal : TraceEvent → Bytes) (peerHost : GoString) (bufSize : Int)
    (earlier : List Action) (s₀ : Services) (c : SwaCarrier.Codec)
    (fixtures : GoString → Option Payload) (d : SwaCarrier.HandlerDeps) (shipmentID : GoString)
    (acts : List Action) (bodies : ∀ ev, FrameBody (marshal ev))
    (reached : tryRun (step marshal peerHost) (start bufSize) earlier = some s₀)
    (valid : validShipmentID shipmentID = true)
    (smooth : TryEach (step marshal peerHost) (Smooth marshal s₀.streams.length)
      (lookup peerHost shipmentID s₀) acts)
    (served : acts.filterMap emitted =
      (SwaCarrier.handleLookup c fixtures d (goString "/lookup/" ++ shipmentID)).events) :
    ∃ s republished, tryRun (step marshal peerHost) s₀ (.lookup shipmentID :: acts) = some s ∧
      s.portal = s₀.portal ++ republished ∧ (Drained s₀.streams.length s →
        (((acts.filterMap stamped).map (rawOf marshal)).Sublist (raised republished) ↔
          SubscribedFirst s₀.streams.length acts)) := by
  have begun := follows_lookup marshal peerHost valid (sound_reached reached)
  obtain ⟨s, ran, st, onWire, republished, here, pipe⟩ :=
    tryRun_each (fun t l a meets follows => smooth_step bodies a meets follows) begun smooth
  refine ⟨s, republished, ran, pipe.portal, ?_⟩
  intro drained
  rw [drained_heard here pipe drained]
  constructor
  · intro all
    have emits : acts.filterMap stamped ≠ [] := by
      rw [Ne, silent_iff, served]
      exact valid_id_received c fixtures d valid
    have size := all.length_le
    rw [List.length_map, List.length_map] at size
    exact hears_all_subscribed (l := newListener) rfl emits (by simpa [newListener] using size)
  · intro first
    rw [subscribed_hears_all first]
    exact List.Sublist.refl _

def sampleCodec : SwaCarrier.Codec := ⟨fun _ => none, fun _ => none, fun _ => none, fun _ => []⟩

/-- The Workload API is down: the handler emits two events. -/
def downDeps : SwaCarrier.HandlerDeps where
  fetchJWTSVID := ⟨none, some (goString "down")⟩
  sm := ⟨fun _ => ⟨[], none, none⟩, fun _ _ => ⟨[], none, none⟩⟩
  secretID := []
  algKid := none

def receivedEvent : TraceEvent := newEvent "carrier" "request.received" [("id", .str sampleID)]

def svidErrorEvent : TraceEvent :=
  newEvent "carrier" "jwt_svid.error" [("err", .str (goString "down"))]

def lateRun : List Action :=
  [.emit 1 receivedEvent [], .subscribe 0, .opened 0, .emit 2 svidErrorEvent [0], .forward 0,
    .read 0 10 false, .return_ 0 (.replied [] [])]

def earlyRun : List Action :=
  [.subscribe 0, .emit 1 receivedEvent [0], .opened 0, .emit 2 svidErrorEvent [0], .forward 0,
    .forward 0, .read 0 20 false, .return_ 0 (.replied [] [])]

theorem braces_body : FrameBody [123, 125] := ⟨by decide, by decide⟩

theorem lateRun_smooth : TryEach (step (fun _ => [123, 125]) []) (Smooth (fun _ => [123, 125]) 0)
    (lookup [] sampleID (start 4)) lateRun := by
  refine tryEach_cons ⟨List.Perm.refl _, by decide⟩ rfl ?_
  refine tryEach_cons rfl rfl ?_
  refine tryEach_cons rfl rfl ?_
  refine tryEach_cons ⟨List.Perm.refl _, by decide⟩ rfl ?_
  refine tryEach_cons rfl rfl ?_
  refine tryEach_cons ⟨rfl, ?_⟩ rfl ?_
  · intro st here
    cases here
    exact ⟨[stamp 2 svidErrorEvent], rfl⟩
  · exact tryEach_cons rfl rfl trivial

theorem earlyRun_smooth : TryEach (step (fun _ => [123, 125]) []) (Smooth (fun _ => [123, 125]) 0)
    (lookup [] sampleID (start 4)) earlyRun := by
  refine tryEach_cons rfl rfl ?_
  refine tryEach_cons ⟨List.Perm.refl _, by decide⟩ rfl ?_
  refine tryEach_cons rfl rfl ?_
  refine tryEach_cons ⟨List.Perm.refl _, by decide⟩ rfl ?_
  refine tryEach_cons rfl rfl ?_
  refine tryEach_cons rfl rfl ?_
  refine tryEach_cons ⟨rfl, ?_⟩ rfl ?_
  · intro st here
    cases here
    exact ⟨[stamp 1 receivedEvent, stamp 2 svidErrorEvent], rfl⟩
  · exact tryEach_cons rfl rfl trivial

/-- The subscription comes first, and both events arrive. -/
theorem early_subscription_republished :
    ∃ s republished, tryRun (step (fun _ => [123, 125]) []) (start 4) (.lookup sampleID :: earlyRun) =
        some s ∧ s.portal = republished ∧ (Drained 0 s →
          (((earlyRun.filterMap stamped).map (rawOf fun _ => [123, 125])).Sublist (raised republished) ↔
            SubscribedFirst 0 earlyRun)) :=
  lookup_events_republished (fun _ => [123, 125]) [] 4 [] (start 4) sampleCodec (fun _ => none) downDeps
    sampleID earlyRun (fun _ => braces_body) rfl (by decide) earlyRun_smooth (by decide)

/-- The carrier serves `/lookup` first: its `request.received` finds no subscriber. -/
theorem late_subscription_loses :
    ¬ ∀ (marshal : TraceEvent → Bytes) (peerHost : GoString) (bufSize : Int) (earlier : List Action)
      (s₀ s : Services) (c : SwaCarrier.Codec) (fixtures : GoString → Option Payload)
      (d : SwaCarrier.HandlerDeps) (shipmentID : GoString) (acts : List Action)
      (republished : List PortalEvent), (∀ ev, FrameBody (marshal ev)) →
      tryRun (step marshal peerHost) (start bufSize) earlier = some s₀ →
      validShipmentID shipmentID = true →
      TryEach (step marshal peerHost) (Smooth marshal s₀.streams.length)
        (lookup peerHost shipmentID s₀) acts →
      acts.filterMap emitted =
        (SwaCarrier.handleLookup c fixtures d (goString "/lookup/" ++ shipmentID)).events →
      tryRun (step marshal peerHost) s₀ (.lookup shipmentID :: acts) = some s →
      s.portal = s₀.portal ++ republished → Drained s₀.streams.length s →
      ((acts.filterMap stamped).map (rawOf marshal)).Sublist (raised republished) := by
  intro all
  have lost := all (fun _ => [123, 125]) [] 4 [] (start 4) _ sampleCodec (fun _ => none) downDeps
    sampleID lateRun _ (fun _ => braces_body) rfl (by decide) lateRun_smooth (by decide) rfl rfl (by
      intro st here
      cases here
      exact ⟨rfl, rfl⟩)
  exact absurd lost.length_le (by decide)

end SwaForward
