import SwaDemo.ReadSteps

/-!
Which cuts of a stream the reader tolerates. The weights of `read_step` add up over
the reads, so only the cuts of `WholeReads` give all the bodies back.
-/
namespace SwaFrames
open SwaTrace

/-- However the stream is cut, the reader does not panic and gives up at most what the
    frames weigh; where it gives up all of it, no read cut a frame. -/
theorem reads_bound {reads : List Bytes} (nonempty : ∀ r ∈ reads, r ≠ [])
    {piece : Bytes} {owed : Nat} {bodies : List Bytes} (start : Owing piece owed bodies)
    (stream : reads.flatten = remaining piece owed bodies) :
    ∃ out, splitReads reads = some out ∧
      (OneLine out → weight out ≤ capacity piece bodies ∧
        (piece = [] → weight out = capacity piece bodies → WholeReads owed bodies reads)) := by
  induction reads generalizing piece owed bodies with
  | nil =>
    refine ⟨[], rfl, fun _ => ⟨by simp, ?_⟩⟩
    rintro rfl _
    have left : List.replicate owed newline = [] ∧ encodeFrames bodies = [] := by
      simpa [remaining] using stream.symm
    have none_ : owed = 0 := by simpa using left.1
    cases bodies with
    | nil =>
      subst owed
      exact .done
    | cons body bodies => simp [encodeFrames, encodeFrame] at left
  | cons r reads ih =>
    rw [List.flatten_cons] at stream
    obtain ⟨frames, piece', owed', bodies', step⟩ := read_step start (nonempty r (by simp)) stream
    obtain ⟨rest, later, bound⟩ :=
      ih (fun x mem => nonempty x (List.mem_cons_of_mem _ mem)) step.next step.left
    refine ⟨frames ++ rest, splitReads_cons step.splits later, fun clean => ?_⟩
    obtain ⟨cleanNow, cleanRest⟩ := oneLine_append.mp clean
    have now := step.bound cleanNow
    obtain ⟨light, whole⟩ := bound cleanRest
    rw [weight_append]
    refine ⟨by omega, fun none_ same => ?_⟩
    obtain ⟨gone, extend⟩ := step.tight none_ cleanNow (by omega)
    exact extend reads (whole gone (by omega))

theorem splitReads_whole {owed : Nat} {bodies reads : List Bytes} (whole : WholeReads owed bodies reads)
    (good : ∀ b ∈ bodies, FrameBody b) : splitReads reads = some (bodies.map stringOfBytes) := by
  induction whole with
  | done => rfl
  | newline few later ih =>
    have alone : splitFrames [SwaFrames.newline] = some [] := by decide
    exact splitReads_cons alone (ih good)
  | @frames owed now bodies reads clean later ih =>
    have step := @clean_boundary now bodies good
    have start : Owing [] owed (now ++ bodies) := ⟨by simp, by omega, Or.inl rfl, good⟩
    have splits := (step_whole start clean step).splits
    have frames := @frames_of_chunks now (fun b mem => good b (by simp [mem]))
    simp only [List.nil_append, stringOfBytes_nil, frameOf_nil, Option.toList_none, frames] at splits
    rw [splitReads_cons splits (ih (fun b mem => good b (by simp [mem]))), List.map_append]
  | @upToBody owed now bodies reads body clean later ih =>
    have goodBody := good body (by simp)
    have step := @clean_inside now bodies body (dataPrefix ++ body) [] good (by simp)
      (by simp [dataPrefix])
    have start : Owing [] owed (now ++ body :: bodies) := ⟨by simp, by omega, Or.inl rfl, good⟩
    have splits := (step_whole start clean step).splits
    have frames := @frames_of_chunks now (fun b mem => good b (by simp [mem]))
    have last := frameOf_chunk [] goodBody.nonempty
    rw [List.append_nil, List.append_nil] at last
    simp only [List.nil_append, stringOfBytes_nil, frameOf_nil, Option.toList_none,
      List.filterMap_append, frames, filterMap_single, ← chunkOf_eq, last, Option.toList_some,
      ← List.append_assoc] at splits
    rw [List.append_assoc] at splits
    rw [splitReads_cons splits (ih (fun b mem => good b (by simp [mem])))]
    simp

/-- Consecutive reads of a stream; only the last one may report the end with its bytes. -/
structure Cut (stream : Bytes) (reads : List Read) : Prop where
  whole : (reads.map (·.bytes)).flatten = stream
  nonempty : ∀ r ∈ reads, r.bytes ≠ []
  fits : ∀ r ∈ reads, r.bytes.length ≤ 8192
  ongoing : ∀ r ∈ reads.dropLast, r.failed = false

theorem rawEvent_injective {f g : GoString} (same : rawEvent f = rawEvent g) : f = g := by
  simpa [rawEvent, newEvent] using same

theorem streamReads_split {reads : List Read} (nonempty : ∀ r ∈ reads, r.bytes ≠ [])
    (ongoing : ∀ r ∈ reads.dropLast, r.failed = false) :
    streamReads reads = (splitReads (reads.map (·.bytes))).map (·.map rawEvent) := by
  induction reads with
  | nil => rfl
  | cons r reads ih =>
    have full := nonempty r (by simp)
    cases reads with
    | nil =>
      cases frames : splitFrames r.bytes <;> simp [streamReads, splitReads, full, frames]
    | cons next reads =>
      have goes := ongoing r (by simp)
      have later := ih (fun x mem => nonempty x (List.mem_cons_of_mem _ mem))
        (fun x mem => ongoing x (by rw [List.dropLast_cons_cons]; exact List.mem_cons_of_mem _ mem))
      have shape : (r :: next :: reads).map (·.bytes) = r.bytes :: (next :: reads).map (·.bytes) := rfl
      rw [streamReads, if_neg full, goes, later, shape, splitReads]
      generalize splitReads ((next :: reads).map (·.bytes)) = rest
      cases splitFrames r.bytes with
      | none => rfl
      | some frames => cases rest <;> simp

theorem cut_splits {bodies : List Bytes} {reads : List Read} (good : ∀ b ∈ bodies, FrameBody b)
    (cut : Cut (encodeFrames bodies) reads) :
    splitReads (reads.map (·.bytes)) = some (bodies.map stringOfBytes) ↔
      WholeReads 0 bodies (reads.map (·.bytes)) := by
  have start : Owing [] 0 bodies := ⟨by simp, by omega, Or.inl rfl, good⟩
  have nonempty : ∀ x ∈ reads.map (·.bytes), x ≠ [] := by
    intro x mem
    obtain ⟨r, at_, rfl⟩ := List.mem_map.mp mem
    exact cut.nonempty r at_
  obtain ⟨out, splits, bound⟩ := reads_bound nonempty start (by rw [cut.whole]; rfl)
  constructor
  · intro same
    rw [splits, Option.some.injEq] at same
    subst same
    exact (bound (oneLine_bodies good)).2 rfl (by simp [capacity])
  · intro whole
    exact splitReads_whole whole good

theorem cut_forwards {bodies : List Bytes} {reads : List Read} (good : ∀ b ∈ bodies, FrameBody b)
    (cut : Cut (encodeFrames bodies) reads) :
    streamReads reads = some (bodies.map fun b => rawEvent (stringOfBytes b)) ↔
      WholeReads 0 bodies (reads.map (·.bytes)) := by
  have lifted : (bodies.map fun b => rawEvent (stringOfBytes b)) =
      (bodies.map stringOfBytes).map rawEvent := by simp
  rw [← cut_splits good cut, streamReads_split cut.nonempty cut.ongoing, lifted]
  cases splitReads (reads.map (·.bytes)) with
  | none => simp
  | some out =>
    rw [Option.map_some, Option.some.injEq, Option.some.injEq]
    exact List.map_inj_right (fun _ _ => rawEvent_injective)

def singles (stream : Bytes) : List Read := stream.map fun b => ⟨[b], false⟩

theorem singles_read {stream : Bytes} {r : Read} (mem : r ∈ singles stream) :
    ∃ b, r = ⟨[b], false⟩ := by
  obtain ⟨b, _, rfl⟩ := List.mem_map.mp mem
  exact ⟨b, rfl⟩

theorem singles_bytes (stream : Bytes) : ((singles stream).map (·.bytes)).flatten = stream := by
  induction stream with
  | nil => rfl
  | cons b stream ih => simpa [singles] using ih

theorem singles_cut (stream : Bytes) : Cut stream (singles stream) := by
  refine ⟨singles_bytes stream, ?_, ?_, ?_⟩
  · intro r mem
    obtain ⟨b, rfl⟩ := singles_read mem
    simp
  · intro r mem
    obtain ⟨b, rfl⟩ := singles_read mem
    simp
  · intro r mem
    obtain ⟨b, rfl⟩ := singles_read (List.dropLast_subset _ mem)
    rfl

/-- Each frame in a read of its own. -/
def apart (bodies : List Bytes) : List Read := bodies.map fun b => ⟨encodeFrame b, false⟩

theorem apart_cut {bodies : List Bytes} (fits : ∀ b ∈ bodies, (encodeFrame b).length ≤ 8192) :
    Cut (encodeFrames bodies) (apart bodies) := by
  have read {r : Read} (mem : r ∈ apart bodies) : ∃ b ∈ bodies, r = ⟨encodeFrame b, false⟩ := by
    obtain ⟨b, known, rfl⟩ := List.mem_map.mp mem
    exact ⟨b, known, rfl⟩
  refine ⟨?_, ?_, ?_, ?_⟩
  · rw [apart, List.map_map, encodeFrames, List.flatMap_def]
    rfl
  · intro r mem
    obtain ⟨b, _, rfl⟩ := read mem
    simp [encodeFrame]
  · intro r mem
    obtain ⟨b, known, rfl⟩ := read mem
    exact fits b known
  · intro r mem
    obtain ⟨b, _, rfl⟩ := read (List.dropLast_subset _ mem)
    rfl

theorem apart_whole (bodies : List Bytes) : WholeReads 0 bodies ((apart bodies).map (·.bytes)) := by
  induction bodies with
  | nil => exact .done
  | cons b bodies ih =>
    have first := @WholeReads.frames 0 [b] bodies _ (Or.inl rfl) ih
    simpa [apart, encodeFrames] using first

/-- One byte is never more than six bytes of text, so byte by byte nothing gets through. -/
theorem splitFrames_byte (b : UInt8) : splitFrames [b] = some [] := by
  have short : (stringOfByte b).length ≤ 2 := by
    unfold stringOfByte
    split <;> simp
  have full : stringOfByte b ≠ [] := by
    have := stringOfByte_length b
    exact List.ne_nil_of_length_pos (by omega)
  have nothing : frameOf (stringOfByte b) = none := by
    rw [frameOf, if_neg]
    omega
  simp [splitFrames, splitOnDoubleNewline, splitLoop, full, nothing]

theorem singles_silent (stream : Bytes) :
    splitReads ((singles stream).map (·.bytes)) = some [] := by
  induction stream with
  | nil => rfl
  | cons b stream ih => exact splitReads_cons (splitFrames_byte b) ih

theorem singles_forward (stream : Bytes) : streamReads (singles stream) = some [] := by
  have cut := singles_cut stream
  rw [streamReads_split cut.nonempty cut.ongoing, singles_silent]
  rfl

/-- The head of the first frame in one read, and the rest byte by byte. -/
theorem head_forwards {b : UInt8} {bs : Bytes} {bodies : List Bytes}
    (good : FrameBody (b :: bs)) :
    ∃ reads, Cut (encodeFrames ((b :: bs) :: bodies)) reads ∧
      streamReads reads = some [rawEvent (stringOfBytes [b])] := by
  let tail := bs ++ [newline, newline] ++ encodeFrames bodies
  have shape : encodeFrames ((b :: bs) :: bodies) = (dataPrefix ++ [b]) ++ tail := by
    simp [encodeFrames, encodeFrame, tail]
  have rest := singles_cut tail
  have cut : Cut (encodeFrames ((b :: bs) :: bodies))
      (⟨dataPrefix ++ [b], false⟩ :: singles tail) := by
    refine ⟨?_, ?_, ?_, ?_⟩
    · rw [List.map_cons, List.flatten_cons, rest.whole, shape]
    · intro r mem
      rcases List.mem_cons.mp mem with rfl | mem
      · simp
      · exact rest.nonempty r mem
    · intro r mem
      rcases List.mem_cons.mp mem with rfl | mem
      · simp [dataPrefix]
      · exact rest.fits r mem
    · intro r mem
      rcases List.mem_cons.mp (List.dropLast_subset _ mem) with rfl | mem
      · rfl
      · obtain ⟨c, rfl⟩ := singles_read mem
        rfl
  have clean : newline ∉ dataPrefix ++ [b] := by
    have other : newline ∉ b :: bs := good.oneLine
    simp only [List.mem_cons, not_or] at other
    simp only [List.mem_append, List.mem_singleton, not_or]
    exact ⟨by decide, other.1⟩
  have frame : frameOf (stringOfBytes (dataPrefix ++ [b])) = some (stringOfBytes [b]) := by
    have first := @frameOf_chunk [b] [] (by simp)
    rw [List.append_nil, List.append_nil, chunkOf_eq] at first
    exact first
  have splits : splitFrames (dataPrefix ++ [b]) = some [stringOfBytes [b]] := by
    rw [splitFrames_plain clean (by simp), frame, Option.toList_some]
  refine ⟨_, cut, ?_⟩
  rw [streamReads_split cut.nonempty cut.ongoing, List.map_cons,
    splitReads_cons splits (singles_silent tail)]
  rfl

/-- Exactly the cuts of `WholeReads` republish the bodies that were sent; a cut agrees
    with such a cut if and only if it is one; and only the empty stream is safe against
    every cut. -/
theorem forwarding_iff_whole_reads {bodies : List Bytes} (good : ∀ b ∈ bodies, FrameBody b) :
    (∀ reads, Cut (encodeFrames bodies) reads →
      (streamReads reads = some (bodies.map fun b => rawEvent (stringOfBytes b)) ↔
        WholeReads 0 bodies (reads.map (·.bytes)))) ∧
    (∀ first second, Cut (encodeFrames bodies) first → Cut (encodeFrames bodies) second →
      WholeReads 0 bodies (first.map (·.bytes)) →
      (streamReads first = streamReads second ↔ WholeReads 0 bodies (second.map (·.bytes)))) ∧
    ((∀ first second, Cut (encodeFrames bodies) first → Cut (encodeFrames bodies) second →
      streamReads first = streamReads second) ↔ bodies = []) := by
  refine ⟨fun reads cut => cut_forwards good cut, ?_, ?_⟩
  · intro first second cut₁ cut₂ whole
    rw [(cut_forwards good cut₁).mpr whole, eq_comm]
    exact cut_forwards good cut₂
  · constructor
    · intro agree
      match bodies, good, agree with
      | [], _, _ => rfl
      | [] :: _, good, _ => exact absurd rfl (good [] (by simp)).nonempty
      | (b :: bs) :: later, good, agree =>
        obtain ⟨reads, cut, sent⟩ := @head_forwards b bs later (good _ (by simp))
        have silent := agree reads _ cut (singles_cut _)
        rw [sent, singles_forward] at silent
        simp at silent
    · rintro rfl first second cut₁ cut₂
      have silent (reads : List Read) (cut : Cut (encodeFrames []) reads) : reads = [] := by
        cases reads with
        | nil => rfl
        | cons r reads =>
          have none_ := cut.whole
          simp only [List.map_cons, List.flatten_cons, encodeFrames, List.flatMap_nil,
            List.append_eq_nil_iff] at none_
          exact absurd none_.1 (cut.nonempty r (by simp))
      rw [silent first cut₁, silent second cut₂]

def smallBody : Bytes := [123, 125]

theorem smallBody_good : ∀ b ∈ [smallBody], FrameBody b := by
  intro b mem
  rw [List.mem_singleton.mp mem]
  exact ⟨by decide, by decide⟩

theorem small_frame_whole :
    streamReads [⟨encodeFrame smallBody, true⟩] = some [rawEvent smallBody] ∧
      WholeReads 0 [smallBody] [encodeFrame smallBody] := by
  have cut : Cut (encodeFrames [smallBody]) [⟨encodeFrame smallBody, true⟩] := by
    refine ⟨by decide, by decide, by decide, by decide⟩
  have sent : streamReads [⟨encodeFrame smallBody, true⟩] = some [rawEvent smallBody] := by decide
  exact ⟨sent, ((forwarding_iff_whole_reads smallBody_good).1 _ cut).mp sent⟩

/-- The frame arrives whole in one cutting; in the other a boundary falls inside the body. -/
theorem forwarding_depends_on_cut :
    ¬ ∀ (bodies : List Bytes) (first second : List Read), (∀ b ∈ bodies, FrameBody b) →
      Cut (encodeFrames bodies) first → Cut (encodeFrames bodies) second →
      streamReads first = streamReads second := by
  intro same
  have differ := same [smallBody] [⟨encodeFrame smallBody, true⟩]
    [⟨dataPrefix ++ [123], false⟩, ⟨[125, newline, newline], true⟩] smallBody_good
    ⟨by decide, by decide, by decide, by decide⟩ ⟨by decide, by decide, by decide, by decide⟩
  exact absurd differ (by decide)

end SwaFrames
