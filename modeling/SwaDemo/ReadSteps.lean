import SwaDemo.FrameCuts
import Mathlib.Algebra.GroupWithZero.Nat

/-!
One read of a stream of frames. The frames it gives up are weighed against the
frames its bytes began with: a read that ends inside a frame loses weight, and a
frame that keeps the first newline of its blank line is no body.
-/
namespace SwaFrames
open SwaTrace

def weight (frames : List GoString) : Nat := (frames.map List.length).sum

@[simp] theorem weight_nil : weight [] = 0 := rfl

@[simp] theorem weight_cons (f : GoString) (fs : List GoString) :
    weight (f :: fs) = f.length + weight fs := by
  simp [weight]

@[simp] theorem weight_append (x y : List GoString) : weight (x ++ y) = weight x + weight y := by
  simp [weight]

def OneLine (frames : List GoString) : Prop := ∀ f ∈ frames, newline ∉ f

theorem oneLine_append {x y : List GoString} : OneLine (x ++ y) ↔ OneLine x ∧ OneLine y := by
  simp only [OneLine, List.mem_append]
  constructor
  · intro clean
    exact ⟨fun f mem => clean f (Or.inl mem), fun f mem => clean f (Or.inr mem)⟩
  · rintro ⟨left, right⟩ f (mem | mem)
    · exact left f mem
    · exact right f mem

theorem oneLine_bodies {bodies : List Bytes} (good : ∀ b ∈ bodies, FrameBody b) :
    OneLine (bodies.map stringOfBytes) := by
  intro f mem
  obtain ⟨b, at_, rfl⟩ := List.mem_map.mp mem
  rw [newline_mem_stringOfBytes]
  exact (good b at_).oneLine

/-- The bytes still to be read: the rest `piece` of a frame some read has begun, the
    `owed` newlines of its blank line, and the frames of `bodies`. -/
structure Owing (piece : Bytes) (owed : Nat) (bodies : List Bytes) : Prop where
  clean : newline ∉ piece
  few : owed ≤ 2
  begun : piece = [] ∨ owed = 2
  good : ∀ b ∈ bodies, FrameBody b

def remaining (piece : Bytes) (owed : Nat) (bodies : List Bytes) : Bytes :=
  piece ++ (List.replicate owed newline ++ encodeFrames bodies)

/-- A piece that itself begins with `data: ` is taken for a frame. -/
def capacity (piece : Bytes) (bodies : List Bytes) : Nat :=
  ((stringOfBytes piece).length - 6) + weight (bodies.map stringOfBytes)

/-- One read takes the stream from the first position to the second. -/
structure ReadStep (r rest : Bytes) (piece : Bytes) (owed : Nat) (bodies : List Bytes)
    (frames : List GoString) (piece' : Bytes) (owed' : Nat) (bodies' : List Bytes) : Prop where
  splits : splitFrames r = some frames
  next : Owing piece' owed' bodies'
  left : rest = remaining piece' owed' bodies'
  bound : OneLine frames → weight frames + capacity piece' bodies' ≤ capacity piece bodies
  tight : piece = [] → OneLine frames →
    weight frames + capacity piece' bodies' = capacity piece bodies →
      piece' = [] ∧ ∀ later, WholeReads owed' bodies' later → WholeReads owed bodies (r :: later)

theorem frameOf_weight (chunk : GoString) : weight (frameOf chunk).toList ≤ chunk.length - 6 := by
  cases seen : frameOf chunk with
  | none => simp
  | some f => simp [frameOf_length seen]

theorem filterMap_single (chunk : GoString) :
    [chunk].filterMap frameOf = (frameOf chunk).toList := by
  cases seen : frameOf chunk <;> simp [seen]

theorem splitFrames_plain {y : Bytes} (clean : newline ∉ y) (some_ : y ≠ []) :
    splitFrames y = some (frameOf (stringOfBytes y)).toList := by
  have split := splitLoop_tail none [] [] (by simp) clean
  simp only [encodeFrames, List.flatMap_nil, List.nil_append, List.map_nil, if_neg some_] at split
  rw [splitFrames, splitOnDoubleNewline, split, Option.map_some, filterMap_single]

/-- A read that ends inside the piece, or with it. -/
theorem step_partial {piece : Bytes} {owed : Nat} {bodies : List Bytes} {r t : Bytes}
    (start : Owing piece owed bodies) (some_ : r ≠ []) (cut : piece = r ++ t) :
    ReadStep r (remaining t owed bodies) piece owed bodies
      (frameOf (stringOfBytes r)).toList t owed bodies := by
  have clean := start.clean
  rw [cut, List.mem_append, not_or] at clean
  have begun : owed = 2 := by
    rcases start.begun with none_ | two
    · rw [none_] at cut
      exact absurd (List.append_eq_nil_iff.mp cut.symm).1 some_
    · exact two
  refine ⟨splitFrames_plain clean.1 some_, ⟨clean.2, start.few, Or.inr begun, start.good⟩, rfl, ?_, ?_⟩
  · intro _
    have light := frameOf_weight (stringOfBytes r)
    simp only [capacity, cut, stringOfBytes_append, List.length_append]
    omega
  · intro none_
    rw [none_] at cut
    exact absurd (List.append_eq_nil_iff.mp cut.symm).1 some_

/-- A read that ends with one newline behind the piece. The chunk keeps that newline. -/
theorem step_newline {piece : Bytes} {owed : Nat} {bodies : List Bytes}
    (start : Owing piece (owed + 1) bodies) :
    ∃ frames, ReadStep (piece ++ [newline]) (remaining [] owed bodies) piece (owed + 1) bodies
      frames [] owed bodies := by
  have few := start.few
  have split : splitFrames (piece ++ [newline]) =
      some (frameOf (stringOfBytes piece ++ [newline])).toList := by
    have last : lastByte none piece ≠ some newline := lastByte_plain start.clean (by simp)
    rw [splitFrames, splitOnDoubleNewline, splitLoop_plain _ _ _ _ start.clean, splitLoop,
      if_neg (fun h => last h.1), splitLoop, stringOfByte_newline, if_neg (by simp), Option.map_some,
      List.nil_append, List.nil_append, filterMap_single]
  refine ⟨_, split, ⟨by simp, by omega, Or.inl rfl, start.good⟩, rfl, ?_, ?_⟩
  · intro clean
    cases seen : frameOf (stringOfBytes piece ++ [newline]) with
    | none => simp [capacity]
    | some f =>
      have mem : newline ∈ f := by
        have shape := seen
        unfold frameOf at shape
        split at shape
        · rename_i long
          cases shape
          rw [List.drop_append_of_le_length (by simp at long; omega)]
          simp
        · contradiction
      exact absurd mem (clean f (by simp [seen]))
  · rintro rfl _ _
    exact ⟨rfl, fun later whole => .newline (by omega) whole⟩

/-- Bytes that start at a frame: what they split into, and where they leave the stream. -/
structure CleanStep (x rest : Bytes) (bodies : List Bytes) (chunks : List GoString)
    (piece' : Bytes) (owed' : Nat) (bodies' : List Bytes) : Prop where
  splits : ∀ before res, splitLoop before res [] x = some (res ++ chunks)
  next : Owing piece' owed' bodies'
  left : rest = remaining piece' owed' bodies'
  bound : OneLine (chunks.filterMap frameOf) →
    weight (chunks.filterMap frameOf) + capacity piece' bodies' ≤ weight (bodies.map stringOfBytes)
  tight : OneLine (chunks.filterMap frameOf) →
    weight (chunks.filterMap frameOf) + capacity piece' bodies' =
        weight (bodies.map stringOfBytes) →
      piece' = [] ∧ ∀ owed later, owed = 0 ∨ owed = 2 → WholeReads owed' bodies' later →
        WholeReads owed bodies ((List.replicate owed newline ++ x) :: later)

theorem clean_boundary {now later : List Bytes} (good : ∀ b ∈ now ++ later, FrameBody b) :
    CleanStep (encodeFrames now) (encodeFrames later) (now ++ later) (now.map chunkOf) [] 0 later := by
  have goodNow : ∀ b ∈ now, FrameBody b := fun b mem => good b (by simp [mem])
  have frames := frames_of_chunks goodNow
  refine ⟨?_, ⟨by simp, by omega, Or.inl rfl, fun b mem => good b (by simp [mem])⟩,
    by simp [remaining], ?_, ?_⟩
  · intro before res
    have split := splitLoop_tail before res now goodNow (show newline ∉ ([] : Bytes) by simp)
    simpa using split
  · intro _
    simp [frames, capacity]
  · intro _ _
    exact ⟨rfl, fun owed reads clean whole => .frames clean whole⟩

theorem region_length {body y x : Bytes} (region : dataPrefix ++ body = y ++ x) :
    (stringOfBytes y).length + (stringOfBytes x).length = 6 + (stringOfBytes body).length := by
  have whole := congrArg (fun z => (stringOfBytes z).length) region
  simp only [stringOfBytes_append, List.length_append, stringOfBytes_prefix] at whole
  have six : dataPrefix.length = 6 := rfl
  omega

theorem clean_inside {now later : List Bytes} {body y x : Bytes}
    (good : ∀ b ∈ now ++ body :: later, FrameBody b) (region : dataPrefix ++ body = y ++ x)
    (started : y ≠ []) :
    CleanStep (encodeFrames now ++ y) (x ++ (newline :: newline :: encodeFrames later))
      (now ++ body :: later) (now.map chunkOf ++ [stringOfBytes y]) x 2 later := by
  have goodNow : ∀ b ∈ now, FrameBody b := fun b mem => good b (by simp [mem])
  have goodBody : FrameBody body := good body (by simp)
  have plain := prefix_plain goodBody
  rw [region, List.mem_append, not_or] at plain
  have frames : (now.map chunkOf ++ [stringOfBytes y]).filterMap frameOf =
      now.map stringOfBytes ++ (frameOf (stringOfBytes y)).toList := by
    rw [List.filterMap_append, frames_of_chunks goodNow, filterMap_single]
  have size := region_length region
  have full := stringOfBytes_pos goodBody.nonempty
  have light := frameOf_weight (stringOfBytes y)
  have head := stringOfBytes_pos started
  refine ⟨?_, ⟨plain.2, by omega, Or.inr rfl, fun b mem => good b (by simp [mem])⟩, rfl, ?_, ?_⟩
  · intro before res
    have split := splitLoop_tail before res now goodNow plain.1
    rw [if_neg started] at split
    rw [split, List.append_assoc]
  · intro _
    simp only [frames, weight_append, capacity, List.map_append, List.map_cons, weight_cons]
    omega
  · intro _ same
    simp only [frames, weight_append, capacity, List.map_append, List.map_cons, weight_cons] at same
    have none_ : x = [] := by
      have : (stringOfBytes x).length = 0 := by omega
      exact stringOfBytes_eq_nil.mp (List.eq_nil_of_length_eq_zero this)
    subst x
    rw [List.append_nil] at region
    refine ⟨rfl, fun owed reads clean whole => ?_⟩
    rw [← region, ← List.append_assoc]
    exact .upToBody clean whole

theorem clean_half {now later : List Bytes} {body : Bytes}
    (good : ∀ b ∈ now ++ body :: later, FrameBody b) :
    CleanStep (encodeFrames now ++ (dataPrefix ++ body ++ [newline]))
      (newline :: encodeFrames later) (now ++ body :: later)
      (now.map chunkOf ++ [chunkOf body ++ [newline]]) [] 1 later := by
  have goodNow : ∀ b ∈ now, FrameBody b := fun b mem => good b (by simp [mem])
  have goodBody : FrameBody body := good body (by simp)
  have spoiled : ¬ OneLine ((now.map chunkOf ++ [chunkOf body ++ [newline]]).filterMap frameOf) := by
    intro clean
    rw [List.filterMap_append, filterMap_single, frameOf_chunk _ goodBody.nonempty] at clean
    exact clean (stringOfBytes body ++ [newline]) (by simp) (by simp)
  refine ⟨?_, ⟨by simp, by omega, Or.inl rfl, fun b mem => good b (by simp [mem])⟩, rfl,
    fun clean => absurd clean spoiled, fun clean => absurd clean spoiled⟩
  intro before res
  rw [splitLoop_half before res now goodNow goodBody, List.append_assoc]

theorem clean_step {bodies : List Bytes} {x rest : Bytes} (good : ∀ b ∈ bodies, FrameBody b)
    (stream : x ++ rest = encodeFrames bodies) :
    ∃ chunks piece' owed' bodies', CleanStep x rest bodies chunks piece' owed' bodies' := by
  cases frames_reach stream with
  | boundary now later split read left =>
    subst split read left
    exact ⟨_, _, _, _, clean_boundary good⟩
  | inside now body later y tail split region started read left =>
    subst split read left
    exact ⟨_, _, _, _, clean_inside good region started⟩
  | half now body later split read left =>
    subst split read left
    exact ⟨_, _, _, _, clean_half good⟩

theorem frameOf_nil : frameOf [] = none := rfl

/-- The piece ends with its whole blank line, or there is none. -/
theorem step_whole {piece x rest : Bytes} {owed : Nat} {bodies : List Bytes}
    {chunks : List GoString} {piece' : Bytes} {owed' : Nat} {bodies' : List Bytes}
    (start : Owing piece owed bodies) (even : owed = 0 ∨ owed = 2)
    (step : CleanStep x rest bodies chunks piece' owed' bodies') :
    ReadStep (piece ++ (List.replicate owed newline ++ x)) rest piece owed bodies
      ((frameOf (stringOfBytes piece)).toList ++ chunks.filterMap frameOf) piece' owed' bodies' := by
  have light := frameOf_weight (stringOfBytes piece)
  have splits : splitFrames (piece ++ (List.replicate owed newline ++ x)) =
      some ((frameOf (stringOfBytes piece)).toList ++ chunks.filterMap frameOf) := by
    rcases even with rfl | rfl
    · have none_ : piece = [] := by
        rcases start.begun with none_ | two
        · exact none_
        · omega
      subst piece
      simp [splitFrames, splitOnDoubleNewline, step.splits, frameOf_nil]
    · have last : lastByte none piece ≠ some newline := lastByte_plain start.clean (by simp)
      have shape : List.replicate 2 newline ++ x = newline :: newline :: x := rfl
      rw [splitFrames, splitOnDoubleNewline, splitLoop_plain _ _ _ _ start.clean, shape,
        splitLoop_blank _ _ _ last, step.splits, Option.map_some, List.nil_append, List.nil_append,
        List.filterMap_append, filterMap_single]
  refine ⟨splits, step.next, step.left, ?_, ?_⟩
  · intro clean
    have bound := step.bound (oneLine_append.mp clean).2
    rw [weight_append]
    unfold capacity at bound ⊢
    omega
  · rintro rfl clean same
    have bound := step.bound (oneLine_append.mp clean).2
    have tight := step.tight (oneLine_append.mp clean).2
    simp only [stringOfBytes_nil, frameOf_nil, Option.toList_none, List.nil_append] at same
    obtain ⟨gone, whole⟩ := tight (by simpa [capacity] using same)
    exact ⟨gone, fun later next => whole owed later even next⟩

/-- A newline left over from the previous read spoils the chunk that follows it. -/
theorem lost_line {y : Bytes} {chunk : GoString}
    (splits : splitLoop (some newline) [] [newline] y = some [newline :: chunk]) :
    splitFrames (newline :: y) = some [] := by
  rw [splitFrames, splitOnDoubleNewline, splitLoop, if_neg (by simp), stringOfByte_newline,
    List.nil_append, splits]
  simp [frameOf_newline]

theorem step_lost_first {body : Bytes} {bodies : List Bytes} {x rest : Bytes}
    {chunks : List GoString} {piece' : Bytes} {owed' : Nat} {bodies' : List Bytes}
    (goodBody : FrameBody body) (step : CleanStep x rest bodies chunks piece' owed' bodies') :
    ReadStep (newline :: (encodeFrame body ++ x)) rest [] 1 (body :: bodies)
      (chunks.filterMap frameOf) piece' owed' bodies' := by
  have full := stringOfBytes_pos goodBody.nonempty
  refine ⟨?_, step.next, step.left, ?_, ?_⟩
  · have chunk : [newline] ++ chunkOf body = newline :: chunkOf body := rfl
    rw [splitFrames, splitOnDoubleNewline, splitLoop, if_neg (by simp), stringOfByte_newline,
      List.nil_append, splitLoop_frame _ _ _ _ goodBody, step.splits, chunk]
    simp [frameOf_newline]
  · intro clean
    have bound := step.bound clean
    simp only [capacity, List.map_cons, weight_cons] at bound ⊢
    omega
  · intro _ clean same
    have bound := step.bound clean
    simp only [capacity, List.map_cons, weight_cons, stringOfBytes_nil, List.length_nil] at bound same
    omega

theorem step_lost_inside {body y x : Bytes} {later : List Bytes}
    (good : ∀ b ∈ body :: later, FrameBody b) (region : dataPrefix ++ body = y ++ x)
    (started : y ≠ []) :
    ReadStep (newline :: y) (x ++ (newline :: newline :: encodeFrames later)) [] 1 (body :: later)
      [] x 2 later := by
  have goodBody : FrameBody body := good body (by simp)
  have plain := prefix_plain goodBody
  rw [region, List.mem_append, not_or] at plain
  have size := region_length region
  have full := stringOfBytes_pos goodBody.nonempty
  have head := stringOfBytes_pos started
  have strict : capacity x later < capacity [] (body :: later) := by
    simp only [capacity, List.map_cons, weight_cons]
    omega
  have splits : splitLoop (some newline) [] [newline] y = some [newline :: stringOfBytes y] := by
    have plainLoop := splitLoop_plain (some newline) [] [newline] [] plain.1
    rw [List.append_nil] at plainLoop
    simp [plainLoop, splitLoop]
  refine ⟨lost_line splits, ⟨plain.2, by omega, Or.inr rfl, fun b mem => good b (by simp [mem])⟩,
    rfl, ?_, ?_⟩
  · intro _
    simp only [weight_nil]
    omega
  · intro _ _ same
    simp only [weight_nil] at same
    omega

theorem step_lost_half {body : Bytes} {later : List Bytes}
    (good : ∀ b ∈ body :: later, FrameBody b) :
    ReadStep (newline :: (dataPrefix ++ body ++ [newline])) (newline :: encodeFrames later) [] 1
      (body :: later) [] [] 1 later := by
  have goodBody : FrameBody body := good body (by simp)
  have full := stringOfBytes_pos goodBody.nonempty
  have last : lastByte (some newline) (dataPrefix ++ body) ≠ some newline := lastByte_region goodBody
  have splits : splitLoop (some newline) [] [newline] (dataPrefix ++ body ++ [newline]) =
      some [newline :: (chunkOf body ++ [newline])] := by
    rw [splitLoop_plain _ _ _ _ (prefix_plain goodBody), splitLoop, if_neg (fun h => last h.1),
      splitLoop, stringOfByte_newline, ← chunkOf_eq, if_neg (by simp)]
    simp
  refine ⟨lost_line splits, ⟨by simp, by omega, Or.inl rfl,
    fun b mem => good b (by simp [mem])⟩, rfl, ?_, ?_⟩
  · intro _
    simp only [weight_nil, capacity, List.map_cons, weight_cons]
    omega
  · intro _ _ same
    simp only [weight_nil, capacity, List.map_cons, weight_cons] at same
    omega

theorem step_lost {bodies : List Bytes} {x rest : Bytes} (good : ∀ b ∈ bodies, FrameBody b)
    (some_ : x ≠ []) (stream : x ++ rest = encodeFrames bodies) :
    ∃ frames piece' owed' bodies',
      ReadStep (newline :: x) rest [] 1 bodies frames piece' owed' bodies' := by
  have shape (first : Bytes) (now : List Bytes) (tail : Bytes) :
      encodeFrames (first :: now) ++ tail = encodeFrame first ++ (encodeFrames now ++ tail) := by
    simp [encodeFrames]
  cases frames_reach stream with
  | boundary now later split read left =>
    subst split read left
    cases now with
    | nil => exact absurd rfl some_
    | cons first now =>
      have step := @clean_boundary now later
        (fun b mem => good b (List.mem_cons_of_mem _ mem))
      exact ⟨_, _, _, _, step_lost_first (good first (by simp)) step⟩
  | inside now body later y tail split region started read left =>
    subst split read left
    cases now with
    | nil => exact ⟨_, _, _, _, step_lost_inside good region started⟩
    | cons first now =>
      have step := @clean_inside now later _ _ _
        (fun b mem => good b (List.mem_cons_of_mem _ mem)) region started
      rw [shape]
      exact ⟨_, _, _, _, step_lost_first (good first (by simp)) step⟩
  | half now body later split read left =>
    subst split read left
    cases now with
    | nil => exact ⟨_, _, _, _, step_lost_half good⟩
    | cons first now =>
      have step := @clean_half now later _
        (fun b mem => good b (List.mem_cons_of_mem _ mem))
      rw [shape]
      exact ⟨_, _, _, _, step_lost_first (good first (by simp)) step⟩

theorem newline_run {owed : Nat} {t u : Bytes} (run : List.replicate owed newline = t ++ u)
    (some_ : t ≠ []) (few : owed ≤ 2) :
    (∃ k, owed = k + 1 ∧ t = [newline] ∧ u = List.replicate k newline) ∨
      (t = List.replicate owed newline ∧ u = []) := by
  obtain ⟨size, front, back⟩ := List.append_eq_replicate_iff.mp run.symm
  have pos := List.length_pos_iff.mpr some_
  by_cases one : t.length = 1
  · refine Or.inl ⟨u.length, by omega, ?_, back⟩
    rw [front, one]
    rfl
  · have all : u.length = 0 := by omega
    refine Or.inr ⟨?_, List.eq_nil_of_length_eq_zero all⟩
    rw [front]
    congr 1
    omega

theorem read_step {piece : Bytes} {owed : Nat} {bodies : List Bytes} {r rest : Bytes}
    (start : Owing piece owed bodies) (some_ : r ≠ [])
    (stream : r ++ rest = remaining piece owed bodies) :
    ∃ frames piece' owed' bodies',
      ReadStep r rest piece owed bodies frames piece' owed' bodies' := by
  rcases append_cases stream with ⟨t, read, left⟩ | ⟨t, cut, left⟩
  · by_cases none_ : t = []
    · subst t
      rw [List.append_nil] at read
      subst read
      rw [List.nil_append] at left
      rw [← left]
      exact ⟨_, _, _, _, step_partial start some_ (List.append_nil r).symm⟩
    rcases append_cases left with ⟨u, run, tail⟩ | ⟨x, last, tail⟩
    · rcases newline_run run none_ start.few with ⟨k, one, single, more⟩ | ⟨all, gone⟩
      · subst one single more
        obtain ⟨frames, step⟩ := step_newline start
        rw [read, tail]
        exact ⟨frames, _, _, _, step⟩
      · subst all gone
        by_cases one : owed = 1
        · subst one
          obtain ⟨frames, step⟩ := step_newline start
          rw [read, tail]
          exact ⟨frames, _, _, _, step⟩
        · have few := start.few
          have step := @clean_boundary [] bodies start.good
          have whole := step_whole start (by omega) step
          rw [encodeFrames, List.flatMap_nil, List.append_nil] at whole
          rw [read, tail]
          exact ⟨_, _, _, _, whole⟩
    · have few := start.few
      by_cases one : owed = 1
      · subst one
        have empty : piece = [] := by
          rcases start.begun with empty | two
          · exact empty
          · omega
        subst piece
        by_cases only : x = []
        · subst x
          obtain ⟨frames, step⟩ := step_newline start
          rw [List.nil_append] at tail
          rw [read, last, ← tail]
          exact ⟨frames, _, _, _, step⟩
        · rw [read, last]
          exact step_lost start.good only tail.symm
      · obtain ⟨chunks, piece', owed', bodies', step⟩ := clean_step start.good tail.symm
        rw [read, last]
        exact ⟨_, _, _, _, step_whole start (by omega) step⟩
  · rw [left]
    exact ⟨_, _, _, _, step_partial start some_ cut⟩

end SwaFrames
