import SwaDemo.ReadBoundaries

/-!
What a reader republishes of a stream of frames, wherever its reads end: the front of a
body, up to all of it and one newline of the blank line. A frame that is cut is told by its
`data: `, so a body must not hold these bytes itself.
-/
namespace SwaFrames
open SwaTrace

/-- The loop only cuts: each chunk is the text of bytes that stand together in the read, and
    no blank line is among them. -/
def Chunk (read : Bytes) (chunk : GoString) : Prop :=
  ∃ g, g <:+: read ∧ chunk = stringOfBytes g ∧ ¬ [newline, newline] <:+: g

theorem blank_concat {g : Bytes} {b : UInt8} (clean : ¬ [newline, newline] <:+: g)
    (fresh : ¬ (g.getLast? = some newline ∧ b = newline)) : ¬ [newline, newline] <:+: g ++ [b] := by
  rw [List.infix_concat_iff]
  rintro (ends | inside)
  · obtain ⟨t, same⟩ := ends
    have parts : t ++ [newline] ++ [newline] = g ++ [b] := by simpa using same
    obtain ⟨rfl, last⟩ := List.append_inj' parts rfl
    exact fresh ⟨by simp, (List.singleton_inj.mp last).symm⟩
  · exact clean inside

theorem splitLoop_chunks {read done g x : Bytes} {before : Option UInt8} {res chunks : List GoString}
    (place : read = done ++ g ++ x) (last : g ≠ [] → before = g.getLast?)
    (clean : ¬ [newline, newline] <:+: g) (known : ∀ c ∈ res, Chunk read c)
    (splits : splitLoop before res (stringOfBytes g) x = some chunks) : ∀ c ∈ chunks, Chunk read c := by
  induction x generalizing done g before res with
  | nil =>
    rw [splitLoop] at splits
    cases splits
    intro c mem
    split at mem
    · exact known c mem
    · rcases List.mem_append.mp mem with old | new
      · exact known c old
      · rw [List.mem_singleton.mp new]
        exact ⟨g, ⟨done, [], place.symm⟩, rfl, clean⟩
  | cons b x ih =>
    have grown : stringOfBytes g ++ stringOfByte b = stringOfBytes (g ++ [b]) := by simp
    rw [splitLoop, grown] at splits
    by_cases cut : before = some newline ∧ b = newline
    · obtain ⟨rfl, rfl⟩ := cut
      rw [if_pos ⟨rfl, rfl⟩] at splits
      split at splits
      · contradiction
      · rename_i long
        have some_ : g ≠ [] := by
          rintro rfl
          exact long (by decide)
        obtain ⟨front, rfl⟩ := List.getLast?_eq_some_iff.mp (last some_).symm
        have text : (stringOfBytes (front ++ [newline] ++ [newline])).take
            ((stringOfBytes (front ++ [newline] ++ [newline])).length - 2) = stringOfBytes front := by
          simp [stringOfByte_newline]
        have chunk : Chunk read (stringOfBytes front) :=
          ⟨front, ⟨done, newline :: newline :: x, by simp [place]⟩, rfl,
            fun inside => clean (List.infix_append_of_infix_left inside)⟩
        rw [text] at splits
        refine @ih (done ++ (front ++ [newline]) ++ [newline]) [] _ _ (by simp [place]) (by simp)
          (by simp) ?_ splits
        intro c mem
        rcases List.mem_append.mp mem with old | new
        · exact known c old
        · rw [List.mem_singleton.mp new]
          exact chunk
    · rw [if_neg cut] at splits
      have clean' : ¬ [newline, newline] <:+: g ++ [b] := by
        by_cases empty : g = []
        · subst empty
          intro inside
          have size := inside.length_le
          simp at size
        · exact blank_concat clean (last empty ▸ cut)
      exact @ih done (g ++ [b]) _ _ (by simp [place]) (by simp) clean' known splits

theorem prefix_ascii {p g : Bytes} (ascii : ∀ b ∈ p, b.toNat < 128) (front : p <+: stringOfBytes g) :
    ∃ h, g = p ++ h ∧ stringOfBytes g = p ++ stringOfBytes h := by
  induction p generalizing g with
  | nil => exact ⟨g, rfl, rfl⟩
  | cons c p ih =>
    obtain ⟨small, rest⟩ := List.forall_mem_cons.mp ascii
    cases g with
    | nil => simp at front
    | cons b g =>
      rw [stringOfBytes_cons, stringOfByte] at front
      split at front
      · rename_i low
        obtain ⟨rfl, later⟩ := List.cons_prefix_cons.mp front
        obtain ⟨h, rfl, same⟩ := ih rest later
        exact ⟨h, rfl, by simp [stringOfByte, low, same]⟩
      · rename_i high
        obtain ⟨rfl, _⟩ := List.cons_prefix_cons.mp front
        have size := b.toNat_lt
        rw [UInt8.toNat_ofNat'] at small
        omega

/-- A chunk gives a frame where its bytes begin with `data: `. -/
theorem frameOf_front {g : Bytes} {frame : GoString} (is : frameOf (stringOfBytes g) = some frame) :
    ∃ h, g = dataPrefix ++ h ∧ h ≠ [] ∧ frame = stringOfBytes h := by
  unfold frameOf at is
  split at is
  · rename_i shape
    have ascii : ∀ b ∈ dataPrefix, b.toNat < 128 := by simp [dataPrefix]
    have front : dataPrefix <+: stringOfBytes g := shape.2 ▸ List.take_prefix 6 (stringOfBytes g)
    obtain ⟨h, same, text⟩ := prefix_ascii ascii front
    cases is
    refine ⟨h, same, ?_, by simp [text, dataPrefix]⟩
    rintro rfl
    have size := shape.1
    simp [text, dataPrefix] at size
  · contradiction

/-! ## Where a frame begins -/

/-- `data: ` does not begin inside a frame of such a body. -/
theorem prefix_inside {body u t y : Bytes} (plain : ¬ dataPrefix <:+: body)
    (place : encodeFrame body = u ++ t) (inside : u ≠ []) (some_ : t ≠ []) : ¬ dataPrefix <+: t ++ y := by
  rintro ⟨w, same⟩
  have head : (t ++ y).head? = some 100 := by rw [← same]; rfl
  have shape : u ++ t = (dataPrefix ++ body) ++ [newline, newline] := place.symm
  rcases append_cases shape with ⟨s, _, blank⟩ | ⟨s, region, rfl⟩
  · -- what is left of the frame is of its blank line
    have line : ∀ b ∈ t, b = newline := fun b mem => by
      have known : b ∈ [newline, newline] := blank ▸ List.mem_append_right s mem
      simpa using known
    cases t with
    | nil => exact some_ rfl
    | cons b t =>
      rw [List.cons_append, List.head?_cons, Option.some.injEq, line b (by simp)] at head
      contradiction
  · have whole : ∃ k, s = dataPrefix ++ k := by
      rw [List.append_assoc] at same
      rcases append_cases same with ⟨k, front, rest⟩ | ⟨k, front, _⟩
      · cases k with
        | nil => exact ⟨[], by simpa using front.symm⟩
        | cons b k =>
          have line : b = newline := by simpa using (congrArg List.head? rest).symm
          have among : newline ∈ dataPrefix := by simp [front, line]
          exact absurd among (by decide)
      · exact ⟨k, front⟩
    obtain ⟨k, rfl⟩ := whole
    rcases append_cases region with ⟨j, front, rest⟩ | ⟨j, _, rest⟩
    · cases j with
      | nil => exact plain ⟨[], k, by simpa using rest⟩
      | cons b j =>
        have first : b = 100 := by simpa [dataPrefix] using (congrArg List.head? rest).symm
        have twice : ∀ u j : Bytes, u ≠ [] → dataPrefix ≠ u ++ 100 :: j := by
          intro u j some_ same
          have among : (100 : UInt8) ∈ dataPrefix.tail := by
            rw [same, List.tail_append_of_ne_nil some_]
            simp
          exact absurd among (by decide)
        exact twice u j inside (first ▸ front)
    · exact plain ⟨j, k, by rw [rest, List.append_assoc]⟩

/-- Where the bytes of a frame stand in the stream, and what body they begin. -/
theorem front_of_body {bodies : List Bytes} {h : Bytes}
    (plain : ∀ b ∈ bodies, ¬ dataPrefix <:+: b) (clean : ¬ [newline, newline] <:+: h)
    (inside : dataPrefix ++ h <:+: encodeFrames bodies) : ∃ b ∈ bodies, h <+: b ++ [newline] := by
  induction bodies with
  | nil =>
    have none_ := List.infix_nil.mp inside
    simp [dataPrefix] at none_
  | cons body bodies ih =>
    obtain ⟨u, v, place⟩ := inside
    have shape : u ++ (dataPrefix ++ h ++ v) = encodeFrame body ++ encodeFrames bodies := by
      rw [← List.append_assoc, place]
      rfl
    obtain ⟨plain', plainLater⟩ := List.forall_mem_cons.mp plain
    rcases append_cases shape with ⟨t, rfl, tail⟩ | ⟨t, frame, tail⟩
    · obtain ⟨b, mem, front⟩ := ih plainLater ⟨t, v, by rw [tail]; simp⟩
      exact ⟨b, List.mem_cons_of_mem _ mem, front⟩
    · by_cases start : u = []
      · subst start
        rw [List.nil_append, encodeFrame, List.append_assoc, List.append_assoc, List.append_assoc] at shape
        rcases append_cases (List.append_cancel_left shape) with ⟨k, rfl, rest⟩ | ⟨k, rfl, _⟩
        · refine ⟨body, by simp, List.prefix_append_right_inj body |>.mpr ?_⟩
          cases k with
          | nil => exact List.nil_prefix
          | cons b k =>
            obtain ⟨rfl, later⟩ := List.cons.inj rest
            cases k with
            | nil => exact List.prefix_refl _
            | cons c k =>
              have second : newline = c := (List.cons.inj later).1
              exact absurd ⟨body, k, by simp [second]⟩ clean
        · exact ⟨h ++ k, List.mem_cons_self, k ++ [newline], (List.append_assoc _ _ _).symm⟩
      · by_cases ended : t = []
        · subst ended
          obtain ⟨b, mem, front⟩ := ih plainLater ⟨[], v, by simpa using tail⟩
          exact ⟨b, List.mem_cons_of_mem _ mem, front⟩
        · have begins : dataPrefix <+: t ++ encodeFrames bodies :=
            ⟨h ++ v, by rw [← List.append_assoc, tail]⟩
          exact absurd begins (prefix_inside plain' frame start ended)

/-! ## A stream -/

theorem splitFrames_fronts {read : Bytes} {frames : List GoString} (splits : splitFrames read = some frames) :
    ∀ f ∈ frames, ∃ h, dataPrefix ++ h <:+: read ∧ h ≠ [] ∧ ¬ [newline, newline] <:+: h ∧
      f = stringOfBytes h := by
  obtain ⟨chunks, cut, rfl⟩ := Option.map_eq_some_iff.mp splits
  intro f mem
  obtain ⟨c, known, is⟩ := List.mem_filterMap.mp mem
  have each := @splitLoop_chunks read [] [] read none [] chunks rfl (by simp) (by simp) (by simp) cut
  obtain ⟨g, inside, rfl, clean⟩ := each c known
  obtain ⟨h, rfl, some_, rfl⟩ := frameOf_front is
  exact ⟨h, inside, some_, fun line => clean (List.infix_append_of_infix_right line), rfl⟩

theorem streamReads_cons (r : Read) (later : List Read) : streamReads (r :: later) =
    (if r.bytes = [] then some [] else splitFrames r.bytes).bind fun frames =>
      (if r.failed then some [] else streamReads later).map fun rest => frames.map rawEvent ++ rest := by
  rw [streamReads]
  split <;> split <;> simp only [Option.map_eq_bind, Option.bind_some] <;> rfl

/-- Every event that a reader republishes of a stream holds the front of a body that was sent,
    however the stream is cut into reads. -/
theorem streamReads_fronts {bodies : List Bytes} (plain : ∀ b ∈ bodies, ¬ dataPrefix <:+: b)
    {reads : List Read} (cut : Cut (encodeFrames bodies) reads) {raws : List TraceEvent}
    (forwards : streamReads reads = some raws) :
    ∀ raw ∈ raws, ∃ b ∈ bodies, ∃ h, h ≠ [] ∧ h <+: b ++ [newline] ∧
      raw = rawEvent (stringOfBytes h) := by
  have inside : ∀ r ∈ reads, r.bytes <:+: encodeFrames bodies := fun r mem =>
    cut.whole ▸ List.infix_of_mem_flatten (List.mem_map_of_mem mem)
  clear cut
  induction reads generalizing raws with
  | nil =>
    cases forwards
    simp
  | cons r reads ih =>
    obtain ⟨here, later⟩ := List.forall_mem_cons.mp inside
    rw [streamReads_cons] at forwards
    obtain ⟨frames, splits, forwards⟩ := Option.bind_eq_some_iff.mp forwards
    obtain ⟨rest, goes, rfl⟩ := Option.map_eq_some_iff.mp forwards
    intro raw mem
    rcases List.mem_append.mp mem with now | after
    · obtain ⟨f, known, rfl⟩ := List.mem_map.mp now
      split at splits
      · cases splits
        contradiction
      · obtain ⟨h, place, some_, clean, rfl⟩ := splitFrames_fronts splits f known
        obtain ⟨b, sent, front⟩ := front_of_body plain clean (place.trans here)
        exact ⟨b, sent, h, some_, front, rfl⟩
    · split at goes
      · cases goes
        contradiction
      · exact ih goes later raw after

end SwaFrames
