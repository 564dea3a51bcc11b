import SwaDemo.FrameSplit

/-!
The splitter on its own: the reads on which it panics, and the bodies it gives back
as they were sent. It looks for a newline behind a newline in the read, but cuts two
bytes off a chunk that may have been started in between, and it turns each byte into
the text of the code point with that number.
-/
namespace SwaFrames
open SwaTrace

/-- The newlines just before the rest of the read that may still end a chunk: after a
    cut there are two, inside a chunk at most one. -/
def carried (before : Option UInt8) (cur : GoString) : Bytes :=
  if before = some newline then if cur = [] then [newline, newline] else [newline] else []

def blankLines : Bytes := [newline, newline, newline]

theorem blankLines_skip {owed : Bytes} {b : UInt8} {x : Bytes} (other : b ≠ newline)
    (few : owed = [] ∨ owed = [newline] ∨ owed = [newline, newline]) :
    blankLines <:+: owed ++ b :: x ↔ blankLines <:+: x := by
  have apart : ¬ newline = b := fun same => other same.symm
  rcases few with rfl | rfl | rfl
  · simp [blankLines, List.infix_cons_iff, List.cons_prefix_cons, apart]
  · simp [blankLines, List.infix_cons_iff, List.cons_prefix_cons, apart]
  · simp [blankLines, List.infix_cons_iff, List.cons_prefix_cons, apart]

theorem carried_few (before : Option UInt8) (cur : GoString) :
    carried before cur = [] ∨ carried before cur = [newline] ∨
      carried before cur = [newline, newline] := by
  unfold carried
  split
  · split
    · exact Or.inr (Or.inr rfl)
    · exact Or.inr (Or.inl rfl)
  · exact Or.inl rfl

/-- The loop panics exactly when a third newline follows two, the carried ones included. -/
theorem splitLoop_panics {before : Option UInt8} {res : List GoString} {cur : GoString} {x : Bytes} :
    splitLoop before res cur x = none ↔ blankLines <:+: carried before cur ++ x := by
  induction x generalizing before res cur with
  | nil =>
    have short : ¬ blankLines <:+: carried before cur := by
      intro inside
      have size := inside.length_le
      rcases carried_few before cur with few | few | few <;> simp [few, blankLines] at size
    simpa [splitLoop] using short
  | cons b x ih =>
    by_cases line : b = newline
    · subst line
      rw [splitLoop, stringOfByte_newline]
      by_cases twice : before = some newline
      · subst twice
        simp only [and_self, if_true]
        by_cases empty : cur = []
        · -- the chunk was cut at the newline before this one
          subst empty
          have inside : blankLines <:+: [newline, newline] ++ newline :: x :=
            (List.prefix_append blankLines x).isInfix
          simpa [carried] using inside
        · have long : ¬ (cur ++ [newline]).length < 2 := by
            have := List.length_pos_iff.mpr empty
            simp only [List.length_append, List.length_singleton]
            omega
          rw [if_neg long, ih]
          simp [carried, empty]
      · rw [if_neg (fun h => twice h.1), ih]
        simp [carried, twice]
    · have fresh : ¬ (before = some newline ∧ b = newline) := fun h => line h.2
      have clean : carried (some b) (cur ++ stringOfByte b) = [] := by
        simp [carried, line]
      rw [splitLoop, if_neg fresh, ih, clean, List.nil_append,
        blankLines_skip line (carried_few before cur)]

/-- The splitter gets through a read exactly when it holds no three newlines in a row. -/
theorem split_within_bounds (read : Bytes) :
    (∃ frames, splitFrames read = some frames) ↔ ¬ blankLines <:+: read := by
  have panics : splitOnDoubleNewline read = none ↔ blankLines <:+: read := splitLoop_panics
  rw [← panics, splitFrames]
  cases splitOnDoubleNewline read with
  | none => simp
  | some chunks => simp

/-- Three newlines: the chunk that the third one ends is a single byte long. -/
theorem blank_lines_panic :
    ¬ ∀ read : Bytes, ∃ frames, splitFrames read = some frames := by
  intro all
  obtain ⟨frames, splits⟩ := all blankLines
  have panics : splitFrames blankLines = none := by decide
  rw [panics] at splits
  contradiction

/-- The bytes of a Go string that is valid UTF-8. -/
def ValidUtf8 (body : Bytes) : Prop := ∃ text : String, body = goString text

def Ascii (body : Bytes) : Prop := ∀ b ∈ body, b.toNat < 128

theorem stringOfByte_ascii {b : UInt8} : (stringOfByte b).length = 1 ↔ b.toNat < 128 := by
  unfold stringOfByte
  split
  · simpa
  · rename_i high
    exact iff_of_false (by simp) high

/-- A text is rebuilt as it was exactly when every byte of it stands for itself. -/
theorem stringOfBytes_ascii {body : Bytes} : stringOfBytes body = body ↔ Ascii body := by
  induction body with
  | nil => simp [Ascii]
  | cons b body ih =>
    have only : Ascii (b :: body) ↔ b.toNat < 128 ∧ Ascii body := by
      simp [Ascii]
    rw [only, ← ih, stringOfBytes_cons]
    constructor
    · intro same
      have size := congrArg List.length same
      have head := stringOfByte_length b
      have tail := stringOfBytes_length body
      simp only [List.length_append, List.length_cons] at size
      have low : b.toNat < 128 := stringOfByte_ascii.mp (by omega)
      refine ⟨low, ?_⟩
      simpa [stringOfByte, low] using same
    · rintro ⟨low, same⟩
      simp [stringOfByte, low, same]

theorem split_frames (bodies : List Bytes) (good : ∀ b ∈ bodies, FrameBody b) :
    splitFrames (encodeFrames bodies) = some (bodies.map stringOfBytes) := by
  have split := splitLoop_tail none [] bodies good (show newline ∉ ([] : Bytes) by simp)
  rw [List.append_nil, List.nil_append, if_pos rfl, List.append_nil] at split
  rw [splitFrames, splitOnDoubleNewline, split, Option.map_some, frames_of_chunks good]

/-- Frames written one after the other come back as they were sent exactly when the
    bodies are ASCII. -/
theorem decode_encode_frames {bodies : List Bytes} (good : ∀ b ∈ bodies, FrameBody b) :
    splitFrames (encodeFrames bodies) = some bodies ↔ ∀ b ∈ bodies, Ascii b := by
  rw [split_frames bodies good, Option.some_inj]
  constructor
  · intro same b mem
    have fixed : bodies.map stringOfBytes = bodies.map id := by rw [same, List.map_id]
    exact stringOfBytes_ascii.mp (List.map_inj_left.mp fixed b mem)
  · intro ascii
    have fixed : bodies.map stringOfBytes = bodies.map id :=
      List.map_inj_left.mpr fun b mem => stringOfBytes_ascii.mpr (ascii b mem)
    rw [fixed, List.map_id]

theorem two_ascii_frames :
    splitFrames (encodeFrames [[123, 125], [34, 34]]) = some [[123, 125], [34, 34]] := by
  refine (decode_encode_frames ?_).mpr ?_
  · intro b mem
    have either : b = [123, 125] ∨ b = [34, 34] := by simpa using mem
    rcases either with rfl | rfl
    · exact ⟨by decide, by decide⟩
    · exact ⟨by decide, by decide⟩
  · intro b mem c inside
    have either : b = [123, 125] ∨ b = [34, 34] := by simpa using mem
    have byte : c = 123 ∨ c = 125 ∨ c = 34 := by
      rcases either with rfl | rfl
      · simp only [List.mem_cons, List.not_mem_nil, or_false] at inside
        rcases inside with first | last
        · exact Or.inl first
        · exact Or.inr (Or.inl last)
      · simp only [List.mem_cons, List.not_mem_nil, or_false, or_self] at inside
        exact Or.inr (Or.inr inside)
    rcases byte with rfl | rfl | rfl <;> decide

/-- The JSON string of one accented letter: its two bytes come back as four. -/
theorem accent_is_recoded :
    ¬ ∀ bodies : List Bytes, (∀ b ∈ bodies, FrameBody b ∧ ValidUtf8 b) →
      splitFrames (encodeFrames bodies) = some bodies := by
  intro all
  have body : goString "\"é\"" = [34, 195, 169, 34] := by decide
  have back := all [[34, 195, 169, 34]] (by
    intro b mem
    rw [List.mem_singleton.mp mem]
    exact ⟨⟨by decide, by decide⟩, "\"é\"", body.symm⟩)
  exact absurd back (by decide)

end SwaFrames
