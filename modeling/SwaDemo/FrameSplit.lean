import SwaDemo.SseFrames

/-!
What `splitOnDoubleNewline` makes of one read. The loop rebuilds the text byte by
byte, so a chunk is the read's text up to its blank line; a read that begins or
ends inside a frame contributes a chunk of its own.
-/
namespace SwaFrames
open SwaTrace

/-- What `json.Marshal` guarantees of a body. -/
structure FrameBody (body : Bytes) : Prop where
  nonempty : body ≠ []
  oneLine : newline ∉ body

theorem newline_mem_stringOfByte (b : UInt8) : newline ∈ stringOfByte b ↔ b = newline := by
  unfold stringOfByte
  split
  · simp [eq_comm]
  · rename_i high
    have size : b.toNat < 256 := b.toNat_lt
    have lead : newline ≠ UInt8.ofNat (192 + b.toNat / 64) := by
      intro same
      have := congrArg UInt8.toNat same
      simp [newline] at this
      omega
    have trail : newline ≠ UInt8.ofNat (128 + b.toNat % 64) := by
      intro same
      have := congrArg UInt8.toNat same
      simp [newline] at this
      omega
    have other : b ≠ newline := by
      rintro rfl
      exact high (by decide)
    simp only [List.mem_cons, List.not_mem_nil, lead, trail, or_self, other]

theorem stringOfByte_newline : stringOfByte newline = [newline] := rfl

theorem stringOfByte_length (b : UInt8) : 1 ≤ (stringOfByte b).length := by
  unfold stringOfByte
  split <;> simp

@[simp] theorem stringOfBytes_nil : stringOfBytes [] = [] := rfl

@[simp] theorem stringOfBytes_cons (b : UInt8) (bs : Bytes) :
    stringOfBytes (b :: bs) = stringOfByte b ++ stringOfBytes bs := rfl

@[simp] theorem stringOfBytes_append (x y : Bytes) :
    stringOfBytes (x ++ y) = stringOfBytes x ++ stringOfBytes y := by
  simp [stringOfBytes]

theorem stringOfBytes_prefix : stringOfBytes dataPrefix = dataPrefix := by decide

theorem newline_mem_stringOfBytes (bs : Bytes) :
    newline ∈ stringOfBytes bs ↔ newline ∈ bs := by
  induction bs with
  | nil => simp
  | cons b bs ih =>
    simp [ih, newline_mem_stringOfByte, eq_comm]

theorem stringOfBytes_length (bs : Bytes) : bs.length ≤ (stringOfBytes bs).length := by
  induction bs with
  | nil => simp
  | cons b bs ih =>
    have := stringOfByte_length b
    simp only [stringOfBytes_cons, List.length_append, List.length_cons]
    omega

theorem stringOfBytes_eq_nil {bs : Bytes} : stringOfBytes bs = [] ↔ bs = [] := by
  constructor
  · intro empty
    have := stringOfBytes_length bs
    rw [empty] at this
    exact List.eq_nil_of_length_eq_zero (by simpa using this)
  · rintro rfl
    rfl

theorem stringOfBytes_pos {y : Bytes} (some_ : y ≠ []) : 1 ≤ (stringOfBytes y).length := by
  have := stringOfBytes_length y
  have := List.length_pos_iff.mpr some_
  omega

/-- The chunk of a whole frame, its blank line cut off. -/
def chunkOf (body : Bytes) : GoString := dataPrefix ++ stringOfBytes body

theorem chunkOf_eq (body : Bytes) : chunkOf body = stringOfBytes (dataPrefix ++ body) := by
  simp [chunkOf, stringOfBytes_prefix]

theorem frameOf_chunk {body : Bytes} (tail : GoString) (nonempty : body ≠ []) :
    frameOf (chunkOf body ++ tail) = some (stringOfBytes body ++ tail) := by
  have long := stringOfBytes_pos nonempty
  rw [frameOf, if_pos]
  · simp [chunkOf, dataPrefix]
  · constructor
    · simp only [chunkOf, dataPrefix, List.length_append, List.length_cons, List.length_nil]
      omega
    · simp [chunkOf, dataPrefix]

theorem frameOf_newline (chunk : GoString) : frameOf (newline :: chunk) = none := by
  rw [frameOf, if_neg]
  rintro ⟨_, same⟩
  simp [dataPrefix, newline] at same

theorem frameOf_length {chunk frame : GoString} (h : frameOf chunk = some frame) :
    frame.length = chunk.length - 6 := by
  unfold frameOf at h
  split at h
  · cases h
    simp
  · contradiction

def lastByte (before : Option UInt8) (x : Bytes) : Option UInt8 := x.getLast?.or before

theorem lastByte_plain {before : Option UInt8} {x : Bytes} (clean : newline ∉ x)
    (start : x = [] → before ≠ some newline) : lastByte before x ≠ some newline := by
  unfold lastByte
  cases last : x.getLast? with
  | none => simpa using start (List.getLast?_eq_none_iff.mp last)
  | some b =>
    rintro same
    have : b = newline := by simpa using same
    subst b
    exact clean (List.mem_of_getLast? last)

theorem splitLoop_plain (before : Option UInt8) (res : List GoString) (cur : GoString)
    {x : Bytes} (rest : Bytes) (clean : newline ∉ x) :
    splitLoop before res cur (x ++ rest) =
      splitLoop (lastByte before x) res (cur ++ stringOfBytes x) rest := by
  induction x generalizing before cur with
  | nil => simp [lastByte]
  | cons b x ih =>
    simp only [List.mem_cons, not_or] at clean
    have other : ¬ (before = some newline ∧ b = newline) := fun h => clean.1 h.2.symm
    rw [List.cons_append, splitLoop, if_neg other, ih _ _ clean.2]
    have last : lastByte (some b) x = lastByte before (b :: x) := by
      simp only [lastByte, List.getLast?_cons]
      cases x.getLast? <;> rfl
    rw [last, stringOfBytes_cons, List.append_assoc]

theorem splitLoop_blank {before : Option UInt8} (res : List GoString) (cur : GoString)
    (rest : Bytes) (first : before ≠ some newline) :
    splitLoop before res cur (newline :: newline :: rest) =
      splitLoop (some newline) (res ++ [cur]) [] rest := by
  rw [splitLoop, if_neg (fun h => first h.1), splitLoop, if_pos ⟨rfl, rfl⟩, stringOfByte_newline,
    if_neg (by simp)]
  simp

theorem prefix_plain {body : Bytes} (good : FrameBody body) : newline ∉ dataPrefix ++ body := by
  simp only [List.mem_append, not_or]
  exact ⟨by decide, good.oneLine⟩

theorem lastByte_region {before : Option UInt8} {body : Bytes} (good : FrameBody body) :
    lastByte before (dataPrefix ++ body) ≠ some newline :=
  lastByte_plain (prefix_plain good) (by simp [dataPrefix])

theorem splitLoop_frame (before : Option UInt8) (res : List GoString) (cur : GoString)
    {body : Bytes} (rest : Bytes) (good : FrameBody body) :
    splitLoop before res cur (encodeFrame body ++ rest) =
      splitLoop (some newline) (res ++ [cur ++ chunkOf body]) [] rest := by
  have shape : encodeFrame body ++ rest =
      (dataPrefix ++ body) ++ (newline :: newline :: rest) := by simp [encodeFrame]
  rw [shape, splitLoop_plain _ _ _ _ (prefix_plain good), splitLoop_blank _ _ _ (lastByte_region good),
    chunkOf_eq]

/-- Whole frames and then bytes without a newline. -/
theorem splitLoop_tail (before : Option UInt8) (res : List GoString) (now : List Bytes)
    {y : Bytes} (good : ∀ b ∈ now, FrameBody b) (clean : newline ∉ y) :
    splitLoop before res [] (encodeFrames now ++ y) =
      some (res ++ now.map chunkOf ++ if y = [] then [] else [stringOfBytes y]) := by
  induction now generalizing before res with
  | nil =>
    have plain := splitLoop_plain before res [] [] clean
    rw [List.append_nil] at plain
    by_cases empty : y = []
    · subst y
      simp [encodeFrames, splitLoop]
    · have full : stringOfBytes y ≠ [] := fun h => empty (stringOfBytes_eq_nil.mp h)
      simp [encodeFrames, plain, splitLoop, empty, full]
  | cons body now ih =>
    have goodBody := good body (by simp)
    have rest := ih (some newline) (res ++ [chunkOf body]) (fun b mem => good b (by simp [mem]))
    simp only [encodeFrames, List.flatMap_cons, List.append_assoc] at rest ⊢
    rw [splitLoop_frame _ _ _ _ goodBody, List.nil_append, rest]
    simp

/-- Whole frames and then a frame cut between its two newlines. -/
theorem splitLoop_half (before : Option UInt8) (res : List GoString) (now : List Bytes)
    {body : Bytes} (good : ∀ b ∈ now, FrameBody b) (goodBody : FrameBody body) :
    splitLoop before res [] (encodeFrames now ++ (dataPrefix ++ body ++ [newline])) =
      some (res ++ now.map chunkOf ++ [chunkOf body ++ [newline]]) := by
  induction now generalizing before res with
  | nil =>
    have last : lastByte before _ ≠ some newline := lastByte_region goodBody
    simp only [encodeFrames, List.flatMap_nil, List.nil_append]
    rw [splitLoop_plain _ _ _ _ (prefix_plain goodBody), splitLoop, if_neg (fun h => last h.1),
      splitLoop, stringOfByte_newline, List.nil_append, ← chunkOf_eq, if_neg (by simp)]
    simp
  | cons first now ih =>
    have rest := ih (some newline) (res ++ [chunkOf first]) (fun b mem => good b (by simp [mem]))
    simp only [encodeFrames, List.flatMap_cons, List.append_assoc] at rest ⊢
    rw [splitLoop_frame _ _ _ _ (good first (by simp)), List.nil_append, rest]
    simp

theorem frames_of_chunks {now : List Bytes} (good : ∀ b ∈ now, FrameBody b) :
    (now.map chunkOf).filterMap frameOf = now.map stringOfBytes := by
  induction now with
  | nil => rfl
  | cons body now ih =>
    have frame := frameOf_chunk [] (good body (by simp)).nonempty
    rw [List.append_nil, List.append_nil] at frame
    rw [List.map_cons, List.filterMap_cons, frame, ih (fun b mem => good b (by simp [mem])),
      List.map_cons]

end SwaFrames
