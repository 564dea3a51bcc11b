import SwaDemo.FrameSplit

/-!
Read boundaries. The reader splits each read on its own, so a frame survives only
when no boundary falls inside it. `WholeReads` says that a cutting of the stream
is harmless: every read is made of whole frames, except that the blank line that
ends one may come at the head of the next read, or alone as reads of one newline.
-/
namespace SwaFrames
open SwaTrace

/-- The first number counts the newlines of the last frame that are still to come. -/
inductive WholeReads : Nat → List Bytes → List Bytes → Prop where
  | done : WholeReads 0 [] []
  | newline {owed : Nat} {bodies reads : List Bytes} (few : owed < 2)
      (later : WholeReads owed bodies reads) : WholeReads (owed + 1) bodies ([newline] :: reads)
  | frames {owed : Nat} {now bodies reads : List Bytes} (clean : owed = 0 ∨ owed = 2)
      (later : WholeReads 0 bodies reads) :
      WholeReads owed (now ++ bodies)
        ((List.replicate owed SwaFrames.newline ++ encodeFrames now) :: reads)
  | upToBody {owed : Nat} {now bodies reads : List Bytes} {body : Bytes}
      (clean : owed = 0 ∨ owed = 2) (later : WholeReads 2 bodies reads) :
      WholeReads owed (now ++ body :: bodies)
        ((List.replicate owed SwaFrames.newline ++ encodeFrames now ++ (dataPrefix ++ body)) :: reads)

def splitReads : List Bytes → Option (List GoString)
  | [] => some []
  | r :: later => do
    let frames ← splitFrames r
    let rest ← splitReads later
    return frames ++ rest

theorem splitReads_cons {r : Bytes} {later : List Bytes} {frames rest : List GoString}
    (now : splitFrames r = some frames) (next : splitReads later = some rest) :
    splitReads (r :: later) = some (frames ++ rest) := by
  simp [splitReads, now, next]

theorem append_cases {α : Type} {a b c d : List α} (h : a ++ b = c ++ d) :
    (∃ t, a = c ++ t ∧ d = t ++ b) ∨ (∃ t, c = a ++ t ∧ b = t ++ d) := by
  rcases List.append_eq_append_iff.mp h with ⟨t, hc, hb⟩ | ⟨t, ha, hd⟩
  · exact Or.inr ⟨t, hc, hb⟩
  · exact Or.inl ⟨t, ha, hd⟩

/-- Where a read that starts at a frame may end: after a frame, inside `data: ` and
    the body or right behind it, or between the two newlines. -/
inductive Reach (bodies : List Bytes) (r rest : Bytes) : Prop where
  | boundary (now later : List Bytes) (split : bodies = now ++ later)
      (read : r = encodeFrames now) (left : rest = encodeFrames later)
  | inside (now : List Bytes) (body : Bytes) (later : List Bytes) (y x : Bytes)
      (split : bodies = now ++ body :: later) (region : dataPrefix ++ body = y ++ x)
      (started : y ≠ []) (read : r = encodeFrames now ++ y)
      (left : rest = x ++ (newline :: newline :: encodeFrames later))
  | half (now : List Bytes) (body : Bytes) (later : List Bytes)
      (split : bodies = now ++ body :: later)
      (read : r = encodeFrames now ++ (dataPrefix ++ body ++ [newline]))
      (left : rest = newline :: encodeFrames later)

theorem frame_reach {body r rest : Bytes} {later : List Bytes}
    (cut : (∃ t, encodeFrame body = r ++ t ∧ rest = t ++ encodeFrames later)) :
    Reach (body :: later) r rest := by
  obtain ⟨t, frame, left⟩ := cut
  have shape : (dataPrefix ++ body) ++ [newline, newline] = r ++ t := by simpa [encodeFrame] using frame
  rcases append_cases shape.symm with ⟨u, read, blank⟩ | ⟨x, region, tail⟩
  · rcases u with _ | ⟨n, _ | ⟨m, u⟩⟩
    · refine .inside [] body later (dataPrefix ++ body) [] rfl (by simp) (by simp [dataPrefix])
        (by simpa [encodeFrames] using read) ?_
      have both : t = [newline, newline] := by simpa using blank.symm
      simp [left, both]
    · obtain ⟨rfl, rfl⟩ : n = newline ∧ t = [newline] := by simpa [eq_comm] using blank
      exact .half [] body later rfl (by simpa [encodeFrames] using read) (by simpa using left)
    · obtain ⟨rfl, rfl, rfl, rfl⟩ : n = newline ∧ m = newline ∧ u = [] ∧ t = [] := by
        simpa [eq_comm] using blank
      exact .boundary [body] later rfl (by simpa [encodeFrames, encodeFrame] using read)
        (by simpa using left)
  · by_cases empty : r = []
    · subst r
      refine .boundary [] (body :: later) rfl rfl ?_
      rw [left, ← List.nil_append t, ← frame]
      rfl
    · exact .inside [] body later r x rfl region empty rfl (by simp [left, tail])

theorem frames_reach {bodies : List Bytes} {r rest : Bytes} (stream : r ++ rest = encodeFrames bodies) :
    Reach bodies r rest := by
  induction bodies generalizing r with
  | nil =>
    obtain ⟨rfl, rfl⟩ := List.append_eq_nil_iff.mp stream
    exact .boundary [] [] rfl rfl rfl
  | cons body bodies ih =>
    have shape : r ++ rest = encodeFrame body ++ encodeFrames bodies := stream
    rcases append_cases shape with ⟨t, read, tail⟩ | cut
    · cases ih tail.symm with
      | boundary now later split tail left =>
        exact .boundary (body :: now) later (by simp [split]) (by simp [read, tail, encodeFrames]) left
      | inside now b later y x split region started tail left =>
        exact .inside (body :: now) b later y x (by simp [split]) region started
          (by simp [read, tail, encodeFrames]) left
      | half now b later split tail left =>
        exact .half (body :: now) b later (by simp [split]) (by simp [read, tail, encodeFrames]) left
    · exact frame_reach cut

end SwaFrames
