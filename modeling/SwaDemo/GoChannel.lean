import Mathlib.Data.List.Basic

/-!
Buffered channels whose senders never wait: a value that finds the buffer full is
dropped. `none` is a panic, which sending on a closed channel or closing it again
raises. `Fair` is the account of one such channel: what was received and what waits
are the values offered to it, in order, less those that found the buffer full.
-/
namespace GoChannel

universe u
variable {α : Type u}

structure Chan (α : Type u) where
  cap : Nat
  buf : List α
  closed : Bool
  deriving DecidableEq, Repr

def make (cap : Nat) : Chan α := ⟨cap, [], false⟩

def Chan.offer (v : α) (c : Chan α) : Chan α :=
  { c with buf := if c.buf.length < c.cap then c.buf ++ [v] else c.buf }

/-- `select { case c <- v: default: }` -/
def Chan.trySend (v : α) (c : Chan α) : Option (Chan α) :=
  match c.closed with
  | true => none
  | false => some (c.offer v)

def Chan.close (c : Chan α) : Option (Chan α) :=
  match c.closed with
  | true => none
  | false => some { c with closed := true }

/-- `<-c` where a value waits, closed or not. -/
def Chan.recv (c : Chan α) : Option (α × Chan α) :=
  match c.buf with
  | [] => none
  | v :: rest => some (v, { c with buf := rest })

/-- A value offered to a channel, and how many were waiting then. -/
structure Offer (α : Type u) where
  value : α
  held : Nat

structure Fair (cap : Nat) (offers : List (Offer α)) (received buf : List α) : Prop where
  kept : received ++ buf = (offers.filter fun o => o.held ≠ cap).map (·.value)
  held : ∀ o ∈ offers, o.held ≤ cap
  bound : buf.length ≤ cap

theorem fair_start (cap : Nat) : Fair cap ([] : List (Offer α)) [] [] :=
  ⟨rfl, by simp, by simp⟩

theorem fair_offer {cap : Nat} {offers : List (Offer α)} {received buf : List α}
    (fair : Fair cap offers received buf) (v : α) :
    Fair cap (offers ++ [⟨v, buf.length⟩]) received (if buf.length < cap then buf ++ [v] else buf) := by
  have bound := fair.bound
  refine ⟨?_, ?_, ?_⟩
  · rw [List.filter_append, List.map_append, ← fair.kept]
    by_cases room : buf.length < cap
    · have other : buf.length ≠ cap := by omega
      simp [room, other]
    · have full : buf.length = cap := by omega
      simp [full]
  · intro o mem
    rcases List.mem_append.mp mem with old | new
    · exact fair.held o old
    · rw [List.mem_singleton.mp new]
      exact bound
  · split
    · simp only [List.length_append, List.length_singleton]
      omega
    · exact bound

theorem fair_receive {cap : Nat} {offers : List (Offer α)} {received rest : List α} {v : α}
    (fair : Fair cap offers received (v :: rest)) : Fair cap offers (received ++ [v]) rest := by
  have bound := fair.bound
  refine ⟨?_, fair.held, ?_⟩
  · rw [← fair.kept]
    simp
  · simp only [List.length_cons] at bound
    omega

end GoChannel
