import SwaDemo.PaceDelivery
import Mathlib.Data.List.Nodup

/-!
The pace queue left to its timers. Whatever was called before, from then on every timer that
fires delivers the head of the queue or goes idle, so the timers run out, and by then
everything that was queued has been delivered in its order.
-/
namespace SwaPace
open Js Runs

/-- A live timer fires. -/
def Fires (s : PaceQueue) (op : Op) : Prop := ∃ h ∈ s.live.map (·.handle), op = .expire h

/-- How often timers can still fire. -/
def left (s : PaceQueue) : Nat := s.queue.length + s.live.length

/-- The queue walks on, or has been told that it is idle. -/
def WalksOrIdle (s : PaceQueue) : Prop := s.live ≠ [] ∨ s.walking = false

theorem release_length {s : PaceQueue} (settled : Settled s) {h : Nat}
    (due : h ∈ s.live.map (·.handle)) : (release h s).live.length + 1 = s.live.length := by
  obtain ⟨t, mem, rfl⟩ := List.mem_map.mp due
  obtain ⟨before, later, split⟩ := List.append_of_mem mem
  have distinct := settled.distinct
  rw [split, List.map_append, List.map_cons, List.nodup_middle, List.nodup_cons, List.mem_append,
    not_or] at distinct
  have others (ts : List Timer) (absent : t.handle ∉ ts.map (·.handle)) :
      ts.filter (·.handle != t.handle) = ts := by
    refine List.filter_eq_self.mpr fun u mem => ?_
    rw [bne_iff_ne]
    exact fun same => absent (same ▸ List.mem_map_of_mem mem)
  have kept : (release t.handle s).live = before ++ later := by
    simp [release, split, others before distinct.1.1, others later distinct.1.2]
  rw [kept, split]
  simp only [List.length_append, List.length_cons]
  omega

/-- What one firing does. -/
structure Fired (s s' : PaceQueue) : Prop where
  spends : left s' < left s
  order : s'.delivered ++ s'.queue = s.delivered ++ s.queue
  walks : WalksOrIdle s'

theorem fired_step (host : Host) {s : PaceQueue} (settled : Settled s) {op : Op} (fires : Fires s op) :
    Fired s (step host s op) := by
  obtain ⟨h, due, rfl⟩ := fires
  have length := release_length settled due
  have outcome := expire_outcome host s h
  have same : step host s (.expire h) = expire h s := rfl
  rw [same]
  generalize expire h s = s' at outcome
  cases outcome with
  | deadTimer dead => exact absurd due dead
  | @ticked _ a rest _ queued paced =>
    have live : (advance a rest (release h s)).live =
        (release h s).live ++ [⟨s.nextHandle, drainDelay (effectivePace s) rest⟩] := rfl
    have queue : (advance a rest (release h s)).queue = rest := rfl
    refine ⟨?_, ?_, Or.inl (by simp [live])⟩
    · simp only [left, live, queue, queued, List.length_append, List.length_cons, List.length_nil]
      omega
    · have told : (release h s).delivered = s.delivered := rfl
      rw [advance_delivered, told, queue, queued, List.append_assoc]
      rfl
  | ranDry _ done =>
    have queue : (collapse (release h s)).queue = [] := rfl
    have live : (collapse (release h s)).live = (release h s).live := rfl
    refine ⟨?_, ?_, Or.inr rfl⟩
    · rw [left, left, queue, live, List.length_nil]
      omega
    · rw [collapse_delivered, queue, List.append_nil]
      rfl

/-- What a run of firings comes to. -/
structure DrainedBy (host : Host) (s : PaceQueue) (firings : List Op) : Prop where
  short : firings.length ≤ left s
  order : (run (step host) s firings).delivered ++ (run (step host) s firings).queue =
    s.delivered ++ s.queue
  empty : (run (step host) s firings).live = [] → (run (step host) s firings).queue = []
  idle : (run (step host) s firings).live = [] → s.live ≠ [] →
    (run (step host) s firings).walking = false

theorem spends_step (host : Host) (s : PaceQueue) (op : Op) (settled : Settled s) (fires : Fires s op) :
    Settled (step host s op) ∧ left (step host s op) < left s :=
  ⟨settled_step host settled op, (fired_step host settled fires).spends⟩

theorem drained_run (host : Host) {s : PaceQueue} (settled : Settled s) {firings : List Op}
    (each : EachStep (step host) Fires s firings) : DrainedBy host s firings := by
  have bound := run_spends (spends_step host) settled each
  let Kept (t : PaceQueue) : Prop := Settled t ∧ t.delivered ++ t.queue = s.delivered ++ s.queue ∧
    (s.live ≠ [] → WalksOrIdle t)
  have kept : Kept (run (step host) s firings) := by
    refine run_invariant_of (P := Kept) (fun t op fires inv => ?_) ⟨settled, rfl, Or.inl⟩ each
    have fired := fired_step host inv.1 fires
    exact ⟨settled_step host inv.1 op, fired.order.trans inv.2.1, fun _ => fired.walks⟩
  obtain ⟨settled', order, walks⟩ := kept
  refine ⟨by omega, order, fun none_ => ?_, fun none_ some_ => ?_⟩
  · by_contra queued
    exact settled_not_stranded settled' queued none_
  · rcases walks some_ with live | idle
    · exact absurd none_ live
    · exact idle

/-- From every reachable state: however the timers fire, they fire no more often than there are
    events queued and timers live; they deliver what was queued in its order and nothing else; once
    no timer is live all of it has been delivered, and a walk that had a timer is idle; and they
    can fire until then. -/
theorem timers_drain_queue (host : Host) (ops : List Op) :
    (∀ firings, EachStep (step host) Fires (after host ops) firings →
      DrainedBy host (after host ops) firings) ∧
    ∃ firings, EachStep (step host) Fires (after host ops) firings ∧
      (run (step host) (after host ops) firings).live = [] := by
  have settled : Settled (after host ops) := settled_run host ops
  refine ⟨fun firings each => drained_run host settled each, ?_⟩
  refine run_ends (D := fun s => s.live = []) (spends_step host) (fun s _ live => ?_) settled
  obtain ⟨t, rest, some_⟩ := List.exists_cons_of_ne_nil live
  exact ⟨.expire t.handle, t.handle, by simp [some_], rfl⟩

end SwaPace
