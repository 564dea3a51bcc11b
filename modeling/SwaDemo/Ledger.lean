import Mathlib.Data.List.Basic

/-!
Books of a first-in first-out buffer that may lose entries. An exchange takes in
fresh entries, hands some out and may drop others, and keeps the order of those
it does not drop. Nothing is then handed out twice or out of order.
-/
namespace Ledger

universe u
variable {E : Type u}

structure Books (E : Type u) where
  offered : List E
  delivered : List E
  waiting : List E

/-- Entries are handed out from the front, ahead of whatever is left waiting. -/
structure Exchange (l l' : Books E) (fresh news : List E) : Prop where
  offered : l'.offered = l.offered ++ fresh
  delivered : l'.delivered = l.delivered ++ news
  order : (news ++ l'.waiting).Sublist (l.waiting ++ fresh)

def Ordered (l : Books E) : Prop := (l.delivered ++ l.waiting).Sublist l.offered

theorem ordered_exchange {l l' : Books E} {fresh news : List E}
    (ordered : Ordered l) (move : Exchange l l' fresh news) : Ordered l' := by
  have shift : (l.delivered ++ (news ++ l'.waiting)).Sublist (l.delivered ++ (l.waiting ++ fresh)) :=
    (List.Sublist.refl _).append move.order
  have extend : (l.delivered ++ l.waiting ++ fresh).Sublist (l.offered ++ fresh) :=
    ordered.append (List.Sublist.refl _)
  have joined := shift.trans (by simpa [List.append_assoc] using extend)
  simpa [Ordered, move.offered, move.delivered, List.append_assoc] using joined

theorem ordered_delivered {l : Books E} (ordered : Ordered l) :
    l.delivered.Sublist l.offered :=
  (List.sublist_append_left _ _).trans ordered

/-- An entry offered once is handed out at most once. -/
theorem ordered_distinct {K : Type u} {l : Books E} (key : E → K) (ordered : Ordered l)
    (distinct : (l.offered.map key).Nodup) : (l.delivered.map key).Nodup :=
  distinct.sublist ((ordered_delivered ordered).map key)

end Ledger
