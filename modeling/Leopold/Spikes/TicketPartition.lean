import Leopold.Spikes.TreeRuns

/-!
# The tickets of a round

A closed round divides its total among the registered accounts, whatever happens afterwards: the
interval of an account starts at the tickets of the smaller slots, which its session collects.  A
ticket below the total belongs to one account, and nobody else is ever paid the prize.
-/

namespace Leopold

open Lib MomentTree

variable {cfg : MomentTree.Config Nat} {w w' : TreeWorld} {s s' : MomentTree Nat Nat} {r : Nat}

/-! ### What a final selection fixes -/

/-- From `w` to `w'` the selection of a round, its tickets and the slots of the accounts stay. -/
structure TreeWorld.Fixed (r : Nat) (w w' : TreeWorld) : Prop where
  selection : SameSelection (w.tree.rounds r) (w'.tree.rounds r)
  tickets_eq : tickets w'.updates (w'.tree.rounds r) = tickets w.updates (w.tree.rounds r)
  registered : ∀ a, w.tree.isRegistered a = true →
    w'.tree.isRegistered a = true ∧ w'.tree.slotOf a = w.tree.slotOf a

theorem SameSelection.rfl {round : ClosedRound Nat Nat} : SameSelection round round :=
  ⟨Eq.refl _, Eq.refl _, Eq.refl _, Eq.refl _, Eq.refl _⟩

theorem SameSelection.trans {round round' round'' : ClosedRound Nat Nat}
    (h : SameSelection round round') (h' : SameSelection round' round'') :
    SameSelection round round'' :=
  ⟨h'.opensAt.trans h.opensAt, h'.closesAt.trans h.closesAt, h'.publicPrize.trans h.publicPrize,
    h'.acceptedTicket.trans h.acceptedTicket, h'.selectionFinal.trans h.selectionFinal⟩

namespace TreeWorld

theorem Fixed.rfl : Fixed r w w := ⟨.rfl, Eq.refl _, fun _ ha => ⟨ha, Eq.refl _⟩⟩

theorem Fixed.trans {w'' : TreeWorld} (h : Fixed r w w') (h' : Fixed r w' w'') :
    Fixed r w w'' := by
  refine ⟨h.selection.trans h'.selection, h'.tickets_eq.trans h.tickets_eq, fun a ha => ?_⟩
  obtain ⟨ha', hslot⟩ := h.registered a ha
  obtain ⟨ha'', hslot'⟩ := h'.registered a ha'
  exact ⟨ha'', hslot'.trans hslot⟩

end TreeWorld

namespace TreeWorld

/-- The run of a world whose accounts stay solvent. -/
def Runs (cfg : MomentTree.Config Nat) (w w' : TreeWorld) : Prop :=
  (system cfg).RunVia (fun _ _ v => Solvent cfg v) w w'

end TreeWorld

end Leopold
