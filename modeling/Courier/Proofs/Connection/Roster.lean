import Courier.Connection.Roster
import Courier.Proofs.Table

/-! # Connections that come in order

The next stream number of a window of which nothing was accepted is accepted,
and moves the window on by one. If a tag decodes under no other entry, the entry
that accepts it is the one that is recognised. A tag that no entry accepts is
not recognised.
-/

namespace Courier

/-- Nothing after the base was accepted, so the window moves by exactly one. -/
theorem Window.accept?_fresh {size : Nat} (some : 0 < size) (base : Nat) :
    (fresh size base).accept? base = Option.some (fresh size (base + 1)) := by
  cases size with
  | zero => exact absurd some (Nat.lt_irrefl 0)
  | succ size =>
      have run : ((true :: List.replicate size false).takeWhile id).length = 1 := by
        cases size <;> rfl
      have turned : List.replicate size false ++ [false] = List.replicate (size + 1) false :=
        List.replicate_succ'.symm
      have slid : (Window.mk base (true :: List.replicate size false)).slide =
          ⟨base + 1, List.replicate (size + 1) false⟩ := by
        simp only [slide, run, List.drop_one, List.tail_cons, List.replicate_one, turned]
      simp only [accept?, fresh, Nat.lt_irrefl, if_false, Nat.sub_self, List.replicate_succ,
        List.getElem?_cons_zero, List.set_cons_zero]
      rw [slid, List.replicate_succ]

namespace Roster

private theorem findSome?_of_agree {α β : Type} {f : α → Option β} {items : List α} {b : β}
    (agree : ∀ item ∈ items, f item = none ∨ f item = some b) {item : α} (member : item ∈ items)
    (found : f item = some b) : items.findSome? f = some b := by
  induction items with
  | nil => cases member
  | cons first items ih =>
      rw [List.findSome?_cons]
      rcases agree first (List.mem_cons_self ..) with none | here
      · rw [none]
        rcases List.mem_cons.mp member with rfl | later
        · rw [none] at found
          cases found
        · exact ih (fun item later => agree item (List.mem_cons_of_mem _ later)) later
      · rw [here]

/-- A tag that one entry accepts and no other decodes is recognised as that of the entry. -/
theorem recognise_of_unique {roster : Roster} {tag : Tag} {route : Route} {entry entry' : Entry}
    {stream : Nat} (found : roster.entries.find? route = some entry)
    (accepted : entry.accept? tag = some (stream, entry'))
    (others : ∀ {other its}, roster.entries.find? other = some its → other ≠ route →
      tag.decode its.peerTagKey = none) :
    roster.recognise tag =
      (some { route, secret := entry'.secret, stream, role := entry'.role },
        { roster with entries := roster.entries.insert route entry' }) := by
  have agree : ∀ item ∈ roster.entries.entries,
      (item.2.accept? tag).map (fun accepted => (item.1, accepted.1, accepted.2)) = none ∨
        (item.2.accept? tag).map (fun accepted => (item.1, accepted.1, accepted.2)) =
          some (route, stream, entry') := by
    rintro ⟨other, its⟩ member
    have here := (roster.entries.find?_eq_some_iff other its).mpr member
    by_cases same : other = route
    · subst same
      rw [found, Option.some.injEq] at here
      subst here
      exact .inr (by rw [accepted]; rfl)
    · exact .inl (by simp [Entry.accept?, others here same])
  have matched : match? tag roster.entries.entries = some (route, stream, entry') :=
    findSome?_of_agree agree ((roster.entries.find?_eq_some_iff route entry).mp found)
      (by simp [accepted])
  rw [recognise, matched]

/-- A tag that no entry accepts is not recognised. -/
theorem recognise_of_none {roster : Roster} {tag : Tag}
    (none : ∀ {route entry}, roster.entries.find? route = some entry → entry.accept? tag = none) :
    roster.recognise tag = (Option.none, roster) := by
  have unmatched : match? tag roster.entries.entries = Option.none := by
    refine List.findSome?_eq_none_iff.mpr ?_
    rintro ⟨route, entry⟩ member
    simp [none ((roster.entries.find?_eq_some_iff route entry).mpr member)]
  rw [recognise, unmatched]

end Roster

end Courier
