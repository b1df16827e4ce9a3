import Courier.Table

/-! # Laws of tables

Putting values at one key twice counts once, putting back what is there changes
nothing, and entries in ascending order are their own table. Lookups through
`insert` are described in the module of tables.
-/

namespace Courier.Table

variable {κ α : Type} [Ord κ]

theorem ext {s t : Table κ α} (same : s.entries = t.entries) : s = t := by
  cases s
  cases t
  cases same
  rfl

/-- The order of keys is irreflexive, so a key stands in one entry only. -/
theorem find?_eq_some_iff [DecidableEq κ] [Std.TransOrd κ] [Std.LawfulEqOrd κ] (t : Table κ α)
    (key : κ) (value : α) : t.find? key = some value ↔ (key, value) ∈ t.entries := by
  obtain ⟨entries, ascending⟩ := t
  simp only [find?]
  induction entries with
  | nil => simp
  | cons head rest ih =>
      obtain ⟨below, ordered⟩ := List.pairwise_cons.mp ascending
      by_cases here : head.1 = key
      · have absent : (key, value) ∉ rest := by
          intro member
          have later := below _ member
          simp [here] at later
        obtain ⟨first, held⟩ := head
        simp only at here
        subst here
        simp [absent, eq_comm]
      · have other : (key, value) ≠ head := by
          rintro rfl
          exact here rfl
        simp [here, ih ordered, other]

private theorem insertEntry_insertEntry [Std.ReflOrd κ] (key : κ) (first second : α)
    (entries : List (κ × α)) :
    insertEntry key second (insertEntry key first entries) = insertEntry key second entries := by
  induction entries with
  | nil => simp [insertEntry]
  | cons head rest ih =>
      simp only [insertEntry]
      split
      next => simp [insertEntry]
      next => simp [insertEntry]
      next after => simp [insertEntry, after, ih]

@[simp] theorem insert_insert [Std.TransOrd κ] [Std.LawfulEqOrd κ] (t : Table κ α)
    (key : κ) (first second : α) :
    (t.insert key first).insert key second = t.insert key second := by
  simp [insert, insertEntry_insertEntry]

private theorem insertEntry_of_mem [Std.TransOrd κ] {key : κ} {value : α} {entries : List (κ × α)}
    (ascending : entries.Pairwise (fun x y => compare x.1 y.1 = .lt))
    (member : (key, value) ∈ entries) : insertEntry key value entries = entries := by
  induction entries with
  | nil => cases member
  | cons head rest ih =>
      obtain ⟨below, ordered⟩ := List.pairwise_cons.mp ascending
      rcases List.mem_cons.mp member with rfl | later
      · simp [insertEntry]
      · have after : compare key head.1 = .gt := Std.OrientedCmp.gt_iff_lt.mpr (below _ later)
        simp [insertEntry, after, ih ordered later]

theorem insert_of_find? [DecidableEq κ] [Std.TransOrd κ] [Std.LawfulEqOrd κ] {t : Table κ α}
    {key : κ} {value : α}
    (found : t.find? key = some value) : t.insert key value = t := by
  have same := insertEntry_of_mem t.ascending ((t.find?_eq_some_iff key value).mp found)
  simp [insert, same]

private theorem insertEntry_of_below [Std.OrientedOrd κ] {key : κ} {value : α}
    {entries : List (κ × α)}
    (below : ∀ entry ∈ entries, compare entry.1 key = .lt) :
    insertEntry key value entries = entries ++ [(key, value)] := by
  induction entries with
  | nil => rfl
  | cons head rest ih =>
      have after : compare key head.1 = .gt :=
        Std.OrientedCmp.gt_iff_lt.mpr (below head (List.mem_cons_self ..))
      have later := ih fun entry member => below entry (List.mem_cons_of_mem _ member)
      simp [insertEntry, after, later]

/-- Ascending entries are put at the end one after the other. -/
theorem ofList_entries [Std.TransOrd κ] [Std.LawfulEqOrd κ] (t : Table κ α) :
    ofList t.entries = t := by
  have added : ∀ (later : List (κ × α)) (sofar : Table κ α),
      (sofar.entries ++ later).Pairwise (fun x y => compare x.1 y.1 = .lt) →
      (later.foldl (fun t entry => t.insert entry.1 entry.2) sofar).entries =
        sofar.entries ++ later := by
    intro later
    induction later with
    | nil => simp
    | cons entry later ih =>
        intro sofar ascending
        have below : ∀ earlier ∈ sofar.entries, compare earlier.1 entry.1 = .lt := by
          intro earlier member
          exact (List.pairwise_append.mp ascending).2.2 earlier member entry (List.mem_cons_self ..)
        have next : (sofar.insert entry.1 entry.2).entries = sofar.entries ++ [entry] :=
          insertEntry_of_below below
        rw [List.foldl_cons, ih, next]
        · simp
        · rw [next]
          simpa using ascending
  exact ext ((added t.entries empty (by simpa [empty] using t.ascending)).trans (by simp [empty]))

/-! ## Tables of any list -/

/-- A table made of a list holds entries of that list only. -/
theorem mem_of_find?_ofList [DecidableEq κ] [Std.TransOrd κ] [Std.LawfulEqOrd κ]
    {entries : List (κ × α)} {key : κ} {value : α}
    (found : (ofList entries).find? key = some value) : (key, value) ∈ entries := by
  have kept : ∀ (entries : List (κ × α)) (t : Table κ α),
      (entries.foldl (fun t entry => t.insert entry.1 entry.2) t).find? key = some value →
      (key, value) ∈ entries ∨ t.find? key = some value := by
    intro entries
    induction entries with
    | nil => exact fun t found => .inr found
    | cons entry entries ih =>
        intro t found
        rcases ih _ found with later | before
        · exact .inl (List.mem_cons_of_mem _ later)
        · rw [find?_insert] at before
          split at before
          next here =>
            obtain ⟨first, held⟩ := entry
            obtain rfl := Option.some.inj before
            obtain rfl : first = key := here
            exact .inl (List.mem_cons_self ..)
          · exact .inr before
  rcases kept entries empty found with member | none
  · exact member
  · cases none

/-- Every key of a list has a value in the table made of it. -/
theorem find?_ofList_isSome [DecidableEq κ] [Std.TransOrd κ] [Std.LawfulEqOrd κ]
    {entries : List (κ × α)} {key : κ} {value : α}
    (member : (key, value) ∈ entries) : ∃ other, (ofList entries).find? key = some other := by
  have kept : ∀ (entries : List (κ × α)) (t : Table κ α),
      ((∃ value, (key, value) ∈ entries) ∨ ∃ value, t.find? key = some value) →
      ∃ other, (entries.foldl (fun t entry => t.insert entry.1 entry.2) t).find? key =
        some other := by
    intro entries
    induction entries with
    | nil =>
        rintro t (⟨value, none⟩ | found)
        · cases none
        · exact found
    | cons entry entries ih =>
        intro t held
        refine ih _ ?_
        by_cases here : entry.1 = key
        · exact .inr ⟨entry.2, by rw [find?_insert, if_pos here]⟩
        · rcases held with ⟨value, member⟩ | ⟨value, found⟩
          · rcases List.mem_cons.mp member with rfl | later
            · exact absurd rfl here
            · exact .inl ⟨value, later⟩
          · exact .inr ⟨value, by rw [find?_insert_of_ne _ _ here, found]⟩
  exact kept entries empty (.inl ⟨value, member⟩)

/-- No entry is made up, and each one has its key to itself. -/
theorem length_ofList_le [Std.TransOrd κ] [Std.LawfulEqOrd κ] (entries : List (κ × α)) :
    (ofList entries).entries.length ≤ entries.length := by
  have one : ∀ (key : κ) (value : α) (entries : List (κ × α)),
      (insertEntry key value entries).length ≤ entries.length + 1 := by
    intro key value entries
    induction entries with
    | nil => exact Nat.le_refl 1
    | cons head rest ih =>
        simp only [insertEntry]
        split <;> simp only [List.length_cons] <;> omega
  have each : ∀ (entries : List (κ × α)) (t : Table κ α),
      (entries.foldl (fun t entry => t.insert entry.1 entry.2) t).entries.length ≤
        t.entries.length + entries.length := by
    intro entries
    induction entries with
    | nil => exact fun t => Nat.le_refl _
    | cons entry entries ih =>
        intro t
        have first : (t.insert entry.1 entry.2).entries.length ≤ t.entries.length + 1 :=
          one entry.1 entry.2 t.entries
        have rest := ih (t.insert entry.1 entry.2)
        rw [List.foldl_cons, List.length_cons]
        omega
  have all := each entries empty
  rwa [show (empty : Table κ α).entries.length = 0 from rfl, Nat.zero_add] at all

/-! ## Erasing -/

@[simp] theorem find?_erase_self [DecidableEq κ] (t : Table κ α) (key : κ) :
    (t.erase key).find? key = none := by
  simp [find?, erase, List.find?_filter]

theorem find?_erase_of_ne [DecidableEq κ] (t : Table κ α) {key other : κ} (h : key ≠ other) :
    (t.erase key).find? other = t.find? other := by
  simp only [find?, erase, List.find?_filter]
  congr 2
  funext entry
  by_cases here : entry.1 = other
  · simp [here, h.symm]
  · simp [here]

theorem erase_of_find?_eq_none [DecidableEq κ] {t : Table κ α} {key : κ}
    (missing : t.find? key = none) : t.erase key = t := by
  refine ext (List.filter_eq_self.mpr fun entry member => ?_)
  have other : entry.1 ≠ key := by
    simp only [find?, Option.map_eq_none_iff, List.find?_eq_none, decide_eq_true_eq] at missing
    exact missing entry member
  simpa using other

/-- Erasing what was just put somewhere leaves the rest. -/
theorem erase_insert_self [DecidableEq κ] [Std.TransOrd κ] [Std.LawfulEqOrd κ] (t : Table κ α)
    (key : κ) (value : α) : (t.insert key value).erase key = t.erase key := by
  have rest : ∀ entries : List (κ × α),
      (insertEntry key value entries).filter (·.1 ≠ key) = entries.filter (·.1 ≠ key) := by
    intro entries
    induction entries with
    | nil => simp [insertEntry]
    | cons head entries ih =>
        simp only [insertEntry]
        split
        next => simp
        next same => simp [Std.LawfulEqCmp.eq_of_compare same]
        next => simp only [List.filter_cons, ih]
  exact ext (rest t.entries)

/-! ## Keys -/

theorem mem_keys_iff [DecidableEq κ] [Std.TransOrd κ] [Std.LawfulEqOrd κ] (t : Table κ α)
    (key : κ) : key ∈ t.keys ↔ ∃ value, t.find? key = some value := by
  simp [keys, find?_eq_some_iff]

/-- A value at a new key is one more entry. -/
theorem perm_insert [DecidableEq κ] [Std.TransOrd κ] [Std.LawfulEqOrd κ] {t : Table κ α} {key : κ}
    (missing : t.find? key = none) (value : α) :
    (t.insert key value).entries.Perm ((key, value) :: t.entries) := by
  have one : ∀ entries : List (κ × α), (∀ entry ∈ entries, entry.1 ≠ key) →
      (insertEntry key value entries).Perm ((key, value) :: entries) := by
    intro entries
    induction entries with
    | nil => exact fun _ => .refl _
    | cons head entries ih =>
        intro other
        obtain ⟨apart, later⟩ := List.forall_mem_cons.mp other
        simp only [insertEntry]
        split
        next => exact .refl _
        next same => exact absurd (Std.LawfulEqCmp.eq_of_compare same).symm apart
        next => exact ((ih later).cons head).trans (.swap ..)
  refine one t.entries fun entry member same => ?_
  have found : t.find? entry.1 = some entry.2 := (find?_eq_some_iff ..).mpr member
  rw [same, missing] at found
  cases found

theorem nodup_keys [Std.TransOrd κ] [Std.LawfulEqOrd κ] (t : Table κ α) : t.keys.Nodup := by
  refine List.pairwise_map.mpr (t.ascending.imp ?_)
  intro x y below same
  simp [same] at below

end Courier.Table
