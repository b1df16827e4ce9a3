/-! # Tables

Finite maps as association lists with ascending keys. The order is part of the
type, so equal tables are equal lists, and walking a table visits its keys in
order.
-/

namespace Courier

/-- A finite map from `κ` to `α`, in ascending order of the keys. -/
structure Table (κ α : Type) [Ord κ] where
  entries : List (κ × α)
  ascending : entries.Pairwise (fun x y => compare x.1 y.1 = .lt)

namespace Table

variable {κ α β : Type} [Ord κ]

instance [DecidableEq κ] [DecidableEq α] : DecidableEq (Table κ α) := fun s t =>
  if h : s.entries = t.entries then
    isTrue (by cases s; cases t; cases h; rfl)
  else
    isFalse (fun e => h (congrArg entries e))

def empty : Table κ α :=
  ⟨[], .nil⟩

instance : Inhabited (Table κ α) := ⟨empty⟩

def keys (t : Table κ α) : List κ :=
  t.entries.map (·.1)

def find? [DecidableEq κ] (t : Table κ α) (key : κ) : Option α :=
  (t.entries.find? (·.1 = key)).map (·.2)

/-- Put `value` at `key` into an ascending list. -/
def insertEntry (key : κ) (value : α) : List (κ × α) → List (κ × α)
  | [] => [(key, value)]
  | entry :: rest =>
      match compare key entry.1 with
      | .lt => (key, value) :: entry :: rest
      | .eq => (key, value) :: rest
      | .gt => entry :: insertEntry key value rest

theorem mem_insertEntry {key : κ} {value : α} {entries : List (κ × α)} {entry : κ × α}
    (h : entry ∈ insertEntry key value entries) : entry = (key, value) ∨ entry ∈ entries := by
  induction entries with
  | nil => simpa [insertEntry] using h
  | cons head rest ih =>
      simp only [insertEntry] at h
      split at h
      · simpa using h
      · simp only [List.mem_cons] at h ⊢
        exact h.imp_right .inr
      · simp only [List.mem_cons] at h ⊢
        rcases h with h | h
        · exact .inr (.inl h)
        · exact (ih h).imp_right .inr

theorem ascending_insertEntry [Std.TransOrd κ] [Std.LawfulEqOrd κ] (key : κ) (value : α)
    {entries : List (κ × α)} (h : entries.Pairwise (fun x y => compare x.1 y.1 = .lt)) :
    (insertEntry key value entries).Pairwise (fun x y => compare x.1 y.1 = .lt) := by
  induction entries with
  | nil => simp [insertEntry]
  | cons head rest ih =>
      obtain ⟨below, ordered⟩ := List.pairwise_cons.mp h
      simp only [insertEntry]
      split
      next before =>
        refine List.pairwise_cons.mpr ⟨fun entry member => ?_, h⟩
        rcases List.mem_cons.mp member with rfl | member
        · exact before
        · exact Std.TransCmp.lt_trans before (below _ member)
      next same =>
        rw [Std.LawfulEqCmp.eq_of_compare same]
        exact List.pairwise_cons.mpr ⟨below, ordered⟩
      next after =>
        refine List.pairwise_cons.mpr ⟨fun entry member => ?_, ih ordered⟩
        rcases mem_insertEntry member with rfl | member
        · exact Std.OrientedCmp.gt_iff_lt.mp after
        · exact below _ member

/-- The table with `value` at `key`, in place of what was there. -/
def insert [Std.TransOrd κ] [Std.LawfulEqOrd κ] (t : Table κ α) (key : κ) (value : α) :
    Table κ α :=
  ⟨insertEntry key value t.entries, ascending_insertEntry key value t.ascending⟩

def erase [DecidableEq κ] (t : Table κ α) (key : κ) : Table κ α :=
  ⟨t.entries.filter (·.1 ≠ key), t.ascending.filter _⟩

def map (f : α → β) (t : Table κ α) : Table κ β :=
  ⟨t.entries.map fun entry => (entry.1, f entry.2), by
    simpa [List.pairwise_map] using t.ascending⟩

/-- The table of a list of entries; of two entries with one key the later counts. -/
def ofList [Std.TransOrd κ] [Std.LawfulEqOrd κ] (entries : List (κ × α)) : Table κ α :=
  entries.foldl (fun t entry => t.insert entry.1 entry.2) empty

@[simp] theorem find?_empty [DecidableEq κ] (key : κ) :
    (empty : Table κ α).find? key = none := rfl

theorem find?_insertEntry [DecidableEq κ] [Std.TransOrd κ] [Std.LawfulEqOrd κ]
    (key other : κ) (value : α) (entries : List (κ × α)) :
    ((insertEntry key value entries).find? (·.1 = other)).map (·.2) =
      if key = other then some value else (entries.find? (·.1 = other)).map (·.2) := by
  induction entries with
  | nil => by_cases h : key = other <;> simp [insertEntry, h]
  | cons head rest ih =>
      simp only [insertEntry]
      split
      next => by_cases h : key = other <;> simp [List.find?_cons, h]
      next same =>
        have : key = head.1 := Std.LawfulEqCmp.eq_of_compare same
        by_cases h : key = other
        · simp [h]
        · simp [h, this ▸ h]
      next after =>
        by_cases h : head.1 = other
        · have : key ≠ other := by
            rintro rfl
            simp [h] at after
          simp [h, this]
        · simpa [List.find?_cons, h] using ih

theorem find?_insert [DecidableEq κ] [Std.TransOrd κ] [Std.LawfulEqOrd κ]
    (t : Table κ α) (key other : κ) (value : α) :
    (t.insert key value).find? other = if key = other then some value else t.find? other :=
  find?_insertEntry key other value t.entries

@[simp] theorem find?_insert_self [DecidableEq κ] [Std.TransOrd κ] [Std.LawfulEqOrd κ]
    (t : Table κ α) (key : κ) (value : α) : (t.insert key value).find? key = some value := by
  simp [find?_insert]

theorem find?_insert_of_ne [DecidableEq κ] [Std.TransOrd κ] [Std.LawfulEqOrd κ]
    (t : Table κ α) {key other : κ} (value : α) (h : key ≠ other) :
    (t.insert key value).find? other = t.find? other := by
  simp [find?_insert, h]

end Table

end Courier
