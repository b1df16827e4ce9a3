import Courier.Proofs.Bytes
import Courier.Proofs.Depot.Operations
import Mathlib.Data.Finset.Preimage

/-! # Names that do not run out

The names of a depot are drawn until one of them is not in use. If however many
files there are, one of the names that are drawn next is not among theirs, then
every deposit is made, and every release of one either publishes it as a new
file or leaves the files as they were.
-/

namespace Courier

/-- Most names that are ever in use at once. -/
def Shelf.mostNames : Nat := 2 ^ 33

/-- Whatever names are in use, one of those drawn next is another, before the search is given up. -/
def Shelf.Varied (s : Shelf) : Prop :=
  ∀ (start : Nat) (taken : Finset String), taken.card ≤ Shelf.mostNames →
    ∃ n, n + 1 < Depot.maxTries ∧ s.stem (start + n) ∉ taken

theorem Shelf.Varied.skip {s : Shelf} (varied : s.Varied) (count : Nat) :
    (s.skip count).Varied := by
  intro start taken few
  obtain ⟨n, below, other⟩ := varied (count + start) taken few
  refine ⟨n, below, ?_⟩
  rwa [Shelf.stem_skip, ← Nat.add_assoc]

theorem Shelf.Varied.of_draws {s after : Shelf} (varied : s.Varied)
    (same : after.draws = s.draws) : after.Varied := by
  intro start taken few
  obtain ⟨n, below, other⟩ := varied start taken few
  refine ⟨n, below, ?_⟩
  rwa [Shelf.stem, same]

theorem hexDigit_inj {m n : Nat} (hm : m < 16) (hn : n < 16) (same : hexDigit m = hexDigit n) :
    m = n := by
  have all : ∀ m < 16, ∀ n < 16, hexDigit m = hexDigit n → m = n := by decide
  exact all m hm n hn same

/-- Different bytes have different texts. -/
theorem hexText_inj {bytes other : Bytes} (same : hexText bytes = hexText other) :
    bytes = other := by
  have digits := congrArg String.toList same
  rw [hexText, hexText, String.toList_ofList, String.toList_ofList] at digits
  clear same
  induction bytes generalizing other with
  | nil =>
      cases other with
      | nil => rfl
      | cons => cases digits
  | cons byte bytes ih =>
      cases other with
      | nil => cases digits
      | cons byte' other =>
          have small := byte.toNat_lt
          have small' := byte'.toNat_lt
          rw [List.flatMap_cons, List.flatMap_cons] at digits
          obtain ⟨high, digits⟩ := List.cons.inj digits
          obtain ⟨low, digits⟩ := List.cons.inj digits
          have quotient := hexDigit_inj (by omega) (by omega) high
          have remainder := hexDigit_inj (by omega) (by omega) low
          have byte_eq : byte = byte' := UInt8.toNat_inj.mp (by omega)
          rw [byte_eq, ih digits]

/-- Names that count the requests, from some request on, do not run out. -/
theorem Shelf.varied_of_counting {s : Shelf} {first : Nat}
    (few : first + Shelf.mostNames + 1 < Depot.maxTries)
    (counts : ∀ request, first ≤ request → s.stem request = hexText (bigEndian 16 request)) :
    s.Varied := by
  intro start taken card
  let name (n : Nat) : String := s.stem (start + (first + n))
  have distinct : Set.InjOn name (Finset.range (Shelf.mostNames + 1)) := by
    intro m hm n hn same
    have hm := Finset.mem_range.mp hm
    have hn := Finset.mem_range.mp hn
    have spelled : bigEndian 16 (start + (first + m)) = bigEndian 16 (start + (first + n)) :=
      hexText_inj ((counts _ (by omega)).symm.trans (same.trans (counts _ (by omega))))
    have numbers := congrArg ofBigEndian spelled
    rw [ofBigEndian_bigEndian, ofBigEndian_bigEndian] at numbers
    simp only [Shelf.mostNames, Nat.reducePow] at numbers hm hn
    omega
  have more : taken.card < ((Finset.range (Shelf.mostNames + 1)).image name).card := by
    rw [Finset.card_image_of_injOn distinct, Finset.card_range]
    omega
  obtain ⟨stem, member, other⟩ := Finset.exists_mem_notMem_of_card_lt_card more
  obtain ⟨n, below, rfl⟩ := Finset.mem_image.mp member
  have below := Finset.mem_range.mp below
  exact ⟨first + n, by omega, other⟩

namespace Depot

open FileStore Courier.Shelf

theorem fileName_inj {stem other extension : String} :
    fileName stem extension = fileName other extension ↔ stem = other := by
  simp [fileName, String.append_left_inj]

/-- One of the names that are drawn next has no file of this kind. -/
theorem exists_unused {s : Shelf} (varied : s.Varied) (directory extension : String)
    (few : s.files.entries.length ≤ mostNames) :
    ∃ n, n + 1 < maxTries ∧
      s.files.find? (join directory (fileName (s.stem n) extension)) = none := by
  let path (stem : String) := join directory (fileName stem extension)
  have injective : Function.Injective path :=
    fun _ _ same => fileName_inj.mp (join_inj.mp same)
  let taken := s.files.keys.toFinset.preimage path injective.injOn
  have card : taken.card ≤ mostNames := by
    have within : taken.card ≤ s.files.keys.toFinset.card :=
      Finset.card_le_card_of_injOn path (by simp [taken, Set.MapsTo]) injective.injOn
    have keys : s.files.keys.toFinset.card ≤ s.files.keys.length := List.toFinset_card_le _
    have length : s.files.keys.length = s.files.entries.length := List.length_map _
    omega
  obtain ⟨n, below, other⟩ := varied 0 taken card
  rw [Nat.zero_add] at other
  refine ⟨n, below, Option.eq_none_iff_forall_ne_some.mpr fun bytes found => other ?_⟩
  have key : path (s.stem n) ∈ s.files.keys := (Table.mem_keys_iff ..).mpr ⟨bytes, found⟩
  simpa [taken] using key

/-- A deposit for which the shelf got a partial file. -/
structure Made (directory : String) (before : Shelf) (d : Deposit) (s : Shelf) : Prop where
  directory : d.directory = directory
  drawn : IsStem d.stem
  empty : d.bytes = []
  open_ : d.released = false
  unused : before.files.find? d.path = none
  files : s.files = before.files.insert d.path []
  varied : s.Varied

/-- A deposit is made as long as names do not run out. -/
theorem run_deposit_of_varied {depot : Depot} (running : depot.running = true) {s : Shelf}
    (varied : s.Varied) (few : s.files.entries.length ≤ mostNames) :
    ∃ d after, (deposit depot : Shelving _).run s = (.ok (some d), after) ∧
      Made depot.directory s d after := by
  rcases run_deposit depot running s with ⟨-, -, all⟩ | ⟨n, unused, made⟩
  · obtain ⟨n, below, free⟩ := exists_unused varied depot.directory partialExtension few
    have used := all n (by omega)
    rw [Deposit.path, free] at used
    cases used
  · exact ⟨_, _, made, rfl, isStem_stem s n, rfl, rfl, unused, rfl, varied.skip (n + 1)⟩

/-- A deposit that is released with an exception or without bytes leaves nothing. -/
theorem Made.dispose_nothing {directory : String} {s before : Shelf} {d : Deposit}
    (made : Made directory before d s) {exception : Bool} {bytes : Bytes}
    (nothing : exception = true ∨ bytes = []) :
    ∃ answer, ((d.write bytes).dispose exception : Shelving _).run s =
      (answer, { s with files := before.files }) := by
  have missing : before.files.erase d.path = before.files :=
    Table.erase_of_find?_eq_none made.unused
  have written : d.write bytes = { d with bytes } := by
    simp [Deposit.write, made.open_, made.empty]
  have there : s.files.find? (d.write bytes).path = some [] := by
    rw [made.files, written]
    exact Table.find?_insert_self ..
  have open_ : (d.write bytes).released = false := by rw [written, ← made.open_]
  have gone : s.files.erase (d.write bytes).path = before.files := by
    rw [made.files, written]
    exact (Table.erase_insert_self ..).trans missing
  cases exception with
  | true => exact ⟨_, by rw [run_dispose_exception open_ there, gone]⟩
  | false =>
      have empty : (d.write bytes).bytes = [] := by
        rw [written]
        exact nothing.resolve_left Bool.false_ne_true
      exact ⟨_, by rw [run_dispose_empty open_ empty there, Table.erase_insert_self, gone]⟩

/-- A deposit with bytes that is released without exception becomes a new connection, as long as
    names do not run out. -/
theorem Made.dispose_something {directory : String} {s before : Shelf} {d : Deposit}
    (made : Made directory before d s) {bytes : Bytes} (some : bytes ≠ [])
    (few : before.files.entries.length < mostNames) :
    ∃ answer after path, ((d.write bytes).dispose false : Shelving _).run s = (answer, after) ∧
      IsConnection directory path ∧ before.files.find? path = none ∧
      after.files = before.files.insert path bytes ∧ after.Varied := by
  have missing : before.files.erase d.path = before.files :=
    Table.erase_of_find?_eq_none made.unused
  have written : d.write bytes = { d with bytes } := by
    simp [Deposit.write, made.open_, made.empty]
  have there : s.files.find? d.path = Option.some [] := by
    rw [made.files]
    exact Table.find?_insert_self ..
  have filled : s.files.insert d.path bytes = before.files.insert d.path bytes := by
    rw [made.files, Table.insert_insert]
  have room : ((before.files.insert d.path bytes).entries.length ≤ mostNames) := by
    rw [(Table.perm_insert made.unused bytes).length_eq, List.length_cons]
    exact few
  rw [written]
  rcases run_dispose_finished (d := { d with bytes }) made.open_ made.drawn some there with
    ⟨-, -, all⟩ | ⟨path, n, connection, free, finished⟩
  · let full : Shelf := { s with files := before.files.insert d.path bytes }
    obtain ⟨n, below, free⟩ := exists_unused (s := full) made.varied d.directory finishedExtension
      room
    have used := all n below
    rw [show s.files.insert (Deposit.path { d with bytes }) bytes = full.files from filled] at used
    rw [show s.stem n = full.stem n from rfl, free] at used
    cases used
  · have elsewhere : d.path ≠ path := by
      rintro rfl
      exact made.drawn.not_isConnection _ connection
    rw [made.files, Table.find?_insert_of_ne _ _ elsewhere] at free
    refine ⟨_, _, path, finished, made.directory ▸ connection, free, ?_, made.varied.skip n⟩
    show ((s.files.insert d.path bytes).erase d.path).insert path bytes = _
    rw [filled, Table.erase_insert_self, missing]

end Depot

end Courier
