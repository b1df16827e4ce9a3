import Courier.Proofs.Record

/-! # How much a reader takes

A reader that accepts takes a byte or more, and what it makes of the bytes is
not larger than they are: a string has no more bytes than were read, and a list
or map no more items. So what was read from bytes that can be counted can itself
be counted, however the bytes were made.
-/

namespace Courier

theorem utf8_of_ofUtf8? {bytes : Bytes} {text : String} (read : ofUtf8? bytes = some text) :
    utf8 text = bytes := by
  simp only [ofUtf8?, String.fromUTF8?] at read
  split at read
  · obtain rfl := Option.some.inj read
    rfl
  · cases read

namespace Cbor

variable {α β : Type}

/-- Whatever the reader accepts, it takes a byte or more, and if the bytes can be counted, what it
    makes of them has the property. -/
def Consumes (reader : Reader α) (property : α → Prop) : Prop :=
  ∀ ⦃bytes rest value⦄, reader bytes = some (value, rest) →
    rest.length < bytes.length ∧ (Countable bytes → property value)

theorem Countable.of_le {short : List α} {long : List β} (countable : Countable long)
    (least : short.length ≤ long.length) : Countable short :=
  Nat.lt_of_le_of_lt least countable

/-! ## Strings -/

theorem length_taken {count : Nat} {bytes front rest : Bytes}
    (taken : take? count bytes = some (front, rest)) :
    front.length + rest.length = bytes.length := by
  simp only [take?] at taken
  split at taken
  · simp only [Option.some.injEq, Prod.mk.injEq] at taken
    obtain ⟨rfl, rfl⟩ := taken
    rw [← List.length_append, List.take_append_drop]
  · cases taken

theorem length_of_itemHead? {bytes rest : Bytes} {head : Head}
    (read : itemHead? bytes = some (head, rest)) : rest.length < bytes.length := by
  fun_induction itemHead? bytes with
  | case1 bytes number between found ih =>
      exact Nat.lt_trans (ih read) (length_of_head? found)
  | case2 bytes plain => exact length_of_head? read

theorem length_of_segments? {kind : Kind} {valid : Bytes → Bool} {nested : Nat}
    {bytes content rest : Bytes} (read : segments? kind valid nested bytes = some (content, rest)) :
    content.length + rest.length ≤ bytes.length := by
  fun_induction segments? kind valid nested bytes generalizing content rest with
  | case1 | case4 | case6 | case8 => cases read
  | case2 bytes after found =>
      obtain ⟨rfl, rfl⟩ := Prod.mk.inj (Option.some.inj read)
      have head := length_of_head? found
      simp only [List.length_nil]
      omega
  | case3 bytes after found nested ih =>
      exact Nat.le_trans (ih read) (Nat.le_of_lt (length_of_head? found))
  | case5 nested bytes head after plain found opened ih =>
      exact Nat.le_trans (ih read) (Nat.le_of_lt (length_of_head? found))
  | case7 nested bytes head after plain found length given segment after' taken valid ih =>
      obtain ⟨⟨more, last⟩, others, same⟩ := Option.map_eq_some_iff.mp read
      obtain ⟨rfl, rfl⟩ := Prod.mk.inj same
      have head := length_of_head? found
      have parts := length_taken taken
      have later := ih others
      rw [List.length_append]
      omega

theorem length_of_string? {kind : Kind} {valid : Bytes → Bool} {length : Option Nat}
    {bytes content rest : Bytes} (read : string? kind valid length bytes = some (content, rest)) :
    content.length + rest.length ≤ bytes.length := by
  cases length with
  | none => exact length_of_segments? read
  | some length =>
      simp only [string?, Option.bind_eq_bind, Option.bind_eq_some_iff, Prod.exists,
        Option.ite_none_right_eq_some, Option.some.injEq, Prod.mk.injEq] at read
      obtain ⟨front, after, taken, -, rfl, rfl⟩ := read
      exact Nat.le_of_eq (length_taken taken)

theorem consumes_text : Consumes text? fun value => Countable (utf8 value) := by
  intro bytes rest value read
  simp only [text?] at read
  split at read
  next length after found =>
    simp only [Option.bind_eq_bind, Option.bind_eq_some_iff, Prod.exists, Option.pure_def,
      Option.some.injEq, Prod.mk.injEq] at read
    obtain ⟨content, last, string, text, spelled, rfl, rfl⟩ := read
    have head := length_of_itemHead? found
    have size := length_of_string? string
    refine ⟨by omega, fun countable => ?_⟩
    have same := utf8_of_ofUtf8? spelled
    exact countable.of_le (by rw [same]; omega)
  · cases read

/-! ## Lists and maps -/

/-- What was made of the bytes before `rest` has no more items than there were bytes, each with the
    property. -/
structure Holds (property : α → Prop) (values : List α) (bytes rest : Bytes) : Prop where
  size : values.length + rest.length ≤ bytes.length
  each : Countable bytes → ∀ value ∈ values, property value

variable {item : Reader α} {property : α → Prop}

theorem Holds.cons {first : α} {others : List α} {bytes between rest : Bytes}
    (consumes : Consumes item property) (one : item bytes = some (first, between))
    (holds : Holds property others between rest) :
    Holds property (first :: others) bytes rest := by
  obtain ⟨less, held⟩ := consumes one
  obtain ⟨size, each⟩ := holds
  refine ⟨by rw [List.length_cons]; omega, fun countable => ?_⟩
  exact List.forall_mem_cons.mpr ⟨held countable, each (countable.of_le (Nat.le_of_lt less))⟩

theorem holds_of_many? (consumes : Consumes item property) {count : Nat} {bytes rest : Bytes}
    {values : List α} (read : many? item count bytes = some (values, rest)) :
    Holds property values bytes rest := by
  induction count generalizing bytes values with
  | zero =>
      obtain ⟨rfl, rfl⟩ := Prod.mk.inj (Option.some.inj read)
      exact ⟨by simp, by simp⟩
  | succ count ih =>
      simp only [many?, Option.bind_eq_bind, Option.bind_eq_some_iff, Prod.exists, Option.pure_def,
        Option.some.injEq, Prod.mk.injEq] at read
      obtain ⟨first, between, one, others, last, many, rfl, rfl⟩ := read
      exact (ih many).cons consumes one

theorem holds_of_manyUntilStop? (consumes : Consumes item property) {bound bytes rest : Bytes}
    {values : List α} (read : manyUntilStop? item bound bytes = some (values, rest)) :
    Holds property values bytes rest := by
  induction bound generalizing bytes values with
  | nil => cases read
  | cons byte bound ih =>
      simp only [manyUntilStop?] at read
      split at read
      next after found =>
        obtain ⟨rfl, rfl⟩ := Prod.mk.inj (Option.some.inj read)
        have head := length_of_head? found
        exact ⟨by simp only [List.length_nil]; omega, by simp⟩
      · simp only [Option.bind_eq_bind, Option.bind_eq_some_iff, Prod.exists, Option.pure_def,
          Option.some.injEq, Prod.mk.injEq] at read
        obtain ⟨first, between, one, others, last, many, rfl, rfl⟩ := read
        exact (ih many).cons consumes one

theorem holds_of_collection? (consumes : Consumes item property) {count : Option Nat}
    {bytes rest : Bytes} {values : List α}
    (read : collection? item count bytes = some (values, rest)) :
    Holds property values bytes rest := by
  cases count with
  | none => exact holds_of_manyUntilStop? consumes read
  | some count => exact holds_of_many? consumes read

/-- Behind the head of an item, there are countable values with the property. -/
theorem Holds.behind {head : Head} {values : List α} {bytes between rest : Bytes}
    (found : itemHead? bytes = some (head, between)) (holds : Holds property values between rest) :
    rest.length < bytes.length ∧
      (Countable bytes → Countable values ∧ ∀ value ∈ values, property value) := by
  have less := length_of_itemHead? found
  obtain ⟨size, each⟩ := holds
  exact ⟨by omega, fun countable =>
    ⟨countable.of_le (by omega), each (countable.of_le (Nat.le_of_lt less))⟩⟩

theorem Consumes.list (consumes : Consumes item property) :
    Consumes (list? item) fun values => Countable values ∧ ∀ value ∈ values, property value := by
  intro bytes rest values read
  simp only [list?] at read
  split at read
  next count after found => exact (holds_of_collection? consumes read).behind found
  next length after found =>
    split at read
    next last string =>
      obtain ⟨rfl, rfl⟩ := Prod.mk.inj (Option.some.inj read)
      have nothing : Holds property [] after last := ⟨length_of_string? string, by simp⟩
      exact nothing.behind found
    · cases read
  · cases read

theorem Consumes.pair {first : Reader α} {second : Reader β} {other : β → Prop}
    (consumes : Consumes first property) (also : Consumes second other) :
    Consumes (pair? first second) fun both => property both.1 ∧ other both.2 := by
  intro bytes rest value read
  simp only [pair?, Option.bind_eq_bind, Option.bind_eq_some_iff, Prod.exists, Option.pure_def,
    Option.some.injEq, Prod.mk.injEq] at read
  obtain ⟨a, between, one, b, last, next, rfl, rfl⟩ := read
  obtain ⟨less, held⟩ := consumes one
  obtain ⟨more, kept⟩ := also next
  exact ⟨by omega, fun countable =>
    ⟨held countable, kept (countable.of_le (Nat.le_of_lt less))⟩⟩

theorem Consumes.map {key : Reader α} {value : Reader β} {other : β → Prop}
    (consumes : Consumes key property) (also : Consumes value other) :
    Consumes (map? key value) fun entries =>
      Countable entries ∧ ∀ entry ∈ entries, property entry.1 ∧ other entry.2 := by
  intro bytes rest entries read
  simp only [map?] at read
  split at read
  next count after found =>
    exact (holds_of_collection? (consumes.pair also) read).behind found
  · cases read

theorem Consumes.tagWith {reader : Reader α} {tag : α → β} {other : β → Prop}
    (consumes : Consumes reader property) (tagged : ∀ a, property a → other (tag a)) :
    Consumes (Record.tagWith tag reader) other := by
  intro bytes rest value read
  obtain ⟨⟨a, last⟩, plain, same⟩ := Option.map_eq_some_iff.mp read
  obtain ⟨rfl, rfl⟩ := Prod.mk.inj same
  exact (consumes plain).imp_right fun held countable => tagged a (held countable)

/-- Of entries with the same key one is kept, so a table of countable entries is countable. -/
theorem Consumes.table {value : Reader β} {other : β → Prop} (consumes : Consumes value other) :
    Consumes (Record.tagWith Table.ofList (map? text? value)) (CountableTable other) := by
  refine (consumes_text.map consumes).tagWith fun entries held => ?_
  obtain ⟨count, each⟩ := held
  have kept : ∀ entry ∈ (Table.ofList entries).entries, entry ∈ entries := by
    intro entry member
    exact Table.mem_of_find?_ofList ((Table.find?_eq_some_iff _ entry.1 entry.2).mpr member)
  exact ⟨count.of_le (Table.length_ofList_le entries),
    fun entry member => (each _ (kept _ member)).1, fun entry member => (each _ (kept _ member)).2⟩

/-! ## Numbers and byte strings -/

theorem length_of_unsigned? {limit n : Nat} {bytes rest : Bytes}
    (read : unsigned? limit bytes = some (n, rest)) : rest.length < bytes.length := by
  fun_induction unsigned? limit bytes with
  | case1 bytes number after found allowed =>
      obtain ⟨rfl, rfl⟩ := Prod.mk.inj (Option.some.inj read)
      exact length_of_head? found
  | case2 | case4 | case5 | case7 => cases read
  | case3 bytes after found length between next =>
      simp only [Option.bind_eq_bind, Option.bind_eq_some_iff, Prod.exists,
        Option.ite_none_right_eq_some, Option.some.injEq, Prod.mk.injEq] at read
      obtain ⟨content, last, string, value, -, -, rfl, rfl⟩ := read
      have tag := length_of_head? found
      have head := length_of_head? next
      have size := length_of_string? string
      omega
  | case6 bytes number after other another found ih =>
      exact Nat.lt_trans (ih read) (length_of_head? found)

theorem consumes_bytes : Consumes bytes? Countable := by
  intro bytes rest content read
  simp only [bytes?] at read
  split at read
  next length after found =>
    have head := length_of_itemHead? found
    have size := length_of_string? read
    exact ⟨by omega, fun countable => countable.of_le (by omega)⟩
  next count after found =>
    obtain ⟨⟨ns, last⟩, plain, same⟩ := Option.map_eq_some_iff.mp read
    obtain ⟨rfl, rfl⟩ := Prod.mk.inj same
    have item : Consumes (unsigned? 255) fun _ => True := fun bytes rest n read =>
      ⟨length_of_unsigned? read, fun _ => trivial⟩
    refine ((holds_of_collection? item plain).behind found).imp_right fun held countable => ?_
    exact (held countable).1.of_le (Nat.le_of_eq (List.length_map _))
  · cases read

/-! ## Items that are passed over -/

theorem length_of_taggedNumber? {bytes rest : Bytes} {value : Nat}
    (read : taggedNumber? bytes = some (some (value, rest))) : rest.length ≤ bytes.length := by
  simp only [taggedNumber?] at read
  split at read
  next length after found =>
    split at read
    · obtain ⟨⟨content, last⟩, taken, same⟩ := Option.map_eq_some_iff.mp (Option.some.inj read)
      obtain ⟨-, rfl⟩ := Prod.mk.inj same
      exact Nat.le_trans (length_of_take? taken) (Nat.le_of_lt (length_of_head? found))
    · cases read
  · cases read

theorem length_of_skipHead? {limit : Nat} {stack stack' : List Enclosing} {head : Head}
    {bytes rest : Bytes} (passed : skipHead? limit stack head bytes = some (stack', rest)) :
    rest.length ≤ bytes.length := by
  have unmoved : ∀ {opened : Option (List Enclosing)},
      opened.map (·, bytes) = some (stack', rest) → rest.length ≤ bytes.length := by
    intro opened moved
    obtain ⟨stack, -, same⟩ := Option.map_eq_some_iff.mp moved
    exact Nat.le_of_eq (congrArg List.length (Prod.mk.inj same).2.symm)
  have string : ∀ {read : Option (Bytes × Bytes)},
      (∀ content last, read = some (content, last) → content.length + last.length ≤ bytes.length) →
      (read.map fun taken => (afterPart stack, taken.2)) = some (stack', rest) →
      rest.length ≤ bytes.length := by
    intro read size moved
    obtain ⟨⟨content, last⟩, taken, same⟩ := Option.map_eq_some_iff.mp moved
    obtain ⟨-, rfl⟩ := Prod.mk.inj same
    exact Nat.le_trans (Nat.le_add_left ..) (size content last taken)
  have stays : ∀ {stack : List Enclosing}, some (stack, bytes) = some (stack', rest) →
      rest.length ≤ bytes.length := by
    intro stack same
    exact Nat.le_of_eq (congrArg List.length (Prod.mk.inj (Option.some.inj same)).2.symm)
  cases head with
  | unsigned | negative | float => exact stays passed
  | simple value => exact stays (Option.ite_none_right_eq_some.mp passed).2
  | bytes | text => exact string (fun _ _ => length_of_string?) passed
  | array count | map count => cases count <;> exact unmoved passed
  | tag number =>
      simp only [skipHead?] at passed
      split at passed
      · cases passed
      next value after found =>
        obtain ⟨-, same⟩ := Option.ite_none_left_eq_some.mp passed
        obtain ⟨-, rfl⟩ := Prod.mk.inj (Option.some.inj same)
        exact length_of_taggedNumber? (Option.ite_none_right_eq_some.mp found).2
      · exact unmoved passed
  | stop =>
      simp only [skipHead?] at passed
      split at passed
      · exact stays passed
      · exact stays passed
      · cases passed

theorem length_of_skipAll? {limit : Nat} {bound : Bytes} {stack : List Enclosing}
    {bytes rest : Bytes} (passed : skipAll? limit bound stack bytes = some rest) :
    rest.length ≤ bytes.length := by
  fun_induction skipAll? limit bound stack bytes with
  | case1 bytes => exact Nat.le_of_eq (congrArg List.length (Option.some.inj passed).symm)
  | case2 => cases passed
  | case3 byte bound stack bytes some ih =>
      simp only [Option.bind_eq_bind, Option.bind_eq_some_iff, Prod.exists] at passed
      obtain ⟨head, after, found, stack', between, one, passed⟩ := passed
      have first := length_of_head? found
      have parts := length_of_skipHead? one
      have later := ih stack' between passed
      omega

/-! ## Names -/

theorem length_of_nameContent? {head : Head} {bytes name rest : Bytes}
    (read : nameContent? head bytes = some (name, rest)) : rest.length ≤ bytes.length := by
  simp only [nameContent?] at read
  split at read
  · have size := length_of_string? (Option.ite_none_right_eq_some.mp read).2
    omega
  · have size := length_of_string? (Option.ite_none_right_eq_some.mp read).2
    omega
  · cases read

theorem length_of_name? {bytes name rest : Bytes} (read : name? bytes = some (name, rest)) :
    rest.length < bytes.length := by
  simp only [name?, Option.bind_eq_bind, Option.bind_eq_some_iff, Prod.exists] at read
  obtain ⟨head, between, found, read⟩ := read
  exact Nat.lt_of_le_of_lt (length_of_nameContent? read) (length_of_itemHead? found)

end Cbor

namespace Record

open Cbor

variable {α β : Type} {property : α → Prop} {other : β → Prop}

/-! ## Contents -/

theorem consumes_field {known : Bytes → Option (Reader α)}
    (consumes : ∀ name value, known name = some value → Consumes value property) :
    Consumes (field? known) fun field => ∀ value ∈ field, property value := by
  intro bytes rest field read
  simp only [field?, Option.bind_eq_bind, Option.bind_eq_some_iff, Prod.exists] at read
  obtain ⟨name, between, named, read⟩ := read
  have first := length_of_name? named
  split at read
  next reader found =>
    obtain ⟨⟨value, last⟩, plain, same⟩ := Option.map_eq_some_iff.mp read
    obtain ⟨rfl, rfl⟩ := Prod.mk.inj same
    obtain ⟨less, held⟩ := consumes name reader found plain
    refine ⟨Nat.lt_trans less first, fun countable => ?_⟩
    rintro _ ⟨⟩
    exact held (countable.of_le (Nat.le_of_lt first))
  · obtain ⟨⟨_, last⟩, passed, same⟩ := Option.map_eq_some_iff.mp read
    obtain ⟨rfl, rfl⟩ := Prod.mk.inj same
    obtain ⟨last', all, same⟩ := Option.map_eq_some_iff.mp passed
    obtain ⟨-, rfl⟩ := Prod.mk.inj same
    exact ⟨Nat.lt_of_le_of_lt (length_of_skipAll? all) first, by simp⟩

theorem consumes_fields {known : Bytes → Option (Reader α)}
    (consumes : ∀ name value, known name = some value → Consumes value property) :
    Consumes (fields? known) fun fields => ∀ value ∈ fields, property value := by
  intro bytes rest fields read
  simp only [fields?] at read
  split at read
  next count after found =>
    obtain ⟨⟨all, last⟩, plain, same⟩ := Option.map_eq_some_iff.mp read
    obtain ⟨rfl, rfl⟩ := Prod.mk.inj same
    refine ((holds_of_collection? (consumes_field consumes) plain).behind found).imp_right ?_
    intro held countable value member
    obtain ⟨field, inside, same⟩ := List.mem_filterMap.mp member
    exact (held countable).2 field inside value same
  · cases read

theorem consumes_oneField {name : String} {value : Reader α} (consumes : Consumes value property) :
    Consumes (oneField? name value) property := by
  intro bytes rest a read
  simp only [oneField?, Option.bind_eq_bind, Option.bind_eq_some_iff, Prod.exists, Option.pure_def,
    Option.some.injEq, Prod.mk.injEq] at read
  obtain ⟨fields, last, all, a, single, rfl, rfl⟩ := read
  have known : Consumes (fields? fun found => if found = utf8 name then some value else none)
      fun fields => ∀ value ∈ fields, property value := by
    refine consumes_fields fun name reader found => ?_
    obtain ⟨-, ⟨⟩⟩ := Option.ite_none_right_eq_some.mp found
    exact consumes
  refine (known all).imp_right fun held countable => held countable _ ?_
  rcases fields with _ | ⟨first, _ | _⟩ <;> cases single
  exact List.mem_singleton_self _

theorem consumes_twoFields {firstName secondName : String} {first : Reader α} {second : Reader β}
    (consumes : Consumes first property) (also : Consumes second other) :
    Consumes (twoFields? firstName secondName first second)
      fun values => property values.1 ∧ other values.2 := by
  intro bytes rest values read
  simp only [twoFields?, Option.bind_eq_bind, Option.bind_eq_some_iff, Prod.exists,
    Option.pure_def, Option.some.injEq, Prod.mk.injEq] at read
  obtain ⟨fields, last, all, a, b, single, rfl, rfl⟩ := read
  have known : ∀ name reader,
      (if name = utf8 firstName then some (tagWith Sum.inl first)
        else if name = utf8 secondName then some (tagWith Sum.inr second) else none) =
          some reader → Consumes reader (Sum.elim property other) := by
    intro name reader found
    split at found
    · obtain rfl := Option.some.inj found
      exact consumes.tagWith fun a held => held
    · obtain ⟨-, ⟨⟩⟩ := Option.ite_none_right_eq_some.mp found
      exact also.tagWith fun b held => held
  refine (consumes_fields known all).imp_right fun held countable => ?_
  have each : ∀ value ∈ fields, Sum.elim property other value := held countable
  have members : Sum.inl a ∈ fields ∧ Sum.inr b ∈ fields := by
    simp only [both?] at single
    split at single
    · obtain ⟨rfl, rfl⟩ := Prod.mk.inj (Option.some.inj single)
      simp
    · obtain ⟨rfl, rfl⟩ := Prod.mk.inj (Option.some.inj single)
      simp
    · cases single
  exact ⟨each _ members.1, each _ members.2⟩

/-! ## Records -/

theorem consumes_version : Consumes version? fun _ => True := by
  have number : Consumes (unsigned? (UInt64.size - 1)) fun _ => True := fun bytes rest n read =>
    ⟨length_of_unsigned? read, fun _ => trivial⟩
  exact number.tagWith fun _ held => held

theorem consumes_identifier : Consumes identifier? fun _ => True := by
  intro bytes rest id read
  simp only [identifier?, Option.bind_eq_bind, Option.bind_eq_some_iff, Prod.exists,
    Option.pure_def, Option.some.injEq, Prod.mk.injEq] at read
  obtain ⟨content, last, plain, id, -, rfl, rfl⟩ := read
  exact ⟨(consumes_bytes plain).1, fun _ => trivial⟩

theorem consumes_content (variant : Bytes) : Consumes (content? variant) Countable := by
  have transports : Consumes transports? _ := consumes_text.table.table
  have ids := consumes_identifier.list
  simp only [content?]
  split
  · exact (consumes_twoFields transports consumes_version).tagWith fun _ held => held.1
  · split
    · exact (consumes_twoFields ids consumes_version).tagWith fun _ held => held.1.1
    · split
      · exact (consumes_oneField ids).tagWith fun _ held => held.1
      · split
        · exact (consumes_oneField consumes_bytes.list).tagWith fun _ held => held
        · intro bytes rest record read
          cases read

theorem consumes_record : Consumes record? Countable := by
  intro bytes rest record read
  have behind : ∀ {variant between}, between.length ≤ bytes.length →
      content? variant between = some (record, rest) →
      rest.length < bytes.length ∧ (Cbor.Countable bytes → record.Countable) := by
    intro variant between shorter read
    obtain ⟨less, held⟩ := consumes_content variant read
    exact ⟨Nat.lt_of_lt_of_le less shorter, fun countable => held (countable.of_le shorter)⟩
  simp only [record?] at read
  split at read
  next after found =>
    simp only [Option.bind_eq_bind, Option.bind_eq_some_iff, Prod.exists] at read
    obtain ⟨variant, between, named, read⟩ := read
    have head := length_of_itemHead? found
    have name := length_of_name? named
    exact behind (by omega) read
  next length after found =>
    simp only [Option.bind_eq_bind, Option.bind_eq_some_iff, Prod.exists] at read
    obtain ⟨variant, between, named, read⟩ := read
    have head := length_of_itemHead? found
    have name := length_of_nameContent? named
    exact behind (by omega) read
  · cases read

/-- What was read from bytes that can be counted can be counted. -/
theorem countable_of_decode {bytes : Bytes} {record : Record} (countable : Cbor.Countable bytes)
    (read : decode bytes = .ok record) : record.Countable := by
  simp only [decode] at read
  split at read
  next record' rest found =>
    obtain rfl := Except.ok.inj read
    exact (consumes_record found).2 countable
  · cases read

end Record

end Courier
