import Courier.Secret.Basic

/-! # Who talks to whom, and under which secret

A contact is a local number, and so is each transport over which a contact can
be reached. A context is all that keys one connection in one direction: the
secret of the current period, the stream number, and the local side of the
pair.
-/

namespace Courier

/-- Local number of a contact. -/
structure ContactId where
  number : UInt32
  deriving DecidableEq, Repr

def ContactId.name (contact : ContactId) : String :=
  s!"contact-{contact.number.toNat}"

structure TransportId where
  name : String
  deriving DecidableEq, Repr

/-- Number of a transport among those of a contact. -/
structure TransportIndex where
  number : UInt32
  deriving DecidableEq, Repr

/-- One contact over one transport. -/
structure Route where
  contact : ContactId
  transport : TransportIndex
  deriving DecidableEq, Repr

instance : Ord ContactId := ⟨compareOn ContactId.number⟩

instance : Std.TransOrd ContactId :=
  inferInstanceAs (Std.TransCmp (compareOn ContactId.number))

instance : Std.LawfulEqOrd ContactId where
  compare_self := Std.ReflOrd.compare_self
  eq_of_compare {a b} h := by
    cases a; cases b; exact congrArg _ (Std.LawfulEqOrd.eq_of_compare h)

instance : Ord TransportIndex := ⟨compareOn TransportIndex.number⟩

instance : Std.TransOrd TransportIndex :=
  inferInstanceAs (Std.TransCmp (compareOn TransportIndex.number))

instance : Std.LawfulEqOrd TransportIndex where
  compare_self := Std.ReflOrd.compare_self
  eq_of_compare {a b} h := by
    cases a; cases b; exact congrArg _ (Std.LawfulEqOrd.eq_of_compare h)

/-- Routes are ordered by contact, then by transport. -/
instance : Ord Route := ⟨compareLex (compareOn Route.contact) (compareOn Route.transport)⟩

instance : Std.TransOrd Route :=
  inferInstanceAs
    (Std.TransCmp (compareLex (compareOn Route.contact) (compareOn Route.transport)))

instance : Std.LawfulEqOrd Route where
  compare_self :=
    compareLex_eq_eq.mpr ⟨Std.ReflOrd.compare_self, Std.ReflOrd.compare_self⟩
  eq_of_compare {a b} h := by
    obtain ⟨first, second⟩ := compareLex_eq_eq.mp h
    cases a; cases b
    exact congr (congrArg _ (Std.LawfulEqOrd.eq_of_compare first))
      (Std.LawfulEqOrd.eq_of_compare second)

structure Context where
  route : Route
  /-- Secret of the current rotation period. -/
  secret : Secret
  stream : Nat
  role : Role
  deriving DecidableEq

end Courier
