import Courier.Command.Run
import Courier.Proofs.Depot.Shelf

/-! # Running commands on a shelf

An action carries the lines that it has printed through a computation with
files and random bytes. On a shelf it runs from lines and files to an answer,
more lines and other files, and a failure of its first part is a failure of the
whole.
-/

namespace Courier.Command

variable {α β ε : Type}

/-- With these lines printed, the action takes the shelf `s` to this end. -/
def Runs (action : Action Shelving α) (lines : List String) (s : Shelf)
    (answer : Except Failure α) (lines' : List String) (after : Shelf) : Prop :=
  (action.run.run lines).run s = ((answer, lines'), after)

namespace Runs

variable {action : Action Shelving α} {next : α → Action Shelving β}
  {lines between lines' : List String} {s middle after : Shelf} {value : α} {fault : Failure}
  {answer : Except Failure β}

theorem pure (value : α) (lines : List String) (s : Shelf) :
    Runs (Pure.pure value) lines s (.ok value) lines s := rfl

theorem throw (fault : Failure) (lines : List String) (s : Shelf) :
    Runs (MonadExcept.throw fault : Action Shelving α) lines s (.error fault) lines s := rfl

theorem bind (first : Runs action lines s (.ok value) between middle)
    (rest : Runs (next value) between middle answer lines' after) :
    Runs (action >>= next) lines s answer lines' after := by
  rw [Runs] at first rest ⊢
  rw [ExceptT.run_bind, StateT.run_bind, Shelf.run_bind, first]
  exact rest

theorem bind_error (first : Runs action lines s (.error fault) between middle) :
    Runs (action >>= next) lines s (.error fault) between middle := by
  rw [Runs] at first ⊢
  rw [ExceptT.run_bind, StateT.run_bind, Shelf.run_bind, first]
  rfl

theorem say (line : String) (lines : List String) (s : Shelf) :
    Runs (Command.say line) lines s (.ok ()) (lines ++ [line]) s := rfl

theorem lift {step : Shelving α} (ran : step.run s = (value, after)) (lines : List String) :
    Runs (Command.lift step) lines s (.ok value) lines after := by
  rw [Runs, Command.lift, ExceptT.run_lift, StateT.run_map, StateT.run_lift]
  simp only [Shelf.run_bind, map_eq_pure_bind, ran, Shelf.run_pure]

theorem orFail_ok {toFailure : ε → Failure} (value : α) (lines : List String) (s : Shelf) :
    Runs (orFail toFailure (.ok value)) lines s (.ok value) lines s := rfl

end Runs

end Courier.Command
