import Courier.Command.Arguments
import Courier.Depot
import Courier.Party
import Courier.Session.Memory

/-! # Running a command

The commands, over any monad with files, random bytes and a clock. A run gives
the lines that it prints and, if it failed, the cause; lines printed ahead of a
failure stay.
-/

namespace Courier.Command

inductive Failure where
  | wrongPassword
  | keysDisagree
  | depotStopped
  /-- The next message fits in no connection of this capacity. -/
  | messageTooLarge
  | aborted (reason : Session.AbortReason)
  /-- The random bytes gave no key pair. -/
  | noKeyPair
  | device (fault : DeviceFault)
  | crypto (fault : CryptoFault)
  | connection (fault : ConnectionFault)
  | mailbox (fault : MailboxFault)
  | session (fault : SessionFault)
  deriving DecidableEq, Repr

def abortName : Session.AbortReason → String
  | .noContext => "NoContext"
  | .insufficientCapacity => "InsufficientCapacity"

/-- What is printed about a failure. What the program says in its own words stands in quotes. -/
def Failure.message : Failure → String
  | wrongPassword => "\"wrong password or corrupted data\""
  | keysDisagree => "\"key agreement produced different secrets\""
  | depotStopped => "\"file transport is not running\""
  | messageTooLarge => "\"message too large for one connection\""
  | aborted reason => s!"\"connection aborted: {abortName reason}\""
  | noKeyPair => "no key pair"
  | device fault => fault.text
  | crypto fault => fault.message
  | connection fault => fault.message
  | mailbox fault => fault.message
  | session fault => fault.message

abbrev Action (m : Type → Type) := ExceptT Failure (StateT (List String) m)

/-- What the program leaves behind besides files. -/
structure Outcome where
  /-- Zero for success, one for a failed command, two for a usage error. -/
  exitCode : UInt32
  lines : List String
  failure : Option Failure := none
  deriving DecidableEq, Repr

variable {m : Type → Type} [Monad m]

def say (line : String) : Action m Unit :=
  modifyThe (List String) (· ++ [line])

def lift {α : Type} (step : m α) : Action m α :=
  ExceptT.lift (StateT.lift step)

/-- Go on with a value, or fail. -/
def orFail {ε α : Type} (toFailure : ε → Failure) (result : Except ε α) : Action m α :=
  match result with
  | .ok value => return value
  | .error fault => throw (toFailure fault)

variable [FileStore m] [Entropy m]

/-! ## Sealing files -/

section Sealing

variable [Stopwatch m]

/-- Print the number of iterations that takes about so long. -/
def calibrate (targetMillis : Nat) : Action m Unit := do
  let iterations ← lift (Mint.chooseIterations {} targetMillis)
  say (toString iterations)

def sealFile (input output password : String) (targetMillis : Nat) : Action m Unit := do
  let plaintext ← orFail .device (← lift (FileStore.read input))
  let sealed ← orFail .crypto (← lift (Mint.lock { targetMillis } password plaintext).run)
  orFail .device (← lift (FileStore.write output sealed))
  say s!"sealed {plaintext.length} bytes into {output}"

omit [Entropy m] [Stopwatch m] in
def openFile (input output password : String) : Action m Unit := do
  let sealed ← orFail .device (← lift (FileStore.read input))
  match Vault.unlock? sealed password with
  | none => throw .wrongPassword
  | some plaintext =>
      orFail .device (← lift (FileStore.write output plaintext))
      say s!"opened {plaintext.length} bytes into {output}"

end Sealing

/-! ## Two parties and a depot -/

/-- What the first party calls the second. -/
def bob : ContactId := ⟨2⟩

/-- What the second party calls the first. -/
def alice : ContactId := ⟨1⟩

def onlyTransport : TransportIndex := ⟨0⟩

/-- A party with one contact, expecting its connections. -/
def partyWith (contact : ContactId) (root : Secret) (role : Role) : Except Failure Party := do
  let (added, mailbox) := ({} : Mailbox).addContact contact root role [onlyTransport]
  added.mapError .mailbox
  let (expected, party) := ({ mailbox } : Party).expectIncoming
  expected.mapError .session
  return party

/-- Send one connection and leave it at the depot. -/
def leave (depot : Depot) (contact : ContactId) (party : Party) :
    Action m (Session.SendOutcome × Party) := do
  match ← orFail .connection (← lift depot.deposit) with
  | none => throw .depotStopped
  | some deposit =>
      let (result, device, party) :=
        party.send ⟨contact, onlyTransport⟩ (Memory.writingEnd {} depot.capacity) {}
      let exception := device.disposed.getD true
      let _ ← lift (Depot.Deposit.dispose exception (deposit.write device.bytes))
      return (← orFail .session result, party)

/-- Leave connections until the queue of the party is empty, at most `fuel` of them; the answer is
    their number. -/
def leaveAll (depot : Depot) (contact : ContactId) :
    (fuel sent : Nat) → Party → Action m (Nat × Party)
  | 0, sent, party => return (sent, party)
  | fuel + 1, sent, party => do
      if party.mailbox.queuedCount contact = 0 then
        return (sent, party)
      match ← leave depot contact party with
      | (.completed _ 0, _) => throw .messageTooLarge
      | (.aborted reason, _) => throw (.aborted reason)
      | (.completed bytes records, party) =>
          say s!"alice -> bob: {records} records in {bytes} bytes"
          leaveAll depot contact fuel (sent + 1) party

/-- Receive connections found at the depot; the answer is how many were recognised. -/
def receiveAll : (received : Nat) → List Depot.Arrival → Party → Action m (Nat × Party)
  | received, [], party => return (received, party)
  | received, arrival :: rest, party => do
      let (result, device, party) :=
        party.receive (Memory.readingEnd {}) { rest := arrival.bytes }
      let (exception, recognised) := device.disposed.getD (true, false)
      let _ ← lift (arrival.dispose exception recognised)
      match ← orFail .session result with
      | .completed _ _ => receiveAll (received + 1) rest party
      | .unrecognised => receiveAll received rest party

def pickUp (depot : Depot) (party : Party) : Action m (Nat × Party) := do
  let arrivals ← orFail .connection (← lift depot.poll)
  receiveAll 0 arrivals party

def queueRandom (contact : ContactId) (size : Nat) : (count : Nat) → Mailbox →
    Mint m (Except MailboxFault Mailbox)
  | 0, mailbox => return .ok mailbox
  | count + 1, mailbox => do
      match mailbox.queue contact (← Mint.draw size) with
      | (.ok (), mailbox) => queueRandom contact size count mailbox
      | (.error fault, _) => return .error fault

/-- Two parties that agree on a root secret with their key pairs. -/
def agree (alicePair bobPair : KeyPair) : Except Failure (Party × Party) := do
  let aliceRoot ← (alicePair.rootSecret bobPair.publicKey true).mapError .crypto
  let bobRoot ← (bobPair.rootSecret alicePair.publicKey false).mapError .crypto
  if aliceRoot ≠ bobRoot then
    throw .keysDisagree
  return (← partyWith bob aliceRoot .alice, ← partyWith alice bobRoot .bob)

/-- Two parties with fresh key pairs, the first with so many messages queued. -/
def introduce (messages messageSize : Nat) : Mint m (Except Failure (Party × Party)) := do
  match ← Mint.keyPair, ← Mint.keyPair with
  | some alicePair, some bobPair =>
      match agree alicePair bobPair with
      | .error failure => return .error failure
      | .ok (first, second) =>
          match ← queueRandom bob messageSize messages first.mailbox with
          | .ok mailbox => return .ok ({ first with mailbox }, second)
          | .error fault => return .error (.mailbox fault)
  | _, _ => return .error .noKeyPair

/-- Send random messages from one party to another by way of a depot. The second party answers with
    one connection of acknowledgements. -/
def simulate (directory : String) (messages messageSize capacity : Nat) : Action m Unit := do
  let (first, second) ← orFail id (← lift (introduce messages messageSize).run)
  let (started, depot) ← lift (Depot.start { directory, capacity })
  orFail .connection started
  let (sent, first) ← leaveAll depot bob messages 0 first
  let (received, second) ← pickUp depot second
  say (s!"bob read {received} of {sent} connections, " ++
    s!"{(second.mailbox.received alice).length} messages")
  let (_, _) ← leave depot alice second
  let (_, first) ← pickUp depot first
  say s!"alice has {first.mailbox.outstandingCount bob} batches awaiting acks"

def perform [Stopwatch m] (task : Task) : m Outcome := do
  let action : Action m Unit := match task with
    | .calibrate targetMillis => calibrate targetMillis
    | .seal input output password targetMillis => sealFile input output password targetMillis
    | .unseal input output password => openFile input output password
    | .simulate directory messages messageSize capacity =>
        simulate directory messages messageSize capacity
  let (result, lines) ← action.run.run []
  match result with
  | .ok () => return { exitCode := 0, lines }
  | .error failure => return { exitCode := 1, lines, failure := some failure }

/-- Run the program on a command line, with the password of the environment. -/
def run [Stopwatch m] (environment : Option String) (words : List String) : m Outcome :=
  match read environment words with
  | none => return { exitCode := 2, lines := [] }
  | some .help => return { exitCode := 0, lines := [helpText] }
  | some .version => return { exitCode := 0, lines := [versionText] }
  | some (.run task) => perform task

def Outcome.complaint (o : Outcome) : Option String :=
  if o.exitCode = 2 then some helpText else o.failure.map fun f => "Error: " ++ f.message

end Courier.Command
