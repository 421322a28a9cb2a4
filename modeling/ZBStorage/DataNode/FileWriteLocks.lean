-- SUMMARY: The write locks of files with their gates: which mutations run while a token is live.
import ZBStorage.Lib.CallHistory
import ZBStorage.Lib.TextFields
import ZBStorage.Lib.WeakTable
import ZBStorage.DataNode.FileObjects

/-!
# Write locks

`FileWriteLocks` and the requests of the service that go through it. A request takes one
step at a time: it gets the gate of an inode, locks it, looks the owner up, and gives the
gate back. A mutation runs with its gate locked. The steps of all requests interleave.
-/

namespace Zb.DataNode

open Bytes CallHistory TextFields

/-! ## Requests -/

/-- `ObjectInode`: the inode in a stable object id, zero for any other id. -/
def objectInode (id : Bytes) : UInt64 :=
  if (ofAscii "obj-").isPrefixOf id then
    let rest := id.drop 4
    if 45 ∈ rest then (fromChars (rest.takeWhile (· ≠ 45))).getD 0 else 0
  else 0

/-- The requests that lock a file or change one. -/
inductive LockRequest
  | acquireFileWriteLock (inodeId : UInt64)
  | releaseFileWriteLock (inodeId : UInt64) (token : Bytes)
  | writeObject (objectId : Bytes) (isReplication : Bool) (writeLockToken : Bytes)
  | deleteObject (objectId : Bytes)
  | allocateFileWrite (inodeId : UInt64) (writeLockToken : Bytes)
  | commitFileWrite (inodeId : UInt64) (writeLockToken : Bytes)
  | deleteFileMeta (inodeId : UInt64)
  deriving DecidableEq

/-- What a request passes to the locks. -/
structure Access where
  inodeId : UInt64
  token : Bytes := []
  required : Bool := false

namespace LockRequest

/-- The arguments of `Acquire`, `Release` or `Check`. -/
def access : LockRequest → Access
  | acquireFileWriteLock inodeId => { inodeId := inodeId }
  | releaseFileWriteLock inodeId token => { inodeId := inodeId, token := token }
  | writeObject objectId isReplication writeLockToken =>
      { inodeId := if isReplication then 0 else objectInode objectId
        token := if isReplication then [] else writeLockToken
        required := !isReplication && objectInode objectId != 0 }
  | deleteObject objectId => { inodeId := objectInode objectId }
  | allocateFileWrite inodeId writeLockToken =>
      { inodeId := inodeId, token := writeLockToken, required := true }
  | commitFileWrite inodeId writeLockToken =>
      { inodeId := inodeId, token := writeLockToken, required := true }
  | deleteFileMeta inodeId => { inodeId := inodeId }

/-- The file that a request is about, zero for an object of no file. -/
def target : LockRequest → UInt64
  | writeObject objectId _ _ => objectInode objectId
  | request => request.access.inodeId

/-- The token that a request carries. -/
def carried : LockRequest → Bytes
  | writeObject _ _ writeLockToken => writeLockToken
  | request => request.access.token

/-- A write that the primary sends to its peer. -/
def isReplication : LockRequest → Bool
  | writeObject _ isReplication _ => isReplication
  | _ => false

/-- Whether the gate is locked for the request alone. -/
def exclusive : LockRequest → Bool
  | acquireFileWriteLock _ => true
  | releaseFileWriteLock _ _ => true
  | _ => false

end LockRequest

/-! ## The locks -/

inductive LockAnswer
  | token (text : Bytes)
  | done
  | refused
  deriving DecidableEq

/-- How far a request has come, and the gate it has a pointer to. -/
inductive Phase
  | called
  | waiting (gate : Nat)
  | locked (gate : Nat)
  | running (gate : Nat)
  | answered (gate : Nat) (answer : LockAnswer)
  | unlocked (gate : Nat) (answer : LockAnswer)
  | returned (answer : LockAnswer)
  deriving DecidableEq

namespace Phase

def gate? : Phase → Option Nat
  | waiting gate => some gate
  | locked gate => some gate
  | running gate => some gate
  | answered gate _ => some gate
  | unlocked gate _ => some gate
  | _ => none

/-- The gate that the request has locked. -/
def lockedGate? : Phase → Option Nat
  | locked gate => some gate
  | running gate => some gate
  | answered gate _ => some gate
  | _ => none

def answer? : Phase → Option LockAnswer
  | answered _ answer => some answer
  | unlocked _ answer => some answer
  | returned answer => some answer
  | _ => none

end Phase

structure LockCall where
  request : LockRequest
  phase : Phase
  deriving DecidableEq

/-- The locks and all requests of the process so far. -/
structure FileWriteLocks where
  session : Bytes
  gates : WeakTable Bytes := {}
  owners : AList (fun _ : UInt64 => Bytes) := ∅
  sequence : UInt64 := 0
  calls : List LockCall := []

namespace FileWriteLocks

def gateKey (inodeId : UInt64) : Bytes := decimal inodeId.toNat

/-- Whether a request has a pointer to the gate. -/
def used (locks : FileWriteLocks) (gate : Nat) : Bool :=
  locks.calls.any fun call => call.phase.gate? == some gate

/-- Whether the gate can be locked for one request alone. -/
def free (locks : FileWriteLocks) (gate : Nat) : Bool :=
  locks.calls.all fun call => call.phase.lockedGate? != some gate

/-- Whether the gate can be locked together with others. -/
def shareable (locks : FileWriteLocks) (gate : Nat) : Bool :=
  locks.calls.all fun call => call.phase.lockedGate? != some gate || !call.request.exclusive

/-- `KeyedLocks::Get`. -/
def getGate (locks : FileWriteLocks) (inodeId : UInt64) : Nat × WeakTable Bytes :=
  locks.gates.get 256 locks.used (gateKey inodeId)

/-- The request with number `i` comes to a phase. -/
def setPhase (locks : FileWriteLocks) (i : Nat) (request : LockRequest) (phase : Phase) :
    FileWriteLocks :=
  { locks with calls := locks.calls.set i ⟨request, phase⟩ }

/-- The rule of `Check`. -/
def allowed (locks : FileWriteLocks) (access : Access) : Bool :=
  match locks.owners.lookup access.inodeId with
  | none => !access.required && access.token.isEmpty
  | some owner => !access.token.isEmpty && owner == access.token

/-- What happens under the mutex of the owners. -/
def consult (locks : FileWriteLocks) (i : Nat) (request : LockRequest) (gate : Nat) :
    FileWriteLocks :=
  match request with
  | .acquireFileWriteLock inodeId =>
      if inodeId ∈ locks.owners then locks.setPhase i request (.answered gate .refused)
      else
        let token := RealNode.lockToken locks.session (locks.sequence + 1)
        { locks with
          sequence := locks.sequence + 1
          owners := locks.owners.insert inodeId token
        }.setPhase i request (.answered gate (.token token))
  | .releaseFileWriteLock inodeId token =>
      if token = [] ∨ locks.owners.lookup inodeId ≠ some token then
        locks.setPhase i request (.answered gate .refused)
      else
        { locks with owners := locks.owners.erase inodeId
        }.setPhase i request (.answered gate .done)
  | request =>
      if locks.allowed request.access then locks.setPhase i request (.running gate)
      else locks.setPhase i request (.answered gate .refused)

/-- A request tries to lock its gate. `Acquire` does not wait, and `try_lock` may fail
    for no reason; the others cannot go on before the gate is free. -/
def lock (locks : FileWriteLocks) (i : Nat) (request : LockRequest) (gate : Nat) (tried : Bool) :
    Option FileWriteLocks :=
  match request with
  | .acquireFileWriteLock _ =>
      if tried ∧ locks.free gate then some (locks.setPhase i request (.locked gate))
      else some (locks.setPhase i request (.unlocked gate .refused))
  | .releaseFileWriteLock _ _ =>
      if locks.free gate then some (locks.setPhase i request (.locked gate)) else none
  | _ => if locks.shareable gate then some (locks.setPhase i request (.locked gate)) else none

/-- The next step of a request. `admitted` says whether the service lets it come to the
    locks at all, and then whether `try_lock` is tried in earnest. -/
def proceed (locks : FileWriteLocks) (i : Nat) (admitted : Bool) : Option FileWriteLocks :=
  match locks.calls[i]? with
  | none => none
  | some ⟨request, phase⟩ =>
      match phase with
      | .called =>
          if !admitted ∨ request = .acquireFileWriteLock 0 then
            some (locks.setPhase i request (.returned .refused))
          else
            let got := locks.getGate request.access.inodeId
            some ({ locks with gates := got.2 }.setPhase i request (.waiting got.1))
      | .waiting gate => locks.lock i request gate admitted
      | .locked gate => some (locks.consult i request gate)
      | .running gate => some (locks.setPhase i request (.answered gate .done))
      | .answered gate answer => some (locks.setPhase i request (.unlocked gate answer))
      | .unlocked _ answer => some (locks.setPhase i request (.returned answer))
      | .returned _ => none

inductive Action
  | call (request : LockRequest)
  | proceed (i : Nat) (admitted : Bool)

def act (locks : FileWriteLocks) : Action → Option FileWriteLocks
  | .call request => some { locks with calls := locks.calls ++ [⟨request, .called⟩] }
  | .proceed i admitted => locks.proceed i admitted

def Acting (locks : FileWriteLocks) (action : Action) (locks' : FileWriteLocks) : Prop :=
  locks.act action = some locks'

end FileWriteLocks

end Zb.DataNode
