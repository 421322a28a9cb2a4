-- SUMMARY: Runs of the write locks: while a token is live every mutation of its file carries it.
import ZBStorage.DataNode.FileWriteLocks

/-!
# Exclusion of writers

Three invariants of the write locks: the gates that are in use stand in their table and
an exclusive lock stands alone; a token has one owner until it is released; and what runs
was admitted by the owners as they are now.
-/

namespace Zb.DataNode.FileWriteLocks

open Bytes CallHistory

variable {locks locks' : FileWriteLocks} {request other : LockRequest} {phase phase' : Phase}
  {call : LockCall} {i j gate gate' : Nat} {inodeId inodeId' : UInt64} {token token' : Bytes}

/-! ## Steps -/

theorem getElem?_set_cases {α : Type} {l : List α} {a b : α} (h : (l.set i a)[j]? = some b) :
    j = i ∧ b = a ∨ j ≠ i ∧ l[j]? = some b := by
  rcases eq_or_ne j i with rfl | hne
  · left
    rw [List.getElem?_set_self'] at h
    obtain ⟨_, _, hsame⟩ := Option.map_eq_some_iff.mp h
    exact ⟨rfl, hsame.symm⟩
  · right
    rw [List.getElem?_set_ne hne.symm] at h
    exact ⟨hne, h⟩

theorem getElem?_set_self_of_some {α : Type} {l : List α} {a old : α} (h : l[i]? = some old) :
    (l.set i a)[i]? = some a := by
  rw [List.getElem?_set_self', h]
  rfl

theorem getElem?_snoc_cases {α : Type} {l : List α} {a b : α} (h : (l ++ [a])[j]? = some b) :
    l[j]? = some b ∨ b = a := by
  rw [List.getElem?_append] at h
  split at h
  · exact .inl h
  · exact .inr (List.mem_singleton.mp (List.mem_of_getElem? h))

theorem getElem?_append_of_some {α : Type} {l rest : List α} {a : α} (h : l[j]? = some a) :
    (l ++ rest)[j]? = some a := by
  obtain ⟨hlt, _⟩ := List.getElem?_eq_some_iff.mp h
  rwa [List.getElem?_append_left hlt]

/-- What a step of a request in a phase can come to. -/
inductive Moves (locks : FileWriteLocks) (i : Nat) (request : LockRequest) :
    Phase → FileWriteLocks → Prop
  | refuse : Moves locks i request .called (locks.setPhase i request (.returned .refused))
  | get : Moves locks i request .called
      ({ locks with gates := (locks.getGate request.access.inodeId).2 }.setPhase i request
        (.waiting (locks.getGate request.access.inodeId).1))
  | lock {gate : Nat} : (request.exclusive = true → locks.free gate = true) →
      (request.exclusive = false → locks.shareable gate = true) →
      Moves locks i request (.waiting gate) (locks.setPhase i request (.locked gate))
  | busy {gate : Nat} :
      Moves locks i request (.waiting gate) (locks.setPhase i request (.unlocked gate .refused))
  | deny {gate : Nat} :
      Moves locks i request (.locked gate) (locks.setPhase i request (.answered gate .refused))
  | issue {gate : Nat} {inodeId : UInt64} : request = .acquireFileWriteLock inodeId →
      inodeId ∉ locks.owners →
      Moves locks i request (.locked gate)
        ({ locks with
          sequence := locks.sequence + 1
          owners := locks.owners.insert inodeId
            (RealNode.lockToken locks.session (locks.sequence + 1))
        }.setPhase i request
          (.answered gate (.token (RealNode.lockToken locks.session (locks.sequence + 1)))))
  | erase {gate : Nat} {inodeId : UInt64} {token : Bytes} :
      request = .releaseFileWriteLock inodeId token → locks.owners.lookup inodeId = some token →
      Moves locks i request (.locked gate)
        ({ locks with owners := locks.owners.erase inodeId }.setPhase i request
          (.answered gate .done))
  | accept {gate : Nat} : request.exclusive = false → locks.allowed request.access = true →
      Moves locks i request (.locked gate) (locks.setPhase i request (.running gate))
  | finish {gate : Nat} :
      Moves locks i request (.running gate) (locks.setPhase i request (.answered gate .done))
  | unlock {gate : Nat} {answer : LockAnswer} :
      Moves locks i request (.answered gate answer)
        (locks.setPhase i request (.unlocked gate answer))
  | leave {gate : Nat} {answer : LockAnswer} :
      Moves locks i request (.unlocked gate answer) (locks.setPhase i request (.returned answer))

theorem moves_lock {tried : Bool} (h : locks.lock i request gate tried = some locks') :
    Moves locks i request (.waiting gate) locks' := by
  have hshare : request.exclusive = false →
      (if locks.shareable gate then some (locks.setPhase i request (.locked gate)) else none) =
        some locks' → Moves locks i request (.waiting gate) locks' := by
    intro hexclusive hlocked
    split at hlocked
    · rename_i hshareable
      cases hlocked
      exact .lock (fun htrue => absurd (hexclusive.symm.trans htrue) Bool.false_ne_true)
        (fun _ => hshareable)
    · cases hlocked
  cases request with
  | acquireFileWriteLock inodeId =>
      rw [lock] at h
      split at h
      · rename_i hfree
        cases h
        exact .lock (fun _ => hfree.2) (fun hfalse => by cases hfalse)
      · cases h
        exact .busy
  | releaseFileWriteLock inodeId token =>
      rw [lock] at h
      split at h
      · rename_i hfree
        cases h
        exact .lock (fun _ => hfree) (fun hfalse => by cases hfalse)
      · cases h
  | _ => exact hshare rfl h

theorem moves_consult (locks : FileWriteLocks) (i : Nat) (request : LockRequest) (gate : Nat) :
    Moves locks i request (.locked gate) (locks.consult i request gate) := by
  have hcheck : request.exclusive = false → Moves locks i request (.locked gate)
      (if locks.allowed request.access then locks.setPhase i request (.running gate)
        else locks.setPhase i request (.answered gate .refused)) := by
    intro hexclusive
    split
    · rename_i hallowed
      exact .accept hexclusive hallowed
    · exact .deny
  cases request with
  | acquireFileWriteLock inodeId =>
      rw [consult]
      split
      · exact .deny
      · rename_i hfree
        exact .issue rfl hfree
  | releaseFileWriteLock inodeId token =>
      rw [consult]
      split
      · exact .deny
      · rename_i howner
        exact .erase rfl (not_not.mp fun hne => howner (.inr hne))
  | _ => exact hcheck rfl

/-- An action is a new request or a step of one of the requests. -/
theorem act_cases {action : Action} (h : locks.act action = some locks') :
    (∃ request, locks' = { locks with calls := locks.calls ++ [⟨request, .called⟩] }) ∨
      ∃ i request phase, locks.calls[i]? = some ⟨request, phase⟩ ∧
        Moves locks i request phase locks' := by
  cases action with
  | call request =>
      cases h
      exact .inl ⟨request, rfl⟩
  | proceed i admitted =>
      right
      have hproceed : locks.proceed i admitted = some locks' := h
      unfold proceed at hproceed
      split at hproceed
      · cases hproceed
      rename_i request phase hcall
      refine ⟨i, request, phase, hcall, ?_⟩
      cases phase with
      | called =>
          dsimp only at hproceed
          split at hproceed
          · cases hproceed
            exact .refuse
          · cases hproceed
            exact .get
      | waiting gate => exact moves_lock hproceed
      | locked gate =>
          cases hproceed
          exact moves_consult locks i request gate
      | running gate =>
          cases hproceed
          exact .finish
      | answered gate answer =>
          cases hproceed
          exact .unlock
      | unlocked gate answer =>
          cases hproceed
          exact .leave
      | returned answer => cases hproceed

/-! ## Gates -/

/-- The gates in use stand in the table, and who locks one alone is alone. -/
structure Gated (locks : FileWriteLocks) : Prop where
  inTable : ∀ (i : Nat) (call : LockCall) (gate : Nat), locks.calls[i]? = some call → call.phase.gate? = some gate →
    locks.gates.entries.lookup (gateKey call.request.access.inodeId) = some gate
  alone : ∀ (i j : Nat) (call other : LockCall) (gate : Nat), i ≠ j → locks.calls[i]? = some call →
    locks.calls[j]? = some other → call.phase.lockedGate? = some gate →
      other.phase.lockedGate? = some gate → call.request.exclusive = false

theorem used_of_getElem? (h : locks.calls[i]? = some call) (hgate : call.phase.gate? = some gate) :
    locks.used gate = true :=
  List.any_eq_true.mpr ⟨call, List.mem_of_getElem? h, beq_iff_eq.mpr hgate⟩

theorem not_locked_of_free (hfree : locks.free gate = true) (h : locks.calls[i]? = some call) :
    call.phase.lockedGate? ≠ some gate := by
  have hall := List.all_eq_true.mp hfree call (List.mem_of_getElem? h)
  exact bne_iff_ne.mp hall

theorem shared_of_shareable (hshareable : locks.shareable gate = true)
    (h : locks.calls[i]? = some call) (hlocked : call.phase.lockedGate? = some gate) :
    call.request.exclusive = false := by
  have hall := List.all_eq_true.mp hshareable call (List.mem_of_getElem? h)
  rw [hlocked, bne_self_eq_false, Bool.false_or] at hall
  exact (Bool.not_eq_true' _).mp hall

namespace Gated

/-- A request that only gives up what it holds. -/
theorem shrink (h : locks.Gated) (hcall : locks.calls[i]? = some ⟨request, phase⟩)
    (hcalls : locks'.calls = locks.calls.set i ⟨request, phase'⟩)
    (hgates : locks'.gates = locks.gates)
    (hgate : ∀ gate, phase'.gate? = some gate → phase.gate? = some gate)
    (hlocked : ∀ gate, phase'.lockedGate? = some gate → phase.lockedGate? = some gate) :
    locks'.Gated := by
  -- every holder of the new state held the same before
  have hback : ∀ (j : Nat) (call : LockCall), locks'.calls[j]? = some call →
      ∃ old : LockCall, locks.calls[j]? = some old ∧
      old.request = call.request ∧
      (∀ gate, call.phase.gate? = some gate → old.phase.gate? = some gate) ∧
      ∀ gate, call.phase.lockedGate? = some gate → old.phase.lockedGate? = some gate := by
    intro j call hj
    rw [hcalls] at hj
    rcases getElem?_set_cases hj with ⟨rfl, rfl⟩ | ⟨_, hold⟩
    · exact ⟨_, hcall, rfl, hgate, hlocked⟩
    · exact ⟨call, hold, rfl, fun _ => id, fun _ => id⟩
  refine ⟨fun j call gate hj hg => ?_, fun j k call other gate hne hj hk hg hg' => ?_⟩
  · obtain ⟨old, hold, hrequest, hkeep, _⟩ := hback j call hj
    rw [hgates, ← hrequest]
    exact h.inTable j old gate hold (hkeep gate hg)
  · obtain ⟨old, hold, hrequest, _, hkeep⟩ := hback j call hj
    obtain ⟨old', hold', _, _, hkeep'⟩ := hback k other hk
    rw [← hrequest]
    exact h.alone j k old old' gate hne hold hold' (hkeep gate hg) (hkeep' gate hg')

theorem called (h : locks.Gated) (request : LockRequest) :
    Gated { locks with calls := locks.calls ++ [⟨request, .called⟩] } := by
  have hback : ∀ (j : Nat) (call : LockCall),
      (locks.calls ++ [⟨request, .called⟩])[j]? = some call →
        locks.calls[j]? = some call ∨ call = ⟨request, .called⟩ := fun _ _ => getElem?_snoc_cases
  refine ⟨fun j call gate hj hg => ?_, fun j k call other gate hne hj hk hg hg' => ?_⟩
  · rcases hback j call hj with hold | rfl
    · exact h.inTable j call gate hold hg
    · cases hg
  · rcases hback j call hj with hold | rfl
    · rcases hback k other hk with hold' | rfl
      · exact h.alone j k call other gate hne hold hold' hg hg'
      · cases hg'
    · cases hg

theorem get (h : locks.Gated) (hcall : locks.calls[i]? = some ⟨request, .called⟩) :
    Gated ({ locks with gates := (locks.getGate request.access.inodeId).2 }.setPhase i request
      (.waiting (locks.getGate request.access.inodeId).1)) := by
  refine ⟨fun j call gate hj hg => ?_, fun j k call other gate hne hj hk hg hg' => ?_⟩
  · rcases getElem?_set_cases hj with ⟨rfl, rfl⟩ | ⟨_, hold⟩
    · have hsame : (locks.getGate request.access.inodeId).1 = gate := Option.some.inj hg
      rw [← hsame]
      exact WeakTable.lookup_get _ _ _ _
    · exact WeakTable.lookup_get_of_used (h.inTable j call gate hold hg) (used_of_getElem? hold hg)
  · rcases getElem?_set_cases hj with ⟨rfl, rfl⟩ | ⟨_, hold⟩
    · cases hg
    rcases getElem?_set_cases hk with ⟨rfl, rfl⟩ | ⟨_, hold'⟩
    · cases hg'
    · exact h.alone j k call other gate hne hold hold' hg hg'

theorem lock (h : locks.Gated) (hcall : locks.calls[i]? = some ⟨request, .waiting gate⟩)
    (hfree : request.exclusive = true → locks.free gate = true)
    (hshareable : request.exclusive = false → locks.shareable gate = true) :
    (locks.setPhase i request (.locked gate)).Gated := by
  refine ⟨fun j call found hj hg => ?_, fun j k call other found hne hj hk hg hg' => ?_⟩
  · rcases getElem?_set_cases hj with ⟨rfl, rfl⟩ | ⟨_, hold⟩
    · exact h.inTable j ⟨request, .waiting gate⟩ found hcall hg
    · exact h.inTable j call found hold hg
  · rcases getElem?_set_cases hj with ⟨rfl, rfl⟩ | ⟨_, hold⟩
    · rcases getElem?_set_cases hk with ⟨rfl, _⟩ | ⟨_, hold'⟩
      · exact absurd rfl hne
      · have hsame : gate = found := Option.some.inj hg
        rw [← hsame] at hg'
        cases hexclusive : request.exclusive with
        | false => rfl
        | true => exact absurd hg' (not_locked_of_free (hfree hexclusive) hold')
    · rcases getElem?_set_cases hk with ⟨rfl, rfl⟩ | ⟨_, hold'⟩
      · have hsame : gate = found := Option.some.inj hg'
        rw [← hsame] at hg
        cases hexclusive : request.exclusive with
        | false => exact shared_of_shareable (hshareable hexclusive) hold hg
        | true => exact absurd hg (not_locked_of_free (hfree hexclusive) hold)
      · exact h.alone j k call other found hne hold hold' hg hg'

theorem moves (h : locks.Gated) (hcall : locks.calls[i]? = some ⟨request, phase⟩)
    (hmoves : Moves locks i request phase locks') : locks'.Gated := by
  cases hmoves with
  | get => exact h.get hcall
  | lock hfree hshareable => exact h.lock hcall hfree hshareable
  | refuse => exact h.shrink hcall rfl rfl (fun _ hg => by cases hg) (fun _ hg => by cases hg)
  | busy => exact h.shrink hcall rfl rfl (fun _ => id) (fun _ hg => by cases hg)
  | unlock => exact h.shrink hcall rfl rfl (fun _ => id) (fun _ hg => by cases hg)
  | leave => exact h.shrink hcall rfl rfl (fun _ hg => by cases hg) (fun _ hg => by cases hg)
  | _ => exact h.shrink hcall rfl rfl (fun _ => id) (fun _ => id)

end Gated

/-! ## Tokens -/

/-- The request with number `i` has been answered with a token for the file. -/
def Issued (locks : FileWriteLocks) (i : Nat) (inodeId : UInt64) (token : Bytes) : Prop :=
  ∃ phase, locks.calls[i]? = some ⟨.acquireFileWriteLock inodeId, phase⟩ ∧
    phase.answer? = some (.token token)

/-- A release of the file with the token has been answered. -/
def Released (locks : FileWriteLocks) (inodeId : UInt64) (token : Bytes) : Prop :=
  ∃ (i : Nat) (phase : Phase), locks.calls[i]? = some ⟨.releaseFileWriteLock inodeId token, phase⟩ ∧
    phase.answer? = some .done

/-- Every token has a number of its own and belongs to the owner of its file until it is
    released. -/
structure Tokens (locks : FileWriteLocks) : Prop where
  numbered : ∀ i inodeId token, locks.Issued i inodeId token →
    ∃ number : UInt64, number ≤ locks.sequence ∧
      token = RealNode.lockToken locks.session number
  held : ∀ i inodeId token, locks.Issued i inodeId token →
    locks.owners.lookup inodeId = some token ∨ locks.Released inodeId token
  owned : ∀ inodeId token, locks.owners.lookup inodeId = some token →
    ∃ i, locks.Issued i inodeId token
  released : ∀ inodeId token, locks.Released inodeId token →
    locks.owners.lookup inodeId ≠ some token ∧ ∃ i, locks.Issued i inodeId token
  distinct : ∀ i j inodeId inodeId' token, locks.Issued i inodeId token →
    locks.Issued j inodeId' token → i = j

theorem toNat_add_one {n : UInt64} (h : n.toNat + 1 < 2 ^ 64) : (n + 1).toNat = n.toNat + 1 := by
  rw [UInt64.toNat_add]
  exact Nat.mod_eq_of_lt h

theorem lockToken_injective {session : Bytes} {number number' : UInt64}
    (h : RealNode.lockToken session number = RealNode.lockToken session number') :
    number = number' :=
  UInt64.toNat_inj.mp (decimal_injective (List.append_cancel_left h))

theorem lockToken_ne_nil (session : Bytes) (number : UInt64) :
    RealNode.lockToken session number ≠ [] := by
  intro h
  have hsign := (List.append_eq_nil_iff.mp (List.append_eq_nil_iff.mp h).1).2
  cases hsign

/-- A step that changes no answer about tokens. -/
theorem issued_set_iff (hcall : locks.calls[i]? = some ⟨request, phase⟩)
    (hcalls : locks'.calls = locks.calls.set i ⟨request, phase'⟩)
    (htoken : ∀ token, phase'.answer? = some (.token token) ↔
      phase.answer? = some (.token token)) :
    locks'.Issued j inodeId token ↔ locks.Issued j inodeId token := by
  constructor
  · rintro ⟨now, hnow, hanswer⟩
    rw [hcalls] at hnow
    rcases getElem?_set_cases hnow with ⟨rfl, hsame⟩ | ⟨_, hold⟩
    · cases hsame
      exact ⟨phase, hcall, (htoken token).mp hanswer⟩
    · exact ⟨now, hold, hanswer⟩
  · rintro ⟨before, hbefore, hanswer⟩
    rcases eq_or_ne j i with rfl | hne
    · rw [hcall] at hbefore
      cases hbefore
      exact ⟨phase', by rw [hcalls, getElem?_set_self_of_some hcall], (htoken token).mpr hanswer⟩
    · exact ⟨before, by rw [hcalls, List.getElem?_set_ne hne.symm, hbefore], hanswer⟩

theorem released_set_iff (hcall : locks.calls[i]? = some ⟨request, phase⟩)
    (hcalls : locks'.calls = locks.calls.set i ⟨request, phase'⟩)
    (hdone : request.exclusive = true →
      (phase'.answer? = some .done ↔ phase.answer? = some .done)) :
    locks'.Released inodeId token ↔ locks.Released inodeId token := by
  constructor
  · rintro ⟨j, now, hnow, hanswer⟩
    rw [hcalls] at hnow
    rcases getElem?_set_cases hnow with ⟨rfl, hsame⟩ | ⟨_, hold⟩
    · cases hsame
      exact ⟨j, phase, hcall, (hdone rfl).mp hanswer⟩
    · exact ⟨j, now, hold, hanswer⟩
  · rintro ⟨j, before, hbefore, hanswer⟩
    rcases eq_or_ne j i with rfl | hne
    · rw [hcall] at hbefore
      cases hbefore
      exact ⟨j, phase', by rw [hcalls, getElem?_set_self_of_some hcall], (hdone rfl).mpr hanswer⟩
    · exact ⟨j, before, by rw [hcalls, List.getElem?_set_ne hne.symm, hbefore], hanswer⟩

namespace Tokens

theorem congr (h : locks.Tokens) (hsession : locks'.session = locks.session)
    (hsequence : locks'.sequence = locks.sequence) (howners : locks'.owners = locks.owners)
    (hissued : ∀ j inodeId token, locks'.Issued j inodeId token ↔ locks.Issued j inodeId token)
    (hreleased : ∀ inodeId token, locks'.Released inodeId token ↔ locks.Released inodeId token) :
    locks'.Tokens := by
  constructor
  · simpa only [hissued, hsequence, hsession] using h.numbered
  · simpa only [hissued, hreleased, howners] using h.held
  · simpa only [hissued, howners] using h.owned
  · simpa only [hissued, hreleased, howners] using h.released
  · simpa only [hissued] using h.distinct

theorem keep (h : locks.Tokens) (hcall : locks.calls[i]? = some ⟨request, phase⟩) (phase' : Phase)
    (htoken : ∀ token, phase'.answer? = some (.token token) ↔
      phase.answer? = some (.token token))
    (hdone : request.exclusive = true →
      (phase'.answer? = some .done ↔ phase.answer? = some .done)) (gates : WeakTable Bytes) :
    Tokens ({ locks with gates := gates }.setPhase i request phase') :=
  h.congr rfl rfl rfl (fun _ _ _ => issued_set_iff hcall rfl htoken)
    (fun _ _ => released_set_iff hcall rfl hdone)

theorem called (h : locks.Tokens) (request : LockRequest) :
    Tokens { locks with calls := locks.calls ++ [⟨request, .called⟩] } := by
  refine h.congr rfl rfl rfl (fun j inodeId token => ⟨?_, ?_⟩) (fun inodeId token => ⟨?_, ?_⟩)
  · rintro ⟨phase, hphase, hanswer⟩
    rcases getElem?_snoc_cases hphase with hold | hnew
    · exact ⟨phase, hold, hanswer⟩
    · cases hnew
      cases hanswer
  · rintro ⟨phase, hphase, hanswer⟩
    exact ⟨phase, getElem?_append_of_some hphase, hanswer⟩
  · rintro ⟨j, phase, hphase, hanswer⟩
    rcases getElem?_snoc_cases hphase with hold | hnew
    · exact ⟨j, phase, hold, hanswer⟩
    · cases hnew
      cases hanswer
  · rintro ⟨j, phase, hphase, hanswer⟩
    exact ⟨j, phase, getElem?_append_of_some hphase, hanswer⟩

/-- The next token is no token that has been issued. -/
theorem fresh (h : locks.Tokens) (hleft : locks.sequence.toNat + 1 < 2 ^ 64)
    (hissued : locks.Issued j inodeId token) :
    token ≠ RealNode.lockToken locks.session (locks.sequence + 1) := by
  obtain ⟨number, hle, rfl⟩ := h.numbered j inodeId token hissued
  intro hsame
  have hnumber := congrArg UInt64.toNat (lockToken_injective hsame)
  rw [toNat_add_one hleft] at hnumber
  have hbound := UInt64.le_iff_toNat_le.mp hle
  omega

theorem issue (h : locks.Tokens) (hleft : locks.sequence.toNat + 1 < 2 ^ 64)
    (hcall : locks.calls[i]? = some ⟨.acquireFileWriteLock inodeId, .locked gate⟩)
    (hfree : inodeId ∉ locks.owners) :
    Tokens ({ locks with
        sequence := locks.sequence + 1
        owners := locks.owners.insert inodeId
          (RealNode.lockToken locks.session (locks.sequence + 1))
      }.setPhase i (.acquireFileWriteLock inodeId)
        (.answered gate (.token (RealNode.lockToken locks.session (locks.sequence + 1))))) := by
  generalize htoken : RealNode.lockToken locks.session (locks.sequence + 1) = next
  generalize hafter : FileWriteLocks.setPhase _ i _ _ = after
  have hcalls : after.calls =
      locks.calls.set i ⟨.acquireFileWriteLock inodeId, .answered gate (.token next)⟩ := by
    rw [← hafter]
    rfl
  have howners : after.owners = locks.owners.insert inodeId next := by
    rw [← hafter]
    rfl
  have hsequence : after.sequence = locks.sequence + 1 := by
    rw [← hafter]
    rfl
  have hsession : after.session = locks.session := by
    rw [← hafter]
    rfl
  have hnone : locks.owners.lookup inodeId = none := AList.lookup_eq_none.mpr hfree
  have hfresh : ∀ j inode token, locks.Issued j inode token → token ≠ next := by
    intro j inode token hissued
    rw [← htoken]
    exact h.fresh hleft hissued
  have hreleased : ∀ inode token, after.Released inode token ↔ locks.Released inode token := by
    intro inode token
    exact released_set_iff hcall hcalls fun _ => iff_of_false nofun nofun
  have hissued : ∀ j inode token, after.Issued j inode token ↔
      locks.Issued j inode token ∨ j = i ∧ inode = inodeId ∧ token = next := by
    intro j inode token
    constructor
    · rintro ⟨phase, hphase, hanswer⟩
      rw [hcalls] at hphase
      rcases getElem?_set_cases hphase with ⟨rfl, hsame⟩ | ⟨_, hold⟩
      · cases hsame
        cases hanswer
        exact .inr ⟨rfl, rfl, rfl⟩
      · exact .inl ⟨phase, hold, hanswer⟩
    · rintro (⟨phase, hphase, hanswer⟩ | ⟨rfl, rfl, rfl⟩)
      · have hne : j ≠ i := by
          rintro rfl
          rw [hcall] at hphase
          cases hphase
          cases hanswer
        exact ⟨phase, by rw [hcalls, List.getElem?_set_ne hne.symm, hphase], hanswer⟩
      · exact ⟨_, by rw [hcalls, getElem?_set_self_of_some hcall], rfl⟩
  constructor
  · intro j inode token hafter
    rw [hsequence, hsession]
    rcases (hissued j inode token).mp hafter with hold | ⟨_, _, rfl⟩
    · obtain ⟨number, hle, hnumber⟩ := h.numbered j inode token hold
      refine ⟨number, ?_, hnumber⟩
      rw [UInt64.le_iff_toNat_le, toNat_add_one hleft]
      exact Nat.le_succ_of_le (UInt64.le_iff_toNat_le.mp hle)
    · exact ⟨_, UInt64.le_refl _, htoken.symm⟩
  · intro j inode token hafter
    rw [howners, hreleased]
    rcases (hissued j inode token).mp hafter with hold | ⟨_, rfl, rfl⟩
    · rcases h.held j inode token hold with howner | hgone
      · have hne : inode ≠ inodeId := by
          rintro rfl
          rw [hnone] at howner
          cases howner
        rw [AList.lookup_insert_ne hne]
        exact .inl howner
      · exact .inr hgone
    · exact .inl (AList.lookup_insert _)
  · intro inode token howner
    rw [howners] at howner
    rcases eq_or_ne inode inodeId with rfl | hne
    · rw [AList.lookup_insert] at howner
      cases howner
      exact ⟨i, (hissued _ _ _).mpr (.inr ⟨rfl, rfl, rfl⟩)⟩
    · rw [AList.lookup_insert_ne hne] at howner
      obtain ⟨j, hold⟩ := h.owned inode token howner
      exact ⟨j, (hissued _ _ _).mpr (.inl hold)⟩
  · intro inode token hgone
    obtain ⟨howner, j, hold⟩ := h.released inode token ((hreleased _ _).mp hgone)
    refine ⟨?_, j, (hissued _ _ _).mpr (.inl hold)⟩
    rw [howners]
    rcases eq_or_ne inode inodeId with rfl | hne
    · rw [AList.lookup_insert]
      intro hsame
      exact hfresh j _ token hold (Option.some.inj hsame).symm
    · rwa [AList.lookup_insert_ne hne]
  · intro j k inode inode' token hj hk
    rcases (hissued _ _ _).mp hj with hold | ⟨rfl, rfl, rfl⟩
    · rcases (hissued _ _ _).mp hk with hold' | ⟨rfl, rfl, rfl⟩
      · exact h.distinct j k inode inode' token hold hold'
      · exact absurd rfl (hfresh j inode _ hold)
    · rcases (hissued _ _ _).mp hk with hold' | ⟨rfl, _, _⟩
      · exact absurd rfl (hfresh k inode' _ hold')
      · rfl

theorem erase (h : locks.Tokens)
    (hcall : locks.calls[i]? = some ⟨.releaseFileWriteLock inodeId token, .locked gate⟩)
    (howner : locks.owners.lookup inodeId = some token) :
    Tokens ({ locks with owners := locks.owners.erase inodeId }.setPhase i
      (.releaseFileWriteLock inodeId token) (.answered gate .done)) := by
  generalize hafter : FileWriteLocks.setPhase _ i _ _ = after
  have hcalls : after.calls =
      locks.calls.set i ⟨.releaseFileWriteLock inodeId token, .answered gate .done⟩ := by
    rw [← hafter]
    rfl
  have howners : after.owners = locks.owners.erase inodeId := by
    rw [← hafter]
    rfl
  have hissued : ∀ j inode token', after.Issued j inode token' ↔ locks.Issued j inode token' := by
    intro j inode token'
    exact issued_set_iff hcall hcalls fun _ => iff_of_false nofun nofun
  have hnow : after.Released inodeId token :=
    ⟨i, _, by rw [hcalls, getElem?_set_self_of_some hcall], rfl⟩
  have hbefore : ∀ inode token', locks.Released inode token' → after.Released inode token' := by
    rintro inode token' ⟨j, phase, hphase, hanswer⟩
    have hne : j ≠ i := by
      rintro rfl
      rw [hcall] at hphase
      cases hphase
      cases hanswer
    exact ⟨j, phase, by rw [hcalls, List.getElem?_set_ne hne.symm, hphase], hanswer⟩
  have hcases : ∀ inode token', after.Released inode token' →
      locks.Released inode token' ∨ inode = inodeId ∧ token' = token := by
    rintro inode token' ⟨j, phase, hphase, hanswer⟩
    rw [hcalls] at hphase
    rcases getElem?_set_cases hphase with ⟨rfl, hsame⟩ | ⟨_, hold⟩
    · cases hsame
      exact .inr ⟨rfl, rfl⟩
    · exact .inl ⟨j, phase, hold, hanswer⟩
  have hless : ∀ inode token', after.owners.lookup inode = some token' →
      locks.owners.lookup inode = some token' := by
    intro inode token' hlookup
    rw [howners] at hlookup
    rcases eq_or_ne inode inodeId with rfl | hne
    · rw [AList.lookup_erase] at hlookup
      cases hlookup
    · rwa [AList.lookup_erase_ne hne] at hlookup
  constructor
  · intro j inode token' hj
    rw [← hafter]
    exact h.numbered j inode token' ((hissued _ _ _).mp hj)
  · intro j inode token' hj
    rcases h.held j inode token' ((hissued _ _ _).mp hj) with hheld | hgone
    · rcases eq_or_ne inode inodeId with rfl | hne
      · rw [howner] at hheld
        cases hheld
        exact .inr hnow
      · rw [howners, AList.lookup_erase_ne hne]
        exact .inl hheld
    · exact .inr (hbefore inode token' hgone)
  · intro inode token' hlookup
    obtain ⟨j, hold⟩ := h.owned inode token' (hless inode token' hlookup)
    exact ⟨j, (hissued _ _ _).mpr hold⟩
  · intro inode token' hgone
    rcases hcases inode token' hgone with hold | ⟨rfl, rfl⟩
    · obtain ⟨hnot, j, hj⟩ := h.released inode token' hold
      exact ⟨fun hlookup => hnot (hless inode token' hlookup), j, (hissued _ _ _).mpr hj⟩
    · obtain ⟨j, hj⟩ := h.owned inode token' howner
      refine ⟨?_, j, (hissued _ _ _).mpr hj⟩
      rw [howners, AList.lookup_erase]
      exact nofun
  · intro j k inode inode' token' hj hk
    exact h.distinct j k inode inode' token' ((hissued _ _ _).mp hj) ((hissued _ _ _).mp hk)

/-- A step from no answer to no answer or a refusal. -/
theorem silent (h : locks.Tokens) (hcall : locks.calls[i]? = some ⟨request, phase⟩)
    (hbefore : phase.answer? = none) (phase' : Phase)
    (hafter : phase'.answer? = none ∨ phase'.answer? = some .refused) (gates : WeakTable Bytes) :
    Tokens ({ locks with gates := gates }.setPhase i request phase') := by
  have hno : ∀ answer, answer ≠ .refused →
      (phase'.answer? = some answer ↔ phase.answer? = some answer) := by
    intro answer hanswer
    rw [hbefore]
    apply iff_of_false _ nofun
    rcases hafter with hnone | hrefused
    · rw [hnone]
      exact nofun
    · rw [hrefused]
      exact fun hsame => hanswer (Option.some.inj hsame).symm
  exact h.keep hcall phase' (fun _ => hno _ nofun) (fun _ => hno _ nofun) gates

theorem moves (h : locks.Tokens) (hleft : locks.sequence.toNat + 1 < 2 ^ 64)
    (hcheck : ∀ gate, phase = .running gate → request.exclusive = false)
    (hcall : locks.calls[i]? = some ⟨request, phase⟩)
    (hmoves : Moves locks i request phase locks') : locks'.Tokens := by
  cases hmoves with
  | refuse => exact h.silent hcall rfl _ (.inr rfl) locks.gates
  | get => exact h.silent hcall rfl _ (.inl rfl) _
  | lock => exact h.silent hcall rfl _ (.inl rfl) locks.gates
  | busy => exact h.silent hcall rfl _ (.inr rfl) locks.gates
  | deny => exact h.silent hcall rfl _ (.inr rfl) locks.gates
  | accept => exact h.silent hcall rfl _ (.inl rfl) locks.gates
  | issue hrequest hfree =>
      subst hrequest
      exact h.issue hleft hcall hfree
  | erase hrequest howner =>
      subst hrequest
      exact h.erase hcall howner
  | @finish gate =>
      have hexclusive := hcheck gate rfl
      exact h.keep hcall (.answered gate .done) (fun _ => iff_of_false nofun nofun)
        (fun htrue => absurd (hexclusive.symm.trans htrue) Bool.false_ne_true) locks.gates
  | @unlock gate answer =>
      exact h.keep hcall (.unlocked gate answer) (fun _ => Iff.rfl) (fun _ => Iff.rfl)
        locks.gates
  | @leave gate answer =>
      exact h.keep hcall (.returned answer) (fun _ => Iff.rfl) (fun _ => Iff.rfl)
        locks.gates

end Tokens

/-! ## What runs -/

/-- What runs is admitted by the owners of the files as they are now. -/
def Admitted (locks : FileWriteLocks) : Prop :=
  ∀ (i : Nat) (request : LockRequest) (gate : Nat),
    locks.calls[i]? = some ⟨request, .running gate⟩ →
      request.exclusive = false ∧ locks.allowed request.access = true

theorem allowed_congr {access : Access}
    (h : locks'.owners.lookup access.inodeId = locks.owners.lookup access.inodeId) :
    locks'.allowed access = locks.allowed access := by
  rw [allowed, allowed, h]

namespace Admitted

theorem keep (h : locks.Admitted) (hcalls : locks'.calls = locks.calls.set i ⟨request, phase'⟩)
    (howners : locks'.owners = locks.owners) (hstill : ∀ gate, phase' ≠ .running gate) :
    locks'.Admitted := by
  intro j other gate hrunning
  rw [hcalls] at hrunning
  rcases getElem?_set_cases hrunning with ⟨_, hsame⟩ | ⟨_, hold⟩
  · have hphase := congrArg LockCall.phase hsame
    exact absurd hphase.symm (hstill gate)
  · have hsame : locks'.allowed other.access = locks.allowed other.access :=
      allowed_congr (by rw [howners])
    rw [hsame]
    exact h j other gate hold

theorem accept (h : locks.Admitted) (hexclusive : request.exclusive = false)
    (hallowed : locks.allowed request.access = true) :
    (locks.setPhase i request (.running gate)).Admitted := by
  intro j other found hrunning
  rcases getElem?_set_cases hrunning with ⟨_, hsame⟩ | ⟨_, hold⟩
  · cases hsame
    exact ⟨hexclusive, hallowed⟩
  · exact h j other found hold

/-- The owner of a file changes while its gate is locked by one request alone. -/
theorem change (h : locks.Admitted) (hgated : locks.Gated)
    (hcall : locks.calls[i]? = some ⟨request, .locked gate⟩) (hexclusive : request.exclusive = true)
    {answer : LockAnswer} (hcalls : locks'.calls = locks.calls.set i ⟨request, .answered gate answer⟩)
    (howners : ∀ inodeId, inodeId ≠ request.access.inodeId →
      locks'.owners.lookup inodeId = locks.owners.lookup inodeId) : locks'.Admitted := by
  intro j other found hrunning
  rw [hcalls] at hrunning
  rcases getElem?_set_cases hrunning with ⟨_, hsame⟩ | ⟨hne, hold⟩
  · cases hsame
  obtain ⟨hshared, hallowed⟩ := h j other found hold
  refine ⟨hshared, ?_⟩
  rcases eq_or_ne other.access.inodeId request.access.inodeId with hinode | hinode
  · -- both have locked the gate of this file, one of them alone
    have hmine := hgated.inTable i _ gate hcall rfl
    have hother := hgated.inTable j _ found hold rfl
    dsimp only at hmine hother
    rw [hinode, hmine] at hother
    have hgate : gate = found := Option.some.inj hother
    subst hgate
    have hfalse := hgated.alone i j _ _ gate hne.symm hcall hold rfl rfl
    exact absurd (hfalse.symm.trans hexclusive) Bool.false_ne_true
  · rw [allowed_congr (howners _ hinode)]
    exact hallowed

theorem called (h : locks.Admitted) (request : LockRequest) :
    Admitted { locks with calls := locks.calls ++ [⟨request, .called⟩] } := by
  intro j other gate hrunning
  rcases getElem?_snoc_cases hrunning with hold | hnew
  · exact h j other gate hold
  · cases hnew

theorem moves (h : locks.Admitted) (hgated : locks.Gated)
    (hcall : locks.calls[i]? = some ⟨request, phase⟩)
    (hmoves : Moves locks i request phase locks') : locks'.Admitted := by
  cases hmoves with
  | issue hrequest hfree =>
      subst hrequest
      exact h.change hgated hcall rfl rfl fun inode hne => AList.lookup_insert_ne hne
  | erase hrequest howner =>
      subst hrequest
      exact h.change hgated hcall rfl rfl fun inode hne => AList.lookup_erase_ne hne
  | accept hexclusive hallowed => exact h.accept hexclusive hallowed
  | _ => exact h.keep rfl rfl nofun

end Admitted

/-! ## Runs -/

structure Sound (locks : FileWriteLocks) : Prop where
  gated : locks.Gated
  tokens : locks.Tokens
  admitted : locks.Admitted

/-- The sequence of tokens has a number left. -/
def TokensLeft (locks : FileWriteLocks) (_ : Action) : Prop :=
  locks.sequence.toNat + 1 < 2 ^ 64

theorem Sound.start (session : Bytes) : Sound { session := session } := by
  have hnone : ∀ (i : Nat) (call : LockCall),
      ({ session := session } : FileWriteLocks).calls[i]? ≠ some call := by
    intro i call hcall
    cases hcall
  have hissued : ∀ i inodeId token, ¬Issued { session := session } i inodeId token :=
    fun i _ _ ⟨_, hcall, _⟩ => hnone i _ hcall
  have hreleased : ∀ inodeId token, ¬Released { session := session } inodeId token :=
    fun _ _ ⟨i, _, hcall, _⟩ => hnone i _ hcall
  have howners : ∀ inodeId,
      ({ session := session } : FileWriteLocks).owners.lookup inodeId = none :=
    fun inodeId => AList.lookup_empty inodeId
  refine ⟨⟨?_, ?_⟩, ⟨?_, ?_, ?_, ?_, ?_⟩, ?_⟩
  · exact fun i call _ hcall => absurd hcall (hnone i call)
  · exact fun i _ call _ _ _ hcall => absurd hcall (hnone i call)
  · exact fun i inodeId token hi => absurd hi (hissued i inodeId token)
  · exact fun i inodeId token hi => absurd hi (hissued i inodeId token)
  · intro inodeId token howner
    rw [howners] at howner
    cases howner
  · exact fun inodeId token hgone => absurd hgone (hreleased inodeId token)
  · exact fun i _ inodeId _ token hi => absurd hi (hissued i inodeId token)
  · exact fun i _ _ hcall => absurd hcall (hnone i _)

theorem Sound.act {action : Action} (h : locks.Sound) (hleft : locks.TokensLeft action)
    (hact : locks.act action = some locks') : locks'.Sound := by
  rcases act_cases hact with ⟨request, rfl⟩ | ⟨i, request, phase, hcall, hmoves⟩
  · exact ⟨h.gated.called request, h.tokens.called request, h.admitted.called request⟩
  · have hcheck : ∀ gate, phase = .running gate → request.exclusive = false := by
      rintro gate rfl
      exact (h.admitted i request gate hcall).1
    exact ⟨h.gated.moves hcall hmoves, h.tokens.moves hleft hcheck hcall hmoves,
      h.admitted.moves h.gated hcall hmoves⟩

/-- What the locks promise: a token excludes every mutation of its file that does not carry
    it, from the answer of its `Acquire` to that of its `Release`, which leaves none
    running; a file has one live token, a token is issued once, and requests for one key
    share a gate. Writes of the primary at its peer are not asked for a token. -/
structure Exclusive (locks : FileWriteLocks) : Prop where
  excludes : ∀ i inodeId token, locks.Issued i inodeId token → ¬locks.Released inodeId token →
    ∀ (j : Nat) (request : LockRequest) (gate : Nat),
      locks.calls[j]? = some ⟨request, .running gate⟩ → request.isReplication = false →
        request.target = inodeId → request.carried = token
  drained : ∀ inodeId token, locks.Released inodeId token →
    ∀ (j : Nat) (request : LockRequest) (gate : Nat),
      locks.calls[j]? = some ⟨request, .running gate⟩ → request.isReplication = false →
        request.target = inodeId → request.carried ≠ token
  single : ∀ i j inodeId token token', locks.Issued i inodeId token →
    locks.Issued j inodeId token' → ¬locks.Released inodeId token →
      ¬locks.Released inodeId token' → i = j
  distinct : ∀ i j inodeId inodeId' token, locks.Issued i inodeId token →
    locks.Issued j inodeId' token → i = j
  shared : ∀ (i j : Nat) (call other : LockCall) (gate gate' : Nat),
    locks.calls[i]? = some call → locks.calls[j]? = some other →
      gateKey call.request.access.inodeId = gateKey other.request.access.inodeId →
        call.phase.gate? = some gate → other.phase.gate? = some gate' → gate = gate'

theorem target_eq (h : request.isReplication = false) :
    request.target = request.access.inodeId ∧ request.carried = request.access.token := by
  cases request with
  | writeObject objectId isReplication writeLockToken =>
      have hfalse : isReplication = false := h
      subst hfalse
      exact ⟨rfl, rfl⟩
  | _ => exact ⟨rfl, rfl⟩

theorem Sound.exclusive (h : locks.Sound) : locks.Exclusive where
  excludes := by
    intro i inodeId token hissued hlive j request gate hrunning hreplication htarget
    obtain ⟨hinode, hcarried⟩ := target_eq hreplication
    have howner := (h.tokens.held i inodeId token hissued).resolve_right hlive
    have hallowed := (h.admitted j request gate hrunning).2
    rw [allowed, ← hinode, htarget, howner] at hallowed
    rw [hcarried]
    exact (beq_iff_eq.mp (Bool.and_eq_true_iff.mp hallowed).2).symm
  drained := by
    rintro inodeId token hreleased j request gate hrunning hreplication htarget hsame
    obtain ⟨hinode, hcarried⟩ := target_eq hreplication
    obtain ⟨hgone, i, hissued⟩ := h.tokens.released inodeId token hreleased
    have hallowed := (h.admitted j request gate hrunning).2
    rw [allowed, ← hinode, htarget, ← hcarried, hsame] at hallowed
    cases howner : locks.owners.lookup inodeId with
    | none =>
        rw [howner] at hallowed
        obtain ⟨number, _, hnumber⟩ := h.tokens.numbered i inodeId token hissued
        have hempty := List.isEmpty_iff.mp (Bool.and_eq_true_iff.mp hallowed).2
        exact lockToken_ne_nil _ _ (hnumber.symm.trans hempty)
    | some owner =>
        rw [howner] at hallowed
        have howned := beq_iff_eq.mp (Bool.and_eq_true_iff.mp hallowed).2
        rw [howned] at howner
        exact hgone howner
  single := by
    intro i j inodeId token token' hi hj hlive hlive'
    have howner := (h.tokens.held i inodeId token hi).resolve_right hlive
    have howner' := (h.tokens.held j inodeId token' hj).resolve_right hlive'
    rw [howner] at howner'
    have hsame : token = token' := Option.some.inj howner'
    rw [← hsame] at hj
    exact h.tokens.distinct i j inodeId inodeId token hi hj
  distinct := h.tokens.distinct
  shared := by
    intro i j call other gate gate' hi hj hkey hgate hgate'
    have hmine := h.gated.inTable i call gate hi hgate
    rw [hkey, h.gated.inTable j other gate' hj hgate'] at hmine
    exact (Option.some.inj hmine).symm

/-- In every run that issues fewer than `2 ^ 64` tokens the locks exclude. -/
theorem runs_exclusive (session : Bytes) {hist : List (Served FileWriteLocks Action)}
    (hrun : Serves Acting TokensLeft { session := session } hist locks) : locks.Exclusive := by
  apply Sound.exclusive
  apply hrun.invariant _ (Sound.start session)
  exact fun _ _ _ h hleft hact => h.act hleft hact

instance (locks : FileWriteLocks) (action : Action) : Decidable (locks.TokensLeft action) :=
  inferInstanceAs (Decidable (_ < _))

/-- A file is locked, and an object of it is written as `write` says. -/
def exampleActions (write : LockRequest) : List Action :=
  .call (.acquireFileWriteLock 7) :: List.replicate 5 (.proceed 0 true) ++
    .call write :: List.replicate 3 (.proceed 1 true)

def exampleLocks (write : LockRequest) : List (Served FileWriteLocks Action) × FileWriteLocks :=
  runWhile act { session := ofAscii "3" } (exampleActions write)

theorem runs_exclusive_of_owner :
    (exampleLocks (.writeObject (ofAscii "obj-7-0") false (ofAscii "3-1"))).2.calls.map
        LockCall.phase = [.returned (.token (ofAscii "3-1")), .running 1] ∧
      (exampleLocks (.writeObject (ofAscii "obj-7-0") false (ofAscii "3-1"))).2.Exclusive := by
  refine ⟨by decide, runs_exclusive (ofAscii "3") (serves_runWhile (fun _ _ _ => id) _ _ ?_)⟩
  decide

/-! ## Many tokens -/

/-- Some actions lead from one state to another. -/
def Reaches (locks locks' : FileWriteLocks) : Prop :=
  ∃ hist, Serves Acting Any locks hist locks'

theorem Reaches.act {start : FileWriteLocks} (h : Reaches start locks) (action : Action)
    (hact : locks.act action = some locks') : Reaches start locks' := by
  obtain ⟨hist, hrun⟩ := h
  exact ⟨_, hrun.snoc trivial hact⟩

/-- Every request has come to its end. -/
def Quiet (locks : FileWriteLocks) : Prop :=
  ∀ call ∈ locks.calls, ∃ answer, call.phase = .returned answer

/-- The locks with one more request. -/
def alone (locks : FileWriteLocks) (request : LockRequest) (phase : Phase) : FileWriteLocks :=
  { locks with calls := locks.calls ++ [⟨request, phase⟩] }

theorem proceed_alone (locks : FileWriteLocks) (request : LockRequest) (phase : Phase) :
    (locks.alone request phase).calls[locks.calls.length]? = some ⟨request, phase⟩ :=
  List.getElem?_concat_length

theorem setPhase_alone (locks : FileWriteLocks) (request : LockRequest) (phase phase' : Phase) :
    (locks.alone request phase).setPhase locks.calls.length request phase' =
      locks.alone request phase' := by
  rw [setPhase, alone, alone, List.set_append_right _ _ (Nat.le_refl _), Nat.sub_self]
  rfl

theorem free_alone (h : locks.Quiet) (request : LockRequest) (gate : Nat) :
    (locks.alone request (.waiting gate)).free gate = true := by
  refine List.all_eq_true.mpr fun call hmem => ?_
  rcases List.mem_append.mp hmem with hold | hnew
  · obtain ⟨answer, hphase⟩ := h call hold
    rw [hphase]
    rfl
  · rw [List.mem_singleton.mp hnew]
    rfl

theorem Quiet.alone (h : locks.Quiet) (request : LockRequest) (answer : LockAnswer) :
    (locks.alone request (.returned answer)).Quiet := by
  intro call hmem
  rcases List.mem_append.mp hmem with hold | hnew
  · exact h call hold
  · rw [List.mem_singleton.mp hnew]
    exact ⟨answer, rfl⟩

/-- A request on its own comes to lock its gate. -/
theorem reaches_locked (h : locks.Quiet) (hexclusive : request.exclusive = true)
    (hpositive : request ≠ .acquireFileWriteLock 0) :
    ∃ gates gate, Reaches locks ({ locks with gates := gates }.alone request (.locked gate)) := by
  have hcalled : Reaches locks (locks.alone request .called) :=
    Reaches.act ⟨_, .nil⟩ (.call request) rfl
  obtain ⟨gates, gate, hgot⟩ : ∃ gates gate, (locks.alone request .called).act
      (.proceed locks.calls.length true) =
        some ({ locks with gates := gates }.alone request (.waiting gate)) := by
    refine ⟨((locks.alone request .called).getGate request.access.inodeId).2,
      ((locks.alone request .called).getGate request.access.inodeId).1, ?_⟩
    rw [FileWriteLocks.act, proceed, proceed_alone]
    dsimp only
    rw [if_neg (by simpa using hpositive)]
    exact congrArg some (setPhase_alone { locks with gates := _ } request .called _)
  have hwaiting := hcalled.act _ hgot
  refine ⟨gates, gate, hwaiting.act (.proceed locks.calls.length true) ?_⟩
  have hfree := @free_alone { locks with gates := gates } h request gate
  have hset := setPhase_alone { locks with gates := gates } request (.waiting gate) (.locked gate)
  rw [FileWriteLocks.act, proceed, proceed_alone]
  dsimp only
  cases request with
  | acquireFileWriteLock inodeId => rw [lock, if_pos ⟨rfl, hfree⟩, hset]
  | releaseFileWriteLock inodeId token => rw [lock, if_pos hfree, hset]
  | _ => cases hexclusive

/-- A request that has been answered gives its gate back. -/
theorem reaches_returned {start : FileWriteLocks} {answer : LockAnswer}
    (h : Reaches start (locks.alone request (.answered gate answer))) :
    Reaches start (locks.alone request (.returned answer)) := by
  have hunlocked : Reaches start (locks.alone request (.unlocked gate answer)) := by
    refine h.act (.proceed locks.calls.length true) ?_
    rw [FileWriteLocks.act, proceed, proceed_alone]
    exact congrArg some (setPhase_alone _ _ _ _)
  refine hunlocked.act (.proceed locks.calls.length true) ?_
  rw [FileWriteLocks.act, proceed, proceed_alone]
  exact congrArg some (setPhase_alone _ _ _ _)

theorem consult_acquire (h : inodeId ∉ locks.owners) :
    locks.consult i (.acquireFileWriteLock inodeId) gate =
      { locks with
        sequence := locks.sequence + 1
        owners := locks.owners.insert inodeId
          (RealNode.lockToken locks.session (locks.sequence + 1))
      }.setPhase i (.acquireFileWriteLock inodeId)
        (.answered gate (.token (RealNode.lockToken locks.session (locks.sequence + 1)))) :=
  if_neg h

theorem consult_release (h : locks.owners.lookup inodeId = some token) (htoken : token ≠ []) :
    locks.consult i (.releaseFileWriteLock inodeId token) gate =
      { locks with owners := locks.owners.erase inodeId }.setPhase i
        (.releaseFileWriteLock inodeId token) (.answered gate .done) :=
  if_neg (not_or.mpr ⟨htoken, not_not_intro h⟩)

theorem reaches_token (h : locks.Quiet) (hfree : inodeId ∉ locks.owners) (hpositive : inodeId ≠ 0) :
    ∃ gates, Reaches locks
      ({ locks with
        gates := gates
        sequence := locks.sequence + 1
        owners := locks.owners.insert inodeId
          (RealNode.lockToken locks.session (locks.sequence + 1))
      }.alone (.acquireFileWriteLock inodeId)
        (.returned (.token (RealNode.lockToken locks.session (locks.sequence + 1))))) := by
  have hne : LockRequest.acquireFileWriteLock inodeId ≠ .acquireFileWriteLock 0 := by
    intro hsame
    cases hsame
    exact hpositive rfl
  obtain ⟨gates, gate, hlocked⟩ := reaches_locked h rfl hne
  refine ⟨gates, @reaches_returned _ _ gate _ _ ?_⟩
  refine hlocked.act (.proceed locks.calls.length true) ?_
  have hconsult := @consult_acquire
    ({ locks with gates := gates }.alone (.acquireFileWriteLock inodeId) (.locked gate))
    locks.calls.length gate inodeId hfree
  rw [FileWriteLocks.act, proceed, proceed_alone { locks with gates := gates }]
  refine (congrArg some hconsult).trans (congrArg some ?_)
  exact (setPhase_alone
    { locks with
      gates := gates
      sequence := locks.sequence + 1
      owners := locks.owners.insert inodeId
        (RealNode.lockToken locks.session (locks.sequence + 1)) } _ (.locked gate) _)

theorem reaches_release (h : locks.Quiet) (howner : locks.owners.lookup inodeId = some token)
    (htoken : token ≠ []) :
    ∃ gates, Reaches locks
      ({ locks with gates := gates, owners := locks.owners.erase inodeId }.alone
        (.releaseFileWriteLock inodeId token) (.returned .done)) := by
  have hne : LockRequest.releaseFileWriteLock inodeId token ≠ .acquireFileWriteLock 0 := nofun
  obtain ⟨gates, gate, hlocked⟩ := reaches_locked h rfl hne
  refine ⟨gates, @reaches_returned _ _ gate _ _ ?_⟩
  refine hlocked.act (.proceed locks.calls.length true) ?_
  have hconsult := @consult_release
    ({ locks with gates := gates }.alone (.releaseFileWriteLock inodeId token) (.locked gate))
    locks.calls.length gate inodeId token howner htoken
  rw [FileWriteLocks.act, proceed, proceed_alone { locks with gates := gates }]
  refine (congrArg some hconsult).trans (congrArg some ?_)
  exact (setPhase_alone
    { locks with gates := gates, owners := locks.owners.erase inodeId } _ (.locked gate) _)

/-- A file is acquired and released. -/
theorem reaches_cycle (h : locks.Quiet) (hfree : 1 ∉ locks.owners) :
    ∃ after rest, Reaches locks after ∧ after.Quiet ∧ 1 ∉ after.owners ∧
      after.session = locks.session ∧ after.sequence = locks.sequence + 1 ∧
      after.calls = locks.calls ++ ⟨.acquireFileWriteLock 1,
        .returned (.token (RealNode.lockToken locks.session (locks.sequence + 1)))⟩ :: rest := by
  obtain ⟨gates, hist, hacquired⟩ := reaches_token h hfree (by decide)
  generalize htoken : RealNode.lockToken locks.session (locks.sequence + 1) = token at hacquired ⊢
  have hquiet : Quiet ({ locks with
      gates := gates
      sequence := locks.sequence + 1
      owners := locks.owners.insert 1 token
    }.alone (.acquireFileWriteLock 1) (.returned (.token token))) := Quiet.alone h _ _
  have hnil : token ≠ [] := by
    rw [← htoken]
    exact lockToken_ne_nil _ _
  obtain ⟨gates', hist', hreleased⟩ := reaches_release hquiet (AList.lookup_insert _) hnil
  refine ⟨_, [⟨.releaseFileWriteLock 1 token, .returned .done⟩],
    ⟨_, hacquired.append hreleased⟩, Quiet.alone hquiet _ _, ?_, rfl, rfl, ?_⟩
  · rw [← AList.lookup_eq_none]
    exact AList.lookup_erase _ _
  · exact List.append_assoc _ _ _

/-- Acquiring and releasing a file so many times. -/
theorem reaches_sequence (session : Bytes) (count : Nat) :
    ∃ locks, Reaches { session := session } locks ∧ locks.Quiet ∧ 1 ∉ locks.owners ∧
      locks.session = session ∧ locks.sequence = UInt64.ofNat count ∧
      (count ≠ 0 → ∃ i, i < locks.calls.length ∧
        locks.Issued i 1 (RealNode.lockToken session 1)) := by
  induction count with
  | zero => exact ⟨_, ⟨_, .nil⟩, nofun, nofun, rfl, rfl, fun hne => absurd rfl hne⟩
  | succ count ih =>
      obtain ⟨locks, ⟨hist, hrun⟩, hquiet, hfree, hsession, hsequence, hissued⟩ := ih
      obtain ⟨after, rest, ⟨hist', hrun'⟩, hquiet', hfree', hsession', hsequence', hcalls⟩ :=
        reaches_cycle hquiet hfree
      refine ⟨after, ⟨_, hrun.append hrun'⟩, hquiet', hfree', hsession'.trans hsession, ?_, ?_⟩
      · rw [hsequence', hsequence, UInt64.ofNat_add]
        rfl
      · intro _
        have hlonger : locks.calls.length < after.calls.length := by
          rw [hcalls, List.length_append, List.length_cons]
          omega
        rcases eq_or_ne count 0 with rfl | hne
        · refine ⟨locks.calls.length, hlonger,
            .returned (.token (RealNode.lockToken session 1)), ?_, rfl⟩
          rw [hcalls, List.getElem?_append_right (Nat.le_refl _), Nat.sub_self, hsession, hsequence]
          rfl
        · obtain ⟨i, hlt, phase, hphase, hanswer⟩ := hissued hne
          refine ⟨i, Nat.lt_trans hlt hlonger, phase, ?_, hanswer⟩
          rw [hcalls]
          exact getElem?_append_of_some hphase

/-- A write of the primary at its peer runs while another's token is live, and after
    `2 ^ 64` tokens the first one is issued again. -/
theorem replication_overrides_token :
    (∃ locks : FileWriteLocks, Reaches { session := ofAscii "3" } locks ∧
      locks.Issued 0 7 (ofAscii "3-1") ∧ ¬locks.Released 7 (ofAscii "3-1") ∧
        ∃ (request : LockRequest) (gate : Nat),
          locks.calls[1]? = some ⟨request, .running gate⟩ ∧ request.target = 7 ∧
            request.carried = []) ∧
      ∃ (locks : FileWriteLocks) (i j : Nat), Reaches { session := ofAscii "3" } locks ∧ i ≠ j ∧
        locks.Issued i 1 (ofAscii "3-1") ∧ locks.Issued j 1 (ofAscii "3-1") := by
  constructor
  · have hrun : Serves Acting Any { session := ofAscii "3" }
        (exampleLocks (.writeObject (ofAscii "obj-7-0") true [])).1
        (exampleLocks (.writeObject (ofAscii "obj-7-0") true [])).2 :=
      serves_runWhile (fun _ _ _ => id) _ _ fun _ _ => trivial
    have hcalls : (exampleLocks (.writeObject (ofAscii "obj-7-0") true [])).2.calls =
        [⟨.acquireFileWriteLock 7, .returned (.token (ofAscii "3-1"))⟩,
          ⟨.writeObject (ofAscii "obj-7-0") true [], .running 1⟩] := by decide
    refine ⟨_, ⟨_, hrun⟩, ⟨_, by rw [hcalls]; rfl, rfl⟩, ?_, _, _, by rw [hcalls]; rfl, by decide,
      rfl⟩
    rintro ⟨i, phase, hphase, _⟩
    have hmem := List.mem_of_getElem? hphase
    rw [hcalls] at hmem
    simp at hmem
  · obtain ⟨locks, ⟨hist, hrun⟩, hquiet, hfree, hsession, hsequence, hissued⟩ :=
      reaches_sequence (ofAscii "3") (2 ^ 64)
    obtain ⟨after, rest, ⟨hist', hrun'⟩, _, _, _, _, hcalls⟩ := reaches_cycle hquiet hfree
    obtain ⟨i, hlt, phase, hphase, hanswer⟩ := hissued (by decide)
    have hzero : UInt64.ofNat (2 ^ 64) + 1 = 1 := by decide
    refine ⟨after, i, locks.calls.length, ⟨_, hrun.append hrun'⟩, Nat.ne_of_lt hlt,
      ⟨phase, ?_, hanswer⟩, .returned (.token (ofAscii "3-1")), ?_, rfl⟩
    · rw [hcalls]
      exact getElem?_append_of_some hphase
    · rw [hcalls, List.getElem?_append_right (Nat.le_refl _), Nat.sub_self, hsession, hsequence,
        hzero]
      rfl

end Zb.DataNode.FileWriteLocks
