-- SUMMARY: The online floor: a call that powers nodes off by the policy leaves enough of a kind online.
import ZBStorage.Scheduler.PowerHistory

/-!
# The online floor

The policy switches a node off only if the others of its kind make up the floor
by themselves. So the floor survives every turn of a loop, in any order, as long
as the calls do not withdraw a node by other means.
-/

namespace Zb.Scheduler

open Zb.StorageModel Bytes TableLoop CallHistory
open NodePowerManager (afterAll field_eq)

variable {policy : PowerPolicy} {num : Numerics} {canOff changed : Bool} {nodeId : Bytes}
  {kind : NodeKind} {nodes : NodeTable} {node node' : NodeRecord}
  {manager manager' : NodePowerManager} {call : ManagerCall} {nodeCall : NodeCall} {nowMs : UInt64}

/-! ## The floor -/

def onlineOf (kind : NodeKind) (nodes : List NodeRecord) : List NodeRecord :=
  nodes.filter fun node => isOnline node && node.profile.kind = kind

def records (nodes : NodeTable) : List NodeRecord := nodes.entries.map fun entry => entry.2

/-- Healthy bytes of some nodes, without a bound. -/
def totalBytes (bytes : NodeRecord → UInt64) (nodes : List NodeRecord) : Nat :=
  (nodes.map fun node => (bytes node).toNat).sum

/-- The online nodes of a kind make up its floor. -/
structure Floor (policy : PowerPolicy) (kind : NodeKind) (online : List NodeRecord) : Prop where
  count : (minimumOnlineNodes policy kind).toNat ≤ online.length
  capacity : kind = .storage →
    policy.minOnlineStorageCapacityBytes.toNat ≤ totalBytes capacityBytesForSafety online
  free : kind = .storage →
    policy.minOnlineStorageFreeBytes.toNat ≤ totalBytes freeBytesForSafety online

instance (policy : PowerPolicy) (kind : NodeKind) (online : List NodeRecord) :
    Decidable (Floor policy kind online) :=
  decidable_of_iff
    ((minimumOnlineNodes policy kind).toNat ≤ online.length ∧
      (kind = .storage →
        policy.minOnlineStorageCapacityBytes.toNat ≤ totalBytes capacityBytesForSafety online) ∧
      (kind = .storage →
        policy.minOnlineStorageFreeBytes.toNat ≤ totalBytes freeBytesForSafety online))
    ⟨fun ⟨hcount, hcapacity, hfree⟩ => ⟨hcount, hcapacity, hfree⟩,
      fun ⟨hcount, hcapacity, hfree⟩ => ⟨hcount, hcapacity, hfree⟩⟩

def FloorHolds (policy : PowerPolicy) (kind : NodeKind) (nodes : NodeTable) : Prop :=
  Floor policy kind (onlineOf kind (records nodes))

instance (policy : PowerPolicy) (kind : NodeKind) (nodes : NodeTable) :
    Decidable (FloorHolds policy kind nodes) :=
  inferInstanceAs (Decidable (Floor policy kind (onlineOf kind (records nodes))))

theorem totalBytes_append (bytes : NodeRecord → UInt64) (nodes₁ nodes₂ : List NodeRecord) :
    totalBytes bytes (nodes₁ ++ nodes₂) = totalBytes bytes nodes₁ + totalBytes bytes nodes₂ := by
  rw [totalBytes, List.map_append, List.sum_append]
  rfl

theorem totalBytes_cons (bytes : NodeRecord → UInt64) (node : NodeRecord)
    (nodes : List NodeRecord) :
    totalBytes bytes (node :: nodes) = (bytes node).toNat + totalBytes bytes nodes := by
  rw [totalBytes, List.map_cons, List.sum_cons]
  rfl

theorem totalBytes_le_of_sublist (bytes : NodeRecord → UInt64) {nodes₁ nodes₂ : List NodeRecord}
    (h : nodes₁.Sublist nodes₂) : totalBytes bytes nodes₁ ≤ totalBytes bytes nodes₂ := by
  apply (h.map fun node => (bytes node).toNat).sum_le_sum
  exact fun _ _ => Nat.zero_le _

theorem Floor.mono {online online' : List NodeRecord} (h : Floor policy kind online)
    (hsub : online.Sublist online') : Floor policy kind online' where
  count := Nat.le_trans h.count hsub.length_le
  capacity hkind := Nat.le_trans (h.capacity hkind) (totalBytes_le_of_sublist _ hsub)
  free hkind := Nat.le_trans (h.free hkind) (totalBytes_le_of_sublist _ hsub)

/-- The candidate's place is taken by a node that offers as much. -/
theorem Floor.replace {online₁ online₂ : List NodeRecord}
    (h : Floor policy kind (online₁ ++ node :: online₂))
    (hcapacity : capacityBytesForSafety node ≤ capacityBytesForSafety node')
    (hfree : freeBytesForSafety node ≤ freeBytesForSafety node') :
    Floor policy kind (node' :: (online₁ ++ online₂)) := by
  rw [UInt64.le_iff_toNat_le] at hcapacity hfree
  constructor
  · have hcount := h.count
    simp only [List.length_append, List.length_cons] at hcount ⊢
    omega
  · intro hkind
    have htotal := h.capacity hkind
    simp only [totalBytes_append, totalBytes_cons] at htotal ⊢
    omega
  · intro hkind
    have htotal := h.free hkind
    simp only [totalBytes_append, totalBytes_cons] at htotal ⊢
    omega

/-- What `CanPowerOffLocked` found: the floor holds without the candidate. -/
theorem floor_of_canPowerOff (h : canPowerOff policy nodes node = true) :
    Floor policy node.profile.kind (remainingOnline nodes node node.profile.kind) := by
  unfold canPowerOff at h
  dsimp only at h
  split at h
  · cases h
  · rename_i hcount
    split at h
    · cases h
    · rename_i hbytes
      rw [not_and_or, not_or, Std.not_lt, Std.not_lt, Saturating.le_sum_iff,
        Saturating.le_sum_iff, List.map_map, List.map_map] at hbytes
      refine ⟨?_, fun hkind => ?_, fun hkind => ?_⟩
      · -- a count beyond 32 bits only seems smaller
        have hcount' := UInt32.le_iff_toNat_le.mp (Std.not_lt.mp hcount)
        rw [UInt32.toNat_ofNat'] at hcount'
        exact Nat.le_trans hcount' (Nat.mod_le _ _)
      · rw [hkind]
        exact (hbytes.resolve_left (not_not.mpr hkind)).1
      · rw [hkind]
        exact (hbytes.resolve_left (not_not.mpr hkind)).2

theorem remainingOnline_eq (nodes : NodeTable) (candidate : NodeRecord) (kind : NodeKind) :
    remainingOnline nodes candidate kind = (onlineOf kind (records nodes)).filter fun node =>
      node.profile.nodeId ≠ candidate.profile.nodeId := by
  rw [remainingOnline, onlineOf, records, List.filter_filter]
  congr 1
  funext node
  rw [Bool.and_assoc]

/-- The node is as much use to the floor as before. -/
structure StaysOnline (node node' : NodeRecord) : Prop where
  online : isOnline node' = true
  capacity : capacityBytesForSafety node ≤ capacityBytesForSafety node'
  free : freeBytesForSafety node ≤ freeBytesForSafety node'

/-- One record changes: the floor holds if the node stays online or may be switched off. -/
theorem FloorHolds.insert (h : FloorHolds policy kind nodes)
    (hlookup : nodes.lookup nodeId = some node) (hprofile : node'.profile = node.profile)
    (hstays : isOnline node = true → node.profile.kind = kind →
      StaysOnline node node' ∨ canPowerOff policy nodes node = true) :
    FloorHolds policy kind (nodes.insert nodeId node') := by
  obtain ⟨entries₁, entries₂, hentries, hinsert⟩ := entries_split hlookup
  have hbefore : onlineOf kind (records nodes) =
      onlineOf kind (entries₁.map fun entry => entry.2) ++
        onlineOf kind (node :: entries₂.map fun entry => entry.2) := by
    simp only [records, hentries, List.map_append, List.map_cons, onlineOf, List.filter_append]
  have hafter : onlineOf kind (records (nodes.insert nodeId node')) =
      onlineOf kind (node' :: (entries₁.map fun entry => entry.2) ++
        entries₂.map fun entry => entry.2) := by
    simp only [records, hinsert, List.map_append, List.map_cons, List.cons_append]
  generalize (entries₁.map fun entry => entry.2) = nodes₁ at hbefore hafter
  generalize (entries₂.map fun entry => entry.2) = nodes₂ at hbefore hafter
  have hothers : (onlineOf kind nodes₁ ++ onlineOf kind nodes₂).Sublist
      (onlineOf kind (records (nodes.insert nodeId node'))) := by
    rw [hafter, onlineOf, onlineOf, ← List.filter_append]
    exact (List.sublist_cons_self node' (nodes₁ ++ nodes₂)).filter _
  unfold FloorHolds at h ⊢
  by_cases hwas : isOnline node = true ∧ node.profile.kind = kind
  · obtain ⟨honline, rfl⟩ := hwas
    have hnode : onlineOf node.profile.kind (node :: nodes₂) =
        node :: onlineOf node.profile.kind nodes₂ :=
      List.filter_cons_of_pos (by simp [honline])
    rcases hstays honline rfl with hstays | hcan
    · rw [hbefore, hnode] at h
      have hkind : onlineOf node.profile.kind (node' :: nodes₁ ++ nodes₂) =
          node' :: (onlineOf node.profile.kind nodes₁ ++ onlineOf node.profile.kind nodes₂) := by
        rw [onlineOf, List.cons_append, List.filter_cons_of_pos, List.filter_append]
        · rfl
        · simp [hstays.online, hprofile]
      rw [hafter, hkind]
      exact h.replace hstays.capacity hstays.free
    · have hremaining := floor_of_canPowerOff hcan
      rw [remainingOnline_eq, hbefore, hnode, List.filter_append, List.filter_cons_of_neg] at hremaining
      · exact hremaining.mono ((List.filter_sublist.append List.filter_sublist).trans hothers)
      · simp
  · have hnode : onlineOf kind (node :: nodes₂) = onlineOf kind nodes₂ :=
      List.filter_cons_of_neg (by simpa using hwas)
    rw [hbefore, hnode] at h
    exact h.mono hothers

/-! ## Calls that replay the policy -/

/-- The operations that call `AdvancePowerPolicyLocked`, and the request to switch a
    node off that the policy may refuse. -/
def NodeCall.advancesPolicy : NodeCall → Bool
  | .activateNode _ | .beginRemoveNode _ | .finalizeRemoveNode _ _ | .markNodeFailed _ _
  | .repairNode _ | .reportHeartbeat _ _ _ | .reportOpticalLibraryStatus _ _
  | .setTransitionState _ _ | .reportMetrics _ | .reportAccessEvent _
  | .reportDrainProgress _ _ _ _ => true
  | .requestPowerLevel level _ force => level = .off && !force
  | _ => false

def ManagerCall.advancesPolicy : ManagerCall → Bool
  | .node _ call => call.advancesPolicy
  | .tick _ _ _ => true
  | _ => false

/-- The call does not withdraw the node from the online ones, except by its power level. -/
structure NotWithdrawn (node node' : NodeRecord) : Prop where
  working : node'.lifecycle = .working
  notFailed : node'.health ≠ .failed
  stable : node'.transition = .stable
  capacity : capacityBytesForSafety node ≤ capacityBytesForSafety node'
  free : freeBytesForSafety node ≤ freeBytesForSafety node'

theorem isOnline_iff : isOnline node = true ↔
    node.lifecycle = .working ∧ node.health ≠ .failed ∧ node.administrativeState = .enabled ∧
      node.powerLevel ≠ .off ∧ node.transition = .stable ∧
      (node.profile.executionMode = .physical → node.actuatedPowerLevel ≠ .off) := by
  simp [isOnline, and_assoc, imp_iff_not_or]

/-- A node that is not withdrawn is online as long as it has power. -/
theorem NotWithdrawn.staysOnline (h : NotWithdrawn node node')
    (hadmin : node'.administrativeState = .enabled) (hpower : node'.powerLevel ≠ .off)
    (hactuated : node'.profile.executionMode = .physical → node'.actuatedPowerLevel ≠ .off) :
    StaysOnline node node' where
  online := isOnline_iff.mpr ⟨h.working, h.notFailed, hadmin, hpower, h.stable, hactuated⟩
  capacity := h.capacity
  free := h.free

theorem Replayed.staysOnline_or {account : PowerAccount} (h : Replayed canOff node account)
    (honline : isOnline node = true) (hkept : NotWithdrawn node node')
    (hpower : node'.powerLevel = account.powerLevel)
    (hadmin : node'.administrativeState = node.administrativeState)
    (hactuated : node'.profile.executionMode = .physical → node'.actuatedPowerLevel ≠ .off) :
    StaysOnline node node' ∨ canOff = true := by
  obtain ⟨hworking, -, henabled, hon, -, -⟩ := isOnline_iff.mp honline
  by_cases hoff : account.powerLevel = .off
  · rcases h hoff with hbefore | hlife | hcan
    · exact absurd hbefore hon
    · exact absurd hworking hlife
    · exact .inr hcan
  · exact .inl (hkept.staysOnline (hadmin.trans henabled) (hpower ▸ hoff) hactuated)

theorem actuatedUnlessPhysical_physical {level : PowerLevel}
    (h : node.profile.executionMode = .physical) :
    actuatedUnlessPhysical node level = node.actuatedPowerLevel := if_pos h

theorem NodeCall.Effect.staysOnline_or (h : nodeCall.Effect num canOff nodeId node node' changed)
    (hadvances : nodeCall.advancesPolicy = true) (honline : isOnline node = true)
    (hkept : NotWithdrawn node node') : StaysOnline node node' ∨ canOff = true := by
  obtain ⟨hworking, hhealth, henabled, hon, hstable, hactuated⟩ := isOnline_iff.mp honline
  cases h with
  | activateNode hjoining => exact absurd (hworking.symm.trans hjoining) (by decide)
  | alreadyDraining hdraining => exact absurd (hworking.symm.trans hdraining) (by decide)
  | beginRemoveNode => exact nomatch hkept.working
  | finalizeRemoveNode => exact nomatch hkept.working
  | markNodeFailed => exact absurd rfl hkept.notFailed
  | repairNode hfailed => exact absurd hfailed hhealth
  | reportHeartbeat _ hreplayed hconfirms =>
      exact hreplayed.staysOnline_or honline hkept rfl rfl hconfirms.physical
  | reportOpticalLibraryStatus _ hreplayed =>
      exact hreplayed.staysOnline_or honline hkept rfl rfl hactuated
  | setTransitionState hreplayed =>
      exact hreplayed.staysOnline_or honline hkept rfl rfl hactuated
  | requestPowerLevel hallowed _ =>
      simp only [advancesPolicy, Bool.and_eq_true, decide_eq_true_eq, Bool.not_eq_true'] at hadvances
      exact .inr (hallowed hadvances.1 hadvances.2)
  | repeatedMetrics => exact .inl ⟨honline, Std.le_refl _, Std.le_refl _⟩
  | reportMetrics _ _ _ _ hreplayed =>
      exact hreplayed.staysOnline_or honline hkept rfl rfl hactuated
  | reportAccessEvent _ _ _ _ hpower => exact .inl (hkept.staysOnline henabled hpower hactuated)
  | reportDrainProgress hdraining =>
      rcases hdraining with hlife | hlife
      · exact absurd (hworking.symm.trans hlife) (by decide)
      · exact absurd (hworking.symm.trans hlife) (by decide)
  | _ => cases hadvances

theorem Ticked.staysOnline_or (h : Ticked canOff nowMs node node') (honline : isOnline node = true)
    (hkept : NotWithdrawn node node') : StaysOnline node node' ∨ canOff = true := by
  obtain ⟨hworking, hhealth, henabled, hon, hstable, hactuated⟩ := isOnline_iff.mp honline
  cases h with
  | @intro account health failureSource _ _ _ _ _ hoff =>
      have hstays : ¬exitDue nowMs node = true := by
        intro hexits
        have hlife := hkept.working
        rw [if_pos hexits] at hlife
        cases hlife
      have hactuated' : node.profile.executionMode = .physical →
          actuatedUnlessPhysical node account.powerLevel ≠ .off := by
        intro hphysical
        rw [actuatedUnlessPhysical_physical hphysical]
        exact hactuated hphysical
      by_cases hpower : account.powerLevel = .off
      · rcases hoff hpower with hbefore | hlife | hfailed | hexits | hcan
        · exact absurd hbefore hon
        · exact absurd hworking hlife
        · exact absurd hfailed hkept.notFailed
        · exact absurd hexits hstays
        · exact .inr hcan
      · exact .inl (hkept.staysOnline ((if_neg hstays).trans henabled) hpower hactuated')

theorem tickTurn_staysOnline_or {filter : ExecutionFilter} (honline : isOnline node = true)
    (hkept : NotWithdrawn node
      (NodePowerManager.tickTurn policy num filter nowMs nodes node).1) :
    StaysOnline node (NodePowerManager.tickTurn policy num filter nowMs nodes node).1 ∨
      canPowerOff policy nodes node = true := by
  unfold NodePowerManager.tickTurn at hkept ⊢
  split
  · exact .inl ⟨honline, Std.le_refl _, Std.le_refl _⟩
  · rename_i hskips
    rw [if_neg hskips] at hkept
    exact (tickNode_ticked ..).staysOnline_or honline hkept

theorem profile_tickTurn (filter : ExecutionFilter) :
    (NodePowerManager.tickTurn policy num filter nowMs nodes node).1.profile = node.profile := by
  unfold NodePowerManager.tickTurn
  split
  · rfl
  · exact (tickNode_ticked ..).profile

/-- What the calls of the policy keep: the floor of a kind holds after a call if it held
    before and every node of the kind is `spared`. -/
def FloorLaw (policy : PowerPolicy) (num : Numerics) (spared : NodeRecord → NodeRecord → Prop) :
    Prop :=
  ∀ (kind : NodeKind) (manager : NodePowerManager) (call : ManagerCall)
    (manager' : NodePowerManager), call.advancesPolicy = true →
    manager.Serve policy num call manager' → FloorHolds policy kind manager.nodes →
    (∀ nodeId node node', manager.nodes.lookup nodeId = some node →
      manager'.nodes.lookup nodeId = some node' → node.profile.kind = kind → spared node node') →
    FloorHolds policy kind manager'.nodes

/-- The node neither fails nor leaves in the call. -/
def NeitherFailsNorExits (node node' : NodeRecord) : Prop :=
  (node.health ≠ .failed → node'.health ≠ .failed) ∧
    (node.lifecycle = .working → node'.lifecycle = .working)

def OnlineKept (node node' : NodeRecord) : Prop := isOnline node = true → NotWithdrawn node node'

/-- The policy keeps the online floor. -/
theorem online_floor_kept (policy : PowerPolicy) (num : Numerics) :
    FloorLaw policy num OnlineKept := by
  intro kind manager call manager' hadvances hserve hfloor hspared
  obtain ⟨hvisits, hok | ⟨-, rfl⟩⟩ := hserve
  swap
  · exact hfloor
  cases call with
  | node nodeId nodeCall =>
      obtain ⟨node, node', changed, hlookup, -, hrun, rfl⟩ := callNode_ok hok
      have heffect := NodeCall.effect_of_run hrun
      refine hfloor.insert hlookup heffect.profile fun honline hkind => ?_
      exact heffect.staysOnline_or hadvances honline
        (hspared nodeId node node' hlookup (AList.lookup_insert _) hkind
          honline)
  | tick order filter nowMs =>
      cases hok
      refine forEach_turns hvisits.nodup ?_ hfloor
      intro order₁ nodeId order₂ node horder hlookup hbefore
      -- the node has not had its turn, and what its turn leaves is there at the end
      have hnodup : (order₁ ++ nodeId :: order₂).Nodup := horder ▸ hvisits.nodup
      have hunvisited : nodeId ∉ order₁ := fun hmem =>
        (List.nodup_append.mp hnodup).2.2 nodeId hmem nodeId List.mem_cons_self rfl
      refine hbefore.insert ((lookup_forEach_of_notMem hunvisited).trans hlookup)
        (profile_tickTurn filter) fun honline hkind => ?_
      apply tickTurn_staysOnline_or honline
      refine hspared nodeId node _ hlookup ?_ hkind honline
      rw [horder]
      exact lookup_forEach hnodup hlookup
  | registerNode => cases hadvances
  | linkReplacement => cases hadvances
  | evaluateHeartbeatHealth => cases hadvances
  | restart => cases hadvances

/-- One storage node has to be online. -/
def oneOnline : PowerPolicy where
  minOnlineStorageNodes := 1
  standbyBeforeOff := standby_before_off

/-- A disk that lives for a day. -/
def durableDisk : NodeHardwareProfile :=
  { simulatedDisk with reliability := { meanLifetimeMs := 86400000 } }

def workingCalls : List ManagerCall :=
  [.registerNode durableDisk 0 0, .node durableDisk.nodeId (.activateNode 1)]

def workingManager : NodePowerManager :=
  afterAll oneOnline plainNumerics {} workingCalls

theorem keys_workingManager : workingManager.nodes.keys = [durableDisk.nodeId] := by
  decide +kernel

theorem eq_durableDisk (h : workingManager.nodes.lookup nodeId = some node) :
    nodeId = durableDisk.nodeId := by
  have hmem : nodeId ∈ workingManager.nodes.keys := mem_of_lookup h
  rw [keys_workingManager] at hmem
  exact List.mem_singleton.mp hmem

/-- Two disks like it. -/
def idleManager : NodePowerManager :=
  [ofAscii "a", ofAscii "b"].foldl (fun manager nodeId => manager.afterAll oneOnline plainNumerics
    [.registerNode { durableDisk with nodeId } 0 0, .node nodeId (.activateNode 1)]) {}

def idleTick : NodePowerManager :=
  idleManager.tickMatching oneOnline plainNumerics idleManager.nodes.keys .all 700000

/-- After ten idle minutes both nodes are due to power off. One does, and the other is the
    last one online. -/
theorem online_floor_kept_idle :
    idleTick.nodes.entries.map (·.2.powerLevel) = [.standby, .off] ∧
      FloorHolds oneOnline .storage idleTick.nodes := by
  refine ⟨by decide +kernel, ?_⟩
  refine online_floor_kept oneOnline plainNumerics .storage idleManager
    (.tick idleManager.nodes.keys .all 700000) _ rfl ⟨enumerates_keys _, .inl rfl⟩
    (by decide +kernel) ?_
  have hfields : ∀ nodeId ∈ idleManager.nodes.keys,
      (idleManager.nodes.lookup nodeId).map (fun node =>
        (capacityBytesForSafety node, freeBytesForSafety node)) = some (10, 10) ∧
      (idleTick.nodes.lookup nodeId).map (fun node => (node.lifecycle, node.health,
        node.transition, capacityBytesForSafety node, freeBytesForSafety node)) =
          some (.working, .healthy, .stable, 10, 10) := by
    decide +kernel
  intro nodeId node node' hlookup hlookup' _ _
  obtain ⟨hbefore, hafter⟩ := hfields nodeId (mem_of_lookup hlookup)
  simp only [hlookup, hlookup', Option.map_some, Option.some.injEq, Prod.mk.injEq] at hbefore hafter
  obtain ⟨hcapacity, hfree⟩ := hbefore
  obtain ⟨hlifecycle, hhealth, htransition, hcapacity', hfree'⟩ := hafter
  constructor
  · exact hlifecycle
  · rw [hhealth]
    decide
  · exact htransition
  · rw [hcapacity, hcapacity']
    exact Std.le_refl _
  · rw [hfree, hfree']
    exact Std.le_refl _

/-- A node that starts, stops or reboots does not count, so a change of its transition
    takes the last node of the floor away. -/
theorem floor_lost_in_transition : ¬ FloorLaw oneOnline plainNumerics NeitherFailsNorExits := by
  intro hlaw
  have hfloor := hlaw .storage workingManager
    (.node durableDisk.nodeId (.setTransitionState .rebooting 2)) _ rfl
    (NodePowerManager.serve_after trivial) (by decide +kernel) ?_
  · exact absurd hfloor (by decide +kernel)
  · intro nodeId node node' hlookup hlookup' _
    cases eq_durableDisk hlookup
    have hhealthy : node'.health = .healthy :=
      field_eq (f := NodeRecord.health) (by decide +kernel) hlookup'
    have hworking : node'.lifecycle = .working :=
      field_eq (f := NodeRecord.lifecycle) (by decide +kernel) hlookup'
    refine ⟨fun _ hfailed => ?_, fun _ => hworking⟩
    cases hhealthy.symm.trans hfailed

end Zb.Scheduler
