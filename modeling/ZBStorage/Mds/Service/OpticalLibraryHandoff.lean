-- SUMMARY: Handoffs of whole optical libraries, and the resolution of locations along them.
import ZBStorage.Lib.Forwarding
import ZBStorage.Mds.Location.FileLocationResolver

/-!
# Handoffs of optical libraries

`OpticalLibraryHandoff.cpp`. A handoff moves all media of one library to another;
the metadata server stores it under the source and rewrites no location. A
location is resolved by following the handoffs from its node. Since a handoff is
committed only to a target that was not handed off itself, the handoffs never
form a cycle; a resolution gives up after 64 reads.
-/

namespace Zb.Mds

open Zb.Rpc Bytes Handler Forwarding

variable (digest : OpticalLibraryHandoffRecord → Bytes)

/-- `zb::handoff::ManifestId`: the digest of the serialised record. -/
def manifestId (r : OpticalLibraryHandoffRecord) : Bytes :=
  digest { r with manifestId := [], phase := [] }

def canonical (r : OpticalLibraryHandoffRecord) : OpticalLibraryHandoffRecord :=
  { r with phase := [] }

/-! ## Resolution -/

/-- Whether the registry knows the node under another generation. -/
def generationLost (location : OpticalFileLocation) : Handler Bool :=
  if location.instanceGeneration = 0 then return false
  else do
    match ← ask (.getInstanceGeneration location.nodeId) with
    | none => return false
    | some generation => return decide (generation ≠ location.instanceGeneration)

/-- The location after a handoff: the media keep their numbers. -/
def handedOver (location : OpticalFileLocation) (r : OpticalLibraryHandoffRecord) :
    OpticalFileLocation :=
  { location with
    nodeId := r.target.nodeId
    nodeAddress := r.target.nodeAddress
    instanceGeneration := r.target.instanceGeneration }

/-- The loop of `ResolveOpticalHandoff` with the steps it may still take. -/
def resolveHandoffs : Nat → List Bytes → OpticalFileLocation →
    Handler (Except String OpticalFileLocation)
  | 0, _, _ => return .error "optical handoff chain too deep"
  | depth + 1, visited, location =>
      if location.nodeId ∈ visited then return .error "optical handoff cycle"
      else do
        match ← get (.opticalLibraryHandoff location.nodeId) with
        | .error e =>
            if ← generationLost location then
              return .error "optical location generation no longer owns this media"
            else if e = "" then return .ok location
            else return .error e
        | .ok r =>
            if r.source.nodeId ≠ location.nodeId ∨ r.manifestId ≠ manifestId digest r ∨
                (location.instanceGeneration ≠ 0 ∧
                  location.instanceGeneration ≠ r.source.instanceGeneration) then
              return .error "corrupt or stale-generation optical handoff"
            else resolveHandoffs depth (location.nodeId :: visited) (handedOver location r)

def resolveOpticalHandoff (location : OpticalFileLocation) :
    Handler (Except String OpticalFileLocation) := resolveHandoffs digest 64 [] location

/-! ## Commits -/

structure CommitOpticalLibraryHandoffReply where
  status : NamespaceStatus
  committed : Bool := false
  deriving DecidableEq

/-- The catalog admits an endpoint of a handoff. -/
def endpointAdmitted (target : Bool) (endpoint : OpticalFileLocation)
    (view : CmsNodeCatalogEntry) : Bool :=
  view.kind = .opticalLibrary && view.executionMode = .physical &&
  view.instanceGeneration = endpoint.instanceGeneration &&
  view.serviceAddress = endpoint.nodeAddress &&
  if target then
    view.lifecycle = .working && view.health = .healthy && view.administrativeState = .enabled &&
    view.readiness = some true && view.inventoryReady
  else view.lifecycle = .draining || view.lifecycle = .exiting

def handoffEndpoint (r : OpticalLibraryHandoffRecord) (target : Bool) : OpticalFileLocation :=
  if target then r.target else r.source

/-- The receipt an endpoint must hold: the same record, in the phase of its side. -/
def receiptConfirms (r : OpticalLibraryHandoffRecord) (target : Bool)
    (record : OpticalLibraryHandoffRecord) : Bool :=
  canonical record = canonical r && record.phase = ofAscii (if target then "ACTIVE" else "EXPORTED")

/-- The checks of one endpoint: its catalog entry and its receipt of the handoff. -/
def checkEndpoint (r : OpticalLibraryHandoffRecord) (target : Bool) :
    Handler (Except NamespaceStatus Unit) := do
  let endpoint := handoffEndpoint r target
  match ← ask (.getCommittedNode endpoint.nodeId) with
  | none => return .error ⟨.staleEpoch, "endpoint absent from CMS"⟩
  | some view =>
      if !endpointAdmitted target endpoint view then
        return .error ⟨.staleEpoch, "endpoint generation/address/lifecycle not CMS admitted"⟩
      else
        match ← ask (.handoffReceipt endpoint) with
        | none => return .error ⟨.internalError, "cannot verify endpoint receipt"⟩
        | some receipt =>
            if receipt.any (receiptConfirms r target) then return .ok ()
            else
              return .error ⟨.staleEpoch, "source freeze or durable target receipt not confirmed"⟩

/-- The part of a commit after its source was found to be free. -/
def commitNewHandoff (r : OpticalLibraryHandoffRecord) : Handler CommitOpticalLibraryHandoffReply := do
  match ← checkEndpoint r false with
  | .error status => return { status }
  | .ok () =>
  match ← checkEndpoint r true with
  | .error status => return { status }
  | .ok () =>
  match ← resolveOpticalHandoff digest r.target with
  | .error _ => return { status := ⟨.staleEpoch, "target already relocated or relocation cycle"⟩ }
  | .ok next =>
      if next.nodeId ≠ r.target.nodeId then
        return { status := ⟨.staleEpoch, "target already relocated or relocation cycle"⟩ }
      else
        match ← writeBatch [.put (.opticalLibraryHandoff r.source.nodeId) (canonical r)] with
        | .error e => return { status := ⟨.internalError, e⟩ }
        | .ok () => return { status := ⟨.ok, "committed"⟩, committed := true }

/-- The record of a request is acceptable. -/
def handoffValid (r : OpticalLibraryHandoffRecord) : Bool :=
  r.operationId ≠ [] && r.operationId.length ≤ 128 && r.source.nodeId ≠ [] &&
  r.target.nodeId ≠ [] && r.source.nodeId ≠ r.target.nodeId &&
  r.source.instanceGeneration ≠ 0 && r.target.instanceGeneration ≠ 0 &&
  r.manifestId = manifestId digest r && r.files ≠ []

def commitOpticalLibraryHandoff (request : CommitOpticalLibraryHandoffRequest) :
    Handler CommitOpticalLibraryHandoffReply :=
  match request.record with
  | none => return { status := ⟨.invalidArgument, "handoff record required"⟩ }
  | some r =>
      if !handoffValid digest r then
        return { status := ⟨.invalidArgument, "invalid handoff identity or manifest"⟩ }
      else if !request.commit then do
        match ← get (.opticalLibraryHandoff r.source.nodeId) with
        | .ok old =>
            if old ≠ canonical r then
              return { status := ⟨.staleEpoch, "handoff manifest differs from committed mapping"⟩ }
            else return { status := ⟨.ok, "queried"⟩, committed := true }
        | .error e =>
            if e ≠ "" then return { status := ⟨.internalError, e⟩ }
            else return { status := ⟨.ok, "queried"⟩ }
      else withLock .fileMigration do
        match ← get (.opticalLibraryHandoff r.source.nodeId) with
        | .ok old =>
            if old ≠ canonical r then
              return { status := ⟨.staleEpoch, "source already handed to a different manifest"⟩ }
            else return { status := ⟨.ok, "already committed"⟩, committed := true }
        | .error e =>
            if e ≠ "" then return { status := ⟨.internalError, e⟩ }
            else commitNewHandoff digest r

/-! ## What a commit does -/

/-- The committed map from source to target. -/
def handoffOf (db : MetaMap) (nodeId : Bytes) : Option Bytes :=
  (db.lookup (.opticalLibraryHandoff nodeId)).map (·.target.nodeId)

/-- What a call can do to the store: nothing, or commit a new handoff between nodes
    that were not handed off. -/
inductive HandoffStep (db : MetaMap) (request : CommitOpticalLibraryHandoffRequest) :
    CommitOpticalLibraryHandoffReply → MetaMap → Prop
  | refused {reply : CommitOpticalLibraryHandoffReply} : reply.committed = false →
      (∀ r, request.record = some r → handoffValid digest r = true →
        db.lookup (.opticalLibraryHandoff r.source.nodeId) = some (canonical r) →
        reply.status.code = .internalError) → HandoffStep db request reply db
  | known {reply : CommitOpticalLibraryHandoffReply} {r : OpticalLibraryHandoffRecord} :
      request.record = some r →
      db.lookup (.opticalLibraryHandoff r.source.nodeId) = some (canonical r) →
      reply.committed = true → HandoffStep db request reply db
  | new {reply : CommitOpticalLibraryHandoffReply} {r : OpticalLibraryHandoffRecord} :
      request.record = some r → request.commit = true → handoffValid digest r = true →
      db.lookup (.opticalLibraryHandoff r.source.nodeId) = none →
      handoffOf db r.target.nodeId = none → reply.committed = true →
      HandoffStep db request reply
        (db.insert (.opticalLibraryHandoff r.source.nodeId) (canonical r))

section Steps

variable {digest} {ι : Type} {i : ι} {s s' : MdsState ι}

theorem runs_generationLost {location : OpticalFileLocation} {lost : Bool}
    (h : (generationLost location).Runs i s lost s') : s' = s := by
  unfold generationLost at h
  split at h
  · exact (Prog.runs_ret.mp h).2
  · obtain ⟨r, h⟩ := runs_ask.mp h
    cases r with
    | none => exact (Prog.runs_ret.mp h).2
    | some generation => exact (Prog.runs_ret.mp h).2

/-- A resolution changes nothing and ends at a node that was not handed off. -/
theorem runs_resolveHandoffs {depth : Nat} {visited : List Bytes} {location : OpticalFileLocation}
    {r : Except String OpticalFileLocation}
    (h : (resolveHandoffs digest depth visited location).Runs i s r s') :
    s' = s ∧ ∀ next, r = .ok next → handoffOf s.db next.nodeId = none := by
  induction depth generalizing visited location with
  | zero =>
      obtain ⟨rfl, rfl⟩ := Prog.runs_ret.mp h
      exact ⟨rfl, by rintro next ⟨⟩⟩
  | succ depth ih =>
      rw [resolveHandoffs] at h
      split at h
      · obtain ⟨rfl, rfl⟩ := Prog.runs_ret.mp h
        exact ⟨rfl, by rintro next ⟨⟩⟩
      obtain ⟨a, ha, hrest⟩ := runs_get.mp h
      cases a with
      | error e =>
          obtain ⟨lost, s₁, hlost, hlast⟩ := Prog.runs_bind.mp hrest
          obtain rfl := runs_generationLost hlost
          split at hlast
          · obtain ⟨rfl, rfl⟩ := Prog.runs_ret.mp hlast
            exact ⟨rfl, by rintro next ⟨⟩⟩
          split at hlast
          · next he =>
              obtain ⟨rfl, rfl⟩ := Prog.runs_ret.mp hlast
              refine ⟨rfl, ?_⟩
              rintro next ⟨⟩
              -- a failed read would have reported something
              rcases ha with ha | ⟨e', hne, he'⟩
              · rw [handoffOf, (MetaMap.read_eq_error.mp ha.symm).1]
                rfl
              · cases he'
                exact absurd he hne
          · obtain ⟨rfl, rfl⟩ := Prog.runs_ret.mp hlast
            exact ⟨rfl, by rintro next ⟨⟩⟩
      | ok record =>
          simp only at hrest
          split at hrest
          · obtain ⟨rfl, rfl⟩ := Prog.runs_ret.mp hrest
            exact ⟨rfl, by rintro next ⟨⟩⟩
          · exact ih hrest

theorem runs_checkEndpoint {r : OpticalLibraryHandoffRecord} {target : Bool}
    {a : Except NamespaceStatus Unit} (h : (checkEndpoint r target).Runs i s a s') : s' = s := by
  obtain ⟨entry, h⟩ := runs_ask.mp h
  cases entry with
  | none => exact (Prog.runs_ret.mp h).2
  | some view =>
      simp only at h
      split at h
      · exact (Prog.runs_ret.mp h).2
      obtain ⟨receipt, h⟩ := runs_ask.mp h
      cases receipt with
      | none => exact (Prog.runs_ret.mp h).2
      | some receipt =>
          simp only at h
          split at h <;> exact (Prog.runs_ret.mp h).2

/-- A commit to a free source writes at most its own handoff. -/
theorem runs_commitNewHandoff {r : OpticalLibraryHandoffRecord}
    {reply : CommitOpticalLibraryHandoffReply}
    (h : (commitNewHandoff digest r).Runs i s reply s') :
    (reply.committed = false ∧ s' = s) ∨
    (reply.committed = true ∧ handoffOf s.db r.target.nodeId = none ∧
      s' = { s with db := s.db.insert (.opticalLibraryHandoff r.source.nodeId) (canonical r) }) := by
  obtain ⟨a, s₁, hsource, h⟩ := Prog.runs_bind.mp h
  obtain rfl := runs_checkEndpoint hsource
  cases a with
  | error status =>
      obtain ⟨rfl, rfl⟩ := Prog.runs_ret.mp h
      exact .inl ⟨rfl, rfl⟩
  | ok u =>
  obtain ⟨a, s₂, htarget, h⟩ := Prog.runs_bind.mp h
  obtain rfl := runs_checkEndpoint htarget
  cases a with
  | error status =>
      obtain ⟨rfl, rfl⟩ := Prog.runs_ret.mp h
      exact .inl ⟨rfl, rfl⟩
  | ok u =>
  obtain ⟨a, s₃, hresolve, h⟩ := Prog.runs_bind.mp h
  obtain ⟨rfl, hend⟩ := runs_resolveHandoffs hresolve
  cases a with
  | error e =>
      obtain ⟨rfl, rfl⟩ := Prog.runs_ret.mp h
      exact .inl ⟨rfl, rfl⟩
  | ok next =>
      simp only at h
      split at h
      · obtain ⟨rfl, rfl⟩ := Prog.runs_ret.mp h
        exact .inl ⟨rfl, rfl⟩
      · next hnode =>
          obtain ⟨a, s₄, hwrite, hlast⟩ := Prog.runs_bind.mp h
          rcases runs_writeBatch.mp hwrite with ⟨rfl, rfl⟩ | ⟨⟨e, -, rfl⟩, rfl⟩
          · obtain ⟨rfl, rfl⟩ := Prog.runs_ret.mp hlast
            exact .inr ⟨rfl, not_not.mp hnode ▸ hend next rfl, rfl⟩
          · obtain ⟨rfl, rfl⟩ := Prog.runs_ret.mp hlast
            exact .inl ⟨rfl, rfl⟩

/-- A reply that refuses a request whose record is not the stored one. -/
theorem HandoffStep.of_other {db : MetaMap} {request : CommitOpticalLibraryHandoffRequest}
    {reply : CommitOpticalLibraryHandoffReply} {r : OpticalLibraryHandoffRecord}
    (hrecord : request.record = some r) (hreply : reply.committed = false)
    (hother : db.lookup (.opticalLibraryHandoff r.source.nodeId) ≠ some (canonical r)) :
    HandoffStep digest db request reply db := by
  refine .refused hreply fun r' hr' _ hlookup => ?_
  cases hrecord.symm.trans hr'
  exact absurd hlookup hother

theorem handoffStep_of_runs {request : CommitOpticalLibraryHandoffRequest}
    {reply : CommitOpticalLibraryHandoffReply}
    (h : (commitOpticalLibraryHandoff digest request).Runs i s reply s') :
    HandoffStep digest s.db request reply s'.db := by
  unfold commitOpticalLibraryHandoff at h
  split at h
  · next hnone =>
      obtain ⟨rfl, rfl⟩ := Prog.runs_ret.mp h
      exact .refused rfl fun r hr => by simp [hnone] at hr
  next r hrecord =>
  split at h
  · next hinvalid =>
      obtain ⟨rfl, rfl⟩ := Prog.runs_ret.mp h
      refine .refused rfl fun r' hr' hvalid => ?_
      cases hrecord.symm.trans hr'
      simp [hvalid] at hinvalid
  next hvalid =>
  -- a read of the source that fails is reported as such
  have hread : ∀ {a : Except String OpticalLibraryHandoffRecord} {e : String},
      (a = s.db.read (.opticalLibraryHandoff r.source.nodeId) ∨ IoError a) → a = .error e →
      e = "" → s.db.lookup (.opticalLibraryHandoff r.source.nodeId) = none := by
    rintro a e (ha | ⟨e', hne, ha⟩) rfl he
    · exact (MetaMap.read_eq_error.mp ha.symm).1
    · cases ha
      exact absurd he hne
  have hstored : ∀ {a : Except String OpticalLibraryHandoffRecord} {old},
      (a = s.db.read (.opticalLibraryHandoff r.source.nodeId) ∨ IoError a) → a = .ok old →
      s.db.lookup (.opticalLibraryHandoff r.source.nodeId) = some old := by
    rintro a old (ha | ⟨e', -, ha⟩) rfl
    · exact MetaMap.read_eq_ok.mp ha.symm
    · cases ha
  split at h
  · -- a query
    obtain ⟨a, ha, hrest⟩ := runs_get.mp h
    cases a with
    | ok old =>
        simp only at hrest
        split at hrest
        · next hold =>
            obtain ⟨rfl, rfl⟩ := Prog.runs_ret.mp hrest
            refine .of_other hrecord rfl ?_
            rw [hstored ha rfl]
            simpa using hold
        · next hold =>
            obtain ⟨rfl, rfl⟩ := Prog.runs_ret.mp hrest
            exact .known hrecord ((hstored ha rfl).trans (by rw [not_not.mp hold])) rfl
    | error e =>
        simp only at hrest
        split at hrest
        · obtain ⟨rfl, rfl⟩ := Prog.runs_ret.mp hrest
          exact .refused rfl fun _ _ _ _ => rfl
        · next he =>
            obtain ⟨rfl, rfl⟩ := Prog.runs_ret.mp hrest
            exact .of_other hrecord rfl (by simp [hread ha rfl (not_not.mp he)])
  · next hcommit =>
    obtain ⟨-, s₁, hbody, -, rfl⟩ := runs_withLock h
    obtain ⟨a, ha, hrest⟩ := runs_get.mp hbody
    cases a with
    | ok old =>
        simp only at hrest
        split at hrest
        · next hold =>
            obtain ⟨rfl, rfl⟩ := Prog.runs_ret.mp hrest
            refine .of_other hrecord rfl ?_
            rw [hstored ha rfl]
            simpa using hold
        · next hold =>
            obtain ⟨rfl, rfl⟩ := Prog.runs_ret.mp hrest
            exact .known hrecord ((hstored ha rfl).trans (by rw [not_not.mp hold])) rfl
    | error e =>
        simp only at hrest
        split at hrest
        · obtain ⟨rfl, rfl⟩ := Prog.runs_ret.mp hrest
          exact .refused rfl fun _ _ _ _ => rfl
        · next he =>
            have hfree := hread ha rfl (not_not.mp he)
            rcases runs_commitNewHandoff hrest with ⟨hreply, rfl⟩ | ⟨hreply, hend, rfl⟩
            · exact .of_other hrecord hreply (by simp [hfree])
            · exact .new hrecord (by simpa using hcommit) (by simpa using hvalid) hfree hend hreply

end Steps

/-! ## Runs -/

/-- A request whose record names its nodes in the generations they have. -/
def GenerationsMatch (generation : Bytes → UInt64) (request : CommitOpticalLibraryHandoffRequest) :
    Prop :=
  ∀ r, request.record = some r → r.source.instanceGeneration = generation r.source.nodeId ∧
    r.target.instanceGeneration = generation r.target.nodeId

/-- The committed handoffs: every chain of them ends, and each was committed by a
    valid request. -/
structure Handoffs (generation : Bytes → UInt64) (db : MetaMap) : Prop where
  settled : Settled (handoffOf db)
  stored : ∀ n r, db.lookup (.opticalLibraryHandoff n) = some r → r.source.nodeId = n ∧
    handoffValid digest r = true ∧ r.source.instanceGeneration = generation n ∧
    r.target.instanceGeneration = generation r.target.nodeId

section Runs

variable {digest} {generation : Bytes → UInt64} {ι : Type} {i : ι} {s s' : MdsState ι}

theorem Handoffs.of_none {db : MetaMap} (h : ∀ n, db.lookup (.opticalLibraryHandoff n) = none) :
    Handoffs digest generation db := by
  refine ⟨settled_of_none fun n => ?_, fun n r hr => ?_⟩
  · rw [handoffOf, h]
    rfl
  · rw [h] at hr
    cases hr

theorem source_ne_target {r : OpticalLibraryHandoffRecord} (h : handoffValid digest r = true) :
    r.source.nodeId ≠ r.target.nodeId := by
  simp only [handoffValid, Bool.and_eq_true, decide_eq_true_eq] at h
  tauto

theorem manifestId_of_valid {r : OpticalLibraryHandoffRecord} (h : handoffValid digest r = true) :
    r.manifestId = manifestId digest r := by
  simp only [handoffValid, Bool.and_eq_true, decide_eq_true_eq] at h
  tauto

theorem Handoffs.step {db db' : MetaMap} {request : CommitOpticalLibraryHandoffRequest}
    {reply : CommitOpticalLibraryHandoffReply} (h : Handoffs digest generation db)
    (hstep : HandoffStep digest db request reply db') (hmatch : GenerationsMatch generation request) :
    Handoffs digest generation db' := by
  cases hstep with
  | refused => exact h
  | known => exact h
  | @new r hrecord _ hvalid hfree hend _ =>
      have hlookup : ∀ n, (db.insert (.opticalLibraryHandoff r.source.nodeId) (canonical r)).lookup
          (.opticalLibraryHandoff n) =
          if n = r.source.nodeId then some (canonical r) else db.lookup (.opticalLibraryHandoff n) := by
        intro n
        split
        · next hn => rw [hn, AList.lookup_insert]
        · next hn => exact AList.lookup_insert_ne (by simpa using hn)
      refine ⟨h.settled.of_forward (a := r.source.nodeId) (b := r.target.nodeId) ?_ hend
        (source_ne_target hvalid) ?_ ?_, fun n r' hr' => ?_⟩
      · rw [handoffOf, hfree]
        rfl
      · rw [handoffOf, hlookup, if_pos rfl]
        rfl
      · intro x hx
        rw [handoffOf, hlookup, if_neg hx, handoffOf]
      · rw [hlookup] at hr'
        split at hr'
        · next hn =>
            cases hr'
            obtain ⟨hsource, htarget⟩ := hmatch r hrecord
            exact ⟨hn.symm, hvalid, hn ▸ hsource, htarget⟩
        · exact h.stored n r' hr'

/-- The states that a sequence of calls can reach. -/
inductive HandoffRun (digest : OpticalLibraryHandoffRecord → Bytes) (generation : Bytes → UInt64)
    (s₀ : MdsState ι) : MdsState ι → Prop
  | start : HandoffRun digest generation s₀ s₀
  | call {i : ι} {s s' : MdsState ι} {request : CommitOpticalLibraryHandoffRequest}
      {reply : CommitOpticalLibraryHandoffReply} : HandoffRun digest generation s₀ s →
      GenerationsMatch generation request →
      (commitOpticalLibraryHandoff digest request).Runs i s reply s' →
      HandoffRun digest generation s₀ s'

theorem handoffs_of_run {s₀ : MdsState ι} (hnone : ∀ n, s₀.db.lookup (.opticalLibraryHandoff n) = none)
    (h : HandoffRun digest generation s₀ s) : Handoffs digest generation s.db := by
  induction h with
  | start => exact .of_none hnone
  | call _ hmatch hrun ih => exact ih.step (handoffStep_of_runs hrun) hmatch

/-! ## Resolution along the committed handoffs -/

variable [DecidableEq ι] {env : Oracle}

/-- The registry knows nodes in the generations they have. -/
def RegistryMatches (generation : Bytes → UInt64) (env : Oracle) : Prop :=
  ∀ n v, env.answer (.getInstanceGeneration n) = some v → v = generation n

theorem run_generationLost {location : OpticalFileLocation} (henv : RegistryMatches generation env)
    (hgen : location.instanceGeneration = 0 ∨
      location.instanceGeneration = generation location.nodeId) :
    Prog.run (MdsOp.exec env i) (generationLost location) s = some (false, s) := by
  unfold generationLost
  split
  · rfl
  · next hne =>
      have hgen := hgen.resolve_left hne
      show Prog.run _ (match env.answer (.getInstanceGeneration location.nodeId) with
        | none => pure false
        | some v => pure (decide (v ≠ location.instanceGeneration))) s = _
      cases hv : env.answer (.getInstanceGeneration location.nodeId) with
      | none => rfl
      | some v =>
          have hsame : v = location.instanceGeneration := (henv _ _ hv).trans hgen.symm
          simp [hsame, Prog.run]

/-- A resolution reaches the end of its chain, or gives up where its steps do not
    suffice. -/
theorem run_resolveHandoffs (h : Handoffs digest generation s.db)
    (henv : RegistryMatches generation env) {k depth : Nat} {visited : List Bytes}
    {location : OpticalFileLocation} {n : Bytes}
    (hchain : Chain (handoffOf s.db) k location.nodeId n) (hend : handoffOf s.db n = none)
    (hgen : location.instanceGeneration = 0 ∨
      location.instanceGeneration = generation location.nodeId)
    (hvisited : ∀ v ∈ visited, ∃ m, Chain (handoffOf s.db) (m + 1) v location.nodeId) :
    (k < depth → ∃ location', Prog.run (MdsOp.exec env i)
      (resolveHandoffs digest depth visited location) s = some (.ok location', s) ∧
      location'.nodeId = n) ∧
    (depth ≤ k → Prog.run (MdsOp.exec env i) (resolveHandoffs digest depth visited location) s =
      some (.error "optical handoff chain too deep", s)) := by
  induction depth generalizing k visited location with
  | zero => exact ⟨fun hlt => absurd hlt (Nat.not_lt_zero k), fun _ => rfl⟩
  | succ depth ih =>
      -- no cycle leads back to a visited node
      have hnew : location.nodeId ∉ visited := by
        intro hmem
        obtain ⟨m, hcycle⟩ := hvisited _ hmem
        exact h.settled.acyclic hcycle
      rw [resolveHandoffs, if_neg hnew, run_get]
      cases hchain with
      | refl =>
          have hread : s.db.read (.opticalLibraryHandoff location.nodeId) = .error "" := by
            rw [MetaMap.read, Option.map_eq_none_iff.mp hend]
          refine ⟨fun _ => ⟨location, ?_, rfl⟩, fun hle => absurd hle (by omega)⟩
          rw [hread]
          simp only
          rw [Prog.run_bind, run_generationLost henv hgen]
          simp [Prog.run]
      | @link k _ c _ hlink hrest =>
          obtain ⟨r, hlookup, rfl⟩ := Option.map_eq_some_iff.mp hlink
          obtain ⟨hsource, hvalid, hgsource, hgtarget⟩ := h.stored _ _ hlookup
          have hread : s.db.read (.opticalLibraryHandoff location.nodeId) = .ok r := by
            rw [MetaMap.read, hlookup]
          have hcheck : ¬ (r.source.nodeId ≠ location.nodeId ∨ r.manifestId ≠ manifestId digest r ∨
              (location.instanceGeneration ≠ 0 ∧
                location.instanceGeneration ≠ r.source.instanceGeneration)) := by
            rintro (hne | hne | ⟨hzero, hne⟩)
            · exact hne hsource
            · exact hne (manifestId_of_valid hvalid)
            · exact hne ((hgen.resolve_left hzero).trans hgsource.symm)
          rw [hread]
          simp only [if_neg hcheck]
          have hvisited' : ∀ v ∈ location.nodeId :: visited,
              ∃ m, Chain (handoffOf s.db) (m + 1) v (handedOver location r).nodeId := by
            intro v hv
            rcases List.mem_cons.mp hv with rfl | hv
            · exact ⟨0, .link hlink (.refl _)⟩
            · obtain ⟨m, hm⟩ := hvisited v hv
              exact ⟨m + 1, hm.snoc hlink⟩
          have hnext := @ih k (location.nodeId :: visited) (handedOver location r) hrest
            (.inr hgtarget) hvisited'
          exact ⟨fun hlt => hnext.1 (by omega), fun hle => hnext.2 (by omega)⟩

/-- Handoffs never form a cycle and are never changed; a call that names a source
    which was handed off changes nothing, and confirms only the handoff that was
    committed; and a location is resolved to the one end of its chain if that is
    fewer than 64 handoffs away, and not at all otherwise. -/
theorem handoffs_settled {s₀ : MdsState ι}
    (hnone : ∀ n, s₀.db.lookup (.opticalLibraryHandoff n) = none)
    (hrun : HandoffRun digest generation s₀ s) :
    (∀ n a, ¬ Chain (handoffOf s.db) (n + 1) a a) ∧
    (∀ i request reply s', (commitOpticalLibraryHandoff digest request).Runs i s reply s' →
      (∀ n r, s.db.lookup (.opticalLibraryHandoff n) = some r →
        s'.db.lookup (.opticalLibraryHandoff n) = some r) ∧
      ∀ r old, request.record = some r →
        s.db.lookup (.opticalLibraryHandoff r.source.nodeId) = some old → s'.db = s.db ∧
          (old = canonical r → reply.committed = true ∨ reply.status.code = .internalError) ∧
          (old ≠ canonical r → reply.committed = false)) ∧
    ∀ node, ∃ k n, Chain (handoffOf s.db) k node n ∧ handoffOf s.db n = none ∧
      (∀ k' n', Chain (handoffOf s.db) k' node n' → handoffOf s.db n' = none → n' = n) ∧
      ∀ env i location, RegistryMatches generation env → location.nodeId = node →
        (location.instanceGeneration = 0 ∨ location.instanceGeneration = generation node) →
        (k < 64 → ∃ location', Prog.run (MdsOp.exec env i)
          (resolveOpticalHandoff digest location) s = some (.ok location', s) ∧
          location'.nodeId = n) ∧
        (64 ≤ k → Prog.run (MdsOp.exec env i) (resolveOpticalHandoff digest location) s =
          some (.error "optical handoff chain too deep", s)) := by
  have h := handoffs_of_run hnone hrun
  refine ⟨fun n a => h.settled.acyclic, fun i request reply s' hcall => ?_, fun node => ?_⟩
  · have hstep := handoffStep_of_runs hcall
    generalize s'.db = db' at hstep
    cases hstep with
    | refused hreply hsame =>
        refine ⟨fun n r hr => hr, fun r old hrecord hold => ⟨rfl, ?_, fun _ => hreply⟩⟩
        rintro rfl
        exact .inr (hsame r hrecord (h.stored _ _ hold).2.1 hold)
    | known hrecord hknown hreply =>
        refine ⟨fun n r hr => hr, fun r old hrecord' hold => ?_⟩
        cases hrecord.symm.trans hrecord'
        cases hknown.symm.trans hold
        exact ⟨rfl, fun _ => .inl hreply, fun hne => absurd rfl hne⟩
    | @new r hrecord _ _ hfree _ _ =>
        refine ⟨fun n r' hr' => ?_, fun r' old hrecord' hold => ?_⟩
        · rw [AList.lookup_insert_ne]
          · exact hr'
          · rintro ⟨⟩
            rw [hfree] at hr'
            cases hr'
        · cases hrecord.symm.trans hrecord'
          rw [hfree] at hold
          cases hold
  · obtain ⟨k, n, hchain, hend⟩ := h.settled node
    refine ⟨k, n, hchain, hend, fun k' n' hchain' hend' => ?_, ?_⟩
    · exact (hchain'.end_unique hend' hchain hend).2
    · rintro env i location henv rfl hgen
      exact run_resolveHandoffs h henv hchain hend hgen (by simp)

end Runs

/-! ## Chains of handoffs -/

/-- A handoff between two nodes in their first generation. -/
def handoffBetween (a b : Bytes) : OpticalLibraryHandoffRecord :=
  let r : OpticalLibraryHandoffRecord :=
    { operationId := [1]
      source := { nodeId := a, instanceGeneration := 1 }
      target := { nodeId := b, instanceGeneration := 1 }
      files := [{}] }
  { r with manifestId := digest r }

/-- The catalog and the endpoints while the handoff is made. -/
def handoffOracle (r : OpticalLibraryHandoffRecord) : Oracle where
  answer
    | .getCommittedNode n => some
        { kind := .opticalLibrary
          executionMode := .physical
          instanceGeneration := 1
          lifecycle := if n = r.target.nodeId then .working else .draining
          health := .healthy
          administrativeState := .enabled
          readiness := some true
          inventoryReady := true }
    | .handoffReceipt endpoint => some (some { r with
        phase := ofAscii (if endpoint.nodeId = r.target.nodeId then "ACTIVE" else "EXPORTED") })
    | q => silentOracle.answer q

section Chains

variable {digest} {ι : Type} [DecidableEq ι] {i : ι} {s : MdsState ι} {a b : Bytes}

theorem run_checkEndpoint (hab : a ≠ b) (target : Bool) :
    Prog.run (MdsOp.exec (handoffOracle (handoffBetween digest a b)) i)
      (checkEndpoint (handoffBetween digest a b) target) s = some (.ok (), s) := by
  have hadmitted : endpointAdmitted target (handoffEndpoint (handoffBetween digest a b) target)
      { kind := .opticalLibrary
        executionMode := .physical
        instanceGeneration := 1
        lifecycle :=
          if (handoffEndpoint (handoffBetween digest a b) target).nodeId = b then .working
          else .draining
        health := .healthy
        administrativeState := .enabled
        readiness := some true
        inventoryReady := true } = true := by
    cases target
    · simp [handoffEndpoint, endpointAdmitted, handoffBetween, hab]
    · simp [handoffEndpoint, endpointAdmitted, handoffBetween]
  have hreceipt : receiptConfirms (handoffBetween digest a b) target { handoffBetween digest a b with
      phase := ofAscii (if (handoffEndpoint (handoffBetween digest a b) target).nodeId = b then
        "ACTIVE" else "EXPORTED") } = true := by
    cases target
    · simp [handoffEndpoint, receiptConfirms, canonical, handoffBetween, hab]
    · simp [handoffEndpoint, receiptConfirms, canonical, handoffBetween]
  unfold checkEndpoint
  rw [run_ask]
  simp only [handoffOracle]
  rw [if_neg]
  · rw [run_ask]
    simp only
    rw [if_pos]
    · rfl
    · exact hreceipt
  · rw [Bool.not_eq_true, Bool.not_eq_false']
    exact hadmitted

theorem run_commitNewHandoff (hab : a ≠ b)
    (htarget : s.db.lookup (.opticalLibraryHandoff b) = none) :
    Prog.run (MdsOp.exec (handoffOracle (handoffBetween digest a b)) i)
      (commitNewHandoff digest (handoffBetween digest a b)) s =
    some (⟨⟨.ok, "committed"⟩, true⟩, { s with
      db := s.db.insert (.opticalLibraryHandoff a) (canonical (handoffBetween digest a b)) }) := by
  have hread : s.db.read (.opticalLibraryHandoff (handoffBetween digest a b).target.nodeId) =
      .error "" := MetaMap.read_eq_error.mpr ⟨htarget, rfl⟩
  have hresolve : Prog.run (MdsOp.exec (handoffOracle (handoffBetween digest a b)) i)
      (resolveOpticalHandoff digest (handoffBetween digest a b).target) s =
      some (.ok (handoffBetween digest a b).target, s) := by
    rw [resolveOpticalHandoff, resolveHandoffs, if_neg (by simp), run_get, hread]
    rfl
  rw [commitNewHandoff, Prog.run_bind, run_checkEndpoint hab, Option.bind_some]
  simp only
  rw [Prog.run_bind, run_checkEndpoint hab, Option.bind_some]
  simp only
  rw [Prog.run_bind, hresolve, Option.bind_some]
  simp only [ne_eq, not_true_eq_false, if_false]
  rfl

/-- A handoff between two nodes that were not handed off is committed. -/
theorem run_commitOpticalLibraryHandoff (hab : a ≠ b) (ha : a ≠ []) (hb : b ≠ [])
    (hlock : s.owner .fileMigration = none)
    (hsource : s.db.lookup (.opticalLibraryHandoff a) = none)
    (htarget : s.db.lookup (.opticalLibraryHandoff b) = none) :
    Prog.run (MdsOp.exec (handoffOracle (handoffBetween digest a b)) i)
      (commitOpticalLibraryHandoff digest ⟨some (handoffBetween digest a b), true⟩) s =
    some (⟨⟨.ok, "committed"⟩, true⟩, { s with
      db := s.db.insert (.opticalLibraryHandoff a) (canonical (handoffBetween digest a b)) }) := by
  have hvalid : handoffValid digest (handoffBetween digest a b) = true := by
    simp [handoffValid, handoffBetween, manifestId, hab, ha, hb]
  have hread : s.db.read (.opticalLibraryHandoff (handoffBetween digest a b).source.nodeId) =
      .error "" := MetaMap.read_eq_error.mpr ⟨hsource, rfl⟩
  have howner : Function.update (Function.update s.owner .fileMigration (some i))
      .fileMigration none = s.owner := by
    rw [Function.update_idem, ← hlock, Function.update_eq_self]
  unfold commitOpticalLibraryHandoff
  simp only [hvalid, Bool.not_true, Bool.false_eq_true, if_false]
  rw [run_withLock hlock, run_get, hread]
  simp only [ne_eq, not_true_eq_false, if_false]
  rw [run_commitNewHandoff (s := { s with owner := Function.update s.owner .fileMigration (some i) })
    hab htarget, Option.bind_some, if_pos (Function.update_self ..)]
  simp only [howner]

/-- Nodes that were not handed off can be handed off one after the other. -/
theorem handoffRun_of_nodes (i : ι) {s₀ : MdsState ι} {nodes : List Bytes}
    (hrun : HandoffRun digest (fun _ => 1) s₀ s) (hlock : s.owner .fileMigration = none)
    (hdistinct : (a :: nodes).Nodup) (hnames : [] ∉ a :: nodes)
    (hfree : ∀ n ∈ a :: nodes, s.db.lookup (.opticalLibraryHandoff n) = none) :
    ∃ s', HandoffRun digest (fun _ => 1) s₀ s' ∧
      (∀ n r, s.db.lookup (.opticalLibraryHandoff n) = some r →
        s'.db.lookup (.opticalLibraryHandoff n) = some r) ∧
      ∃ n, Chain (handoffOf s'.db) nodes.length a n ∧ handoffOf s'.db n = none := by
  induction nodes generalizing a s with
  | nil =>
      refine ⟨s, hrun, fun n r hr => hr, a, .refl a, ?_⟩
      rw [handoffOf, hfree a (by simp)]
      rfl
  | cons b nodes ih =>
      obtain ⟨hnotin, hrest⟩ := List.nodup_cons.mp hdistinct
      have hab : a ≠ b := fun heq => hnotin (heq ▸ List.mem_cons_self)
      have ha : a ≠ [] := fun hnil => hnames (hnil ▸ List.mem_cons_self)
      have hb : b ≠ [] := fun hnil => hnames (hnil ▸ List.mem_cons_of_mem _ List.mem_cons_self)
      have hcall : (commitOpticalLibraryHandoff digest ⟨some (handoffBetween digest a b), true⟩).Runs
          i s _ _ := runs_of_exec (run_commitOpticalLibraryHandoff hab ha hb hlock
            (hfree a List.mem_cons_self) (hfree b (by simp)))
      have hkeep : ∀ n, n ≠ a → (s.db.insert (.opticalLibraryHandoff a)
          (canonical (handoffBetween digest a b))).lookup (.opticalLibraryHandoff n) =
          s.db.lookup (.opticalLibraryHandoff n) := by
        intro n hn
        exact AList.lookup_insert_ne (by simpa using hn)
      have hmatch : GenerationsMatch (fun _ => 1) ⟨some (handoffBetween digest a b), true⟩ := by
        rintro r ⟨⟩
        exact ⟨rfl, rfl⟩
      obtain ⟨s', hrun', hgrows, n, hchain, hend⟩ := ih (.call hrun hmatch hcall) hlock hrest
        (fun hmem => hnames (List.mem_cons_of_mem _ hmem)) (fun n hn => by
          rw [hkeep n (fun heq => hnotin (heq ▸ hn))]
          exact hfree n (List.mem_cons_of_mem _ hn))
      refine ⟨s', hrun', fun m r hr => hgrows m r ?_, n, .link ?_ hchain, hend⟩
      · rw [hkeep m]
        · exact hr
        · rintro rfl
          rw [hfree m List.mem_cons_self] at hr
          cases hr
      · rw [handoffOf, hgrows a _ (AList.lookup_insert _)]
        rfl

end Chains

/-- A server without handoffs. -/
def noHandoffs : MdsState Unit := ⟨∅, fun _ => none, []⟩

/-- After one handoff, locations on its source are resolved. -/
theorem handoff_resolved : ∃ location : OpticalFileLocation,
    ∀ digest : OpticalLibraryHandoffRecord → Bytes, ∃ s location',
      HandoffRun digest (fun _ => 1) noHandoffs s ∧
      Prog.run (MdsOp.exec silentOracle ()) (resolveOpticalHandoff digest location) s =
        some (.ok location', s) ∧
      location'.nodeId ≠ location.nodeId ∧ handoffOf s.db location'.nodeId = none := by
  refine ⟨{ nodeId := [1] }, fun digest => ?_⟩
  have hnone : ∀ n, noHandoffs.db.lookup (.opticalLibraryHandoff n) = none := fun n => rfl
  have hstart : HandoffRun digest (fun _ => 1) noHandoffs noHandoffs := .start
  have hdistinct : ([[1], [2]] : List Bytes).Nodup := by decide
  obtain ⟨s, hrun, -, n, hchain, hend⟩ := handoffRun_of_nodes () hstart rfl hdistinct (by decide)
    fun n _ => hnone n
  obtain ⟨hacyclic, -, hresolve⟩ := handoffs_settled hnone hrun
  obtain ⟨k, n', hchain', hend', -, hresolve⟩ := hresolve [1]
  obtain ⟨rfl, rfl⟩ := hchain.end_unique hend hchain' hend'
  obtain ⟨hok, -⟩ := hresolve silentOracle () { nodeId := [1] } (by rintro n v ⟨⟩) rfl (.inl rfl)
  obtain ⟨location', hlocation, hnode⟩ := hok (by decide)
  refine ⟨s, location', hrun, hlocation, fun heq => ?_, hnode ▸ hend⟩
  obtain rfl : n = [1] := hnode.symm.trans heq
  exact hacyclic 0 [1] hchain

/-- After 64 handoffs in a row, locations on the first source are no longer
    resolved. -/
theorem long_chain_not_resolved : ∃ location : OpticalFileLocation,
    ∀ digest : OpticalLibraryHandoffRecord → Bytes, ∃ s : MdsState Unit,
      HandoffRun digest (fun _ => 1) noHandoffs s ∧
      (∃ n, Chain (handoffOf s.db) 64 location.nodeId n ∧ handoffOf s.db n = none) ∧
      Prog.run (MdsOp.exec silentOracle ()) (resolveOpticalHandoff digest location) s =
        some (.error "optical handoff chain too deep", s) := by
  refine ⟨{ nodeId := [1] }, fun digest => ?_⟩
  have hnone : ∀ n, noHandoffs.db.lookup (.opticalLibraryHandoff n) = none := fun n => rfl
  let nodes : List Bytes := (List.range 64).map fun i => [UInt8.ofNat (i + 2)]
  have hstart : HandoffRun digest (fun _ => 1) noHandoffs noHandoffs := .start
  have hdistinct : ([1] :: nodes).Nodup := by decide +kernel
  obtain ⟨s, hrun, -, n, hchain, hend⟩ := handoffRun_of_nodes () hstart rfl hdistinct
    (by decide +kernel) fun n _ => hnone n
  refine ⟨s, hrun, ⟨n, hchain, hend⟩, ?_⟩
  exact (run_resolveHandoffs (handoffs_of_run hnone hrun) (by rintro n v ⟨⟩) hchain hend (.inl rfl)
    (by simp)).2 le_rfl

end Zb.Mds
