-- SUMMARY: Runs with passes: undisturbed ones revoke no live lease, and every expired one is reset.
import ZBStorage.Mds.Archive.ReconciliationProgress

/-!
# Runs with reconciliation passes

One thread runs the passes, one operation at a time. Between its operations lease calls
run whole, under the mutex of the lease manager, and other handlers write inodes. A file
is touched if somebody else changed its lease record or wrote its inode since the pass
began.
-/

namespace Zb.Mds

open Zb.Rpc Bytes Prog CallHistory Reconciler

variable {ι : Type}

/-! ## The machine -/

structure Archiver (ι : Type) extends TimedState ι where
  pass : Option (Reconciler (Bool × String)) := none
  touched : List UInt64 := []

inductive ArchiverCall (ι : Type)
  | lease (thread : ι) (call : LeaseCall) (reply : LeaseReply)
  /-- a batch of another handler -/
  | write (batch : WriteBatch)
  | start (maxRecords : UInt32)
  | pass (o : ReconcileOp) (r : o.Res)
  | finish

/-- The file whose lease record or inode is stored under a key. -/
def MetaKey.file : MetaKey → Option UInt64
  | .inode inodeId | .fileArchiveState inodeId => some inodeId
  | _ => none

/-- Other handlers only delete lease records. -/
def Foreign (batch : WriteBatch) : Prop :=
  ∀ inodeId record, .put (.fileArchiveState inodeId) record ∉ batch

/-- A lease call touches its file if it changes anything. -/
def Touches (s t : TimedState ι) (inodeId : UInt64) (touched touched' : List UInt64) : Prop :=
  (t.db = s.db ∧ touched' = touched) ∨ (t.db ≠ s.db ∧ touched' = inodeId :: touched)

inductive Archiver.Serve (options : ArchiveLeaseManager.Options) :
    Archiver ι → ArchiverCall ι → Archiver ι → Prop
  | lease {s : Archiver ι} {thread : ι} {call : LeaseCall} {reply : LeaseReply}
      {t : TimedState ι} {touched : List UInt64} :
      (call.prog options).RunsTimed thread s.toTimedState reply t →
      Touches s.toTimedState t call.inodeId s.touched touched →
      Serve options s (.lease thread call reply) ⟨t, s.pass, touched⟩
  | write {s : Archiver ι} {batch : WriteBatch} : Foreign batch →
      Serve options s (.write batch) { s with
        db := s.db.write batch
        touched := batch.filterMap (fun e => e.key.file) ++ s.touched }
  | start {s : Archiver ι} {maxRecords : UInt32} : s.pass = none →
      Serve options s (.start maxRecords) { s with
        pass := some (reconcileArchiveStates maxRecords)
        touched := [] }
  | pass {s : Archiver ι} {o : ReconcileOp} {k : o.Res → Reconciler (Bool × String)} {r : o.Res}
      {t : TimedState ι} : s.pass = some (.call o k) → o.Sem s.toTimedState r t →
      Serve options s (.pass o r) ⟨t, some (k r), s.touched⟩
  | finish {s : Archiver ι} {a : Bool × String} : s.pass = some (.ret a) →
      Serve options s .finish { s with pass := none }

/-- What the pass is about to do, it does to files that nobody touched; and where it drops
    the record of an archived file, nobody holds a lease on it. -/
def Archiver.Untouched (s : Archiver ι) : ArchiverCall ι → Prop
  | .pass (.writeBatch batch) _ => ∀ e ∈ batch, ∀ inodeId, e.key = .fileArchiveState inodeId →
      inodeId ∉ s.touched ∧ (located s.db inodeId = true →
        ∀ record, s.db.lookup (.fileArchiveState inodeId) = some record → ¬Live s.clock record)
  | .pass (.put inodeId payload) _ => SaysPending payload → inodeId ∉ s.touched
  | .pass (.updateFileArchiveState _ request) _ =>
      request.archiveState = .pending → request.inodeId ∉ s.touched
  | _ => True

/-- The batch leaves live leases as they are and creates no record; `PENDING` is pushed for
    files that are neither archived nor claimed. -/
def Archiver.Respectful (e : Served (Archiver ι) (ArchiverCall ι)) : Prop :=
  match e.call with
  | .pass (.writeBatch _) _ => ∀ inodeId,
      (∀ record, e.before.db.lookup (.fileArchiveState inodeId) = some record →
        Live e.before.clock record →
        e.after.db.lookup (.fileArchiveState inodeId) = some record) ∧
      (e.before.db.lookup (.fileArchiveState inodeId) = none →
        e.after.db.lookup (.fileArchiveState inodeId) = none)
  | .pass (.put inodeId payload) _ =>
      SaysPending payload → Free inodeId ⟨e.before.db, e.before.clock⟩
  | .pass (.updateFileArchiveState _ request) _ =>
      request.archiveState = .pending → Free request.inodeId ⟨e.before.db, e.before.clock⟩
  | _ => True

/-! ## Lease calls -/

section Leases

variable {options : ArchiveLeaseManager.Options} {thread : ι} {s t : TimedState ι}
  {call : LeaseCall} {reply : LeaseReply}

theorem clock_le_of_runs {α : Type} {h : Handler α} {a : α} (hrun : h.RunsTimed thread s a t) :
    s.clock ≤ t.clock := by
  induction hrun with
  | ret => exact UInt64.le_refl _
  | @call o k s t' t r a hsem _ ih =>
      refine UInt64.le_trans ?_ ih
      have hticks := hsem.2
      cases o with
      | nowMilliseconds => exact hticks.2 ▸ hticks.1
      | _ => exact hticks ▸ UInt64.le_refl _

/-- A call writes the record of its file and nothing else. -/
theorem LeaseStep.frame (hkeyed : LeasesKeyed s) (h : LeaseStep options s call reply t)
    {k : MetaKey} (hk : k ≠ .fileArchiveState call.inodeId) : t.db.lookup k = s.db.lookup k := by
  cases h with
  | unchanged hdb _ _ => rw [hdb]
  | reset hload _ _ _ _ _ hdb _ =>
      rw [hdb, hload.inodeId hkeyed]
      exact AList.lookup_insert_ne hk
  | held _ _ _ hdb _ => rw [hdb]
  | granted hload _ _ _ _ _ _ hdb _ =>
      rw [hdb, hload.inodeId hkeyed]
      exact AList.lookup_insert_ne hk
  | renewed hstored _ _ _ _ _ hdb _ =>
      rw [hdb, hkeyed.keyed hstored]
      exact AList.lookup_insert_ne hk
  | released hstored _ _ _ _ _ hdb _ =>
      rw [hdb, hkeyed.keyed hstored]
      exact AList.lookup_insert_ne hk
  | dropped _ _ hdb _ =>
      rw [hdb]
      exact AList.lookup_erase_ne hk

/-- There is no inode zero to lease. -/
theorem db_of_zero (hzero : call.inodeId = 0)
    (h : (call.prog options).RunsTimed thread s reply t) : t.db = s.db := by
  cases call with
  | claim request =>
      obtain ⟨r, s₁, hrun, hret⟩ := Prog.runs_bind.mp h
      have hzero : request.inodeId = 0 := hzero
      rw [ArchiveLeaseManager.claim, if_pos hzero] at hrun
      rw [(Prog.runs_ret.mp hret).2, (Prog.runs_ret.mp hrun).2]
  | renew request =>
      obtain ⟨r, s₁, hrun, hret⟩ := Prog.runs_bind.mp h
      have hzero : request.inodeId = 0 := hzero
      rw [ArchiveLeaseManager.renew, if_pos (.inl hzero)] at hrun
      rw [(Prog.runs_ret.mp hret).2, (Prog.runs_ret.mp hrun).2]
  | commit request =>
      obtain ⟨r, s₁, hrun, hret⟩ := Prog.runs_bind.mp h
      have hzero : request.inodeId = 0 := hzero
      rw [ArchiveLeaseManager.commit, if_pos hzero] at hrun
      rw [(Prog.runs_ret.mp hret).2, (Prog.runs_ret.mp hrun).2]

end Leases

/-! ## The invariant -/

/-- The view of a file is what is stored. -/
structure Agrees (inodeId : UInt64) (view : View) (s : TimedState ι) : Prop where
  lease : view.db.lookup (.fileArchiveState inodeId) = s.db.lookup (.fileArchiveState inodeId)
  inode : view.db.lookup (.inode inodeId) = s.db.lookup (.inode inodeId)
  now : view.now ≤ s.clock

/-- The rest of a pass, for a file that nobody touched. -/
def OnTrack (s : TimedState ι) (p : Reconciler (Bool × String)) (inodeId : UInt64) : Prop :=
  ∃ view, Agrees inodeId view s ∧ Wp (Guard inodeId) (Moves inodeId) p (fun _ _ => True) view

structure Archiver.Sound (s : Archiver ι) : Prop where
  keyed : LeasesKeyed s.toTimedState
  nonzero : s.db.lookup (.fileArchiveState 0) = none
  onTrack : ∀ p, s.pass = some p → ∀ inodeId ∉ s.touched, OnTrack s.toTimedState p inodeId

section Sound

variable {s t : TimedState ι} {inodeId : UInt64} {view : View}

theorem Agrees.located (h : Agrees inodeId view s) : located view.db inodeId = located s.db inodeId := by
  rw [Reconciler.located, Reconciler.located, h.inode]

theorem Agrees.free (h : Agrees inodeId view s) (hfree : Free inodeId view) :
    Free inodeId ⟨s.db, s.clock⟩ where
  notLocated := h.located ▸ hfree.notLocated
  notHeld record hstored := hfree.notHeld record (h.lease.trans hstored)

/-- What is written under a key depends on what was stored there. -/
theorem lookup_write_congr {db db' : MetaMap} {k : MetaKey} (batch : WriteBatch)
    (h : db.lookup k = db'.lookup k) : (db.write batch).lookup k = (db'.write batch).lookup k := by
  induction batch generalizing db db' with
  | nil => exact h
  | cons e batch ih =>
      rw [MetaMap.write_cons, MetaMap.write_cons]
      apply ih
      cases e with
      | put k' v =>
          by_cases hk : k = k'
          · subst hk
            rw [BatchEntry.apply_put, BatchEntry.apply_put, AList.lookup_insert, AList.lookup_insert]
          · rw [BatchEntry.apply_put, BatchEntry.apply_put, AList.lookup_insert_ne hk,
              AList.lookup_insert_ne hk, h]
      | delete k' =>
          by_cases hk : k = k'
          · subst hk
            rw [BatchEntry.apply_delete, BatchEntry.apply_delete, AList.lookup_erase,
              AList.lookup_erase]
          · rw [BatchEntry.apply_delete, BatchEntry.apply_delete, AList.lookup_erase_ne hk,
              AList.lookup_erase_ne hk, h]

/-- A file that nobody touched stays on track. -/
theorem OnTrack.frame {p : Reconciler (Bool × String)} (h : OnTrack s p inodeId)
    (hlease : t.db.lookup (.fileArchiveState inodeId) = s.db.lookup (.fileArchiveState inodeId))
    (hinode : t.db.lookup (.inode inodeId) = s.db.lookup (.inode inodeId))
    (hclock : s.clock ≤ t.clock) : OnTrack t p inodeId := by
  obtain ⟨view, hagrees, hwp⟩ := h
  exact ⟨view, ⟨hagrees.lease.trans hlease.symm, hagrees.inode.trans hinode.symm,
    UInt64.le_trans hagrees.now hclock⟩, hwp⟩

/-- An operation of the pass keeps the files on track, its own and others. -/
theorem OnTrack.step {o : ReconcileOp} {k : o.Res → Reconciler (Bool × String)} {r : o.Res}
    (h : OnTrack s (.call o k) inodeId) (hkeyed : LeasesKeyed s)
    (hnonzero : s.db.lookup (.fileArchiveState 0) = none) (hsem : o.Sem s r t) :
    OnTrack t (k r) inodeId := by
  obtain ⟨view, hagrees, -, hwp⟩ := h
  have hnext : ∀ view', Moves inodeId o view r view' → Agrees inodeId view' t →
      OnTrack t (k r) inodeId := fun view' hmoves h => ⟨view', h, hwp r view' hmoves⟩
  cases o with
  | now =>
      obtain ⟨-, -, rfl⟩ := hsem
      exact hnext { view with now := r } rfl ⟨hagrees.lease, hagrees.inode, UInt64.le_refl _⟩
  | newIterator =>
      obtain ⟨hpre, rfl⟩ := hsem
      have hfound : ∀ e ∈ r, t.db.lookup (.fileArchiveState e.1) = some e.2 :=
        fun e hmem => MetaMap.mem_leases.mp (hpre.subset hmem)
      refine hnext view ⟨rfl, fun e hmem => ⟨hkeyed.keyed (hfound e hmem), fun hzero => ?_⟩,
        fun record hmem => ?_⟩ hagrees
      · have hstored := hfound e hmem
        rw [hzero, hnonzero] at hstored
        exact nomatch hstored
      · exact hagrees.lease.trans (hfound _ hmem)
  | get id =>
      obtain ⟨hread, rfl⟩ := hsem
      refine hnext view ⟨rfl, fun heq => ?_⟩ hagrees
      subst heq
      rw [MetaMap.read, hagrees.inode]
      exact hread
  | put id payload =>
      rcases hsem with ⟨hok, rfl⟩ | ⟨herror, rfl⟩
      · refine hnext { view with db := view.db.insert (.inode id) payload } (.inl ⟨hok, rfl⟩) ?_
        refine ⟨?_, ?_, hagrees.now⟩
        · rw [AList.lookup_insert_ne (by rintro ⟨⟩), AList.lookup_insert_ne (by rintro ⟨⟩)]
          exact hagrees.lease
        · have hinode := hagrees.inode
          rw [MetaMap.lookup_inode_insert_inode, MetaMap.lookup_inode_insert_inode, hinode]
      · exact hnext view (.inr ⟨herror, rfl⟩) hagrees
  | writeBatch batch =>
      rcases hsem with ⟨hok, rfl⟩ | ⟨herror, rfl⟩
      · refine hnext { view with db := view.db.write batch } (.inl ⟨hok, rfl⟩) ?_
        exact ⟨lookup_write_congr batch hagrees.lease, lookup_write_congr batch hagrees.inode,
          hagrees.now⟩
      · exact hnext view (.inr ⟨herror, rfl⟩) hagrees
  | resolveDiskId nodeId diskId =>
      obtain rfl : t = s := hsem
      exact hnext view rfl hagrees
  | resolveNodeAddress nodeId =>
      obtain rfl : t = s := hsem
      exact hnext view rfl hagrees
  | updateFileArchiveState nodeAddress request =>
      obtain rfl : t = s := hsem
      exact hnext view rfl hagrees

theorem OnTrack.guard {o : ReconcileOp} {k : o.Res → Reconciler (Bool × String)}
    (h : OnTrack s (.call o k) inodeId) : ∃ view, Agrees inodeId view s ∧ Guard inodeId view o := by
  obtain ⟨view, hagrees, hguard, -⟩ := h
  exact ⟨view, hagrees, hguard⟩

end Sound

/-! ## Runs -/

section Runs

variable {options : ArchiveLeaseManager.Options} {s s₀ t : Archiver ι}
  {hist : List (Served (Archiver ι) (ArchiverCall ι))}

theorem Archiver.Sound.lease {t : TimedState ι} {thread : ι} {call : LeaseCall} {reply : LeaseReply}
    {touched : List UInt64} (h : s.Sound)
    (hrun : (call.prog options).RunsTimed thread s.toTimedState reply t)
    (htouched : Touches s.toTimedState t call.inodeId s.touched touched) :
    Archiver.Sound ⟨t, s.pass, touched⟩ := by
  have hstep := step_of_runs hrun
  refine ⟨h.keyed.step hstep, ?_, fun p hp inodeId hnot => ?_⟩
  · by_cases hzero : call.inodeId = 0
    · show t.db.lookup _ = none
      rw [db_of_zero hzero hrun]
      exact h.nonzero
    · refine (hstep.frame h.keyed fun heq => hzero ?_).trans h.nonzero
      exact (MetaKey.fileArchiveState.inj heq).symm
  · rcases htouched with ⟨hsame, rfl⟩ | ⟨-, rfl⟩
    · exact (h.onTrack p hp inodeId hnot).frame (by rw [hsame]) (by rw [hsame])
        (clock_le_of_runs hrun)
    · obtain ⟨hne, hnot⟩ := not_or.mp (List.mem_cons.not.mp hnot)
      refine (h.onTrack p hp inodeId hnot).frame (hstep.frame h.keyed ?_)
        (hstep.frame h.keyed (by rintro ⟨⟩)) (clock_le_of_runs hrun)
      exact fun heq => hne (MetaKey.fileArchiveState.inj heq)

/-- No record appears that a batch does not put. -/
theorem Foreign.stored {batch : WriteBatch} (h : Foreign batch) {db : MetaMap} {inodeId : UInt64}
    {record : ArchiveLeaseRecord}
    (hstored : (db.write batch).lookup (.fileArchiveState inodeId) = some record) :
    db.lookup (.fileArchiveState inodeId) = some record := by
  rcases MetaMap.lookup_write db batch (.fileArchiveState inodeId) with hsame | hset
  · rwa [hsame] at hstored
  · rw [hstored] at hset
    exact absurd hset (h inodeId record)

theorem Archiver.Sound.write {batch : WriteBatch} (h : s.Sound) (hforeign : Foreign batch) :
    Archiver.Sound { s with
      db := s.db.write batch
      touched := batch.filterMap (fun e => e.key.file) ++ s.touched } := by
  refine ⟨⟨fun hstored => h.keyed.keyed (hforeign.stored hstored),
    fun hstored => h.keyed.issued (hforeign.stored hstored), h.keyed.nonempty⟩, ?_,
    fun p hp inodeId hnot => ?_⟩
  · cases hstored : (s.db.write batch).lookup (.fileArchiveState 0) with
    | none => rfl
    | some record =>
        have hbefore := hforeign.stored hstored
        rw [h.nonzero] at hbefore
        exact nomatch hbefore
  · obtain ⟨hkeys, hnot⟩ := not_or.mp (List.mem_append.not.mp hnot)
    have hother : ∀ k : MetaKey, k.file = some inodeId → ∀ e ∈ batch, e.key ≠ k :=
      fun k hk e hmem heq => hkeys (List.mem_filterMap.mpr ⟨e, hmem, heq ▸ hk⟩)
    refine (h.onTrack p hp inodeId hnot).frame ?_ ?_ (UInt64.le_refl _)
    · exact MetaMap.lookup_write_of_notMem (hother (.fileArchiveState inodeId) rfl)
    · exact MetaMap.lookup_write_of_notMem (hother (.inode inodeId) rfl)

/-- What an undisturbed batch does to a lease record: it resets one that is not live, drops
    the one of an archived file, or leaves it alone. -/
theorem Archiver.Sound.batch {batch : WriteBatch} {k : Except String Unit → Reconciler (Bool × String)}
    {r : Except String Unit} (h : s.Sound) (hpass : s.pass = some (.call (.writeBatch batch) k))
    (hok : Archiver.Untouched s (.pass (.writeBatch batch) r)) (inodeId : UInt64) :
    (s.db.write batch).lookup (.fileArchiveState inodeId) =
        s.db.lookup (.fileArchiveState inodeId) ∨
      ∃ record, s.db.lookup (.fileArchiveState inodeId) = some record ∧ ¬Live s.clock record ∧
        ∀ record', (s.db.write batch).lookup (.fileArchiveState inodeId) = some record' →
          record'.state = .pending ∧ record'.inodeId = inodeId := by
  by_cases hmem : ∃ e ∈ batch, e.key = .fileArchiveState inodeId
  · obtain ⟨e, hmem, hkey⟩ := hmem
    obtain ⟨hnot, hdropped⟩ := hok e hmem inodeId hkey
    obtain ⟨view, hagrees, hguard⟩ := (h.onTrack _ hpass inodeId hnot).guard
    have hset := sets_of_mem s.db ⟨e, hmem, hkey⟩
    have hjustified : Justified inodeId view batch := hguard
    cases hwritten : (s.db.write batch).lookup (.fileArchiveState inodeId) with
    | some record' =>
        rw [hwritten] at hset
        obtain ⟨hpending, hid, record, hstored, hdead⟩ := hjustified.puts record' hset
        refine .inr ⟨record, hagrees.lease ▸ hstored, fun hlive => hdead ⟨hlive.1, ?_⟩,
          fun other hother => ?_⟩
        · exact UInt64.lt_of_le_of_lt hagrees.now hlive.2
        · rw [← Option.some.inj hother]
          exact ⟨hpending, hid⟩
    | none =>
        rw [hwritten] at hset
        have hlocated := hagrees.located ▸ hjustified.deletes hset
        cases hstored : s.db.lookup (.fileArchiveState inodeId) with
        | none => exact .inl rfl
        | some record =>
            exact .inr ⟨record, rfl, hdropped hlocated record hstored, fun _ h => nomatch h⟩
  · refine .inl (MetaMap.lookup_write_of_notMem fun e he hkey => hmem ⟨e, he, hkey⟩)

theorem Archiver.Sound.pass {o : ReconcileOp} {k : o.Res → Reconciler (Bool × String)} {r : o.Res}
    {t : TimedState ι} (h : s.Sound) (hpass : s.pass = some (.call o k))
    (hok : Archiver.Untouched s (.pass o r)) (hsem : o.Sem s.toTimedState r t) :
    Archiver.Sound ⟨t, some (k r), s.touched⟩ := by
  have htrack : ∀ p, some (k r) = some p → ∀ inodeId ∉ s.touched, OnTrack t p inodeId := by
    rintro p ⟨⟩ inodeId hnot
    exact (h.onTrack _ hpass inodeId hnot).step h.keyed h.nonzero hsem
  have hkept : t.db = s.db → t.issued = s.issued → Archiver.Sound ⟨t, some (k r), s.touched⟩ := by
    intro hdb hissued
    refine ⟨⟨fun hstored => h.keyed.keyed (hdb ▸ hstored), fun hstored harchiving => ?_, ?_⟩, ?_,
      htrack⟩
    · exact hissued ▸ h.keyed.issued (hdb ▸ hstored) harchiving
    · exact hissued ▸ h.keyed.nonempty
    · exact hdb ▸ h.nonzero
  cases o with
  | now => exact hkept (by rw [hsem.2.2]) (by rw [hsem.2.2])
  | newIterator => exact hkept (by rw [hsem.2]) (by rw [hsem.2])
  | get id => exact hkept (by rw [hsem.2]) (by rw [hsem.2])
  | put id payload =>
      rcases hsem with ⟨-, rfl⟩ | ⟨-, rfl⟩
      · have hsame : ∀ inodeId, AList.lookup (.fileArchiveState inodeId)
            (s.db.insert (.inode id) payload) = s.db.lookup (.fileArchiveState inodeId) :=
          fun inodeId => AList.lookup_insert_ne (by rintro ⟨⟩)
        exact ⟨⟨fun {inodeId _} hstored => h.keyed.keyed ((hsame inodeId).symm.trans hstored),
          fun {inodeId _} hstored => h.keyed.issued ((hsame inodeId).symm.trans hstored),
          h.keyed.nonempty⟩, (hsame 0).trans h.nonzero, htrack⟩
      · exact hkept rfl rfl
  | writeBatch batch =>
      rcases hsem with ⟨-, rfl⟩ | ⟨-, rfl⟩
      · refine ⟨⟨fun {inodeId record'} hstored => ?_, fun {inodeId record'} hstored harchiving => ?_,
          h.keyed.nonempty⟩, ?_, htrack⟩
        · rcases h.batch hpass hok inodeId with hsame | ⟨-, -, -, hreset⟩
          · exact h.keyed.keyed (hsame.symm.trans hstored)
          · exact (hreset record' hstored).2
        · rcases h.batch hpass hok inodeId with hsame | ⟨-, -, -, hreset⟩
          · exact h.keyed.issued (hsame.symm.trans hstored) harchiving
          · rw [(hreset record' hstored).1] at harchiving
            exact nomatch harchiving
        · rcases h.batch hpass hok 0 with hsame | ⟨record, hstored, -⟩
          · exact hsame.trans h.nonzero
          · rw [h.nonzero] at hstored
            exact nomatch hstored
      · exact hkept rfl rfl
  | resolveDiskId nodeId diskId => exact hkept (by rw [show t = _ from hsem]) (by rw [show t = _ from hsem])
  | resolveNodeAddress nodeId => exact hkept (by rw [show t = _ from hsem]) (by rw [show t = _ from hsem])
  | updateFileArchiveState nodeAddress request =>
      exact hkept (by rw [show t = _ from hsem]) (by rw [show t = _ from hsem])

theorem Archiver.Sound.serve {call : ArchiverCall ι} (h : s.Sound) (hok : Archiver.Untouched s call)
    (hserve : Archiver.Serve options s call t) : t.Sound := by
  cases hserve with
  | lease hrun htouched => exact h.lease hrun htouched
  | write hforeign => exact h.write hforeign
  | start hidle =>
      refine ⟨h.keyed, h.nonzero, ?_⟩
      rintro p ⟨⟩ inodeId -
      exact ⟨⟨s.db, s.clock⟩, ⟨rfl, rfl, UInt64.le_refl _⟩, wp_reconcileArchiveStates⟩
  | pass hpass hsem => exact h.pass hpass hok hsem
  | finish hpass => exact ⟨h.keyed, h.nonzero, fun p hp => nomatch hp⟩

theorem Archiver.Sound.respectful {call : ArchiverCall ι} (h : s.Sound) (hok : Archiver.Untouched s call)
    (hserve : Archiver.Serve options s call t) : Archiver.Respectful ⟨s, call, t⟩ := by
  cases hserve with
  | lease => trivial
  | write => trivial
  | start => trivial
  | finish => trivial
  | @pass o k r t hpass hsem =>
      cases o with
      | writeBatch batch =>
          intro inodeId
          rcases hsem with ⟨-, rfl⟩ | ⟨-, rfl⟩
          · rcases h.batch hpass hok inodeId with hsame | ⟨record, hstored, hdead, -⟩
            · exact ⟨fun record hstored _ => hsame.trans hstored, fun hnone => hsame.trans hnone⟩
            · refine ⟨fun record' hstored' hlive => ?_, fun hnone => ?_⟩
              · cases hstored.symm.trans hstored'
                exact absurd hlive hdead
              · cases hstored.symm.trans hnone
          · exact ⟨fun _ hstored _ => hstored, fun hnone => hnone⟩
      | put inodeId payload =>
          intro hpending
          obtain ⟨view, hagrees, hguard⟩ := (h.onTrack _ hpass inodeId (hok hpending)).guard
          exact hagrees.free (hguard rfl hpending)
      | updateFileArchiveState nodeAddress request =>
          intro hpending
          obtain ⟨view, hagrees, hguard⟩ := (h.onTrack _ hpass _ (hok hpending)).guard
          exact hagrees.free (hguard rfl hpending)
      | _ => trivial

end Runs

/-! ## Undisturbed runs -/

section Undisturbed

variable {options : ArchiveLeaseManager.Options} {s s₀ : Archiver ι}
  {hist : List (Served (Archiver ι) (ArchiverCall ι))}

theorem Archiver.Sound.recordsKeyed (h : s.Sound) : RecordsKeyed s.db := by
  intro inodeId record hstored
  refine ⟨h.keyed.keyed hstored, ?_⟩
  rintro rfl
  rw [h.nonzero] at hstored
  exact nomatch hstored

/-- Nobody holds a lease. -/
def NoneLive (s : TimedState ι) : Prop :=
  ∀ inodeId record, s.db.lookup (.fileArchiveState inodeId) = some record → ¬Live s.clock record

theorem untouched_of_noneLive {call : ArchiverCall ι} (hlive : NoneLive s.toTimedState)
    (htouched : s.touched = []) : Archiver.Untouched s call := by
  have hnot : ∀ inodeId, inodeId ∉ s.touched := by simp [htouched]
  cases call with
  | pass o r =>
      cases o with
      | writeBatch batch => exact fun _ _ inodeId _ => ⟨hnot inodeId, fun _ => hlive inodeId⟩
      | put inodeId payload => exact fun _ => hnot inodeId
      | updateFileArchiveState nodeAddress request => exact fun _ => hnot _
      | _ => trivial
  | _ => trivial

theorem NoneLive.pass {o : ReconcileOp} {k : o.Res → Reconciler (Bool × String)} {r : o.Res}
    {t : TimedState ι} (hlive : NoneLive s.toTimedState) (htouched : s.touched = []) (h : s.Sound)
    (hpass : s.pass = some (.call o k)) (hsem : o.Sem s.toTimedState r t) : NoneLive t := by
  have hlater : ∀ inodeId record, s.db.lookup (.fileArchiveState inodeId) = some record →
      s.clock ≤ t.clock → ¬Live t.clock record := fun inodeId record hstored hle ht =>
    hlive inodeId record hstored ⟨ht.1, UInt64.lt_of_le_of_lt hle ht.2⟩
  intro inodeId record hstored
  cases o with
  | now =>
      obtain ⟨hle, -, rfl⟩ := hsem
      exact hlater inodeId record hstored hle
  | newIterator =>
      obtain ⟨-, rfl⟩ := hsem
      exact hlive inodeId record hstored
  | get id =>
      obtain ⟨-, rfl⟩ := hsem
      exact hlive inodeId record hstored
  | put id payload =>
      rcases hsem with ⟨-, rfl⟩ | ⟨-, rfl⟩
      · rw [AList.lookup_insert_ne (by rintro ⟨⟩)] at hstored
        exact hlive inodeId record hstored
      · exact hlive inodeId record hstored
  | writeBatch batch =>
      have hok : Archiver.Untouched s (.pass (.writeBatch batch) r) :=
        untouched_of_noneLive hlive htouched
      rcases hsem with ⟨-, rfl⟩ | ⟨-, rfl⟩
      · rcases h.batch hpass hok inodeId with hsame | ⟨-, -, -, hreset⟩
        · exact hlive inodeId record (hsame.symm.trans hstored)
        · rintro ⟨harchiving, -⟩
          rw [(hreset record hstored).1] at harchiving
          exact nomatch harchiving
      · exact hlive inodeId record hstored
  | resolveDiskId nodeId diskId => exact hlive inodeId record (hsem ▸ hstored) ∘ (hsem ▸ ·)
  | resolveNodeAddress nodeId => exact hlive inodeId record (hsem ▸ hstored) ∘ (hsem ▸ ·)
  | updateFileArchiveState nodeAddress request =>
      exact hlive inodeId record (hsem ▸ hstored) ∘ (hsem ▸ ·)

/-- A pass that nothing happens beside is a run, and an undisturbed one if nobody holds a
    lease. -/
theorem serves_of_runs {p : Reconciler (Bool × String)} {s t : TimedState ι} {a : Bool × String}
    (hrun : Runs ReconcileOp.Works p s a t) (hsound : Archiver.Sound ⟨s, some p, []⟩)
    (hlive : NoneLive s) : ∃ hist, Serves (Archiver.Serve options) Archiver.Untouched
      ⟨s, some p, []⟩ hist ⟨t, some (.ret a), []⟩ := by
  induction hrun with
  | ret a s => exact ⟨[], .nil⟩
  | @call o k s t t' r a hworks _ ih =>
      have hserve : Archiver.Serve options (⟨s, some (.call o k), []⟩ : Archiver ι) (.pass o r)
          ⟨t, some (k r), []⟩ := .pass rfl hworks.sem
      have hok : Archiver.Untouched (⟨s, some (.call o k), []⟩ : Archiver ι) (.pass o r) :=
        untouched_of_noneLive hlive rfl
      obtain ⟨hist, hrest⟩ := ih (hsound.serve hok hserve)
        (NoneLive.pass (s := ⟨s, some (.call o k), []⟩) hlive rfl hsound rfl hworks.sem)
      exact ⟨_, Serves.append (.snoc .nil hok hserve) hrest⟩

theorem serves_of_pass {s t : TimedState ι} {maxRecords : UInt32} (h : Pass maxRecords s t)
    (hsound : Archiver.Sound ⟨s, none, []⟩) (hlive : NoneLive s) :
    ∃ hist, Serves (Archiver.Serve options) Archiver.Untouched ⟨s, none, []⟩ hist ⟨t, none, []⟩ := by
  obtain ⟨a, hrun⟩ := h
  have hstart : Archiver.Serve options (⟨s, none, []⟩ : Archiver ι) (.start maxRecords)
      ⟨s, some (reconcileArchiveStates maxRecords), []⟩ := .start rfl
  have hok : Archiver.Untouched (⟨s, none, []⟩ : Archiver ι) (.start maxRecords) := trivial
  have hend : Archiver.Untouched (⟨t, some (.ret a), []⟩ : Archiver ι) .finish := trivial
  have hdone := hsound.serve hok hstart
  obtain ⟨hist, hserves⟩ : ∃ hist, Serves (Archiver.Serve options) Archiver.Untouched _ hist _ :=
    serves_of_runs hrun hdone hlive
  exact ⟨_, (Serves.append (.snoc .nil hok hstart) hserves).snoc hend (.finish rfl)⟩

/-- Undisturbed passes leave live leases alone, create no records and push `PENDING` only
    for files that are neither archived nor claimed; and whenever they are left alone, an
    expired record is released if fewer records than they visit stay before it. -/
theorem passes_respect_leases (hkeyed : LeasesKeyed s₀.toTimedState)
    (hzero : s₀.db.lookup (.fileArchiveState 0) = none) (hidle : s₀.pass = none)
    (h : Serves (Archiver.Serve options) Archiver.Untouched s₀ hist s) :
    (∀ e ∈ hist, Archiver.Respectful e) ∧
    ∀ maxRecords inodeId record,
      s.db.lookup (.fileArchiveState inodeId) = some record → isExpired s.clock record = true →
      Readable s.db inodeId → (staying s.db inodeId).length < maxRecords.toNat →
      ReleasedWithin maxRecords inodeId s.db.leases.length s.toTimedState := by
  have hsound₀ : s₀.Sound := ⟨hkeyed, hzero, by rw [hidle]; exact fun _ hp => nomatch hp⟩
  have hsound : ∀ hist t, Serves (Archiver.Serve options) Archiver.Untouched s₀ hist t → t.Sound :=
    fun hist t h => h.invariant (fun _ _ _ hs hok hserve => hs.serve hok hserve) hsound₀
  constructor
  · intro e hmem
    obtain ⟨before, later, rfl⟩ := List.append_of_mem hmem
    obtain ⟨hbefore, hok, hserve, -⟩ := h.split
    exact (hsound before e.before hbefore).respectful hok hserve
  · intro maxRecords inodeId record hstored hexpired hreadable hstaying
    exact releasedWithin_of_staying (hsound hist s h).recordsKeyed hstored hexpired hreadable
      hstaying

end Undisturbed

/-! ## One expired record -/

def ReconcileOp.exec (now : UInt64) :
    (o : ReconcileOp) → TimedState Unit → Option (o.Res × TimedState Unit)
  | .now, s =>
      if s.clock ≤ now ∧ now.toNat < 2 ^ 63 then some (now, { s with clock := now }) else none
  | .newIterator, s => some (s.db.leases, s)
  | .get inodeId, s => some (s.db.read (.inode inodeId), s)
  | .put inodeId payload, s => some (.ok (), { s with db := s.db.insert (.inode inodeId) payload })
  | .writeBatch batch, s => some (.ok (), { s with db := s.db.write batch })
  | .resolveDiskId _ _, s | .resolveNodeAddress _, s => some (none, s)
  | .updateFileArchiveState _ _, s => some (.ok (), s)

theorem works_of_exec {now : UInt64} {o : ReconcileOp} {s s' : TimedState Unit} {r : o.Res}
    (h : o.exec now s = some (r, s')) : o.Works s r s' := by
  cases o with
  | now =>
      rw [ReconcileOp.exec] at h
      split at h
      · rename_i hclock
        cases h
        exact ⟨hclock.1, hclock.2, rfl⟩
      · exact nomatch h
  | newIterator => cases h; exact ⟨rfl, rfl⟩
  | get inodeId => cases h; exact ⟨rfl, rfl⟩
  | put inodeId payload => cases h; exact ⟨rfl, rfl⟩
  | writeBatch batch => cases h; exact ⟨rfl, rfl⟩
  | resolveDiskId nodeId diskId => cases h; exact rfl
  | resolveNodeAddress nodeId => cases h; exact rfl
  | updateFileArchiveState nodeAddress request => cases h; exact rfl

theorem pass_of_run {now : UInt64} {maxRecords : UInt32} {s t : TimedState Unit}
    {a : Bool × String}
    (h : (reconcileArchiveStates maxRecords).run (ReconcileOp.exec now) s = some (a, t)) :
    Pass maxRecords s t := by
  refine ⟨a, runs_of_run ?_ h⟩
  exact works_of_exec

/-- The lease of a file ran out at half a second; the clock stands at one second. -/
def expiredState : TimedState Unit where
  db := AList.insert (.fileArchiveState 2)
    { state := .archiving
      ownerNodeId := ofAscii "node-1"
      leaseId := ofAscii "lease-1"
      leaseExpireTsMs := 500
      version := 2
      inodeId := 2 }
    (AList.insert (.inode 2) (layoutRecord (packedForm { inodeId := 2, fileName := ofAscii "f" })) ∅)
  owner := fun _ => none
  issued := [ofAscii "lease-1"]
  clock := 1000

theorem expiredState_lookup {inodeId : UInt64} {record : ArchiveLeaseRecord}
    (h : expiredState.db.lookup (.fileArchiveState inodeId) = some record) :
    inodeId = 2 ∧ record.inodeId = 2 ∧ record.leaseId = ofAscii "lease-1" ∧
      record.leaseExpireTsMs = 500 := by
  by_cases hid : inodeId = 2
  · subst hid
    rw [expiredState, AList.lookup_insert] at h
    cases h
    exact ⟨rfl, rfl, rfl, rfl⟩
  · rw [expiredState, AList.lookup_insert_ne fun h => hid (MetaKey.fileArchiveState.inj h),
      AList.lookup_insert_ne (by rintro ⟨⟩)] at h
    exact nomatch h

theorem expiredState_keyed : LeasesKeyed expiredState where
  keyed h := (expiredState_lookup h).2.1.trans (expiredState_lookup h).1.symm
  issued h _ := by
    rw [(expiredState_lookup h).2.2.1]
    exact List.mem_singleton.mpr rfl
  nonempty := by decide

/-- A pass resets the record, and had to find it within one pass. -/
theorem expired_record_reset : ∃ hist t,
    Serves (Archiver.Serve {}) Archiver.Untouched ⟨expiredState, none, []⟩ hist ⟨t, none, []⟩ ∧
      (∀ e ∈ hist, Archiver.Respectful e) ∧
      (t.db.lookup (.fileArchiveState 2)).map (·.state) = some .pending ∧
      ReleasedWithin 1 2 1 expiredState := by
  have hrun : ((reconcileArchiveStates 1).run (ReconcileOp.exec 1000) expiredState).map (fun p =>
      (p.2.db.lookup (.fileArchiveState 2)).map (·.state)) = some (some .pending) := by
    decide +kernel
  obtain ⟨⟨a, t⟩, hpass, hpending⟩ := Option.map_eq_some_iff.mp hrun
  have hzero : expiredState.db.lookup (.fileArchiveState 0) = none := by decide +kernel
  have hsound : Archiver.Sound ⟨expiredState, none, []⟩ :=
    ⟨expiredState_keyed, hzero, fun _ hp => nomatch hp⟩
  have hlive : NoneLive expiredState := by
    intro inodeId record hstored hlive
    have hexpired : (1000 : UInt64) < record.leaseExpireTsMs := hlive.2
    rw [(expiredState_lookup hstored).2.2.2] at hexpired
    exact absurd hexpired (by decide)
  have hdone : Pass 1 expiredState t := pass_of_run hpass
  obtain ⟨hist, hserves⟩ : ∃ hist, Serves (Archiver.Serve {}) Archiver.Untouched
      ⟨expiredState, none, []⟩ hist ⟨t, none, []⟩ := serves_of_pass hdone hsound hlive
  refine ⟨hist, t, hserves, ?_, hpending, ?_⟩
  · exact (passes_respect_leases expiredState_keyed hzero rfl hserves).1
  · have hstart : Serves (Archiver.Serve {}) Archiver.Untouched ⟨expiredState, none, []⟩ []
        ⟨expiredState, none, []⟩ := .nil
    have hleases : expiredState.db.leases.length = 1 := by decide +kernel
    have hreadable : Readable expiredState.db 2 := by
      refine ⟨unifiedInodeRecordToAttr (storedForm { inodeId := 2, fileName := ofAscii "f" }),
        _, rfl, ?_⟩
      have hencode : encodeUnifiedInodeRecord { inodeId := 2, fileName := ofAscii "f" } =
          .ok (layoutRecord (packedForm { inodeId := 2, fileName := ofAscii "f" })) := by
        decide +kernel
      rw [decodeUnifiedInodeAttr, decode_encode hencode]
      rfl
    have hwithin := (passes_respect_leases expiredState_keyed hzero rfl hstart).2 1 2 _ rfl
      (by decide +kernel) hreadable (by decide +kernel)
    rw [hleases] at hwithin
    exact hwithin

/-- The next operation of the pass. -/
def Archiver.next (now : UInt64) (s : Archiver Unit) : Option (Archiver Unit) :=
  match s.pass with
  | some (.call o k) =>
      (o.exec now s.toTimedState).map fun p => ⟨p.2, some (k p.1), s.touched⟩
  | _ => none

def Archiver.advance (now : UInt64) : Nat → Archiver Unit → Option (Archiver Unit)
  | 0, s => some s
  | n + 1, s => (s.next now).bind (Archiver.advance now n)

theorem serves_of_advance {options : ArchiveLeaseManager.Options} {now : UInt64} {n : Nat}
    {s t : Archiver Unit} (h : s.advance now n = some t) :
    ∃ hist, Serves (Archiver.Serve options) Any s hist t := by
  induction n generalizing s with
  | zero =>
      cases h
      exact ⟨[], .nil⟩
  | succ n ih =>
      obtain ⟨u, hnext, hrest⟩ := Option.bind_eq_some_iff.mp h
      obtain ⟨hist, hserves⟩ := ih hrest
      rw [Archiver.next] at hnext
      split at hnext
      · rename_i o k hpass
        obtain ⟨⟨r, t'⟩, hexec, rfl⟩ := Option.map_eq_some_iff.mp hnext
        have hserve : Archiver.Serve options s (.pass o r) ⟨t', some (k r), s.touched⟩ :=
          .pass hpass (works_of_exec hexec).sem
        exact ⟨_, Serves.append (.snoc .nil trivial hserve) hserves⟩
      · exact nomatch hnext

/-- The batch that the pass is about to write. -/
def Archiver.batch (s : Archiver Unit) : Option WriteBatch :=
  match s.pass with
  | some (.call (.writeBatch batch) _) => some batch
  | _ => none

def secondClaim : LeaseCall :=
  .claim { nodeId := ofAscii "node-2", diskId := ofAscii "disk-1", inodeId := 2 }

/-- The expired file is claimed again after the pass took its snapshot; the pass then takes
    the new lease for the old one. -/
theorem live_lease_revoked : ∃ hist s batch t record,
    Serves (Archiver.Serve {}) Any ⟨expiredState, none, []⟩ hist s ∧
      Archiver.Serve {} s (.pass (.writeBatch batch) (.ok ())) t ∧
      s.db.lookup (.fileArchiveState 2) = some record ∧ Live s.clock record ∧
      t.db.lookup (.fileArchiveState 2) ≠ some record := by
  have hrun : ((Archiver.advance 1000 2 ⟨expiredState, some (reconcileArchiveStates 1), []⟩).bind
      fun s => ((secondClaim.prog {}).run (MdsOp.timedExec countingOracle ()) s.toTimedState).bind
        fun p => (Archiver.advance 1000 4 ⟨p.2, s.pass, [2]⟩).bind fun u => u.batch.map fun batch =>
          decide (s.touched = [] ∧
            p.2.db.lookup (.fileArchiveState 2) ≠ s.db.lookup (.fileArchiveState 2) ∧
            ((u.db.lookup (.fileArchiveState 2)).map fun r =>
              (r.state, decide (u.clock < r.leaseExpireTsMs))) = some (.archiving, true) ∧
            ((u.db.write batch).lookup (.fileArchiveState 2)).map (·.state) = some .pending)) =
      some true := by
    decide +kernel
  obtain ⟨s, hfirst, hrun⟩ := Option.bind_eq_some_iff.mp hrun
  obtain ⟨⟨reply, t⟩, hclaim, hrun⟩ := Option.bind_eq_some_iff.mp hrun
  obtain ⟨u, hsecond, hrun⟩ := Option.bind_eq_some_iff.mp hrun
  obtain ⟨batch, hbatch, hdec⟩ := Option.map_eq_some_iff.mp hrun
  obtain ⟨htouched, hchanged, hlive, hreset⟩ := of_decide_eq_true hdec
  obtain ⟨record, hstored, hrecord⟩ := Option.map_eq_some_iff.mp hlive
  obtain ⟨harchiving, hexpire⟩ := Prod.mk.inj hrecord
  obtain ⟨k, hpass⟩ : ∃ k, u.pass = some (.call (.writeBatch batch) k) := by
    rw [Archiver.batch] at hbatch
    split at hbatch
    · rename_i k hpass
      cases hbatch
      exact ⟨k, hpass⟩
    · exact nomatch hbatch
  have hstart : Archiver.Serve {} (⟨expiredState, none, []⟩ : Archiver Unit) (.start 1)
      ⟨expiredState, some (reconcileArchiveStates 1), []⟩ := .start rfl
  have hlease : Archiver.Serve {} s (.lease () secondClaim reply) ⟨t, s.pass, [2]⟩ :=
    .lease (runsTimed_of_run hclaim)
      (.inr ⟨fun hsame => hchanged (congrArg _ hsame), by rw [htouched]; rfl⟩)
  obtain ⟨hist₁, hserves₁⟩ : ∃ hist, Serves (Archiver.Serve {}) Any _ hist s :=
    serves_of_advance hfirst
  obtain ⟨hist₂, hserves₂⟩ : ∃ hist, Serves (Archiver.Serve {}) Any _ hist u :=
    serves_of_advance hsecond
  refine ⟨_, u, batch, _, record,
    (((Serves.nil.snoc trivial hstart).append hserves₁).snoc trivial hlease).append hserves₂,
    .pass hpass (.inl ⟨rfl, rfl⟩), hstored, ⟨harchiving, of_decide_eq_true hexpire⟩, ?_⟩
  intro hsame
  have hsame' : (u.db.write batch).lookup (.fileArchiveState 2) = some record := hsame
  rw [hsame', Option.map_some, harchiving] at hreset
  exact nomatch hreset

end Zb.Mds
