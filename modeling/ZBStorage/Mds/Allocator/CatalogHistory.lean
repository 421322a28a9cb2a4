-- SUMMARY: The catalog of nodes over every history: identities are never lost, changed or shared.
import Mathlib.Logic.Relation
import ZBStorage.Mds.Allocator.CmsNodeRegistry

/-!
# Histories of the catalog

What one catalog owes to an earlier one is a preorder. A proposal that is accepted
gives a catalog that succeeds the committed one, and the snapshot of a catalog
restores to it. So whatever fails, the snapshot in the store always holds a
successor of the catalog in memory, and a restart moves on to that.
-/

namespace Zb.Mds.CmsNodeRegistry

open Zb.Rpc Bytes

/-! ## Succession -/

/-- The later entry of a node keeps its identity. -/
structure Entry.Continues (later earlier : Entry) : Prop where
  compactId : later.managedView.compactId = earlier.managedView.compactId
  kind : later.managedView.spec.kind = earlier.managedView.spec.kind
  generation : later.generation = earlier.generation
  retired : isRetired earlier.managedView = true → isRetired later.managedView = true

theorem Entry.Continues.refl (entry : Entry) : entry.Continues entry := ⟨rfl, rfl, rfl, id⟩

theorem Entry.Continues.trans {a b c : Entry} (hab : a.Continues b) (hbc : b.Continues c) :
    a.Continues c where
  compactId := hab.compactId.trans hbc.compactId
  kind := hab.kind.trans hbc.kind
  generation := hab.generation.trans hbc.generation
  retired h := hab.retired (hbc.retired h)

theorem Entry.Continues.optical {later earlier : Entry} (h : later.Continues earlier) :
    later.optical = earlier.optical := by
  simp only [Entry.optical, h.kind]

/-- What a catalog owes to an earlier one. -/
structure Catalog.Succeeds (later earlier : Catalog) : Prop where
  member : ∀ id e, earlier.nodes.lookup id = some e →
    ∃ e', later.nodes.lookup id = some e' ∧ e'.Continues e
  cmsGeneration : earlier.cmsGeneration ≤ later.cmsGeneration
  schedulerGeneration : earlier.schedulerGeneration ≤ later.schedulerGeneration

theorem Catalog.Succeeds.refl (catalog : Catalog) : catalog.Succeeds catalog where
  member _ e h := ⟨e, h, .refl e⟩
  cmsGeneration := UInt64.le_refl _
  schedulerGeneration := UInt64.le_refl _

theorem Catalog.Succeeds.trans {a b c : Catalog} (hab : a.Succeeds b) (hbc : b.Succeeds c) :
    a.Succeeds c where
  member id e h := by
    obtain ⟨e', he', hcont'⟩ := hbc.member id e h
    obtain ⟨e'', he'', hcont''⟩ := hab.member id e' he'
    exact ⟨e'', he'', hcont''.trans hcont'⟩
  cmsGeneration := UInt64.le_trans hbc.cmsGeneration hab.cmsGeneration
  schedulerGeneration := UInt64.le_trans hbc.schedulerGeneration hab.schedulerGeneration

/-- Catalogs that hold the same nodes, in whatever order, succeed each other. -/
theorem Catalog.Succeeds.of_same {a b : Catalog}
    (hnodes : ∀ id, a.nodes.lookup id = b.nodes.lookup id)
    (hcms : a.cmsGeneration = b.cmsGeneration)
    (hscheduler : a.schedulerGeneration = b.schedulerGeneration) : a.Succeeds b where
  member id e h := ⟨e, (hnodes id).trans h, .refl e⟩
  cmsGeneration := hcms ▸ UInt64.le_refl _
  schedulerGeneration := hscheduler ▸ UInt64.le_refl _

/-! ## Identities -/

/-- The entries of `P` are named, and have compact ids of their own below the next
    one of their space. -/
structure Identified (P : Bytes → Entry → Prop) (next : Bool → UInt32) : Prop where
  named : ∀ {id e}, P id e → e.named = true ∧ e.managedView.spec.nodeId = id
  positive : ∀ {id e}, P id e → 0 < e.managedView.compactId.toNat
  below : ∀ {id e}, P id e → e.managedView.compactId.toNat < (next e.optical).toNat
  distinct : ∀ {id e id' e'}, P id e → P id' e' → e.optical = e'.optical →
    e.managedView.compactId = e'.managedView.compactId → id = id'

theorem Identified.add {P P' : Bytes → Entry → Prop} {next next' : Bool → UInt32} (id : Bytes)
    (new : Entry) (h : Identified P next) (hP : ∀ i e, P' i e → P i e ∨ (i = id ∧ e = new))
    (hnamed : new.named = true ∧ new.managedView.spec.nodeId = id)
    (hpositive : 0 < new.managedView.compactId.toNat)
    (hnext : ∀ optical, (next optical).toNat ≤ (next' optical).toNat)
    (hbelow : new.managedView.compactId.toNat < (next' new.optical).toNat)
    (hown : ∀ i e, P i e → e.optical = new.optical →
      e.managedView.compactId = new.managedView.compactId → i = id) :
    Identified P' next' where
  named hi := by
    rcases hP _ _ hi with hold | ⟨rfl, rfl⟩
    · exact h.named hold
    · exact hnamed
  positive hi := by
    rcases hP _ _ hi with hold | ⟨rfl, rfl⟩
    · exact h.positive hold
    · exact hpositive
  below hi := by
    rcases hP _ _ hi with hold | ⟨rfl, rfl⟩
    · exact (h.below hold).trans_le (hnext _)
    · exact hbelow
  distinct hi hi' hspace hid := by
    rcases hP _ _ hi with hold | ⟨rfl, rfl⟩ <;> rcases hP _ _ hi' with hold' | ⟨rfl, rfl⟩
    · exact h.distinct hold hold' hspace hid
    · exact hown _ _ hold hspace hid
    · exact (hown _ _ hold' hspace.symm hid.symm).symm
    · rfl

theorem Identified.mono {P P' : Bytes → Entry → Prop} {next : Bool → UInt32}
    (h : Identified P next) (hP : ∀ id e, P' id e → P id e) : Identified P' next where
  named hi := h.named (hP _ _ hi)
  positive hi := h.positive (hP _ _ hi)
  below hi := h.below (hP _ _ hi)
  distinct hi hi' := h.distinct (hP _ _ hi) (hP _ _ hi')

/-- The next compact id of each space is in range, or just past it. -/
def Catalog.Counting (catalog : Catalog) : Prop :=
  ∀ optical, 0 < (catalog.nextCompactId optical).toNat ∧
    (catalog.nextCompactId optical).toNat ≤ (maximumCompactId optical).toNat + 1

structure Catalog.Sound (catalog : Catalog) : Prop where
  identified : Identified (fun id e => catalog.nodes.lookup id = some e) catalog.nextCompactId
  counting : catalog.Counting
  cmsGeneration : catalog.cmsGeneration ≠ 0

/-- Compact ids stay in the range of their space. -/
theorem Catalog.Sound.inRange {catalog : Catalog} (h : catalog.Sound) {id : Bytes} {e : Entry}
    (he : catalog.nodes.lookup id = some e) :
    0 < e.managedView.compactId.toNat ∧
      e.managedView.compactId.toNat ≤ (maximumCompactId e.optical).toNat := by
  have hbelow := h.identified.below he
  have hcount := (h.counting e.optical).2
  exact ⟨h.identified.positive he, by omega⟩

theorem maximumCompactId_le (optical : Bool) : (maximumCompactId optical).toNat ≤ 0x00ffffff := by
  cases optical <;> decide

@[simp] theorem Catalog.nextCompactId_setNextCompactId (catalog : Catalog) (optical o : Bool)
    (next : UInt32) : (catalog.setNextCompactId optical next).nextCompactId o =
      if o = optical then next else catalog.nextCompactId o := by
  cases optical <;> cases o <;> rfl

@[simp] theorem Catalog.nodes_setNextCompactId (catalog : Catalog) (optical : Bool)
    (next : UInt32) : (catalog.setNextCompactId optical next).nodes = catalog.nodes := by
  cases optical <;> rfl

@[simp] theorem Entry.managedView_withCompactId (entry : Entry) (compactId : UInt32) :
    (entry.withCompactId compactId).managedView =
      { entry.managedView with compactId := compactId.toUInt64 } := rfl

@[simp] theorem Entry.optical_withCompactId (entry : Entry) (compactId : UInt32) :
    (entry.withCompactId compactId).optical = entry.optical := rfl

@[simp] theorem Entry.named_withCompactId {entry : Entry} (h : entry.named = true)
    (compactId : UInt32) : (entry.withCompactId compactId).named = true := by
  simp only [Entry.named, Bool.and_eq_true] at h ⊢
  exact ⟨⟨rfl, h.1.2⟩, h.2⟩

/-! ## Proposals -/

/-- The candidate catalog while the proposal is checked against the current one. -/
structure Catalog.Checking (current candidate : Catalog) : Prop where
  identified : Identified
    (fun id e => current.nodes.lookup id = some e ∨ candidate.nodes.lookup id = some e)
    candidate.nextCompactId
  counting : candidate.Counting
  continues : ∀ {id e e'}, current.nodes.lookup id = some e →
    candidate.nodes.lookup id = some e' → e'.Continues e

/-- Before the first entry. -/
theorem Catalog.Sound.checking {catalog : Catalog} (h : catalog.Sound) :
    catalog.Checking { catalog with nodes := ∅ } where
  identified := by
    have hnone : ∀ id e, catalog.nodes.lookup id = some e ∨
        (∅ : Nodes).lookup id = some e ↔ catalog.nodes.lookup id = some e := by
      intro id e
      simp
    simp only [hnone]
    exact h.identified
  counting := h.counting
  continues _ h := by simp at h

theorem assignCompactId_cases {current : Nodes} {candidate candidate' : Catalog} {entry : Entry}
    {compactId : UInt32}
    (h : assignCompactId current candidate entry = .ok (compactId, candidate')) :
    (∃ existing, current.lookup entry.managedView.spec.nodeId = some existing ∧
      entry.managedView.spec.kind = existing.managedView.spec.kind ∧
      entry.generation = existing.generation ∧
      (isRetired existing.managedView = true → isRetired entry.managedView = true) ∧
      compactId = existing.managedView.compactId.toUInt32 ∧ candidate' = candidate) ∨
    (current.lookup entry.managedView.spec.nodeId = none ∧
      compactId = candidate.nextCompactId entry.optical ∧
      compactId ≤ maximumCompactId entry.optical ∧
      candidate' = candidate.setNextCompactId entry.optical (compactId + 1)) := by
  simp only [assignCompactId] at h
  split at h
  · next existing hlook =>
      split at h
      · cases h
      next hkind =>
      split at h
      · cases h
      next hgeneration =>
      split at h
      · cases h
      next hretired =>
      cases h
      refine .inl ⟨existing, hlook, (not_not.mp hkind).symm, (not_not.mp hgeneration).symm, ?_,
        rfl, rfl⟩
      intro hold
      simpa [hold] using hretired
  · next hlook =>
      split at h
      · cases h
      next hmax =>
      cases h
      exact .inr ⟨hlook, rfl, UInt32.not_lt.mp hmax, rfl⟩

theorem addEntry_cases {current : Nodes} {candidate candidate' : Catalog} {entry : Entry}
    (h : addEntry current candidate entry = .ok candidate') :
    entry.named = true ∧ entry.managedView.spec.nodeId ∉ candidate.nodes ∧
      ∃ compactId counted,
        assignCompactId current candidate entry = .ok (compactId, counted) ∧
        candidate' = { counted with
          nodes := counted.nodes.insert entry.managedView.spec.nodeId
            (entry.withCompactId compactId) } := by
  simp only [addEntry] at h
  split at h
  · cases h
  next hnamed =>
  split at h
  · cases h
  split at h
  · cases h
  next hnew =>
  cases hassign : assignCompactId current candidate entry with
  | error e => simp [hassign, bind, Except.bind] at h
  | ok assigned =>
      simp only [hassign, bind, Except.bind, pure, Except.pure, Except.ok.injEq] at h
      exact ⟨by simpa using hnamed, hnew, assigned.1, assigned.2, rfl, h.symm⟩

/-- A checked entry joins the candidate. -/
theorem Catalog.Checking.insert {current candidate counted : Catalog} {id : Bytes} {new : Entry}
    (hcheck : current.Checking candidate) (hnodes : counted.nodes = candidate.nodes)
    (hcounting : counted.Counting)
    (hnext : ∀ optical, (candidate.nextCompactId optical).toNat ≤
      (counted.nextCompactId optical).toNat)
    (hnamed : new.named = true ∧ new.managedView.spec.nodeId = id)
    (hpositive : 0 < new.managedView.compactId.toNat)
    (hbelow : new.managedView.compactId.toNat < (counted.nextCompactId new.optical).toNat)
    (hown : ∀ i e, current.nodes.lookup i = some e ∨ candidate.nodes.lookup i = some e →
      e.optical = new.optical → e.managedView.compactId = new.managedView.compactId → i = id)
    (hcontinues : ∀ e, current.nodes.lookup id = some e → new.Continues e) :
    current.Checking { counted with nodes := counted.nodes.insert id new } where
  identified := by
    refine hcheck.identified.add id new ?_ hnamed hpositive hnext hbelow hown
    rintro i e (hold | hcand)
    · exact .inl (.inl hold)
    · by_cases hi : i = id
      · subst hi
        rw [AList.lookup_insert] at hcand
        exact .inr ⟨rfl, (Option.some.inj hcand).symm⟩
      · rw [AList.lookup_insert_ne hi, hnodes] at hcand
        exact .inl (.inr hcand)
  counting := hcounting
  continues {i e e'} hold hcand := by
    by_cases hi : i = id
    · subst hi
      rw [AList.lookup_insert] at hcand
      obtain rfl := Option.some.inj hcand
      exact hcontinues e hold
    · rw [AList.lookup_insert_ne hi, hnodes] at hcand
      exact hcheck.continues hold hcand

/-- A compact id survives its way through 32 bits. -/
theorem toUInt64_toUInt32 {compactId : UInt64} (h : compactId.toNat ≤ 0x00ffffff) :
    compactId.toUInt32.toUInt64 = compactId := by
  apply UInt64.toNat_inj.mp
  simp only [UInt32.toNat_toUInt64, UInt64.toNat_toUInt32]
  exact Nat.mod_eq_of_lt (by omega)

/-- A node of the catalog keeps its compact id. -/
theorem Catalog.Checking.keep {current candidate : Catalog} {entry existing : Entry}
    (hsound : current.Sound) (hcheck : current.Checking candidate) (hnamed : entry.named = true)
    (hlook : current.nodes.lookup entry.managedView.spec.nodeId = some existing)
    (hkind : entry.managedView.spec.kind = existing.managedView.spec.kind)
    (hgeneration : entry.generation = existing.generation)
    (hretired : isRetired existing.managedView = true → isRetired entry.managedView = true) :
    current.Checking { candidate with
      nodes := candidate.nodes.insert entry.managedView.spec.nodeId
        (entry.withCompactId existing.managedView.compactId.toUInt32) } := by
  have hid : existing.managedView.compactId.toUInt32.toUInt64 = existing.managedView.compactId :=
    toUInt64_toUInt32 ((hsound.inRange hlook).2.trans (maximumCompactId_le _))
  have hspace : entry.optical = existing.optical := by simp only [Entry.optical, hkind]
  apply hcheck.insert rfl hcheck.counting (fun _ => Nat.le_refl _)
  · exact ⟨Entry.named_withCompactId hnamed _, rfl⟩
  · simpa [hid] using (hsound.inRange hlook).1
  · simpa [hid, hspace] using hcheck.identified.below (.inl hlook)
  · intro i e he hoptical hcompact
    simp only [Entry.optical_withCompactId, Entry.managedView_withCompactId, hid] at hoptical hcompact
    exact hcheck.identified.distinct he (.inl hlook) (hoptical.trans hspace) hcompact
  · intro e he
    obtain rfl := Option.some.inj (hlook.symm.trans he)
    exact ⟨hid, hkind, hgeneration, hretired⟩

/-- A new node takes the next compact id of its space. -/
theorem Catalog.Checking.assign {current candidate : Catalog} {entry : Entry}
    (hcheck : current.Checking candidate) (hnamed : entry.named = true)
    (hlook : current.nodes.lookup entry.managedView.spec.nodeId = none)
    (hmax : candidate.nextCompactId entry.optical ≤ maximumCompactId entry.optical) :
    current.Checking { candidate.setNextCompactId entry.optical
        (candidate.nextCompactId entry.optical + 1) with
      nodes := (candidate.setNextCompactId entry.optical
          (candidate.nextCompactId entry.optical + 1)).nodes.insert
        entry.managedView.spec.nodeId
        (entry.withCompactId (candidate.nextCompactId entry.optical)) } := by
  have hmaxNat := UInt32.le_iff_toNat_le.mp hmax
  have hbound := maximumCompactId_le entry.optical
  have hsucc : (candidate.nextCompactId entry.optical + 1).toNat =
      (candidate.nextCompactId entry.optical).toNat + 1 := by
    rw [UInt32.toNat_add]
    exact Nat.mod_eq_of_lt (by simp; omega)
  apply hcheck.insert (Catalog.nodes_setNextCompactId ..)
  · intro optical
    have hcount := hcheck.counting optical
    rw [Catalog.nextCompactId_setNextCompactId]
    split
    · next hspace =>
        subst hspace
        omega
    · exact hcount
  · intro optical
    rw [Catalog.nextCompactId_setNextCompactId]
    split
    · next hspace =>
        subst hspace
        omega
    · exact Nat.le_refl _
  · exact ⟨Entry.named_withCompactId hnamed _, rfl⟩
  · simpa using (hcheck.counting entry.optical).1
  · simp [hsucc]
  · -- every compact id handed out before is below the next one
    intro i e he hoptical hcompact
    have hbelow := hcheck.identified.below he
    simp only [Entry.optical_withCompactId, Entry.managedView_withCompactId] at hoptical hcompact
    rw [hcompact, hoptical, UInt32.toNat_toUInt64] at hbelow
    omega
  · intro e he
    rw [hlook] at he
    cases he

/-- One round of the loop keeps what was checked so far. -/
theorem Catalog.Checking.addEntry {current candidate candidate' : Catalog} {entry : Entry}
    (hsound : current.Sound) (hcheck : current.Checking candidate)
    (h : addEntry current.nodes candidate entry = .ok candidate') :
    current.Checking candidate' := by
  obtain ⟨hnamed, hnew, compactId, counted, hassign, rfl⟩ := addEntry_cases h
  rcases assignCompactId_cases hassign with
    ⟨existing, hlook, hkind, hgeneration, hretired, rfl, rfl⟩ | ⟨hlook, rfl, hmax, rfl⟩
  · exact hcheck.keep hsound hnamed hlook hkind hgeneration hretired
  · exact hcheck.assign hnamed hlook hmax

theorem Catalog.Checking.addEntries {current candidate candidate' : Catalog}
    {proposed : List Entry} (hsound : current.Sound) (hcheck : current.Checking candidate)
    (h : addEntries current.nodes candidate proposed = .ok candidate') :
    current.Checking candidate' := by
  induction proposed generalizing candidate with
  | nil =>
      cases h
      exact hcheck
  | cons entry proposed ih =>
      simp only [CmsNodeRegistry.addEntries] at h
      cases hadd : CmsNodeRegistry.addEntry current.nodes candidate entry with
      | error e => simp [hadd, bind, Except.bind] at h
      | ok next =>
          simp only [hadd, bind, Except.bind] at h
          exact ih (hcheck.addEntry hsound hadd) h

@[simp] theorem mem_ordered {nodes : Nodes} {item : Sigma fun _ : Bytes => Entry} :
    item ∈ ordered nodes ↔ nodes.lookup item.1 = some item.2 := by
  rw [ordered, (List.perm_insertionSort _ _).mem_iff]
  exact AList.mem_lookup_iff.symm

theorem propose_cases {catalog catalog' : Catalog} {schedulerGeneration : UInt64}
    {proposed : List Entry} (h : catalog.propose schedulerGeneration proposed = .ok catalog') :
    ∃ candidate, addEntries catalog.nodes { catalog with nodes := ∅ } proposed = .ok candidate ∧
      (∀ id ∈ catalog.nodes, id ∈ candidate.nodes) ∧
      catalog' = { candidate with
        cmsGeneration := catalog.cmsGeneration + 1
        schedulerGeneration := schedulerGeneration } := by
  simp only [Catalog.propose] at h
  cases hadd : addEntries catalog.nodes { catalog with nodes := ∅ } proposed with
  | error e => simp [hadd, bind, Except.bind] at h
  | ok candidate =>
      simp only [hadd, bind, Except.bind] at h
      split at h
      · cases h
      next hfind =>
      cases h
      refine ⟨candidate, rfl, ?_, rfl⟩
      intro id hid
      obtain ⟨e, he⟩ := Option.isSome_iff_exists.mp (AList.lookup_isSome.mpr hid)
      have hkept := List.find?_eq_none.mp hfind ⟨id, e⟩ (mem_ordered.mpr he)
      simpa using hkept

/-- The generation of the catalog can still grow. -/
def Catalog.CanGrow (catalog : Catalog) : Prop := catalog.cmsGeneration ≠ 0xffffffffffffffff

theorem Catalog.CanGrow.toNat_succ {catalog : Catalog} (h : catalog.CanGrow) :
    (catalog.cmsGeneration + 1).toNat = catalog.cmsGeneration.toNat + 1 := by
  have hne : catalog.cmsGeneration.toNat ≠ 0xffffffffffffffff := fun hlast =>
    h (UInt64.toNat_inj.mp hlast)
  have hlt := catalog.cmsGeneration.toNat_lt
  rw [UInt64.toNat_add]
  exact Nat.mod_eq_of_lt (by simp; omega)

theorem Catalog.CanGrow.succ_ne_zero {catalog : Catalog} (h : catalog.CanGrow) :
    catalog.cmsGeneration + 1 ≠ 0 := by
  intro hzero
  have hsucc := h.toNat_succ
  rw [hzero] at hsucc
  simp at hsucc

/-- An accepted proposal gives a sound successor. -/
theorem propose_spec {catalog catalog' : Catalog} {schedulerGeneration : UInt64}
    {proposed : List Entry} (hsound : catalog.Sound) (hgrow : catalog.CanGrow)
    (hnewer : catalog.schedulerGeneration < schedulerGeneration)
    (h : catalog.propose schedulerGeneration proposed = .ok catalog') :
    catalog'.Sound ∧ catalog'.Succeeds catalog := by
  obtain ⟨candidate, hadd, hkept, rfl⟩ := propose_cases h
  have hcheck := hsound.checking.addEntries hsound hadd
  refine ⟨⟨?_, hcheck.counting, ?_⟩, ⟨?_, ?_, UInt64.le_of_lt hnewer⟩⟩
  · exact hcheck.identified.mono fun id e he => .inr he
  · exact hgrow.succ_ne_zero
  · intro id e he
    have hmem := hkept id (AList.lookup_isSome.mp (by rw [he]; rfl))
    obtain ⟨e', he'⟩ := Option.isSome_iff_exists.mp (AList.lookup_isSome.mpr hmem)
    exact ⟨e', he', hcheck.continues he he'⟩
  · apply UInt64.le_iff_toNat_le.mpr
    simp only [hgrow.toNat_succ]
    omega

/-! ## Snapshots -/

/-- The entry passes the checks of a restore that has found `restoring`. -/
structure Restoring.Accepts (restoring : Restoring) (entry : Entry) : Prop where
  named : entry.named = true
  positive : 0 < entry.managedView.compactId.toNat
  bounded : entry.managedView.compactId.toNat ≤ (maximumCompactId entry.optical).toNat
  below : entry.managedView.compactId.toNat <
    (restoring.catalog.nextCompactId entry.optical).toNat
  newId : entry.managedView.compactId ∉ restoring.ids entry.optical
  newNode : entry.managedView.spec.nodeId ∉ restoring.catalog.nodes

/-- Entries that may stand in one snapshot. -/
def Entry.Apart (a b : Entry) : Prop :=
  a.managedView.spec.nodeId ≠ b.managedView.spec.nodeId ∧
    (a.optical = b.optical → a.managedView.compactId ≠ b.managedView.compactId)

theorem restoreEntries_cons {restoring : Restoring} {entry : Entry} {entries : List Entry}
    (h : restoring.Accepts entry) :
    restoreEntries restoring (entry :: entries) = restoreEntries (restoring.add entry) entries := by
  have hnamed := h.named
  simp only [Entry.named, Bool.and_eq_true, ne_eq, decide_eq_true_eq] at hnamed
  obtain ⟨⟨hview, hspec⟩, hnode⟩ := hnamed
  have hpositive : entry.managedView.compactId ≠ 0 := by
    intro hzero
    have := h.positive
    simp [hzero] at this
  have hbounded : ¬ entry.managedView.compactId > (maximumCompactId entry.optical).toUInt64 := by
    rw [gt_iff_lt, UInt64.lt_iff_toNat_lt, UInt32.toNat_toUInt64]
    exact Nat.not_lt.mpr h.bounded
  rw [restoreEntries, if_neg, if_neg]
  · rintro (hnil | hzero | hmax | hid | hmem)
    · exact hnode hnil
    · exact hpositive hzero
    · exact hbounded hmax
    · exact h.newId hid
    · exact h.newNode hmem
  · simp [Option.isSome_iff_ne_none.mp hview, Option.isSome_iff_ne_none.mp hspec]

@[simp] theorem Catalog.setNextCompactId_self (catalog : Catalog) (optical : Bool) :
    catalog.setNextCompactId optical (catalog.nextCompactId optical) = catalog := by
  cases optical <;> rfl

/-- An entry below the next compact id leaves the counters alone. -/
theorem Restoring.catalog_add {restoring : Restoring} {entry : Entry}
    (h : restoring.Accepts entry) :
    (restoring.add entry).catalog = { restoring.catalog with
      nodes := restoring.catalog.nodes.insert entry.managedView.spec.nodeId entry } := by
  have hbound := maximumCompactId_le entry.optical
  have hsmall := h.bounded
  have hsucc : (entry.managedView.compactId.toUInt32 + 1).toNat =
      entry.managedView.compactId.toNat + 1 := by
    rw [UInt32.toNat_add, UInt64.toNat_toUInt32,
      Nat.mod_eq_of_lt (by omega : entry.managedView.compactId.toNat < 2 ^ 32)]
    exact Nat.mod_eq_of_lt (by simp; omega)
  have hmax : max (restoring.catalog.nextCompactId entry.optical)
      (entry.managedView.compactId.toUInt32 + 1) =
        restoring.catalog.nextCompactId entry.optical := by
    apply UInt32.toNat_inj.mp
    rw [toNat_max, hsucc]
    exact Nat.max_eq_left h.below
  simp only [Restoring.add, hmax, Catalog.setNextCompactId_self]

theorem Restoring.ids_add (restoring : Restoring) (entry : Entry) (optical : Bool) :
    (restoring.add entry).ids optical =
      if optical = entry.optical then entry.managedView.compactId :: restoring.ids optical
      else restoring.ids optical := by
  simp only [Restoring.add, Restoring.ids]
  cases optical <;> cases entry.optical <;> rfl

theorem Restoring.Accepts.add {restoring : Restoring} {entry other : Entry}
    (hentry : restoring.Accepts entry) (hother : restoring.Accepts other)
    (hapart : entry.Apart other) : (restoring.add entry).Accepts other where
  named := hother.named
  positive := hother.positive
  bounded := hother.bounded
  below := by
    rw [Restoring.catalog_add hentry]
    exact hother.below
  newId := by
    rw [Restoring.ids_add]
    split
    · next hspace =>
        rw [List.mem_cons, not_or]
        exact ⟨fun h => hapart.2 hspace.symm h.symm, hother.newId⟩
    · exact hother.newId
  newNode := by
    rw [Restoring.catalog_add hentry]
    simp only [AList.mem_insert, not_or]
    exact ⟨fun h => hapart.1 h.symm, hother.newNode⟩

/-- Entries apart from each other are all restored, and nothing else is. -/
theorem restoreEntries_spec {restoring : Restoring} {entries : List Entry}
    (haccepts : ∀ e ∈ entries, restoring.Accepts e) (hapart : entries.Pairwise Entry.Apart) :
    ∃ restored, restoreEntries restoring entries = .ok restored ∧
      restored.catalog = { restoring.catalog with nodes := restored.catalog.nodes } ∧
      ∀ id e, restored.catalog.nodes.lookup id = some e ↔
        restoring.catalog.nodes.lookup id = some e ∨
          (e ∈ entries ∧ e.managedView.spec.nodeId = id) := by
  induction entries generalizing restoring with
  | nil => exact ⟨restoring, rfl, rfl, by simp⟩
  | cons entry entries ih =>
      have hentry := haccepts entry List.mem_cons_self
      obtain ⟨hfirst, hrest⟩ := List.pairwise_cons.mp hapart
      have haccepts' : ∀ e ∈ entries, (restoring.add entry).Accepts e := fun e he =>
        hentry.add (haccepts e (List.mem_cons_of_mem _ he)) (hfirst e he)
      obtain ⟨restored, hrun, hcatalog, hlook⟩ := ih haccepts' hrest
      refine ⟨restored, (restoreEntries_cons hentry).trans hrun, ?_, ?_⟩
      · rw [hcatalog, Restoring.catalog_add hentry]
      · intro id e
        rw [hlook, Restoring.catalog_add hentry]
        by_cases hid : id = entry.managedView.spec.nodeId
        · subst hid
          have hnone := AList.lookup_eq_none.mpr hentry.newNode
          rw [AList.lookup_insert, hnone]
          constructor
          · rintro (heq | ⟨hmem, hname⟩)
            · obtain rfl := Option.some.inj heq
              exact .inr ⟨List.mem_cons_self, rfl⟩
            · exact .inr ⟨List.mem_cons_of_mem _ hmem, hname⟩
          · rintro (hnone | ⟨hmem, hname⟩)
            · cases hnone
            · rcases List.mem_cons.mp hmem with rfl | hmem
              · exact .inl rfl
              · exact .inr ⟨hmem, hname⟩
        · rw [AList.lookup_insert_ne hid]
          constructor
          · rintro (hold | ⟨hmem, hname⟩)
            · exact .inl hold
            · exact .inr ⟨List.mem_cons_of_mem _ hmem, hname⟩
          · rintro (hold | ⟨hmem, hname⟩)
            · exact .inl hold
            · rcases List.mem_cons.mp hmem with rfl | hmem
              · exact absurd hname.symm hid
              · exact .inr ⟨hmem, hname⟩

theorem snapshot_apart {catalog : Catalog} (h : catalog.Sound) :
    catalog.snapshot.nodes.Pairwise Entry.Apart := by
  have hkeys : (ordered catalog.nodes).NodupKeys :=
    (List.perm_nodupKeys (List.perm_insertionSort _ _)).mpr catalog.nodes.nodupKeys
  refine List.pairwise_map.mpr ((List.nodupKeys_iff_pairwise.mp hkeys).imp_of_mem ?_)
  intro a b ha hb hne
  have ha := mem_ordered.mp ha
  have hb := mem_ordered.mp hb
  refine ⟨?_, fun hspace hid => hne (h.identified.distinct ha hb hspace hid)⟩
  rw [(h.identified.named ha).2, (h.identified.named hb).2]
  exact hne

theorem mem_snapshot {catalog : Catalog} (h : catalog.Sound) {id : Bytes} {e : Entry} :
    e ∈ catalog.snapshot.nodes ∧ e.managedView.spec.nodeId = id ↔
      catalog.nodes.lookup id = some e := by
  constructor
  · rintro ⟨hmem, rfl⟩
    obtain ⟨item, hitem, rfl⟩ := List.mem_map.mp hmem
    have hlook := mem_ordered.mp hitem
    rw [(h.identified.named hlook).2]
    exact hlook
  · intro hlook
    exact ⟨List.mem_map.mpr ⟨⟨id, e⟩, mem_ordered.mpr hlook, rfl⟩, (h.identified.named hlook).2⟩

/-- A restore starts from the counters of the snapshot. -/
theorem restore_eq {catalog : Catalog} (h : catalog.Sound) :
    catalog.snapshot.restore =
      (restoreEntries { catalog := { catalog with nodes := ∅ } } catalog.snapshot.nodes).map
        Restoring.catalog := by
  have hnext : ∀ optical, max 1 (catalog.nextCompactId optical) = catalog.nextCompactId optical := by
    intro optical
    apply UInt32.toNat_inj.mp
    rw [toNat_max]
    exact Nat.max_eq_right (h.counting optical).1
  have hstorage : max 1 catalog.nextStorageCompactId = catalog.nextStorageCompactId := hnext false
  have hoptical : max 1 catalog.nextOpticalCompactId = catalog.nextOpticalCompactId := hnext true
  rw [Snapshot.restore, if_neg (by simp [Catalog.snapshot, h.cmsGeneration])]
  simp only [Catalog.snapshot, hstorage, hoptical]
  rfl

/-- The snapshot of a sound catalog restores to the same catalog. -/
theorem restore_snapshot {catalog : Catalog} (h : catalog.Sound) :
    ∃ restored, catalog.snapshot.restore = .ok restored ∧ restored.Sound ∧
      restored.Succeeds catalog ∧ catalog.Succeeds restored := by
  have haccepts : ∀ e ∈ catalog.snapshot.nodes,
      ({ catalog := { catalog with nodes := ∅ } } : Restoring).Accepts e := by
    intro e he
    have hlook := (mem_snapshot h).mp ⟨he, rfl⟩
    have hrange := h.inRange hlook
    exact ⟨(h.identified.named hlook).1, hrange.1, hrange.2, h.identified.below hlook,
      by simp [Restoring.ids], by simp⟩
  obtain ⟨restored, hrun, hcatalog, hlook⟩ := restoreEntries_spec haccepts (snapshot_apart h)
  have hsame : ∀ id, restored.catalog.nodes.lookup id = catalog.nodes.lookup id := by
    intro id
    apply Option.ext
    intro e
    rw [hlook, mem_snapshot h]
    simp
  refine ⟨restored.catalog, ?_, ?_, ?_, ?_⟩
  · rw [restore_eq h, hrun]
    rfl
  · rw [hcatalog]
    exact ⟨h.identified.mono fun id e he => (hsame id).symm.trans he, h.counting, h.cmsGeneration⟩
  · rw [hcatalog]
    exact .of_same hsame rfl rfl
  · rw [hcatalog]
    exact .of_same (fun id => (hsame id).symm) rfl rfl

/-! ## Histories -/

/-- The registry of the running server, if it runs, and the snapshot in the store. -/
structure Cms where
  registry : Option CmsNodeRegistry := none
  store : Option Snapshot := none

inductive Event
  | commit (schedulerGeneration : UInt64) (proposed : List Entry) (put : PutOutcome)
  | crash
  /-- a start with what the configuration gives the cache and the placement manager,
      and what becomes of the read of the snapshot -/
  | start (cache : List NodeInfo) (pgManager : PGManager) (readError : Option Bytes)

section Histories

variable (stagingFull : UInt64 → UInt64 → Bool) (order : PGManager.ScoreSort)

/-- The server stops when its start fails. -/
def Cms.start (cms : Cms) (cache : List NodeInfo) (pgManager : PGManager)
    (readError : Option Bytes) : Cms :=
  let get := match readError with
    | some error => .error error
    | none => .ok cms.store
  { cms with
    registry := (restore stagingFull order { cache := cache, pgManager := pgManager } get).toOption }

def Cms.commit (cms : Cms) (registry : CmsNodeRegistry) (put : PutOutcome)
    (schedulerGeneration : UInt64) (proposed : List Entry) : Cms :=
  let (_, registry, store) :=
    registry.commit stagingFull order cms.store put schedulerGeneration proposed
  { registry := some registry, store := store }

def Cms.step (cms : Cms) : Event → Cms
  | .commit schedulerGeneration proposed put =>
      match cms.registry with
      | none => cms
      | some registry => cms.commit stagingFull order registry put schedulerGeneration proposed
  | .crash => { cms with registry := none }
  | .start cache pgManager readError =>
      match cms.registry with
      | none => cms.start stagingFull order cache pgManager readError
      | some _ => cms

/-- No catalog follows one of the last generation. -/
def Event.Fits (cms : Cms) : Event → Prop
  | .commit schedulerGeneration _ _ => ∀ registry ∈ cms.registry,
      registry.schedulerGeneration < schedulerGeneration → registry.CanGrow
  | _ => True

/-- The histories from one state of the server to another. -/
def History : Cms → Cms → Prop :=
  Relation.ReflTransGen fun cms cms' => ∃ event : Event, cms' = cms.step stagingFull order event

/-- The histories in which every event fits. -/
def FittingHistory : Cms → Cms → Prop :=
  Relation.ReflTransGen fun cms cms' =>
    ∃ event : Event, event.Fits cms ∧ cms' = cms.step stagingFull order event

/-- The store holds the snapshot of the catalog, or nothing yet. -/
def Stores (store : Option Snapshot) (catalog : Catalog) : Prop :=
  store = some catalog.snapshot ∨ (store = none ∧ catalog = {})

/-- Since `base`, the catalog in memory and the stored one have succeeded it in turn. -/
structure Cms.Since (base : Catalog) (cms : Cms) (stored : Catalog) : Prop where
  stores : Stores cms.store stored
  sound : stored.Sound
  succeeds : stored.Succeeds base
  registry : ∀ registry ∈ cms.registry, registry.Sound ∧ registry.Succeeds base ∧
    stored.Succeeds registry.toCatalog

theorem sound_empty : ({} : Catalog).Sound where
  identified := by constructor <;> simp
  counting optical := by cases optical <;> decide
  cmsGeneration := by decide

variable {stagingFull order}

@[simp] theorem toCatalog_publishPlacement (registry : CmsNodeRegistry) :
    (publishPlacement stagingFull order registry).toCatalog = registry.toCatalog := rfl

/-- What a commit does: nothing, or it persists an accepted proposal, after which it
    fails or moves on to it. -/
theorem commit_cases (stagingFull : UInt64 → UInt64 → Bool) (order : PGManager.ScoreSort)
    (registry : CmsNodeRegistry) (store : Option Snapshot) (put : PutOutcome)
    (schedulerGeneration : UInt64) (proposed : List Entry) :
    (∃ reply, registry.commit stagingFull order store put schedulerGeneration proposed =
      (reply, registry, store)) ∨
    (registry.schedulerGeneration < schedulerGeneration ∧ ∃ catalog,
      registry.propose schedulerGeneration proposed = .ok catalog ∧
      ((∃ error, registry.commit stagingFull order store put schedulerGeneration proposed =
          (.error error, registry, some catalog.snapshot)) ∨
        ∃ reply, registry.commit stagingFull order store put schedulerGeneration proposed =
          (.ok reply, publishPlacement stagingFull order { registry with toCatalog := catalog },
            some catalog.snapshot))) := by
  simp only [CmsNodeRegistry.commit]
  split
  · exact .inl ⟨_, rfl⟩
  split
  · exact .inl ⟨_, rfl⟩
  split
  · next hnewer =>
      cases hpropose : registry.propose schedulerGeneration proposed with
      | error e => exact .inl ⟨_, rfl⟩
      | ok catalog =>
          cases put with
          | stored => exact .inr ⟨hnewer, catalog, rfl, .inr ⟨_, rfl⟩⟩
          | failed error reached =>
              cases reached with
              | false => exact .inl ⟨_, rfl⟩
              | true => exact .inr ⟨hnewer, catalog, rfl, .inl ⟨error, rfl⟩⟩
  · exact .inl ⟨_, rfl⟩

theorem Cms.Since.commit {base stored : Catalog} {cms : Cms} {registry : CmsNodeRegistry}
    {put : PutOutcome} {schedulerGeneration : UInt64} {proposed : List Entry}
    (h : cms.Since base stored) (hregistry : cms.registry = some registry)
    (hgrow : registry.schedulerGeneration < schedulerGeneration → registry.CanGrow) :
    ∃ stored', (cms.commit stagingFull order registry put schedulerGeneration proposed).Since
      base stored' := by
  obtain ⟨hsound, hbase, hstored⟩ := h.registry registry hregistry
  have hsame : ∀ r ∈ some registry, r.Sound ∧ r.Succeeds base ∧ stored.Succeeds r.toCatalog := by
    rintro r ⟨⟩
    exact ⟨hsound, hbase, hstored⟩
  rcases commit_cases stagingFull order registry cms.store put
      schedulerGeneration proposed with
    ⟨reply, hcommit⟩ | ⟨hnewer, catalog, hpropose, hend⟩
  · refine ⟨stored, ?_⟩
    simp only [Cms.commit, hcommit]
    exact ⟨h.stores, h.sound, h.succeeds, hsame⟩
  · obtain ⟨hcatalog, hsucceeds⟩ := propose_spec hsound (hgrow hnewer) hnewer hpropose
    refine ⟨catalog, ?_⟩
    rcases hend with ⟨error, hcommit⟩ | ⟨reply, hcommit⟩
    · -- the failed write may have reached the store: a restart would move on to it
      simp only [Cms.commit, hcommit]
      refine ⟨.inl rfl, hcatalog, hsucceeds.trans hbase, ?_⟩
      rintro r ⟨⟩
      exact ⟨hsound, hbase, hsucceeds⟩
    · simp only [Cms.commit, hcommit]
      refine ⟨.inl rfl, hcatalog, hsucceeds.trans hbase, ?_⟩
      rintro r ⟨⟩
      exact ⟨hcatalog, hsucceeds.trans hbase, .refl _⟩

theorem Cms.Since.start {base stored : Catalog} {cms : Cms} {cache : List NodeInfo}
    {pgManager : PGManager} {readError : Option Bytes} (h : cms.Since base stored) :
    (cms.start stagingFull order cache pgManager readError).Since base stored := by
  refine ⟨h.stores, h.sound, h.succeeds, ?_⟩
  intro registry hregistry
  cases readError with
  | some error => simp [Cms.start, restore, Except.toOption] at hregistry
  | none =>
      rcases h.stores with hstore | ⟨hstore, rfl⟩
      · obtain ⟨restored, hrestore, hsound, hafter, hbefore⟩ := restore_snapshot h.sound
        simp only [Cms.start, restore, hstore, hrestore, bind, Except.bind, pure, Except.pure,
          Except.toOption, Option.mem_some_iff] at hregistry
        subst hregistry
        exact ⟨hsound, hafter.trans h.succeeds, hbefore⟩
      · simp only [Cms.start, restore, hstore, Except.toOption, Option.mem_some_iff] at hregistry
        subst hregistry
        exact ⟨h.sound, h.succeeds, .refl _⟩

theorem Cms.Since.step {base stored : Catalog} {cms : Cms} {event : Event}
    (h : cms.Since base stored) (hfits : event.Fits cms) :
    ∃ stored', (cms.step stagingFull order event).Since base stored' := by
  cases event with
  | commit schedulerGeneration proposed put =>
      cases hregistry : cms.registry with
      | none => exact ⟨stored, by simpa only [Cms.step, hregistry] using h⟩
      | some registry =>
          simp only [Cms.step, hregistry]
          exact h.commit hregistry (hfits registry hregistry)
  | crash => exact ⟨stored, h.stores, h.sound, h.succeeds, by simp [Cms.step]⟩
  | start cache pgManager readError =>
      cases hregistry : cms.registry with
      | none => exact ⟨stored, by simpa only [Cms.step, hregistry] using h.start⟩
      | some registry => exact ⟨stored, by simpa only [Cms.step, hregistry] using h⟩

theorem Cms.Since.history {base stored : Catalog} {cms cms' : Cms} (h : cms.Since base stored)
    (hhistory : FittingHistory stagingFull order cms cms') :
    ∃ stored', cms'.Since base stored' := by
  induction hhistory with
  | refl => exact ⟨stored, h⟩
  | tail _ hstep ih =>
      obtain ⟨stored', h'⟩ := ih
      obtain ⟨event, hfits, rfl⟩ := hstep
      exact h'.step hfits

theorem since_empty : ({} : Cms).Since {} {} where
  stores := .inr ⟨rfl, rfl⟩
  sound := sound_empty
  succeeds := .refl _
  registry := by simp

/-- As long as the generation of the catalog does not overflow, no history of
    commits, failing writes and restarts loses, changes or shares an identity, and a
    failed commit changes nothing. -/
theorem catalog_safe {cms cms' : Cms} (hhistory : FittingHistory stagingFull order {} cms)
    (hlater : FittingHistory stagingFull order cms cms') {registry registry' : CmsNodeRegistry}
    (hregistry : cms.registry = some registry) (hregistry' : cms'.registry = some registry') :
    registry'.Succeeds registry.toCatalog ∧
    (∀ id e, registry'.nodes.lookup id = some e →
      0 < e.managedView.compactId.toNat ∧
        e.managedView.compactId.toNat ≤ (maximumCompactId e.optical).toNat) ∧
    (∀ id e id' e', registry.nodes.lookup id = some e → registry'.nodes.lookup id' = some e' →
      e.optical = e'.optical → e.managedView.compactId = e'.managedView.compactId → id = id') ∧
    (∀ store put schedulerGeneration proposed error,
      (registry'.commit stagingFull order store put schedulerGeneration proposed).1 =
        .error error →
      (registry'.commit stagingFull order store put schedulerGeneration proposed).2.1 =
        registry') := by
  obtain ⟨stored, hsince⟩ := since_empty.history hhistory
  obtain ⟨hsound, -, hstored⟩ := hsince.registry registry hregistry
  have hbase : cms.Since registry.toCatalog stored := by
    refine ⟨hsince.stores, hsince.sound, hstored, ?_⟩
    intro r hr
    obtain rfl := Option.some.inj (hregistry.symm.trans hr)
    exact ⟨hsound, .refl _, hstored⟩
  obtain ⟨stored', hsince'⟩ := hbase.history hlater
  obtain ⟨hsound', hsucceeds, -⟩ := hsince'.registry registry' hregistry'
  refine ⟨hsucceeds, fun id e he => hsound'.inRange he, ?_, ?_⟩
  · intro id e id' e' he he' hspace hid
    obtain ⟨e₁, he₁, hcontinues⟩ := hsucceeds.member id e he
    exact hsound'.identified.distinct he₁ he' (hcontinues.optical.trans hspace)
      (hcontinues.compactId.trans hid)
  · intro store put schedulerGeneration proposed error herror
    rcases commit_cases stagingFull order registry' store put
        schedulerGeneration proposed with
      ⟨reply, hcommit⟩ | ⟨-, catalog, -, ⟨error', hcommit⟩ | ⟨reply, hcommit⟩⟩
    · rw [hcommit]
    · rw [hcommit]
    · rw [hcommit] at herror
      cases herror

end Histories

section Samples

/-- Everything that is measured in `long double` answers no, and scores are sorted by
    insertion. -/
def sampleStep : Cms → Event → Cms := Cms.step (fun _ _ => false) PGManager.insertionOrder

def joiningEntry : Entry where
  managedView? := some
    { spec? := some { nodeId := ofAscii "node-1", kind := .storage }, lifecycle := .joining }

/-- The server has started and taken one node. -/
def joined : Cms :=
  sampleStep (sampleStep {} (.start [] (.create {}) none)) (.commit 1 [joiningEntry] .stored)

def restarted : Cms := sampleStep (sampleStep joined .crash) (.start [] (.create {}) none)

theorem joined_restarted_safe :
    ∃ registry registry', joined.registry = some registry ∧
      restarted.registry = some registry' ∧ registry'.Succeeds registry.toCatalog := by
  have hjoined : FittingHistory (fun _ _ => false) PGManager.insertionOrder {} joined := by
    refine .tail (.tail .refl ⟨.start [] (.create {}) none, trivial, rfl⟩)
      ⟨.commit 1 [joiningEntry] .stored, ?_, rfl⟩
    rintro registry ⟨⟩ -
    exact (by decide : (1 : UInt64) ≠ 0xffffffffffffffff)
  have hrestarted : FittingHistory (fun _ _ => false) PGManager.insertionOrder joined restarted :=
    .tail (.tail .refl ⟨.crash, trivial, rfl⟩) ⟨.start [] (.create {}) none, trivial, rfl⟩
  obtain ⟨registry, hregistry⟩ := Option.isSome_iff_exists.mp (by decide : joined.registry.isSome)
  obtain ⟨registry', hregistry'⟩ :=
    Option.isSome_iff_exists.mp (by decide : restarted.registry.isSome)
  exact ⟨registry, registry', hregistry, hregistry',
    (catalog_safe hjoined hrestarted hregistry hregistry').1⟩

/-- A registry without nodes after `n` commits. -/
def emptyRegistry (n : Nat) : CmsNodeRegistry where
  cmsGeneration := UInt64.ofNat (n + 1)
  schedulerGeneration := UInt64.ofNat n
  pgManager := .create {}

theorem sampleStep_emptyRegistry {n : Nat} (hn : n + 1 < 2 ^ 64) (store : Option Snapshot) :
    ∃ store', sampleStep { registry := some (emptyRegistry n), store := store }
      (.commit (UInt64.ofNat (n + 1)) [] .stored) =
        { registry := some (emptyRegistry (n + 1)), store := store' } := by
  have hsucc : (UInt64.ofNat (n + 1)).toNat = n + 1 := UInt64.toNat_ofNat_of_lt' hn
  have hnonzero : UInt64.ofNat (n + 1) ≠ 0 := by
    intro h
    rw [h] at hsucc
    simp at hsucc
  have hnewer : (emptyRegistry n).schedulerGeneration < UInt64.ofNat (n + 1) := by
    rw [UInt64.lt_iff_toNat_lt, hsucc, emptyRegistry,
      UInt64.toNat_ofNat_of_lt' (Nat.lt_of_succ_lt hn)]
    exact Nat.lt_succ_self n
  have hpropose : (emptyRegistry n).propose (UInt64.ofNat (n + 1)) [] =
      .ok (emptyRegistry (n + 1)).toCatalog := by
    have hnext : (emptyRegistry n).cmsGeneration + 1 = (emptyRegistry (n + 1)).cmsGeneration := by
      simp [emptyRegistry]
    rw [Catalog.propose, hnext]
    rfl
  refine ⟨some (emptyRegistry (n + 1)).snapshot, ?_⟩
  simp only [sampleStep, Cms.step, Cms.commit, CmsNodeRegistry.commit, if_neg hnonzero,
    if_neg (UInt64.not_lt.mpr (UInt64.le_of_lt hnewer)), gt_iff_lt, if_pos hnewer, hpropose,
    persist]
  rfl

theorem history_emptyRegistry {n : Nat} (hn : n < 2 ^ 64) :
    ∃ store, History (fun _ _ => false) PGManager.insertionOrder {}
      { registry := some (emptyRegistry n), store := store } := by
  induction n with
  | zero => exact ⟨none, .single ⟨.start [] (.create {}) none, rfl⟩⟩
  | succ n ih =>
      obtain ⟨store, hhistory⟩ := ih (by omega)
      obtain ⟨store', hstep⟩ := sampleStep_emptyRegistry hn store
      exact ⟨store', hhistory.tail ⟨_, hstep.symm⟩⟩

/-- After 2 ^ 64 - 1 commits the generation of the catalog is zero. -/
theorem cmsGeneration_overflows :
    ∃ (cms cms' : Cms) (registry registry' : CmsNodeRegistry),
      History (fun _ _ => false) PGManager.insertionOrder {} cms ∧
      History (fun _ _ => false) PGManager.insertionOrder cms cms' ∧
      cms.registry = some registry ∧ cms'.registry = some registry' ∧
      registry'.cmsGeneration < registry.cmsGeneration := by
  obtain ⟨store, hhistory⟩ := history_emptyRegistry (by decide : 0xfffffffffffffffe < 2 ^ 64)
  obtain ⟨store', hstep⟩ :=
    sampleStep_emptyRegistry (by decide : 0xfffffffffffffffe + 1 < 2 ^ 64) store
  exact ⟨_, _, _, _, hhistory, .single ⟨_, hstep.symm⟩, rfl, rfl, by decide⟩

end Samples

end Zb.Mds.CmsNodeRegistry
