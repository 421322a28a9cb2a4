-- SUMMARY: Placement views as rendezvous selections: which candidates a placement group gets, in any order.
import ZBStorage.Lib.Rendezvous
import ZBStorage.Mds.Allocator.PGManager

/-!
# Placement as a rendezvous selection

For each placement group `BuildPlacementView` sorts the candidates by their hash
and takes the first of each group of nodes. Where no two candidates have the same
hash, that is the selection of `Rendezvous`, which the candidates determine.
-/

namespace Zb.Mds.PGManager

open Bytes Rendezvous

variable {candidates candidates' : List CandidateNode} {pgCount replica pg : UInt32}
  {epoch : UInt64} {view : PlacementView}

/-- The score of a candidate for a placement group. -/
def scoreOf (pg : UInt32) (epoch : UInt64) (node : CandidateNode) : Nat :=
  (hash64Pair pg node.nodeId epoch).toNat

/-- The candidates that a placement group is to have. -/
def Assigned (candidates : List CandidateNode) (pg replica : UInt32) (epoch : UInt64)
    (chosen : List CandidateNode) : Prop :=
  Selected (scoreOf pg epoch) (·.groupId) candidates replica.toNat chosen

/-- No two candidates have the same score for a placement group. -/
def ScoresApart (candidates : List CandidateNode) (pg : UInt32) (epoch : UInt64) : Prop :=
  (candidates.map fun node => hash64Pair pg node.nodeId epoch).Nodup

instance (candidates : List CandidateNode) (pg : UInt32) (epoch : UInt64) :
    Decidable (ScoresApart candidates pg epoch) := inferInstanceAs (Decidable (List.Nodup _))

/-! ## The loop over the ranked candidates -/

theorem selectMembers_eq_scan (replica : Nat) (epoch : UInt64)
    (scores : List (UInt64 × CandidateNode)) (seen : List Bytes) (chosen : List CandidateNode) :
    selectMembers replica epoch scores seen (chosen.map (memberOf · epoch)) =
      (scan (·.groupId) replica (scores.map (·.2)) seen chosen).map (memberOf · epoch) := by
  induction scores generalizing seen chosen with
  | nil => rfl
  | cons scored scores ih =>
      simp only [selectMembers, List.map_cons, scan]
      split
      · exact ih seen chosen
      · have hmembers : chosen.map (memberOf · epoch) ++ [memberOf scored.2 epoch] =
            (chosen ++ [scored.2]).map (memberOf · epoch) := by
          rw [List.map_append, List.map_singleton]
        rw [hmembers, List.length_map]
        split
        · rfl
        · exact ih _ _

/-- The candidates of a placement group, as the loop finds them. -/
def chosenFor (order : ScoreSort) (candidates : List CandidateNode) (pg replica : UInt32)
    (epoch : UInt64) : List CandidateNode :=
  scan (·.groupId) replica.toNat ((order.sort
    (candidates.map fun node => (hash64Pair pg node.nodeId epoch, node))).map (·.2)) [] []

theorem buildReplicaSet_eq (order : ScoreSort) (candidates : List CandidateNode)
    (replica : UInt32) (epoch : UInt64) (pg : UInt32) :
    buildReplicaSet order candidates replica epoch pg =
      let chosen := chosenFor order candidates pg replica epoch
      if chosen.length < replica.toNat then
        .error (ofAscii "insufficient unique groups for pg_id=" ++ decimal pg.toNat ++
          ofAscii ", required=" ++ decimal replica.toNat ++
          ofAscii ", actual=" ++ decimal chosen.length)
      else .ok { pgId := pg, viewEpoch := epoch, members := chosen.map (memberOf · epoch) } := by
  have hmembers := selectMembers_eq_scan replica.toNat epoch (order.sort
    (candidates.map fun node => (hash64Pair pg node.nodeId epoch, node))) [] []
  rw [buildReplicaSet]
  simp only [List.map_nil] at hmembers
  rw [hmembers, List.length_map]
  rfl

/-- The sorted candidates descend strictly where no two have the same score. -/
theorem ranked_descending (order : ScoreSort) (h : ScoresApart candidates pg epoch) :
    ((order.sort (candidates.map fun node => (hash64Pair pg node.nodeId epoch, node))).map
      (·.2)).Pairwise fun a b => scoreOf pg epoch b < scoreOf pg epoch a := by
  let scores := candidates.map fun node => (hash64Pair pg node.nodeId epoch, node)
  have hperm : (order.sort scores).Perm scores := order.perm scores
  have hscore : ∀ scored ∈ order.sort scores, scored.1 = hash64Pair pg scored.2.nodeId epoch := by
    intro scored hmem
    obtain ⟨node, -, rfl⟩ := List.mem_map.mp (hperm.mem_iff.mp hmem)
    rfl
  have hapart : (order.sort scores).Pairwise fun a b => a.1 ≠ b.1 := by
    have hnodup : (scores.map (·.1)).Nodup := by
      rw [List.map_map]
      exact h
    have hsorted : ((order.sort scores).map (·.1)).Nodup := (hperm.map (·.1)).nodup_iff.mpr hnodup
    exact List.pairwise_map.mp hsorted
  rw [List.pairwise_map]
  refine (List.Pairwise.and_mem.mp (hapart.and (order.descending scores))).imp ?_
  intro a b ⟨ha, hb, hne, hle⟩
  rw [scoreOf, scoreOf, ← hscore a ha, ← hscore b hb]
  refine Nat.lt_of_le_of_ne (UInt64.le_iff_toNat_le.mp hle) fun heq => ?_
  exact hne (UInt64.toNat_inj.mp heq).symm

theorem mem_ranked (order : ScoreSort) (candidates : List CandidateNode) (pg : UInt32)
    (epoch : UInt64) (node : CandidateNode) :
    node ∈ (order.sort (candidates.map fun node => (hash64Pair pg node.nodeId epoch, node))).map
      (·.2) ↔ node ∈ candidates := by
  rw [((order.perm _).map _).mem_iff, List.map_map]
  exact List.mem_map.trans ⟨fun ⟨_, hmem, heq⟩ => heq ▸ hmem, fun hmem => ⟨node, hmem, rfl⟩⟩

/-- The loop finds the candidates that the group is to have. -/
theorem assigned_chosenFor (order : ScoreSort) (hreplica : 0 < replica.toNat)
    (h : ScoresApart candidates pg epoch) :
    Assigned candidates pg replica epoch (chosenFor order candidates pg replica epoch) :=
  (selected_scan hreplica (ranked_descending order h)).congr
    (mem_ranked order candidates pg epoch)

/-- The groups of the candidates. -/
def groupsOf (candidates : List CandidateNode) : Finset Bytes :=
  (candidates.map fun node => node.groupId).toFinset

/-- With enough candidates chosen, there are that many groups. -/
theorem length_le_groups {chosen : List CandidateNode}
    (h : Assigned candidates pg replica epoch chosen) :
    chosen.length ≤ (groupsOf candidates).card := by
  have hnodup : (chosen.map fun node => node.groupId).Nodup := List.pairwise_map.mpr h.groups
  have hsub : (chosen.map fun node => node.groupId).toFinset ⊆ groupsOf candidates := by
    intro group hmem
    obtain ⟨node, hnode, rfl⟩ := List.mem_map.mp (List.mem_toFinset.mp hmem)
    exact List.mem_toFinset.mpr (List.mem_map.mpr ⟨node, (h.champion node hnode).1, rfl⟩)
  have hcard := Finset.card_le_card hsub
  rwa [List.toFinset_card_of_nodup hnodup, List.length_map] at hcard

/-! ## Views -/

theorem buildReplicaSets_getElem? {order : ScoreSort} {pgs : List Nat} {sets : List PgReplicaSet}
    (h : buildReplicaSets order candidates replica epoch pgs = .ok sets) {i : Nat} {k : Nat}
    (hk : pgs[i]? = some k) :
    ∃ set, sets[i]? = some set ∧
      buildReplicaSet order candidates replica epoch (UInt32.ofNat k) = .ok set := by
  induction pgs generalizing sets i with
  | nil => exact nomatch hk
  | cons first pgs ih =>
      rw [buildReplicaSets] at h
      cases hset : buildReplicaSet order candidates replica epoch (UInt32.ofNat first) with
      | error e => simp [hset, bind, Except.bind] at h
      | ok set =>
          cases hsets : buildReplicaSets order candidates replica epoch pgs with
          | error e => simp [hset, hsets, bind, Except.bind] at h
          | ok rest =>
              simp only [hset, hsets, bind, Except.bind, pure, Except.pure, Except.ok.injEq] at h
              subst h
              cases i with
              | zero =>
                  cases hk
                  exact ⟨set, rfl, hset⟩
              | succ i => exact ih hsets hk

theorem buildReplicaSets_congr {order order' : ScoreSort} {pgs : List Nat}
    (h : ∀ pg ∈ pgs, buildReplicaSet order candidates replica epoch (UInt32.ofNat pg) =
      buildReplicaSet order' candidates' replica epoch (UInt32.ofNat pg)) :
    buildReplicaSets order candidates replica epoch pgs =
      buildReplicaSets order' candidates' replica epoch pgs := by
  induction pgs with
  | nil => rfl
  | cons pg pgs ih =>
      rw [buildReplicaSets, buildReplicaSets, h pg List.mem_cons_self,
        ih fun pg' hmem => h pg' (List.mem_cons_of_mem _ hmem)]

theorem buildPlacementView_getElem? {order : ScoreSort}
    (h : buildPlacementView order candidates pgCount replica epoch = .ok view)
    (hpg : pg < pgCount) :
    ∃ set, view.pgToReplicas[pg.toNat]? = some set ∧
      buildReplicaSet order candidates replica epoch pg = .ok set := by
  rw [buildPlacementView] at h
  split at h
  · cases h
  split at h
  · cases h
  cases hsets : buildReplicaSets order candidates replica epoch (List.range pgCount.toNat) with
  | error e => simp [hsets, bind, Except.bind] at h
  | ok sets =>
      simp only [hsets, bind, Except.bind, pure, Except.pure, Except.ok.injEq] at h
      subst h
      have hrange : (List.range pgCount.toNat)[pg.toNat]? = some pg.toNat :=
        List.getElem?_range (UInt32.lt_iff_toNat_lt.mp hpg)
      have hget := buildReplicaSets_getElem? hsets hrange
      rwa [UInt32.ofNat_toNat] at hget

/-- A built replica set holds the members of the candidates chosen for its group. -/
theorem replicaSet_of_ok {order : ScoreSort} {set : PgReplicaSet}
    (h : buildReplicaSet order candidates replica epoch pg = .ok set) :
    replica.toNat ≤ (chosenFor order candidates pg replica epoch).length ∧
      set = { pgId := pg, viewEpoch := epoch,
              members := (chosenFor order candidates pg replica epoch).map (memberOf · epoch) } := by
  rw [buildReplicaSet_eq] at h
  simp only at h
  split at h
  · cases h
  · rename_i henough
    cases h
    exact ⟨Nat.le_of_not_lt henough, rfl⟩

/-! ## What the candidates determine -/

theorem ScoresApart.perm (h : ScoresApart candidates pg epoch)
    (hperm : candidates'.Perm candidates) : ScoresApart candidates' pg epoch :=
  (hperm.map _).nodup_iff.mpr h

theorem ScoresApart.nodup (h : ScoresApart candidates pg epoch) : candidates.Nodup :=
  List.Nodup.of_map _ h

theorem ScoresApart.erase (h : ScoresApart candidates pg epoch) (node : CandidateNode) :
    ScoresApart (candidates.erase node) pg epoch :=
  h.sublist (List.erase_sublist.map _)

theorem chosenFor_congr (order order' : ScoreSort) (hreplica : 0 < replica.toNat)
    (h : ScoresApart candidates pg epoch) (hperm : candidates'.Perm candidates) :
    chosenFor order' candidates' pg replica epoch = chosenFor order candidates pg replica epoch := by
  have hassigned := assigned_chosenFor order hreplica h
  have hassigned' := assigned_chosenFor order' hreplica (h.perm hperm)
  exact (hassigned'.congr fun _ => hperm.mem_iff).unique hassigned

theorem buildPlacementView_perm (order order' : ScoreSort) (hreplica : 0 < replica)
    (h : ∀ pg < pgCount, ScoresApart candidates pg epoch) (hperm : candidates'.Perm candidates) :
    buildPlacementView order' candidates' pgCount replica epoch =
      buildPlacementView order candidates pgCount replica epoch := by
  have hpos : 0 < replica.toNat := UInt32.lt_iff_toNat_lt.mp hreplica
  have hsets : buildReplicaSets order' candidates' replica epoch (List.range pgCount.toNat) =
      buildReplicaSets order candidates replica epoch (List.range pgCount.toNat) := by
    refine buildReplicaSets_congr fun pg hmem => ?_
    have hlt : UInt32.ofNat pg < pgCount := by
      have hpg := List.mem_range.mp hmem
      rw [UInt32.lt_iff_toNat_lt, UInt32.toNat_ofNat']
      exact (Nat.mod_le _ _).trans_lt hpg
    rw [buildReplicaSet_eq, buildReplicaSet_eq, chosenFor_congr order order' hpos (h _ hlt) hperm]
  have hnil : candidates' = [] ↔ candidates = [] := by
    rw [← List.length_eq_zero_iff, ← List.length_eq_zero_iff, hperm.length_eq]
  unfold buildPlacementView
  simp only [hnil, hsets]

/-- Dropping a candidate that a placement group does not use leaves its members. -/
theorem buildPlacementView_drop (order order' : ScoreSort) (hreplica : 0 < replica)
    (h : ∀ pg < pgCount, ScoresApart candidates pg epoch)
    (hview : buildPlacementView order candidates pgCount replica epoch = .ok view)
    {node : CandidateNode} (hpg : pg < pgCount)
    (hnot : ∀ set, view.pgToReplicas[pg.toNat]? = some set →
      ∀ member ∈ set.members, member.nodeId ≠ node.nodeId) :
    ∃ view', buildPlacementView order' (candidates.erase node) pgCount replica epoch = .ok view' ∧
      (view'.pgToReplicas[pg.toNat]?).map (·.members) =
        (view.pgToReplicas[pg.toNat]?).map (·.members) := by
  have hpos : 0 < replica.toNat := UInt32.lt_iff_toNat_lt.mp hreplica
  obtain ⟨set, hset, hbuilt⟩ := buildPlacementView_getElem? hview hpg
  obtain ⟨henough, rfl⟩ := replicaSet_of_ok hbuilt
  have hassigned := assigned_chosenFor order hpos (h pg hpg)
  have hunused : node ∉ chosenFor order candidates pg replica epoch := fun hmem =>
    hnot _ hset (memberOf node epoch) (List.mem_map.mpr ⟨node, hmem, rfl⟩) rfl
  have hkept : Assigned (candidates.erase node) pg replica epoch
      (chosenFor order candidates pg replica epoch) := by
    refine hassigned.drop hunused fun a => ?_
    rw [(h pg hpg).nodup.mem_erase_iff]
    exact and_comm
  have hgroups : replica.toNat ≤ (groupsOf (candidates.erase node)).card :=
    henough.trans (length_le_groups hkept)
  have hcount : pgCount ≠ 0 := by
    rintro rfl
    exact UInt32.not_lt_zero hpg
  obtain ⟨view', hview'⟩ :=
    buildPlacementView_isOk order' hcount (UInt32.ne_of_lt hreplica).symm hgroups epoch
  obtain ⟨set', hset', hbuilt'⟩ := buildPlacementView_getElem? hview' hpg
  obtain ⟨-, rfl⟩ := replicaSet_of_ok hbuilt'
  have hsame := (assigned_chosenFor order' hpos ((h pg hpg).erase node)).unique hkept
  refine ⟨view', hview', ?_⟩
  rw [hset, hset', hsame]

/-- A placement view is the rendezvous selection of each placement group. -/
theorem placement_rendezvous (order order' : ScoreSort) (candidates : List CandidateNode)
    (pgCount replica : UInt32) (epoch : UInt64) (hcount : 0 < pgCount) (hreplica : 0 < replica)
    (h : ∀ pg < pgCount, ScoresApart candidates pg epoch) :
    ((∃ view, buildPlacementView order candidates pgCount replica epoch = .ok view) ↔
      replica.toNat ≤ (groupsOf candidates).card) ∧
    (∀ view, buildPlacementView order candidates pgCount replica epoch = .ok view →
      view.pgToReplicas.length = pgCount.toNat ∧ ∀ pg < pgCount, ∃ set chosen,
        view.pgToReplicas[pg.toNat]? = some set ∧ Assigned candidates pg replica epoch chosen ∧
        set.members = chosen.map (memberOf · epoch) ∧ set.members.length = replica.toNat ∧
        set.members.Pairwise fun a b => a.groupId ≠ b.groupId) ∧
    (∀ candidates' : List CandidateNode, candidates'.Perm candidates →
      buildPlacementView order' candidates' pgCount replica epoch =
        buildPlacementView order candidates pgCount replica epoch) ∧
    ∀ view, buildPlacementView order candidates pgCount replica epoch = .ok view →
      ∀ node ∈ candidates, ∀ pg < pgCount,
        (∀ set, view.pgToReplicas[pg.toNat]? = some set →
          ∀ member ∈ set.members, member.nodeId ≠ node.nodeId) →
        ∃ view', buildPlacementView order' (candidates.erase node) pgCount replica epoch =
            .ok view' ∧
          (view'.pgToReplicas[pg.toNat]?).map (·.members) =
            (view.pgToReplicas[pg.toNat]?).map (·.members) := by
  have hpos : 0 < replica.toNat := UInt32.lt_iff_toNat_lt.mp hreplica
  refine ⟨⟨?enough, ?succeeds⟩, ?members, ?order, ?drop⟩
  case enough =>
    intro ⟨view, hview⟩
    obtain ⟨set, -, hbuilt⟩ := buildPlacementView_getElem? hview hcount
    have hassigned := assigned_chosenFor order hpos (h 0 hcount)
    exact (replicaSet_of_ok hbuilt).1.trans (length_le_groups hassigned)
  case succeeds =>
    intro hgroups
    exact buildPlacementView_isOk order (UInt32.ne_of_lt hcount).symm
      (UInt32.ne_of_lt hreplica).symm hgroups epoch
  case members =>
    intro view hview
    refine ⟨(buildPlacementView_spec hview).2.2.2.1, fun pg hpg => ?_⟩
    obtain ⟨set, hset, hbuilt⟩ := buildPlacementView_getElem? hview hpg
    obtain ⟨henough, rfl⟩ := replicaSet_of_ok hbuilt
    have hassigned := assigned_chosenFor order hpos (h pg hpg)
    refine ⟨_, _, hset, hassigned, rfl, ?_, ?_⟩
    · rw [List.length_map]
      exact Nat.le_antisymm hassigned.length_le henough
    · exact List.pairwise_map.mpr hassigned.groups
  case order =>
    intro candidates' hperm
    exact buildPlacementView_perm order order' hreplica h hperm
  case drop =>
    intro view hview node _ pg hpg hnot
    exact buildPlacementView_drop order order' hreplica h hview hpg hnot

/-- Three nodes of which two share a group. -/
def threeCandidates : List CandidateNode :=
  [{ nodeId := ofAscii "a", groupId := ofAscii "g" }, { nodeId := ofAscii "b", groupId := ofAscii "g" },
    { nodeId := ofAscii "c", groupId := ofAscii "h" }]

theorem scoresApart_of_range
    (h : ∀ k < pgCount.toNat, ScoresApart candidates (UInt32.ofNat k) epoch) :
    ∀ pg < pgCount, ScoresApart candidates pg epoch := by
  intro pg hpg
  have hapart := h pg.toNat (UInt32.lt_iff_toNat_lt.mp hpg)
  rwa [UInt32.ofNat_toNat] at hapart

theorem placement_of_three :
    (∃ view, buildPlacementView insertionOrder threeCandidates 4 2 7 = .ok view) ∧
      buildPlacementView insertionOrder threeCandidates.reverse 4 2 7 =
        buildPlacementView insertionOrder threeCandidates 4 2 7 := by
  have hplaced := placement_rendezvous insertionOrder insertionOrder threeCandidates 4 2 7
    (by decide) (by decide) (scoresApart_of_range (by decide +kernel))
  exact ⟨hplaced.1.mpr (by decide +kernel),
    hplaced.2.2.1 _ (List.reverse_perm threeCandidates)⟩

end Zb.Mds.PGManager
