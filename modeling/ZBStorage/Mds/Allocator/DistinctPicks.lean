-- SUMMARY: Picks from the cache: as many logical nodes as there are, and a usable disk with each of them.
import Mathlib.Algebra.BigOperators.Group.List.Basic
import Mathlib.Data.Nat.ModEq
import ZBStorage.Mds.Allocator.NodeStateCache

/-!
# Different logical nodes

Every position with a weight comes up within a round of the rotation, and a node
gives out its logical nodes in turn. So as long as some logical node has not been
picked, a round brings a new one, and there are attempts for as many rounds as
logical nodes are looked for.
-/

namespace Zb.Mds.NodeStateCache

open Bytes

variable {filter : NodeFilter} {base : List CachedNode} {cache : NodeStateCache}
  {node : CachedNode} {position : Nat} {ids : List Bytes}

/-! ## What picks do not change -/

/-- A node without the places of its rotations. -/
def reset (node : CachedNode) : CachedNode := { node with nextVirtualIndex := 0, nextDiskIndex := 0 }

def logicalIds (node : CachedNode) : List Bytes := (List.range node.virtualNodes).map node.logicalId

/-- The ids of the logical nodes that can be picked. -/
def allIds (filter : NodeFilter) (nodes : List CachedNode) : List Bytes :=
  (nodes.filter (·.allocatableFor filter)).flatMap logicalIds

theorem reset_set (hnode : cache.nodes[position]? = some node) :
    (cache.nodes.set position node.picked).map reset = cache.nodes.map reset := by
  obtain ⟨hlt, rfl⟩ := List.getElem?_eq_some_iff.mp hnode
  have hsame : reset cache.nodes[position].picked = reset cache.nodes[position] := rfl
  have hlt' : position < (cache.nodes.map reset).length := by rwa [List.length_map]
  rw [List.map_set, hsame, ← List.getElem_map reset (h := hlt'), List.set_getElem_self]

theorem weightAt_base (hbase : cache.nodes.map reset = base) :
    weightAt filter cache.nodes = weightAt filter base := by
  funext k
  unfold weightAt
  rw [← hbase, List.getElem?_map]
  rcases cache.nodes[k]? with _ | node
  · rfl
  · rfl

theorem allIds_base (hbase : cache.nodes.map reset = base) :
    allIds filter cache.nodes = allIds filter base := by
  rw [← hbase, allIds, allIds, List.filter_map, List.flatMap_map]
  rfl

theorem sum_filter {α : Type} (p : α → Bool) (f : α → Nat) (l : List α) :
    ((l.filter p).map f).sum = (l.map fun a => if p a then f a else 0).sum := by
  induction l with
  | nil => rfl
  | cons a l ih =>
      rw [List.filter_cons]
      split
      · rename_i h
        simp [h, ih]
      · rename_i h
        simp [h, ih]

/-- A round of the rotation is as long as the weights of the nodes say. -/
theorem sum_weights (cache : NodeStateCache) :
    (cache.turns.order.map (weightAt filter cache.nodes)).sum =
      ((cache.nodes.filter (·.allocatableFor filter)).map (·.turn)).sum := by
  have hrange : (List.range cache.nodes.length).map (weightAt filter cache.nodes) =
      cache.nodes.map fun node => if node.allocatableFor filter then node.turn else 0 := by
    refine List.ext_getElem (by simp) fun k hk _ => ?_
    have hlt : k < cache.nodes.length := by simpa using hk
    rw [List.getElem_map, List.getElem_map, List.getElem_range]
    exact weightAt_of_getElem? (List.getElem?_eq_getElem hlt)
  rw [turns, ((List.rotate_perm _ _).map _).sum_eq, hrange, sum_filter]

theorem length_allIds (nodes : List CachedNode) :
    (allIds filter nodes).length =
      ((nodes.filter (·.allocatableFor filter)).map (·.virtualNodes)).sum := by
  rw [allIds, List.length_flatMap]
  simp only [logicalIds, List.length_map, List.length_range]

theorem virtualNodes_pos (node : CachedNode) : 0 < node.virtualNodes := by
  unfold CachedNode.virtualNodes
  split
  · exact Nat.lt_of_lt_of_le Nat.zero_lt_one (Nat.le_max_left _ _)
  · exact Nat.zero_lt_one

theorem mem_allIds {nodes : List CachedNode} {id : Bytes} :
    id ∈ allIds filter nodes ↔ ∃ (position : Nat) (node : CachedNode),
      nodes[position]? = some node ∧ node.allocatableFor filter = true ∧
        ∃ x < node.virtualNodes, node.logicalId x = id := by
  constructor
  · intro h
    obtain ⟨node, hnode, hid⟩ := List.mem_flatMap.mp h
    obtain ⟨hmem, hallocatable⟩ := List.mem_filter.mp hnode
    obtain ⟨position, hposition⟩ := List.mem_iff_getElem?.mp hmem
    obtain ⟨x, hx, rfl⟩ := List.mem_map.mp hid
    exact ⟨position, node, hposition, hallocatable, x, List.mem_range.mp hx, rfl⟩
  · intro ⟨position, node, hnode, hallocatable, x, hx, hid⟩
    refine List.mem_flatMap.mpr ⟨node, List.mem_filter.mpr ⟨?_, hallocatable⟩, ?_⟩
    · exact List.mem_of_getElem? hnode
    · exact List.mem_map.mpr ⟨x, List.mem_range.mpr hx, hid⟩

/-- A logical id leads to one position and one index. -/
theorem logicalId_injective {nodes : List CachedNode} (hdistinct : (allIds filter nodes).Nodup)
    {p q x y : Nat} {a b : CachedNode} (ha : nodes[p]? = some a) (hb : nodes[q]? = some b)
    (haok : a.allocatableFor filter = true) (hbok : b.allocatableFor filter = true)
    (hx : x < a.virtualNodes) (hy : y < b.virtualNodes) (hid : a.logicalId x = b.logicalId y) :
    p = q ∧ x = y := by
  obtain ⟨hown, hapart⟩ := List.nodup_flatMap.mp hdistinct
  have hpairs := List.pairwise_iff_getElem.mp (List.pairwise_filter.mp hapart)
  obtain ⟨hp, rfl⟩ := List.getElem?_eq_some_iff.mp ha
  obtain ⟨hq, rfl⟩ := List.getElem?_eq_some_iff.mp hb
  have hamem : nodes[p].logicalId x ∈ logicalIds nodes[p] :=
    List.mem_map.mpr ⟨x, List.mem_range.mpr hx, rfl⟩
  have hbmem : nodes[p].logicalId x ∈ logicalIds nodes[q] :=
    List.mem_map.mpr ⟨y, List.mem_range.mpr hy, hid.symm⟩
  have hpq : p = q := by
    rcases Nat.lt_trichotomy p q with hlt | heq | hgt
    · exact absurd hbmem (hpairs p q hp hq hlt haok hbok hamem)
    · exact heq
    · exact absurd hamem (hpairs q p hq hp hgt hbok haok hbmem)
  subst hpq
  refine ⟨rfl, ?_⟩
  have hnodup := hown nodes[p] (List.mem_filter.mpr ⟨List.getElem_mem hp, haok⟩)
  exact List.inj_on_of_nodup_map hnodup (List.mem_range.mpr hx) (List.mem_range.mpr hy) hid

/-! ## The logical nodes of a node -/

theorem virtualIndex_eq (node : CachedNode) :
    node.virtualIndex = node.nextVirtualIndex % node.virtualNodes := by
  unfold CachedNode.virtualIndex CachedNode.virtualNodes
  split
  · rfl
  · exact (Nat.mod_one _).symm

theorem virtualIndex_lt (node : CachedNode) : node.virtualIndex < node.virtualNodes := by
  rw [virtualIndex_eq]
  exact Nat.mod_lt _ (virtualNodes_pos node)

theorem nextVirtualIndex_picked (node : CachedNode) :
    node.picked.nextVirtualIndex % node.virtualNodes =
      (node.nextVirtualIndex + 1) % node.virtualNodes := by
  unfold CachedNode.picked CachedNode.virtualNodes
  simp only
  split
  · exact Nat.mod_mod _ _
  · rw [Nat.mod_one, Nat.mod_one]

/-- Of a node's logical nodes, those are picked that it has given out in turn. -/
def Rotating (ids : List Bytes) (node : CachedNode) : Prop :=
  ∃ start count, node.nextVirtualIndex % node.virtualNodes = (start + count) % node.virtualNodes ∧
    ∀ x < node.virtualNodes, node.logicalId x ∈ ids ↔
      ∃ k < count, (start + k) % node.virtualNodes = x

theorem rotating_start (node : CachedNode) : Rotating [] node :=
  ⟨node.nextVirtualIndex, 0, rfl, fun _ _ =>
    iff_of_false List.not_mem_nil fun ⟨k, hk, _⟩ => absurd hk (Nat.not_lt_zero k)⟩

theorem exists_add_mod (start : Nat) {size x : Nat} (hx : x < size) :
    ∃ k < size, (start + k) % size = x := by
  have hpos : 0 < size := Nat.zero_lt_of_lt hx
  refine ⟨(x + (size - start % size)) % size, Nat.mod_lt _ hpos, ?_⟩
  have hmod := Nat.mod_lt start hpos
  have hsum : start + (x + (size - start % size)) = x + size * (start / size + 1) := by
    have hdiv := Nat.div_add_mod start size
    rw [Nat.mul_add, Nat.mul_one]
    omega
  rw [Nat.add_mod_mod, hsum, Nat.add_mul_mod_self_left, Nat.mod_eq_of_lt hx]

/-- As long as one of its logical nodes is not picked, a node has a new one next. -/
theorem Rotating.new (h : Rotating ids node) {x : Nat} (hx : x < node.virtualNodes)
    (hnot : node.logicalId x ∉ ids) : node.logicalId node.virtualIndex ∉ ids := by
  obtain ⟨start, count, hnext, hpicked⟩ := h
  have hcount : count < node.virtualNodes := by
    by_contra hle
    obtain ⟨k, hk, hkx⟩ := exists_add_mod start hx
    exact hnot ((hpicked x hx).mpr ⟨k, hk.trans_le (Nat.le_of_not_lt hle), hkx⟩)
  rw [virtualIndex_eq, hnext]
  intro hmem
  obtain ⟨k, hk, hkx⟩ := (hpicked _ (Nat.mod_lt _ (virtualNodes_pos node))).mp hmem
  have hsame : k % node.virtualNodes = count % node.virtualNodes :=
    Nat.ModEq.add_left_cancel' start hkx
  rw [Nat.mod_eq_of_lt (hk.trans hcount), Nat.mod_eq_of_lt hcount] at hsame
  exact absurd hk (hsame ▸ Nat.lt_irrefl _)

theorem Rotating.picked {ids' : List Bytes} (h : Rotating ids node)
    (hinj : ∀ x < node.virtualNodes, ∀ y < node.virtualNodes,
      node.logicalId x = node.logicalId y → x = y)
    (hids : ∀ id, id ∈ ids' ↔ id ∈ ids ∨ id = node.logicalId node.virtualIndex) :
    Rotating ids' node.picked := by
  obtain ⟨start, count, hnext, hpicked⟩ := h
  refine ⟨start, count + 1, ?_, fun x hx => ?_⟩
  · show node.picked.nextVirtualIndex % node.virtualNodes = _ % node.virtualNodes
    rw [nextVirtualIndex_picked, Nat.add_mod, hnext, ← Nat.add_mod, Nat.add_assoc]
  · have hx : x < node.virtualNodes := hx
    show node.logicalId x ∈ ids' ↔ ∃ k < count + 1, (start + k) % node.virtualNodes = x
    have hlast : node.logicalId x = node.logicalId node.virtualIndex ↔
        (start + count) % node.virtualNodes = x := by
      rw [← hnext, ← virtualIndex_eq]
      constructor
      · exact fun heq => (hinj x hx _ (virtualIndex_lt node) heq).symm
      · rintro rfl
        rfl
    rw [hids, hpicked x hx, hlast]
    constructor
    · rintro (⟨k, hk, hkx⟩ | hnow)
      · exact ⟨k, Nat.lt_succ_of_lt hk, hkx⟩
      · exact ⟨count, Nat.lt_succ_self count, hnow⟩
    · intro ⟨k, hk, hkx⟩
      rcases Nat.lt_succ_iff_lt_or_eq.mp hk with hlt | rfl
      · exact .inl ⟨k, hlt, hkx⟩
      · exact .inr hkx

theorem Rotating.congr {ids' : List Bytes} (h : Rotating ids node)
    (hids : ∀ x < node.virtualNodes, node.logicalId x ∈ ids' ↔ node.logicalId x ∈ ids) :
    Rotating ids' node := by
  obtain ⟨start, count, hnext, hpicked⟩ := h
  exact ⟨start, count, hnext, fun x hx => (hids x hx).trans (hpicked x hx)⟩

/-! ## A selection -/

/-- A usable disk is found, wherever the search starts. -/
theorem pickDisk_usable {v : Nat} (h : node.disks.any DiskInfo.usable = true) :
    ∃ disk ∈ node.disks, disk.usable = true ∧ (node.pickDisk v).1 = disk.diskId := by
  obtain ⟨disk, hdisk, husable⟩ := List.any_eq_true.mp h
  obtain ⟨j, hj, rfl⟩ := List.mem_iff_getElem.mp hdisk
  have hne : node.disks ≠ [] := List.ne_nil_of_mem hdisk
  have hlen : 0 < node.disks.length := Nat.zero_lt_of_lt hj
  unfold CachedNode.pickDisk
  rw [if_neg hne]
  simp only
  split
  · rename_i i hfind
    have hfound := List.find?_some hfind
    have hlt := Nat.mod_lt
      (node.nextDiskIndex % node.disks.length + v % node.disks.length + i) hlen
    rw [List.getElem?_eq_getElem hlt] at hfound ⊢
    exact ⟨_, List.getElem_mem hlt, hfound, rfl⟩
  · rename_i hfind
    obtain ⟨i, hi, hij⟩ := exists_add_mod
      (node.nextDiskIndex % node.disks.length + v % node.disks.length) hj
    have hnot := List.find?_eq_none.mp hfind i (List.mem_range.mpr hi)
    rw [hij, List.getElem?_eq_getElem hj] at hnot
    exact absurd husable hnot

/-- The selection names a logical node of one of the nodes, and a usable disk of it. -/
def FromNode (filter : NodeFilter) (nodes : List CachedNode) (selection : NodeSelection) : Prop :=
  ∃ node ∈ nodes, node.allocatableFor filter = true ∧
    (∃ x < node.virtualNodes, selection.nodeId = node.logicalId x) ∧
    selection.address = node.address ∧ selection.type = node.type ∧
    selection.groupId = (if node.groupId = [] then node.nodeId else node.groupId) ∧
    ∃ disk ∈ node.disks, disk.usable = true ∧ selection.diskId = disk.diskId

theorem fromNode_select {nodes : List CachedNode} (hnode : nodes[position]? = some node)
    (hallocatable : node.allocatableFor filter = true) : FromNode filter nodes node.select := by
  have hdisks : node.disks.any DiskInfo.usable = true := by
    unfold CachedNode.allocatableFor at hallocatable
    simp only [Bool.and_eq_true] at hallocatable
    exact hallocatable.1.2
  exact ⟨node, List.mem_of_getElem? hnode, hallocatable,
    ⟨node.virtualIndex, virtualIndex_lt node, rfl⟩, rfl, rfl, rfl, pickDisk_usable hdisks⟩

theorem fromNode_base (hbase : cache.nodes.map reset = base) {selection : NodeSelection} :
    FromNode filter cache.nodes selection ↔ FromNode filter base selection := by
  subst hbase
  constructor
  · intro ⟨node, hmem, h⟩
    exact ⟨reset node, List.mem_map.mpr ⟨node, hmem, rfl⟩, h⟩
  · intro ⟨node', hmem, h⟩
    obtain ⟨node, hnode, rfl⟩ := List.mem_map.mp hmem
    exact ⟨node, hnode, h⟩

theorem FromNode.nodeId_mem {nodes : List CachedNode} {selection : NodeSelection}
    (h : FromNode filter nodes selection) : selection.nodeId ∈ allIds filter nodes := by
  obtain ⟨node, hmem, hallocatable, ⟨x, hx, hid⟩, _⟩ := h
  obtain ⟨position, hposition⟩ := List.mem_iff_getElem?.mp hmem
  exact mem_allIds.mpr ⟨position, node, hposition, hallocatable, x, hx, hid.symm⟩

/-- Either no node can be picked, or one of them is. -/
theorem nextSelection_cases (filter : NodeFilter) (cache : NodeStateCache) :
    (allIds filter cache.nodes = [] ∧ (cache.nextSelection filter).1 = {} ∧
        (cache.nextSelection filter).2.nodes = cache.nodes) ∨
      ∃ position node cache', cache.nodes[position]? = some node ∧
        node.allocatableFor filter = true ∧ cache.nextSelection filter = (node.select, cache') ∧
        cache'.nodes = cache.nodes.set position node.picked ∧
        cache.turns.next? (weightAt filter cache.nodes) = some (position, cache'.turns) := by
  rcases Turns.next?_cases (weightAt filter cache.nodes) cache.turns with
    hzero | ⟨skipped, position, rest, hskip, hpos, horder⟩
  · have hall (k : Nat) : weightAt filter cache.nodes k = 0 := by
      rcases Nat.eq_zero_or_pos (weightAt filter cache.nodes k) with hk | hpos
      · exact hk
      · obtain ⟨node, hnode, _⟩ := weightAt_pos_iff.mp hpos
        have hlt : k < cache.nodes.length := (List.getElem?_eq_some_iff.mp hnode).1
        exact hzero k (List.mem_rotate.mpr (List.mem_range.mpr hlt))
    refine .inl ⟨List.eq_nil_iff_forall_not_mem.mpr fun id hid => ?_, nextSelection_of_none hall⟩
    obtain ⟨k, node, hnode, hallocatable, _⟩ := mem_allIds.mp hid
    exact (weightAt_pos_iff.mpr ⟨node, hnode, hallocatable⟩).ne' (hall k)
  · have hnext := Turns.next?_eq hskip hpos horder
    obtain ⟨node, cache', hnode, hallocatable, hselection, hnodes, hturns⟩ :=
      nextSelection_of_next? hnext
    exact .inr ⟨position, node, cache', hnode, hallocatable, hselection, hnodes, hturns ▸ hnext⟩

/-- What the loops collect, whatever the state: selections of the nodes, with names. -/
def Selected (filter : NodeFilter) (base : List CachedNode) (picked : List NodeSelection) : Prop :=
  ∀ selection ∈ picked, FromNode filter base selection ∧ selection.nodeId ≠ []

theorem Selected.concat {picked : List NodeSelection} {selection : NodeSelection}
    (h : Selected filter base picked) (hfrom : FromNode filter base selection)
    (hname : selection.nodeId ≠ []) : Selected filter base (picked ++ [selection]) := by
  intro s hs
  rcases List.mem_append.mp hs with hold | hlast
  · exact h s hold
  · exact List.mem_singleton.mp hlast ▸ ⟨hfrom, hname⟩

theorem nextSelection_fromNode (hbase : cache.nodes.map reset = base)
    (hname : (cache.nextSelection filter).1.nodeId ≠ []) :
    FromNode filter base (cache.nextSelection filter).1 ∧
      (cache.nextSelection filter).2.nodes.map reset = base := by
  rcases nextSelection_cases filter cache with ⟨_, hempty, _⟩ |
    ⟨position, node, cache', hnode, hallocatable, hselection, hnodes, _⟩
  · exact absurd (by rw [hempty]) hname
  · rw [hselection]
    refine ⟨(fromNode_base hbase).mp (fromNode_select hnode hallocatable), ?_⟩
    rw [hnodes, reset_set hnode, hbase]

theorem nextSelection_nodes (hbase : cache.nodes.map reset = base) :
    (cache.nextSelection filter).2.nodes.map reset = base := by
  rcases nextSelection_cases filter cache with ⟨_, _, hsame⟩ |
    ⟨position, node, cache', hnode, _, hselection, hnodes, _⟩
  · rw [hsame, hbase]
  · rw [hselection, hnodes, reset_set hnode, hbase]

theorem pickDistinct_selected {picked : List NodeSelection} (hbase : cache.nodes.map reset = base)
    (h : Selected filter base picked) (target attempts : Nat) :
    Selected filter base (pickDistinct filter target attempts cache picked).1 ∧
      (pickDistinct filter target attempts cache picked).2.nodes.map reset = base := by
  induction attempts generalizing cache picked with
  | zero => exact ⟨h, hbase⟩
  | succ attempts ih =>
      rw [pickDistinct]
      split
      · exact ⟨h, hbase⟩
      · simp only
        split
        · exact ⟨h, nextSelection_nodes hbase⟩
        · rename_i hname
          obtain ⟨hfrom, hbase'⟩ := nextSelection_fromNode hbase hname
          split
          · exact ih hbase' h
          · exact ih hbase' (h.concat hfrom hname)

theorem pickRepeats_selected {picked : List NodeSelection} (hbase : cache.nodes.map reset = base)
    (h : Selected filter base picked) (missing : Nat) :
    Selected filter base (pickRepeats filter missing cache picked).1 := by
  induction missing generalizing cache picked with
  | zero => exact h
  | succ missing ih =>
      rw [pickRepeats]
      simp only
      split
      · exact h
      · rename_i hname
        obtain ⟨hfrom, hbase'⟩ := nextSelection_fromNode hbase hname
        exact ih hbase' (h.concat hfrom hname)

/-- Whatever the state, a pick is of one of the nodes. -/
theorem pick_selected (cache : NodeStateCache) (count : UInt32) :
    Selected filter cache.nodes (cache.pick filter count).1 := by
  unfold pick
  split
  · exact nofun
  · obtain ⟨hselected, hbase⟩ := pickDistinct_selected (rfl : cache.nodes.map reset = _)
      (nofun : Selected filter _ []) (cache.uniqueTarget filter count)
      (cache.maxAttempts filter count)
    have h := pickRepeats_selected hbase hselected
      (count.toNat - (pickDistinct filter (cache.uniqueTarget filter count)
        (cache.maxAttempts filter count) cache []).1.length)
    exact fun s hs => ⟨(fromNode_base rfl).mpr (h s hs).1, (h s hs).2⟩

/-! ## The place of the rotation -/

/-- The node at the cursor has no more repeats left than its weight gives it. -/
def RepeatsFit (cache : NodeStateCache) : Prop :=
  ∀ node ∈ cache.nodes[cache.nextNodeIndex % cache.nodes.length]?, cache.repeatRemaining ≤ node.turn

theorem repeatsFit_of_zero (h : cache.repeatRemaining = 0) : RepeatsFit cache := by
  intro node _
  rw [h]
  exact Nat.zero_le _

theorem RepeatsFit.bounded (h : RepeatsFit cache) : cache.turns.Bounded (weightAt filter cache.nodes) := by
  intro position hposition hpos
  obtain ⟨node, hnode, hallocatable⟩ := weightAt_pos_iff.mp hpos
  obtain ⟨rest, horder⟩ : ∃ rest, cache.turns.order = position :: rest := by
    rcases horder : cache.turns.order with _ | ⟨k, rest⟩
    · rw [horder] at hposition
      exact nomatch hposition
    · rw [horder] at hposition
      cases hposition
      exact ⟨rest, rfl⟩
  rw [weightAt_of_getElem? hnode, if_pos hallocatable]
  exact h node (by rw [order_of_cursor horder]; exact hnode)

theorem RepeatsFit.findNode (h : RepeatsFit cache) (remaining : Nat) :
    RepeatsFit (findNode filter remaining cache).1 ∧
      ∀ node ∈ (NodeStateCache.findNode filter remaining cache).2,
        let found := (NodeStateCache.findNode filter remaining cache).1
        found.nodes[found.nextNodeIndex % found.nodes.length]? = some node := by
  induction remaining generalizing cache with
  | zero => exact ⟨h, fun _ hnode => absurd hnode (Option.not_mem_none _)⟩
  | succ remaining ih =>
      rw [NodeStateCache.findNode]
      split
      · exact ⟨h, fun _ hnode => absurd hnode (Option.not_mem_none _)⟩
      · rename_i candidate hcandidate
        split
        · refine ⟨h, fun node hnode => ?_⟩
          cases hnode
          exact hcandidate
        · exact ih (repeatsFit_of_zero rfl)

theorem RepeatsFit.nextSelection (h : RepeatsFit cache) :
    RepeatsFit (cache.nextSelection filter).2 := by
  obtain ⟨hfound, hnode⟩ :
      RepeatsFit (NodeStateCache.findNode filter cache.nodes.length cache).1 ∧ _ :=
    h.findNode cache.nodes.length
  rw [NodeStateCache.nextSelection]
  rcases hfind : NodeStateCache.findNode filter cache.nodes.length cache with ⟨found, _ | node⟩
  · rw [hfind] at hfound
    exact hfound
  · rw [hfind] at hfound hnode
    have hcursor : found.nodes[found.nextNodeIndex % found.nodes.length]? = some node :=
      hnode node rfl
    have hlt := (List.getElem?_eq_some_iff.mp hcursor).1
    have hfits : (if found.repeatRemaining = 0 then node.turn else found.repeatRemaining) ≤
        node.turn := by
      split
      · exact le_refl _
      · exact hfound node hcursor
    show RepeatsFit (found.afterPick node)
    unfold NodeStateCache.afterPick
    simp only
    generalize (if found.repeatRemaining = 0 then node.turn else found.repeatRemaining) = left at hfits
    rcases eq_or_ne (left - 1) 0 with hzero | hmore
    · exact repeatsFit_of_zero hzero
    · rw [if_neg hmore]
      intro node' hnode'
      simp only [List.length_set] at hnode'
      rw [List.getElem?_set_self hlt] at hnode'
      cases hnode'
      exact (Nat.sub_le _ _).trans hfits

theorem RepeatsFit.pickDistinct (h : RepeatsFit cache) (target attempts : Nat)
    (picked : List NodeSelection) :
    RepeatsFit (pickDistinct filter target attempts cache picked).2 := by
  induction attempts generalizing cache picked with
  | zero => exact h
  | succ attempts ih =>
      rw [NodeStateCache.pickDistinct]
      split
      · exact h
      · simp only
        split
        · exact h.nextSelection
        · split
          · exact ih h.nextSelection picked
          · exact ih h.nextSelection _

theorem RepeatsFit.pickRepeats (h : RepeatsFit cache) (missing : Nat)
    (picked : List NodeSelection) : RepeatsFit (pickRepeats filter missing cache picked).2 := by
  induction missing generalizing cache picked with
  | zero => exact h
  | succ missing ih =>
      rw [NodeStateCache.pickRepeats]
      simp only
      split
      · exact h.nextSelection
      · exact ih h.nextSelection _

/-- Picks leave the place of the rotation as the next picks need it. -/
theorem RepeatsFit.pick (h : RepeatsFit cache) (count : UInt32) :
    RepeatsFit (cache.pick filter count).2 := by
  unfold NodeStateCache.pick
  split
  · exact h
  · exact (h.pickDistinct _ _ []).pickRepeats _ _

/-! ## Collecting different logical nodes -/

/-- The state of the loop: the logical nodes picked are different ones, and of every node
those that it has given out in turn. -/
structure Collected (filter : NodeFilter) (base : List CachedNode) (cache : NodeStateCache)
    (picked : List NodeSelection) : Prop where
  nodes_eq : cache.nodes.map reset = base
  bounded : cache.turns.Bounded (weightAt filter base)
  rotating : ∀ (position : Nat) (node : CachedNode), cache.nodes[position]? = some node →
    node.allocatableFor filter = true → Rotating (picked.map (·.nodeId)) node
  nodup : (picked.map (·.nodeId)).Nodup
  origin : ∀ selection ∈ picked, FromNode filter base selection

/-- The picks of one round. -/
def roundSize (filter : NodeFilter) (base : List CachedNode) : Nat :=
  ((base.filter (·.allocatableFor filter)).map (·.turn)).sum

namespace Collected

variable {picked picked' : List NodeSelection} {cache' : NodeStateCache}

theorem start (hfit : RepeatsFit cache) :
    Collected filter (cache.nodes.map reset) cache [] where
  nodes_eq := rfl
  bounded := by
    rw [← weightAt_base rfl]
    exact hfit.bounded
  rotating _ node _ _ := rotating_start node
  nodup := List.nodup_nil
  origin := nofun

theorem length_slots (h : Collected filter base cache picked) :
    (cache.turns.slots (weightAt filter base)).length = roundSize filter base := by
  have hsum : ∀ nodes : List CachedNode, ((nodes.filter (·.allocatableFor filter)).map (·.turn)).sum =
      (((nodes.map reset).filter (·.allocatableFor filter)).map (·.turn)).sum := by
    intro nodes
    rw [List.filter_map, List.map_map]
    rfl
  rw [Turns.length_slots h.bounded, ← weightAt_base h.nodes_eq, sum_weights, hsum, h.nodes_eq,
    roundSize]

/-- As long as the picks are fewer than the logical nodes, one of these is not picked. -/
theorem exists_unpicked (h : Collected filter base cache picked)
    (hlt : picked.length < (allIds filter base).length)
    (hdistinct : (allIds filter base).Nodup) :
    ∃ (position : Nat) (node : CachedNode) (x : Nat), cache.nodes[position]? = some node ∧
      node.allocatableFor filter = true ∧ x < node.virtualNodes ∧
        node.logicalId x ∉ picked.map (·.nodeId) := by
  obtain ⟨id, hid, hnot⟩ : ∃ id ∈ allIds filter base, id ∉ picked.map (·.nodeId) := by
    by_contra hall
    have hsubset : allIds filter base ⊆ picked.map (·.nodeId) := fun id hid => by
      by_contra hnot
      exact hall ⟨id, hid, hnot⟩
    have hle := (List.Nodup.subperm hdistinct hsubset).length_le
    rw [List.length_map] at hle
    exact absurd hlt (Nat.not_lt.mpr hle)
  rw [← allIds_base h.nodes_eq] at hid
  obtain ⟨position, node, hnode, hallocatable, x, hx, rfl⟩ := mem_allIds.mp hid
  exact ⟨position, node, x, hnode, hallocatable, hx, hnot⟩

/-- One pick, new or not. -/
theorem step {node : CachedNode} (h : Collected filter base cache picked)
    (hdistinct : (allIds filter base).Nodup) (hnode : cache.nodes[position]? = some node)
    (hallocatable : node.allocatableFor filter = true)
    (hnodes : cache'.nodes = cache.nodes.set position node.picked)
    (hbounded : cache'.turns.Bounded (weightAt filter base))
    (hids : ∀ id, id ∈ picked'.map (·.nodeId) ↔
      id ∈ picked.map (·.nodeId) ∨ id = node.logicalId node.virtualIndex)
    (hnodup : (picked'.map (·.nodeId)).Nodup)
    (horigin : ∀ selection ∈ picked', FromNode filter base selection) :
    Collected filter base cache' picked' where
  nodes_eq := by rw [hnodes, reset_set hnode, h.nodes_eq]
  bounded := hbounded
  rotating q node' hnode' hallocatable' := by
    rw [← allIds_base h.nodes_eq] at hdistinct
    rw [hnodes] at hnode'
    rcases eq_or_ne position q with rfl | hne
    · have hlt : position < cache.nodes.length := (List.getElem?_eq_some_iff.mp hnode).1
      rw [List.getElem?_set_self hlt] at hnode'
      cases hnode'
      refine (h.rotating position node hnode hallocatable).picked (fun x hx y hy hxy => ?_) hids
      exact (logicalId_injective hdistinct hnode hnode hallocatable hallocatable hx hy hxy).2
    · rw [List.getElem?_set_ne hne] at hnode'
      refine (h.rotating q node' hnode' hallocatable').congr fun x hx => ?_
      rw [hids]
      refine or_iff_left fun hsame => hne ?_
      exact (logicalId_injective hdistinct hnode hnode' hallocatable hallocatable'
        (virtualIndex_lt node) hx hsame.symm).1
  nodup := hnodup
  origin := horigin

end Collected

/-- There are attempts for a round with each logical node that is looked for, and the next
new one comes up in `turn` picks at most. -/
theorem Collected.pickDistinct {picked : List NodeSelection} {target attempts : Nat}
    (h : Collected filter base cache picked) (hdistinct : (allIds filter base).Nodup)
    (hnames : [] ∉ allIds filter base) (htarget : target ≤ (allIds filter base).length)
    (hle : picked.length ≤ target)
    (hattempts : picked.length < target → ∃ (p : Nat) (node : CachedNode) (x : Nat),
      cache.nodes[p]? = some node ∧ node.allocatableFor filter = true ∧ x < node.virtualNodes ∧
      node.logicalId x ∉ picked.map (·.nodeId) ∧
      (cache.turns.slots (weightAt filter base)).idxOf p +
        (target - picked.length - 1) * roundSize filter base + 1 ≤ attempts) :
    (pickDistinct filter target attempts cache picked).1.length = target ∧
      Collected filter base (pickDistinct filter target attempts cache picked).2
        (pickDistinct filter target attempts cache picked).1 := by
  induction attempts generalizing cache picked with
  | zero =>
      refine ⟨?_, h⟩
      rcases Nat.lt_or_ge picked.length target with hlt | hge
      · obtain ⟨_, _, _, _, _, _, _, habsurd⟩ := hattempts hlt
        exact absurd habsurd (Nat.not_succ_le_zero _)
      · exact Nat.le_antisymm hle hge
  | succ attempts ih =>
      rw [NodeStateCache.pickDistinct]
      rcases Nat.lt_or_ge picked.length target with hlt | hge
      swap
      · rw [if_pos hge]
        exact ⟨Nat.le_antisymm hle hge, h⟩
      rw [if_neg (Nat.not_le.mpr hlt)]
      obtain ⟨p, wanted, x, hwanted, hallowed, hx, hnew, hleft⟩ := hattempts hlt
      rcases nextSelection_cases filter cache with ⟨hnone, _⟩ |
        ⟨position, node, cache', hnode, hallocatable, hselection, hnodes, hnext⟩
      · have hmem : wanted.logicalId x ∈ allIds filter cache.nodes :=
          mem_allIds.mpr ⟨p, wanted, hwanted, hallowed, x, hx, rfl⟩
        rw [hnone] at hmem
        exact nomatch hmem
      rw [weightAt_base h.nodes_eq] at hnext
      obtain ⟨later, hslots, hslots', hbounded, _, _⟩ := Turns.slots_next? h.bounded hnext
      have horigin : FromNode filter base node.select :=
        (fromNode_base h.nodes_eq).mp (fromNode_select hnode hallocatable)
      have hname : node.select.nodeId ≠ [] := fun hnil => hnames (hnil ▸ horigin.nodeId_mem)
      rw [hselection]
      simp only [if_neg hname]
      split
      · rename_i hknown
        -- the node whose logical nodes are not all picked is another one, and one turn nearer
        have hne : position ≠ p := by
          rintro rfl
          rw [hwanted] at hnode
          cases hnode
          exact (h.rotating position wanted hwanted hallowed).new hx hnew hknown
        have hnext' : Collected filter base _ picked := h.step hdistinct hnode hallocatable hnodes
          hbounded (fun _ => (or_iff_left_of_imp fun heq => heq ▸ hknown).symm) h.nodup h.origin
        refine ih hnext' hle fun _ => ⟨p, wanted, x, ?_, hallowed, hx, hnew, ?_⟩
        · rw [hnodes, List.getElem?_set_ne hne]
          exact hwanted
        · have hmem : p ∈ position :: later := by
            rw [← hslots]
            refine Turns.mem_slots (List.mem_rotate.mpr (List.mem_range.mpr ?_)) ?_
            · exact (List.getElem?_eq_some_iff.mp hwanted).1
            · rw [← weightAt_base h.nodes_eq]
              exact weightAt_pos_iff.mpr ⟨wanted, hwanted, hallowed⟩
          have hlater : p ∈ later := (List.mem_cons.mp hmem).resolve_left hne.symm
          rw [hslots, List.idxOf_cons_ne later hne] at hleft
          rw [hslots', List.idxOf_append_of_mem hlater]
          omega
      · rename_i hunknown
        have hnodup : ((picked ++ [node.select]).map (·.nodeId)).Nodup := by
          rw [List.map_append]
          exact List.nodup_append.mpr ⟨h.nodup, List.nodup_singleton _, by
            intro a ha b hb hab
            rw [List.map_singleton, List.mem_singleton] at hb
            exact hunknown (hb ▸ hab ▸ ha)⟩
        have hnext' : Collected filter base cache' (picked ++ [node.select]) := by
          refine h.step hdistinct hnode hallocatable hnodes hbounded (fun id => ?_) hnodup ?_
          · rw [List.map_append, List.mem_append, List.map_singleton, List.mem_singleton]
            rfl
          · intro selection hmem
            rcases List.mem_append.mp hmem with hold | hlast
            · exact h.origin selection hold
            · exact List.mem_singleton.mp hlast ▸ horigin
        have hlength : (picked ++ [node.select]).length = picked.length + 1 := List.length_append
        refine ih hnext' (hlength ▸ hlt) fun hmore => ?_
        obtain ⟨q, fresh, y, hfresh, hfreshok, hy, hunpicked⟩ :=
          hnext'.exists_unpicked (hmore.trans_le htarget) hdistinct
        refine ⟨q, fresh, y, hfresh, hfreshok, hy, hunpicked, ?_⟩
        have hmem : q ∈ cache'.turns.slots (weightAt filter base) := by
          refine Turns.mem_slots (List.mem_rotate.mpr (List.mem_range.mpr ?_)) ?_
          · exact (List.getElem?_eq_some_iff.mp hfresh).1
          · rw [← weightAt_base hnext'.nodes_eq]
            exact weightAt_pos_iff.mpr ⟨fresh, hfresh, hfreshok⟩
        have hround := List.idxOf_lt_length_of_mem hmem
        rw [hnext'.length_slots] at hround
        rw [hlength] at hmore ⊢
        obtain ⟨missing, hmissing⟩ := Nat.exists_eq_add_of_lt hmore
        have hthis : target - picked.length - 1 = missing + 1 := by omega
        have hrest : target - (picked.length + 1) - 1 = missing := by omega
        rw [hthis, Nat.succ_mul] at hleft
        rw [hrest]
        omega

theorem pickRepeats_fills (hbase : cache.nodes.map reset = base) (hnames : [] ∉ allIds filter base)
    (hsome : allIds filter base ≠ []) (missing : Nat) (picked : List NodeSelection) :
    ∃ more, (pickRepeats filter missing cache picked).1 = picked ++ more ∧
      more.length = missing ∧ ∀ selection ∈ more, FromNode filter base selection := by
  induction missing generalizing cache picked with
  | zero => exact ⟨[], (List.append_nil _).symm, rfl, nofun⟩
  | succ missing ih =>
      rw [pickRepeats]
      rcases nextSelection_cases filter cache with ⟨hnone, _⟩ |
        ⟨position, node, cache', hnode, hallocatable, hselection, hnodes, _⟩
      · exact absurd (allIds_base hbase ▸ hnone) hsome
      · have horigin : FromNode filter base node.select :=
          (fromNode_base hbase).mp (fromNode_select hnode hallocatable)
        have hname : node.select.nodeId ≠ [] := fun hnil => hnames (hnil ▸ horigin.nodeId_mem)
        have hbase' : cache'.nodes.map reset = base := by rw [hnodes, reset_set hnode, hbase]
        obtain ⟨more, hmore, hlength, hall⟩ := ih hbase' (picked ++ [node.select])
        rw [hselection]
        simp only [if_neg hname]
        refine ⟨node.select :: more, ?_, congrArg (· + 1) hlength, ?_⟩
        · rw [hmore, List.append_assoc]
          rfl
        · intro selection hmem
          rcases List.mem_cons.mp hmem with rfl | htail
          · exact horigin
          · exact hall selection htail

theorem pickRepeats_none (hnone : allIds filter cache.nodes = []) (missing : Nat)
    (picked : List NodeSelection) : (pickRepeats filter missing cache picked).1 = picked := by
  cases missing with
  | zero => rfl
  | succ missing =>
      rcases nextSelection_cases filter cache with ⟨_, hempty, _⟩ |
        ⟨position, node, _, hnode, hallocatable, _⟩
      · rw [pickRepeats]
        simp only [hempty, if_true]
      · have hmem := mem_allIds.mpr
          ⟨position, node, hnode, hallocatable, 0, virtualNodes_pos node, rfl⟩
        rw [hnone] at hmem
        exact nomatch hmem

theorem estimateLogicalNodeCount_eq (cache : NodeStateCache) :
    cache.estimateLogicalNodeCount filter = (allIds filter cache.nodes).length :=
  (length_allIds cache.nodes).symm

theorem roundSize_le (cache : NodeStateCache) :
    roundSize filter (cache.nodes.map reset) ≤ cache.estimateWeightSum filter := by
  rw [roundSize, List.filter_map, List.map_map]
  exact le_max_right 1 _

/-- The attempts suffice, wherever the rotation stands. -/
theorem pickDistinct_collects (hfit : RepeatsFit cache) (hdistinct : (allIds filter cache.nodes).Nodup)
    (hnames : [] ∉ allIds filter cache.nodes) (count : UInt32)
    (hsmall : cache.uniqueTarget filter count * cache.estimateWeightSum filter * 2 ≤ 1000000) :
    let out := pickDistinct filter (cache.uniqueTarget filter count)
      (cache.maxAttempts filter count) cache []
    out.1.length = cache.uniqueTarget filter count ∧
      Collected filter (cache.nodes.map reset) out.2 out.1 := by
  have hstart : Collected filter (cache.nodes.map reset) cache [] := Collected.start hfit
  have hbase : allIds filter cache.nodes = allIds filter (cache.nodes.map reset) := allIds_base rfl
  have htarget : cache.uniqueTarget filter count ≤ (allIds filter (cache.nodes.map reset)).length := by
    rw [uniqueTarget, estimateLogicalNodeCount_eq, hbase]
    exact Nat.min_le_right _ _
  rw [hbase] at hdistinct hnames
  refine hstart.pickDistinct hdistinct hnames htarget (Nat.zero_le _) fun hpos => ?_
  obtain ⟨p, node, x, hnode, hallocatable, hx, hnew⟩ :=
    hstart.exists_unpicked (hpos.trans_le htarget) hdistinct
  refine ⟨p, node, x, hnode, hallocatable, hx, hnew, ?_⟩
  have hmem : p ∈ cache.turns.slots (weightAt filter (cache.nodes.map reset)) := by
    refine Turns.mem_slots (List.mem_rotate.mpr (List.mem_range.mpr ?_)) ?_
    · exact (List.getElem?_eq_some_iff.mp hnode).1
    · rw [← weightAt_base rfl]
      exact weightAt_pos_iff.mpr ⟨node, hnode, hallocatable⟩
  have hround := List.idxOf_lt_length_of_mem hmem
  rw [hstart.length_slots] at hround
  have hrounds : cache.uniqueTarget filter count * roundSize filter (cache.nodes.map reset) ≤
      cache.maxAttempts filter count := by
    have hle := Nat.mul_le_mul_left (cache.uniqueTarget filter count)
      (roundSize_le cache : _ ≤ cache.estimateWeightSum filter)
    unfold maxAttempts
    omega
  obtain ⟨more, hmore⟩ := Nat.exists_eq_add_one.mpr (Nat.zero_lt_of_lt hpos)
  rw [hmore, Nat.succ_mul] at hrounds
  rw [hmore, List.length_nil, Nat.sub_zero, Nat.add_sub_cancel]
  omega

/-- What picks from the cache are: different logical nodes first, and then on to the count. -/
theorem pick_eq (hfit : RepeatsFit cache) (hdistinct : (allIds filter cache.nodes).Nodup)
    (hnames : [] ∉ allIds filter cache.nodes) (count : UInt32)
    (hsmall : cache.uniqueTarget filter count * cache.estimateWeightSum filter * 2 ≤ 1000000) :
    ∃ first more, (cache.pick filter count).1 = first ++ more ∧
      first.length = min count.toNat (allIds filter cache.nodes).length ∧
      (first.map (·.nodeId)).Nodup ∧
      more.length = (if allIds filter cache.nodes = [] then 0 else count.toNat - first.length) ∧
      ∀ selection ∈ first ++ more, FromNode filter cache.nodes selection := by
  by_cases hempty : cache.nodes = [] ∨ count = 0
  · refine ⟨[], [], ?_, ?_, List.nodup_nil, ?_, nofun⟩
    · rw [pick, if_pos hempty]
      rfl
    · rcases hempty with hnodes | hcount
      · rw [hnodes]
        exact (Nat.min_zero _).symm
      · rw [hcount]
        exact (Nat.zero_min _).symm
    · split
      · rfl
      · rename_i hsome
        rcases hempty with hnodes | hcount
        · exact absurd (by rw [hnodes]; rfl) hsome
        · rw [hcount]
          rfl
  · obtain ⟨hlength, hcollected⟩ := pickDistinct_collects hfit hdistinct hnames count hsmall
    have hbase : allIds filter cache.nodes = allIds filter (cache.nodes.map reset) :=
      allIds_base rfl
    rw [pick, if_neg hempty]
    rcases hout : pickDistinct filter (cache.uniqueTarget filter count)
      (cache.maxAttempts filter count) cache [] with ⟨first, cache'⟩
    rw [hout] at hlength hcollected
    have hlength : first.length = cache.uniqueTarget filter count := hlength
    have hfirst : ∀ selection ∈ first, FromNode filter cache.nodes selection := fun s hs =>
      (fromNode_base rfl).mpr (hcollected.origin s hs)
    rw [uniqueTarget, estimateLogicalNodeCount_eq] at hlength
    rcases eq_or_ne (allIds filter cache.nodes) [] with hnone | hsome
    · refine ⟨first, [], ?_, hlength, hcollected.nodup, ?_, ?_⟩
      · rw [List.append_nil]
        refine pickRepeats_none ?_ _ _
        rw [allIds_base hcollected.nodes_eq, ← hbase, hnone]
      · rw [if_pos hnone]
        rfl
      · rw [List.append_nil]
        exact hfirst
    · obtain ⟨more, hmore, hmissing, hall⟩ := pickRepeats_fills hcollected.nodes_eq
        (hbase ▸ hnames) (hbase ▸ hsome) (count.toNat - first.length) first
      refine ⟨first, more, hmore, hlength, hcollected.nodup, ?_, fun s hs => ?_⟩
      · rw [if_neg hsome]
        exact hmissing
      · rcases List.mem_append.mp hs with hleft | hright
        · exact hfirst s hleft
        · exact (fromNode_base rfl).mpr (hall s hright)

/-- Picks are different logical nodes as long as there are any, each with a usable disk. -/
theorem pickNodes_distinct (hfit : RepeatsFit cache)
    (hdistinct : (allIds anyDisk cache.nodes).Nodup) (hnames : [] ∉ allIds anyDisk cache.nodes)
    (count : UInt32)
    (hsmall : cache.uniqueTarget anyDisk count * cache.estimateWeightSum anyDisk * 2 ≤ 1000000) :
    let picked := (cache.pickNodes count).1
    ((picked.take (min count.toNat (allIds anyDisk cache.nodes).length)).map (·.nodeId)).Nodup ∧
      picked.length = (if allIds anyDisk cache.nodes = [] then 0 else count.toNat) ∧
      (∀ selection ∈ picked, FromNode anyDisk cache.nodes selection) ∧
      RepeatsFit (cache.pickNodes count).2 := by
  obtain ⟨first, more, heq, hfirst, hnodup, hmore, hall⟩ :=
    pick_eq hfit hdistinct hnames count hsmall
  have heq : (cache.pickNodes count).1 = first ++ more := heq
  simp only [heq]
  refine ⟨?_, ?_, hall, hfit.pick count⟩
  · rw [← hfirst, List.take_left]
    exact hnodup
  · rw [List.length_append, hmore]
    split
    · rename_i hnone
      rw [hfirst, hnone]
      exact Nat.min_zero _
    · rw [hfirst]
      omega

/-- A node for examples, with a usable disk. -/
def diskNode (nodeId : Bytes) (type : NodeType) (virtualNodeCount weight : UInt32) : CachedNode where
  nodeId := nodeId
  type := type
  virtualNodeCount := virtualNodeCount
  weight := weight
  disks := [{ diskId := ofAscii "d" }]

theorem pickNodes_distinct_of_three :
    let cache : NodeStateCache :=
      ⟨[diskNode [0x61] .real 1 2, diskNode [0x62] .virtual 2 3], 7, 2⟩
    (((cache.pickNodes 3).1.map (·.nodeId)).take 3).Nodup ∧ (cache.pickNodes 3).1.length = 3 := by
  have hfit : RepeatsFit ⟨[diskNode [0x61] .real 1 2, diskNode [0x62] .virtual 2 3], 7, 2⟩ := by
    intro node hnode
    cases hnode
    decide
  have h := pickNodes_distinct hfit (by decide) (by decide) 3 (by decide)
  exact ⟨List.map_take ▸ h.1, h.2.1⟩

/-- With more repeats left than attempts, one node is picked all over again. -/
theorem pickNodes_same :
    ∃ cache : NodeStateCache, (allIds anyDisk cache.nodes).Nodup ∧
      cache.uniqueTarget anyDisk 2 * cache.estimateWeightSum anyDisk * 2 ≤ 1000000 ∧
      (allIds anyDisk cache.nodes).length = 2 ∧
      (cache.pickNodes 2).1.map (·.nodeId) = [[0x61], [0x61]] :=
  ⟨⟨[diskNode [0x61] .real 1 1, diskNode [0x62] .real 1 1], 0, 1000⟩, by decide, by decide,
    by decide, by decide +kernel⟩

end Zb.Mds.NodeStateCache
