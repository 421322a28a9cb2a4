-- SUMMARY: Picking nodes from the cache: a weighted rotation over the nodes, with rotations of its own in each.
import Mathlib.Data.List.Rotate
import ZBStorage.Lib.WeightedRotation
import ZBStorage.Mds.Allocator.PGManager

/-!
# The cache of nodes

`PickNodes` and `PickNodesByType` of `NodeStateCache.cpp`. The nodes take turns of
as many picks as their weights say. A pick from a node that stands for several
logical nodes goes to the next of them, and to the next usable disk from there.
-/

namespace Zb.Mds

open Bytes

/-- A node with its weight and the places of its rotations. -/
structure CachedNode extends NodeInfo where
  weight : UInt32 := 1
  nextVirtualIndex : Nat := 0
  nextDiskIndex : Nat := 0
  deriving DecidableEq

structure NodeSelection where
  nodeId : Bytes := []
  address : Bytes := []
  diskId : Bytes := []
  groupId : Bytes := []
  epoch : UInt64 := 1
  secondaryNodeId : Bytes := []
  secondaryAddress : Bytes := []
  syncReady : Bool := false
  type : NodeType := .real
  deriving DecidableEq

structure NodeStateCache where
  nodes : List CachedNode
  nextNodeIndex : Nat := 0
  repeatRemaining : Nat := 0

/-- What a pick is for: any type but one, or one type only. -/
structure NodeFilter where
  type : NodeType
  strict : Bool

def NodeFilter.admits (filter : NodeFilter) (type : NodeType) : Bool :=
  if filter.strict then type = filter.type else type ≠ filter.type

namespace CachedNode

/-- `IsNodeAllocatable`. -/
def allocatableFor (filter : NodeFilter) (node : CachedNode) : Bool :=
  node.allocatable && node.isPrimary && node.disks.any DiskInfo.usable && filter.admits node.type

def virtualNodes (node : CachedNode) : Nat :=
  if isVirtualizedNodeType node.type then max 1 node.virtualNodeCount.toNat else 1

def turn (node : CachedNode) : Nat := max 1 node.weight.toNat

def logicalId (node : CachedNode) (virtualIndex : Nat) : Bytes :=
  if isVirtualizedNodeType node.type then PGManager.buildVirtualNodeId node.nodeId virtualIndex
  else node.nodeId

/-- `PickDiskLocked`: the disk, and the place that the next search starts from. -/
def pickDisk (node : CachedNode) (virtualIndex : Nat) : Bytes × Nat :=
  if node.disks = [] then (ofAscii "disk-01", node.nextDiskIndex)
  else
    let size := node.disks.length
    let index (i : Nat) : Nat := (node.nextDiskIndex % size + virtualIndex % size + i) % size
    match (List.range size).find? fun i => (node.disks[index i]?).any DiskInfo.usable with
    | some i => (((node.disks[index i]?).map (·.diskId)).getD [], (index i + 1) % size)
    | none => ([], node.nextDiskIndex)

/-- The virtual index of the next pick. -/
def virtualIndex (node : CachedNode) : Nat :=
  if isVirtualizedNodeType node.type then node.nextVirtualIndex % node.virtualNodes else 0

def select (node : CachedNode) : NodeSelection where
  nodeId := node.logicalId node.virtualIndex
  address := node.address
  diskId := (node.pickDisk node.virtualIndex).1
  groupId := if node.groupId = [] then node.nodeId else node.groupId
  epoch := node.epoch
  secondaryNodeId := node.secondaryNodeId
  secondaryAddress := node.secondaryAddress
  syncReady := node.syncReady
  type := node.type

/-- The node after a pick. -/
def picked (node : CachedNode) : CachedNode :=
  { node with
    nextVirtualIndex :=
      if isVirtualizedNodeType node.type then (node.nextVirtualIndex + 1) % node.virtualNodes
      else node.nextVirtualIndex
    nextDiskIndex := (node.pickDisk node.virtualIndex).2 }

end CachedNode

namespace NodeStateCache

variable (filter : NodeFilter)

/-- The loop that passes over the nodes that cannot be picked. -/
def findNode : Nat → NodeStateCache → NodeStateCache × Option CachedNode
  | 0, cache => (cache, none)
  | remaining + 1, cache =>
      match cache.nodes[cache.nextNodeIndex % cache.nodes.length]? with
      | none => (cache, none)
      | some candidate =>
          if candidate.allocatableFor filter then (cache, some candidate)
          else findNode remaining
            { cache with
              nextNodeIndex := (cache.nextNodeIndex + 1) % cache.nodes.length
              repeatRemaining := 0 }

/-- The cache after a pick of the node at the cursor. -/
def afterPick (cache : NodeStateCache) (node : CachedNode) : NodeStateCache :=
  let repeats := if cache.repeatRemaining = 0 then node.turn else cache.repeatRemaining
  { nodes := cache.nodes.set (cache.nextNodeIndex % cache.nodes.length) node.picked
    nextNodeIndex :=
      if repeats - 1 = 0 then (cache.nextNodeIndex + 1) % cache.nodes.length
      else cache.nextNodeIndex
    repeatRemaining := repeats - 1 }

/-- Without a node to pick, the selection is an empty one. -/
def nextSelection (cache : NodeStateCache) : NodeSelection × NodeStateCache :=
  match findNode filter cache.nodes.length cache with
  | (cache, none) => ({}, cache)
  | (cache, some node) => (node.select, cache.afterPick node)

def estimateLogicalNodeCount (cache : NodeStateCache) : Nat :=
  ((cache.nodes.filter (·.allocatableFor filter)).map (·.virtualNodes)).sum

def estimateWeightSum (cache : NodeStateCache) : Nat :=
  max 1 ((cache.nodes.filter (·.allocatableFor filter)).map (·.turn)).sum

/-- The loop that collects different logical nodes. -/
def pickDistinct (target : Nat) : Nat → NodeStateCache → List NodeSelection →
    List NodeSelection × NodeStateCache
  | 0, cache, picked => (picked, cache)
  | attempts + 1, cache, picked =>
      if target ≤ picked.length then (picked, cache)
      else
        let (selection, cache) := cache.nextSelection filter
        if selection.nodeId = [] then (picked, cache)
        else if selection.nodeId ∈ picked.map (·.nodeId) then
          pickDistinct target attempts cache picked
        else pickDistinct target attempts cache (picked ++ [selection])

/-- The loop that goes on to the count. -/
def pickRepeats : Nat → NodeStateCache → List NodeSelection → List NodeSelection × NodeStateCache
  | 0, cache, picked => (picked, cache)
  | missing + 1, cache, picked =>
      let (selection, cache) := cache.nextSelection filter
      if selection.nodeId = [] then (picked, cache)
      else pickRepeats missing cache (picked ++ [selection])

def uniqueTarget (cache : NodeStateCache) (count : UInt32) : Nat :=
  min count.toNat (cache.estimateLogicalNodeCount filter)

def maxAttempts (cache : NodeStateCache) (count : UInt32) : Nat :=
  min (max 64 (cache.uniqueTarget filter count * cache.estimateWeightSum filter * 2)) 1000000

/-- What `PickNodes` and `PickNodesByType` share. -/
def pick (cache : NodeStateCache) (count : UInt32) : List NodeSelection × NodeStateCache :=
  if cache.nodes = [] ∨ count = 0 then ([], cache)
  else
    let (picked, cache) := pickDistinct filter (cache.uniqueTarget filter count)
      (cache.maxAttempts filter count) cache []
    pickRepeats filter (count.toNat - picked.length) cache picked

/-- Any tier but the optical one. -/
def anyDisk : NodeFilter := ⟨.optical, false⟩

def pickNodes (cache : NodeStateCache) (count : UInt32) : List NodeSelection × NodeStateCache :=
  cache.pick anyDisk count

def pickNodesByType (cache : NodeStateCache) (count : UInt32) (type : NodeType) :
    List NodeSelection × NodeStateCache := cache.pick ⟨type, true⟩ count

/-! ## The rotation of the nodes -/

/-- How many picks the node at a position gets in a round. -/
def weightAt (nodes : List CachedNode) (position : Nat) : Nat :=
  match nodes[position]? with
  | none => 0
  | some node => if node.allocatableFor filter then node.turn else 0

def turns (cache : NodeStateCache) : Turns Nat where
  order := (List.range cache.nodes.length).rotate cache.nextNodeIndex
  left := cache.repeatRemaining

variable {filter} {cache : NodeStateCache} {node : CachedNode} {position : Nat}

theorem turn_pos (node : CachedNode) : 0 < node.turn := Nat.lt_of_lt_of_le Nat.zero_lt_one
  (Nat.le_max_left _ _)

theorem weightAt_of_getElem? {nodes : List CachedNode} (hnode : nodes[position]? = some node) :
    weightAt filter nodes position = if node.allocatableFor filter then node.turn else 0 := by
  rw [weightAt, hnode]

theorem weightAt_pos_iff {nodes : List CachedNode} :
    0 < weightAt filter nodes position ↔
      ∃ node, nodes[position]? = some node ∧ node.allocatableFor filter = true := by
  rcases hnode : nodes[position]? with _ | node
  · rw [weightAt, hnode]
    exact ⟨fun h => absurd h (Nat.lt_irrefl _), fun ⟨_, h, _⟩ => nomatch h⟩
  · rw [weightAt_of_getElem? hnode]
    rcases hallocatable : node.allocatableFor filter with _ | _
    · refine ⟨fun h => absurd h (Nat.lt_irrefl _), fun ⟨node', h, hallocatable'⟩ => ?_⟩
      cases h
      rw [hallocatable] at hallocatable'
      exact nomatch hallocatable'
    · exact ⟨fun _ => ⟨node, rfl, hallocatable⟩, fun _ => turn_pos node⟩

theorem order_of_cursor {n c : Nat} {rest : List Nat}
    (h : (List.range n).rotate c = position :: rest) : c % n = position := by
  have hlen : 0 < n := by
    have hlength := congrArg List.length h
    rw [List.length_rotate, List.length_range] at hlength
    rw [hlength]
    exact Nat.succ_pos _
  have hlt : c % n < (List.range n).length := by
    rw [List.length_range]
    exact Nat.mod_lt _ hlen
  have hhead := List.head?_rotate hlt
  have hmod : (List.range n).rotate (c % n) = (List.range n).rotate c := by
    have hrotate := List.rotate_mod (List.range n) c
    rwa [List.length_range] at hrotate
  rw [hmod, h, List.getElem?_range (by rwa [List.length_range] at hlt)] at hhead
  exact (Option.some.inj hhead).symm

/-- Moving the cursor on puts the first position last. -/
theorem order_advance {n c : Nat} {rest : List Nat}
    (h : (List.range n).rotate c = position :: rest) :
    (List.range n).rotate ((c + 1) % n) = rest ++ [position] := by
  have hmod : (List.range n).rotate ((c + 1) % n) = (List.range n).rotate (c + 1) := by
    have hrotate := List.rotate_mod (List.range n) (c + 1)
    rwa [List.length_range] at hrotate
  rw [hmod, ← List.rotate_rotate, h, List.rotate_cons_succ, List.rotate_zero]

theorem mem_order {k : Nat} (h : k ∈ cache.turns.order) : k < cache.nodes.length :=
  List.mem_range.mp (List.mem_rotate.mp h)

/-- The loop finds the first position with a weight, and the cursor stays there. -/
theorem findNode_found {remaining : Nat} {skipped rest : List Nat}
    (horder : cache.turns.order = skipped ++ position :: rest)
    (hskip : ∀ k ∈ skipped, weightAt filter cache.nodes k = 0)
    (hpos : 0 < weightAt filter cache.nodes position) (hlen : skipped.length < remaining) :
    ∃ cache' node, findNode filter remaining cache = (cache', some node) ∧
      cache.nodes[position]? = some node ∧ node.allocatableFor filter = true ∧
      cache'.nodes = cache.nodes ∧ cache'.turns.order = position :: (rest ++ skipped) ∧
      cache'.repeatRemaining = if skipped.isEmpty then cache.repeatRemaining else 0 := by
  induction skipped generalizing cache remaining rest with
  | nil =>
      obtain ⟨node, hnode, hallocatable⟩ := weightAt_pos_iff.mp hpos
      obtain ⟨remaining, rfl⟩ := Nat.exists_eq_add_of_lt hlen
      refine ⟨cache, node, ?_, hnode, hallocatable, rfl, by rw [horder]; simp, rfl⟩
      rw [findNode, order_of_cursor horder, hnode]
      exact if_pos hallocatable
  | cons k skipped ih =>
      obtain ⟨remaining, rfl⟩ : ∃ r, remaining = r + 1 := Nat.exists_eq_add_one.mpr
        (Nat.zero_lt_of_lt hlen)
      have hk : k < cache.nodes.length := mem_order (by rw [horder]; exact List.mem_cons_self)
      have hzero := hskip k List.mem_cons_self
      have hcandidate : cache.nodes[k]? = some cache.nodes[k] := List.getElem?_eq_getElem hk
      have hnot : ¬cache.nodes[k].allocatableFor filter = true := by
        intro hallocatable
        have hkpos := weightAt_pos_iff.mpr ⟨_, hcandidate, hallocatable⟩
        rw [hzero] at hkpos
        exact absurd hkpos (Nat.lt_irrefl _)
      have hadvance : (NodeStateCache.turns { cache with
          nextNodeIndex := (cache.nextNodeIndex + 1) % cache.nodes.length
          repeatRemaining := 0 }).order = skipped ++ position :: (rest ++ [k]) := by
        refine (order_advance horder).trans ?_
        simp
      obtain ⟨cache', node, hfind, hnode, hallocatable, hnodes, horder', hrepeat⟩ :=
        ih hadvance
          (fun k' hmem => hskip k' (List.mem_cons_of_mem _ hmem)) hpos
          (Nat.lt_of_succ_lt_succ hlen)
      refine ⟨cache', node, ?_, hnode, hallocatable, hnodes, ?_, ?_⟩
      · rw [findNode, order_of_cursor horder, hcandidate]
        exact (if_neg hnot).trans hfind
      · rw [horder']
        simp
      · rw [hrepeat]
        simp

theorem findNode_none {remaining : Nat} {rest before : List Nat}
    (horder : cache.turns.order = rest ++ before)
    (hzero : ∀ k ∈ rest, weightAt filter cache.nodes k = 0) (hlen : rest.length = remaining) :
    (findNode filter remaining cache).2 = none ∧
      (findNode filter remaining cache).1.nodes = cache.nodes := by
  induction rest generalizing cache remaining before with
  | nil =>
      subst hlen
      exact ⟨rfl, rfl⟩
  | cons k rest ih =>
      subst hlen
      have hk : k < cache.nodes.length := mem_order (by rw [horder]; exact List.mem_cons_self)
      have hcandidate : cache.nodes[k]? = some cache.nodes[k] := List.getElem?_eq_getElem hk
      have hnot : ¬cache.nodes[k].allocatableFor filter = true := by
        intro hallocatable
        have hkpos := weightAt_pos_iff.mpr ⟨_, hcandidate, hallocatable⟩
        rw [hzero k List.mem_cons_self] at hkpos
        exact absurd hkpos (Nat.lt_irrefl _)
      have hadvance : (NodeStateCache.turns { cache with
          nextNodeIndex := (cache.nextNodeIndex + 1) % cache.nodes.length
          repeatRemaining := 0 }).order = rest ++ (before ++ [k]) := by
        refine (order_advance horder).trans ?_
        simp
      have hrest := ih hadvance
        (fun k' hmem => hzero k' (List.mem_cons_of_mem _ hmem)) rfl
      rw [List.length_cons, findNode, order_of_cursor horder, hcandidate]
      simp only [hnot, Bool.false_eq_true, if_false]
      exact hrest

/-- A pick goes to the position whose turn it is. -/
theorem nextSelection_of_next? {turns' : Turns Nat}
    (h : cache.turns.next? (weightAt filter cache.nodes) = some (position, turns')) :
    ∃ node cache', cache.nodes[position]? = some node ∧ node.allocatableFor filter = true ∧
      cache.nextSelection filter = (node.select, cache') ∧
      cache'.nodes = cache.nodes.set position node.picked ∧ cache'.turns = turns' := by
  rcases Turns.next?_cases (weightAt filter cache.nodes) cache.turns with
    hzero | ⟨skipped, k, rest, hskip, hpos, horder⟩
  · rw [Turns.next?_eq_none hzero] at h
    exact nomatch h
  rw [Turns.next?_eq hskip hpos horder] at h
  obtain ⟨rfl, rfl⟩ := Prod.mk.inj (Option.some.inj h)
  have hlen : skipped.length < cache.nodes.length := by
    have hlength := congrArg List.length horder
    rw [turns, List.length_rotate, List.length_range, List.length_append] at hlength
    rw [hlength, List.length_cons]
    omega
  obtain ⟨found, node, hfind, hnode, hallocatable, hnodes, horder', hrepeat⟩ :=
    findNode_found horder hskip hpos hlen
  have hcursor := order_of_cursor horder'
  have hweight : weightAt filter cache.nodes k = node.turn := by
    rw [weightAt_of_getElem? hnode]
    exact if_pos hallocatable
  have hleft : (if skipped.isEmpty then
        Turns.picksLeft (weightAt filter cache.nodes) cache.turns.left k
      else weightAt filter cache.nodes k) =
      if found.repeatRemaining = 0 then node.turn else found.repeatRemaining := by
    rw [hrepeat, turns, Turns.picksLeft, hweight, if_neg (turn_pos node).ne']
    split
    · rfl
    · rfl
  have hpositive : 0 < if found.repeatRemaining = 0 then node.turn else found.repeatRemaining := by
    split
    · exact turn_pos node
    · rename_i hne
      exact Nat.pos_of_ne_zero hne
  refine ⟨node, found.afterPick node, hnode, hallocatable, ?_, ?_, ?_⟩
  · rw [nextSelection, hfind]
  · rw [hnodes] at hcursor
    rw [afterPick, hnodes, hcursor]
  · simp only [hleft]
    simp only [afterPick, turns, List.length_set]
    generalize (if found.repeatRemaining = 0 then node.turn else found.repeatRemaining) = left
      at hpositive
    rcases eq_or_ne left 1 with rfl | hne
    · exact congrArg (Turns.mk · 0) (order_advance horder')
    · rw [if_neg hne, if_neg (by omega)]
      exact congrArg (Turns.mk · (left - 1)) horder'

theorem nextSelection_of_none (h : ∀ k, weightAt filter cache.nodes k = 0) :
    (cache.nextSelection filter).1 = {} ∧ (cache.nextSelection filter).2.nodes = cache.nodes := by
  have hlength : cache.turns.order.length = cache.nodes.length := by
    rw [turns, List.length_rotate, List.length_range]
  have hnone : (findNode filter cache.nodes.length cache).2 = none ∧
      (findNode filter cache.nodes.length cache).1.nodes = cache.nodes :=
    findNode_none (List.append_nil _).symm (fun k _ => h k) hlength
  rw [nextSelection]
  rcases hfind : findNode filter cache.nodes.length cache with ⟨found, _ | node⟩
  · rw [hfind] at hnone
    exact ⟨rfl, hnone.2⟩
  · rw [hfind] at hnone
    exact nomatch hnone.1

end NodeStateCache

end Zb.Mds
