-- SUMMARY: Logical node ids read back, and when they lead to the node that a pick was made from.
import ZBStorage.Lib.TextFields
import ZBStorage.Mds.Allocator.CatalogHistory
import ZBStorage.Mds.Allocator.DistinctPicks

/-!
# Logical node ids

A virtualized node gives out ids that add `-v` and a number to its own. They are
read back in four places, which all try the id itself first and then take the
first node whose id with `-v` starts it; only `ResolveLogicalNodeId` looks at what
follows. A node whose own id reads like another's logical id is taken for it.
-/

namespace Zb.Mds

open Bytes

/-- The id starts with the other one and `-v`, and goes on. -/
def derivedFrom (base nodeId : Bytes) : Bool :=
  (base ++ ofAscii "-v").length < nodeId.length && decide (base ++ ofAscii "-v" <+: nodeId)

namespace NodeStateCache

/-- `MatchNodeForLocationLocked`. -/
def matchNode (nodes : List CachedNode) (nodeId : Bytes) : Option CachedNode :=
  match nodes.find? fun node => node.nodeId = nodeId with
  | some node => some node
  | none => nodes.find? fun node => derivedFrom node.nodeId nodeId

def resolveNodeAddress (cache : NodeStateCache) (nodeId : Bytes) : Option Bytes :=
  if nodeId = [] then none
  else (matchNode cache.nodes nodeId).bind fun node =>
    if node.address = [] then none else some node.address

/-- The node may be written to as one of its own type. -/
def admitsWrites (node : CachedNode) : Bool := node.allocatableFor ⟨node.type, true⟩

def isWriteAdmitted (cache : NodeStateCache) (nodeId : Bytes) : Bool :=
  nodeId ≠ [] && (matchNode cache.nodes nodeId).any admitsWrites

end NodeStateCache

namespace CmsNodeRegistry

variable (stagingFull : UInt64 → UInt64 → Bool)

def isWriteAdmitted (nodes : Nodes) (nodeId : Bytes) : Bool :=
  if nodeId = [] then false
  else
    match nodes.lookup nodeId with
    | some entry => isWriteAllocatable stagingFull entry.managedView
    | none =>
        ((ordered nodes).find? fun item => derivedFrom item.1 nodeId).any fun item =>
          isWriteAllocatable stagingFull item.2.managedView

/-- The id is one that the node gives out. -/
def allocates (item : Sigma fun _ : Bytes => Entry) (allocationId : Bytes) : Bool :=
  derivedFrom item.1 allocationId &&
    (allocationId.drop (item.1 ++ ofAscii "-v").length).all isDigit &&
    item.2.managedView.spec.executionMode = .virtual

def resolveLogicalNodeId (nodes : Nodes) (allocationId : Bytes) : Option Bytes :=
  if allocationId = [] then none
  else
    match nodes.lookup allocationId with
    | some _ => some allocationId
    | none => ((ordered nodes).find? fun item => allocates item allocationId).map fun item => item.1

end CmsNodeRegistry

namespace NodeIdResolution

open CmsNodeRegistry NodeStateCache

variable {stagingFull : UInt64 → UInt64 → Bool} {nodes : Nodes} {cache : NodeStateCache}
  {owner base other nodeId : Bytes} {entry : Entry}

/-! ## Ids and the ids derived from them -/

theorem dash_v : ofAscii "-v" = [0x2d, 0x76] := rfl

theorem derivedFrom_iff : derivedFrom base nodeId = true ↔
    ∃ suffix ≠ [], nodeId = base ++ (ofAscii "-v" ++ suffix) := by
  rw [derivedFrom, Bool.and_eq_true, decide_eq_true_iff, decide_eq_true_iff]
  constructor
  · rintro ⟨hlen, suffix, rfl⟩
    refine ⟨suffix, ?_, List.append_assoc ..⟩
    rintro rfl
    rw [List.append_nil] at hlen
    exact absurd hlen (Nat.lt_irrefl _)
  · rintro ⟨suffix, hne, rfl⟩
    rw [← List.append_assoc]
    refine ⟨?_, List.prefix_append _ _⟩
    have hlength : (base ++ ofAscii "-v" ++ suffix).length =
        (base ++ ofAscii "-v").length + suffix.length := List.length_append
    rw [hlength]
    exact Nat.lt_add_of_pos_right (List.length_pos_iff.mpr hne)

theorem derivedFrom_virtual (base : Bytes) (x : Nat) :
    derivedFrom base (PGManager.buildVirtualNodeId base x) = true :=
  derivedFrom_iff.mpr ⟨decimal x, TextFields.decimal_ne_nil x, List.append_assoc ..⟩

/-- What is read as a dash and a `v` before digits is not spread over both. -/
theorem eq_nil_of_dash {before suffix digits : Bytes} (hdigits : ∀ ch ∈ digits, isDigit ch = true)
    (h : before ++ (ofAscii "-v" ++ suffix) = ofAscii "-v" ++ digits) : before = [] := by
  rw [dash_v] at h
  rcases before with _ | ⟨a, _ | ⟨b, before⟩⟩
  · rfl
  · have hv : (0x2d : UInt8) = 0x76 := (List.cons.inj (List.cons.inj h).2).1
    exact absurd hv (by decide)
  · have htail := (List.cons.inj (List.cons.inj h).2).2
    have hdash : (0x2d : UInt8) ∈ digits := by
      rw [← show before ++ ([0x2d, 0x76] ++ suffix) = digits from htail]
      simp
    exact absurd (hdigits _ hdash) (by decide)

/-- An id that goes on in digits comes from the node itself. -/
theorem base_eq_of_digits {digits digits' : Bytes} (hdigits : ∀ ch ∈ digits, isDigit ch = true)
    (hdigits' : ∀ ch ∈ digits', isDigit ch = true)
    (h : base ++ (ofAscii "-v" ++ digits) = other ++ (ofAscii "-v" ++ digits')) : base = other := by
  rcases List.append_eq_append_iff.mp h with ⟨extra, rfl, hrest⟩ | ⟨extra, rfl, hrest⟩
  · rw [eq_nil_of_dash hdigits hrest.symm, List.append_nil]
  · rw [eq_nil_of_dash hdigits' hrest.symm, List.append_nil]

/-- The logical ids of the node read as ids of the other one too. -/
def Shadows (other owner : Bytes) : Prop := other ++ ofAscii "-v" <+: owner

theorem derivedFrom_virtual_iff {x : Nat} :
    derivedFrom other (PGManager.buildVirtualNodeId owner x) = true ↔
      other = owner ∨ Shadows other owner := by
  have hdigits : ∀ ch ∈ decimal x, isDigit ch = true := fun ch hch => isDigit_of_mem_decimal hch
  constructor
  · intro h
    obtain ⟨suffix, _, heq⟩ := derivedFrom_iff.mp h
    rw [PGManager.buildVirtualNodeId, List.append_assoc] at heq
    rcases List.append_eq_append_iff.mp heq with ⟨extra, rfl, hrest⟩ | ⟨extra, rfl, hrest⟩
    · rw [eq_nil_of_dash hdigits hrest.symm, List.append_nil]
      exact .inl rfl
    · rcases extra with _ | ⟨a, _ | ⟨b, extra⟩⟩
      · exact .inl (List.append_nil _).symm
      · rw [dash_v] at hrest
        have hv : (0x76 : UInt8) = 0x2d := (List.cons.inj (List.cons.inj hrest).2).1
        exact absurd hv (by decide)
      · rw [dash_v] at hrest
        obtain ⟨rfl, htail⟩ := List.cons.inj hrest
        obtain ⟨rfl, _⟩ := List.cons.inj htail
        exact .inr ⟨extra, by rw [dash_v, List.append_assoc]; rfl⟩
  · rintro (rfl | ⟨extra, rfl⟩)
    · exact derivedFrom_virtual other x
    · refine derivedFrom_iff.mpr ⟨extra ++ (ofAscii "-v" ++ decimal x), ?_, ?_⟩
      · exact List.append_ne_nil_of_right_ne_nil _
          (List.append_ne_nil_of_right_ne_nil _ (TextFields.decimal_ne_nil x))
      · simp only [PGManager.buildVirtualNodeId, List.append_assoc]

theorem Shadows.length_lt (h : Shadows other owner) : other.length < owner.length := by
  have hle := List.IsPrefix.length_le h
  rw [List.length_append] at hle
  exact Nat.lt_of_lt_of_le (Nat.lt_add_of_pos_right (by decide)) hle

theorem Shadows.isPrefix (h : Shadows other owner) : other <+: owner :=
  (List.prefix_append _ _).trans h

/-! ## The published list -/

/-- The node of the cache that an entry is published as. -/
def published (stagingFull : UInt64 → UInt64 → Bool) (entry : Entry) : CachedNode :=
  { toNodeInfo := buildNodeInfo stagingFull entry }

/-- Every node is in the catalog under its own id. -/
def Filed (nodes : Nodes) : Prop :=
  ∀ id entry, nodes.lookup id = some entry → entry.managedView.spec.nodeId = id ∧ id ≠ []

/-- The cache holds the list that the catalog publishes, with rotations of its own. -/
def Publishes (stagingFull : UInt64 → UInt64 → Bool) (nodes : Nodes) (cache : NodeStateCache) :
    Prop := cache.nodes.map (·.toNodeInfo) = placementNodes stagingFull nodes

theorem allocatableFor_congr {a b : CachedNode} (h : a.toNodeInfo = b.toNodeInfo)
    (filter : NodeFilter) : a.allocatableFor filter = b.allocatableFor filter := by
  unfold CachedNode.allocatableFor
  rw [h]

theorem admitsWrites_congr {a b : CachedNode} (h : a.toNodeInfo = b.toNodeInfo) :
    admitsWrites a = admitsWrites b := by
  have htype : a.type = b.type := congrArg NodeInfo.type h
  unfold admitsWrites
  rw [allocatableFor_congr h, htype]

theorem admitsWrites_of_allocatable {node : CachedNode} {filter : NodeFilter}
    (h : node.allocatableFor filter = true) : admitsWrites node = true := by
  unfold admitsWrites CachedNode.allocatableFor at *
  simp only [Bool.and_eq_true] at h
  simp [h.1, NodeFilter.admits]

/-- The published list admits only what the catalog admits. -/
theorem isWriteAllocatable_of_published (h : admitsWrites (published stagingFull entry) = true) :
    isWriteAllocatable stagingFull entry.managedView = true := by
  unfold admitsWrites CachedNode.allocatableFor published at h
  simp only [Bool.and_eq_true] at h
  have hallocatable : (buildNodeInfo stagingFull entry).allocatable = true := h.1.1.1
  unfold buildNodeInfo at hallocatable
  simp only [Bool.and_eq_true] at hallocatable
  exact hallocatable.1

theorem find?_published (hfiled : Filed nodes) (hpublishes : Publishes stagingFull nodes cache)
    (p : Bytes → Bool) :
    (cache.nodes.find? fun node => p node.nodeId).map (·.toNodeInfo) =
      ((ordered nodes).find? fun item => p item.1).map fun item =>
        buildNodeInfo stagingFull item.2 := by
  have hcache : (cache.nodes.find? fun node => p node.nodeId).map (·.toNodeInfo) =
      (cache.nodes.map (·.toNodeInfo)).find? fun node => p node.nodeId := by
    rw [List.find?_map]
    rfl
  rw [hcache, hpublishes, placementNodes, List.find?_map, ← List.head?_filter, ← List.head?_filter]
  refine congrArg (Option.map _ ·.head?) (List.filter_congr fun item hitem => ?_)
  have hid := (hfiled item.1 item.2 (mem_ordered.mp hitem)).1
  exact congrArg p hid

theorem find?_id {id : Bytes} :
    ((ordered nodes).find? fun item => decide (item.1 = id)) =
      (nodes.lookup id).map fun entry => ⟨id, entry⟩ := by
  rcases hentry : nodes.lookup id with _ | entry
  · refine List.find?_eq_none.mpr fun item hitem hid => ?_
    have hlookup := mem_ordered.mp hitem
    rw [of_decide_eq_true hid, hentry] at hlookup
    exact nomatch hlookup
  · rcases hfind : (ordered nodes).find? fun item => decide (item.1 = id) with _ | item
    · have hnot := List.find?_eq_none.mp hfind ⟨id, entry⟩ (mem_ordered.mpr hentry)
      exact absurd (decide_eq_true rfl) hnot
    · have hid : item.1 = id := by
        have hsome := List.find?_some hfind
        exact of_decide_eq_true hsome
      have hlookup := mem_ordered.mp (List.mem_of_find?_eq_some hfind)
      obtain ⟨id', entry'⟩ := item
      obtain rfl : id' = id := hid
      obtain rfl : entry' = entry := Option.some.inj (hlookup.symm.trans hentry)
      exact hfind

theorem sorted_ordered (nodes : Nodes) : (ordered nodes).Pairwise fun a b => a.1 ≤ b.1 := by
  have : Std.Total (fun a b : Sigma fun _ : Bytes => Entry => a.1 ≤ b.1) :=
    ⟨fun a b => List.le_total a.1 b.1⟩
  have : IsTrans _ (fun a b : Sigma fun _ : Bytes => Entry => a.1 ≤ b.1) :=
    ⟨fun _ _ _ => List.le_trans⟩
  exact List.pairwise_insertionSort _ _

/-- Of the nodes whose logical id this could be, the one with the shortest id comes first. -/
theorem find?_shortest {item : Sigma fun _ : Bytes => Entry}
    (h : ((ordered nodes).find? fun item => derivedFrom item.1 nodeId) = some item) :
    nodes.lookup item.1 = some item.2 ∧ derivedFrom item.1 nodeId = true ∧
      ∀ m ∈ nodes, derivedFrom m nodeId = true → item.1.length ≤ m.length := by
  obtain ⟨hderived, before, later, hsplit, hbefore⟩ := List.find?_eq_some_iff_append.mp h
  refine ⟨mem_ordered.mp (List.mem_of_find?_eq_some h), hderived, fun m hm hmderived => ?_⟩
  obtain ⟨e, he⟩ := Option.isSome_iff_exists.mp (AList.lookup_isSome.mpr hm)
  have hmem : (⟨m, e⟩ : Sigma fun _ : Bytes => Entry) ∈ before ++ item :: later :=
    hsplit ▸ mem_ordered.mpr he
  rcases List.mem_append.mp hmem with hin | hin
  · have hnot := hbefore _ hin
    rw [hmderived] at hnot
    exact nomatch hnot
  · rcases List.mem_cons.mp hin with heq | hlater
    · rw [← heq]
    · have hsorted := sorted_ordered nodes
      rw [hsplit] at hsorted
      have hle : item.1 ≤ m :=
        (List.pairwise_cons.mp (List.pairwise_append.mp hsorted).2.1).1 _ hlater
      obtain ⟨s, _, hs⟩ := derivedFrom_iff.mp hderived
      obtain ⟨t, _, ht⟩ := derivedFrom_iff.mp hmderived
      by_contra hlt
      have hshort : m.length ≤ item.1.length := Nat.le_of_not_le hlt
      obtain ⟨extra, hextra⟩ := List.prefix_of_prefix_length_le ⟨_, ht.symm⟩ ⟨_, hs.symm⟩ hshort
      have hge : m ≤ item.1 := hextra ▸ List.le_append_left
      exact hlt (List.le_antisymm hle hge ▸ Nat.le_refl _)

/-! ## The lookups -/

theorem matchNode_exact (hfiled : Filed nodes) (hpublishes : Publishes stagingFull nodes cache)
    (hentry : nodes.lookup nodeId = some entry) :
    ∃ node, matchNode cache.nodes nodeId = some node ∧
      node.toNodeInfo = buildNodeInfo stagingFull entry := by
  have hfind := find?_published hfiled hpublishes fun id => decide (id = nodeId)
  rw [find?_id, hentry] at hfind
  obtain ⟨node, hnode, hinfo⟩ := Option.map_eq_some_iff.mp hfind
  exact ⟨node, by rw [matchNode, hnode], hinfo⟩

theorem matchNode_derived (hfiled : Filed nodes) (hpublishes : Publishes stagingFull nodes cache)
    {item : Sigma fun _ : Bytes => Entry} (hnone : nodes.lookup nodeId = none)
    (hitem : ((ordered nodes).find? fun item => derivedFrom item.1 nodeId) = some item) :
    ∃ node, matchNode cache.nodes nodeId = some node ∧
      node.toNodeInfo = buildNodeInfo stagingFull item.2 := by
  have hexact := find?_published hfiled hpublishes fun id => decide (id = nodeId)
  rw [find?_id, hnone] at hexact
  have hfind := find?_published hfiled hpublishes fun id => derivedFrom id nodeId
  rw [hitem] at hfind
  obtain ⟨node, hnode, hinfo⟩ := Option.map_eq_some_iff.mp hfind
  exact ⟨node, by rw [matchNode, Option.map_eq_none_iff.mp hexact, hnode], hinfo⟩

/-- What the cache answers about an id is what it knows of the node it matches. -/
theorem cache_lookups {node : CachedNode} (hid : nodeId ≠ [])
    (hnode : matchNode cache.nodes nodeId = some node)
    (hinfo : node.toNodeInfo = buildNodeInfo stagingFull entry) :
    cache.resolveNodeAddress nodeId = (if (published stagingFull entry).address = [] then none
        else some (published stagingFull entry).address) ∧
      cache.isWriteAdmitted nodeId = admitsWrites (published stagingFull entry) := by
  have haddress : node.address = (published stagingFull entry).address :=
    congrArg NodeInfo.address hinfo
  have hadmits : admitsWrites node = admitsWrites (published stagingFull entry) :=
    admitsWrites_congr hinfo
  constructor
  · rw [resolveNodeAddress, if_neg hid, hnode, ← haddress]
    rfl
  · rw [NodeStateCache.isWriteAdmitted, hnode, Option.any_some, hadmits, decide_eq_true hid,
      Bool.true_and]

theorem allocates_iff {item : Sigma fun _ : Bytes => Entry} {x : Nat} :
    allocates item (PGManager.buildVirtualNodeId owner x) = true ↔
      item.1 = owner ∧ item.2.managedView.spec.executionMode = .virtual := by
  have hdigits : ∀ ch ∈ decimal x, isDigit ch = true := fun ch hch => isDigit_of_mem_decimal hch
  rw [allocates, Bool.and_eq_true, Bool.and_eq_true, decide_eq_true_iff]
  refine and_congr_left' ⟨?_, ?_⟩
  · intro ⟨hderived, hall⟩
    obtain ⟨suffix, _, heq⟩ := derivedFrom_iff.mp hderived
    have hdrop : (PGManager.buildVirtualNodeId owner x).drop (item.1 ++ ofAscii "-v").length =
        suffix := by
      rw [heq, ← List.append_assoc, List.drop_left]
    rw [hdrop, List.all_eq_true] at hall
    rw [PGManager.buildVirtualNodeId, List.append_assoc] at heq
    exact (base_eq_of_digits hdigits hall heq).symm
  · intro hid
    rw [hid]
    refine ⟨derivedFrom_virtual owner x, ?_⟩
    rw [PGManager.buildVirtualNodeId, List.drop_left, List.all_eq_true]
    exact hdigits

theorem resolveLogicalNodeId_virtual {x : Nat} (hentry : nodes.lookup owner = some entry)
    (hnone : nodes.lookup (PGManager.buildVirtualNodeId owner x) = none) :
    resolveLogicalNodeId nodes (PGManager.buildVirtualNodeId owner x) = some owner ↔
      entry.managedView.spec.executionMode = .virtual := by
  have hne : PGManager.buildVirtualNodeId owner x ≠ [] :=
    List.append_ne_nil_of_right_ne_nil _ (TextFields.decimal_ne_nil x)
  rw [resolveLogicalNodeId, if_neg hne, hnone, Option.map_eq_some_iff]
  constructor
  · intro ⟨item, hfind, hid⟩
    have hallocates := List.find?_some hfind
    have hlookup := mem_ordered.mp (List.mem_of_find?_eq_some hfind)
    rw [hid, hentry] at hlookup
    rw [Option.some.inj hlookup]
    exact (allocates_iff.mp hallocates).2
  · intro hmode
    have hsome : ((ordered nodes).find? fun item =>
        allocates item (PGManager.buildVirtualNodeId owner x)).isSome :=
      List.find?_isSome.mpr ⟨⟨owner, entry⟩, mem_ordered.mpr hentry, allocates_iff.mpr ⟨rfl, hmode⟩⟩
    obtain ⟨item, hfind⟩ := Option.isSome_iff_exists.mp hsome
    have hallocates := List.find?_some hfind
    exact ⟨item, hfind, (allocates_iff.mp hallocates).1⟩

/-! ## Where the lookups lead -/

/-- The node with the shortest of the ids that the owner's logical ids are read as. -/
structure ShortestShadow (nodes : Nodes) (owner other : Bytes) : Prop where
  shadows : Shadows other owner
  shortest : ∀ m ∈ nodes, Shadows m owner → other.length ≤ m.length

theorem ShortestShadow.eq {m m' : Bytes} (h : ShortestShadow nodes owner m) (hm : m ∈ nodes)
    (h' : ShortestShadow nodes owner m') (hm' : m' ∈ nodes) : m = m' := by
  have hlen : m.length = m'.length :=
    Nat.le_antisymm (h.shortest m' hm' h'.shadows) (h'.shortest m hm h.shadows)
  exact (List.prefix_of_prefix_length_le h.shadows.isPrefix h'.shadows.isPrefix
    hlen.le).eq_of_length hlen

/-- The prefix scan leads to the owner or, before it, to the shortest id that shadows it. -/
theorem find?_virtual {x : Nat} (hentry : nodes.lookup owner = some entry) :
    ∃ item, ((ordered nodes).find? fun item =>
        derivedFrom item.1 (PGManager.buildVirtualNodeId owner x)) = some item ∧
      nodes.lookup item.1 = some item.2 ∧
      ((item = ⟨owner, entry⟩ ∧ ∀ m ∈ nodes, ¬Shadows m owner) ∨
        ShortestShadow nodes owner item.1) := by
  have hsome : ((ordered nodes).find? fun item =>
      derivedFrom item.1 (PGManager.buildVirtualNodeId owner x)).isSome :=
    List.find?_isSome.mpr ⟨⟨owner, entry⟩, mem_ordered.mpr hentry, derivedFrom_virtual owner x⟩
  obtain ⟨item, hfind⟩ := Option.isSome_iff_exists.mp hsome
  obtain ⟨hlookup, hderived, hshortest⟩ := find?_shortest hfind
  have hshadow : ∀ m ∈ nodes, Shadows m owner → item.1.length ≤ m.length := fun m hm h =>
    hshortest m hm (derivedFrom_virtual_iff.mpr (.inr h))
  refine ⟨item, hfind, hlookup, ?_⟩
  rcases derivedFrom_virtual_iff.mp hderived with hid | hother
  · refine .inl ⟨?_, fun m hm h => ?_⟩
    · obtain ⟨id, entry'⟩ := item
      obtain rfl : id = owner := hid
      obtain rfl : entry' = entry := Option.some.inj (hlookup.symm.trans hentry)
      rfl
    · exact absurd (hid ▸ hshadow m hm h) (Nat.not_le_of_lt h.length_lt)
  · exact .inr ⟨hother, hshadow⟩

/-- The four lookups lead to the owner of the id. -/
structure Resolves (stagingFull : UInt64 → UInt64 → Bool) (nodes : Nodes) (cache : NodeStateCache)
    (owner : Bytes) (entry : Entry) (logicalId : Bytes) : Prop where
  address : cache.resolveNodeAddress logicalId = some (published stagingFull entry).address
  logical : resolveLogicalNodeId nodes logicalId = some owner
  registryAdmits : CmsNodeRegistry.isWriteAdmitted stagingFull nodes logicalId =
    isWriteAllocatable stagingFull entry.managedView
  cacheAdmits : cache.isWriteAdmitted logicalId = admitsWrites (published stagingFull entry)

/-- The owner has an address, and its logical id is not read as that of a node with another
address or one that takes no writes. -/
def Readable (stagingFull : UInt64 → UInt64 → Bool) (nodes : Nodes) (owner : Bytes) (entry : Entry)
    (logicalId : Bytes) : Prop :=
  (published stagingFull entry).address ≠ [] ∧
    (logicalId = owner ∨ logicalId ∉ nodes ∧
      entry.managedView.spec.executionMode = .virtual ∧
      ∀ other e, nodes.lookup other = some e → ShortestShadow nodes owner other →
        (published stagingFull e).address = (published stagingFull entry).address ∧
          admitsWrites (published stagingFull e) = true)

theorem resolves_exact (hfiled : Filed nodes) (hpublishes : Publishes stagingFull nodes cache)
    (hentry : nodes.lookup owner = some entry) :
    Resolves stagingFull nodes cache owner entry owner ↔
      (published stagingFull entry).address ≠ [] := by
  have hname : owner ≠ [] := (hfiled owner entry hentry).2
  obtain ⟨node, hnode, hinfo⟩ := matchNode_exact hfiled hpublishes hentry
  obtain ⟨haddress, hadmits⟩ := cache_lookups hname hnode hinfo
  constructor
  · intro h hempty
    have hsome := haddress.symm.trans h.address
    rw [if_pos hempty] at hsome
    exact nomatch hsome
  · intro hne
    refine ⟨haddress.trans (if_neg hne), ?_, ?_, hadmits⟩
    · rw [resolveLogicalNodeId, if_neg hname, hentry]
    · rw [CmsNodeRegistry.isWriteAdmitted, if_neg hname, hentry]

/-- A logical id in the catalog is taken for that node. -/
theorem not_resolves_of_mem {x : Nat} (hmem : PGManager.buildVirtualNodeId owner x ∈ nodes) :
    ¬Resolves stagingFull nodes cache owner entry (PGManager.buildVirtualNodeId owner x) := by
  intro h
  have hne : PGManager.buildVirtualNodeId owner x ≠ [] :=
    List.append_ne_nil_of_right_ne_nil _ (TextFields.decimal_ne_nil x)
  obtain ⟨e, he⟩ := Option.isSome_iff_exists.mp (AList.lookup_isSome.mpr hmem)
  have hlogical := h.logical
  rw [resolveLogicalNodeId, if_neg hne, he] at hlogical
  have hlength := congrArg List.length (Option.some.inj hlogical)
  rw [PGManager.buildVirtualNodeId, dash_v, List.length_append, List.length_append] at hlength
  simp only [List.length_cons, List.length_nil] at hlength
  omega

theorem resolves_virtual {x : Nat} (hfiled : Filed nodes)
    (hpublishes : Publishes stagingFull nodes cache) (hentry : nodes.lookup owner = some entry)
    (hadmitted : admitsWrites (published stagingFull entry) = true)
    (hnone : nodes.lookup (PGManager.buildVirtualNodeId owner x) = none) :
    Resolves stagingFull nodes cache owner entry (PGManager.buildVirtualNodeId owner x) ↔
      (published stagingFull entry).address ≠ [] ∧
        entry.managedView.spec.executionMode = .virtual ∧
        ∀ other e, nodes.lookup other = some e → ShortestShadow nodes owner other →
          (published stagingFull e).address = (published stagingFull entry).address ∧
            admitsWrites (published stagingFull e) = true := by
  have hne : PGManager.buildVirtualNodeId owner x ≠ [] :=
    List.append_ne_nil_of_right_ne_nil _ (TextFields.decimal_ne_nil x)
  obtain ⟨item, hfind, hlookup, hwhich⟩ := find?_virtual (x := x) hentry
  obtain ⟨node, hnode, hinfo⟩ := matchNode_derived hfiled hpublishes hnone hfind
  obtain ⟨haddress, hadmits⟩ := cache_lookups hne hnode hinfo
  have hregistry : CmsNodeRegistry.isWriteAdmitted stagingFull nodes
      (PGManager.buildVirtualNodeId owner x) =
        isWriteAllocatable stagingFull item.2.managedView := by
    rw [CmsNodeRegistry.isWriteAdmitted, if_neg hne, hnone, hfind]
    rfl
  constructor
  · intro h
    have hsame := haddress.symm.trans h.address
    have haddressed : (published stagingFull item.2).address ≠ [] := fun hempty => by
      rw [if_pos hempty] at hsame
      exact nomatch hsame
    rw [if_neg haddressed] at hsame
    have hsame := Option.some.inj hsame
    refine ⟨hsame ▸ haddressed, (resolveLogicalNodeId_virtual hentry hnone).mp h.logical, ?_⟩
    intro other e he hshortest
    rcases hwhich with ⟨_, hclear⟩ | hfirst
    · have hmem : other ∈ nodes := AList.lookup_isSome.mp (by rw [he]; rfl)
      exact absurd hshortest.shadows (hclear other hmem)
    · have hmem : other ∈ nodes := AList.lookup_isSome.mp (by rw [he]; rfl)
      have hmem' : item.1 ∈ nodes := AList.lookup_isSome.mp (by rw [hlookup]; rfl)
      obtain rfl := hfirst.eq hmem' hshortest hmem
      obtain rfl : item.2 = e := Option.some.inj (hlookup.symm.trans he)
      exact ⟨hsame, hadmits.symm.trans (h.cacheAdmits.trans hadmitted)⟩
  · intro ⟨haddressed, hmode, hshadowed⟩
    have hfirst : (published stagingFull item.2).address = (published stagingFull entry).address ∧
        admitsWrites (published stagingFull item.2) = true := by
      rcases hwhich with ⟨rfl, _⟩ | hfirst
      · exact ⟨rfl, hadmitted⟩
      · exact hshadowed item.1 item.2 hlookup hfirst
    refine ⟨?_, (resolveLogicalNodeId_virtual hentry hnone).mpr hmode, ?_, ?_⟩
    · rw [haddress, hfirst.1, if_neg haddressed]
    · rw [hregistry, isWriteAllocatable_of_published hfirst.2,
        isWriteAllocatable_of_published hadmitted]
    · rw [hadmits, hfirst.2, hadmitted]

theorem resolves_iff {logicalId : Bytes} (hfiled : Filed nodes)
    (hpublishes : Publishes stagingFull nodes cache) (hentry : nodes.lookup owner = some entry)
    (hadmitted : admitsWrites (published stagingFull entry) = true)
    (hid : logicalId = owner ∨ ∃ x, logicalId = PGManager.buildVirtualNodeId owner x) :
    Resolves stagingFull nodes cache owner entry logicalId ↔
      Readable stagingFull nodes owner entry logicalId := by
  rcases hid with rfl | ⟨x, rfl⟩
  · rw [resolves_exact hfiled hpublishes hentry, Readable]
    exact (and_iff_left (Or.inl rfl)).symm
  · have hne : PGManager.buildVirtualNodeId owner x ≠ owner := fun heq => by
      have hlength := congrArg List.length heq
      rw [PGManager.buildVirtualNodeId, dash_v, List.length_append, List.length_append] at hlength
      simp only [List.length_cons, List.length_nil] at hlength
      omega
    rw [Readable, or_iff_right hne]
    rcases hnone : nodes.lookup (PGManager.buildVirtualNodeId owner x) with _ | e
    · rw [resolves_virtual hfiled hpublishes hentry hadmitted hnone]
      have hnot : PGManager.buildVirtualNodeId owner x ∉ nodes := fun hmem => by
        have hsome := AList.lookup_isSome.mpr hmem
        rw [hnone] at hsome
        exact nomatch hsome
      exact and_congr_right fun _ => (and_iff_right hnot).symm
    · have hmem : PGManager.buildVirtualNodeId owner x ∈ nodes :=
        AList.lookup_isSome.mp (by rw [hnone]; rfl)
      exact iff_of_false (not_resolves_of_mem hmem) fun h => h.2.1 hmem

/-- What a pick was made from is the node its group names. -/
theorem owner_of_selection {filter : NodeFilter} {selection : NodeSelection}
    (hfiled : Filed nodes) (hpublishes : Publishes stagingFull nodes cache)
    (h : FromNode filter cache.nodes selection) :
    ∃ entry, nodes.lookup selection.groupId = some entry ∧
      admitsWrites (published stagingFull entry) = true ∧
      selection.address = (published stagingFull entry).address ∧
      (selection.nodeId = selection.groupId ∨
        ∃ x, selection.nodeId = PGManager.buildVirtualNodeId selection.groupId x) := by
  obtain ⟨node, hnode, hallocatable, ⟨x, _, hid⟩, haddress, _, hgroup, _⟩ := h
  have hmem : node.toNodeInfo ∈ placementNodes stagingFull nodes := by
    rw [← hpublishes]
    exact List.mem_map.mpr ⟨node, hnode, rfl⟩
  obtain ⟨item, hitem, hinfo⟩ := List.mem_map.mp hmem
  have hlookup := mem_ordered.mp hitem
  have hnodeId : node.nodeId = item.1 :=
    (congrArg NodeInfo.nodeId hinfo).symm.trans (hfiled item.1 item.2 hlookup).1
  have hgroupId : node.groupId = item.1 :=
    (congrArg NodeInfo.groupId hinfo).symm.trans (hfiled item.1 item.2 hlookup).1
  have howner : selection.groupId = item.1 := by
    rw [hgroup, if_neg (hgroupId ▸ (hfiled item.1 item.2 hlookup).2), hgroupId]
  refine ⟨item.2, howner ▸ hlookup, ?_, ?_, ?_⟩
  · rw [← admitsWrites_congr (a := node) hinfo.symm]
    exact admitsWrites_of_allocatable hallocatable
  · exact haddress.trans (congrArg NodeInfo.address hinfo).symm
  · rw [hid, howner, ← hnodeId]
    unfold CachedNode.logicalId
    split
    · exact .inr ⟨x, rfl⟩
    · exact .inl rfl

/-- The id of a pick leads back to the node it was made from exactly when it can be read as
the id of no other node that would answer otherwise. -/
theorem picked_resolves_iff (hfiled : Filed nodes) (hpublishes : Publishes stagingFull nodes cache)
    (count : UInt32) (selection : NodeSelection)
    (hpicked : selection ∈ (cache.pickNodes count).1 ∨
      ∃ type, selection ∈ (cache.pickNodesByType count type).1) :
    ∃ entry, nodes.lookup selection.groupId = some entry ∧
      selection.address = (published stagingFull entry).address ∧
      (Resolves stagingFull nodes cache selection.groupId entry selection.nodeId ↔
        Readable stagingFull nodes selection.groupId entry selection.nodeId) := by
  obtain ⟨filter, hfrom⟩ : ∃ filter, FromNode filter cache.nodes selection := by
    rcases hpicked with hany | ⟨type, htyped⟩
    · exact ⟨_, (pick_selected cache count selection hany).1⟩
    · exact ⟨_, (pick_selected cache count selection htyped).1⟩
  obtain ⟨entry, hentry, hadmitted, haddress, hid⟩ := owner_of_selection hfiled hpublishes hfrom
  exact ⟨entry, hentry, haddress, resolves_iff hfiled hpublishes hentry hadmitted hid⟩

/-- A virtual storage node with a disk, at an address of its own. -/
def virtualEntry (nodeId : Bytes) (lifecycle : Rpc.ManagedLifecycleState) (logicalNodeCount : UInt32) :
    Entry where
  managedView? := some
    { spec? := some
        { nodeId := nodeId
          kind := .storage
          executionMode := .virtual
          logicalNodeCount := logicalNodeCount
          participatesInPlacement := true }
      lifecycle := lifecycle
      health := .healthy
      powerLevel := .peak
      serviceAddress := nodeId
      administrativeState := .enabled
      serviceMode := .readWrite
      inventoryDevices := [{ deviceId := ofAscii "d", kind := .hdd, freeBytes := 1, isHealthy := true }] }

/-- Two nodes, of which the first gives out two logical ids. -/
def twoNodes (first second : Bytes) : Nodes :=
  AList.insert second (virtualEntry second .joining 1)
    (AList.insert first (virtualEntry first .working 2) ∅)

def freshCache (nodes : Nodes) : NodeStateCache :=
  ⟨(placementNodes (fun _ _ => false) nodes).map fun node => { toNodeInfo := node }, 0, 0⟩

theorem publishes_freshCache (nodes : Nodes) :
    Publishes (fun _ _ => false) nodes (freshCache nodes) := by
  rw [Publishes, freshCache, List.map_map]
  exact List.map_id _

theorem filed_twoNodes {first second : Bytes} (hne : first ≠ []) (hne' : second ≠ []) :
    Filed (twoNodes first second) := by
  intro id entry hentry
  rcases eq_or_ne id second with rfl | hsecond
  · rw [twoNodes, AList.lookup_insert] at hentry
    cases hentry
    exact ⟨rfl, hne'⟩
  · rw [twoNodes, AList.lookup_insert_ne hsecond] at hentry
    rcases eq_or_ne id first with rfl | hfirst
    · rw [AList.lookup_insert] at hentry
      cases hentry
      exact ⟨rfl, hne⟩
    · rw [AList.lookup_insert_ne hfirst, AList.lookup_empty] at hentry
      exact nomatch hentry

theorem picked_resolves_of_two :
    let nodes := twoNodes (ofAscii "a") (ofAscii "b")
    ∃ selection ∈ ((freshCache nodes).pickNodes 2).1, selection.nodeId = ofAscii "a-v1" ∧
      ∃ entry, nodes.lookup selection.groupId = some entry ∧
        (Resolves (fun _ _ => false) nodes (freshCache nodes) selection.groupId entry
            selection.nodeId ↔
          Readable (fun _ _ => false) nodes selection.groupId entry selection.nodeId) := by
  obtain ⟨selection, hpicked, hid⟩ :
      ∃ selection ∈ ((freshCache (twoNodes (ofAscii "a") (ofAscii "b"))).pickNodes 2).1,
        selection.nodeId = ofAscii "a-v1" := by decide +kernel
  obtain ⟨entry, hentry, _, hiff⟩ := picked_resolves_iff
    (filed_twoNodes (List.cons_ne_nil _ _) (List.cons_ne_nil _ _)) (publishes_freshCache _) 2
    selection (.inl hpicked)
  exact ⟨selection, hpicked, hid, entry, hentry, hiff⟩

/-- The second logical id of one node is the id of another, which is still joining. -/
theorem picked_as_other :
    let nodes := twoNodes (ofAscii "a") (ofAscii "a-v1")
    let cache := freshCache nodes
    Filed nodes ∧ Publishes (fun _ _ => false) nodes cache ∧
      ∃ selection ∈ (cache.pickNodes 2).1, selection.groupId = ofAscii "a" ∧
        selection.address = ofAscii "a" ∧ selection.nodeId = ofAscii "a-v1" ∧
        cache.resolveNodeAddress selection.nodeId = some (ofAscii "a-v1") ∧
        resolveLogicalNodeId nodes selection.nodeId = some (ofAscii "a-v1") ∧
        CmsNodeRegistry.isWriteAdmitted (fun _ _ => false) nodes selection.nodeId = false ∧
        cache.isWriteAdmitted selection.nodeId = false :=
  ⟨filed_twoNodes (List.cons_ne_nil _ _) (List.cons_ne_nil _ _), publishes_freshCache _,
    by decide +kernel⟩

end NodeIdResolution

end Zb.Mds
