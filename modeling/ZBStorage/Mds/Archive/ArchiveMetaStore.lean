-- SUMMARY: Archive generations loaded and cached, and inodes looked up behind the Bloom filter.
import ZBStorage.Lib.CallHistory
import ZBStorage.Lib.TextFields
import ZBStorage.Mds.Archive.ArchiveBloomFilter
import ZBStorage.Mds.Archive.ArchiveDataFile
import ZBStorage.Mds.Archive.NamespaceCatalog

/-!
# The metadata store of archives

`ArchiveManifest.cpp` and the lookup of inodes of `ArchiveMetaStore.cpp`. A generation is
loaded when it is first asked for and stays in a cache until it is evicted. Its Bloom
filter is loaded if the manifest names one, and asked in any case.
-/

namespace Zb.Mds

open Zb.Rpc Bytes CallHistory TextFields

/-! ## Manifests -/

structure ArchiveManifest where
  namespaceId : Bytes := []
  pathPrefix : Bytes := []
  generationId : Bytes := []
  manifestPath : Bytes := []
  inodeRoot : Bytes := []
  inodeIndexRoot : Bytes := []
  inodeBloomRoot : Bytes := []
  dentryRoot : Bytes := []
  dentryIndexRoot : Bytes := []
  rootInodeId : UInt64 := 0
  inodeMin : UInt64 := 0
  inodeMax : UInt64 := 0
  inodeCount : UInt64 := 0
  pageSizeBytes : UInt64 := 0
  deriving DecidableEq

namespace ArchiveManifest

def numberField (value : Bytes) (name : String) (set : UInt64 → ArchiveManifest) :
    Except String ArchiveManifest :=
  match stoull value with
  | none => .error s!"invalid {name} in archive manifest"
  | some number => .ok (set number)

/-- The value of a key; other keys are passed over. -/
def setField (manifest : ArchiveManifest) (key value : Bytes) : Except String ArchiveManifest :=
  if key = ofAscii "namespace_id" then .ok { manifest with namespaceId := value }
  else if key = ofAscii "path_prefix" then .ok { manifest with pathPrefix := value }
  else if key = ofAscii "generation_id" then .ok { manifest with generationId := value }
  else if key = ofAscii "inode_root" then .ok { manifest with inodeRoot := value }
  else if key = ofAscii "inode_index_root" then .ok { manifest with inodeIndexRoot := value }
  else if key = ofAscii "inode_bloom_root" then .ok { manifest with inodeBloomRoot := value }
  else if key = ofAscii "dentry_root" then .ok { manifest with dentryRoot := value }
  else if key = ofAscii "dentry_index_root" then .ok { manifest with dentryIndexRoot := value }
  else if key = ofAscii "root_inode_id" then
    numberField value "root_inode_id" fun number => { manifest with rootInodeId := number }
  else if key = ofAscii "inode_min" then
    numberField value "inode_min" fun number => { manifest with inodeMin := number }
  else if key = ofAscii "inode_max" then
    numberField value "inode_max" fun number => { manifest with inodeMax := number }
  else if key = ofAscii "inode_count" then
    numberField value "inode_count" fun number => { manifest with inodeCount := number }
  else if key = ofAscii "page_size_bytes" then
    numberField value "page_size_bytes" fun number => { manifest with pageSizeBytes := number }
  else .ok manifest

/-- The lines of a manifest; the first one that counts is the header. -/
def readLines (manifest : ArchiveManifest) : Bool → List Bytes →
    Except String (ArchiveManifest × Bool)
  | headerChecked, [] => .ok (manifest, headerChecked)
  | headerChecked, line :: lines =>
      let trimmed := trim line
      if trimmed = [] ∨ trimmed.head? = some 35 then readLines manifest headerChecked lines
      else if !headerChecked then
        if trimmed ≠ ofAscii "archive_meta_manifest_v1" then .error "invalid archive manifest header"
        else readLines manifest true lines
      else if 61 ∉ trimmed then .error "invalid archive manifest line"
      else
        let key := trimmed.takeWhile fun ch => ch ≠ 61
        match manifest.setField (trim key) (trim (trimmed.drop (key.length + 1))) with
        | .error e => .error e
        | .ok manifest => readLines manifest headerChecked lines

def loadFromFile (files : ArchiveFiles) (manifestPath : Bytes) : Except String ArchiveManifest :=
  match files.lookup manifestPath with
  | none => .error "failed to open archive manifest"
  | some data =>
      match readLines { manifestPath } false (getLines 10 [] data) with
      | .error e => .error e
      | .ok (_, false) => .error "empty archive manifest"
      | .ok (parsed, true) =>
          if parsed.namespaceId = [] then .error "archive manifest missing namespace_id"
          else if parsed.pathPrefix = [] then .error "archive manifest missing path_prefix"
          else if parsed.generationId = [] then .error "archive manifest missing generation_id"
          else if parsed.inodeRoot = [] then .error "archive manifest missing inode_root"
          else if parsed.dentryRoot = [] then .error "archive manifest missing dentry_root"
          else if parsed.rootInodeId = 0 then .error "archive manifest missing root_inode_id"
          else .ok parsed

end ArchiveManifest

/-! ## Paths -/

/-- `std::filesystem::path::parent_path`. -/
def parentPath (path : Bytes) : Bytes :=
  let kept := path.rdropWhile fun ch => ch ≠ slash
  if kept = [] then []
  else
    let parent := kept.rdropWhile fun ch => ch = slash
    if parent = [] then [slash] else parent

/-- `operator/` of `std::filesystem::path`. -/
def joinPath (parent path : Bytes) : Bytes :=
  if path.head? = some slash then path
  else if parent = [] ∨ parent.getLast? = some slash then parent ++ path
  else parent ++ [slash] ++ path

def ArchiveManifest.resolveArchivePath (manifest : ArchiveManifest) (relativeOrAbsolute : Bytes) :
    Bytes :=
  if relativeOrAbsolute = [] then []
  else if relativeOrAbsolute.head? = some slash then relativeOrAbsolute
  else joinPath (parentPath manifest.manifestPath) relativeOrAbsolute

def defaultIndexPath (dataPath : Bytes) : Bytes :=
  if dataPath = [] then [] else dataPath ++ ofAscii ".idx"

/-- The index of a data file, named or at its default place. -/
def ArchiveManifest.indexPath (manifest : ArchiveManifest) (dataPath indexRoot : Bytes) : Bytes :=
  if indexRoot = [] then defaultIndexPath dataPath else manifest.resolveArchivePath indexRoot

/-! ## Generations -/

structure LoadedGeneration where
  manifest : ArchiveManifest
  inodeData : ArchiveDataFile
  dentryData : ArchiveDataFile
  inodeBloom : ArchiveBloomFilter
  deriving DecidableEq

/-- The filter that the manifest names, or one without bits. -/
def loadBloom (files : ArchiveFiles) (manifest : ArchiveManifest) : Except String ArchiveBloomFilter :=
  if manifest.inodeBloomRoot = [] then .ok {}
  else
    match files.lookup (manifest.resolveArchivePath manifest.inodeBloomRoot) with
    | none => .error "failed to open bloom filter file"
    | some data => ArchiveBloomFilter.load data

/-- The part of `EnsureGenerationLoaded` behind the cache. -/
def loadGeneration (files : ArchiveFiles) (manifestPath : Bytes) : Except String LoadedGeneration :=
  match ArchiveManifest.loadFromFile files manifestPath with
  | .error e => .error e
  | .ok manifest =>
      let inodePath := manifest.resolveArchivePath manifest.inodeRoot
      let dentryPath := manifest.resolveArchivePath manifest.dentryRoot
      let pageSize := manifest.pageSizeBytes.toUInt32
      match ArchiveDataFile.openFile files .inode inodePath
          (manifest.indexPath inodePath manifest.inodeIndexRoot) pageSize,
        ArchiveDataFile.openFile files .dentry dentryPath
          (manifest.indexPath dentryPath manifest.dentryIndexRoot) pageSize,
        loadBloom files manifest with
      | .error e, _, _ => .error e
      | .ok _, .error e, _ => .error e
      | .ok _, .ok _, .error e => .error e
      | .ok inodeData, .ok dentryData, .ok inodeBloom =>
          .ok { manifest, inodeData, dentryData, inodeBloom }

def resolveManifestPath (archiveRoot : Bytes) (route : ArchiveNamespaceRoute) : Bytes :=
  if route.manifestPath ≠ [] then route.manifestPath
  else if archiveRoot = [] ∨ route.namespaceId = [] ∨ route.generationId = [] then []
  else
    [ofAscii "namespaces", route.namespaceId, ofAscii "generations", route.generationId,
      ofAscii "manifest.txt"].foldl joinPath archiveRoot

/-- The store. Its files do not change while it runs. -/
structure ArchiveMetaStore where
  archiveRoot : Bytes := []
  files : ArchiveFiles
  generationCache : AList (fun _ : Bytes => LoadedGeneration) := ∅

namespace ArchiveMetaStore

/-- `evicted` are the generations that the sizes and times of the cache let go. -/
def ensureGenerationLoaded (store : ArchiveMetaStore) (route : ArchiveNamespaceRoute)
    (evicted : List Bytes) : Except String LoadedGeneration × ArchiveMetaStore :=
  let manifestPath := resolveManifestPath store.archiveRoot route
  if manifestPath = [] then (.error "archive manifest path is empty", store)
  else
    match store.generationCache.lookup manifestPath with
    | some generation => (.ok generation, store)
    | none =>
        match loadGeneration store.files manifestPath with
        | .error e => (.error e, store)
        | .ok loaded =>
            (.ok loaded,
              { store with
                generationCache := evicted.foldl (fun cache path => cache.erase path)
                  (store.generationCache.insert manifestPath loaded) })

/-- What `GetInode` answers for a generation. -/
def inodeOf (files : ArchiveFiles) (generation : LoadedGeneration) (inodeId : UInt64) :
    Except String (Option InodeAttr) :=
  if !generation.inodeBloom.mayContainUInt64 inodeId then .ok none
  else generation.inodeData.findInode files inodeId

def getInode (store : ArchiveMetaStore) (route : ArchiveNamespaceRoute) (inodeId : UInt64)
    (evicted : List Bytes) : Except String (Option InodeAttr) × ArchiveMetaStore :=
  if inodeId = 0 then (.error "invalid archive inode lookup args", store)
  else
    match store.ensureGenerationLoaded route evicted with
    | (.error e, store) => (.error e, store)
    | (.ok generation, store) => (inodeOf store.files generation inodeId, store)

structure InodeLookup where
  route : ArchiveNamespaceRoute
  inodeId : UInt64
  evicted : List Bytes

/-- Any lookup serves as a call; the others load generations in the same way. -/
def Serve (store : ArchiveMetaStore) (call : InodeLookup) (store' : ArchiveMetaStore) : Prop :=
  store' = (store.getInode call.route call.inodeId call.evicted).2

/-! ## The cache -/

variable {initial store store' : ArchiveMetaStore} {files : ArchiveFiles}
  {route : ArchiveNamespaceRoute} {generation : LoadedGeneration} {inodeId : UInt64}
  {evicted : List Bytes}

/-- The cache holds what the files hold. -/
structure Cached (initial store : ArchiveMetaStore) : Prop where
  sameFiles : store.files = initial.files
  sameRoot : store.archiveRoot = initial.archiveRoot
  loaded : ∀ path generation, store.generationCache.lookup path = some generation →
    loadGeneration initial.files path = .ok generation

theorem lookup_evict {cache : AList fun _ : Bytes => LoadedGeneration} {path : Bytes}
    (h : (evicted.foldl (fun cache path => cache.erase path) cache).lookup path = some generation) :
    cache.lookup path = some generation := by
  induction evicted generalizing cache with
  | nil => exact h
  | cons first evicted ih =>
      have hrest := ih h
      by_cases hsame : path = first
      · rw [hsame, AList.lookup_erase] at hrest
        exact nomatch hrest
      · rwa [AList.lookup_erase_ne hsame] at hrest

/-- A route is answered from the cache as from the files. -/
theorem Cached.ensure (h : Cached initial store) (hempty : initial.generationCache = ∅)
    (route : ArchiveNamespaceRoute) (evicted evicted' : List Bytes) :
    Cached initial (store.ensureGenerationLoaded route evicted).2 ∧
      (store.ensureGenerationLoaded route evicted).1 =
        (initial.ensureGenerationLoaded route evicted').1 := by
  obtain ⟨archiveRoot, files, cache⟩ := store
  obtain rfl : archiveRoot = initial.archiveRoot := h.sameRoot
  obtain rfl : files = initial.files := h.sameFiles
  simp only [ensureGenerationLoaded, hempty, AList.lookup_empty]
  split
  · exact ⟨h, rfl⟩
  cases hcached : cache.lookup (resolveManifestPath initial.archiveRoot route) with
  | some cached =>
      have hloaded := h.loaded _ _ hcached
      rw [hloaded]
      exact ⟨h, rfl⟩
  | none =>
      cases hloaded : loadGeneration initial.files
          (resolveManifestPath initial.archiveRoot route) with
      | error e => exact ⟨h, rfl⟩
      | ok loaded =>
          refine ⟨⟨rfl, rfl, fun path generation hlookup => ?_⟩, rfl⟩
          have hinserted := lookup_evict hlookup
          by_cases hsame : path = resolveManifestPath initial.archiveRoot route
          · rw [hsame, AList.lookup_insert] at hinserted
            cases hinserted
            exact hsame ▸ hloaded
          · rw [AList.lookup_insert_ne hsame] at hinserted
            exact h.loaded path generation hinserted

theorem Cached.getInode (h : Cached initial store) (hempty : initial.generationCache = ∅)
    (route : ArchiveNamespaceRoute) (inodeId : UInt64) (evicted : List Bytes) :
    Cached initial (store.getInode route inodeId evicted).2 := by
  rw [ArchiveMetaStore.getInode]
  split
  · exact h
  · have hensured := (h.ensure hempty route evicted []).1
    split
    · rename_i hloaded
      rw [hloaded] at hensured
      exact hensured
    · rename_i hloaded
      rw [hloaded] at hensured
      exact hensured

theorem cached_run {hist : List (Served ArchiveMetaStore InodeLookup)}
    (hempty : initial.generationCache = ∅) (h : Serves Serve Any initial hist store) :
    Cached initial store := by
  refine h.invariant (fun _ call _ hcached _ hserve => ?_)
    ⟨rfl, rfl, fun _ _ hlookup => by rw [hempty] at hlookup; exact nomatch hlookup⟩
  rw [hserve]
  exact hcached.getInode hempty call.route call.inodeId call.evicted

/-! ## The filter -/

/-- The filter that the manifest names, if it does, is the file of one that had every
    inode of the segment added. -/
def Filtered (files : ArchiveFiles) (generation : LoadedGeneration) : Prop :=
  generation.manifest.inodeBloomRoot ≠ [] →
    ∃ (bitCount : UInt64) (hashCount : UInt32) (inodeIds : List UInt64),
      bitCount ≠ 0 ∧ hashCount ≠ 0 ∧ bitCount.toNat + 7 < 2 ^ 64 ∧
      (∀ inodeId, generation.inodeData.HasInode files inodeId → inodeId ∈ inodeIds) ∧
      files.lookup (generation.manifest.resolveArchivePath generation.manifest.inodeBloomRoot) =
        some (inodeIds.foldl ArchiveBloomFilter.addUInt64
          (ArchiveBloomFilter.sized bitCount hashCount)).save

theorem loadBloom_of_load {manifestPath : Bytes}
    (h : loadGeneration files manifestPath = .ok generation) :
    loadBloom files generation.manifest = .ok generation.inodeBloom := by
  rw [loadGeneration] at h
  split at h
  · exact nomatch h
  · dsimp only at h
    split at h
    · exact nomatch h
    · exact nomatch h
    · exact nomatch h
    · rename_i hbloom
      cases h
      exact hbloom

theorem ensure_loads {archiveRoot : Bytes}
    (h : (({ archiveRoot, files } : ArchiveMetaStore).ensureGenerationLoaded route evicted).1 =
      .ok generation) :
    loadGeneration files (resolveManifestPath archiveRoot route) = .ok generation := by
  simp only [ensureGenerationLoaded, AList.lookup_empty] at h
  split at h
  · exact nomatch h
  split at h
  · exact nomatch h
  · rename_i hloaded
    cases h
    exact hloaded

/-- The filter of the segment lets every inode through that has a record. -/
theorem Filtered.mayContain (h : Filtered files generation)
    (hbloom : loadBloom files generation.manifest = .ok generation.inodeBloom)
    (hnamed : generation.manifest.inodeBloomRoot ≠ [])
    (hinode : generation.inodeData.HasInode files inodeId) :
    generation.inodeBloom.mayContainUInt64 inodeId = true := by
  obtain ⟨bitCount, hashCount, inodeIds, hbits, hhash, hroom, hall, hfile⟩ := h hnamed
  have hallocated := ArchiveBloomFilter.allocated_sized hbits hhash hroom
  rw [loadBloom, if_neg hnamed, hfile] at hbloom
  dsimp only at hbloom
  rw [(hallocated.foldl inodeIds).load_save] at hbloom
  rw [← Except.ok.inj hbloom]
  exact hallocated.mayContain_foldl (.inl (hall inodeId hinode))

/-- Without a filter file the filter hides everything. -/
theorem inodeOf_unnamed (hbloom : loadBloom files generation.manifest = .ok generation.inodeBloom)
    (hunnamed : generation.manifest.inodeBloomRoot = []) (inodeId : UInt64) :
    inodeOf files generation inodeId = .ok none := by
  rw [loadBloom, if_pos hunnamed] at hbloom
  rw [inodeOf, ← Except.ok.inj hbloom]
  rfl

/-- The filter hides no inode exactly if the manifest names one, or there is no inode that
    can be found. -/
theorem filter_hides_none_iff {archiveRoot : Bytes}
    {hist : List (Served ArchiveMetaStore InodeLookup)}
    (hserves : Serves Serve Any { archiveRoot, files } hist store)
    (hloadable : (({ archiveRoot, files } : ArchiveMetaStore).ensureGenerationLoaded route []).1 =
      .ok generation) (hfiltered : Filtered files generation) :
    (∀ inodeId attr evicted, generation.inodeData.findInode files inodeId = .ok (some attr) →
        (store.getInode route inodeId evicted).1 = .ok (some attr)) ↔
      generation.manifest.inodeBloomRoot ≠ [] ∨
        ∀ inodeId attr, generation.inodeData.findInode files inodeId ≠ .ok (some attr) := by
  have hcached := cached_run rfl hserves
  have hbloom := loadBloom_of_load (ensure_loads hloadable)
  have hanswer : ∀ inodeId attr evicted,
      generation.inodeData.findInode files inodeId = .ok (some attr) →
      (store.getInode route inodeId evicted).1 = inodeOf files generation inodeId := by
    intro inodeId attr evicted hfind
    have hzero : inodeId ≠ 0 := by
      rintro rfl
      rw [ArchiveDataFile.findInode, if_pos (.inl rfl)] at hfind
      cases hfind
    obtain ⟨hkept, hsame⟩ := hcached.ensure rfl route evicted []
    rw [hloadable] at hsame
    rw [ArchiveMetaStore.getInode, if_neg hzero]
    generalize store.ensureGenerationLoaded route evicted = ensured at hkept hsame
    obtain ⟨loaded, store'⟩ := ensured
    obtain rfl : loaded = .ok generation := hsame
    have hfiles : store'.files = files := hkept.sameFiles
    dsimp only
    rw [hfiles]
  constructor
  · intro hfound
    by_cases hnamed : generation.manifest.inodeBloomRoot = []
    · refine .inr fun inodeId attr hfind => ?_
      have hget := hfound inodeId attr [] hfind
      rw [hanswer inodeId attr [] hfind, inodeOf_unnamed hbloom hnamed] at hget
      cases hget
    · exact .inl hnamed
  · rintro (hnamed | hnone) inodeId attr evicted hfind
    · have hmay := hfiltered.mayContain hbloom hnamed (ArchiveDataFile.hasInode_of_find hfind)
      rw [hanswer inodeId attr evicted hfind, inodeOf, hmay]
      exact hfind
    · exact absurd hfind (hnone inodeId attr)

/-! ## A segment with one inode -/

/-- A file of ten bytes on an optical disc. -/
def segmentRecord : UnifiedInodeRecord where
  storageTier := UnifiedStorageTier.kOptical
  inodeId := 2
  parentInodeId := 1
  sizeBytes := 10
  nlink := 1
  blksize := 4096
  replica := 1
  versionNo := 5
  fileName := ofAscii "f"
  opticalNodeId := 1
  opticalDiskId := 1
  opticalImageId := 1

def segmentData : Bytes :=
  let payload := layoutRecord (packedForm segmentRecord)
  ofNatLE 8 2 ++ ofNatLE 4 payload.length ++ payload

def manifestLines (bloomLine : List String) : Bytes :=
  (["archive_meta_manifest_v1", "namespace_id=n", "path_prefix=/n", "generation_id=g",
    "inode_root=inode", "dentry_root=dentry", "root_inode_id=1"] ++ bloomLine).flatMap fun line =>
      ofAscii line ++ [10]

def segmentFiles (bloomLine : List String) : ArchiveFiles :=
  AList.insert (ofAscii "/a/m") (manifestLines bloomLine)
    (AList.insert (ofAscii "/a/inode") segmentData
      (AList.insert (ofAscii "/a/dentry") []
        (AList.insert (ofAscii "/a/bloom")
          ((ArchiveBloomFilter.sized 64 3).addUInt64 2).save ∅)))

def segmentRoute : ArchiveNamespaceRoute where
  namespaceId := ofAscii "n"
  pathPrefix := ofAscii "/n"
  generationId := ofAscii "g"
  manifestPath := ofAscii "/a/m"
  inodeMin := 1
  inodeMax := 2
  inodeCount := 1

def segmentGeneration (inodeBloomRoot : String) (inodeBloom : ArchiveBloomFilter) :
    LoadedGeneration where
  manifest :=
    { namespaceId := ofAscii "n"
      pathPrefix := ofAscii "/n"
      generationId := ofAscii "g"
      manifestPath := ofAscii "/a/m"
      inodeRoot := ofAscii "inode"
      inodeBloomRoot := ofAscii inodeBloomRoot
      dentryRoot := ofAscii "dentry"
      rootInodeId := 1 }
  inodeData := { kind := .inode, dataPath := ofAscii "/a/inode" }
  dentryData := { kind := .dentry, dataPath := ofAscii "/a/dentry" }
  inodeBloom

theorem segment_inodes {bloomLine : List String} {inodeId : UInt64}
    (h : ArchiveDataFile.HasInode (segmentFiles bloomLine)
      { kind := .inode, dataPath := ofAscii "/a/inode" } inodeId) : inodeId = 2 := by
  obtain ⟨data, hdata, hrecord⟩ := h
  obtain rfl : segmentData = data := Option.some.inj hdata
  have hnext : ArchiveDataFile.nextLegacy segmentData =
      .ok (some (⟨2, layoutRecord (packedForm segmentRecord)⟩, [])) := by decide +kernel
  cases hrecord with
  | here hview hsame =>
      rw [hnext] at hview
      cases hview
      exact hsame.symm
  | behind hview hrest =>
      rw [hnext] at hview
      cases hview
      cases hrest with
      | here hview _ => exact nomatch hview
      | behind hview _ => exact nomatch hview

/-- The inode of the segment is found in it, whatever the manifest says besides. -/
theorem segment_found (lines : List String)
    (hrecord : ArchiveDataFile.findInode (segmentFiles lines)
      { kind := .inode, dataPath := ofAscii "/a/inode" } 2 =
        (decodeUnifiedInodeAttr (layoutRecord (packedForm segmentRecord))).map some) :
    ∃ attr, ArchiveDataFile.findInode (segmentFiles lines)
      { kind := .inode, dataPath := ofAscii "/a/inode" } 2 = .ok (some attr) := by
  rw [hrecord]
  cases hattr : decodeUnifiedInodeAttr (layoutRecord (packedForm segmentRecord)) with
  | ok attr => exact ⟨attr, rfl⟩
  | error e =>
      have hisOk : (decodeUnifiedInodeAttr
          (layoutRecord (packedForm segmentRecord))).isOk = true := by decide +kernel
      rw [hattr] at hisOk
      exact nomatch hisOk

/-- A manifest that names its filter; the generation was loaded by an earlier lookup. -/
theorem segment_shown :
    ∃ attr, ArchiveDataFile.findInode (segmentFiles ["inode_bloom_root=bloom"])
        { kind := .inode, dataPath := ofAscii "/a/inode" } 2 = .ok (some attr) ∧
      ((({ archiveRoot := [], files := segmentFiles ["inode_bloom_root=bloom"] } :
        ArchiveMetaStore).getInode segmentRoute 2 []).2.getInode segmentRoute 2 []).1 =
          .ok (some attr) := by
  have hserve : Serve { archiveRoot := [], files := segmentFiles ["inode_bloom_root=bloom"] }
      ⟨segmentRoute, 2, []⟩ _ := rfl
  have hserves : Serves Serve Any
      { archiveRoot := [], files := segmentFiles ["inode_bloom_root=bloom"] } _ _ :=
    .snoc .nil trivial hserve
  have hloadable : (({ archiveRoot := [], files := segmentFiles ["inode_bloom_root=bloom"] } :
      ArchiveMetaStore).ensureGenerationLoaded segmentRoute []).1 =
        .ok (segmentGeneration "bloom" ((ArchiveBloomFilter.sized 64 3).addUInt64 2)) := by
    decide +kernel
  have hshown := (filter_hides_none_iff hserves hloadable
    (fun _ => ⟨64, 3, [2], by decide, by decide, by decide,
      fun _ hinode => List.mem_singleton.mpr (segment_inodes hinode), by decide +kernel⟩)).mpr
    (.inl (by decide))
  obtain ⟨attr, hfound⟩ := segment_found ["inode_bloom_root=bloom"] (by decide +kernel)
  exact ⟨attr, hfound, hshown 2 attr [] hfound⟩

/-- A manifest that names none. -/
theorem segment_hidden :
    (∃ attr, ArchiveDataFile.findInode (segmentFiles [])
      { kind := .inode, dataPath := ofAscii "/a/inode" } 2 = .ok (some attr)) ∧
    (({ archiveRoot := [], files := segmentFiles [] } : ArchiveMetaStore).ensureGenerationLoaded
      segmentRoute []).1 = .ok (segmentGeneration "" {}) ∧
    Filtered (segmentFiles []) (segmentGeneration "" {}) ∧
    (({ archiveRoot := [], files := segmentFiles [] } : ArchiveMetaStore).getInode
      segmentRoute 2 []).1 = .ok none := by
  exact ⟨segment_found [] (by decide +kernel), by decide +kernel, fun hnamed => absurd rfl hnamed,
    by decide +kernel⟩

end ArchiveMetaStore

end Zb.Mds
