-- SUMMARY: Looking routes up by path: candidates by prefix, the codec, and the path behind the route.
import ZBStorage.Lib.CallHistory
import ZBStorage.Lib.TextFields
import ZBStorage.Mds.Archive.NamespaceCatalog

/-!
# Route lookup

`LookupByPath` of `ArchiveNamespaceCatalog.cpp` with the codec of its payloads, and
`StripRoutePrefix` of `ArchiveMetaStore.cpp`. A path belongs to the route with the
longest path prefix that covers it by whole components. The generation of a route is
stored a second time, under a key of its own, and that one counts.
-/

namespace Zb.Mds

open Bytes KeyScan CallHistory TextFields RouteSchema

/-! ## The codec -/

def tab : UInt8 := 9

/-- `DecodeRoute`. -/
def decodeRoute (payload : Bytes) : Option ArchiveNamespaceRoute :=
  match getLines tab [] payload with
  | [namespaceId, pathPrefix, generationId, manifestPath] =>
      if pathPrefix = [] then none else some { namespaceId, pathPrefix, generationId, manifestPath }
  | [namespaceId, pathPrefix, generationId, manifestPath, inodeMin, inodeMax, inodeCount] =>
      match stoull inodeMin, stoull inodeMax, stoull inodeCount with
      | some inodeMin, some inodeMax, some inodeCount =>
          if pathPrefix = [] then none
          else some
            { namespaceId, pathPrefix, generationId, manifestPath, inodeMin, inodeMax, inodeCount }
      | _, _, _ => none
  | _ => none

/-- `DecodeCurrentRoute`: the generation and its manifest. -/
def decodeCurrentRoute (payload : Bytes) : Option (Bytes × Bytes) :=
  match getLines tab [] payload with
  | [generationId, manifestPath] => if generationId = [] then none else some (generationId, manifestPath)
  | _ => none

/-! ## Operations -/

/-- The path up to its last slash; the root if there is no other. -/
def parentPrefix (current : Bytes) : Bytes :=
  let kept := current.rdropWhile fun ch => ch ≠ slash
  if kept.length ≤ 1 then [slash] else kept.dropLast

/-- The loop of `BuildPrefixCandidates`. Every round shortens the path, so its length
    bounds the rounds. -/
def candidatesFrom : Nat → Bytes → List Bytes
  | 0, _ => []
  | rounds + 1, current =>
      if current = [slash] then [current] else current :: candidatesFrom rounds (parentPrefix current)

def buildPrefixCandidates (normalizedPath : Bytes) : List Bytes :=
  if normalizedPath.head? = some slash then candidatesFrom normalizedPath.length normalizedPath else []

def applyCurrentRoute (db : RawStore) (route : ArchiveNamespaceRoute) :
    Except String ArchiveNamespaceRoute :=
  match db.lookup (archiveSchema.currentKey route.pathPrefix) with
  | none => .ok route
  | some payload =>
      match decodeCurrentRoute payload with
      | none => .error "invalid archive namespace current payload"
      | some (generationId, manifestPath) => .ok { route with generationId, manifestPath }

def lookupCandidates (db : RawStore) : List Bytes → Except String (Option ArchiveNamespaceRoute)
  | [] => .ok none
  | candidate :: candidates =>
      match db.lookup (archiveSchema.routeKey candidate) with
      | none => lookupCandidates db candidates
      | some payload =>
          match decodeRoute payload with
          | none => .error "invalid archive namespace route payload"
          | some loaded => (applyCurrentRoute db loaded).map some

def lookupByPath (db : RawStore) (path : Bytes) : Except String (Option ArchiveNamespaceRoute) :=
  match normalizePathPrefix path with
  | none => .error "invalid archive namespace lookup path"
  | some normalizedPath => lookupCandidates db (buildPrefixCandidates normalizedPath)

/-- `SetCurrentRoute`; `written` is the error of the store, if any. -/
def setCurrentRoute (db : RawStore) (written : Option Bytes) (route : ArchiveNamespaceRoute) :
    Except Bytes Unit × RawStore :=
  match normalizePathPrefix route.pathPrefix with
  | none => (.error (ofAscii "invalid archive namespace path prefix"), db)
  | some path =>
      if route.generationId = [] then
        (.error (ofAscii "archive namespace current generation_id is empty"), db)
      else
        match written with
        | some error => (.error error, db)
        | none => (.ok (), db.insert (archiveSchema.currentKey path)
            (archiveSchema.encodeCurrentRoute { route with pathPrefix := path }))

/-- `NormalizePath` of the metadata store. -/
def normalizePath (path : Bytes) : Option Bytes :=
  if path = [] then none
  else
    let p := path.map fun ch => if ch = 92 then slash else ch
    let p := if p.head? = some slash then p else slash :: p
    let out := popSlashes (collapseSlashes false p)
    some (if out = [] then [slash] else out)

def stripRoutePrefix (routePrefix path : Bytes) : Except String Bytes :=
  match normalizePath routePrefix, normalizePath path with
  | some normalizedRoute, some normalizedPath =>
      if normalizedPath = normalizedRoute then .ok [slash]
      else if normalizedRoute ++ [slash] <+: normalizedPath then
        let relative := normalizedPath.drop normalizedRoute.length
        .ok (if relative = [] then [slash] else relative)
      else .error "path does not belong to archive route"
  | _, _ => .error "invalid archive route path"

/-! ## Normal paths -/

variable {path normalized covering : Bytes} {rounds : Nat}

theorem length_collapseSlashes_le (prevSlash : Bool) (path : Bytes) :
    (collapseSlashes prevSlash path).length ≤ path.length := by
  induction path generalizing prevSlash with
  | nil => exact Nat.le_refl _
  | cons ch path ih =>
      rw [collapseSlashes]
      split
      · split
        · exact (ih true).trans (Nat.le_succ _)
        · exact Nat.succ_le_succ (ih true)
      · exact Nat.succ_le_succ (ih false)

theorem collapseSlashes_idem (prevSlash : Bool) (path : Bytes) :
    collapseSlashes prevSlash (collapseSlashes prevSlash path) = collapseSlashes prevSlash path := by
  induction path generalizing prevSlash with
  | nil => rfl
  | cons ch path ih =>
      rw [collapseSlashes]
      split
      · rename_i hslash
        cases prevSlash with
        | true => exact ih true
        | false =>
            rw [if_neg Bool.false_ne_true, collapseSlashes, if_pos hslash, if_neg Bool.false_ne_true,
              ih true]
      · rename_i hslash
        rw [collapseSlashes, if_neg hslash, ih false]

/-- What is cut off behind leaves a collapsed path collapsed. -/
theorem collapseSlashes_of_starts {prevSlash : Bool} {kept : Bytes}
    (h : collapseSlashes prevSlash path = path) (hkept : kept <+: path) :
    collapseSlashes prevSlash kept = kept := by
  induction kept generalizing prevSlash path with
  | nil => rfl
  | cons ch kept ih =>
      obtain ⟨rest, rfl⟩ := hkept
      rw [List.cons_append, collapseSlashes] at h
      rw [collapseSlashes]
      split at h
      · rename_i hslash
        rw [if_pos hslash]
        split at h
        · have hlength := length_collapseSlashes_le true (kept ++ rest)
          rw [h] at hlength
          exact absurd hlength (Nat.not_succ_le_self _)
        · rename_i hprev
          rw [if_neg hprev, ih (List.cons.inj h).2 ⟨rest, rfl⟩]
      · rename_i hslash
        rw [if_neg hslash, ih (List.cons.inj h).2 ⟨rest, rfl⟩]

theorem mem_collapseSlashes {prevSlash : Bool} {ch : UInt8} (h : ch ∈ collapseSlashes prevSlash path) :
    ch ∈ path := by
  induction path generalizing prevSlash with
  | nil => exact h
  | cons first path ih =>
      rw [collapseSlashes] at h
      repeat' split at h
      · exact List.mem_cons_of_mem _ (ih h)
      · rcases List.mem_cons.mp h with rfl | hrest
        · exact List.mem_cons_self
        · exact List.mem_cons_of_mem _ (ih hrest)
      · rcases List.mem_cons.mp h with rfl | hrest
        · exact List.mem_cons_self
        · exact List.mem_cons_of_mem _ (ih hrest)

theorem popSlashes_starts (path : Bytes) : popSlashes path <+: path := by
  simp only [popSlashes]
  split
  · exact List.take_prefix 1 path
  · exact List.rdropWhile_prefix _ path

theorem popSlashes_idem (path : Bytes) : popSlashes (popSlashes path) = popSlashes path := by
  by_cases hkept : (path.rdropWhile fun ch => ch = slash) = []
  · have hfirst : popSlashes path = path.take 1 := if_pos hkept
    rw [hfirst]
    simp only [popSlashes, List.take_take, Nat.min_self]
    split
    · rfl
    · rename_i hne
      cases path with
      | nil => rfl
      | cons ch path =>
          have hall : ∀ b ∈ ch :: path, decide (b = slash) = true :=
            List.rdropWhile_eq_nil_iff.mp hkept
          have hch := hall ch List.mem_cons_self
          refine absurd ?_ hne
          exact List.rdropWhile_eq_nil_iff.mpr fun b hb => by
            rw [List.take_succ_cons, List.take_zero, List.mem_singleton] at hb
            exact hb ▸ hch
  · have hrest : popSlashes path = path.rdropWhile fun ch => ch = slash := if_neg hkept
    rw [hrest, popSlashes, List.rdropWhile_idempotent, if_neg hkept]

/-- What normalisation makes, it keeps. -/
structure Normal (path : Bytes) : Prop where
  rooted : Rooted path
  slashes : 92 ∉ path
  collapsed : collapseSlashes false path = path
  popped : popSlashes path = path

theorem RouteSchema.Rooted.ne_nil (h : Rooted path) : path ≠ [] := by
  rintro rfl
  exact absurd (List.prefix_nil.mp h) (List.cons_ne_nil _ _)

theorem RouteSchema.Rooted.head? (h : Rooted path) : path.head? = some slash := by
  obtain ⟨rest, rfl⟩ := h
  rfl

theorem Normal.normalize (h : Normal path) : normalizePathPrefix path = some path := by
  have hmap : (path.map fun ch => if ch = 92 then slash else ch) = path := by
    conv_rhs => rw [← List.map_id path]
    exact List.map_congr_left fun ch hch => if_neg fun (heq : ch = 92) => h.slashes (heq ▸ hch)
  rw [normalizePathPrefix, if_neg h.rooted.ne_nil, hmap]
  dsimp only
  rw [if_pos h.rooted.head?, h.collapsed, if_neg h.rooted.ne_nil, h.popped]

theorem normal_of_normalize (h : normalizePathPrefix path = some normalized) : Normal normalized := by
  have hrooted := rooted_of_normalize h
  rw [normalizePathPrefix] at h
  split at h
  · cases h
  dsimp only at h
  generalize hmapped : (path.map fun ch => if ch = 92 then slash else ch) = mapped at h
  generalize hp : (if mapped.head? = some slash then mapped else slash :: mapped) = p at h
  generalize hout : (if collapseSlashes false p = [] then [slash] else collapseSlashes false p) =
    out at h
  cases h
  have hpre := popSlashes_starts out
  have hclean : 92 ∉ out := by
    have hslash : (92 : UInt8) ≠ slash := by decide
    have hmap : 92 ∉ mapped := by
      rw [← hmapped]
      intro hmem
      obtain ⟨ch, -, hch⟩ := List.mem_map.mp hmem
      split at hch
      · exact hslash hch.symm
      · rename_i hne
        exact hne hch
    intro hmem
    rw [← hout] at hmem
    split at hmem
    · exact hslash (List.mem_singleton.mp hmem)
    · have hmem := mem_collapseSlashes hmem
      rw [← hp] at hmem
      split at hmem
      · exact hmap hmem
      · rcases List.mem_cons.mp hmem with heq | hmem
        · exact hslash heq
        · exact hmap hmem
  have hcollapsed : collapseSlashes false out = out := by
    rw [← hout]
    split
    · rfl
    · exact collapseSlashes_idem false p
  exact ⟨hrooted, fun hmem => hclean (hpre.subset hmem),
    collapseSlashes_of_starts hcollapsed hpre, popSlashes_idem out⟩

/-- Both normalisations do the same. -/
theorem normalizePath_eq (path : Bytes) : normalizePath path = normalizePathPrefix path := by
  rw [normalizePath, normalizePathPrefix]
  split
  · rfl
  · dsimp only
    generalize collapseSlashes false _ = out
    have hnil : popSlashes out = [] ↔ out = [] := by
      constructor
      · intro hpop
        by_cases hkept : (out.rdropWhile fun ch => ch = slash) = []
        · have htake : out.take 1 = [] := (if_pos hkept).symm.trans hpop
          simpa using htake
        · exact absurd ((if_neg hkept).symm.trans hpop) hkept
      · rintro rfl
        rfl
    by_cases hout : out = []
    · rw [if_pos (hnil.mpr hout), if_pos hout]
      rfl
    · rw [if_neg fun hpop => hout (hnil.mp hpop), if_neg hout]

/-! ## Candidates -/

/-- The path prefix covers the path by whole components. -/
def Covers (pathPrefix path : Bytes) : Prop :=
  pathPrefix = path ∨ pathPrefix = [slash] ∨ pathPrefix ++ [slash] <+: path

theorem Covers.isPrefix (h : Covers covering path) (hroot : Rooted path) : covering <+: path := by
  rcases h with rfl | rfl | hslash
  · exact List.prefix_rfl
  · exact hroot
  · exact (List.prefix_append covering [slash]).trans hslash

/-- Two path prefixes of one length that cover a path are the same. -/
theorem Covers.eq_of_length {other : Bytes} (h : Covers covering path) (hother : Covers other path)
    (hroot : Rooted path) (hlength : covering.length = other.length) : covering = other :=
  List.prefix_of_prefix_length_le (h.isPrefix hroot) (hother.isPrefix hroot) hlength.le
    |>.eq_of_length hlength

/-- A path is cut in front of its last slash, unless that one is the root. -/
theorem parentPrefix_cases (hroot : Rooted path) (hne : path ≠ [slash]) :
    ∃ kept tail, path = kept ++ slash :: tail ∧ slash ∉ tail ∧
      (kept = [] ∧ parentPrefix path = [slash] ∧ tail ≠ [] ∨
        Rooted kept ∧ parentPrefix path = kept) := by
  have hsplit := @List.rdropWhile_append_rtakeWhile _ (fun ch : UInt8 => decide (ch ≠ slash)) path
  have htail : slash ∉ path.rtakeWhile fun ch => decide (ch ≠ slash) := fun hmem => by
    have hne := List.mem_rtakeWhile_imp hmem
    exact of_decide_eq_true hne rfl
  have hslash : slash ∈ path := hroot.subset (List.mem_singleton.mpr rfl)
  have hkept : (path.rdropWhile fun ch => decide (ch ≠ slash)) ≠ [] := fun hnil => by
    have hne := List.rdropWhile_eq_nil_iff.mp hnil slash hslash
    exact of_decide_eq_true hne rfl
  have hlast : (path.rdropWhile fun ch => decide (ch ≠ slash)).getLast hkept = slash := by
    have hnot := List.rdropWhile_last_not (fun ch : UInt8 => decide (ch ≠ slash)) path hkept
    rwa [decide_eq_true_eq, not_not] at hnot
  have hparts := List.dropLast_append_getLast hkept
  rw [hlast] at hparts
  generalize hbefore : (path.rdropWhile fun ch => decide (ch ≠ slash)).dropLast = before at hparts
  generalize (path.rtakeWhile fun ch => decide (ch ≠ slash)) = tail at hsplit htail
  have hpath : path = before ++ slash :: tail := by
    rw [← hsplit, ← hparts, List.append_assoc, List.singleton_append]
  refine ⟨before, tail, hpath, htail, ?_⟩
  have hparent : parentPrefix path =
      if (before ++ [slash]).length ≤ 1 then [slash] else (before ++ [slash]).dropLast := by
    rw [hparts]
    rfl
  rw [List.dropLast_concat, List.length_append, List.length_singleton] at hparent
  cases before with
  | nil =>
      refine .inl ⟨rfl, hparent, fun hnil => hne ?_⟩
      rw [hpath, hnil]
      rfl
  | cons first before =>
      refine .inr ⟨?_, by simpa using hparent⟩
      rw [hpath] at hroot
      obtain ⟨rest, hrest⟩ := hroot
      exact ⟨before, by rw [(List.cons.inj hrest).1]; rfl⟩

theorem parentPrefix_shorter (hroot : Rooted path) (hne : path ≠ [slash]) :
    Rooted (parentPrefix path) ∧ (parentPrefix path).length < path.length := by
  obtain ⟨kept, tail, hpath, -, ⟨rfl, hparent, htail⟩ | ⟨hkept, hparent⟩⟩ :=
    parentPrefix_cases hroot hne
  · rw [hparent, hpath]
    exact ⟨List.prefix_rfl, Nat.succ_lt_succ (List.length_pos_iff.mpr htail)⟩
  · rw [hparent, hpath, List.length_append]
    exact ⟨hkept, Nat.lt_add_of_pos_right (Nat.succ_pos _)⟩

/-- What covers a path is the path or covers its parent. -/
theorem covers_parentPrefix (hroot : Rooted path) (hne : path ≠ [slash]) (hcovering : Rooted covering) :
    Covers covering path ↔ covering = path ∨ Covers covering (parentPrefix path) := by
  obtain ⟨kept, tail, hpath, htail, hparent⟩ := parentPrefix_cases hroot hne
  -- a slash in front of the tail ends the prefix itself or stands before it
  have hinner : covering ++ [slash] <+: path ↔ covering = kept ∨ covering ++ [slash] <+: kept := by
    rw [hpath]
    constructor
    · intro h
      have hwhole : kept ++ [slash] <+: kept ++ slash :: tail := ⟨tail, by simp⟩
      rcases List.prefix_or_prefix_of_prefix h hwhole with hshort | ⟨rest, hlong⟩
      · rcases List.prefix_concat_iff.mp hshort with heq | hbefore
        · exact .inl (List.append_inj_left' heq rfl)
        · exact .inr hbefore
      · rcases List.eq_nil_or_concat' rest with rfl | ⟨init, last, rfl⟩
        · rw [List.append_nil] at hlong
          exact .inl (List.append_inj_left' hlong rfl).symm
        · have hends : (kept ++ [slash]) ++ init ++ [last] = covering ++ [slash] := by
            rw [List.append_assoc]
            exact hlong
          obtain rfl : last = slash := List.singleton_inj.mp (List.append_inj_right' hends rfl)
          rw [← hlong, List.append_assoc, List.prefix_append_right_inj, List.singleton_append,
            List.cons_prefix_cons] at h
          exact absurd (h.2.subset (List.mem_append_right _ (List.mem_singleton.mpr rfl))) htail
    · rintro (rfl | hbefore)
      · exact ⟨tail, by simp⟩
      · exact hbefore.trans (List.prefix_append _ _)
  rw [Covers, Covers, hinner]
  rcases hparent with ⟨rfl, hroot', -⟩ | ⟨-, hkept⟩
  · rw [hroot']
    constructor
    · rintro (heq | heq | heq | hnil)
      · exact .inl heq
      · exact .inr (.inr (.inl heq))
      · exact absurd heq hcovering.ne_nil
      · exact absurd (List.prefix_nil.mp hnil) (by simp)
    · rintro (heq | heq | heq | hslash)
      · exact .inl heq
      · exact .inr (.inl heq)
      · exact .inr (.inl heq)
      · have hlength := hslash.length_le
        rw [List.length_append, List.length_singleton] at hlength
        exact absurd (List.length_pos_iff.mpr hcovering.ne_nil) (by omega)
  · rw [hkept]
    constructor
    · rintro (heq | heq | heq | hbefore)
      · exact .inl heq
      · exact .inr (.inr (.inl heq))
      · exact .inr (.inl heq)
      · exact .inr (.inr (.inr hbefore))
    · rintro (heq | heq | heq | hbefore)
      · exact .inl heq
      · exact .inr (.inr (.inl heq))
      · exact .inr (.inl heq)
      · exact .inr (.inr (.inr hbefore))

theorem mem_candidatesFrom (hroot : Rooted path) (hrounds : path.length ≤ rounds)
    (hcovering : Rooted covering) : covering ∈ candidatesFrom rounds path ↔ Covers covering path := by
  induction rounds generalizing path with
  | zero => exact absurd (List.length_pos_iff.mpr hroot.ne_nil) (Nat.not_lt_of_le hrounds)
  | succ rounds ih =>
      rw [candidatesFrom]
      split
      · rename_i heq
        rw [heq, List.mem_singleton, Covers]
        constructor
        · exact .inl
        · rintro (heq | heq | hslash)
          · exact heq
          · exact heq
          · have hlength := hslash.length_le
            rw [List.length_append] at hlength
            exact absurd (List.length_pos_iff.mpr hcovering.ne_nil)
              (Nat.not_lt_of_le (Nat.le_of_succ_le_succ hlength))
      · rename_i hne
        obtain ⟨hparent, hshorter⟩ := parentPrefix_shorter hroot hne
        have hparentRounds : (parentPrefix path).length ≤ rounds :=
          Nat.le_of_lt_succ (Nat.lt_of_lt_of_le hshorter hrounds)
        rw [List.mem_cons, ih hparent hparentRounds, covers_parentPrefix hroot hne hcovering]

theorem rooted_candidatesFrom (hroot : Rooted path) :
    ∀ candidate ∈ candidatesFrom rounds path, Rooted candidate := by
  induction rounds generalizing path with
  | zero => exact fun _ hmem => nomatch hmem
  | succ rounds ih =>
      rw [candidatesFrom]
      split
      · intro candidate hmem
        rwa [List.mem_singleton.mp hmem]
      · rename_i hne
        intro candidate hmem
        rcases List.mem_cons.mp hmem with rfl | hmem
        · exact hroot
        · exact ih (parentPrefix_shorter hroot hne).1 candidate hmem

/-- The candidates become shorter. -/
theorem candidatesFrom_shorter (hroot : Rooted path) :
    (∀ candidate ∈ candidatesFrom rounds path, candidate.length ≤ path.length) ∧
      (candidatesFrom rounds path).Pairwise fun a b => b.length < a.length := by
  induction rounds generalizing path with
  | zero => exact ⟨fun _ hmem => (nomatch hmem), .nil⟩
  | succ rounds ih =>
      rw [candidatesFrom]
      split
      · rename_i heq
        refine ⟨fun candidate hmem => ?_, List.pairwise_singleton _ _⟩
        rw [List.mem_singleton.mp hmem]
      · rename_i hne
        obtain ⟨hparent, hshorter⟩ := parentPrefix_shorter hroot hne
        obtain ⟨hlength, hpairwise⟩ := ih hparent
        have hlater : ∀ candidate ∈ candidatesFrom rounds (parentPrefix path),
            candidate.length < path.length := fun candidate hmem =>
          Nat.lt_of_le_of_lt (hlength candidate hmem) hshorter
        refine ⟨fun candidate hmem => ?_, List.pairwise_cons.mpr ⟨hlater, hpairwise⟩⟩
        rcases List.mem_cons.mp hmem with rfl | hmem
        · exact Nat.le_refl _
        · exact (hlater candidate hmem).le

/-! ## Payloads -/

/-- Generation and manifest are named, without tabs. -/
structure ArchiveNamespaceRoute.Tidy (route : ArchiveNamespaceRoute) : Prop where
  generationNamed : route.generationId ≠ []
  generationUntabbed : tab ∉ route.generationId
  manifestNamed : route.manifestPath ≠ []
  manifestUntabbed : tab ∉ route.manifestPath

def ArchiveNamespaceRoute.Untabbed (route : ArchiveNamespaceRoute) : Prop :=
  tab ∉ route.namespaceId ∧ tab ∉ route.pathPrefix

variable {route : ArchiveNamespaceRoute}

theorem tab_notMem_decimal (n : Nat) : tab ∉ decimal n := notMem_decimal (by decide) n

theorem decodeRoute_encodeRoute (htidy : route.Tidy) (huntabbed : route.Untabbed)
    (hpre : route.pathPrefix ≠ []) :
    decodeRoute (archiveSchema.encodeRoute route) = some route := by
  have hclean : ∀ field ∈ [route.namespaceId, route.pathPrefix, route.generationId,
      route.manifestPath, decimal route.inodeMin.toNat, decimal route.inodeMax.toNat,
      decimal route.inodeCount.toNat], tab ∉ field := by
    simp only [List.forall_mem_cons, tab_notMem_decimal, not_false_eq_true, true_and]
    exact ⟨huntabbed.1, huntabbed.2, htidy.generationUntabbed, htidy.manifestUntabbed,
      fun _ hmem => nomatch hmem⟩
  have hlast : ∀ field ∈ [route.namespaceId, route.pathPrefix, route.generationId,
      route.manifestPath, decimal route.inodeMin.toNat, decimal route.inodeMax.toNat,
      decimal route.inodeCount.toNat].getLast?, field ≠ [] := by
    intro field hfield
    cases hfield
    exact decimal_ne_nil _
  have hfields := getLines_intercalate hclean hlast
  have hencode : archiveSchema.encodeRoute route = [tab].intercalate [route.namespaceId,
      route.pathPrefix, route.generationId, route.manifestPath, decimal route.inodeMin.toNat,
      decimal route.inodeMax.toNat, decimal route.inodeCount.toNat] := rfl
  rw [decodeRoute, hencode, hfields]
  dsimp only
  rw [stoull_decimal, stoull_decimal, stoull_decimal]
  exact if_neg hpre

/-- A tab too many, and the route is not read back. -/
theorem decodeRoute_tabbed (htabbed : ¬route.Untabbed) :
    decodeRoute (archiveSchema.encodeRoute route) = none := by
  have hcount : (archiveSchema.encodeRoute route).count tab ≥ 7 := by
    have hsome : 0 < route.namespaceId.count tab + route.pathPrefix.count tab := by
      by_contra hzero
      refine htabbed ⟨?_, ?_⟩
      · exact List.count_eq_zero.mp (by omega)
      · exact List.count_eq_zero.mp (by omega)
    simp only [archiveSchema, tabbed, List.intercalate_cons_cons, List.intercalate_singleton,
      List.count_append]
    have htab : [(9 : UInt8)].count tab = 1 := rfl
    rw [htab]
    omega
  have hend : archiveSchema.encodeRoute route ≠ [] ∧
      (archiveSchema.encodeRoute route).getLast? ≠ some tab := by
    have hsplit : ∃ front, archiveSchema.encodeRoute route =
        front ++ decimal route.inodeCount.toNat := by
      refine ⟨tabbed [route.namespaceId, route.pathPrefix, route.generationId, route.manifestPath,
        decimal route.inodeMin.toNat, decimal route.inodeMax.toNat, []], ?_⟩
      simp [archiveSchema, tabbed]
    obtain ⟨front, hfront⟩ := hsplit
    have hne := decimal_ne_nil route.inodeCount.toNat
    refine ⟨by simp [hfront, hne], fun hlast => ?_⟩
    rw [hfront, List.getLast?_append_of_ne_nil _ hne] at hlast
    exact tab_notMem_decimal _ (List.mem_of_getLast? hlast)
  have hlength := length_getLines hend.1 hend.2 []
  rw [decodeRoute]
  split
  · rename_i hfields
    rw [hfields] at hlength
    simp only [List.length_cons, List.length_nil] at hlength
    omega
  · rename_i hfields
    rw [hfields] at hlength
    simp only [List.length_cons, List.length_nil] at hlength
    omega
  · rfl

theorem decodeCurrentRoute_encode (htidy : route.Tidy) :
    decodeCurrentRoute (archiveSchema.encodeCurrentRoute route) =
      some (route.generationId, route.manifestPath) := by
  have hclean : ∀ field ∈ [route.generationId, route.manifestPath], tab ∉ field := by
    simp only [List.forall_mem_cons]
    exact ⟨htidy.generationUntabbed, htidy.manifestUntabbed, fun _ hmem => nomatch hmem⟩
  have hlast : ∀ field ∈ [route.generationId, route.manifestPath].getLast?, field ≠ [] := by
    intro field hfield
    cases hfield
    exact htidy.manifestNamed
  have hfields := getLines_intercalate hclean hlast
  have hencode : archiveSchema.encodeCurrentRoute route =
      [tab].intercalate [route.generationId, route.manifestPath] := rfl
  rw [decodeCurrentRoute, hencode, hfields]
  exact if_neg htidy.generationNamed

/-! ## Registered routes -/

inductive NamespaceCall
  | put (route : ArchiveNamespaceRoute) (bucketIds : List UInt64) (faults : Faults)
  | delete (pathPrefix : Bytes) (faults : Faults)
  | setCurrent (route : ArchiveNamespaceRoute) (written : Option Bytes)

/-- The store, with the route that was stored last for each path prefix. -/
structure NamespaceTable where
  db : RawStore
  stored : Bytes → Option ArchiveNamespaceRoute := fun _ => none

def NamespaceTable.serve (table : NamespaceTable) : NamespaceCall → NamespaceTable
  | .put route bucketIds faults =>
      match normalizePathPrefix route.pathPrefix,
        archiveSchema.putRoute table.db faults route bucketIds with
      | some path, (.ok _, db) =>
          ⟨db, Function.update table.stored path (some { route with pathPrefix := path })⟩
      | _, (_, db) => { table with db := db }
  | .delete pathPrefix faults =>
      match normalizePathPrefix pathPrefix, archiveSchema.deleteRoute table.db faults pathPrefix with
      | some path, (.ok _, db) => ⟨db, Function.update table.stored path none⟩
      | _, (_, db) => { table with db := db }
  | .setCurrent route written =>
      match normalizePathPrefix route.pathPrefix, setCurrentRoute table.db written route with
      | some path, (.ok _, db) =>
          ⟨db, Function.update table.stored path ((table.stored path).map fun old =>
            { old with generationId := route.generationId, manifestPath := route.manifestPath })⟩
      | _, (_, db) => { table with db := db }

def NamespaceCall.Tidy : NamespaceCall → Prop
  | .put route _ _ => route.Tidy
  | .delete _ _ => True
  | .setCurrent route _ => route.Tidy

/-- What routes can be registered. -/
inductive Registered : NamespaceTable → Prop
  | unused {db : RawStore} : Unused archiveSchema db → Registered ⟨db, fun _ => none⟩
  | serve {table : NamespaceTable} {call : NamespaceCall} :
      Registered table → call.Tidy → Registered (table.serve call)

/-- The route has its payload, with a generation that may be an older one, and the
    payload of its current generation. -/
structure Filed (db : RawStore) (path : Bytes) (route : ArchiveNamespaceRoute) : Prop where
  normal : Normal path
  named : route.pathPrefix = path
  tidy : route.Tidy
  payload : ∃ generationId manifestPath,
    ({ route with generationId, manifestPath } : ArchiveNamespaceRoute).Tidy ∧
      db.lookup (archiveSchema.routeKey path) =
        some (archiveSchema.encodeRoute { route with generationId, manifestPath })
  current : db.lookup (archiveSchema.currentKey path) = some (archiveSchema.encodeCurrentRoute route)

structure NamespaceTable.Kept (table : NamespaceTable) : Prop where
  filed : ∀ path route, table.stored path = some route → Filed table.db path route
  absent : ∀ path, Rooted path → table.stored path = none →
    table.db.lookup (archiveSchema.routeKey path) = none

variable {table : NamespaceTable} {db db' : RawStore} {call : NamespaceCall} {other : Bytes}

/-- The entries of a path prefix in the route table. -/
def SameRoute (db db' : RawStore) (path : Bytes) : Prop :=
  db'.lookup (archiveSchema.routeKey path) = db.lookup (archiveSchema.routeKey path) ∧
    db'.lookup (archiveSchema.currentKey path) = db.lookup (archiveSchema.currentKey path)

theorem Filed.same (h : Filed db path route) (hsame : SameRoute db db' path) :
    Filed db' path route where
  normal := h.normal
  named := h.named
  tidy := h.tidy
  payload := by
    rw [hsame.1]
    exact h.payload
  current := hsame.2.trans h.current

/-- A call that leaves the entries of the other path prefixes keeps the table. -/
theorem NamespaceTable.Kept.update (h : table.Kept) {stored : Option ArchiveNamespaceRoute}
    (hothers : ∀ other, Rooted other → other ≠ path → SameRoute table.db db' other)
    (hfiled : ∀ route, stored = some route → Filed db' path route)
    (habsent : stored = none → db'.lookup (archiveSchema.routeKey path) = none) :
    NamespaceTable.Kept ⟨db', Function.update table.stored path stored⟩ where
  filed := by
    intro other route hstored
    dsimp only at hstored ⊢
    by_cases hsame : other = path
    · subst hsame
      exact hfiled route (by rwa [Function.update_self] at hstored)
    · rw [Function.update_of_ne hsame] at hstored
      have hold := h.filed other route hstored
      exact hold.same (hothers other hold.normal.rooted hsame)
  absent := by
    intro other hroot hstored
    dsimp only at hstored ⊢
    by_cases hsame : other = path
    · subst hsame
      exact habsent (by rwa [Function.update_self] at hstored)
    · rw [Function.update_of_ne hsame] at hstored
      rw [(hothers other hroot hsame).1]
      exact h.absent other hroot hstored

/-- Index keys are no route keys. -/
theorem deleted_not_route (hroot : Rooted path) (hother : Rooted other) :
    archiveSchema.routeKey other ∉ archiveSchema.deleteRouteSecondaryIndexes db path ∧
      archiveSchema.currentKey other ∉ archiveSchema.deleteRouteSecondaryIndexes db path := by
  have hindex : ∀ key ∈ archiveSchema.deleteRouteSecondaryIndexes db path,
      archiveSchema.reverseTag ++ [slash] <+: key ∨ archiveSchema.bucketTag <+: key := by
    intro key hmem
    obtain ⟨found, hfound, hkey⟩ := List.mem_flatMap.mp hmem
    rcases List.mem_cons.mp hkey with rfl | hkey
    · exact .inl (((hroot.tagged archiveSchema.reverseTag).trans ⟨[slash], rfl⟩).trans
        (mem_scan.mp hfound).2)
    · rw [List.mem_singleton.mp hkey, List.append_assoc]
      exact .inr (List.prefix_append _ _)
  have htags := tags_apart archiveSchema
  constructor
  · intro hmem
    rcases hindex _ hmem with hreverse | hbucket
    · exact ne_of_apart htags.2.1 (hother.tagged _) hreverse rfl
    · exact ne_of_apart htags.1 (hother.tagged _) hbucket rfl
  · intro hmem
    rcases hindex _ hmem with hreverse | hbucket
    · exact ne_of_apart htags.2.2.2.2.1 (hother.tagged _) hreverse rfl
    · exact ne_of_apart htags.2.2.2.1 (hother.tagged _) hbucket rfl

theorem routeKey_inj {a b : Bytes} (h : archiveSchema.routeKey a = archiveSchema.routeKey b) : a = b :=
  List.append_cancel_left h

theorem currentKey_inj {a b : Bytes} (h : archiveSchema.currentKey a = archiveSchema.currentKey b) :
    a = b :=
  List.append_cancel_left h

/-- The keys of other path prefixes are not written. -/
theorem items_not_route (hroot : Rooted path) (hother : Rooted other) (hne : other ≠ path)
    (bucketIds : List UInt64) :
    ∀ item ∈ archiveSchema.routeItems route path bucketIds,
      item.1 ≠ archiveSchema.routeKey other ∧ item.1 ≠ archiveSchema.currentKey other := by
  intro item hitem
  rcases mem_routeItems.mp ⟨item, hitem, rfl⟩ with hkey | hkey | ⟨bucketId, -, hkey | hkey⟩
  · rw [hkey]
    exact ⟨fun heq => hne (routeKey_inj heq).symm, (hother.currentKey_ne_routeKey hroot).symm⟩
  · rw [hkey]
    exact ⟨hroot.currentKey_ne_routeKey hother, fun heq => hne (currentKey_inj heq).symm⟩
  · rw [hkey]
    exact ⟨(hother.routeKey_ne_bucketKey _ _).symm, (hother.currentKey_ne_bucketKey _ _).symm⟩
  · rw [hkey]
    exact ⟨(hother.routeKey_ne_reverseKey hroot _).symm,
      (hother.currentKey_ne_reverseKey hroot _).symm⟩

theorem kept_put (h : table.Kept) (htidy : route.Tidy) (bucketIds : List UInt64)
    (faults : Faults) : (table.serve (.put route bucketIds faults)).Kept := by
  simp only [NamespaceTable.serve, putRoute]
  have hpath : archiveSchema.pathPrefix route = route.pathPrefix := rfl
  rw [hpath]
  cases hnormalized : normalizePathPrefix route.pathPrefix with
  | none => exact h
  | some path =>
      have hnormal := normal_of_normalize hnormalized
      simp only [writeRoute]
      cases hiterator : faults.iterator with
      | some error => exact h
      | none =>
          cases hwrite : faults.write with
          | some error => exact h
          | none =>
              refine h.update ?_ ?_ fun hnone => absurd hnone (Option.some_ne_none _)
              · intro other hroot hne
                have hitems := @items_not_route _ route _ hnormal.rooted hroot hne bucketIds
                have hdeleted := @deleted_not_route _ table.db _ hnormal.rooted hroot
                rw [SameRoute, writeBatch_append, lookup_puts_of_ne fun item hitem =>
                  (hitems item hitem).1, lookup_puts_of_ne fun item hitem => (hitems item hitem).2,
                  lookup_deletes, lookup_deletes, if_neg hdeleted.1, if_neg hdeleted.2]
                exact ⟨rfl, rfl⟩
              · intro stored hstored
                cases hstored
                have hroot := hnormal.rooted
                have hindex : ∀ item ∈ bucketIds.flatMap fun bucketId =>
                    [(archiveSchema.bucketKey bucketId path,
                      archiveSchema.encodeRoute (archiveSchema.withPathPrefix route path)),
                      (archiveSchema.reverseKey path bucketId, [])],
                    item.1 ≠ archiveSchema.routeKey path ∧ item.1 ≠ archiveSchema.currentKey path := by
                  intro item hitem
                  obtain ⟨bucketId, -, hpair⟩ := List.mem_flatMap.mp hitem
                  rcases List.mem_cons.mp hpair with rfl | hpair
                  · exact ⟨(hroot.routeKey_ne_bucketKey _ _).symm,
                      (hroot.currentKey_ne_bucketKey _ _).symm⟩
                  · rw [List.mem_singleton.mp hpair]
                    exact ⟨(hroot.routeKey_ne_reverseKey hroot _).symm,
                      (hroot.currentKey_ne_reverseKey hroot _).symm⟩
                refine ⟨hnormal, rfl, ⟨htidy.1, htidy.2, htidy.3, htidy.4⟩,
                  ⟨route.generationId, route.manifestPath, ⟨htidy.1, htidy.2, htidy.3, htidy.4⟩, ?_⟩, ?_⟩
                · rw [writeBatch_append]
                  refine @lookup_puts_cons _ _ _ _ (archiveSchema.routeKey path,
                    archiveSchema.encodeRoute (archiveSchema.withPathPrefix route path)) _
                    fun item hitem => ?_
                  rcases List.mem_cons.mp hitem with rfl | hitem
                  · exact hroot.currentKey_ne_routeKey hroot
                  · exact (hindex item hitem).1
                · rw [writeBatch_append]
                  exact @lookup_puts_cons _ _ _ _ (archiveSchema.currentKey path,
                    archiveSchema.encodeCurrentRoute (archiveSchema.withPathPrefix route path)) _
                    fun item hitem => (hindex item hitem).2

theorem kept_delete (h : table.Kept) (pathPrefix : Bytes) (faults : Faults) :
    (table.serve (.delete pathPrefix faults)).Kept := by
  simp only [NamespaceTable.serve, deleteRoute]
  cases hnormalized : normalizePathPrefix pathPrefix with
  | none => exact h
  | some path =>
      have hnormal := normal_of_normalize hnormalized
      simp only [writeRoute]
      cases hiterator : faults.iterator with
      | some error => exact h
      | none =>
          cases hwrite : faults.write with
          | some error => exact h
          | none =>
              refine h.update ?_ (fun _ hsome => absurd hsome.symm (Option.some_ne_none _)) ?_
              · intro other hroot hne
                have hdeleted := @deleted_not_route _ table.db _ hnormal.rooted hroot
                have hroute : archiveSchema.routeKey other ∉
                    [archiveSchema.routeKey path, archiveSchema.currentKey path] := fun hmem => by
                  rcases List.mem_cons.mp hmem with heq | hmem
                  · exact hne (routeKey_inj heq)
                  · exact hnormal.rooted.currentKey_ne_routeKey hroot (List.mem_singleton.mp hmem).symm
                have hcurrent : archiveSchema.currentKey other ∉
                    [archiveSchema.routeKey path, archiveSchema.currentKey path] := fun hmem => by
                  rcases List.mem_cons.mp hmem with heq | hmem
                  · exact hroot.currentKey_ne_routeKey hnormal.rooted heq
                  · exact hne (currentKey_inj (List.mem_singleton.mp hmem))
                rw [SameRoute, lookup_deletes, lookup_deletes,
                  if_neg fun hmem => (List.mem_append.mp hmem).elim hdeleted.1 hroute,
                  if_neg fun hmem => (List.mem_append.mp hmem).elim hdeleted.2 hcurrent]
                exact ⟨rfl, rfl⟩
              · intro _
                rw [lookup_deletes, if_pos]
                exact List.mem_append_right _ List.mem_cons_self

theorem kept_setCurrent (h : table.Kept) (htidy : route.Tidy) (written : Option Bytes) :
    (table.serve (.setCurrent route written)).Kept := by
  simp only [NamespaceTable.serve, setCurrentRoute]
  cases hnormalized : normalizePathPrefix route.pathPrefix with
  | none => exact h
  | some path =>
      have hnormal := normal_of_normalize hnormalized
      dsimp only
      rw [if_neg htidy.generationNamed]
      cases written with
      | some error => exact h
      | none =>
          have hroute : ∀ other, Rooted other → (table.db.insert (archiveSchema.currentKey path)
              (archiveSchema.encodeCurrentRoute { route with pathPrefix := path })).lookup
                (archiveSchema.routeKey other) =
              table.db.lookup (archiveSchema.routeKey other) := fun other hroot =>
            AList.lookup_insert_ne (hnormal.rooted.currentKey_ne_routeKey hroot).symm
          refine h.update ?_ ?_ ?_
          · intro other hroot hne
            exact ⟨hroute other hroot, AList.lookup_insert_ne fun heq => hne (currentKey_inj heq)⟩
          · intro stored hstored
            obtain ⟨old, hold, rfl⟩ := Option.map_eq_some_iff.mp hstored
            have hfiled := h.filed path old hold
            obtain ⟨generationId, manifestPath, holdTidy, hpayload⟩ := hfiled.payload
            refine ⟨hnormal, hfiled.named, ⟨htidy.1, htidy.2, htidy.3, htidy.4⟩,
              ⟨generationId, manifestPath, holdTidy, ?_⟩, AList.lookup_insert _⟩
            rw [hroute path hnormal.rooted]
            exact hpayload
          · intro hnone
            rw [hroute path hnormal.rooted]
            exact h.absent path hnormal.rooted (Option.map_eq_none_iff.mp hnone)

theorem kept_of_registered (h : Registered table) : table.Kept := by
  induction h with
  | @unused db hunused =>
      refine ⟨nofun, fun path hroot _ => ?_⟩
      rw [AList.lookup_eq_none]
      exact fun hmem => (hunused _ hmem).1 (hroot.tagged _)
  | @serve table call _ htidy ih =>
      cases call with
      | put route bucketIds faults => exact kept_put ih htidy bucketIds faults
      | delete pathPrefix faults => exact kept_delete ih pathPrefix faults
      | setCurrent route written => exact kept_setCurrent ih htidy written

/-! ## Lookups -/

/-- The longest of the registered path prefixes that cover the path. -/
structure NamespaceTable.Longest (table : NamespaceTable) (normalized : Bytes)
    (route : ArchiveNamespaceRoute) : Prop where
  isStored : table.stored route.pathPrefix = some route
  covers : Covers route.pathPrefix normalized
  longest : ∀ other route', table.stored other = some route' → Covers other normalized →
    other.length ≤ route.pathPrefix.length

/-- The remainder of the path behind the path prefix. -/
def Remainder (pathPrefix normalized rest : Bytes) : Prop :=
  if pathPrefix = normalized then rest = [slash] else pathPrefix ++ rest = normalized

/-- The lookup of a path finds the longest route, as it was stored last, and the rest of
    the path behind it, or there is no route. -/
def LookupAgrees (table : NamespaceTable) (path normalized : Bytes) : Prop :=
  (∃ route, table.Longest normalized route ∧ lookupByPath table.db path = .ok (some route) ∧
    ∃ rest, stripRoutePrefix route.pathPrefix path = .ok rest ∧
      Remainder route.pathPrefix normalized rest) ∨
  (∀ pathPrefix route, table.stored pathPrefix = some route → ¬Covers pathPrefix normalized) ∧
    lookupByPath table.db path = .ok none

/-- The route has no tab in its namespace and path prefix, and it is the route of the
    root for the root only. -/
def Strippable (table : NamespaceTable) (normalized : Bytes) : Prop :=
  ∀ route, table.Longest normalized route →
    route.Untabbed ∧ (route.pathPrefix = [slash] → normalized = [slash])

theorem NamespaceTable.Longest.unique {a b : ArchiveNamespaceRoute} (ha : table.Longest normalized a)
    (hb : table.Longest normalized b) (hroot : Rooted normalized) : a = b := by
  have hlength := Nat.le_antisymm (hb.longest _ _ ha.isStored ha.covers)
    (ha.longest _ _ hb.isStored hb.covers)
  have hsame := ha.covers.eq_of_length hb.covers hroot hlength
  exact Option.some.inj (ha.isStored.symm.trans (hsame ▸ hb.isStored))

/-- The payload of a stored route is read back, if it can be. -/
theorem Filed.lookup (h : Filed db path route) (candidates : List Bytes) :
    lookupCandidates db (path :: candidates) =
      if tab ∉ route.namespaceId ∧ tab ∉ route.pathPrefix then .ok (some route)
      else .error "invalid archive namespace route payload" := by
  obtain rfl := h.named
  obtain ⟨generationId, manifestPath, htidy, hpayload⟩ := h.payload
  have hpre : route.pathPrefix ≠ [] := h.normal.rooted.ne_nil
  rw [lookupCandidates, hpayload]
  dsimp only
  by_cases huntabbed : tab ∉ route.namespaceId ∧ tab ∉ route.pathPrefix
  · have hdecode := decodeRoute_encodeRoute htidy huntabbed hpre
    rw [if_pos huntabbed, hdecode]
    dsimp only
    rw [applyCurrentRoute]
    dsimp only
    rw [h.current]
    dsimp only
    rw [decodeCurrentRoute_encode h.tidy]
    rfl
  · have hdecode := @decodeRoute_tabbed { route with generationId, manifestPath } huntabbed
    rw [if_neg huntabbed, hdecode]

/-- The first candidate that is stored answers the lookup. -/
theorem NamespaceTable.Kept.lookupCandidates (h : table.Kept) (candidates : List Bytes)
    (hroot : ∀ candidate ∈ candidates, Rooted candidate) :
    (∃ front candidate back route, candidates = front ++ candidate :: back ∧
        (∀ other ∈ front, table.stored other = none) ∧ table.stored candidate = some route ∧
        Zb.Mds.lookupCandidates table.db candidates =
          if tab ∉ route.namespaceId ∧ tab ∉ route.pathPrefix then .ok (some route)
          else .error "invalid archive namespace route payload") ∨
      (∀ other ∈ candidates, table.stored other = none) ∧
        Zb.Mds.lookupCandidates table.db candidates = .ok none := by
  induction candidates with
  | nil => exact .inr ⟨fun _ hmem => (nomatch hmem), rfl⟩
  | cons candidate candidates ih =>
      cases hstored : table.stored candidate with
      | some route =>
          exact .inl ⟨[], candidate, candidates, route, rfl, fun _ hmem => (nomatch hmem), hstored,
            (h.filed candidate route hstored).lookup candidates⟩
      | none =>
          have habsent := h.absent candidate (hroot candidate List.mem_cons_self) hstored
          have hskip : Zb.Mds.lookupCandidates table.db (candidate :: candidates) =
              Zb.Mds.lookupCandidates table.db candidates := by
            rw [Zb.Mds.lookupCandidates, habsent]
          rw [hskip]
          rcases ih fun other hmem => hroot other (List.mem_cons_of_mem _ hmem) with
            ⟨front, found, back, route, rfl, hfront, hfound, hanswer⟩ | ⟨hnone, hanswer⟩
          · refine .inl ⟨candidate :: front, found, back, route, rfl, fun other hmem => ?_, hfound,
              hanswer⟩
            rcases List.mem_cons.mp hmem with rfl | hmem
            · exact hstored
            · exact hfront other hmem
          · refine .inr ⟨fun other hmem => ?_, hanswer⟩
            rcases List.mem_cons.mp hmem with rfl | hmem
            · exact hstored
            · exact hnone other hmem

/-- What a lookup answers: the longest route, an error if its payload has a tab too many,
    or no route. -/
theorem NamespaceTable.Kept.lookupByPath (h : table.Kept)
    (hnormalized : normalizePathPrefix path = some normalized) :
    (∃ route, table.Longest normalized route ∧ Zb.Mds.lookupByPath table.db path =
        if tab ∉ route.namespaceId ∧ tab ∉ route.pathPrefix then .ok (some route)
        else .error "invalid archive namespace route payload") ∨
      (∀ pathPrefix route, table.stored pathPrefix = some route → ¬Covers pathPrefix normalized) ∧
        Zb.Mds.lookupByPath table.db path = .ok none := by
  have hroot := (normal_of_normalize hnormalized).rooted
  have hcandidates : buildPrefixCandidates normalized =
      candidatesFrom normalized.length normalized := if_pos hroot.head?
  have hmem : ∀ other route, table.stored other = some route → Covers other normalized →
      other ∈ buildPrefixCandidates normalized := fun other route hstored hcovers => by
    rw [hcandidates, mem_candidatesFrom hroot (Nat.le_refl _)
      (h.filed other route hstored).normal.rooted]
    exact hcovers
  have hrooted : ∀ candidate ∈ buildPrefixCandidates normalized, Rooted candidate := by
    rw [hcandidates]
    exact rooted_candidatesFrom hroot
  rw [Zb.Mds.lookupByPath, hnormalized]
  dsimp only
  rcases h.lookupCandidates (buildPrefixCandidates normalized) hrooted with
    ⟨front, candidate, back, route, hsplit, hfront, hstored, hanswer⟩ | ⟨hnone, hanswer⟩
  · refine .inl ⟨route, ?_, hanswer⟩
    have hfiled := h.filed candidate route hstored
    obtain rfl := hfiled.named
    have hin : route.pathPrefix ∈ buildPrefixCandidates normalized := by
      rw [hsplit]
      exact List.mem_append_right _ List.mem_cons_self
    rw [hcandidates] at hin
    refine ⟨hstored, (mem_candidatesFrom hroot (Nat.le_refl _) hfiled.normal.rooted).mp hin,
      fun other route' hother hcovers => ?_⟩
    have hpairwise := (@candidatesFrom_shorter normalized normalized.length hroot).2
    rw [← hcandidates, hsplit, List.pairwise_append] at hpairwise
    have hplace := hmem other route' hother hcovers
    rw [hsplit] at hplace
    rcases List.mem_append.mp hplace with hearly | hlate
    · rw [hfront other hearly] at hother
      exact nomatch hother
    · rcases List.mem_cons.mp hlate with rfl | hback
      · exact Nat.le_refl _
      · exact ((List.pairwise_cons.mp hpairwise.2.1).1 other hback).le
  · refine .inr ⟨fun other route hstored hcovers => ?_, hanswer⟩
    rw [hnone other (hmem other route hstored hcovers)] at hstored
    exact nomatch hstored

theorem Normal.not_double (h : Normal path) : ¬[slash, slash] <+: path := fun hpre =>
  absurd (collapseSlashes_of_starts h.collapsed hpre) (by decide)

/-- The route of a path is stripped off, unless it is the route of the root. -/
theorem stripRoutePrefix_covers (hnormalized : normalizePathPrefix path = some normalized)
    (hroute : Normal covering) (hcovers : Covers covering normalized) :
    (∃ rest, stripRoutePrefix covering path = .ok rest ∧ Remainder covering normalized rest) ↔
      (covering = [slash] → normalized = [slash]) := by
  have hnormal := normal_of_normalize hnormalized
  rw [stripRoutePrefix, normalizePath_eq, normalizePath_eq, hroute.normalize, hnormalized]
  dsimp only
  by_cases hsame : normalized = covering
  · rw [if_pos hsame]
    refine ⟨fun _ hslash => hsame.trans hslash, fun _ => ⟨[slash], rfl, ?_⟩⟩
    rw [Remainder, if_pos hsame.symm]
  · rw [if_neg hsame]
    have hne : covering ≠ normalized := fun heq => hsame heq.symm
    rcases hcovers with heq | hslash | hbelow
    · exact absurd heq hne
    · -- the prefix of the root would need two slashes
      rw [hslash]
      have hnot : ¬[slash] ++ [slash] <+: normalized := hnormal.not_double
      rw [if_neg hnot]
      refine ⟨fun ⟨_, hok, _⟩ => (nomatch hok), fun hroot => ?_⟩
      exact absurd (hslash.trans (hroot rfl).symm) hne
    · obtain ⟨tail, htail⟩ := hbelow
      have hdrop : normalized.drop covering.length = slash :: tail := by
        rw [← htail, List.append_assoc, List.drop_left]
        rfl
      have hbelow : covering ++ [slash] <+: normalized := ⟨tail, htail⟩
      rw [if_pos hbelow, hdrop, if_neg (List.cons_ne_nil _ _)]
      refine ⟨fun _ hslash => ?_, fun _ => ⟨_, rfl, ?_⟩⟩
      · rw [hslash] at hbelow
        exact absurd hbelow hnormal.not_double
      · rw [Remainder, if_neg hne, ← htail, List.append_assoc]
        rfl

/-- Lookup and prefix stripping agree exactly where the longest route can be read back and
    is not that of the root. -/
theorem lookup_agrees_iff (hregistered : Registered table)
    (hnormalized : normalizePathPrefix path = some normalized) :
    LookupAgrees table path normalized ↔ Strippable table normalized := by
  have hkept := kept_of_registered hregistered
  have hroot := (normal_of_normalize hnormalized).rooted
  constructor
  · intro hagrees route hlongest
    rcases hkept.lookupByPath hnormalized with ⟨found, hfound, hanswer⟩ | ⟨hnone, -⟩
    · obtain rfl := hlongest.unique hfound hroot
      rcases hagrees with ⟨other, hother, hok, hrest⟩ | ⟨hnone, -⟩
      · obtain rfl := hlongest.unique hother hroot
        refine ⟨?_, (stripRoutePrefix_covers hnormalized
          (hkept.filed _ _ hlongest.isStored).normal hlongest.covers).mp hrest⟩
        rw [hanswer] at hok
        split at hok
        · rename_i huntabbed
          exact huntabbed
        · exact nomatch hok
      · exact absurd hlongest.covers (hnone _ _ hlongest.isStored)
    · exact absurd hlongest.covers (hnone _ _ hlongest.isStored)
  · intro hstrippable
    rcases hkept.lookupByPath hnormalized with ⟨route, hlongest, hanswer⟩ | hnone
    · obtain ⟨huntabbed, hrootOnly⟩ := hstrippable route hlongest
      have hfound := hanswer.trans (if_pos huntabbed)
      exact .inl ⟨route, hlongest, hfound, (stripRoutePrefix_covers hnormalized
        (hkept.filed _ _ hlongest.isStored).normal hlongest.covers).mpr hrootOnly⟩
    · exact .inr hnone

/-! ## A single route -/

def mounted (path : String) : ArchiveNamespaceRoute where
  namespaceId := ofAscii "ns"
  pathPrefix := ofAscii path
  generationId := ofAscii "g1"
  manifestPath := ofAscii "m"

def mountedTable (path : String) : NamespaceTable :=
  NamespaceTable.serve ⟨∅, fun _ => none⟩ (.put (mounted path) [] {})

theorem registered_mounted (path : String) : Registered (mountedTable path) :=
  .serve (.unused fun _ hmem => nomatch hmem)
    (by exact ⟨(by decide : ofAscii "g1" ≠ []), (by decide : tab ∉ ofAscii "g1"),
      (by decide : ofAscii "m" ≠ []), (by decide : tab ∉ ofAscii "m")⟩)

theorem stored_mounted {path : String} (hpath : normalizePathPrefix (ofAscii path) = some normalized)
    (h : (mountedTable path).stored other = some route) : other = normalized := by
  by_contra hne
  have hnone : (mountedTable path).stored other = none := by
    have hpre : (mounted path).pathPrefix = ofAscii path := rfl
    simp only [mountedTable, NamespaceTable.serve]
    rw [hpre, hpath]
    split
    · rename_i heq _
      cases heq
      dsimp only
      rw [Function.update_of_ne hne]
    · rfl
  rw [hnone] at h
  exact nomatch h

theorem lookup_agrees_below : LookupAgrees (mountedTable "/data") (ofAscii "/data//x/")
    (ofAscii "/data/x") := by
  refine (lookup_agrees_iff (registered_mounted "/data") (by decide)).mpr fun route hlongest => ?_
  have hpre : route.pathPrefix = ofAscii "/data" := stored_mounted (by decide) hlongest.isStored
  have hstored := hlongest.isStored
  rw [hpre] at hstored
  refine ⟨⟨?_, ?_⟩, fun hroot => ?_⟩
  · have hnamespace : ((mountedTable "/data").stored (ofAscii "/data")).map
        ArchiveNamespaceRoute.namespaceId = some (ofAscii "ns") := by decide
    rw [hstored] at hnamespace
    rw [Option.some.inj hnamespace]
    decide
  · rw [hpre]
    decide
  · rw [hpre] at hroot
    exact absurd hroot (by decide)

/-- The path is routed to the root, and the prefix of the root is not stripped off it. -/
theorem root_not_stripped : ∃ table path normalized, Registered table ∧
    normalizePathPrefix path = some normalized ∧ ¬LookupAgrees table path normalized := by
  refine ⟨mountedTable "/", ofAscii "/a", ofAscii "/a", registered_mounted "/", by decide, ?_⟩
  rintro (⟨route, hlongest, -, rest, hrest, -⟩ | ⟨hnone, -⟩)
  · have hpre : route.pathPrefix = [slash] := stored_mounted (by decide) hlongest.isStored
    rw [hpre] at hrest
    have herror : stripRoutePrefix [slash] (ofAscii "/a") =
        .error "path does not belong to archive route" := by decide
    rw [herror] at hrest
    exact nomatch hrest
  · have hstored : ((mountedTable "/").stored [slash]).isSome = true := by decide
    obtain ⟨route, hroute⟩ := Option.isSome_iff_exists.mp hstored
    exact hnone [slash] route hroute (.inr (.inl rfl))

end Zb.Mds
