-- SUMMARY: The route catalogs of archived namespaces, and the index of their inode buckets.
import Mathlib.Data.List.DropRight
import Mathlib.Logic.Function.Basic
import Mathlib.Logic.Relation
import ZBStorage.Lib.Bytes
import ZBStorage.Lib.KeyScan

/-!
# Route catalogs

`ArchiveNamespaceCatalog.cpp` and `MasstreeNamespaceCatalog.cpp`, which differ in
their key tags and in what a route holds. A route is stored under its path prefix;
for each of its inode buckets there is a forward key, by bucket, and a reverse key,
by route. The buckets of a route are found again by iterating over the reverse keys
that start with the path prefix and a slash. The reverse keys of routes further
down start alike, so they are found too.
-/

namespace Zb.Mds

open Bytes KeyScan

abbrev RawStore := AList fun _ : Bytes => Bytes

/-! ## Path prefixes and bucket components -/

def slash : UInt8 := 47

/-- Runs of slashes become one slash. -/
def collapseSlashes : Bool → Bytes → Bytes
  | _, [] => []
  | prevSlash, ch :: rest =>
      if ch = slash then
        if prevSlash then collapseSlashes true rest else ch :: collapseSlashes true rest
      else ch :: collapseSlashes false rest

/-- Trailing slashes go, but never the first byte. -/
def popSlashes (out : Bytes) : Bytes :=
  let kept := out.rdropWhile fun ch => ch = slash
  if kept = [] then out.take 1 else kept

/-- `NormalizePathPrefix`; backslashes count as slashes. -/
def normalizePathPrefix (path : Bytes) : Option Bytes :=
  if path = [] then none
  else
    let p := path.map fun ch => if ch = 92 then slash else ch
    let p := if p.head? = some slash then p else slash :: p
    let out := collapseSlashes false p
    some (popSlashes (if out = [] then [slash] else out))

/-- A number in 20 digits, with leading zeros. -/
def bucketComponent (bucketId : UInt64) : Bytes :=
  List.replicate (20 - (decimal bucketId.toNat).length) 48 ++ decimal bucketId.toNat

/-! ## Schemas -/

/-- No key starts with both. -/
def Apart (a b : Bytes) : Prop := ¬ a <+: b ∧ ¬ b <+: a

instance : DecidableRel Apart := fun a b => inferInstanceAs (Decidable (¬ a <+: b ∧ ¬ b <+: a))

/-- What the two catalogs differ in. Path prefixes start with a slash, so the keys of
    the four families start with the tags below, and with no other. -/
structure RouteSchema (Route : Type) where
  routeTag : Bytes
  currentTag : Bytes
  bucketTag : Bytes
  reverseTag : Bytes
  pathPrefix : Route → Bytes
  withPathPrefix : Route → Bytes → Route
  encodeRoute : Route → Bytes
  encodeCurrentRoute : Route → Bytes
  invalidPathPrefix : Bytes
  invalidDeletePathPrefix : Bytes
  apart : [routeTag ++ [slash], currentTag ++ [slash], bucketTag, reverseTag ++ [slash]].Pairwise
    Apart

structure ArchiveNamespaceRoute where
  namespaceId : Bytes := []
  pathPrefix : Bytes := []
  generationId : Bytes := []
  manifestPath : Bytes := []
  inodeMin : UInt64 := 0
  inodeMax : UInt64 := 0
  inodeCount : UInt64 := 0

structure MasstreeNamespaceRoute where
  namespaceId : Bytes := []
  pathPrefix : Bytes := []
  generationId : Bytes := []
  manifestPath : Bytes := []
  rootInodeId : UInt64 := 0
  inodeMin : UInt64 := 0
  inodeMax : UInt64 := 0
  inodeCount : UInt64 := 0
  dentryCount : UInt64 := 0

/-- Fields separated by tabs. -/
def tabbed (fields : List Bytes) : Bytes := [9].intercalate fields

def archiveSchema : RouteSchema ArchiveNamespaceRoute where
  routeTag := ofAscii "AN"
  currentTag := ofAscii "ANC"
  bucketTag := ofAscii "AIB/"
  reverseTag := ofAscii "AIR"
  pathPrefix route := route.pathPrefix
  withPathPrefix route path := { route with pathPrefix := path }
  encodeRoute route := tabbed [route.namespaceId, route.pathPrefix, route.generationId,
    route.manifestPath, decimal route.inodeMin.toNat, decimal route.inodeMax.toNat,
    decimal route.inodeCount.toNat]
  encodeCurrentRoute route := tabbed [route.generationId, route.manifestPath]
  invalidPathPrefix := ofAscii "invalid archive namespace path prefix"
  invalidDeletePathPrefix := ofAscii "invalid archive namespace path prefix"
  apart := by decide

def masstreeSchema : RouteSchema MasstreeNamespaceRoute where
  routeTag := ofAscii "MTR"
  currentTag := ofAscii "MTC"
  bucketTag := ofAscii "MTIB/"
  reverseTag := ofAscii "MTIR"
  pathPrefix route := route.pathPrefix
  withPathPrefix route path := { route with pathPrefix := path }
  encodeRoute route := tabbed [route.namespaceId, route.pathPrefix, route.generationId,
    route.manifestPath, decimal route.rootInodeId.toNat, decimal route.inodeMin.toNat,
    decimal route.inodeMax.toNat, decimal route.inodeCount.toNat, decimal route.dentryCount.toNat]
  encodeCurrentRoute route := tabbed [route.generationId, route.manifestPath,
    decimal route.rootInodeId.toNat, decimal route.inodeMin.toNat, decimal route.inodeMax.toNat,
    decimal route.inodeCount.toNat, decimal route.dentryCount.toNat]
  invalidPathPrefix := ofAscii "invalid masstree namespace path prefix"
  invalidDeletePathPrefix := ofAscii "invalid masstree namespace delete path prefix"
  apart := by decide

namespace RouteSchema

variable {Route : Type} (schema : RouteSchema Route)

def routeKey (path : Bytes) : Bytes := schema.routeTag ++ path

def currentKey (path : Bytes) : Bytes := schema.currentTag ++ path

def bucketKey (bucketId : UInt64) (path : Bytes) : Bytes :=
  schema.bucketTag ++ bucketComponent bucketId ++ path

def reverseStart (path : Bytes) : Bytes := schema.reverseTag ++ path ++ [slash]

def reverseKey (path : Bytes) (bucketId : UInt64) : Bytes :=
  schema.reverseStart path ++ bucketComponent bucketId

/-! ## Operations -/

/-- The keys that `DeleteRouteSecondaryIndexes` deletes: for each key found, that key
    and the forward key that its rest names. -/
def deleteRouteSecondaryIndexes (db : RawStore) (path : Bytes) : List Bytes :=
  (scan (schema.reverseStart path) db.keys).flatMap fun key =>
    [key, schema.bucketTag ++ key.drop (schema.reverseStart path).length ++ path]

/-- The keys that `PutRoute` writes. -/
def routeItems (route : Route) (path : Bytes) (bucketIds : List UInt64) : List (Bytes × Bytes) :=
  let normalized := schema.withPathPrefix route path
  let payload := schema.encodeRoute normalized
  (schema.routeKey path, payload) :: (schema.currentKey path, schema.encodeCurrentRoute normalized) ::
    bucketIds.flatMap fun bucketId =>
      [(schema.bucketKey bucketId path, payload), (schema.reverseKey path bucketId, [])]

/-- The errors of the iterator and of the write, if any. -/
structure Faults where
  iterator : Option Bytes := none
  write : Option Bytes := none

/-- A batch is written whole or not at all. -/
def writeRoute (db : RawStore) (faults : Faults) (batch : List (WriteOp Bytes Bytes)) :
    Except Bytes Unit × RawStore :=
  match faults.iterator, faults.write with
  | some error, _ => (.error error, db)
  | none, some error => (.error error, db)
  | none, none => (.ok (), writeBatch db batch)

def putRoute (db : RawStore) (faults : Faults) (route : Route) (bucketIds : List UInt64) :
    Except Bytes Unit × RawStore :=
  match normalizePathPrefix (schema.pathPrefix route) with
  | none => (.error schema.invalidPathPrefix, db)
  | some path => writeRoute db faults
      ((schema.deleteRouteSecondaryIndexes db path).map .delete ++
        (schema.routeItems route path bucketIds).map fun item => .put item.1 item.2)

def deleteRoute (db : RawStore) (faults : Faults) (pathPrefix : Bytes) :
    Except Bytes Unit × RawStore :=
  match normalizePathPrefix pathPrefix with
  | none => (.error schema.invalidDeletePathPrefix, db)
  | some path => writeRoute db faults
      ((schema.deleteRouteSecondaryIndexes db path ++
        [schema.routeKey path, schema.currentKey path]).map .delete)

/-! ## Keys -/

theorem length_bucketComponent (bucketId : UInt64) : (bucketComponent bucketId).length = 20 := by
  have hlen : (decimal bucketId.toNat).length ≤ 20 := by
    rw [decimal, List.length_map, Nat.length_toDigits_le_iff (by decide) (by decide)]
    have := bucketId.toNat_lt
    omega
  simp only [bucketComponent, List.length_append, List.length_replicate]
  omega

theorem isDigit_bucketComponent {bucketId : UInt64} {b : UInt8} (h : b ∈ bucketComponent bucketId) :
    isDigit b = true := by
  rcases List.mem_append.mp h with hzero | hdigit
  · obtain rfl := List.eq_of_mem_replicate hzero
    rfl
  · exact isDigit_of_mem_decimal hdigit

theorem digitsValue_bucketComponent (bucketId : UInt64) :
    digitsValue (bucketComponent bucketId) = bucketId.toNat := by
  have hzeros : ∀ n, (List.replicate n (48 : UInt8)).foldl
      (fun n b => 10 * n + (b.toNat - 48)) 0 = 0 := by
    intro n
    induction n with
    | zero => rfl
    | succ n ih => simpa [List.replicate_succ] using ih
  have hvalue := digitsValue_decimal bucketId.toNat
  rw [digitsValue] at hvalue
  rw [bucketComponent, digitsValue, List.foldl_append, hzeros, hvalue]

theorem bucketComponent_injective : Function.Injective bucketComponent := by
  intro a b h
  apply UInt64.toNat_inj.mp
  rw [← digitsValue_bucketComponent, h, digitsValue_bucketComponent]

variable {schema}

theorem bucketKey_inj {a b : UInt64} {p q : Bytes} :
    schema.bucketKey a p = schema.bucketKey b q ↔ a = b ∧ p = q := by
  constructor
  · intro h
    obtain ⟨hhead, hpath⟩ := List.append_inj h (by simp [length_bucketComponent])
    exact ⟨bucketComponent_injective (List.append_cancel_left hhead), hpath⟩
  · rintro ⟨rfl, rfl⟩
    rfl

theorem reverseKey_inj {a b : UInt64} {p q : Bytes} :
    schema.reverseKey p a = schema.reverseKey q b ↔ p = q ∧ a = b := by
  constructor
  · intro h
    obtain ⟨hhead, hcomponent⟩ := List.append_inj' h (by simp [length_bucketComponent])
    have hpath := List.append_cancel_left (List.append_inj_left' hhead rfl)
    exact ⟨hpath, bucketComponent_injective hcomponent⟩
  · rintro ⟨rfl, rfl⟩
    rfl

/-- The reverse keys that are found for a path prefix: its own, and those of the path
    prefixes below it. -/
theorem reverseStart_of_reverseKey {p q : Bytes} {bucketId : UInt64}
    (h : schema.reverseStart p <+: schema.reverseKey q bucketId) : q = p ∨ p ++ [slash] <+: q := by
  simp only [reverseKey, reverseStart, List.append_assoc, List.prefix_append_right_inj] at h
  obtain ⟨rest, hrest⟩ := h
  rcases List.append_eq_append_iff.mp hrest with ⟨mid, hq, -⟩ | ⟨mid, hp, hmid⟩
  · exact .inr ⟨mid, hq.symm⟩
  rcases List.eq_nil_or_concat' mid with rfl | ⟨init, last, rfl⟩
  · exact .inr ⟨[], by simpa using hp⟩
  · -- the slash after `p` is the last byte before `rest`, and no digit is a slash
    rw [← List.append_assoc] at hp
    obtain ⟨hpath, hlast⟩ := List.append_inj' hp rfl
    obtain rfl : slash = last := by simpa using hlast
    cases init with
    | nil => exact .inl (by simpa using hpath.symm)
    | cons first init =>
        have hmem : slash ∈ bucketComponent bucketId := by
          have hcomponent := congrArg List.tail hmid
          simp only [List.cons_append, List.tail_cons, List.nil_append] at hcomponent
          rw [hcomponent]
          simp
        exact absurd (isDigit_bucketComponent hmem) (by decide)

@[simp] theorem drop_reverseKey (p : Bytes) (bucketId : UInt64) :
    (schema.reverseKey p bucketId).drop (schema.reverseStart p).length =
      bucketComponent bucketId :=
  List.drop_left

/-- Path prefixes start with a slash. -/
def Rooted (path : Bytes) : Prop := [slash] <+: path

theorem rooted_popSlashes {out : Bytes} (h : Rooted out) : Rooted (popSlashes out) := by
  obtain ⟨rest, rfl⟩ := h
  simp only [popSlashes]
  split
  · exact List.prefix_rfl
  · next hkept =>
      obtain ⟨tail, htail⟩ := List.rdropWhile_prefix (fun ch => decide (ch = slash)) ([slash] ++ rest)
      cases hcase : List.rdropWhile (fun ch => decide (ch = slash)) ([slash] ++ rest) with
      | nil => exact absurd hcase hkept
      | cons first kept =>
          rw [hcase] at htail
          obtain rfl : first = slash := (List.cons.inj htail).1
          exact ⟨kept, rfl⟩

theorem rooted_of_normalize {path normalized : Bytes}
    (h : normalizePathPrefix path = some normalized) : Rooted normalized := by
  have hslash : ∀ p : Bytes, ∃ rest,
      (if p.head? = some slash then p else slash :: p) = slash :: rest := by
    intro p
    split
    · next hhead => exact List.head?_eq_some_iff.mp hhead
    · exact ⟨p, rfl⟩
  simp only [normalizePathPrefix] at h
  split at h
  · cases h
  obtain ⟨rest, hrest⟩ := hslash (path.map fun ch => if ch = 92 then slash else ch)
  rw [hrest] at h
  obtain rfl := Option.some.inj h
  apply rooted_popSlashes
  split
  · exact List.prefix_rfl
  · exact ⟨collapseSlashes true rest, by simp [collapseSlashes]⟩

/-- Keys of different families are different. -/
theorem ne_of_apart {a b key key' : Bytes} (h : Apart a b) (hkey : a <+: key) (hkey' : b <+: key') :
    key ≠ key' := by
  rintro rfl
  rcases List.prefix_or_prefix_of_prefix hkey hkey' with hab | hba
  · exact h.1 hab
  · exact h.2 hba

variable (schema) in
theorem tags_apart :
    Apart (schema.routeTag ++ [slash]) schema.bucketTag ∧
    Apart (schema.routeTag ++ [slash]) (schema.reverseTag ++ [slash]) ∧
    Apart (schema.currentTag ++ [slash]) (schema.routeTag ++ [slash]) ∧
    Apart (schema.currentTag ++ [slash]) schema.bucketTag ∧
    Apart (schema.currentTag ++ [slash]) (schema.reverseTag ++ [slash]) ∧
    Apart schema.bucketTag (schema.reverseTag ++ [slash]) := by
  have h := schema.apart
  simp only [List.pairwise_cons, List.mem_cons, List.not_mem_nil, or_false, forall_eq_or_imp,
    forall_eq] at h
  obtain ⟨⟨hrc, hrb, hrr⟩, ⟨hcb, hcr⟩, hbr, -⟩ := h
  exact ⟨hrb, hrr, ⟨hrc.2, hrc.1⟩, hcb, hcr, hbr⟩

theorem Rooted.tagged {path : Bytes} (h : Rooted path) (tag : Bytes) :
    tag ++ [slash] <+: tag ++ path :=
  (List.prefix_append_right_inj tag).mpr h

theorem bucketTag_bucketKey (bucketId : UInt64) (path : Bytes) :
    schema.bucketTag <+: schema.bucketKey bucketId path :=
  ⟨_, (List.append_assoc ..).symm⟩

theorem Rooted.reverseKey {path : Bytes} (h : Rooted path) (bucketId : UInt64) :
    schema.reverseTag ++ [slash] <+: schema.reverseKey path bucketId := by
  refine (h.tagged schema.reverseTag).trans ⟨[slash] ++ bucketComponent bucketId, ?_⟩
  simp [RouteSchema.reverseKey, reverseStart]

/-! ## Histories -/

inductive RouteCall (Route : Type)
  | put (route : Route) (bucketIds : List UInt64) (faults : Faults)
  | delete (pathPrefix : Bytes) (faults : Faults)

/-- The store, with the buckets that the last `PutRoute` of each path prefix listed,
    for those that have a route. -/
structure Routes where
  db : RawStore
  listed : Bytes → Option (List UInt64) := fun _ => none

variable (schema) in
/-- The normalised path prefix that a call is about. -/
def RouteCall.path : RouteCall Route → Option Bytes
  | .put route _ _ => normalizePathPrefix (schema.pathPrefix route)
  | .delete pathPrefix _ => normalizePathPrefix pathPrefix

variable (schema) in
def RouteCall.run (db : RawStore) : RouteCall Route → Except Bytes Unit × RawStore
  | .put route bucketIds faults => schema.putRoute db faults route bucketIds
  | .delete pathPrefix faults => schema.deleteRoute db faults pathPrefix

/-- What the call lists for its path prefix. -/
def RouteCall.lists : RouteCall Route → Option (List UInt64)
  | .put _ bucketIds _ => some bucketIds
  | .delete _ _ => none

variable (schema) in
def Routes.step (routes : Routes) (call : RouteCall Route) : Routes :=
  match call.path schema, call.run schema routes.db with
  | some path, (.ok _, db) => ⟨db, Function.update routes.listed path call.lists⟩
  | _, (_, db) => ⟨db, routes.listed⟩

/-- No path prefix below has buckets. -/
def Routes.Clear (routes : Routes) (path : Bytes) : Prop :=
  ∀ below bucketIds, routes.listed below = some bucketIds → bucketIds ≠ [] →
    ¬ path ++ [slash] <+: below

variable (schema) in
/-- The store before the first call: none of its keys belongs to the catalog. -/
def Unused (db : RawStore) : Prop :=
  ∀ key ∈ db, ¬ schema.routeTag ++ [slash] <+: key ∧ ¬ schema.bucketTag <+: key ∧
    ¬ schema.reverseTag ++ [slash] <+: key

variable (schema) in
def RouteHistory : Routes → Routes → Prop :=
  Relation.ReflTransGen fun routes routes' => ∃ call : RouteCall Route,
    routes' = routes.step schema call

variable (schema) in
/-- The histories in which every call finds the path prefixes below its own clear. -/
def ClearHistory : Routes → Routes → Prop :=
  Relation.ReflTransGen fun routes routes' => ∃ call : RouteCall Route,
    (∀ path ∈ call.path schema, routes.Clear path) ∧ routes' = routes.step schema call

variable (schema) in
/-- The route table and both indexes hold what the last calls listed. -/
structure Routes.Indexed (routes : Routes) : Prop where
  rooted : ∀ {path bucketIds}, routes.listed path = some bucketIds → Rooted path
  route : ∀ path, Rooted path →
    (schema.routeKey path ∈ routes.db ↔ (routes.listed path).isSome = true)
  forward : ∀ key, schema.bucketTag <+: key → (key ∈ routes.db ↔ ∃ bucketId path bucketIds,
    key = schema.bucketKey bucketId path ∧ routes.listed path = some bucketIds ∧
      bucketId ∈ bucketIds)
  reverse : ∀ key, schema.reverseTag ++ [slash] <+: key →
    (key ∈ routes.db ↔ ∃ bucketId path bucketIds,
      key = schema.reverseKey path bucketId ∧ routes.listed path = some bucketIds ∧
        bucketId ∈ bucketIds)

theorem Unused.indexed {db : RawStore} (h : Unused schema db) :
    Routes.Indexed schema { db := db } where
  rooted h := by cases h
  route path hroot := by
    simp only [Option.isSome_none, Bool.false_eq_true, iff_false]
    exact fun hmem => (h _ hmem).1 (hroot.tagged _)
  forward key hkey := by
    simp only [reduceCtorEq, false_and, and_false, exists_const, iff_false]
    exact fun hmem => (h _ hmem).2.1 hkey
  reverse key hkey := by
    simp only [reduceCtorEq, false_and, and_false, exists_const, iff_false]
    exact fun hmem => (h _ hmem).2.2 hkey

/-! ## One call -/

/-- With nothing listed below, exactly the index entries of the path prefix are deleted. -/
theorem mem_deleteRouteSecondaryIndexes {routes : Routes} {path key : Bytes}
    (h : routes.Indexed schema) (hroot : Rooted path) (hclear : routes.Clear path) :
    key ∈ schema.deleteRouteSecondaryIndexes routes.db path ↔
      ∃ bucketId bucketIds, routes.listed path = some bucketIds ∧ bucketId ∈ bucketIds ∧
        (key = schema.reverseKey path bucketId ∨ key = schema.bucketKey bucketId path) := by
  have hstart : schema.reverseTag ++ [slash] <+: schema.reverseStart path :=
    (hroot.tagged schema.reverseTag).trans ⟨[slash], rfl⟩
  rw [deleteRouteSecondaryIndexes, List.mem_flatMap]
  constructor
  · rintro ⟨found, hfound, hkey⟩
    obtain ⟨hdb, hfound⟩ := mem_scan.mp hfound
    obtain ⟨bucketId, owner, bucketIds, rfl, hlisted, hbucket⟩ :=
      (h.reverse found (hstart.trans hfound)).mp hdb
    rcases reverseStart_of_reverseKey hfound with rfl | hbelow
    · refine ⟨bucketId, bucketIds, hlisted, hbucket, ?_⟩
      simpa [bucketKey] using hkey
    · exact absurd hbelow (hclear owner bucketIds hlisted (List.ne_nil_of_mem hbucket))
  · rintro ⟨bucketId, bucketIds, hlisted, hbucket, hkey⟩
    have hdb : schema.reverseKey path bucketId ∈ routes.db :=
      (h.reverse _ (hroot.reverseKey bucketId)).mpr ⟨bucketId, path, bucketIds, rfl, hlisted, hbucket⟩
    refine ⟨_, mem_scan.mpr ⟨hdb, ⟨_, rfl⟩⟩, ?_⟩
    simpa [bucketKey] using hkey

theorem mem_routeItems {route : Route} {path key : Bytes} {bucketIds : List UInt64} :
    (∃ item ∈ schema.routeItems route path bucketIds, item.1 = key) ↔
      key = schema.routeKey path ∨ key = schema.currentKey path ∨
        ∃ bucketId ∈ bucketIds,
          key = schema.bucketKey bucketId path ∨ key = schema.reverseKey path bucketId := by
  simp only [routeItems, List.mem_cons, List.mem_flatMap, List.not_mem_nil, or_false]
  constructor
  · rintro ⟨item, rfl | rfl | ⟨bucketId, hbucket, rfl | rfl⟩, rfl⟩
    · exact .inl rfl
    · exact .inr (.inl rfl)
    · exact .inr (.inr ⟨bucketId, hbucket, .inl rfl⟩)
    · exact .inr (.inr ⟨bucketId, hbucket, .inr rfl⟩)
  · rintro (rfl | rfl | ⟨bucketId, hbucket, rfl | rfl⟩)
    · exact ⟨_, .inl rfl, rfl⟩
    · exact ⟨_, .inr (.inl rfl), rfl⟩
    · exact ⟨_, .inr (.inr ⟨bucketId, hbucket, .inl rfl⟩), rfl⟩
    · exact ⟨_, .inr (.inr ⟨bucketId, hbucket, .inr rfl⟩), rfl⟩

variable (schema) in
/-- The keys of a path prefix in the four families. -/
def Own (path key : Bytes) : Prop :=
  key = schema.routeKey path ∨ key = schema.currentKey path ∨
    ∃ bucketId, key = schema.bucketKey bucketId path ∨ key = schema.reverseKey path bucketId

variable (schema) in
/-- What a call that lists `lists` leaves of its path prefix, and of the others. -/
structure Rewrites (path : Bytes) (lists : Option (List UInt64)) (db db' : RawStore) : Prop where
  others : ∀ key, ¬ Own schema path key → db'.lookup key = db.lookup key
  route : schema.routeKey path ∈ db' ↔ lists.isSome = true
  forward : ∀ bucketId, schema.bucketKey bucketId path ∈ db' ↔
    ∃ bucketIds, lists = some bucketIds ∧ bucketId ∈ bucketIds
  reverse : ∀ bucketId, schema.reverseKey path bucketId ∈ db' ↔
    ∃ bucketIds, lists = some bucketIds ∧ bucketId ∈ bucketIds

theorem mem_iff_lookup {db : RawStore} {key : Bytes} : key ∈ db ↔ (db.lookup key).isSome = true :=
  AList.lookup_isSome.symm

theorem mem_deletes {db : RawStore} {keys : List Bytes} {key : Bytes} :
    key ∈ writeBatch db (keys.map .delete) ↔ key ∉ keys ∧ key ∈ db := by
  rw [mem_iff_lookup, lookup_deletes, mem_iff_lookup]
  split <;> simp_all

section Families

variable {path : Bytes} (hroot : Rooted path)
include hroot

theorem Rooted.routeKey_ne_bucketKey (bucketId : UInt64) (q : Bytes) :
    schema.routeKey path ≠ schema.bucketKey bucketId q :=
  ne_of_apart (tags_apart schema).1 (hroot.tagged _) (bucketTag_bucketKey ..)

theorem Rooted.currentKey_ne_bucketKey (bucketId : UInt64) (q : Bytes) :
    schema.currentKey path ≠ schema.bucketKey bucketId q :=
  ne_of_apart (tags_apart schema).2.2.2.1 (hroot.tagged _) (bucketTag_bucketKey ..)

theorem Rooted.reverseKey_ne_bucketKey (a b : UInt64) (q : Bytes) :
    schema.reverseKey path a ≠ schema.bucketKey b q :=
  (ne_of_apart (tags_apart schema).2.2.2.2.2 (bucketTag_bucketKey ..) (hroot.reverseKey a)).symm

theorem Rooted.routeKey_ne_reverseKey {q : Bytes} (hq : Rooted q) (bucketId : UInt64) :
    schema.routeKey path ≠ schema.reverseKey q bucketId :=
  ne_of_apart (tags_apart schema).2.1 (hroot.tagged _) (hq.reverseKey bucketId)

theorem Rooted.currentKey_ne_reverseKey {q : Bytes} (hq : Rooted q) (bucketId : UInt64) :
    schema.currentKey path ≠ schema.reverseKey q bucketId :=
  ne_of_apart (tags_apart schema).2.2.2.2.1 (hroot.tagged _) (hq.reverseKey bucketId)

theorem Rooted.currentKey_ne_routeKey {q : Bytes} (hq : Rooted q) :
    schema.currentKey path ≠ schema.routeKey q :=
  ne_of_apart (tags_apart schema).2.2.1 (hroot.tagged _) (hq.tagged _)

end Families

section Calls

variable {routes : Routes} {path : Bytes} (h : routes.Indexed schema) (hroot : Rooted path)
  (hclear : routes.Clear path)
include h hroot hclear

theorem deleted_forward {bucketId : UInt64}
    (hmem : schema.bucketKey bucketId path ∈ routes.db) :
    schema.bucketKey bucketId path ∈ schema.deleteRouteSecondaryIndexes routes.db path := by
  obtain ⟨b, owner, bucketIds, hkey, hlisted, hbucket⟩ :=
    (h.forward _ (bucketTag_bucketKey ..)).mp hmem
  obtain ⟨rfl, rfl⟩ := bucketKey_inj.mp hkey
  exact (mem_deleteRouteSecondaryIndexes h hroot hclear).mpr
    ⟨bucketId, bucketIds, hlisted, hbucket, .inr rfl⟩

theorem deleted_reverse {bucketId : UInt64}
    (hmem : schema.reverseKey path bucketId ∈ routes.db) :
    schema.reverseKey path bucketId ∈ schema.deleteRouteSecondaryIndexes routes.db path := by
  obtain ⟨b, owner, bucketIds, hkey, hlisted, hbucket⟩ :=
    (h.reverse _ (hroot.reverseKey bucketId)).mp hmem
  obtain ⟨rfl, rfl⟩ := reverseKey_inj.mp hkey
  exact (mem_deleteRouteSecondaryIndexes h hroot hclear).mpr
    ⟨bucketId, bucketIds, hlisted, hbucket, .inl rfl⟩

theorem own_of_deleted {key : Bytes}
    (hkey : key ∈ schema.deleteRouteSecondaryIndexes routes.db path) : Own schema path key := by
  obtain ⟨bucketId, -, -, -, rfl | rfl⟩ := (mem_deleteRouteSecondaryIndexes h hroot hclear).mp hkey
  · exact .inr (.inr ⟨bucketId, .inr rfl⟩)
  · exact .inr (.inr ⟨bucketId, .inl rfl⟩)

theorem rewrites_put (route : Route) (bucketIds : List UInt64) :
    Rewrites schema path (some bucketIds) routes.db (writeBatch routes.db
      ((schema.deleteRouteSecondaryIndexes routes.db path).map .delete ++
        (schema.routeItems route path bucketIds).map fun item => .put item.1 item.2)) where
  others key hkey := by
    rw [writeBatch_append, lookup_puts_of_ne, lookup_deletes, if_neg]
    · exact fun hdeleted => hkey (own_of_deleted h hroot hclear hdeleted)
    · intro item hitem heq
      rcases mem_routeItems.mp ⟨item, hitem, heq⟩ with hroute | hcurrent | ⟨bucketId, -, hindex⟩
      · exact hkey (.inl hroute)
      · exact hkey (.inr (.inl hcurrent))
      · exact hkey (.inr (.inr ⟨bucketId, hindex⟩))
  route := by
    rw [writeBatch_append, mem_puts, mem_routeItems]
    simp
  forward bucketId := by
    rw [writeBatch_append, mem_puts, mem_routeItems, mem_deletes]
    constructor
    · rintro ((hkey | hkey | ⟨b, hb, hkey | hkey⟩) | ⟨hkept, hmem⟩)
      · exact absurd hkey.symm (hroot.routeKey_ne_bucketKey _ _)
      · exact absurd hkey.symm (hroot.currentKey_ne_bucketKey _ _)
      · obtain ⟨rfl, -⟩ := bucketKey_inj.mp hkey
        exact ⟨bucketIds, rfl, hb⟩
      · exact absurd hkey.symm (hroot.reverseKey_ne_bucketKey _ _ _)
      · exact absurd (deleted_forward h hroot hclear hmem) hkept
    · rintro ⟨_, ⟨⟩, hb⟩
      exact .inl (.inr (.inr ⟨bucketId, hb, .inl rfl⟩))
  reverse bucketId := by
    rw [writeBatch_append, mem_puts, mem_routeItems, mem_deletes]
    constructor
    · rintro ((hkey | hkey | ⟨b, hb, hkey | hkey⟩) | ⟨hkept, hmem⟩)
      · exact absurd hkey.symm (hroot.routeKey_ne_reverseKey hroot _)
      · exact absurd hkey.symm (hroot.currentKey_ne_reverseKey hroot _)
      · exact absurd hkey (hroot.reverseKey_ne_bucketKey _ _ _)
      · obtain ⟨-, rfl⟩ := reverseKey_inj.mp hkey
        exact ⟨bucketIds, rfl, hb⟩
      · exact absurd (deleted_reverse h hroot hclear hmem) hkept
    · rintro ⟨_, ⟨⟩, hb⟩
      exact .inl (.inr (.inr ⟨bucketId, hb, .inr rfl⟩))

theorem rewrites_delete :
    Rewrites schema path none routes.db (writeBatch routes.db
      ((schema.deleteRouteSecondaryIndexes routes.db path ++
        [schema.routeKey path, schema.currentKey path]).map .delete)) where
  others key hkey := by
    rw [lookup_deletes, if_neg]
    intro hdeleted
    rcases List.mem_append.mp hdeleted with hindex | htable
    · exact hkey (own_of_deleted h hroot hclear hindex)
    · simp only [List.mem_cons, List.not_mem_nil, or_false] at htable
      rcases htable with hroute | hcurrent
      · exact hkey (.inl hroute)
      · exact hkey (.inr (.inl hcurrent))
  route := by
    rw [mem_deletes]
    simp
  forward bucketId := by
    rw [mem_deletes]
    simp only [reduceCtorEq, false_and, exists_false, iff_false, not_and]
    exact fun hkept hmem => hkept (List.mem_append_left _ (deleted_forward h hroot hclear hmem))
  reverse bucketId := by
    rw [mem_deletes]
    simp only [reduceCtorEq, false_and, exists_false, iff_false, not_and]
    exact fun hkept hmem => hkept (List.mem_append_left _ (deleted_reverse h hroot hclear hmem))

end Calls

/-- What a call does: nothing, or it rewrites the entries of its path prefix. -/
theorem step_cases {routes : Routes} {call : RouteCall Route} (h : routes.Indexed schema)
    (hclear : ∀ path ∈ call.path schema, routes.Clear path) :
    routes.step schema call = routes ∨
    ∃ path db', call.path schema = some path ∧ Rooted path ∧
      Rewrites schema path call.lists routes.db db' ∧
      routes.step schema call = ⟨db', Function.update routes.listed path call.lists⟩ := by
  have hwrite : ∀ {path : Bytes} {faults : Faults} {batch : List (WriteOp Bytes Bytes)},
      call.path schema = some path →
      call.run schema routes.db = writeRoute routes.db faults batch →
      Rewrites schema path call.lists routes.db (writeBatch routes.db batch) →
      Rooted path →
      routes.step schema call = routes ∨
      ∃ path db', call.path schema = some path ∧ Rooted path ∧
        Rewrites schema path call.lists routes.db db' ∧
        routes.step schema call = ⟨db', Function.update routes.listed path call.lists⟩ := by
    intro path faults batch hpath hrun hrewrites hroot
    rcases faults with ⟨_ | iterator, _ | write⟩
    · exact .inr ⟨path, _, hpath, hroot, hrewrites, by simp [Routes.step, hpath, hrun, writeRoute]⟩
    · exact .inl (by simp [Routes.step, hpath, hrun, writeRoute])
    · exact .inl (by simp [Routes.step, hpath, hrun, writeRoute])
    · exact .inl (by simp [Routes.step, hpath, hrun, writeRoute])
  cases call with
  | put route bucketIds faults =>
      cases hpath : normalizePathPrefix (schema.pathPrefix route) with
      | none =>
          exact .inl (by simp [Routes.step, RouteCall.path, RouteCall.run, putRoute, hpath])
      | some path =>
          have hroot := rooted_of_normalize hpath
          exact hwrite hpath (by simp only [RouteCall.run, putRoute, hpath]; rfl)
            (rewrites_put h hroot (hclear path hpath) route bucketIds) hroot
  | delete pathPrefix faults =>
      cases hpath : normalizePathPrefix pathPrefix with
      | none =>
          exact .inl (by simp [Routes.step, RouteCall.path, RouteCall.run, deleteRoute, hpath])
      | some path =>
          have hroot := rooted_of_normalize hpath
          exact hwrite hpath (by simp only [RouteCall.run, deleteRoute, hpath]; rfl)
            (rewrites_delete h hroot (hclear path hpath)) hroot

/-! ## Isolation -/

theorem Rooted.not_own_bucketKey {path q : Bytes} (hroot : Rooted path) (hne : q ≠ path)
    (bucketId : UInt64) : ¬ Own schema path (schema.bucketKey bucketId q) := by
  rintro (hkey | hkey | ⟨b, hkey | hkey⟩)
  · exact hroot.routeKey_ne_bucketKey _ _ hkey.symm
  · exact hroot.currentKey_ne_bucketKey _ _ hkey.symm
  · exact hne (bucketKey_inj.mp hkey).2
  · exact hroot.reverseKey_ne_bucketKey _ _ _ hkey.symm

theorem Rooted.not_own_reverseKey {path q : Bytes} (hroot : Rooted path) (hq : Rooted q)
    (hne : q ≠ path) (bucketId : UInt64) : ¬ Own schema path (schema.reverseKey q bucketId) := by
  rintro (hkey | hkey | ⟨b, hkey | hkey⟩)
  · exact hroot.routeKey_ne_reverseKey hq _ hkey.symm
  · exact hroot.currentKey_ne_reverseKey hq _ hkey.symm
  · exact hq.reverseKey_ne_bucketKey _ _ _ hkey
  · exact hne (reverseKey_inj.mp hkey).1

theorem Rooted.not_own_routeKey {path q : Bytes} (hroot : Rooted path) (hq : Rooted q)
    (hne : q ≠ path) : ¬ Own schema path (schema.routeKey q) := by
  rintro (hkey | hkey | ⟨b, hkey | hkey⟩)
  · exact hne (List.append_cancel_left hkey)
  · exact hroot.currentKey_ne_routeKey hq hkey.symm
  · exact hq.routeKey_ne_bucketKey _ _ hkey
  · exact hq.routeKey_ne_reverseKey hroot _ hkey

theorem Rewrites.mem_of_not_own {path key : Bytes} {lists : Option (List UInt64)}
    {db db' : RawStore} (h : Rewrites schema path lists db db') (hkey : ¬ Own schema path key) :
    key ∈ db' ↔ key ∈ db := by
  rw [mem_iff_lookup, h.others key hkey, mem_iff_lookup]

/-- An index family after a rewrite: the entries of the path prefix are the listed
    ones, the others stay. -/
theorem Rewrites.family {path : Bytes} {lists : Option (List UInt64)} {db db' : RawStore}
    {listed : Bytes → Option (List UInt64)} {entry : UInt64 → Bytes → Bytes} {key : Bytes}
    (hrewrites : Rewrites schema path lists db db')
    (hinj : ∀ {a b p q}, entry a p = entry b q → a = b ∧ p = q)
    (hown : ∀ bucketId, entry bucketId path ∈ db' ↔
      ∃ bucketIds, lists = some bucketIds ∧ bucketId ∈ bucketIds)
    (hothers : (∀ bucketId, key ≠ entry bucketId path) → ¬ Own schema path key)
    (hbefore : key ∈ db ↔ ∃ bucketId q bucketIds, key = entry bucketId q ∧
      listed q = some bucketIds ∧ bucketId ∈ bucketIds) :
    key ∈ db' ↔ ∃ bucketId q bucketIds, key = entry bucketId q ∧
      Function.update listed path lists q = some bucketIds ∧ bucketId ∈ bucketIds := by
  by_cases hkey : ∃ bucketId, key = entry bucketId path
  · obtain ⟨bucketId, rfl⟩ := hkey
    rw [hown]
    constructor
    · rintro ⟨bucketIds, hlists, hbucket⟩
      exact ⟨bucketId, path, bucketIds, rfl, by rw [Function.update_self, hlists], hbucket⟩
    · rintro ⟨b, q, bucketIds, heq, hlists, hbucket⟩
      obtain ⟨rfl, rfl⟩ := hinj heq
      rw [Function.update_self] at hlists
      exact ⟨bucketIds, hlists, hbucket⟩
  · have hforeign : ∀ {bucketId q}, key = entry bucketId q → q ≠ path := by
      rintro bucketId _ heq rfl
      exact hkey ⟨bucketId, heq⟩
    rw [hrewrites.mem_of_not_own (hothers fun bucketId heq => hkey ⟨bucketId, heq⟩), hbefore]
    constructor
    · rintro ⟨bucketId, q, bucketIds, heq, hlists, hbucket⟩
      exact ⟨bucketId, q, bucketIds, heq, by rwa [Function.update_of_ne (hforeign heq)], hbucket⟩
    · rintro ⟨bucketId, q, bucketIds, heq, hlists, hbucket⟩
      rw [Function.update_of_ne (hforeign heq)] at hlists
      exact ⟨bucketId, q, bucketIds, heq, hlists, hbucket⟩

theorem Routes.Indexed.step {routes : Routes} {call : RouteCall Route}
    (h : routes.Indexed schema) (hclear : ∀ path ∈ call.path schema, routes.Clear path) :
    (routes.step schema call).Indexed schema := by
  rcases step_cases h hclear with hsame | ⟨path, db', -, hroot, hrewrites, hstep⟩
  · rw [hsame]
    exact h
  rw [hstep]
  constructor
  · intro q bucketIds hlisted
    by_cases hq : q = path
    · exact hq ▸ hroot
    · simp only [Function.update_of_ne hq] at hlisted
      exact h.rooted hlisted
  · intro q hq
    by_cases hne : q = path
    · subst hne
      simp only [Function.update_self]
      exact hrewrites.route
    · simp only [hrewrites.mem_of_not_own (hroot.not_own_routeKey hq hne),
        Function.update_of_ne hne]
      exact h.route q hq
  · intro key hkey
    refine hrewrites.family bucketKey_inj.mp hrewrites.forward ?_ (h.forward key hkey)
    rintro hnot (rfl | rfl | ⟨b, rfl | rfl⟩)
    · exact ne_of_apart (tags_apart schema).1 (hroot.tagged _) hkey rfl
    · exact ne_of_apart (tags_apart schema).2.2.2.1 (hroot.tagged _) hkey rfl
    · exact hnot b rfl
    · exact ne_of_apart (tags_apart schema).2.2.2.2.2 hkey (hroot.reverseKey b) rfl
  · intro key hkey
    have hinj : ∀ {a b p q}, schema.reverseKey p a = schema.reverseKey q b → a = b ∧ p = q :=
      fun heq => (reverseKey_inj.mp heq).symm
    refine hrewrites.family hinj hrewrites.reverse ?_ (h.reverse key hkey)
    rintro hnot (rfl | rfl | ⟨b, rfl | rfl⟩)
    · exact ne_of_apart (tags_apart schema).2.1 (hroot.tagged _) hkey rfl
    · exact ne_of_apart (tags_apart schema).2.2.2.2.1 (hroot.tagged _) hkey rfl
    · exact ne_of_apart (tags_apart schema).2.2.2.2.2 (bucketTag_bucketKey ..) hkey rfl
    · exact hnot b rfl

theorem indexed_of_history {db : RawStore} {routes : Routes} (hunused : Unused schema db)
    (h : ClearHistory schema { db := db } routes) : routes.Indexed schema := by
  induction h with
  | refl => exact hunused.indexed
  | tail _ hstep ih =>
      obtain ⟨call, hclear, rfl⟩ := hstep
      exact ih.step hclear

variable (schema) in
/-- The forward index holds exactly the buckets that the routes list, and a call
    touches no index entry of another path prefix. -/
def Routes.Isolated (routes : Routes) : Prop :=
  (∀ path, Rooted path →
    (schema.routeKey path ∈ routes.db ↔ (routes.listed path).isSome = true)) ∧
  (∀ key, schema.bucketTag <+: key → (key ∈ routes.db ↔ ∃ bucketId path bucketIds,
    key = schema.bucketKey bucketId path ∧ routes.listed path = some bucketIds ∧
      bucketId ∈ bucketIds)) ∧
  ∀ (call : RouteCall Route) (path : Bytes), call.path schema = some path →
    routes.Clear path → ∀ other, Rooted other → other ≠ path → ∀ bucketId,
      (routes.step schema call).db.lookup (schema.bucketKey bucketId other) =
        routes.db.lookup (schema.bucketKey bucketId other) ∧
      (routes.step schema call).db.lookup (schema.reverseKey other bucketId) =
        routes.db.lookup (schema.reverseKey other bucketId)

theorem routes_isolated {db : RawStore} {routes : Routes} (hunused : Unused schema db)
    (h : ClearHistory schema { db := db } routes) : routes.Isolated schema := by
  have hindexed := indexed_of_history hunused h
  refine ⟨hindexed.route, hindexed.forward, ?_⟩
  intro call path hpath hclear other hother hne bucketId
  have hclears : ∀ p ∈ call.path schema, routes.Clear p := by
    intro p hp
    obtain rfl := Option.some.inj (hpath.symm.trans hp)
    exact hclear
  rcases step_cases hindexed hclears with hsame | ⟨p, db', hp, hroot, hrewrites, hstep⟩
  · rw [hsame]
    exact ⟨rfl, rfl⟩
  · obtain rfl := Option.some.inj (hpath.symm.trans hp)
    rw [hstep]
    exact ⟨hrewrites.others _ (hroot.not_own_bucketKey hne bucketId),
      hrewrites.others _ (hroot.not_own_reverseKey hother hne bucketId)⟩

theorem history_foldl (calls : List (RouteCall Route)) (routes : Routes) :
    RouteHistory schema routes (calls.foldl (Routes.step schema) routes) := by
  induction calls generalizing routes with
  | nil => exact .refl
  | cons call calls ih => exact .head ⟨call, rfl⟩ (ih _)

section Samples

def archiveRoute (path : String) : ArchiveNamespaceRoute where
  namespaceId := ofAscii "ns"
  pathPrefix := ofAscii path
  generationId := ofAscii "g1"

def samplePut (path : String) (bucketIds : List UInt64) : RouteCall ArchiveNamespaceRoute :=
  .put (archiveRoute path) bucketIds {}

def sampleDelete (path : String) : RouteCall ArchiveNamespaceRoute := .delete (ofAscii path) {}

theorem sample_isolated :
    ((({ db := ∅ } : Routes).step archiveSchema (samplePut "/a/b" [1])).step archiveSchema
      (samplePut "/c" [1, 2])).Isolated archiveSchema := by
  have hunused : Unused archiveSchema ∅ := by simp [Unused]
  refine routes_isolated hunused (.tail (.tail .refl ⟨_, ?_, rfl⟩) ⟨_, ?_, rfl⟩)
  · intro path _ below bucketIds hlisted
    cases hlisted
  · have hlater : (samplePut "/c" [1, 2]).path archiveSchema = some (ofAscii "/c") := by decide
    have hlists : (({ db := ∅ } : Routes).step archiveSchema (samplePut "/a/b" [1])).listed =
        Function.update (fun _ => none) (ofAscii "/a/b") (some [1]) := rfl
    intro path hpath below bucketIds hlisted _
    obtain rfl := Option.some.inj (hlater.symm.trans hpath)
    rw [hlists] at hlisted
    by_cases hbelow : below = ofAscii "/a/b"
    · rw [hbelow]
      decide
    · rw [Function.update_of_ne hbelow] at hlisted
      cases hlisted

/-- A route, one below it, and both deleted from above. -/
def nestedDeletes : List (RouteCall ArchiveNamespaceRoute) :=
  [samplePut "/a" [], samplePut "/a/b" [1], sampleDelete "/a", sampleDelete "/a/b"]

/-- The deletion of the upper route hides the bucket of the lower one from its own
    deletion. -/
theorem bucket_left_behind :
    RouteHistory archiveSchema { db := ∅ }
      (nestedDeletes.foldl (Routes.step archiveSchema) { db := ∅ }) ∧
    archiveSchema.bucketKey 1 (ofAscii "/a/b") ∈
      (nestedDeletes.foldl (Routes.step archiveSchema) { db := ∅ }).db ∧
    (nestedDeletes.foldl (Routes.step archiveSchema) { db := ∅ }).listed (ofAscii "/a/b") = none := by
  exact ⟨history_foldl _ _, by decide, by decide⟩

end Samples

end RouteSchema

end Zb.Mds
