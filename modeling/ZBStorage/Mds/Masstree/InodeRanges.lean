-- SUMMARY: The inode ids of imported namespaces and of the hot namespace, taken from one counter under two mutexes.
import ZBStorage.Mds.Interleavings
import ZBStorage.Mds.Storage.RocksNamespaceStore

/-!
# Ranges of inode ids

`MasstreeImportService.cpp`. An import takes its inode ids from the counter that
`AllocateInodeId` counts, unless the caller names the first one. The two are serialised
by mutexes of their own, so a read of the counter can be overtaken by the other's write,
and a range that the caller names is not taken off the counter.
-/

namespace Zb.Mds

open Zb.Rpc Bytes Handler Prog

/-! ## Imports -/

/-- Moves the counter from `nextId` past a range. -/
def storeNextInode (nextId inodeCount : UInt64) : Handler (Except String UInt64) := do
  match ← put .nextInode (encodeUInt64 (nextId + inodeCount)) with
  | .error e => return .error e
  | .ok () => return .ok nextId

def reserveInodeRange (inodeCount : UInt64) : Handler (Except String UInt64) :=
  if inodeCount = 0 then return .error "invalid masstree inode range reservation args"
  else do
    match ← get .nextInode with
    | .ok value =>
        match decodeUInt64 value with
        | none => return .error "invalid next inode value"
        | some nextId => storeNextInode nextId inodeCount
    | .error e => if e ≠ "" then return .error e else storeNextInode (kRootInodeId + 1) inodeCount

/-- The part of an import after its first inode id is known: the ids of the
    template are shifted by one offset. -/
def importFrom (request : TemplateImportRequest) (manifest : TemplateManifest)
    (inodeStart : UInt64) : Handler (Except String (UInt64 × UInt64)) := do
  let inodeIdOffset := inodeStart - manifest.inodeMin
  let first := manifest.inodeMin + inodeIdOffset
  let last := manifest.inodeMax + inodeIdOffset
  match ← ask (.publishGeneration request first last) with
  | .error e => return .error e
  | .ok () => return .ok (first, last)

/-- `ImportTemplateNamespace`, with the inode range of its result. -/
def importTemplateNamespace (request : TemplateImportRequest) :
    Handler (Except String (UInt64 × UInt64)) :=
  withLock .importing do
    match ← ask (.loadTemplate request) with
    | .error e => return .error e
    | .ok manifest =>
        if request.inodeStart = 0 then
          match ← reserveInodeRange manifest.inodeCount with
          | .error e => return .error e
          | .ok inodeStart => importFrom request manifest inodeStart
        else importFrom request manifest request.inodeStart

/-- The calls that hand out inode ids. -/
inductive IdCall
  | allocate (type : InodeType)
  | importTemplate (request : TemplateImportRequest)

/-- A call answers the first and the last id it hands out. -/
def IdCall.prog : IdCall → Handler (Except String (UInt64 × UInt64))
  | .allocate type => do
      match ← allocateInodeId type with
      | .error e => return .error e
      | .ok id => return .ok (id, id)
  | .importTemplate request => importTemplateNamespace request

/-! ## What a call has taken -/

/-- What a call has seen of the counter, how many ids it wants, and the ids it has
    taken. -/
structure IdView where
  seen : Option UInt64 := none
  wanted : UInt64 := 1
  taken : Option (UInt64 × UInt64) := none

def IdView.step (v : IdView) : (Σ o : MdsOp, o.Res) → IdView
  | ⟨.get .nextInode, r⟩ => { v with seen := (nextInodeId r).toOption }
  | ⟨.put .nextInode value, .ok ()⟩ =>
      { v with taken := v.seen.bind fun first =>
          (decodeUInt64 value).map fun next => (first, next - 1) }
  | ⟨.ask (.loadTemplate _), .ok manifest⟩ => { v with wanted := manifest.inodeCount }
  | ⟨.ask (.publishGeneration request first last), .ok ()⟩ =>
      if request.inodeStart ≠ 0 then { v with taken := some (first, last) } else v
  | _ => v

def idView (h : MdsHistory) : IdView := h.foldl IdView.step {}

theorem idView_snoc (h : MdsHistory) (x : Σ o : MdsOp, o.Res) :
    idView (h ++ [x]) = (idView h).step x := List.foldl_append

/-! ## The rules of the calls -/

/-- Only the counter is written, right after it was read, by as much as the call
    wants. -/
def IdRule (h : MdsHistory) : MdsOp → Prop
  | .put .nextInode value => ∃ h' r next, h = h' ++ [⟨.get .nextInode, r⟩] ∧
      nextInodeId r = .ok next ∧ (idView h').wanted ≠ 0 ∧
      value = encodeUInt64 (next + (idView h').wanted)
  | .put _ _ | .writeBatch _ | .writeBatchIfValueEquals _ _ _ => False
  | _ => True

/-- The ids a call answers are the ones it has taken. -/
def IdReturn (reply : Except String (UInt64 × UInt64)) (h : MdsHistory) : Prop :=
  ∀ t, reply = .ok t → (idView h).taken = some t

section Follows

variable {h : MdsHistory}

theorem idReturn_error {e : String} : IdReturn (.error e) h := by
  rintro t ⟨⟩

/-- A write of the counter after its read. -/
theorem follows_storeNextInode {r : Except String Bytes} {next count : UInt64}
    {Q : Except String UInt64 → MdsHistory → Prop} (hnext : nextInodeId r = .ok next)
    (hcount : count ≠ 0) (hwanted : (idView h).wanted = count)
    (hfail : ∀ e d, Q (.error e) (h ++ d))
    (hok : ∀ d, idView (h ++ d) = { idView h with
      seen := some next
      taken := some (next, next + count - 1) } → Q (.ok next) (h ++ d)) :
    Follows IdRule (storeNextInode next count) Q (h ++ [⟨.get .nextInode, r⟩]) := by
  refine follows_op.mpr ⟨⟨h, r, next, rfl, hnext, hwanted ▸ hcount, by rw [hwanted]⟩, fun a => ?_⟩
  rw [List.append_assoc]
  cases a with
  | error e => exact hfail e _
  | ok u =>
      refine hok _ ?_
      rw [← List.append_assoc, idView_snoc, idView_snoc]
      simp [IdView.step, hnext, Except.toOption, decodeUInt64_encodeUInt64]

theorem follows_reserveInodeRange {count : UInt64} {Q : Except String UInt64 → MdsHistory → Prop}
    (hwanted : (idView h).wanted = count) (hfail : ∀ e d, Q (.error e) (h ++ d))
    (hok : ∀ next d, idView (h ++ d) = { idView h with
      seen := some next
      taken := some (next, next + count - 1) } → Q (.ok next) (h ++ d)) :
    Follows IdRule (reserveInodeRange count) Q h := by
  unfold reserveInodeRange
  split
  · simpa using hfail "invalid masstree inode range reservation args" []
  · next hcount =>
      refine follows_op.mpr ⟨trivial, fun r => ?_⟩
      cases r with
      | ok value =>
          cases hdec : decodeUInt64 value with
          | none => simpa [hdec] using hfail "invalid next inode value" [_]
          | some next =>
              simp only [hdec]
              refine follows_storeNextInode ?_ hcount hwanted hfail (hok next)
              simp [nextInodeId, hdec]
      | error e =>
          by_cases he : e = ""
          · simp only [he, ne_eq, not_true_eq_false, if_false]
            exact follows_storeNextInode rfl hcount hwanted hfail (hok _)
          · simpa [he] using hfail e [_]

theorem follows_allocate {type : InodeType} :
    Follows IdRule (IdCall.allocate type).prog IdReturn [] := by
  refine follows_bind.mpr ?_
  unfold allocateInodeId
  split
  · exact idReturn_error
  refine follows_withLock trivial (fun _ => trivial) (follows_op.mpr ⟨trivial, fun r => ?_⟩)
  cases hnext : nextInodeId r with
  | error e => exact idReturn_error
  | ok next =>
      show Follows IdRule (storeNextInode next 1) _ _
      refine follows_storeNextInode hnext (by decide) rfl (fun e d => idReturn_error) fun d hd => ?_
      rintro t ⟨⟩
      rw [idView_snoc, hd, UInt64.add_sub_cancel]
      rfl

/-- The ids of an import, as the template numbers them. -/
theorem importFrom_range (manifest : TemplateManifest) (start : UInt64) :
    manifest.inodeMin + (start - manifest.inodeMin) = start ∧
    manifest.inodeMax + (start - manifest.inodeMin) = start + manifest.inodeCount - 1 := by
  have hmax : manifest.inodeMax = manifest.inodeMin + manifest.inodeCount - 1 := by
    apply UInt64.toNat_inj.mp
    have hnumbered := manifest.numbered
    have hlt := manifest.inodeMax.toNat_lt
    rw [UInt64.toNat_sub, UInt64.toNat_add, hnumbered]
    simp only [UInt64.toNat_one]
    omega
  refine ⟨?_, ?_⟩
  · rw [UInt64.add_comm, UInt64.sub_add_cancel]
  · rw [hmax]
    grind

theorem follows_importFrom {request : TemplateImportRequest} {manifest : TemplateManifest}
    {start : UInt64} {m : Mutex}
    (htaken : request.inodeStart = 0 →
      (idView h).taken = some (start, start + manifest.inodeCount - 1)) :
    Follows IdRule (importFrom request manifest start)
      (fun a h' => IdReturn a (h' ++ [⟨.unlock m, ()⟩])) h := by
  refine follows_op.mpr ⟨trivial, fun r => ?_⟩
  obtain ⟨hfirst, hlast⟩ := importFrom_range manifest start
  cases r with
  | error e => exact idReturn_error
  | ok u =>
      rintro t ⟨⟩
      rw [idView_snoc, idView_snoc]
      by_cases hstart : request.inodeStart = 0
      · simp [IdView.step, hstart, hfirst, hlast, htaken hstart]
      · simp [IdView.step, hstart]

theorem follows_importTemplateNamespace {request : TemplateImportRequest} :
    Follows IdRule (importTemplateNamespace request) IdReturn [] := by
  refine follows_withLock trivial (fun _ => trivial) (follows_op.mpr ⟨trivial, fun r => ?_⟩)
  cases r with
  | error e => exact idReturn_error
  | ok manifest =>
      simp only
      split
      · refine follows_bind.mpr (follows_reserveInodeRange rfl (fun e d => idReturn_error) ?_)
        intro next d hd
        exact follows_importFrom fun _ => by rw [hd]
      · next hstart => exact follows_importFrom fun h => absurd h hstart

theorem IdCall.follows_prog (c : IdCall) : Follows IdRule c.prog IdReturn [] := by
  cases c with
  | allocate type => exact follows_allocate
  | importTemplate request => exact follows_importTemplateNamespace

end Follows

/-- The next id to be given out, if the counter can be read. -/
def counterOf (db : MetaMap) : Nat :=
  match nextInodeId (db.read .nextInode) with
  | .ok next => next.toNat
  | .error _ => 0

variable {ι : Type} [DecidableEq ι]

/-- The ids that the caller of an import named, once they are imported. -/
def MdsOp.named? : (o : MdsOp) → o.Res → Option (UInt64 × UInt64)
  | .ask (.publishGeneration request first last), .ok () =>
      if request.inodeStart ≠ 0 then some (first, last) else none
  | _, _ => none

/-- The counter is written only by a call that no other overtook since its read,
    and does not wrap around; a range that the caller names lies below the counter
    and is not taken. -/
def Separate (w : MdsWorld ι) (i : ι) (o : MdsOp) (r : o.Res) : Prop :=
  (.nextInode ∈ (o.writes r).map BatchEntry.key →
    (∀ e ∈ sinceLast i w.trace, .nextInode ∉ (writesOf e).map BatchEntry.key) ∧
    counterOf w.state.db + (idView (own i w.trace)).wanted.toNat < 2 ^ 64) ∧
  ∀ t ∈ o.named? r, t.1 ≤ t.2 ∧ t.2.toNat < counterOf w.state.db ∧
    ∀ e ∈ w.trace, ∀ u ∈ (idView (own e.tid w.trace)).taken, t.2 < u.1 ∨ u.2 < t.1

instance (w : MdsWorld ι) (i : ι) (o : MdsOp) (r : o.Res) : Decidable (Separate w i o r) :=
  inferInstanceAs (Decidable ((.nextInode ∈ (o.writes r).map BatchEntry.key →
    (∀ e ∈ sinceLast i w.trace, .nextInode ∉ (writesOf e).map BatchEntry.key) ∧
    counterOf w.state.db + (idView (own i w.trace)).wanted.toNat < 2 ^ 64) ∧
  ∀ t ∈ o.named? r, t.1 ≤ t.2 ∧ t.2.toNat < counterOf w.state.db ∧
    ∀ e ∈ w.trace, ∀ u ∈ (idView (own e.tid w.trace)).taken, t.2 < u.1 ∨ u.2 < t.1))

/-! ## Runs -/

/-- A step takes ids off the counter, or takes the ids its caller named, or takes
    nothing and leaves the store as it is. -/
theorem taken_cases {h : MdsHistory} {o : MdsOp} {r : o.Res} (hrule : IdRule h o) (v : IdView) :
    (∃ value, (⟨o, r⟩ : Σ o : MdsOp, o.Res) = ⟨.put .nextInode value, .ok ()⟩) ∨
    (∃ request first last, request.inodeStart ≠ 0 ∧
      (⟨o, r⟩ : Σ o : MdsOp, o.Res) = ⟨.ask (.publishGeneration request first last), .ok ()⟩) ∨
    (o.writes r = [] ∧ (v.step ⟨o, r⟩).taken = v.taken) := by
  cases o with
  | get k => cases k <;> exact .inr (.inr ⟨rfl, rfl⟩)
  | put k value =>
      cases k with
      | nextInode =>
          cases r with
          | error e => exact .inr (.inr ⟨rfl, rfl⟩)
          | ok u => exact .inl ⟨value, rfl⟩
      | _ => exact hrule.elim
  | writeBatch batch => exact hrule.elim
  | writeBatchIfValueEquals k expected batch => exact hrule.elim
  | ask q =>
      cases q with
      | loadTemplate request => cases r <;> exact .inr (.inr ⟨rfl, rfl⟩)
      | publishGeneration request first last =>
          cases r with
          | error e => exact .inr (.inr ⟨rfl, rfl⟩)
          | ok u =>
              by_cases hstart : request.inodeStart = 0
              · exact .inr (.inr ⟨rfl, by simp [IdView.step, hstart]⟩)
              · exact .inr (.inl ⟨request, first, last, hstart, rfl⟩)
      | _ => exact .inr (.inr ⟨rfl, rfl⟩)
  | _ => exact .inr (.inr ⟨rfl, rfl⟩)

section Runs

variable {calls : ι → IdCall} {s₀ : MdsState ι} {w : MdsWorld ι}
  {pool : ι → Handler (Except String (UInt64 × UInt64))}

/-- The ids thread `i` has taken. -/
def takenBy (i : ι) (t : List (MdsEvent ι)) : Option (UInt64 × UInt64) := (idView (own i t)).taken

/-- What a call that writes the counter has read is the counter. -/
theorem counter_of_put (h : Steps (mdsMachine Separate) s₀ (fun i => (calls i).prog) w pool) {i : ι}
    {value : Bytes} (hrule : IdRule (own i w.trace) (.put .nextInode value))
    (hmay : Separate w i (.put .nextInode value) (.ok ())) :
    ∃ next wanted : UInt64, next.toNat = counterOf w.state.db ∧ wanted ≠ 0 ∧
      next.toNat + wanted.toNat < 2 ^ 64 ∧ value = encodeUInt64 (next + wanted) ∧
      (idView (own i w.trace)).seen = some next := by
  obtain ⟨h', r, next, hown, hnext, hwanted, rfl⟩ := hrule
  obtain ⟨hfree, hroom⟩ := hmay.1 (by simp [MdsOp.writes, BatchEntry.key])
  have hlast : own i w.trace = h' ++ ⟨.get .nextInode, r⟩ :: [] := hown
  obtain ⟨t₁, t₂, hsplit, -, hown₂⟩ := split_of_own hlast
  rw [hsplit, sinceLast_eq hown₂] at hfree
  have hread : r = w.state.db.read .nextInode := by
    rcases Steps.read_or_set h hsplit with ⟨e, he, rfl⟩ | hread | ⟨e, hmem, hset⟩
    · simp [nextInodeId, he] at hnext
    · exact hread
    · obtain ⟨x, hx, hkey⟩ := hset.exists_key
      exact absurd (List.mem_map.mpr ⟨x, hx, hkey⟩) (hfree e hmem)
  have hcounter : counterOf w.state.db = next.toNat := by
    rw [counterOf, ← hread, hnext]
  have hview : idView (own i w.trace) = { idView h' with seen := some next } := by
    rw [hown, idView_snoc]
    simp [IdView.step, hnext, Except.toOption]
  rw [hview, hcounter] at hroom
  exact ⟨next, _, hcounter.symm, hwanted, hroom, rfl, by rw [hview]⟩

theorem mem_trace_of_takenBy {j : ι} {t : List (MdsEvent ι)} {x : UInt64 × UInt64}
    (h : takenBy j t = some x) : ∃ e ∈ t, e.tid = j := by
  by_contra hnone
  have hown : own j t = [] := by
    refine List.filterMap_eq_nil_iff.mpr fun e he => if_neg fun heq => hnone ⟨e, he, heq⟩
  rw [takenBy, hown] at h
  cases h

/-- What a step of thread `i` does to the counter and to the ids the thread has. -/
inductive IdStep (w : MdsWorld ι) (i : ι) (db : MetaMap) (taken : Option (UInt64 × UInt64)) : Prop
  | idle : counterOf db = counterOf w.state.db → taken = takenBy i w.trace → IdStep w i db taken
  | counted {first last : UInt64} : first.toNat = counterOf w.state.db → first ≤ last →
      counterOf db = last.toNat + 1 → taken = some (first, last) → IdStep w i db taken
  | named {first last : UInt64} : counterOf db = counterOf w.state.db → first ≤ last →
      last.toNat < counterOf w.state.db →
      (∀ j t, takenBy j w.trace = some t → last < t.1 ∨ t.2 < first) →
      taken = some (first, last) → IdStep w i db taken

theorem idStep_of_step (h : Steps (mdsMachine Separate) s₀ (fun i => (calls i).prog) w pool) {i : ι}
    {o : MdsOp} {r : o.Res} {s : MdsState ι} (hrule : IdRule (own i w.trace) o)
    (hsem : o.Sem i w.state r s) (hmay : Separate w i o r) :
    IdStep w i s.db (takenBy i (w.trace ++ [⟨i, o, r⟩])) := by
  have hdb := MdsOp.Sem.db_eq hsem
  have htaken : takenBy i (w.trace ++ [⟨i, o, r⟩]) =
      ((idView (own i w.trace)).step ⟨o, r⟩).taken := by
    rw [takenBy, own_snoc_self, idView_snoc]
  rcases taken_cases (r := r) hrule (idView (own i w.trace)) with
    ⟨value, heq⟩ | ⟨request, first, last, hstart, heq⟩ | ⟨hwrites, hsame⟩
  · cases heq
    obtain ⟨next, wanted, hnext, hwanted, hroom, rfl, hseen⟩ := counter_of_put h hrule hmay
    have hpos : 0 < wanted.toNat := Nat.pos_of_ne_zero fun hzero =>
      hwanted (UInt64.toNat_inj.mp hzero)
    have hsum : (next + wanted).toNat = next.toNat + wanted.toNat := by
      rw [UInt64.toNat_add, Nat.mod_eq_of_lt hroom]
    have hlast : (next + wanted - 1).toNat = next.toNat + wanted.toNat - 1 := by
      have hone : (1 : UInt64) ≤ next + wanted := by
        rw [UInt64.le_iff_toNat_le, hsum, UInt64.toNat_one]
        omega
      rw [UInt64.toNat_sub_of_le _ _ hone, hsum, UInt64.toNat_one]
    refine .counted hnext (?_ : next ≤ next + wanted - 1) ?_ ?_
    · rw [UInt64.le_iff_toNat_le, hlast]
      omega
    · rw [hdb, counterOf, hlast]
      simp [MetaMap.read, nextInodeId, decodeUInt64_encodeUInt64, hsum]
      omega
    · rw [htaken]
      simp [IdView.step, hseen, decodeUInt64_encodeUInt64]
  · cases heq
    obtain ⟨hle, hbelow, hapart⟩ := hmay.2 (first, last) (by simp [MdsOp.named?, hstart])
    refine .named ?_ hle hbelow (fun j t htaken' => ?_) ?_
    · rw [hdb]
      rfl
    · obtain ⟨e, he, rfl⟩ := mem_trace_of_takenBy htaken'
      exact hapart e he t htaken'
    · rw [htaken]
      simp [IdView.step, hstart]
  · refine .idle ?_ (htaken.trans hsame)
    rw [hdb, hwrites, MetaMap.write_nil]

/-- The ids that calls have taken lie below the counter, and no id is taken twice. -/
structure DistinctIds (w : MdsWorld ι) : Prop where
  below : ∀ i t, takenBy i w.trace = some t → t.1 ≤ t.2 ∧ t.2.toNat < counterOf w.state.db
  apart : ∀ i j t u, i ≠ j → takenBy i w.trace = some t → takenBy j w.trace = some u →
    t.2 < u.1 ∨ u.2 < t.1

theorem takenBy_push_of_ne {i j : ι} {o : MdsOp} {r : o.Res} {s : MdsState ι} (hij : j ≠ i) :
    takenBy j (w.push i o r s).trace = takenBy j w.trace := by
  rw [takenBy, World.push_trace, own_snoc_of_ne hij.symm, takenBy]

theorem DistinctIds.step (h : DistinctIds w) {i : ι} {o : MdsOp} {r : o.Res} {s : MdsState ι}
    (hstep : IdStep w i s.db (takenBy i (w.trace ++ [⟨i, o, r⟩]))) :
    DistinctIds (w.push i o r s) := by
  -- ids of the moving thread against those of the others
  have hfrom : (∀ t, takenBy i (w.push i o r s).trace = some t →
        t.1 ≤ t.2 ∧ t.2.toNat < counterOf s.db) →
      counterOf w.state.db ≤ counterOf s.db →
      (∀ t j u, j ≠ i → takenBy i (w.push i o r s).trace = some t →
        takenBy j w.trace = some u → t.2 < u.1 ∨ u.2 < t.1) → DistinctIds (w.push i o r s) := by
    intro hown hgrows hothers
    refine ⟨fun j t ht => ?_, fun j k t u hjk ht hu => ?_⟩
    · by_cases hj : j = i
      · exact hown t (hj ▸ ht)
      · rw [takenBy_push_of_ne hj] at ht
        obtain ⟨hle, hlt⟩ := h.below j t ht
        exact ⟨hle, hlt.trans_le hgrows⟩
    · by_cases hj : j = i
      · subst hj
        rw [takenBy_push_of_ne hjk.symm] at hu
        exact hothers t k u hjk.symm ht hu
      · rw [takenBy_push_of_ne hj] at ht
        by_cases hk : k = i
        · subst hk
          exact (hothers u j t hj hu ht).symm
        · rw [takenBy_push_of_ne hk] at hu
          exact h.apart j k t u hjk ht hu
  cases hstep with
  | idle hcounter hsame =>
      have hsame : takenBy i (w.push i o r s).trace = takenBy i w.trace := hsame
      refine hfrom (fun t ht => ?_) hcounter.ge fun t j u hj ht hu => ?_
      · rw [hcounter]
        exact h.below i t (hsame ▸ ht)
      · exact h.apart i j t u hj.symm (hsame ▸ ht) hu
  | @counted first last hfirst hle hcounter htaken =>
      have hlast : first.toNat ≤ last.toNat := UInt64.le_iff_toNat_le.mp hle
      refine hfrom (fun t ht => ?_) (by omega) fun t j u hj ht hu => ?_
      · cases ht.symm.trans htaken
        exact ⟨hle, by rw [hcounter]; exact Nat.lt_succ_self _⟩
      · cases ht.symm.trans htaken
        -- what others have lies below the counter
        have hbelow := (h.below j u hu).2
        exact .inr (UInt64.lt_iff_toNat_lt.mpr (hfirst ▸ hbelow))
  | @named first last hcounter hle hbelow hapart htaken =>
      refine hfrom (fun t ht => ?_) hcounter.ge fun t j u hj ht hu => ?_
      · cases ht.symm.trans htaken
        exact ⟨hle, hcounter ▸ hbelow⟩
      · cases ht.symm.trans htaken
        exact hapart j u hu

theorem IdStep.counter_le {i : ι} {db : MetaMap} {taken : Option (UInt64 × UInt64)}
    (h : IdStep w i db taken) : counterOf w.state.db ≤ counterOf db := by
  cases h with
  | idle hcounter => exact hcounter.ge
  | counted hfirst hle hcounter =>
      have hlast := UInt64.le_iff_toNat_le.mp hle
      omega
  | named hcounter => exact hcounter.ge

/-- What every state of a run satisfies: no id is taken twice, and the counter was
    never above what it is. -/
structure IdsSafe (s₀ : MdsState ι) (w : MdsWorld ι) : Prop where
  distinct : DistinctIds w
  counter : ∀ t₁ t₂, w.trace = t₁ ++ t₂ →
    counterOf (s₀.db.write (t₁.flatMap writesOf)) ≤ counterOf w.state.db

theorem idsSafe_of_steps
    (h : Steps (mdsMachine Separate) s₀ (fun i => (calls i).prog) w pool) : IdsSafe s₀ w := by
  refine Steps.invariant (IdsSafe s₀) (fun i => (calls i).follows_prog) ?_ ?_ h
  · refine ⟨⟨?_, ?_⟩, fun t₁ t₂ ht => ?_⟩
    · rintro i t ⟨⟩
    · rintro i j t u - ⟨⟩
    · obtain ⟨rfl, -⟩ := List.nil_eq_append_iff.mp ht
      exact le_rfl
  · intro w pool i o r s hsteps ih hrule hsem hmay
    have hsafe := ih hsteps le_rfl
    have hstep := idStep_of_step hsteps hrule hsem hmay
    refine ⟨hsafe.distinct.step hstep, fun t₁ t₂ ht => ?_⟩
    rcases List.eq_nil_or_concat t₂ with rfl | ⟨t₂', e, rfl⟩
    · have hdb : s.db = s₀.db.write (t₁.flatMap writesOf) := by
        rw [List.append_nil] at ht
        rw [MdsOp.Sem.db_eq hsem, Steps.db_eq hsteps, ← ht, World.push_trace, List.flatMap_append,
          MetaMap.write_append]
        simp [writesOf]
      exact (congrArg counterOf hdb).ge
    · rw [List.concat_eq_append, ← List.append_assoc] at ht
      obtain ⟨hinitial, -⟩ := List.append_inj' ht rfl
      exact (hsafe.counter t₁ t₂' hinitial).trans hstep.counter_le

theorem taken_of_result (h : Steps (mdsMachine Separate) s₀ (fun i => (calls i).prog) w pool) {i : ι}
    {t : UInt64 × UInt64} (hresult : (pool i).result? = some (.ok t)) :
    takenBy i w.trace = some t := by
  have hfollows := h.follows (fun i => (calls i).follows_prog) i
  rw [eq_ret_of_result? hresult] at hfollows
  exact hfollows t rfl

/-- Allocations and imports give out no id twice, and the counter never goes back. -/
theorem ids_never_shared (h : Steps (mdsMachine Separate) s₀ (fun i => (calls i).prog) w pool) :
    (∀ i t, (pool i).result? = some (.ok t) → t.1 ≤ t.2) ∧
    (∀ i j t u, i ≠ j → (pool i).result? = some (.ok t) → (pool j).result? = some (.ok u) →
      t.2 < u.1 ∨ u.2 < t.1) ∧
    ∀ w₁ pool₁, Steps (mdsMachine Separate) s₀ (fun i => (calls i).prog) w₁ pool₁ →
      w₁.trace <+: w.trace → counterOf w₁.state.db ≤ counterOf w.state.db := by
  have hsafe := idsSafe_of_steps h
  refine ⟨fun i t ht => ?_, fun i j t u hij ht hu => ?_, ?_⟩
  · exact (hsafe.distinct.below i t (taken_of_result h ht)).1
  · exact hsafe.distinct.apart i j t u hij (taken_of_result h ht) (taken_of_result h hu)
  · rintro w₁ pool₁ h₁ ⟨t₂, hsplit⟩
    rw [Steps.db_eq h₁]
    exact hsafe.counter w₁.trace t₂ hsplit.symm

end Runs

/-- A template of five inodes, of which every import succeeds. -/
def importOracle : Oracle where
  answer
    | .loadTemplate _ => .ok ⟨1, 5, 5, by decide⟩
    | .publishGeneration _ _ _ => .ok ()
    | q => silentOracle.answer q

/-- An allocation and an import that takes its ids from the counter. -/
def allocationAndImport : Bool → IdCall
  | false => .allocate .file
  | true => .importTemplate {}

def noIds : MdsState Bool := ⟨∅, fun _ => none, []⟩

theorem ids_apart_one_after_the_other : ∃ w pool,
    Steps (mdsMachine Separate) noIds (fun i => (allocationAndImport i).prog) w pool ∧
      (pool false).result? = some (.ok (2, 2)) ∧ (pool true).result? = some (.ok (3, 7)) ∧
      ((2 : UInt64) < 3 ∨ (7 : UInt64) < 2) := by
  have hrun : (schedule importOracle Separate noIds (fun i => (allocationAndImport i).prog)
      [false, false, false, false, true, true, true, true, true, true]).map
        (fun p => ((p.2 false).result?, (p.2 true).result?)) =
      some (some (.ok (2, 2)), some (.ok (3, 7))) := by
    decide +kernel
  obtain ⟨⟨w, pool⟩, hw, hresults⟩ := Option.map_eq_some_iff.mp hrun
  obtain ⟨hfirst, hsecond⟩ := Prod.mk.inj hresults
  have hsteps := steps_of_schedule hw
  exact ⟨w, pool, hsteps, hfirst, hsecond,
    (ids_never_shared hsteps).2.1 false true _ _ (by decide) hfirst hsecond⟩

/-- The import reads the counter before the allocation writes it: both hand out the
    second id. -/
theorem id_given_twice : ∃ w pool,
    Steps (mdsMachine fun _ _ _ _ => True) noIds (fun i => (allocationAndImport i).prog) w pool ∧
      (pool false).result? = some (.ok (2, 2)) ∧ (pool true).result? = some (.ok (2, 6)) := by
  have hrun : (schedule importOracle (fun _ _ _ _ => True) noIds
      (fun i => (allocationAndImport i).prog)
      [true, true, true, false, false, false, false, true, true, true]).map
        (fun p => ((p.2 false).result?, (p.2 true).result?)) =
      some (some (.ok (2, 2)), some (.ok (2, 6))) := by
    decide +kernel
  obtain ⟨⟨w, pool⟩, hw, hresults⟩ := Option.map_eq_some_iff.mp hrun
  obtain ⟨hfirst, hsecond⟩ := Prod.mk.inj hresults
  exact ⟨w, pool, steps_of_schedule hw, hfirst, hsecond⟩

end Zb.Mds
