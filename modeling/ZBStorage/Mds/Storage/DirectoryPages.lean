-- SUMMARY: The pages of a directory: pages of any sizes list every child once, and the whole scan over them.
import ZBStorage.Mds.Storage.SubtreeScan

/-!
# The pages of a directory

`Readdir` walks the dentries of a directory from the token on. Over a store that
does not change and answers every read, a page is the next dentries in order, as
many as the limit lets it, with the name of the last one as token for the page
after it.
-/

namespace Zb.Mds

open Zb.Rpc Bytes Handler

variable {ι : Type} [DecidableEq ι] {env : Oracle} {i : ι} {s : MdsState ι} {parent : UInt64}
  {token path : Bytes} {limit : UInt32} {listing : List Dentry}

theorem dentry_of_match {k : MetaKey} {v : k.Value} {stored : Bytes × Bytes}
    (h : (match (⟨k, v⟩ : Sigma MetaKey.Value) with
      | ⟨.dentry p name, v⟩ => if p = parent then some (name, v) else none
      | _ => none) = some stored) : k = .dentry parent stored.1 := by
  cases k with
  | dentry p name =>
      simp only at h
      split at h
      · rename_i hp
        cases h
        rw [hp]
      · exact nomatch h
  | _ => exact nomatch h

/-- An iterator meets the dentries of a directory in the order of their names. -/
theorem dentries_sorted (db : MetaMap) (parent : UInt64) :
    (db.dentries parent).Pairwise fun a b => a.1 < b.1 := by
  have : Std.Total (fun a b : Bytes × Bytes => a.1 ≤ b.1) := ⟨fun a b => List.le_total a.1 b.1⟩
  have : IsTrans _ (fun a b : Bytes × Bytes => a.1 ≤ b.1) := ⟨fun _ _ _ => List.le_trans⟩
  have hsorted : (db.dentries parent).Pairwise fun a b => a.1 ≤ b.1 :=
    List.pairwise_insertionSort _ _
  have hkeys : db.entries.Pairwise fun a b => a.1 ≠ b.1 := List.pairwise_map.mp db.nodupKeys
  have hnames : (db.dentries parent).Pairwise fun a b => a.1 ≠ b.1 := by
    refine ((List.perm_insertionSort _ _).pairwise_iff Ne.symm).mpr ?_
    refine List.pairwise_filterMap.mpr (hkeys.imp fun {a b} hne x hx y hy heq => hne ?_)
    rw [dentry_of_match hx, dentry_of_match hy, heq]
  refine (hsorted.and hnames).imp fun {a b} h => ?_
  exact List.not_le.mp fun hle => h.2 (List.le_antisymm h.1 hle)

/-- The store answers every read of the directory with the dentries of the listing. -/
structure ReadsListing (env : Oracle) (i : ι) (s : MdsState ι) (parent : UInt64)
    (listing : List Dentry) : Prop where
  reads : List.Forall₂ (fun (stored : Bytes × Bytes) (entry : Dentry) =>
    entry.name = stored.1 ∧ stored.1 ≠ [] ∧ decodeUInt64 stored.2 = some entry.inodeId ∧
      ∃ attr, Prog.run (MdsOp.exec env i) (MetaStoreRouter.getInode entry.inodeId) s =
        some (.ok attr, s) ∧ attr.type = entry.type) (s.db.dentries parent) listing

/-- A page that follows the token. -/
structure IsPage (listing : List Dentry) (token : Bytes) (limit : UInt32) (page : ReaddirPage) :
    Prop where
  entries : page.entries = if limit = 0 then afterToken Dentry.name token listing
    else (afterToken Dentry.name token listing).take limit.toNat
  hasMore : page.hasMore = true ↔
    limit ≠ 0 ∧ limit.toNat < (afterToken Dentry.name token listing).length
  nextToken : ∀ last ∈ page.entries.getLast?, page.nextToken = last.name

/-! ## One page -/

/-- The dentries that a read with this many places left takes. -/
def pageOf (limit : UInt32) (taken : Nat) (later : List Dentry) : List Dentry :=
  if limit = 0 then later else later.take (limit.toNat - taken)

/-- What the loop makes of the rest of a directory. -/
structure LoopResult (limit : UInt32) (page page' : ReaddirPage) (later : List Dentry) : Prop where
  entries : page'.entries = page.entries ++ pageOf limit page.entries.length later
  hasMore : page'.hasMore = true ↔ limit ≠ 0 ∧ limit.toNat - page.entries.length < later.length
  nextToken : page'.nextToken =
    (((pageOf limit page.entries.length later).getLast?).map Dentry.name).getD page.nextToken

theorem LoopResult.cons {page page' : ReaddirPage} {entry : Dentry} {later : List Dentry}
    (hroom : limit ≠ 0 → page.entries.length + 1 < limit.toNat)
    (h : LoopResult limit ⟨page.entries ++ [entry], false, entry.name⟩ page' later) :
    LoopResult limit page page' (entry :: later) := by
  have hlength : (page.entries ++ [entry]).length = page.entries.length + 1 := List.length_append
  have hpage : pageOf limit page.entries.length (entry :: later) =
      entry :: pageOf limit (page.entries.length + 1) later := by
    unfold pageOf
    split
    · rfl
    · rename_i hne
      have hmore := hroom hne
      have htake : limit.toNat - page.entries.length =
          limit.toNat - (page.entries.length + 1) + 1 := by omega
      rw [htake, List.take_succ_cons]
  refine ⟨?_, ?_, ?_⟩
  · rw [h.entries, hpage, hlength, List.append_assoc]
    rfl
  · rw [h.hasMore, hlength]
    refine and_congr_right fun hne => ?_
    have hmore := hroom hne
    rw [List.length_cons]
    omega
  · rw [h.nextToken, hpage, hlength, List.getLast?_cons, Option.map_some, Option.getD_some]
    rcases (pageOf limit (page.entries.length + 1) later).getLast? with _ | last
    · rfl
    · rfl

theorem lt_iff_not_skipped {name : Bytes} (hname : name ≠ []) :
    token < name ↔ ¬(token ≠ [] ∧ name ≤ token) := by
  constructor
  · exact fun hlt hskip => List.not_le.mpr hlt hskip.2
  · intro h
    rcases eq_or_ne token [] with rfl | hne
    · obtain ⟨b, rest, rfl⟩ := List.exists_cons_of_ne_nil hname
      exact List.nil_lt_cons b rest
    · exact List.not_le.mp fun hle => h ⟨hne, hle⟩

theorem names_eq {P : Bytes × Bytes → Dentry → Prop} {stored : List (Bytes × Bytes)}
    (h : List.Forall₂ (fun stored entry => entry.name = stored.1 ∧ P stored entry) stored listing) :
    listing.map Dentry.name = stored.map Prod.fst := by
  induction h with
  | nil => rfl
  | cons hhead _ ih => rw [List.map_cons, List.map_cons, ih, hhead.1]

/-- The loop over the dentries that are left, with places left on the page. -/
theorem run_readdirLoop {stored : List (Bytes × Bytes)}
    (h : List.Forall₂ (fun (stored : Bytes × Bytes) (entry : Dentry) =>
      entry.name = stored.1 ∧ stored.1 ≠ [] ∧ decodeUInt64 stored.2 = some entry.inodeId ∧
        ∃ attr, Prog.run (MdsOp.exec env i) (MetaStoreRouter.getInode entry.inodeId) s =
          some (.ok attr, s) ∧ attr.type = entry.type) stored listing)
    (hsorted : stored.Pairwise fun a b => a.1 < b.1) (page : ReaddirPage)
    (hmore : page.hasMore = false) (hroom : limit ≠ 0 → page.entries.length < limit.toNat) :
    ∃ page', Prog.run (MdsOp.exec env i)
        (readdirLoop MetaStoreRouter.getInode token limit page stored) s = some (.ok page', s) ∧
      LoopResult limit page page' (afterToken Dentry.name token listing) := by
  induction h generalizing page with
  | nil =>
      have hnone : pageOf limit page.entries.length [] = [] := by
        unfold pageOf
        split
        · rfl
        · exact List.take_nil
      refine ⟨page, rfl, ?_, ?_, ?_⟩
      · exact hnone.symm ▸ (List.append_nil _).symm
      · rw [hmore]
        exact iff_of_false Bool.false_ne_true fun h => absurd h.2 (Nat.not_lt_zero _)
      · exact hnone.symm ▸ rfl
  | @cons head entry stored listing hhead htail ih =>
      obtain ⟨hname, hne, hdecode, attr, hread, htype⟩ := hhead
      obtain ⟨name, value⟩ := head
      have hname : entry.name = name := hname
      obtain ⟨hfirst, hrest⟩ := List.pairwise_cons.mp hsorted
      rw [readdirLoop]
      by_cases hskip : token ≠ [] ∧ name ≤ token
      · have hnot : ¬decide (token < entry.name) = true := fun hlt =>
          (lt_iff_not_skipped hne).mp (hname ▸ of_decide_eq_true hlt) hskip
        obtain ⟨page', hrun, hresult⟩ := ih hrest page hmore hroom
        refine ⟨page', ?_, ?_⟩
        · rw [if_pos hskip]
          exact hrun
        · rw [afterToken, List.filter_cons_of_neg (p := fun d : Dentry => decide (token < d.name)) hnot]
          exact hresult
      · have hlt : token < entry.name := hname ▸ (lt_iff_not_skipped hne).mpr hskip
        have hafter : afterToken Dentry.name token (entry :: listing) =
            entry :: afterToken Dentry.name token listing :=
          List.filter_cons_of_pos (decide_eq_true hlt)
        have hentry : (⟨name, entry.inodeId, attr.type⟩ : Dentry) = entry := by
          obtain ⟨entryName, inodeId, type⟩ := entry
          cases hname
          cases htype
          rfl
        rw [if_neg hskip, hafter]
        simp only [hdecode]
        rw [Prog.run_bind, hread, Option.bind_some]
        simp only [hentry]
        have hlength : (page.entries ++ [entry]).length = page.entries.length + 1 :=
          List.length_append
        split
        · rename_i hfull
          rw [hlength] at hfull
          have hne0 : limit ≠ 0 := fun h0 => by
            rw [h0] at hfull
            exact absurd hfull.1 (by decide)
          have hroom' := hroom hne0
          have hone : limit.toNat - page.entries.length = 1 := by
            have hge := hfull.2
            omega
          have hpage : pageOf limit page.entries.length
              (entry :: afterToken Dentry.name token listing) = [entry] := by
            rw [pageOf, if_neg hne0, hone]
            rfl
          refine ⟨_, rfl, ?_, ?_, ?_⟩
          · rw [hpage]
          · have hnames := names_eq htail
            have hall : afterToken Dentry.name token listing = listing := by
              refine List.filter_eq_self.mpr fun later hlater => decide_eq_true ?_
              have hmem : later.name ∈ stored.map Prod.fst :=
                hnames ▸ List.mem_map.mpr ⟨later, hlater, rfl⟩
              obtain ⟨other, hother, hsame⟩ := List.mem_map.mp hmem
              exact List.lt_trans hlt (hsame ▸ hname ▸ hfirst other hother)
            have hlength' : listing.length = stored.length := by
              have hlen := congrArg List.length hnames
              rwa [List.length_map, List.length_map] at hlen
            rw [hall, hone, List.length_cons, hlength']
            simp only [List.any_eq_true, decide_eq_true_iff]
            constructor
            · rintro ⟨other, hother, _⟩
              exact ⟨hne0, Nat.succ_lt_succ (List.length_pos_of_mem hother)⟩
            · rintro ⟨_, hlong⟩
              obtain ⟨other, hother⟩ := List.exists_mem_of_length_pos (Nat.lt_of_succ_lt_succ hlong)
              exact ⟨other, hother, hfirst other hother⟩
          · rw [hpage]
            exact hname.symm
        · rename_i hnotFull
          have hroom' : limit ≠ 0 → page.entries.length + 1 < limit.toNat := fun hne0 => by
            by_contra hge
            have hpos : limit > 0 := UInt32.lt_iff_toNat_lt.mpr (Nat.pos_of_ne_zero fun h0 =>
              hne0 (UInt32.toNat_inj.mp h0))
            exact hnotFull ⟨hpos, hlength ▸ Nat.le_of_not_lt hge⟩
          obtain ⟨page', hrun, hresult⟩ := ih hrest ⟨page.entries ++ [entry], false, name⟩ rfl
            fun hne0 => hlength ▸ hroom' hne0
          have hname' : name = entry.name := hname.symm
          rw [hname'] at hrun hresult
          exact ⟨page', hname' ▸ hrun, hresult.cons hroom'⟩

/-- The path leads to the directory. -/
def ResolvesDir (env : Oracle) (i : ι) (s : MdsState ι) (path : Bytes) (parent : UInt64) : Prop :=
  ∃ attr, Prog.run (MdsOp.exec env i) (resolvePath MetaStoreRouter.getInode path) s =
    some (.ok (parent, attr), s) ∧ attr.type = .dir ∧ parent ≠ 0

/-- The iterator starts at the token, which the loop would pass over anyway. -/
theorem readdirLoop_dropWhile (page : ReaddirPage) (stored : List (Bytes × Bytes)) :
    readdirLoop MetaStoreRouter.getInode token limit page
        (stored.dropWhile fun e => decide (e.1 < token)) =
      readdirLoop MetaStoreRouter.getInode token limit page stored := by
  induction stored with
  | nil => rfl
  | cons head stored ih =>
      obtain ⟨name, value⟩ := head
      by_cases hlt : name < token
      · have hskip : token ≠ [] ∧ name ≤ token := by
          refine ⟨?_, List.le_of_lt hlt⟩
          rintro rfl
          exact List.not_lt_nil name hlt
        rw [List.dropWhile_cons_of_pos (p := fun e : Bytes × Bytes => decide (e.1 < token))
          (decide_eq_true hlt), ih]
        exact (if_pos hskip).symm
      · rw [List.dropWhile_cons_of_neg (p := fun e : Bytes × Bytes => decide (e.1 < token))
          (by simpa using hlt)]

/-- What `Readdir` answers over a store that does not change. -/
theorem run_readdir (hdir : ResolvesDir env i s path parent) (h : ReadsListing env i s parent listing)
    (token : Bytes) (limit : UInt32) :
    ∃ page, Prog.run (MdsOp.exec env i) (readdir MetaStoreRouter.getInode path token limit) s =
        some (.ok page, s) ∧ IsPage listing token limit page := by
  obtain ⟨attr, hresolve, htype, hparent⟩ := hdir
  have hroom : limit ≠ 0 → 0 < limit.toNat := fun hne => Nat.pos_of_ne_zero fun h0 =>
    hne (UInt32.toNat_inj.mp h0)
  obtain ⟨page, hrun, hresult⟩ := run_readdirLoop h.reads (dentries_sorted s.db parent) {} rfl hroom
  refine ⟨page, ?_, ?_, ?_, ?_⟩
  · rw [readdir, Prog.run_bind, hresolve, Option.bind_some]
    simp only [htype, ne_eq, not_true_eq_false, if_false, hparent]
    show Prog.run _ (readdirLoop _ _ _ _ (List.dropWhile _ _)) s = _
    rw [readdirLoop_dropWhile]
    exact hrun
  · exact hresult.entries.trans (List.nil_append _)
  · exact hresult.hasMore
  · intro last hlast
    rw [hresult.entries.trans (List.nil_append _)] at hlast
    rw [hresult.nextToken, Option.mem_def.mp hlast]
    rfl

/-! ## Page after page -/

/-- The pages that reads with these limits bring, from the token on to the one that says that
there are no more, or to the number that is asked for. -/
def readPages (read : Bytes → UInt32 → Option ReaddirPage) (limits : Nat → UInt32) :
    Nat → Bytes → List ReaddirPage
  | 0, _ => []
  | n + 1, token =>
      match read token (limits 0) with
      | none => []
      | some page =>
          page :: if page.hasMore then readPages read (fun k => limits (k + 1)) n page.nextToken
            else []

/-- By induction on what the listing has after the token. -/
theorem readPages_all {read : Bytes → UInt32 → Option ReaddirPage}
    (hsorted : listing.Pairwise fun a b => a.name < b.name)
    (hread : ∀ token limit, ∃ page, read token limit = some page ∧
      IsPage listing token limit page) (limits : Nat → UInt32) (hlimits : ∀ k, 0 < limits k)
    (token : Bytes) :
    ∃ n, (readPages read limits n token).length = n ∧
      ((readPages read limits n token).map (·.entries)).flatten =
        afterToken Dentry.name token listing ∧
      ∀ (k : Nat) (page : ReaddirPage), (readPages read limits n token)[k]? = some page →
        page.entries.length ≤ (limits k).toNat ∧ (page.hasMore = true ↔ k + 1 < n) := by
  generalize hleft : (afterToken Dentry.name token listing).length = left
  induction left using Nat.strong_induction_on generalizing token limits with
  | _ left ih =>
      obtain ⟨page, hpage, hispage⟩ := hread token (limits 0)
      have hpos : 0 < (limits 0).toNat := UInt32.lt_iff_toNat_lt.mp (hlimits 0)
      have hne : limits 0 ≠ 0 := fun h0 => by
        rw [h0] at hpos
        exact absurd hpos (Nat.lt_irrefl _)
      have hentries := hispage.entries
      rw [if_neg hne] at hentries
      have hsmall : page.entries.length ≤ (limits 0).toNat := by
        rw [hentries, List.length_take]
        exact Nat.min_le_left _ _
      rcases hmore : page.hasMore with _ | _
      · have hpages₁ : readPages read limits 1 token = [page] := by
          rw [readPages, hpage]
          exact congrArg _ (if_neg (by rw [hmore]; exact Bool.false_ne_true))
        refine ⟨1, ?_, ?_, ?_⟩
        · rw [hpages₁]
          rfl
        · have hle : ¬(limits 0).toNat < (afterToken Dentry.name token listing).length := fun hlt =>
            Bool.false_ne_true (hmore.symm.trans (hispage.hasMore.mpr ⟨hne, hlt⟩))
          rw [hpages₁]
          refine (List.append_nil _).trans ?_
          show page.entries = _
          rw [hentries, List.take_of_length_le (Nat.le_of_not_lt hle)]
        · intro k page' hpage'
          rw [hpages₁] at hpage'
          cases k with
          | zero =>
              cases hpage'
              refine ⟨hsmall, ?_⟩
              rw [hmore]
              exact iff_of_false Bool.false_ne_true (Nat.lt_irrefl 1)
          | succ k => exact nomatch hpage'
      · obtain ⟨_, hlt⟩ := hispage.hasMore.mp hmore
        have hnonempty : page.entries ≠ [] := fun hnil => by
          have hlength := congrArg List.length (hentries.symm.trans hnil)
          rw [List.length_take, List.length_nil] at hlength
          omega
        obtain ⟨last, hlast⟩ := exists_last hnonempty
        have hlast' := hlast
        rw [hentries] at hlast'
        have hrest : afterToken Dentry.name page.nextToken listing =
            (afterToken Dentry.name token listing).drop (limits 0).toNat := by
          rw [hispage.nextToken last hlast]
          exact afterToken_last hsorted hlast'
        have hshorter : (afterToken Dentry.name page.nextToken listing).length < left := by
          rw [hrest, List.length_drop]
          omega
        obtain ⟨n, hlength, hflatten, hpages⟩ := ih _ hshorter (fun k => limits (k + 1))
          (fun k => hlimits (k + 1)) page.nextToken rfl
        have hpages₁ : readPages read limits (n + 1) token =
            page :: readPages read (fun k => limits (k + 1)) n page.nextToken := by
          rw [readPages, hpage]
          exact congrArg _ (if_pos hmore)
        -- a page follows, so the rest is not empty
        have hn : 0 < n := Nat.pos_of_ne_zero fun h0 => by
          subst h0
          have hnil : afterToken Dentry.name page.nextToken listing = [] := hflatten.symm
          rw [hrest] at hnil
          have hlength := congrArg List.length hnil
          rw [List.length_drop, List.length_nil] at hlength
          omega
        refine ⟨n + 1, ?_, ?_, ?_⟩
        · rw [hpages₁, List.length_cons, hlength]
        · rw [hpages₁, List.map_cons, List.flatten_cons, hflatten, hrest, hentries,
            List.take_append_drop]
        · intro k page' hpage'
          rw [hpages₁] at hpage'
          cases k with
          | zero =>
              cases hpage'
              exact ⟨hsmall, iff_of_true hmore (Nat.succ_lt_succ hn)⟩
          | succ k =>
              obtain ⟨hsmall', hiff⟩ := hpages k page' hpage'
              exact ⟨hsmall', hiff.trans Nat.succ_lt_succ_iff.symm⟩

/-- The page that `Readdir` answers with, if it does. -/
def readdirPage (env : Oracle) (i : ι) (s : MdsState ι) (path token : Bytes) (limit : UInt32) :
    Option ReaddirPage :=
  match Prog.run (MdsOp.exec env i) (readdir MetaStoreRouter.getInode path token limit) s with
  | some (.ok page, _) => some page
  | _ => none

theorem sorted_listing (h : ReadsListing env i s parent listing) :
    listing.Pairwise (fun a b => a.name < b.name) ∧ ∀ entry ∈ listing, entry.name ≠ [] := by
  have hnames := names_eq h.reads
  have hsorted : (listing.map Dentry.name).Pairwise fun a b => a < b :=
    hnames ▸ List.pairwise_map.mpr (dentries_sorted s.db parent)
  have hnamed : List.Forall₂ (fun (entry : Dentry) (_ : Bytes × Bytes) => entry.name ≠ [] ∧ True)
      listing (s.db.dentries parent) :=
    (h.reads.imp fun _ _ hread => ⟨hread.1 ▸ hread.2.1, trivial⟩).flip
  exact ⟨List.pairwise_map.mp hsorted, ((List.forall₂_and_left _ _).mp hnamed).1⟩

/-- A scan finds every inode of an unchanging tree once and in order, in batches as small as
they are asked for; and pages of any sizes list every child of a directory of the store once
and in order. -/
theorem scan_exhaustive :
    (∀ (store : NamespaceReads Id) (path : Bytes) (tree : Forest) (options : SubtreeScanOptions)
      (maxes : Nat → UInt32), ListsDir store path tree.top → HoldsTree store path tree →
      0 < options.workBudget → (∀ k, 0 < maxes k) →
      ∃ n, Finishes store { options, stack := [{ path }] } maxes n
        (shown options.filesOnly tree.preorder)) ∧
    ∀ (ι : Type) [DecidableEq ι] (env : Oracle) (i : ι) (s : MdsState ι) (path : Bytes)
      (parent : UInt64) (listing : List Dentry) (limits : Nat → UInt32),
      ResolvesDir env i s path parent → ReadsListing env i s parent listing →
      (∀ k, 0 < limits k) →
      ∃ n, (readPages (readdirPage env i s path) limits n []).length = n ∧
        ((readPages (readdirPage env i s path) limits n []).map (·.entries)).flatten = listing ∧
        ∀ (k : Nat) (page : ReaddirPage),
          (readPages (readdirPage env i s path) limits n [])[k]? = some page →
          page.entries.length ≤ (limits k).toNat ∧ (page.hasMore = true ↔ k + 1 < n) := by
  refine ⟨fun store path tree options maxes hdir hholds hwork hmaxes => ?_, ?_⟩
  · have hstart : StackRest store [{ path }] (tree.preorder ++ [])
        (frameCost { path } tree + 0) := .cons (frameRest_enter hdir hholds) .nil
    rw [List.append_nil] at hstart
    obtain ⟨n, _, hfinishes⟩ := @scan_finishes store { options, stack := [{ path }] } tree.preorder
      _ hstart rfl hwork (List.cons_ne_nil _ _) maxes hmaxes
    exact ⟨n, hfinishes⟩
  · intro ι _ env i s path parent listing limits hdir hlisting hlimits
    obtain ⟨hsorted, hnamed⟩ := sorted_listing hlisting
    have hread (token : Bytes) (limit : UInt32) :
        ∃ page, readdirPage env i s path token limit = some page ∧
          IsPage listing token limit page := by
      obtain ⟨page, hrun, hpage⟩ := run_readdir hdir hlisting token limit
      exact ⟨page, by rw [readdirPage, hrun], hpage⟩
    obtain ⟨n, hlength, hflatten, hpages⟩ := readPages_all hsorted hread limits hlimits []
    exact ⟨n, hlength, hflatten.trans (afterToken_nil hnamed), hpages⟩

/-- A store for examples. -/
def listingStore (children : Bytes → List (Bytes × InodeAttr)) (inodes : List InodeAttr) :
    NamespaceReads Id where
  readdir path token limit :=
    let later := afterToken Prod.fst token (children path)
    let page := later.take limit.toNat
    .ok ⟨page.map dentryOfChild, decide (limit.toNat < later.length),
      (page.getLast?.map Prod.fst).getD []⟩
  getInode id :=
    match inodes.find? fun attr => attr.inodeId = id with
    | some attr => .ok attr
    | none => .error ""

theorem listsDir_listingStore {children : Bytes → List (Bytes × InodeAttr)}
    {inodes : List InodeAttr} {path : Bytes}
    (hsorted : (children path).Pairwise fun a b => a.1 < b.1)
    (hnamed : ∀ child ∈ children path, child.1 ≠ []) :
    ListsDir (listingStore children inodes) path (children path) := by
  refine ⟨hsorted, hnamed, fun token limit _ => ⟨_, rfl, fun last hlast => ?_⟩⟩
  rw [Option.mem_def.mp hlast]
  rfl

/-- `/a` with `/a/b`, and `/c`. -/
def sampleTree : Forest :=
  .cons (ofAscii "a") { inodeId := 2, type := .dir } (.cons (ofAscii "b") { inodeId := 3 } .nil .nil)
    (.cons (ofAscii "c") { inodeId := 4 } .nil .nil)

def sampleStore : NamespaceReads Id :=
  listingStore (fun path => if path = ofAscii "/" then sampleTree.top
    else [(ofAscii "b", { inodeId := 3 })]) sampleTree.preorder

/-- The inodes of examples: a directory, and its files, archived all. -/
def sampleOracle : Oracle where
  answer
    | .coldInode id => .ok { inodeId := id, type := if id = 1 then .dir else .file }
    | q => silentOracle.answer q

def sampleDirState : MdsState Unit :=
  ⟨((∅ : MetaMap).insert (.dentry 1 (ofAscii "b")) (encodeUInt64 3)).insert
    (.dentry 1 (ofAscii "a")) (encodeUInt64 2), fun _ => none, []⟩

theorem scan_exhaustive_of_two :
    (∃ n, Finishes sampleStore
      { options := { filesOnly := false, workBudget := 1 }, stack := [{ path := ofAscii "/" }] }
      (fun _ => 1) n [{ inodeId := 2, type := .dir }, { inodeId := 3 }, { inodeId := 4 }]) ∧
    ∃ n, ((readPages (readdirPage sampleOracle () sampleDirState (ofAscii "/")) (fun _ => 1) n
      []).map (·.entries)).flatten = [⟨ofAscii "a", 2, .file⟩, ⟨ofAscii "b", 3, .file⟩] := by
  obtain ⟨hscan, hpages⟩ := scan_exhaustive
  constructor
  · have hdir : ListsDir sampleStore (ofAscii "/") sampleTree.top :=
      @listsDir_listingStore _ _ (ofAscii "/") (by decide) (by decide)
    have hbelow : ListsDir sampleStore (ofAscii "/a") [(ofAscii "b", { inodeId := 3 })] :=
      @listsDir_listingStore _ _ (ofAscii "/a") (by decide) (by decide)
    have hholds : HoldsTree sampleStore (ofAscii "/") sampleTree :=
      ⟨rfl, And.intro hbelow ⟨rfl, rfl, trivial⟩, rfl, rfl, trivial⟩
    exact hscan _ _ sampleTree _ _ hdir hholds (by decide) fun _ => by decide
  · have hdentries : sampleDirState.db.dentries 1 =
        [(ofAscii "a", encodeUInt64 2), (ofAscii "b", encodeUInt64 3)] := by
      decide +kernel
    have hlisting : ReadsListing sampleOracle () sampleDirState 1
        [⟨ofAscii "a", 2, .file⟩, ⟨ofAscii "b", 3, .file⟩] := by
      refine ⟨?_⟩
      rw [hdentries]
      exact .cons ⟨rfl, by decide, by decide +kernel, { inodeId := 2, type := .file }, rfl, rfl⟩
        (.cons ⟨rfl, by decide, by decide +kernel, { inodeId := 3, type := .file }, rfl, rfl⟩ .nil)
    have hdir : ResolvesDir sampleOracle () sampleDirState (ofAscii "/") 1 :=
      ⟨{ inodeId := 1, type := .dir }, rfl, rfl, by decide⟩
    obtain ⟨n, _, hflatten, _⟩ := hpages Unit sampleOracle () sampleDirState (ofAscii "/") 1 _
      (fun _ => 1) hdir hlisting fun _ => by decide
    exact ⟨n, hflatten⟩

end Zb.Mds
