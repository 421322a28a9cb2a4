-- SUMMARY: What a subtree scan finds: the batches are the whole tree below the root, in order and each inode once.
import ZBStorage.Mds.Storage.NamespaceScan

/-!
# What a scan finds

Over a tree that does not change, what the batches have shown and what the stack
has still to show is the tree in preorder, after every step, and every step brings
the scan nearer to its end.
-/

namespace Zb.Mds

open Zb.Rpc Bytes

/-! ## Trees -/

/-- The children of a directory, each with its own children. -/
inductive Forest
  | nil
  | cons (name : Bytes) (attr : InodeAttr) (children siblings : Forest)

namespace Forest

/-- The children themselves. -/
def top : Forest → List (Bytes × InodeAttr)
  | .nil => []
  | .cons name attr _ siblings => (name, attr) :: siblings.top

/-- All inodes of the forest, a directory before what it holds. -/
def preorder : Forest → List InodeAttr
  | .nil => []
  | .cons _ attr children siblings => attr :: (children.preorder ++ siblings.preorder)

end Forest

/-- What `Readdir` says of a child. -/
def dentryOfChild (child : Bytes × InodeAttr) : Dentry := ⟨child.1, child.2.inodeId, child.2.type⟩

/-- What a listing holds after a name. -/
def afterToken {α : Type} (name : α → Bytes) (token : Bytes) (listing : List α) : List α :=
  listing.filter fun child => decide (token < name child)

variable (store : NamespaceReads Id)

/-- `Readdir` lists the children of the directory: in order, strictly after the token, as many
as the limit lets it, and says whether there are more. -/
structure ListsDir (path : Bytes) (children : List (Bytes × InodeAttr)) : Prop where
  sorted : children.Pairwise fun a b => a.1 < b.1
  named : ∀ child ∈ children, child.1 ≠ []
  page : ∀ (token : Bytes) (limit : UInt32), 0 < limit →
    ∃ nextToken, store.readdir path token limit =
        (.ok ⟨((afterToken Prod.fst token children).take limit.toNat).map dentryOfChild,
          decide (limit.toNat < (afterToken Prod.fst token children).length), nextToken⟩ :
          Except String ReaddirPage) ∧
      ∀ last ∈ ((afterToken Prod.fst token children).take limit.toNat).getLast?, nextToken = last.1

/-- The store holds the children of the directory at the path, and everything below. -/
def HoldsTree : Bytes → Forest → Prop
  | _, .nil => True
  | path, .cons name attr children siblings =>
      store.getInode attr.inodeId = (.ok attr : Except String InodeAttr) ∧
        (if attr.type = .dir then
          ListsDir store (childPath path name) children.top ∧ HoldsTree (childPath path name) children
        else children = .nil) ∧
        HoldsTree path siblings

/-! ## Pages -/

section Pages

variable {α : Type} {name : α → Bytes} {listing : List α} {token : Bytes}

theorem afterToken_nil (hnamed : ∀ child ∈ listing, name child ≠ []) :
    afterToken name [] listing = listing := by
  refine List.filter_eq_self.mpr fun child hchild => decide_eq_true ?_
  obtain ⟨b, rest, hcons⟩ := List.exists_cons_of_ne_nil (hnamed child hchild)
  rw [hcons]
  exact List.nil_lt_cons b rest

theorem afterToken_afterToken {later : Bytes} (hlt : token < later) :
    afterToken name later (afterToken name token listing) = afterToken name later listing := by
  rw [afterToken, afterToken, List.filter_filter]
  refine List.filter_congr fun child _ => ?_
  rw [Bool.and_eq_left_iff_imp]
  exact fun h => decide_eq_true (List.lt_trans hlt (of_decide_eq_true h))

theorem lt_of_mem_page {limit : Nat} {last : α}
    (hlast : ((afterToken name token listing).take limit).getLast? = some last) :
    token < name last := by
  have hmem := List.mem_of_mem_take (List.mem_of_getLast? hlast)
  exact of_decide_eq_true (List.mem_filter.mp hmem).2

/-- After the last name of a page comes what was not on it. -/
theorem afterToken_last {limit : Nat} {last : α}
    (hsorted : listing.Pairwise fun a b => name a < name b)
    (hlast : ((afterToken name token listing).take limit).getLast? = some last) :
    afterToken name (name last) listing = (afterToken name token listing).drop limit := by
  rw [← afterToken_afterToken (lt_of_mem_page hlast)]
  have hpairs : (afterToken name token listing).Pairwise fun a b => name a < name b :=
    hsorted.filter _
  obtain ⟨before, hbefore⟩ := List.getLast?_eq_some_iff.mp hlast
  have hsplit := List.take_append_drop limit (afterToken name token listing)
  rw [← hsplit, hbefore, List.append_assoc] at hpairs
  obtain ⟨_, hafter, hearlier⟩ := List.pairwise_append.mp hpairs
  conv_lhs => rw [← hsplit, hbefore, afterToken, List.append_assoc, List.filter_append]
  have hnone : before.filter (fun child => decide (name last < name child)) = [] := by
    refine List.filter_eq_nil_iff.mpr fun child hchild hgt => ?_
    have hlater := hearlier child hchild last List.mem_cons_self
    exact List.lt_irrefl _ (List.lt_trans hlater (of_decide_eq_true hgt))
  have hself : ¬decide (name last < name last) = true := fun h =>
    List.lt_irrefl _ (of_decide_eq_true h)
  rw [hnone, List.nil_append, List.singleton_append,
    List.filter_cons_of_neg (p := fun child : α => decide (name last < name child)) hself]
  refine List.filter_eq_self.mpr fun child hchild => decide_eq_true ?_
  exact (List.pairwise_cons.mp hafter).1 child hchild

theorem exists_last {page : List α} (hpage : page ≠ []) :
    ∃ last, page.getLast? = some last :=
  Option.isSome_iff_exists.mp (List.getLast?_isSome.mpr hpage)

end Pages

variable {store} {path token : Bytes} {children : List (Bytes × InodeAttr)}

/-! ## The steps of the loop -/

variable {filesOnly : Bool} {maxEntries : UInt32} {work : Nat} {frame : ScanFrame}
  {stack : List ScanFrame} {entries : List InodeAttr}

theorem scanLoop_pop (hroom : entries.length < maxEntries.toNat) (hpage : frame.page = [])
    (hlast : frame.lastPage = true) :
    store.scanLoop filesOnly maxEntries (work + 1) (frame :: stack) entries =
      store.scanLoop filesOnly maxEntries work stack entries := by
  rw [NamespaceReads.scanLoop, if_neg (Nat.not_le.mpr hroom), hpage]
  exact if_pos hlast

theorem scanLoop_refill {page : ReaddirPage} (hroom : entries.length < maxEntries.toNat)
    (hpage : frame.page = []) (hlast : frame.lastPage = false)
    (hread : store.readdir frame.path frame.token (min maxEntries 128) =
      (.ok page : Except String ReaddirPage))
    (hprogress : ¬(page.hasMore ∧ (page.entries = [] ∨ page.nextToken = frame.token))) :
    store.scanLoop filesOnly maxEntries (work + 1) (frame :: stack) entries =
      store.scanLoop filesOnly maxEntries work
        ({ frame with
            page := page.entries
            token := page.nextToken
            lastPage := !page.hasMore } :: stack) entries := by
  rw [NamespaceReads.scanLoop, if_neg (Nat.not_le.mpr hroom), hpage]
  refine (if_neg (by rw [hlast]; exact Bool.false_ne_true)).trans ?_
  rw [hread]
  exact if_neg hprogress

theorem scanLoop_visit {entry : Dentry} {page : List Dentry} {attr : InodeAttr}
    (hroom : entries.length < maxEntries.toNat) (hpage : frame.page = entry :: page)
    (hread : store.getInode entry.inodeId = (.ok attr : Except String InodeAttr))
    (hid : attr.inodeId = entry.inodeId) (htype : attr.type = entry.type) :
    store.scanLoop filesOnly maxEntries (work + 1) (frame :: stack) entries =
      store.scanLoop filesOnly maxEntries work
        (if entry.type = .dir then
          { path := childPath frame.path entry.name } :: { frame with page := page } :: stack
        else { frame with page := page } :: stack)
        (if !filesOnly ∨ attr.type = .file then entries ++ [attr] else entries) := by
  rw [NamespaceReads.scanLoop, if_neg (Nat.not_le.mpr hroom), hpage]
  simp only
  rw [hread]
  exact if_neg (not_or.mpr ⟨not_not.mpr hid, not_not.mpr htype⟩)

/-! ## What is left to scan -/

/-- The directory of the frame has these children left: those on its page, and those that are
still to be read. -/
structure FrameRest (store : NamespaceReads Id) (frame : ScanFrame) (rest : Forest) : Prop where
  holds : HoldsTree store frame.path rest
  page : frame.page = (rest.top.take frame.page.length).map dentryOfChild
  last : frame.lastPage = true → rest.top.drop frame.page.length = []
  more : frame.lastPage = false → ∃ children, ListsDir store frame.path children ∧
    afterToken Prod.fst frame.token children = rest.top.drop frame.page.length

/-- The steps that the inodes of a forest can still cost. -/
def Forest.cost : Forest → Nat
  | .nil => 0
  | .cons _ _ children siblings => 4 + children.cost + siblings.cost

/-- A frame is read, visited and left. -/
def frameCost (frame : ScanFrame) (rest : Forest) : Nat :=
  1 + (if frame.page.isEmpty && !frame.lastPage then 1 else 0) + rest.cost

/-- The stack with what its frames have left, and the inodes and steps that this comes to. -/
inductive StackRest (store : NamespaceReads Id) : List ScanFrame → List InodeAttr → Nat → Prop
  | nil : StackRest store [] [] 0
  | cons {frame : ScanFrame} {rest : Forest} {stack : List ScanFrame} {attrs : List InodeAttr}
      {steps : Nat} : FrameRest store frame rest → StackRest store stack attrs steps →
      StackRest store (frame :: stack) (rest.preorder ++ attrs) (frameCost frame rest + steps)

/-- The inodes that a batch shows. -/
def shown (filesOnly : Bool) (attrs : List InodeAttr) : List InodeAttr :=
  attrs.filter fun attr => !filesOnly || attr.type = .file

theorem Forest.eq_nil_of_top {rest : Forest} (h : rest.top = []) : rest = .nil := by
  cases rest with
  | nil => rfl
  | cons name attr children siblings => exact nomatch h

/-- A directory that has just been entered. -/
theorem frameRest_enter {rest : Forest} (hdir : ListsDir store path rest.top)
    (hholds : HoldsTree store path rest) : FrameRest store { path } rest where
  holds := hholds
  page := rfl
  last := nofun
  more _ := ⟨rest.top, hdir, afterToken_nil hdir.named⟩

theorem frameCost_enter (rest : Forest) : frameCost { path } rest = 2 + rest.cost := rfl

theorem frameCost_le (frame : ScanFrame) (rest : Forest) : frameCost frame rest ≤ 2 + rest.cost := by
  unfold frameCost
  split <;> omega

theorem min_pos {a b : UInt32} (ha : 0 < a) (hb : 0 < b) : 0 < min a b := by
  show 0 < if a ≤ b then a else b
  split
  · exact ha
  · exact hb

/-- The next page of a directory: it says what it has read and what is left, and it gets on. -/
theorem FrameRest.refill {rest : Forest} (h : FrameRest store frame rest) (hpage : frame.page = [])
    (hlast : frame.lastPage = false) (hmax : 0 < maxEntries) :
    ∃ page : ReaddirPage,
      store.readdir frame.path frame.token (min maxEntries 128) =
        (.ok page : Except String ReaddirPage) ∧
      ¬(page.hasMore ∧ (page.entries = [] ∨ page.nextToken = frame.token)) ∧
      FrameRest store { frame with
        page := page.entries
        token := page.nextToken
        lastPage := !page.hasMore } rest ∧
      (page.entries.isEmpty && !(!page.hasMore)) = false := by
  obtain ⟨children, hdir, hchildren⟩ := h.more hlast
  rw [hpage] at hchildren
  have hchildren : afterToken Prod.fst frame.token children = rest.top := hchildren
  have hlimit : 0 < min maxEntries 128 := min_pos hmax (by decide)
  have hpositive : 0 < (min maxEntries 128).toNat := UInt32.lt_iff_toNat_lt.mp hlimit
  generalize min maxEntries 128 = limit at hlimit hpositive
  obtain ⟨nextToken, hread, hnext⟩ := hdir.page frame.token limit hlimit
  refine ⟨_, hread, ?_, ?_, ?_⟩
  · rintro ⟨hmore, hempty | hsame⟩
    · have hlt := of_decide_eq_true hmore
      have hlength := congrArg List.length hempty
      rw [List.length_map, List.length_take] at hlength
      simp only [List.length_nil] at hlength
      omega
    · have hlt := of_decide_eq_true hmore
      have hne : (afterToken Prod.fst frame.token children).take limit.toNat ≠ [] := fun hnil => by
        have hlength := congrArg List.length hnil
        rw [List.length_take, List.length_nil] at hlength
        omega
      obtain ⟨last, hlastChild⟩ := exists_last hne
      have hgt : frame.token < last.1 := lt_of_mem_page hlastChild
      rw [hnext last hlastChild] at hsame
      exact List.lt_irrefl _ (hsame ▸ hgt)
  · rw [hchildren]
    refine ⟨h.holds, ?_, ?_, ?_⟩
    · simp only [List.length_map, List.length_take]
      rw [← List.take_eq_take_min]
    · intro hdone
      have hle : ¬limit.toNat < rest.top.length := by simpa using hdone
      simp only [List.length_map, List.length_take]
      exact List.drop_eq_nil_of_le (by omega)
    · intro hmore
      have hlt : limit.toNat < rest.top.length := by simpa using hmore
      refine ⟨children, hdir, ?_⟩
      have hne : (afterToken Prod.fst frame.token children).take limit.toNat ≠ [] := fun hnil => by
        have hlength := congrArg List.length hnil
        rw [List.length_take, List.length_nil, hchildren] at hlength
        omega
      obtain ⟨last, hlastChild⟩ := exists_last hne
      simp only [List.length_map, List.length_take]
      rw [hnext last hlastChild, afterToken_last hdir.sorted hlastChild, hchildren,
        Nat.min_eq_left hlt.le]
  · rw [Bool.not_not, Bool.and_eq_false_iff]
    by_cases hmore : limit.toNat < (afterToken Prod.fst frame.token children).length
    · left
      rw [List.isEmpty_eq_false_iff]
      intro hnil
      have hlength := congrArg List.length hnil
      rw [List.length_map, List.length_take, List.length_nil] at hlength
      omega
    · exact .inr (decide_eq_false hmore)

/-- A visited child: the directory goes on with its siblings. -/
theorem FrameRest.visit {entry : Dentry} {page : List Dentry} {rest : Forest}
    (h : FrameRest store frame rest) (hpage : frame.page = entry :: page) :
    ∃ name attr children siblings, rest = .cons name attr children siblings ∧
      entry = dentryOfChild (name, attr) ∧ FrameRest store { frame with page := page } siblings := by
  have hread := h.page
  rw [hpage] at hread
  cases rest with
  | nil => exact nomatch hread
  | cons name attr children siblings =>
      obtain ⟨hentry, htail⟩ := List.cons.inj hread
      refine ⟨name, attr, children, siblings, rfl, hentry, h.holds.2.2, htail, ?_, ?_⟩
      · intro hlast
        have hdone := h.last hlast
        rwa [hpage] at hdone
      · intro hmore
        have hlater := h.more hmore
        rwa [hpage] at hlater

theorem shown_cons (attr : InodeAttr) (attrs : List InodeAttr) :
    shown filesOnly (attr :: attrs) =
      (if !filesOnly ∨ attr.type = .file then [attr] else []) ++ shown filesOnly attrs := by
  rw [shown, List.filter_cons]
  by_cases hshow : !filesOnly ∨ attr.type = .file
  · rw [if_pos hshow, if_pos (by simpa using hshow)]
    rfl
  · rw [if_neg hshow, if_neg (by simpa using hshow)]
    rfl

/-- One step: what is shown and what is left stay the whole, and the end comes nearer. -/
theorem scanLoop_step (filesOnly : Bool) (work : Nat) {attrs : List InodeAttr} {steps : Nat}
    (h : StackRest store (frame :: stack) attrs steps) (hmax : 0 < maxEntries)
    (hroom : entries.length < maxEntries.toNat) :
    ∃ stack' attrs' steps' entries', StackRest store stack' attrs' steps' ∧ steps' < steps ∧
      entries' ++ shown filesOnly attrs' = entries ++ shown filesOnly attrs ∧
      entries'.length ≤ maxEntries.toNat ∧
      store.scanLoop filesOnly maxEntries (work + 1) (frame :: stack) entries =
        store.scanLoop filesOnly maxEntries work stack' entries' := by
  cases h with
  | @cons _ rest _ attrs steps hframe hstack =>
  cases hpage : frame.page with
  | nil =>
      cases hlast : frame.lastPage with
      | true =>
          have hnil : rest = .nil := Forest.eq_nil_of_top (by
            have hdone := hframe.last hlast
            rwa [hpage] at hdone)
          subst hnil
          refine ⟨stack, attrs, steps, entries, hstack, ?_, rfl, hroom.le, scanLoop_pop hroom hpage hlast⟩
          unfold frameCost
          omega
      | false =>
          obtain ⟨page, hread, hprogress, hnext, hfilled⟩ := hframe.refill hpage hlast hmax
          refine ⟨_, _, _, entries, .cons hnext hstack, ?_, rfl, hroom.le,
            scanLoop_refill hroom hpage hlast hread hprogress⟩
          have hcost : frameCost frame rest = 2 + rest.cost := by
            unfold frameCost
            rw [hpage, hlast]
            rfl
          unfold frameCost at hcost ⊢
          simp only [hfilled, Bool.false_eq_true, if_false]
          omega
  | cons entry page =>
      obtain ⟨name, attr, children, siblings, rfl, rfl, hnext⟩ := hframe.visit hpage
      obtain ⟨hread, hdir, _⟩ := hframe.holds
      have hbefore : frameCost frame (.cons name attr children siblings) =
          5 + children.cost + siblings.cost := by
        unfold frameCost
        rw [hpage]
        show 1 + 0 + (4 + children.cost + siblings.cost) = _
        omega
      have hafter := frameCost_le { frame with page := page } siblings
      have hstep : store.scanLoop filesOnly maxEntries (work + 1) (frame :: stack) entries = _ :=
        scanLoop_visit hroom hpage hread rfl rfl
      have hshown (others : List InodeAttr) :
          (if !filesOnly ∨ attr.type = .file then entries ++ [attr] else entries) ++
            shown filesOnly others = entries ++ shown filesOnly (attr :: others) := by
        rw [shown_cons]
        split
        · rw [List.append_assoc]
        · rw [List.nil_append]
      have hlength : (if !filesOnly ∨ attr.type = .file then entries ++ [attr]
          else entries).length ≤ maxEntries.toNat := by
        split
        · rw [List.length_append]
          exact hroom
        · exact hroom.le
      have hpreorder : (Forest.cons name attr children siblings).preorder ++ attrs =
          attr :: (children.preorder ++ (siblings.preorder ++ attrs)) := by
        rw [Forest.preorder, List.cons_append, List.append_assoc]
      rw [hpreorder]
      rcases eq_or_ne attr.type .dir with htype | htype
      · rw [if_pos htype] at hdir
        refine ⟨_, _, _, _, .cons (frameRest_enter hdir.1 hdir.2) (.cons hnext hstack), ?_,
          hshown _, hlength, hstep.trans (by rw [if_pos (by exact htype)]; rfl)⟩
        rw [frameCost_enter]
        omega
      · rw [if_neg htype] at hdir
        subst hdir
        refine ⟨_, _, _, _, .cons hnext hstack, ?_, hshown _, hlength,
          hstep.trans (by rw [if_neg (by exact htype)])⟩
        omega

/-- The loop of one call: it keeps the whole and the size of the batch, and gets on. -/
theorem scanLoop_spec (filesOnly : Bool) {attrs : List InodeAttr} {steps : Nat}
    (h : StackRest store stack attrs steps) (hmax : 0 < maxEntries)
    (hroom : entries.length ≤ maxEntries.toNat) (work : Nat) :
    ∃ stack' attrs' steps' entries', StackRest store stack' attrs' steps' ∧ steps' ≤ steps ∧
      entries' ++ shown filesOnly attrs' = entries ++ shown filesOnly attrs ∧
      entries'.length ≤ maxEntries.toNat ∧
      store.scanLoop filesOnly maxEntries work stack entries =
        (.ok (stack', entries') : Except String (List ScanFrame × List InodeAttr)) ∧
      (0 < work → entries.length < maxEntries.toNat → stack ≠ [] → steps' < steps) := by
  induction work generalizing stack attrs steps entries with
  | zero => exact ⟨stack, attrs, steps, entries, h, le_refl _, rfl, hroom, rfl, nofun⟩
  | succ work ih =>
      cases stack with
      | nil => exact ⟨[], attrs, steps, entries, h, le_refl _, rfl, hroom, rfl, fun _ _ hne =>
          absurd rfl hne⟩
      | cons frame stack =>
          rcases Nat.lt_or_ge entries.length maxEntries.toNat with hlt | hge
          · obtain ⟨stack₁, attrs₁, steps₁, entries₁, h₁, hsteps₁, hshown₁, hlength₁, hstep⟩ :=
              scanLoop_step filesOnly work h hmax hlt
            obtain ⟨stack₂, attrs₂, steps₂, entries₂, h₂, hsteps₂, hshown₂, hlength₂, hrest, _⟩ :=
              ih h₁ hlength₁
            exact ⟨stack₂, attrs₂, steps₂, entries₂, h₂, hsteps₂.trans hsteps₁.le,
              hshown₂.trans hshown₁, hlength₂, hstep.trans hrest, fun _ _ _ =>
                hsteps₂.trans_lt hsteps₁⟩
          · refine ⟨frame :: stack, attrs, steps, entries, h, le_refl _, rfl, hroom, ?_, fun _ hlt =>
              absurd hlt (Nat.not_lt.mpr hge)⟩
            rw [NamespaceReads.scanLoop, if_pos hge]
            rfl

/-! ## The calls of a scan -/

theorem StackRest.attrs_nil {attrs : List InodeAttr} {steps : Nat}
    (h : StackRest store [] attrs steps) : attrs = [] := by
  cases h
  rfl

/-- One call of `Next` on a scan that is not done. -/
theorem next_spec {scanner : ReaddirScanner} {attrs : List InodeAttr} {steps : Nat}
    (h : StackRest store scanner.stack attrs steps) (hok : scanner.failure.isOk = true)
    (hwork : 0 < scanner.options.workBudget) (hne : scanner.stack ≠ []) (hmax : 0 < maxEntries) :
    ∃ stack' attrs' steps' entries', StackRest store stack' attrs' steps' ∧ steps' < steps ∧
      entries' ++ shown scanner.options.filesOnly attrs' = shown scanner.options.filesOnly attrs ∧
      entries'.length ≤ maxEntries.toNat ∧
      store.next scanner maxEntries = (({}, ⟨entries', stack'.isEmpty⟩, { scanner with stack := stack' }) :
        NamespaceStatus × SubtreeScanBatch × ReaddirScanner) := by
  have hpositive : 0 < maxEntries.toNat := UInt32.lt_iff_toNat_lt.mp hmax
  have hzero : maxEntries ≠ 0 := fun hzero => by
    rw [hzero] at hpositive
    exact absurd hpositive (Nat.lt_irrefl _)
  have hroom : ([] : List InodeAttr).length ≤ maxEntries.toNat := Nat.zero_le _
  obtain ⟨stack', attrs', steps', entries', h', _, hshown, hlength, hloop, hlt⟩ :=
    scanLoop_spec scanner.options.filesOnly h hmax hroom scanner.options.workBudget.toNat
  refine ⟨stack', attrs', steps', entries', h',
    hlt (UInt32.lt_iff_toNat_lt.mp hwork) hpositive hne, hshown, hlength, ?_⟩
  rw [NamespaceReads.next, if_neg hzero, if_neg (by rw [hok]; exact Bool.false_ne_true), hloop]
  rfl

/-- The answers of the first `n` calls, with these sizes. -/
def scanCalls (store : NamespaceReads Id) (scanner : ReaddirScanner) (maxes : Nat → UInt32) :
    Nat → List (NamespaceStatus × SubtreeScanBatch)
  | 0 => []
  | n + 1 =>
      match (store.next scanner (maxes 0) : NamespaceStatus × SubtreeScanBatch × ReaddirScanner) with
      | (status, batch, scanner) =>
          (status, batch) :: scanCalls store scanner (fun k => maxes (k + 1)) n

/-- The calls up to the one that says it is done. -/
structure Finishes (store : NamespaceReads Id) (scanner : ReaddirScanner) (maxes : Nat → UInt32)
    (n : Nat) (attrs : List InodeAttr) : Prop where
  ok : ∀ (k : Nat) (call : NamespaceStatus × SubtreeScanBatch),
    (scanCalls store scanner maxes n)[k]? = some call →
      call.1.isOk = true ∧ call.2.entries.length ≤ (maxes k).toNat ∧
        (call.2.done = true ↔ k + 1 = n)
  length : (scanCalls store scanner maxes n).length = n
  entries : ((scanCalls store scanner maxes n).map (·.2.entries)).flatten = attrs

/-- By induction on the steps that are left. -/
theorem scan_finishes {scanner : ReaddirScanner} {attrs : List InodeAttr} {steps : Nat}
    (h : StackRest store scanner.stack attrs steps) (hok : scanner.failure.isOk = true)
    (hwork : 0 < scanner.options.workBudget) (hne : scanner.stack ≠ []) (maxes : Nat → UInt32)
    (hmaxes : ∀ k, 0 < maxes k) :
    ∃ n, 0 < n ∧ Finishes store scanner maxes n (shown scanner.options.filesOnly attrs) := by
  induction steps using Nat.strong_induction_on generalizing scanner attrs maxes with
  | _ steps ih =>
      obtain ⟨stack', attrs', steps', entries', h', hlt, hshown, hlength, hnext⟩ :=
        next_spec h hok hwork hne (hmaxes 0)
      have hcalls (n : Nat) : scanCalls store scanner maxes (n + 1) =
          ({}, ⟨entries', stack'.isEmpty⟩) ::
            scanCalls store { scanner with stack := stack' } (fun k => maxes (k + 1)) n := by
        rw [scanCalls, hnext]
      rcases hstack : stack' with _ | ⟨frame, rest⟩
      · subst hstack
        refine ⟨1, Nat.one_pos, ?_, ?_, ?_⟩
        · intro k call hcall
          rw [hcalls] at hcall
          cases k with
          | zero =>
              cases hcall
              exact ⟨rfl, hlength, iff_of_true rfl rfl⟩
          | succ k => exact nomatch hcall
        · rw [hcalls]
          rfl
        · rw [hcalls, ← hshown, h'.attrs_nil]
          rfl
      · obtain ⟨n, hpos, hfinishes⟩ := @ih steps' hlt { scanner with stack := stack' } attrs' h'
          hok hwork (by rw [hstack]; exact List.cons_ne_nil _ _) (fun k => maxes (k + 1))
          fun k => hmaxes (k + 1)
        refine ⟨n + 1, Nat.succ_pos n, ?_, ?_, ?_⟩
        · intro k call hcall
          rw [hcalls] at hcall
          cases k with
          | zero =>
              cases hcall
              refine ⟨rfl, hlength, iff_of_false ?_ ?_⟩
              · rw [hstack]
                exact Bool.false_ne_true
              · omega
          | succ k =>
              obtain ⟨hisOk, hsmall, hdone⟩ := hfinishes.ok k call hcall
              exact ⟨hisOk, hsmall, hdone.trans Nat.succ_inj.symm⟩
        · rw [hcalls, List.length_cons, hfinishes.length]
        · rw [hcalls, List.map_cons, List.flatten_cons, hfinishes.entries, ← hshown]

end Zb.Mds
