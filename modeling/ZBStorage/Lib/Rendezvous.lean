-- SUMMARY: Rendezvous selection: the best candidates of the best groups, and the greedy scan that finds them.
import Mathlib.Data.List.Perm.Subperm
import Mathlib.Data.List.Sort
import Mathlib.Order.Defs.LinearOrder
import ZBStorage.Lib.Bytes

/-!
# Rendezvous selection

Candidates have a score and belong to groups. Selected are the groups whose best
scores are the greatest, each by its best candidate. `Selected` says so without an
algorithm; it determines the selection, whatever the order of the candidates, and
a candidate that is not selected can be dropped.
-/

namespace Rendezvous

variable {α β γ : Type} [LinearOrder β] (score : α → β) (group : α → γ)

/-- No candidate of its group has a greater score. -/
def Champion (candidates : List α) (a : α) : Prop :=
  a ∈ candidates ∧ ∀ b ∈ candidates, group b = group a → score b ≤ score a

/-- `chosen` are the first `n` champions by decreasing score, or all of them. -/
structure Selected (candidates : List α) (n : Nat) (chosen : List α) : Prop where
  descending : chosen.Pairwise fun a b => score b < score a
  champion : ∀ a ∈ chosen, Champion score group candidates a
  length_le : chosen.length ≤ n
  others : ∀ b, Champion score group candidates b → b ∉ chosen →
    chosen.length = n ∧ ∀ a ∈ chosen, score b < score a

variable {score group} {candidates candidates' chosen chosen' : List α} {n : Nat} {a b : α}

theorem Champion.congr (h : ∀ a, a ∈ candidates ↔ a ∈ candidates') :
    Champion score group candidates a ↔ Champion score group candidates' a := by
  unfold Champion
  simp only [h]

theorem Selected.congr (h : ∀ a, a ∈ candidates ↔ a ∈ candidates')
    (hchosen : Selected score group candidates n chosen) :
    Selected score group candidates' n chosen where
  descending := hchosen.descending
  champion a ha := (Champion.congr h).mp (hchosen.champion a ha)
  length_le := hchosen.length_le
  others b hb := hchosen.others b ((Champion.congr h).mpr hb)

/-! ## What is selected -/

theorem Selected.nodup (h : Selected score group candidates n chosen) : chosen.Nodup :=
  h.descending.imp fun hlt heq => absurd (heq ▸ hlt) (lt_irrefl _)

/-- Selected candidates are of different groups. -/
theorem Selected.groups (h : Selected score group candidates n chosen) :
    chosen.Pairwise fun a b => group a ≠ group b := by
  refine (List.Pairwise.and_mem.mp h.descending).imp fun ⟨ha, hb, hlt⟩ hgroup => ?_
  have hle := (h.champion _ hb).2 _ (h.champion _ ha).1 hgroup
  exact absurd hlt (not_lt_of_ge hle)

theorem Selected.subset (h : Selected score group candidates n chosen)
    (h' : Selected score group candidates n chosen') : chosen ⊆ chosen' := by
  intro a ha
  by_contra hnot
  obtain ⟨hfull, hbelow⟩ := h'.others a (h.champion a ha) hnot
  -- something else must have been selected in its place
  have hother : ∃ b ∈ chosen', b ∉ chosen := by
    by_contra hnone
    have hsub : chosen' ⊆ chosen := fun b hb => by
      by_contra hb'
      exact hnone ⟨b, hb, hb'⟩
    have hperm := (List.Nodup.subperm h'.nodup hsub).perm_of_length_le (hfull ▸ h.length_le)
    exact hnot (hperm.mem_iff.mpr ha)
  obtain ⟨b, hb, hb'⟩ := hother
  have hlt := (h.others b (h'.champion b hb) hb').2 a ha
  exact absurd hlt (not_lt_of_gt (hbelow b hb))

/-- The candidates determine the selection. -/
theorem Selected.unique (h : Selected score group candidates n chosen)
    (h' : Selected score group candidates n chosen') : chosen = chosen' := by
  have hperm : chosen.Perm chosen' :=
    (List.perm_ext_iff_of_nodup h.nodup h'.nodup).mpr fun a =>
      ⟨fun ha => h.subset h' ha, fun ha => h'.subset h ha⟩
  refine hperm.eq_of_pairwise (fun a b _ _ hab hba => ?_) h.descending h'.descending
  exact absurd hab (not_lt_of_gt hba)

/-- Dropping a candidate that is not selected does not change the selection. -/
theorem Selected.drop (h : Selected score group candidates n chosen) (hnot : b ∉ chosen)
    (hdrop : ∀ a, a ∈ candidates' ↔ a ∈ candidates ∧ a ≠ b) :
    Selected score group candidates' n chosen where
  descending := h.descending
  champion a ha := by
    have hchampion := h.champion a ha
    refine ⟨(hdrop a).mpr ⟨hchampion.1, fun heq => hnot (heq ▸ ha)⟩, fun c hc => ?_⟩
    exact hchampion.2 c ((hdrop c).mp hc).1
  length_le := h.length_le
  others c hc hcnot := by
    have hmem := ((hdrop c).mp hc.1).1
    rcases Classical.em (Champion score group candidates c) with hchampion | hbeaten
    · exact h.others c hchampion hcnot
    -- only the dropped candidate can have beaten it
    have hbeat : Champion score group candidates b ∧ score c < score b := by
      have hex : ∃ d ∈ candidates, group d = group c ∧ score c < score d := by
        by_contra hnone
        refine hbeaten ⟨hmem, fun d hd hgroup => ?_⟩
        by_contra hlt
        exact hnone ⟨d, hd, hgroup, lt_of_not_ge hlt⟩
      obtain ⟨d, hd, hgroup, hlt⟩ := hex
      have hdb : d = b := by
        by_contra hne
        exact absurd (hc.2 d ((hdrop d).mpr ⟨hd, hne⟩) hgroup) (not_le_of_gt hlt)
      subst hdb
      refine ⟨⟨hd, fun e he heq => ?_⟩, hlt⟩
      rcases Classical.em (e = d) with rfl | hne
      · exact le_refl _
      · exact (hc.2 e ((hdrop e).mpr ⟨he, hne⟩) (heq.trans hgroup)).trans hlt.le
    obtain ⟨hfull, hbelow⟩ := h.others b hbeat.1 hnot
    exact ⟨hfull, fun a ha => hbeat.2.trans (hbelow a ha)⟩

/-! ## The scan -/

section Scan

variable {before rest : List α} {seen : List γ}

/-- What a scan has found of the ranked candidates before the present one. -/
structure Scanned (score : α → β) (group : α → γ) (n : Nat) (before rest : List α)
    (seen : List γ) (chosen : List α) : Prop where
  ranked : (before ++ rest).Pairwise fun a b => score b < score a
  seen_iff : ∀ g, g ∈ seen ↔ ∃ a ∈ before, group a = g
  chosen_iff : ∀ a, a ∈ chosen ↔ a ∈ before ∧ Champion score group (before ++ rest) a
  descending : chosen.Pairwise fun a b => score b < score a
  room : chosen.length < n

theorem Scanned.before_gt (h : Scanned score group n before (a :: rest) seen chosen)
    (hb : b ∈ before) : score a < score b :=
  (List.pairwise_append.mp h.ranked).2.2 b hb a List.mem_cons_self

/-- A candidate of a group that was seen is beaten. -/
theorem Scanned.skip (h : Scanned score group n before (a :: rest) seen chosen)
    (hseen : group a ∈ seen) : Scanned score group n (before ++ [a]) rest seen chosen := by
  have hlist : before ++ [a] ++ rest = before ++ a :: rest := List.append_assoc _ _ _
  obtain ⟨b, hb, hgroup⟩ := (h.seen_iff _).mp hseen
  refine ⟨hlist ▸ h.ranked, fun g => ?_, fun c => ?_, h.descending, h.room⟩
  · rw [h.seen_iff g]
    constructor
    · intro ⟨c, hc, hg⟩
      exact ⟨c, List.mem_append_left _ hc, hg⟩
    · rintro ⟨c, hc, rfl⟩
      rcases List.mem_append.mp hc with hold | hnew
      · exact ⟨c, hold, rfl⟩
      · rw [List.mem_singleton.mp hnew]
        exact ⟨b, hb, hgroup⟩
  · rw [h.chosen_iff c, hlist]
    constructor
    · exact And.imp_left (List.mem_append_left _)
    · intro ⟨hc, hchampion⟩
      rcases List.mem_append.mp hc with hold | hnew
      · exact ⟨hold, hchampion⟩
      · rw [List.mem_singleton.mp hnew] at hchampion
        have hle := hchampion.2 b (List.mem_append_left _ hb) hgroup
        exact absurd (h.before_gt hb) (not_lt_of_ge hle)

/-- The first candidate of a group is its champion. -/
theorem Scanned.champion (h : Scanned score group n before (a :: rest) seen chosen)
    (hseen : group a ∉ seen) : Champion score group (before ++ a :: rest) a := by
  refine ⟨List.mem_append_right _ List.mem_cons_self, fun b hb hgroup => ?_⟩
  rcases List.mem_append.mp hb with hold | hlater
  · exact absurd ((h.seen_iff _).mpr ⟨b, hold, hgroup⟩) hseen
  · rcases List.mem_cons.mp hlater with rfl | hrest
    · exact le_refl _
    · have hranked := (List.pairwise_append.mp h.ranked).2.1
      exact (List.rel_of_pairwise_cons hranked hrest).le

theorem Scanned.mem_take (h : Scanned score group n before (a :: rest) seen chosen)
    (hseen : group a ∉ seen) (c : α) :
    c ∈ chosen ++ [a] ↔ c ∈ before ++ [a] ∧ Champion score group (before ++ a :: rest) c := by
  rw [List.mem_append, List.mem_append, h.chosen_iff c, List.mem_singleton]
  constructor
  · rintro (⟨hold, hchampion⟩ | rfl)
    · exact ⟨.inl hold, hchampion⟩
    · exact ⟨.inr rfl, h.champion hseen⟩
  · rintro ⟨hold | rfl, hchampion⟩
    · exact .inl ⟨hold, hchampion⟩
    · exact .inr rfl

theorem Scanned.descending_take (h : Scanned score group n before (a :: rest) seen chosen) :
    (chosen ++ [a]).Pairwise fun a b => score b < score a := by
  refine List.pairwise_append.mpr ⟨h.descending, List.pairwise_singleton _ _, fun b hb c hc => ?_⟩
  rw [List.mem_singleton.mp hc]
  exact h.before_gt ((h.chosen_iff b).mp hb).1

theorem Scanned.take (h : Scanned score group n before (a :: rest) seen chosen)
    (hseen : group a ∉ seen) (hroom : (chosen ++ [a]).length < n) :
    Scanned score group n (before ++ [a]) rest (group a :: seen) (chosen ++ [a]) := by
  have hlist : before ++ [a] ++ rest = before ++ a :: rest := List.append_assoc _ _ _
  refine ⟨hlist ▸ h.ranked, fun g => ?_, fun c => ?_, h.descending_take, hroom⟩
  · rw [List.mem_cons, h.seen_iff g]
    constructor
    · rintro (rfl | ⟨c, hc, hg⟩)
      · exact ⟨a, List.mem_append_right _ List.mem_cons_self, rfl⟩
      · exact ⟨c, List.mem_append_left _ hc, hg⟩
    · rintro ⟨c, hc, rfl⟩
      rcases List.mem_append.mp hc with hold | hnew
      · exact .inr ⟨c, hold, rfl⟩
      · rw [List.mem_singleton.mp hnew]
        exact .inl rfl
  · rw [hlist]
    exact h.mem_take hseen c

variable [DecidableEq γ] (group) in
/-- Takes a candidate of each group it has not seen, until it has `n` of them. -/
def scan (n : Nat) : List α → List γ → List α → List α
  | [], _, chosen => chosen
  | a :: rest, seen, chosen =>
      if group a ∈ seen then scan n rest seen chosen
      else
        let chosen := chosen ++ [a]
        if n ≤ chosen.length then chosen else scan n rest (group a :: seen) chosen

variable [DecidableEq γ]

theorem Scanned.selected (h : Scanned score group n before rest seen chosen) :
    Selected score group (before ++ rest) n (scan group n rest seen chosen) := by
  induction rest generalizing before seen chosen with
  | nil =>
      refine ⟨h.descending, fun a ha => ((h.chosen_iff a).mp ha).2, h.room.le, fun b hb hnot => ?_⟩
      have hmem : b ∈ before := by simpa using hb.1
      exact absurd ((h.chosen_iff b).mpr ⟨hmem, hb⟩) hnot
  | cons a rest ih =>
      have hlist : before ++ [a] ++ rest = before ++ a :: rest := List.append_assoc _ _ _
      rw [scan]
      split
      · rename_i hseen
        exact hlist ▸ ih (h.skip hseen)
      · rename_i hseen
        show Selected score group _ n (if n ≤ (chosen ++ [a]).length then _ else _)
        split
        · rename_i hfull
          have hlength : (chosen ++ [a]).length = n := by
            have hroom := h.room
            rw [List.length_append, List.length_singleton] at hfull ⊢
            exact Nat.le_antisymm hroom hfull
          refine ⟨h.descending_take, fun c hc => ((h.mem_take hseen c).mp hc).2, hlength.le,
            fun b hb hnot => ⟨hlength, fun c hc => ?_⟩⟩
          have hc' := ((h.mem_take hseen c).mp hc).1
          have hrest : b ∈ rest := by
            have hmem := hb.1
            rw [← hlist] at hmem
            rcases List.mem_append.mp hmem with hold | hlater
            · exact absurd ((h.mem_take hseen b).mpr ⟨hold, hb⟩) hnot
            · exact hlater
          exact (List.pairwise_append.mp (hlist.symm ▸ h.ranked)).2.2 c hc' b hrest
        · rename_i hroom
          exact hlist ▸ ih (h.take hseen (Nat.lt_of_not_le hroom))

/-- A scan of the candidates by decreasing score makes the selection. -/
theorem selected_scan {ranked : List α} (hn : 0 < n)
    (hranked : ranked.Pairwise fun a b => score b < score a) :
    Selected score group ranked n (scan group n ranked [] []) := by
  have hstart : Scanned score group n [] ranked [] [] := by
    refine ⟨hranked, fun g => ?_, fun a => ?_, .nil, hn⟩
    · simp
    · simp
  exact hstart.selected

end Scan

end Rendezvous
