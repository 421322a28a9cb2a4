-- SUMMARY: From the legacy optical layout to the uniform one: read aliases, new data, and when the two meet.
import ZBStorage.Mds.Masstree.OpticalAllocator

/-!
# Translation of the optical layout

`MasstreeOpticalLayoutTranslator.cpp`. Images below a cutover id keep the place that
the legacy layout gave them and are found under their active location by a read
alias. New images go to the discs of the active layout behind the cutover, which is
rounded up to a whole disc. Both layouts address the same discs: a new image can
have the place of an aliased one.
-/

namespace Zb.Mds

open OpticalProfile OpticalAllocator

structure OpticalLayoutTranslation where
  legacyProfile : String := "legacy_mixed_v1"
  activeProfile : String := "uniform_2tb_v2"
  imageCapacityBytes : Nat := 100000000000
  discCapacityBytes : Nat := 2000000000000
  imagesPerDisc : Nat := 20
  cutoverGlobalImageId : Nat := 0
  cutoverDiscOrdinal : Nat := 0
  legacyReadCompat : Bool := true

namespace OpticalLayoutTranslation

/-- The discs that an image count fills, in 64 bits. -/
def discsFor (images imagesPerDisc : Nat) : Nat :=
  (images + imagesPerDisc + (2 ^ 64 - 1)) % 2 ^ 64 / imagesPerDisc

def validate (t : OpticalLayoutTranslation) : Except String Unit :=
  let profile := fixed
  let totalDiscCount := profile.opticalNodeCount * profile.disksPerNode
  if t.legacyProfile ≠ "legacy_mixed_v1" ∨ t.activeProfile ≠ "uniform_2tb_v2" ∨
      t.imageCapacityBytes ≠ profile.imageCapacityBytes ∨
      t.discCapacityBytes ≠ profile.diskCapacityBytes 0 ∨
      t.imagesPerDisc ≠ profile.imagesPerDisk 0 ∨
      t.cutoverDiscOrdinal > totalDiscCount ∨
      t.cutoverDiscOrdinal ≠ discsFor t.cutoverGlobalImageId t.imagesPerDisc ∨
      t.cutoverGlobalImageId > t.cutoverDiscOrdinal * t.imagesPerDisc % 2 ^ 64 then
    .error "invalid optical layout translation record"
  else .ok ()

/-- The record that `buildForLegacyCursor` validates. -/
def cutAt (cutoverGlobalImageId : Nat) : OpticalLayoutTranslation :=
  { cutoverGlobalImageId, cutoverDiscOrdinal := discsFor cutoverGlobalImageId 20 }

def buildForLegacyCursor (legacyCursor : OpticalClusterCursor) :
    Except String OpticalLayoutTranslation := do
  if ¬ legacyMixed.IsValidCursor legacyCursor then
    .error "invalid legacy optical allocation cursor"
  else
    let lastGlobalImageId := legacyMixed.globalImageId legacyCursor.toOpticalLocation
    let built := cutAt
      ((lastGlobalImageId + if legacyCursor.imageUsedBytes > 0 then 1 else 0) % 2 ^ 64)
    built.validate
    .ok built

def translateLegacyToActive (legacyLocation : OpticalLocation) : Except String OpticalLocation :=
  match legacyMixed.convertLocationTo legacyLocation fixed with
  | none => .error "failed to translate legacy optical location"
  | some active => .ok active

/-- `ResolveActiveReadAlias`: whether the legacy alias is used, and the physical
    location. -/
def resolveActiveReadAlias (t : OpticalLayoutTranslation) (active : OpticalLocation) :
    Except String (Bool × OpticalLocation) :=
  if ¬ fixed.IsValidCursor ⟨active, 0⟩ then .error "invalid active optical location"
  else if t.legacyReadCompat ∧ fixed.globalImageId active < t.cutoverGlobalImageId then
    match legacyMixed.decodeGlobalImageId (fixed.globalImageId active) with
    | none => .error "failed to resolve legacy optical read alias"
    | some physical => .ok (true, physical)
  else .ok (false, active)

def nextWritableCursor (t : OpticalLayoutTranslation) : Except String OpticalClusterCursor :=
  match fixed.decodeGlobalImageId (t.cutoverDiscOrdinal * t.imagesPerDisc % 2 ^ 64) with
  | none => .error "optical cluster has no writable disc after migration"
  | some next => .ok ⟨next, 0⟩

variable {t : OpticalLayoutTranslation} {l a b : OpticalLocation} {c : Nat}

/-! ## Valid records -/

/-- What `validate` leaves of a record: the cutover, rounded up to whole discs. -/
theorem validate_eq_ok (h : t.validate = .ok ()) :
    t.imagesPerDisc = 20 ∧ t.cutoverDiscOrdinal ≤ 100000000 ∧
      t.cutoverDiscOrdinal = (t.cutoverGlobalImageId + 19) / 20 := by
  unfold validate at h
  dsimp only at h
  split at h
  · cases h
  rename_i hvalid
  simp only [not_or, Decidable.not_not] at hvalid
  obtain ⟨-, -, -, -, himages, hdiscs, hcutover, hbelow⟩ := hvalid
  have h20 : t.imagesPerDisc = 20 := himages
  have htotal : t.cutoverDiscOrdinal ≤ 100000000 := Nat.le_of_not_lt hdiscs
  refine ⟨h20, htotal, ?_⟩
  rw [h20] at hcutover hbelow
  unfold discsFor at hcutover
  omega

theorem cutAt_validate (hc : c ≤ 2000000000) : (cutAt c).validate = .ok () := by
  have hdiscs : discsFor c 20 = (c + 19) / 20 := by
    unfold discsFor
    omega
  unfold validate
  apply if_neg
  simp only [not_or, Decidable.not_not]
  refine ⟨rfl, rfl, rfl, rfl, rfl, ?_, rfl, ?_⟩
  · show ¬ discsFor c 20 > 100000000
    omega
  · show ¬ c > discsFor c 20 * 20 % 2 ^ 64
    omega

theorem imageCount_fixed : fixed.imageCount = 2000000000 := rfl

theorem imageCount_legacyMixed : legacyMixed.imageCount = 1900000000 := rfl

/-- Every valid cursor has a record. -/
theorem exists_build {cursor : OpticalClusterCursor} (h : legacyMixed.IsValidCursor cursor) :
    ∃ c ≤ 1900000000, buildForLegacyCursor cursor = .ok (cutAt c) := by
  have hid := legacyMixed_wellFormed.numbersImages.id_lt h.1
  rw [imageCount_legacyMixed] at hid
  refine ⟨(legacyMixed.globalImageId cursor.toOpticalLocation +
    if cursor.imageUsedBytes > 0 then 1 else 0) % 2 ^ 64, ?_, ?_⟩
  · split <;> omega
  · unfold buildForLegacyCursor
    rw [if_neg (not_not_intro h)]
    dsimp only
    rw [cutAt_validate (by split <;> omega)]
    rfl

/-! ## Resolving -/

theorem resolve_of_le (ha : fixed.IsValidLocation a)
    (h : t.cutoverGlobalImageId ≤ fixed.globalImageId a) :
    t.resolveActiveReadAlias a = .ok (false, a) := by
  unfold resolveActiveReadAlias
  rw [if_neg (not_not_intro ⟨ha, Nat.zero_le _⟩), if_neg (fun hlt => by omega)]

theorem resolve_of_lt (ha : fixed.IsValidLocation a) (hcompat : t.legacyReadCompat = true)
    (h : fixed.globalImageId a < t.cutoverGlobalImageId)
    (hl : legacyMixed.decodeGlobalImageId (fixed.globalImageId a) = some l) :
    t.resolveActiveReadAlias a = .ok (true, l) := by
  unfold resolveActiveReadAlias
  rw [if_neg (not_not_intro ⟨ha, Nat.zero_le _⟩), if_pos ⟨hcompat, h⟩, hl]

/-- An alias keeps the global image id. -/
theorem resolve_cases {flag : Bool} (h : t.resolveActiveReadAlias a = .ok (flag, l)) :
    fixed.IsValidLocation a ∧
      (flag = true ∧ fixed.globalImageId a < t.cutoverGlobalImageId ∧
          legacyMixed.decodeGlobalImageId (fixed.globalImageId a) = some l ∨
        flag = false ∧ l = a ∧
          (t.legacyReadCompat = true → t.cutoverGlobalImageId ≤ fixed.globalImageId a)) := by
  unfold resolveActiveReadAlias at h
  split at h
  · cases h
  rename_i hvalid
  refine ⟨(Decidable.not_not.mp hvalid).1, ?_⟩
  split at h
  · rename_i halias
    split at h
    · cases h
    · rename_i physical hphysical
      cases h
      exact .inl ⟨rfl, halias.2, hphysical⟩
  · rename_i hplain
    cases h
    exact .inr ⟨rfl, rfl, fun hcompat => Nat.le_of_not_lt fun hlt => hplain ⟨hcompat, hlt⟩⟩

theorem fixed_id_eq (ha : fixed.IsValidLocation a) :
    fixed.globalImageId a = a.nodeIndex * 200000 + a.diskIndex * 20 + a.imageIndexInDisk := by
  have hid := fixed_wellFormed.globalImageId_eq ha
  have hdisk : a.diskIndex < fixed.smallDisksPerNode := ha.2.1
  rw [hid, indexInNode]
  dsimp only [nodes, discs, BlockNumbering.uniform, BlockNumbering.twoRegions]
  rw [if_pos hdisk, ← Nat.add_assoc]
  rfl

/-! ## Migration -/

/-- The first writable image is the first of its disc, behind all aliased ones. -/
theorem nextWritable_eq (ht : t.validate = .ok ())
    (hroom : t.cutoverDiscOrdinal < 100000000) :
    ∃ start, t.nextWritableCursor = .ok start ∧ fixed.IsValidLocation start.toOpticalLocation ∧
      start.imageIndexInDisk = 0 ∧
      fixed.globalImageId start.toOpticalLocation = 20 * t.cutoverDiscOrdinal := by
  obtain ⟨himages, -, -⟩ := validate_eq_ok ht
  have hsmall : t.cutoverDiscOrdinal * t.imagesPerDisc % 2 ^ 64 = t.cutoverDiscOrdinal * 20 := by
    rw [himages]
    exact Nat.mod_eq_of_lt (by omega)
  have hlt : t.cutoverDiscOrdinal * t.imagesPerDisc % 2 ^ 64 < fixed.imageCount := by
    rw [hsmall, imageCount_fixed]
    omega
  obtain ⟨next, hnext, hvalid, hid⟩ := fixed_wellFormed.numbersImages.id_decode hlt
  rw [hsmall] at hid
  refine ⟨⟨next, 0⟩, ?_, hvalid, ?_, ?_⟩
  · rw [nextWritableCursor, hnext]
  · rw [fixed_id_eq hvalid] at hid
    have himage : next.imageIndexInDisk < 20 := by
      have hlast := hvalid.2.2
      unfold imagesPerDisk at hlast
      split at hlast <;> exact hlast
    show next.imageIndexInDisk = 0
    omega
  · show fixed.globalImageId next = 20 * t.cutoverDiscOrdinal
    omega

theorem nextWritable_full (ht : t.validate = .ok ()) (hfull : t.cutoverDiscOrdinal = 100000000) :
    t.nextWritableCursor = .error "optical cluster has no writable disc after migration" := by
  obtain ⟨himages, -, -⟩ := validate_eq_ok ht
  rw [nextWritableCursor, decode_of_imageCount_le]
  rw [himages, hfull]
  decide

/-- Images on the first writable disc or a later one are not aliased. -/
theorem resolve_onOrPast {start : OpticalClusterCursor} (ht : t.validate = .ok ())
    (hstart : fixed.IsValidLocation start.toOpticalLocation) (hzero : start.imageIndexInDisk = 0)
    (hid : fixed.globalImageId start.toOpticalLocation = 20 * t.cutoverDiscOrdinal)
    (hb : fixed.IsValidLocation b) (hpast : OnOrPast start.toOpticalLocation b) :
    t.resolveActiveReadAlias b = .ok (false, b) := by
  obtain ⟨-, -, hcutover⟩ := validate_eq_ok ht
  apply resolve_of_le hb
  have hdisk : start.diskIndex < 10000 := hstart.2.1
  rw [fixed_id_eq hstart, hzero] at hid
  rw [fixed_id_eq hb]
  rcases hpast with hnode | ⟨hnode, hle⟩ <;> omega

/-- Migration keeps every location: the aliased images are found where the legacy
    layout put them, and what is written afterwards goes to discs without aliases. -/
theorem migration_keeps_locations (cursor : OpticalClusterCursor)
    (hcursor : legacyMixed.IsValidCursor cursor) :
    fixed.NumbersImages ∧ legacyMixed.NumbersImages ∧
      ∃ t start, buildForLegacyCursor cursor = .ok t ∧ t.nextWritableCursor = .ok start ∧
        (∀ l, legacyMixed.IsValidLocation l →
          legacyMixed.globalImageId l < t.cutoverGlobalImageId →
          ∃ a, translateLegacyToActive l = .ok a ∧ t.resolveActiveReadAlias a = .ok (true, l)) ∧
        ∀ sizes g, .ok g ∈ allocations fixed start sizes →
          ∃ a, fixed.decodeGlobalImageId g = some a ∧
            t.resolveActiveReadAlias a = .ok (false, a) ∧
            ∀ b, fixed.IsValidLocation b → b.nodeIndex = a.nodeIndex →
              b.diskIndex = a.diskIndex → t.resolveActiveReadAlias b = .ok (false, b) := by
  have hfixed := fixed_wellFormed.numbersImages
  have hlegacy := legacyMixed_wellFormed.numbersImages
  refine ⟨hfixed, hlegacy, ?_⟩
  obtain ⟨c, hc, hbuild⟩ := exists_build hcursor
  have hvalid := cutAt_validate (c := c) (by omega)
  have hroom : (cutAt c).cutoverDiscOrdinal < 100000000 := by
    obtain ⟨-, -, hdiscs⟩ := validate_eq_ok hvalid
    rw [hdiscs]
    show (c + 19) / 20 < 100000000
    omega
  obtain ⟨start, hnext, hstart, hzero, hid⟩ := nextWritable_eq hvalid hroom
  refine ⟨cutAt c, start, hbuild, hnext, ?_, ?_⟩
  · intro l hl hbelow
    have hcount : legacyMixed.globalImageId l < fixed.imageCount := by
      have hlt := hlegacy.id_lt hl
      rw [imageCount_legacyMixed] at hlt
      rw [imageCount_fixed]
      omega
    obtain ⟨a, hdecode, ha, hsame⟩ := hfixed.id_decode hcount
    refine ⟨a, ?_, ?_⟩
    · rw [translateLegacyToActive, convertLocationTo, if_pos hl, hdecode]
    · apply resolve_of_lt ha rfl
      · rwa [hsame]
      · rw [hsame]
        exact hlegacy.decode_id hl
  · intro sizes g hg
    obtain ⟨a, ha, hga, hpast⟩ := allocations_onOrPast hg
    refine ⟨a, ?_, resolve_onOrPast hvalid hstart hzero hid ha hpast, ?_⟩
    · rw [← hga]
      exact hfixed.decode_id ha
    · intro b hb hnode hdisk
      apply resolve_onOrPast hvalid hstart hzero hid hb
      unfold OnOrPast at hpast ⊢
      rwa [hnode, hdisk]

theorem migration_keeps_locations_of_cursor :
    ∃ t, buildForLegacyCursor ⟨⟨3, 9500, 42⟩, 7⟩ = .ok t := by
  obtain ⟨-, -, t, -, hbuild, -⟩ := migration_keeps_locations ⟨⟨3, 9500, 42⟩, 7⟩ (by decide)
  exact ⟨t, hbuild⟩

/-! ## Where the two layouts meet -/

/-- The active locations that can hold data: the aliased ones, and those from the
    first writable image on. -/
def HoldsData (t : OpticalLayoutTranslation) (a : OpticalLocation) : Prop :=
  fixed.IsValidLocation a ∧ (fixed.globalImageId a < t.cutoverGlobalImageId ∨
    ∃ start, t.nextWritableCursor = .ok start ∧
      fixed.globalImageId start.toOpticalLocation ≤ fixed.globalImageId a)

/-- No two locations with data resolve to one physical location. -/
def ResolvesApart (t : OpticalLayoutTranslation) : Prop :=
  ∀ a b flag flag' l, t.HoldsData a → t.HoldsData b →
    t.resolveActiveReadAlias a = .ok (flag, l) → t.resolveActiveReadAlias b = .ok (flag', l) → a = b

/-- The legacy layout gives the first disc's images the numbers that they have in the
    uniform one. -/
theorem resolve_first_images {flag : Bool} (hc : t.cutoverGlobalImageId ≤ 10)
    (h : t.resolveActiveReadAlias a = .ok (flag, l)) : l = a := by
  obtain ⟨ha, halias | hplain⟩ := resolve_cases h
  · obtain ⟨-, hlt, hdecode⟩ := halias
    have hid := fixed_id_eq ha
    have ha0 : a = ⟨0, 0, a.imageIndexInDisk⟩ := by
      cases a
      dsimp only at hid ⊢
      congr 1 <;> omega
    have hl : legacyMixed.IsValidLocation a := by
      rw [ha0]
      refine ⟨Nat.zero_lt_succ 9999, Nat.zero_lt_succ 9999, ?_⟩
      show a.imageIndexInDisk < 10
      omega
    have hlegacy : legacyMixed.globalImageId a = fixed.globalImageId a := by
      rw [hid, ha0]
      show (0 * legacyMixed.imagesPerNode + (0 * 10 + a.imageIndexInDisk)) % 2 ^ 64 = _
      dsimp only
      omega
    rw [← hlegacy, legacyMixed_wellFormed.decode_globalImageId hl] at hdecode
    exact (Option.some.inj hdecode).symm
  · exact hplain.2.1

/-- With no disc left for new data, all data is aliased. -/
theorem resolvesApart_full (ht : t.validate = .ok ()) (hcompat : t.legacyReadCompat = true)
    (hfull : t.cutoverDiscOrdinal = 100000000) : t.ResolvesApart := by
  have haliased : ∀ {a flag l}, t.HoldsData a → t.resolveActiveReadAlias a = .ok (flag, l) →
      fixed.IsValidLocation a ∧ legacyMixed.globalImageId l = fixed.globalImageId a := by
    intro a flag l ⟨ha, hdata⟩ h
    have hlt : fixed.globalImageId a < t.cutoverGlobalImageId := by
      rcases hdata with hlt | ⟨start, hnext, -⟩
      · exact hlt
      · rw [nextWritable_full ht hfull] at hnext
        cases hnext
    obtain ⟨-, halias | hplain⟩ := resolve_cases h
    · exact ⟨ha, (legacyMixed_wellFormed.numbersImages.id_of_decode halias.2.2)⟩
    · have hle := hplain.2.2 hcompat
      omega
  intro a b flag flag' l hadata hbdata ha hb
  obtain ⟨havalid, hida⟩ := haliased hadata ha
  obtain ⟨hbvalid, hidb⟩ := haliased hbdata hb
  exact fixed_wellFormed.globalImageId_inj havalid hbvalid (hida.symm.trans hidb)

theorem legacy_id_eq (hl : legacyMixed.IsValidLocation l) :
    legacyMixed.globalImageId l = l.nodeIndex * 190000 +
      ((if l.diskIndex < 9000 then l.diskIndex * 10 else 90000 + (l.diskIndex - 9000) * 100) +
        l.imageIndexInDisk) :=
  legacyMixed_wellFormed.globalImageId_eq hl

theorem legacy_image_lt (hl : legacyMixed.IsValidLocation l) :
    l.imageIndexInDisk < if l.diskIndex < 9000 then 10 else 100 := hl.2.2

/-- Beyond ten images, the last aliased image that is the first one of its legacy disc
    has the place of an image of the writable discs. -/
theorem exists_meeting (hc : 10 < c) (hroom : (c + 19) / 20 < 100000000) :
    ∃ l, legacyMixed.IsValidLocation l ∧ fixed.IsValidLocation l ∧
      legacyMixed.globalImageId l < c ∧ legacyMixed.globalImageId l < legacyMixed.imageCount ∧
      20 * ((c + 19) / 20) ≤ fixed.globalImageId l := by
  have hlast : min (c - 1) 1899999999 < legacyMixed.imageCount := by
    rw [imageCount_legacyMixed]
    omega
  obtain ⟨m, -, hm, hid⟩ := legacyMixed_wellFormed.numbersImages.id_decode hlast
  have himage := legacy_image_lt hm
  have hfirst : legacyMixed.IsValidLocation ⟨m.nodeIndex, m.diskIndex, 0⟩ := by
    refine ⟨hm.1, hm.2.1, ?_⟩
    show 0 < if m.diskIndex < 9000 then 10 else 100
    split <;> decide
  have hactive : fixed.IsValidLocation ⟨m.nodeIndex, m.diskIndex, 0⟩ := by
    refine ⟨hm.1, hm.2.1, ?_⟩
    show 0 < if m.diskIndex < 10000 then 20 else 20
    split <;> decide
  have hnode : m.nodeIndex < 10000 := hm.1
  have hdisk : m.diskIndex < 10000 := hm.2.1
  rw [legacy_id_eq hm] at hid
  refine ⟨_, hfirst, hactive, ?_, legacyMixed_wellFormed.numbersImages.id_lt hfirst, ?_⟩
  · rw [legacy_id_eq hfirst]
    dsimp only
    omega
  · rw [fixed_id_eq hactive]
    dsimp only
    split at hid
    · rename_i hsmall
      rw [if_pos hsmall] at himage
      omega
    · rename_i hlarge
      rw [if_neg hlarge] at himage
      omega

theorem not_resolvesApart (ht : t.validate = .ok ()) (hcompat : t.legacyReadCompat = true)
    (hc : 10 < t.cutoverGlobalImageId) (hroom : t.cutoverDiscOrdinal < 100000000) :
    ¬ t.ResolvesApart := by
  intro hapart
  obtain ⟨-, -, hdiscs⟩ := validate_eq_ok ht
  obtain ⟨start, hnext, -, -, hstart⟩ := nextWritable_eq ht hroom
  obtain ⟨l, hlegacy, hactive, hbelow, hcount, habove⟩ :=
    exists_meeting hc (by rwa [← hdiscs])
  rw [← hdiscs] at habove
  have hfixed : legacyMixed.globalImageId l < fixed.imageCount := by
    rw [imageCount_legacyMixed] at hcount
    rw [imageCount_fixed]
    omega
  obtain ⟨a, -, ha, hida⟩ := fixed_wellFormed.numbersImages.id_decode hfixed
  have halias : t.resolveActiveReadAlias a = .ok (true, l) := by
    apply resolve_of_lt ha hcompat
    · rwa [hida]
    · rw [hida]
      exact legacyMixed_wellFormed.decode_globalImageId hlegacy
  have hplain : t.resolveActiveReadAlias l = .ok (false, l) := resolve_of_le hactive (by omega)
  have hadata : t.HoldsData a := ⟨ha, .inl (by rwa [hida])⟩
  have hldata : t.HoldsData l := ⟨hactive, .inr ⟨start, hnext, by rwa [hstart]⟩⟩
  have heq : a = l := hapart a l true false l hadata hldata halias hplain
  rw [heq] at hida
  omega

/-- Read aliases keep images apart exactly when they stay on the first legacy disc or
    no disc is left for new images. -/
theorem resolvesApart_iff (t : OpticalLayoutTranslation) (ht : t.validate = .ok ())
    (hcompat : t.legacyReadCompat = true) :
    t.ResolvesApart ↔ t.cutoverGlobalImageId ≤ 10 ∨ t.cutoverDiscOrdinal = 10000 * 10000 := by
  obtain ⟨-, htotal, -⟩ := validate_eq_ok ht
  constructor
  · intro hapart
    apply Decidable.byContradiction
    intro hneither
    exact not_resolvesApart ht hcompat (by omega) (by omega) hapart
  · rintro (hfirst | hfull)
    · intro a b flag flag' l _ _ ha hb
      exact (resolve_first_images hfirst ha).symm.trans (resolve_first_images hfirst hb)
    · exact resolvesApart_full ht hcompat hfull

theorem resolvesApart_iff_of_first_disc :
    (cutAt 7).ResolvesApart ↔ 7 ≤ 10 ∨ discsFor 7 20 = 10000 * 10000 :=
  resolvesApart_iff (cutAt 7) (by decide) rfl

/-- Eleven legacy images: the eleventh is the first one of the second legacy disc, where
    the uniform layout writes its first image. -/
theorem eleventh_image_meets_new_data :
    (cutAt 11).validate = .ok () ∧ (cutAt 11).legacyReadCompat = true ∧
      ¬ (cutAt 11).ResolvesApart := by
  refine ⟨by decide, rfl, fun hapart => ?_⟩
  have hold : (cutAt 11).HoldsData ⟨0, 0, 10⟩ := ⟨by decide, .inl (by decide)⟩
  have hnew : (cutAt 11).HoldsData ⟨0, 1, 0⟩ :=
    ⟨by decide, .inr ⟨⟨⟨0, 1, 0⟩, 0⟩, by decide, Nat.le_refl _⟩⟩
  have hsame := hapart ⟨0, 0, 10⟩ ⟨0, 1, 0⟩ true false ⟨0, 1, 0⟩ hold hnew (by decide) (by decide)
  exact absurd hsame (by decide)

end OpticalLayoutTranslation

end Zb.Mds
