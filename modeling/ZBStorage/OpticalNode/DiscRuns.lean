-- SUMMARY: Runs of the list for the next disc, with seals and restarts: when every sealed disc is sound.
import ZBStorage.OpticalNode.DiscLayout

/-!
# Accumulating and sealing discs

`AccumulatePackedImage`, `PersistPendingDiscMeta` and `SealPendingDiscAndSubmitBurn`, over
the bytes of `pending_disc_meta`. A seal gives the disc the file as it is, and the burn the
records of the memory.
-/

namespace Zb.OpticalNode

open Bytes CallHistory

/-! ## The list for the next disc -/

/-- What `Sha256FileHex` gives. -/
structure Digest where
  text : Bytes
  length_text : text.length = discSha256HexLength.toNat
  zero_notMem : 0 ∉ text

/-- A file in `image/`, with size zero if there is none, and its digest if it is read. -/
structure PackedImage where
  volumeId : UInt64
  sizeBytes : UInt64
  digest : Option Digest

/-- The records that a disc is burned for, and the file they are sealed with. -/
structure SealedDisc where
  entries : List DiscImageEntry
  discMeta : Bytes

structure DiscPacker where
  pendingDiscEntries : List DiscImageEntry := []
  pendingDiscMeta : Option Bytes := none
  sealedDiscs : List SealedDisc := []

def PackedImage.record (image : PackedImage) (digest : Digest) : DiscImageEntry where
  volumeId := image.volumeId
  imageSizeBytes := image.sizeBytes
  sha256Hex := digest.text

namespace DiscPacker

/-- `SealPendingDiscAndSubmitBurn`. `renamed` says whether a disc id is at hand and the
    file of the list can be renamed. -/
def sealPendingDisc (packer : DiscPacker) (renamed : Bool) : Bool × DiscPacker :=
  if packer.pendingDiscEntries.isEmpty then (true, packer)
  else
    match packer.pendingDiscMeta, renamed with
    | some discMeta, true =>
        (true,
          { pendingDiscEntries := []
            pendingDiscMeta := none
            sealedDiscs := packer.sealedDiscs ++ [⟨packer.pendingDiscEntries, discMeta⟩] })
    | _, _ => (false, packer)

/-- `need_seal`. -/
def needSeal (config : NodeConfig) (packer : DiscPacker) (entry : DiscImageEntry) : Bool :=
  !packer.pendingDiscEntries.isEmpty &&
    decide ((fillDiscLayout64 config (packer.pendingDiscEntries ++ [entry])).2 >
      config.discCapacityBytes)

/-- The record joins the list, which is then written to `pending_disc_meta`. -/
def append (config : NodeConfig) (packer : DiscPacker) (entry : DiscImageEntry)
    (persisted : Bool) : DiscPacker :=
  let entries := (fillDiscLayout64 config (packer.pendingDiscEntries ++ [entry])).1
  { packer with
    pendingDiscEntries := entries
    pendingDiscMeta := if persisted then some (metaArea entries) else packer.pendingDiscMeta }

def accumulatePackedImage (config : NodeConfig) (packer : DiscPacker) (image : PackedImage)
    (renamed persisted : Bool) : Bool × DiscPacker :=
  if image.sizeBytes = 0 then (false, packer)
  else
    match image.digest with
    | none => (false, packer)
    | some digest =>
        let entry := image.record digest
        if packer.needSeal config entry then
          match packer.sealPendingDisc renamed with
          | (false, packer) => (false, packer)
          | (true, packer) => (persisted, packer.append config entry persisted)
        else (persisted, packer.append config entry persisted)

/-- A new process reads `pending_disc_meta`; a file that cannot be read counts as empty. -/
def restart (packer : DiscPacker) (pendingRead : Bool) : DiscPacker :=
  { packer with
    pendingDiscEntries :=
      if pendingRead then (packer.pendingDiscMeta.bind readDiscMetaFile).getD [] else [] }

inductive Call
  | accumulatePackedImage (image : PackedImage) (renamed persisted : Bool)
  | sealPendingDisc (renamed : Bool)
  | restart (pendingRead : Bool)

def serve (config : NodeConfig) (packer : DiscPacker) : Call → DiscPacker
  | .accumulatePackedImage image renamed persisted =>
      (packer.accumulatePackedImage config image renamed persisted).2
  | .sealPendingDisc renamed => (packer.sealPendingDisc renamed).2
  | .restart pendingRead => packer.restart pendingRead

def Serving (config : NodeConfig) (packer : DiscPacker) (call : Call) (packer' : DiscPacker) :
    Prop :=
  packer' = packer.serve config call

/-- The file of the list says what the list in memory says. -/
def InStep (packer : DiscPacker) : Prop :=
  packer.pendingDiscEntries = [] ∨
    packer.pendingDiscMeta = some (metaArea packer.pendingDiscEntries)

/-- The list stays below 64 bits with one more record, without wrapping around. -/
def Fits (config : NodeConfig) (packer : DiscPacker) (entry : DiscImageEntry) : Prop :=
  (fillDiscLayout config (packer.pendingDiscEntries ++ [entry])).2 < 2 ^ 64 ∧
    packer.pendingDiscEntries.length + 1 < 2 ^ 32

instance (packer : DiscPacker) : Decidable packer.InStep :=
  inferInstanceAs (Decidable (_ ∨ _))

instance (config : NodeConfig) (packer : DiscPacker) (entry : DiscImageEntry) :
    Decidable (packer.Fits config entry) :=
  inferInstanceAs (Decidable (_ ∧ _))

/-- What a call must meet for the discs to be sound: sums that do not wrap around, and a
    file in step with the memory when it is sealed. -/
def Sane (config : NodeConfig) (packer : DiscPacker) : Call → Prop
  | .accumulatePackedImage image _ _ =>
      image.sizeBytes ≠ 0 → ∀ digest ∈ image.digest,
        packer.Fits config (image.record digest) ∧
          (packer.needSeal config (image.record digest) → packer.InStep)
  | .sealPendingDisc _ => packer.InStep
  | .restart _ => True

end DiscPacker

/-- A sealed disc: its file gives its records back, they are laid out soundly, and a disc
    file that is written for them holds them and every image. -/
structure SealedDisc.Sound (config : NodeConfig) (disc : SealedDisc) : Prop where
  readBack : readDiscMetaFile disc.discMeta = some disc.entries
  layout : LayoutSound config disc.entries
  holds : ∀ space discId faults vdisc space',
    writeVdiscAndReleaseImages config space discId disc.entries faults = (some vdisc, space') →
      DiscHolds config space disc.entries vdisc

/-! ## Filling a layout again -/

variable {config : NodeConfig} {entries rest : List DiscImageEntry} {entry : DiscImageEntry}
  {block cursor cursor' : Nat}

/-- The places depend on the sizes alone. -/
theorem placeEntries_placeEntries (block cursor cursor' : Nat) (entries : List DiscImageEntry) :
    placeEntries block cursor (placeEntries block cursor' entries).1 =
      placeEntries block cursor entries := by
  induction entries generalizing cursor cursor' with
  | nil => rfl
  | cons entry entries ih =>
      have hrest := ih (cursor + alignUp entry.imageSizeBytes.toNat block)
        (cursor' + alignUp entry.imageSizeBytes.toNat block)
      simp only [placeEntries, hrest]

theorem length_placeEntries (block cursor : Nat) (entries : List DiscImageEntry) :
    (placeEntries block cursor entries).1.length = entries.length := by
  induction entries generalizing cursor with
  | nil => rfl
  | cons entry entries ih => exact congrArg (· + 1) (ih _)

theorem length_fillDiscLayout (config : NodeConfig) (entries : List DiscImageEntry) :
    (fillDiscLayout config entries).1.length = entries.length :=
  length_placeEntries _ _ _

theorem fillDiscLayout_fillDiscLayout (config : NodeConfig) (entries : List DiscImageEntry) :
    fillDiscLayout config (fillDiscLayout config entries).1 = fillDiscLayout config entries := by
  rw [fillDiscLayout, length_fillDiscLayout]
  exact placeEntries_placeEntries _ _ _ _

/-- A placed record has the size and the digest of the record that was placed. -/
theorem exists_of_mem_placeEntries (hmem : entry ∈ (placeEntries block cursor entries).1) :
    ∃ given ∈ entries, given.imageSizeBytes = entry.imageSizeBytes ∧
      given.sha256Hex = entry.sha256Hex := by
  induction entries generalizing cursor with
  | nil => cases hmem
  | cons first entries ih =>
      rcases List.mem_cons.mp hmem with rfl | hlater
      · exact ⟨first, List.mem_cons_self, rfl, rfl⟩
      · obtain ⟨given, hgiven, hsame⟩ := ih hlater
        exact ⟨given, List.mem_cons_of_mem _ hgiven, hsame⟩

theorem metadataAreaBytes_mono (config : NodeConfig) {count count' : Nat} (h : count ≤ count') :
    metadataAreaBytes config count ≤ metadataAreaBytes config count' := by
  apply alignUp_mono
  apply Nat.add_le_add_left
  apply Nat.mul_le_mul_right
  exact Nat.max_le.mpr ⟨Nat.le_trans h (Nat.le_max_left _ _), Nat.le_max_right _ _⟩

/-- A record on a disc of its own takes no more than behind others. -/
theorem fillDiscLayout_singleton_le (config : NodeConfig) (entries : List DiscImageEntry)
    (entry : DiscImageEntry) :
    (fillDiscLayout config [entry]).2 ≤ (fillDiscLayout config (entries ++ [entry])).2 := by
  rw [fillDiscLayout, fillDiscLayout, placeEntries_snd, placeEntries_snd]
  apply Nat.add_le_add
  · apply Nat.add_le_add_left
    apply metadataAreaBytes_mono
    rw [List.length_append]
    exact Nat.le_add_left _ _
  · rw [List.map_append, List.sum_append]
    exact Nat.le_add_left _ _

/-! ## One call -/

theorem PackedImage.storable_record (image : PackedImage) (digest : Digest) :
    (image.record digest).Storable :=
  ⟨Nat.le_of_eq digest.length_text, digest.zero_notMem⟩

theorem Laid.readDiscMetaFile (h : Laid config entries) :
    readDiscMetaFile (metaArea entries) = some entries :=
  readDiscMetaFile_metaArea h.storable h.count_lt

theorem Laid.sound (h : Laid config entries) :
    SealedDisc.Sound config ⟨entries, metaArea entries⟩ where
  readBack := h.readDiscMetaFile
  layout := h.layoutSound
  holds := fun _ _ _ _ _ hwritten => h.discHolds hwritten

/-- One more record on a list without room to spare. -/
theorem laid_append (hpending : entries = [] ∨ Laid config entries)
    (hsize : entry.imageSizeBytes ≠ 0) (hstorable : entry.Storable)
    (htotal : (fillDiscLayout config (entries ++ [entry])).2 < 2 ^ 64)
    (hcount : entries.length + 1 < 2 ^ 32)
    (hroom : entries = [] ∨
      (fillDiscLayout config (entries ++ [entry])).2 ≤ config.discCapacityBytes) :
    Laid config (fillDiscLayout config (entries ++ [entry])).1 := by
  have hsizes : ∀ given ∈ entries ++ [entry], given.imageSizeBytes ≠ 0 ∧ given.Storable := by
    intro given hmem
    rcases List.mem_append.mp hmem with hold | hnew
    · rcases hpending with rfl | hlaid
      · cases hold
      · exact ⟨hlaid.sizes _ hold, hlaid.storable _ hold⟩
    · rw [List.mem_singleton.mp hnew]
      exact ⟨hsize, hstorable⟩
  have hlength := length_fillDiscLayout config (entries ++ [entry])
  rw [List.length_append, List.length_singleton] at hlength
  refine ⟨?_, ?_, ?_, ?_, ?_, ?_⟩
  · rw [fillDiscLayout_fillDiscLayout]
  · rwa [fillDiscLayout_fillDiscLayout]
  · rw [fillDiscLayout_fillDiscLayout, hlength]
    rcases hroom with rfl | hcapacity
    · exact .inr rfl
    · exact .inl hcapacity
  · intro placed hmem
    obtain ⟨given, hgiven, hsame, _⟩ := exists_of_mem_placeEntries hmem
    rw [← hsame]
    exact (hsizes given hgiven).1
  · intro placed hmem
    obtain ⟨given, hgiven, _, hsame⟩ := exists_of_mem_placeEntries hmem
    have hgood := (hsizes given hgiven).2
    rw [DiscImageEntry.Storable, hsame] at hgood
    exact hgood
  · rw [hlength]
    exact hcount

namespace DiscPacker

variable {packer packer' : DiscPacker} {image : PackedImage} {digest : Digest} {disc : SealedDisc}
  {renamed persisted : Bool}

/-- The lists of the memory and of the file are laid out, and so is every sealed disc. -/
structure Tidy (config : NodeConfig) (packer : DiscPacker) : Prop where
  memory : packer.pendingDiscEntries = [] ∨ Laid config packer.pendingDiscEntries
  file : ∀ bytes ∈ packer.pendingDiscMeta, ∃ entries, Laid config entries ∧ bytes = metaArea entries
  discs : ∀ disc ∈ packer.sealedDiscs, disc.Sound config

theorem Tidy.start (config : NodeConfig) : Tidy config {} :=
  ⟨.inl rfl, fun _ hbytes => (nomatch hbytes), fun _ hmem => (nomatch hmem)⟩

/-- Either nothing happens, or the list and its file become a sealed disc. -/
theorem sealPendingDisc_cases (packer : DiscPacker) (renamed : Bool) :
    packer.pendingDiscEntries = [] ∧ packer.sealPendingDisc renamed = (true, packer) ∨
    packer.sealPendingDisc renamed = (false, packer) ∨
    packer.pendingDiscEntries ≠ [] ∧ ∃ discMeta, packer.pendingDiscMeta = some discMeta ∧
      packer.sealPendingDisc renamed = (true,
        { pendingDiscEntries := []
          pendingDiscMeta := none
          sealedDiscs := packer.sealedDiscs ++ [⟨packer.pendingDiscEntries, discMeta⟩] }) := by
  unfold sealPendingDisc
  split
  · rename_i hempty
    exact .inl ⟨List.isEmpty_iff.mp hempty, rfl⟩
  · rename_i hsome
    have hne : packer.pendingDiscEntries ≠ [] := fun hnil => hsome (List.isEmpty_iff.mpr hnil)
    split
    · rename_i discMeta hfile
      exact .inr (.inr ⟨hne, discMeta, hfile, rfl⟩)
    · exact .inr (.inl rfl)

theorem Tidy.sealPendingDisc (h : Tidy config packer) (hstep : packer.InStep) (renamed : Bool) :
    Tidy config (packer.sealPendingDisc renamed).2 := by
  rcases sealPendingDisc_cases packer renamed with ⟨_, hsame⟩ | hsame | ⟨hne, discMeta, hfile, hsealed⟩
  · rwa [hsame]
  · rwa [hsame]
  · rw [hsealed]
    refine ⟨.inl rfl, fun _ hbytes => (nomatch hbytes), fun disc hmem => ?_⟩
    rcases List.mem_append.mp hmem with hold | hnew
    · exact h.discs disc hold
    · have hlaid := h.memory.resolve_left hne
      have hmeta := hstep.resolve_left hne
      rw [hfile] at hmeta
      have hsame : discMeta = metaArea packer.pendingDiscEntries := Option.some.inj hmeta
      rw [List.mem_singleton.mp hnew, hsame]
      exact hlaid.sound

theorem Tidy.append (h : Tidy config packer) (hsize : image.sizeBytes ≠ 0)
    (hfits : packer.Fits config (image.record digest))
    (hroom : packer.pendingDiscEntries = [] ∨
      (fillDiscLayout config (packer.pendingDiscEntries ++ [image.record digest])).2 ≤
        config.discCapacityBytes) (persisted : Bool) :
    Tidy config (packer.append config (image.record digest) persisted) := by
  have hlaid := laid_append h.memory hsize (image.storable_record digest) hfits.1 hfits.2 hroom
  rw [← fillDiscLayout64_eq hfits.1] at hlaid
  refine ⟨.inr hlaid, fun bytes hbytes => ?_, h.discs⟩
  rw [DiscPacker.append] at hbytes
  cases persisted with
  | true =>
      have hsame : metaArea _ = bytes := Option.some.inj hbytes
      exact ⟨_, hlaid, hsame.symm⟩
  | false => exact h.file bytes hbytes

theorem room_of_not_needSeal (hfits : packer.Fits config entry)
    (h : ¬packer.needSeal config entry = true) :
    packer.pendingDiscEntries = [] ∨
      (fillDiscLayout config (packer.pendingDiscEntries ++ [entry])).2 ≤
        config.discCapacityBytes := by
  rcases eq_or_ne packer.pendingDiscEntries [] with hnil | hne
  · exact .inl hnil
  · right
    rw [← fillDiscLayout64_eq hfits.1]
    apply Nat.le_of_not_gt
    intro hover
    apply h
    have hsome : packer.pendingDiscEntries.isEmpty = false := by
      rwa [Bool.eq_false_iff, ne_eq, List.isEmpty_iff]
    rw [needSeal, hsome, decide_eq_true hover]
    rfl

theorem Tidy.accumulatePackedImage (h : Tidy config packer)
    (hsane : Sane config packer (.accumulatePackedImage image renamed persisted)) :
    Tidy config (packer.accumulatePackedImage config image renamed persisted).2 := by
  unfold DiscPacker.accumulatePackedImage
  split
  · exact h
  rename_i hsize
  split
  · exact h
  rename_i digest hdigest
  obtain ⟨hfits, hstep⟩ := hsane hsize digest hdigest
  dsimp only
  split
  · rename_i hneed
    have hafter := h.sealPendingDisc (hstep hneed) renamed
    rcases sealPendingDisc_cases packer renamed with ⟨hnil, hsame⟩ | hsame |
      ⟨_, discMeta, _, hsealed⟩
    · rw [hsame]
      exact h.append hsize hfits (.inl hnil) persisted
    · rw [hsame]
      exact h
    · rw [hsealed] at hafter ⊢
      have hone : (0 : Nat) + 1 < 2 ^ 32 := by decide
      refine hafter.append hsize ⟨?_, hone⟩ (.inl rfl) persisted
      exact Nat.lt_of_le_of_lt (fillDiscLayout_singleton_le _ _ _) hfits.1
  · rename_i hneed
    exact h.append hsize hfits (room_of_not_needSeal hfits hneed) persisted

theorem Tidy.restart (h : Tidy config packer) (pendingRead : Bool) :
    Tidy config (packer.restart pendingRead) := by
  refine ⟨?_, h.file, h.discs⟩
  unfold DiscPacker.restart
  cases pendingRead with
  | false => exact .inl rfl
  | true =>
      cases hfile : packer.pendingDiscMeta with
      | none => exact .inl rfl
      | some bytes =>
          obtain ⟨entries, hlaid, rfl⟩ := h.file bytes hfile
          right
          simpa [hlaid.readDiscMetaFile] using hlaid

theorem Tidy.serve {call : Call} (h : Tidy config packer) (hsane : Sane config packer call) :
    Tidy config (packer.serve config call) := by
  cases call with
  | accumulatePackedImage image renamed persisted => exact h.accumulatePackedImage hsane
  | sealPendingDisc renamed => exact h.sealPendingDisc hsane renamed
  | restart pendingRead => exact h.restart pendingRead

/-! ## Runs -/

/-- In every run whose calls are sane, every sealed disc is sound. -/
theorem sealed_discs_sound (config : NodeConfig) {hist : List (Served DiscPacker Call)}
    (hrun : Serves (Serving config) (Sane config) {} hist packer) :
    ∀ disc ∈ packer.sealedDiscs, disc.Sound config := by
  apply Tidy.discs
  apply hrun.invariant _ (Tidy.start config)
  rintro packer call packer' h hsane rfl
  exact h.serve hsane

def exampleConfig (discBlockSizeBytes : Nat) : NodeConfig where
  capacityInImages := 4
  availableIdCount := 4
  discCapacityBytes := 2 ^ 20
  standardImagesPerDisc := 1
  discBlockSizeBytes := discBlockSizeBytes
  imageDir := []

def exampleImage (volumeId sizeBytes : UInt64) : PackedImage where
  volumeId := volumeId
  sizeBytes := sizeBytes
  digest := some ⟨List.replicate 64 97, by decide, by decide⟩

/-- Two images of a node with blocks of 4096 bytes, and a seal. -/
def exampleCalls (secondPersisted : Bool) : List Call :=
  [.accumulatePackedImage (exampleImage 1 5000) true true,
    .accumulatePackedImage (exampleImage 2 70) true secondPersisted,
    .sealPendingDisc true]

theorem sealed_discs_sound_of_two_images :
    (∀ e ∈ (runOf (DiscPacker.serve (exampleConfig 4096)) {} (exampleCalls true)).1,
      Sane (exampleConfig 4096) e.before e.call) ∧
    ∀ disc ∈ (runOf (DiscPacker.serve (exampleConfig 4096)) {} (exampleCalls true)).2.sealedDiscs,
      disc.Sound (exampleConfig 4096) := by
  have hsane : ∀ e ∈ (runOf (DiscPacker.serve (exampleConfig 4096)) {} (exampleCalls true)).1,
      Sane (exampleConfig 4096) e.before e.call := by
    intro e hmem
    simp only [exampleCalls, runOf, List.mem_cons, List.not_mem_nil, or_false] at hmem
    rcases hmem with rfl | rfl | rfl
    · rintro _ digest ⟨⟩
      decide
    · rintro _ digest ⟨⟩
      decide
    · show InStep _
      decide +kernel
  have hstep : ∀ packer call, Serving (exampleConfig 4096) packer call
      (packer.serve (exampleConfig 4096) call) := fun _ _ => rfl
  exact ⟨hsane, sealed_discs_sound _ (serves_runOf hstep (exampleCalls true) _ hsane)⟩

/-- The second record is burned and not on the disc, as its list was not written; and with
    blocks of 2^63 bytes an image begins where the superblock does. -/
theorem unwritten_list_sealed :
    (∃ disc ∈ (runOf (DiscPacker.serve (exampleConfig 4096)) {} (exampleCalls false)).2.sealedDiscs,
      ¬disc.Sound (exampleConfig 4096)) ∧
    ∃ disc ∈ (runOf (DiscPacker.serve (exampleConfig (2 ^ 63))) {}
        (exampleCalls true)).2.sealedDiscs,
      ¬disc.Sound (exampleConfig (2 ^ 63)) := by
  constructor
  · refine ⟨_, List.mem_cons_self, fun hsound => ?_⟩
    exact absurd hsound.readBack (by decide +kernel)
  · refine ⟨_, List.mem_cons_self, fun hsound => ?_⟩
    have hbehind := hsound.layout.behindHead _ List.mem_cons_self
    exact absurd hbehind (by decide)

end DiscPacker

end Zb.OpticalNode
