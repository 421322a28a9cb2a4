-- SUMMARY: The manifest of a staged batch as text, read back with its scores rounded.
import ZBStorage.DataNode.FileMetaStore
import ZBStorage.Mds.Archive.ArchiveBatchStager

/-!
# The text of the manifest

`PersistManifestLocked` writes a line for the batch and one for each of its objects that is not
done, with the fields separated by tabs; `LoadManifestLocked` reads them. The scores are doubles
that a stream writes with few digits, so they come back rounded.
-/

namespace Zb.Mds.ArchiveBatchStager

open Bytes TextFields
open DataNode (Plain plain_decimal newline)

/-- How a stream writes a double, and how `std::stod` reads it, by the bits of the double. What
    was read once is read again as it is. -/
structure ScoreText where
  text : UInt64 → Bytes
  stod : Bytes → Option UInt64
  plain_text : ∀ score, Plain (text score)
  stod_stable : ∀ {score rounded}, stod (text score) = some rounded →
    stod (text rounded) = some rounded

variable (scores : ScoreText) (stager : ArchiveBatchStager) (staged : StagedArchiveObject)

/-! ## Writing -/

/-- The objects of the batch in its order. -/
def ordered : List StagedArchiveObject := stager.objectOrder.filterMap stager.objects.lookup

/-- The objects that the manifest lists. -/
def pending : List StagedArchiveObject := stager.ordered.filter fun staged => !staged.done

def headerFields : List Bytes :=
  [ofAscii "B", stager.batchId, decimal stager.createdTsMs.toNat,
    ofAscii (if stager.isSealed then "1" else "0"), decimal stager.totalBytes.toNat]

def entryFields : List Bytes :=
  [ofAscii "E", staged.candidate.objectId, staged.candidate.nodeId, staged.candidate.nodeAddress,
    staged.candidate.diskId, decimal staged.candidate.lastAccessTsMs.toNat,
    decimal staged.candidate.sizeBytes.toNat, decimal staged.candidate.checksum.toNat,
    scores.text staged.candidate.heatScore, staged.candidate.archiveState,
    decimal staged.candidate.version.toNat, scores.text staged.candidate.score,
    decimal staged.candidate.reportTsMs.toNat, staged.leaseId, staged.opId, staged.objectKey,
    decimal staged.version.toNat, decimal staged.sizeBytes.toNat]

def headerLine : Bytes :=
  stager.headerFields.flatMap (· ++ [DataNode.tab]) ++ decimal stager.options.discSizeBytes.toNat

def entryLine : Bytes :=
  (entryFields scores staged).flatMap (· ++ [DataNode.tab]) ++ staged.dataFile

def manifestText : Bytes :=
  (stager.headerLine :: stager.pending.map (entryLine scores)).flatMap (· ++ [newline])

/-! ## Reading -/

def parseHeader (fields : List Bytes) : ManifestLine :=
  match fields with
  | [_, batchId, created, isSealed, total, disc] =>
      match stoull created, stoull total, stoull disc with
      | some createdTsMs, some totalBytes, some _ =>
          .header batchId createdTsMs (isSealed = ofAscii "1") totalBytes
      | _, _, _ => .bad (ofAscii "invalid staging manifest header values")
  | _ => .bad (ofAscii "invalid staging manifest header")

def parseEntry (lineNo : Nat) (fields : List Bytes) : ManifestLine :=
  match fields with
  | [tag, objectId, nodeId, nodeAddress, diskId, lastAccess, size, checksum, heat, archiveState,
      version, score, report, leaseId, opId, objectKey, objectVersion, stagedSize, dataFile] =>
      if tag ≠ ofAscii "E" then
        .bad (ofAscii "invalid staging manifest entry at line " ++ decimal lineNo)
      else
        let values : Option StagedArchiveObject := do
          let lastAccessTsMs ← stoull lastAccess
          let sizeBytes ← stoull size
          let checksum ← stoull checksum
          let heatScore ← scores.stod heat
          let version ← stoull version
          let score ← scores.stod score
          let reportTsMs ← stoull report
          let objectVersion ← stoull objectVersion
          let stagedSize ← stoull stagedSize
          some
            { candidate :=
                { nodeId, nodeAddress, diskId, objectId, lastAccessTsMs, sizeBytes, checksum,
                  heatScore, archiveState, version, score, reportTsMs }
              leaseId, opId, objectKey
              version := objectVersion
              sizeBytes := stagedSize
              dataFile
              done := false }
        match values with
        | some staged => .entry staged
        | none => .bad (ofAscii "invalid staging manifest values at line " ++ decimal lineNo)
  | _ => .bad (ofAscii "invalid staging manifest entry at line " ++ decimal lineNo)

def parseLine (lineNo : Nat) (line : Bytes) : ManifestLine :=
  let fields := getLines DataNode.tab [] line
  if fields.head? = some (ofAscii "B") then parseHeader fields else parseEntry scores lineNo fields

/-- The lines from the one with the number `lineNo` on; empty ones are passed over. -/
def parseLines : Nat → List Bytes → List ManifestLine
  | _, [] => []
  | lineNo, line :: lines =>
      if line = [] then parseLines (lineNo + 1) lines
      else parseLine scores lineNo line :: parseLines (lineNo + 1) lines

def parseManifest (text : Bytes) : List ManifestLine :=
  parseLines scores 1 (getLines newline [] text)

/-! ## Reading back -/

def ScoreText.Reads (score : UInt64) : Prop := (scores.stod (scores.text score)).isSome

def ScoreText.rounded (score : UInt64) : UInt64 := (scores.stod (scores.text score)).getD score

/-- What is read back of an object. -/
def rounded : StagedArchiveObject :=
  { staged with
    candidate :=
      { staged.candidate with
        heatScore := scores.rounded staged.candidate.heatScore
        score := scores.rounded staged.candidate.score }
    done := false }

/-- A candidate that a line can carry. -/
structure PlainCandidate (candidate : ArchiveCandidateEntry) : Prop where
  objectId : Plain candidate.objectId
  nodeId : Plain candidate.nodeId
  nodeAddress : Plain candidate.nodeAddress
  diskId : Plain candidate.diskId
  archiveState : Plain candidate.archiveState
  heatScore : scores.Reads candidate.heatScore
  score : scores.Reads candidate.score

structure PlainObject : Prop where
  candidate : PlainCandidate scores staged.candidate
  leaseId : Plain staged.leaseId
  opId : Plain staged.opId
  objectKey : Plain staged.objectKey
  dataFile : Plain staged.dataFile
  dataFile_ne : staged.dataFile ≠ []

variable {scores stager staged}

theorem ScoreText.Reads.stod_text {score : UInt64} (h : scores.Reads score) :
    scores.stod (scores.text score) = some (scores.rounded score) := by
  obtain ⟨rounded, hread⟩ := Option.isSome_iff_exists.mp h
  rw [ScoreText.rounded, hread]
  rfl

theorem ScoreText.Reads.rounded {score : UInt64} (h : scores.Reads score) :
    scores.Reads (scores.rounded score) ∧
      scores.rounded (scores.rounded score) = scores.rounded score := by
  have hagain := scores.stod_stable h.stod_text
  refine ⟨?_, ?_⟩
  · rw [ScoreText.Reads, hagain]
    rfl
  · rw [ScoreText.rounded, hagain]
    rfl

theorem PlainObject.fields (h : PlainObject scores staged) :
    ∀ field ∈ entryFields scores staged, Plain field := by
  have htag : Plain (ofAscii "E") := by decide
  simp only [entryFields, List.forall_mem_cons]
  exact ⟨htag, h.candidate.objectId, h.candidate.nodeId, h.candidate.nodeAddress,
    h.candidate.diskId, plain_decimal _, plain_decimal _,
    plain_decimal _, scores.plain_text _, h.candidate.archiveState,
    plain_decimal _, scores.plain_text _, plain_decimal _, h.leaseId, h.opId,
    h.objectKey, plain_decimal _, plain_decimal _, nofun⟩

theorem parseLine_entryLine (h : PlainObject scores staged) (lineNo : Nat) :
    parseLine scores lineNo (entryLine scores staged) = .entry (rounded scores staged) := by
  rw [parseLine, entryLine, DataNode.getLines_fields h.fields h.dataFile h.dataFile_ne]
  have htag : ¬ (entryFields scores staged ++ [staged.dataFile]).head? = some (ofAscii "B") := by
    simp only [entryFields, List.cons_append, List.head?_cons]
    decide
  rw [if_neg htag]
  simp only [entryFields, List.cons_append, List.nil_append, parseEntry, ne_eq, not_true_eq_false,
    if_false, stoull_decimal, h.candidate.heatScore.stod_text, h.candidate.score.stod_text,
    Option.bind_eq_bind, Option.bind_some]
  rfl

theorem plain_headerFields (h : Plain stager.batchId) :
    ∀ field ∈ stager.headerFields, Plain field := by
  have htag : Plain (ofAscii "B") := by decide
  have hsealed : Plain (ofAscii (if stager.isSealed then "1" else "0")) := by
    split
    · decide
    · decide
  simp only [headerFields, List.forall_mem_cons]
  exact ⟨htag, h, plain_decimal _, hsealed, plain_decimal _, nofun⟩

theorem parseLine_headerLine (h : Plain stager.batchId) (lineNo : Nat) :
    parseLine scores lineNo stager.headerLine =
      .header stager.batchId stager.createdTsMs stager.isSealed stager.totalBytes := by
  rw [parseLine, headerLine, DataNode.getLines_fields (plain_headerFields h)
    (plain_decimal _) (decimal_ne_nil _)]
  have hsealed : decide (ofAscii (if stager.isSealed = true then "1" else "0") = ofAscii "1") =
      stager.isSealed := by
    cases stager.isSealed with
    | false => decide
    | true => decide
  simp only [headerFields, List.cons_append, List.nil_append, List.head?_cons, if_true,
    parseHeader, stoull_decimal, hsealed]

theorem parseLines_entries {entries : List StagedArchiveObject}
    (h : ∀ staged ∈ entries, PlainObject scores staged) (lineNo : Nat) :
    parseLines scores lineNo (entries.map (entryLine scores)) =
      entries.map fun staged => .entry (rounded scores staged) := by
  induction entries generalizing lineNo with
  | nil => rfl
  | cons staged entries ih =>
      have hplain := h staged List.mem_cons_self
      have hne : entryLine scores staged ≠ [] :=
        List.append_ne_nil_of_right_ne_nil _ hplain.dataFile_ne
      rw [List.map_cons, parseLines, if_neg hne, parseLine_entryLine hplain,
        ih fun other hmem => h other (List.mem_cons_of_mem _ hmem)]
      rfl

/-- The lines that the text of a batch is read as. -/
def manifestLines (scores : ScoreText) (stager : ArchiveBatchStager) : List ManifestLine :=
  .header stager.batchId stager.createdTsMs stager.isSealed stager.totalBytes ::
    stager.pending.map fun staged => .entry (rounded scores staged)

theorem parseManifest_manifestText (hbatch : Plain stager.batchId)
    (hpending : ∀ staged ∈ stager.pending, PlainObject scores staged) :
    parseManifest scores (stager.manifestText scores) = manifestLines scores stager := by
  have hlines : ∀ line ∈ stager.headerLine :: stager.pending.map (entryLine scores),
      newline ∉ line := by
    intro line hline
    rcases List.mem_cons.mp hline with rfl | hline
    · exact DataNode.newline_notMem_fields (plain_headerFields hbatch) (plain_decimal _)
    · obtain ⟨staged, hmem, rfl⟩ := List.mem_map.mp hline
      have hplain := hpending staged hmem
      exact DataNode.newline_notMem_fields hplain.fields hplain.dataFile
  have hheader : stager.headerLine ≠ [] :=
    List.append_ne_nil_of_right_ne_nil _ (decimal_ne_nil _)
  rw [parseManifest, manifestText, getLines_flatMap hlines, parseLines, if_neg hheader,
    parseLine_headerLine hbatch, parseLines_entries hpending]
  rfl

end Zb.Mds.ArchiveBatchStager
