-- SUMMARY: A log of records with length and checksum, and its replay up to a record that cannot be applied.
import ZBStorage.Lib.Bytes

/-!
# Logs of framed records

A record of the log is a payload between its length and its checksum. A replay reads
records from the front and applies their payloads to a state, and it stops at the first
record that is incomplete, has another checksum, or cannot be applied. The checksum is
any function of the payload, and payloads are at most `limit` bytes long.
-/

namespace WalRecords

open Bytes

variable {σ : Type} (crc : Bytes → UInt32) (limit : Nat) (apply : σ → Bytes → Option σ)

def frame (payload : Bytes) : Bytes :=
  ofNatLE 4 payload.length ++ (payload ++ ofNatLE 4 (crc payload).toNat)

/-- The payload of the first record, and what stands behind the record. -/
def nextFrame (bytes : Bytes) : Option (Bytes × Bytes) :=
  if bytes.length < 4 then none
  else
    let size := toNatLE (bytes.take 4)
    let body := bytes.drop 4
    if limit < size ∨ body.length < size + 4 then none
    else
      let payload := body.take size
      if toNatLE ((body.drop size).take 4) ≠ (crc payload).toNat then none
      else some (payload, body.drop (size + 4))

/-- The state after the records that can be applied, and the bytes from the first one on
    that cannot. -/
def replay : Nat → σ → Bytes → σ × Bytes
  | 0, state, bytes => (state, bytes)
  | fuel + 1, state, bytes =>
      match nextFrame crc limit bytes with
      | none => (state, bytes)
      | some (payload, rest) =>
          match apply state payload with
          | none => (state, bytes)
          | some state' => replay fuel state' rest

/-- No record is shorter than a byte. -/
def replayAll (state : σ) (bytes : Bytes) : σ × Bytes :=
  replay crc limit apply bytes.length state bytes

variable {crc limit apply} {payload rest : Bytes} {payloads : List Bytes} {state after : σ}

theorem length_frame : (frame crc payload).length = payload.length + 8 := by
  rw [frame, List.length_append, List.length_append, length_ofNatLE, length_ofNatLE]
  omega

theorem nextFrame_frame (crc : Bytes → UInt32) (rest : Bytes) (hsize : payload.length ≤ limit)
    (hlimit : limit < 2 ^ 32) :
    nextFrame crc limit (frame crc payload ++ rest) = some (payload, rest) := by
  have hlength : (frame crc payload ++ rest).length = payload.length + 8 + rest.length := by
    rw [List.length_append, length_frame]
  have hfront : (frame crc payload ++ rest).take 4 = ofNatLE 4 payload.length := by
    rw [frame, List.append_assoc]
    exact List.take_left' (length_ofNatLE 4 _)
  have hbody : (frame crc payload ++ rest).drop 4 =
      payload ++ (ofNatLE 4 (crc payload).toNat ++ rest) := by
    rw [frame, List.append_assoc, List.append_assoc]
    exact List.drop_left' (length_ofNatLE 4 _)
  have hnumber : toNatLE (ofNatLE 4 payload.length) = payload.length := by
    rw [toNatLE_ofNatLE]
    exact Nat.mod_eq_of_lt (by omega)
  have hcrc : toNatLE (ofNatLE 4 (crc payload).toNat) = (crc payload).toNat := by
    rw [toNatLE_ofNatLE]
    exact Nat.mod_eq_of_lt (crc payload).toNat_lt
  have hroom : ¬(limit < payload.length ∨
      (payload ++ (ofNatLE 4 (crc payload).toNat ++ rest)).length < payload.length + 4) := by
    rw [List.length_append, List.length_append, length_ofNatLE]
    omega
  rw [nextFrame, if_neg (by omega), hfront, hbody, hnumber]
  dsimp only
  rw [if_neg hroom, List.take_left, List.drop_left, List.take_left' (length_ofNatLE 4 _), hcrc,
    if_neg (not_not_intro rfl), ← List.drop_drop, List.drop_left,
    List.drop_left' (length_ofNatLE 4 _)]

theorem nextFrame_nil : nextFrame crc limit [] = none := if_pos (Nat.zero_lt_succ 3)

/-- Records that can be applied are applied one after another. -/
theorem replay_frames (crc : Bytes → UInt32) (hlimit : limit < 2 ^ 32)
    (hsize : ∀ payload ∈ payloads, payload.length ≤ limit)
    (happly : payloads.foldlM apply state = some after) (fuel : Nat) (rest : Bytes) :
    replay crc limit apply (payloads.length + fuel) state (payloads.flatMap (frame crc) ++ rest) =
      replay crc limit apply fuel after rest := by
  induction payloads generalizing state with
  | nil =>
      cases happly
      rw [List.length_nil, Nat.zero_add]
      rfl
  | cons payload payloads ih =>
      obtain ⟨next, hnext, hrest⟩ := Option.bind_eq_some_iff.mp happly
      have hframe := nextFrame_frame crc (payloads.flatMap (frame crc) ++ rest)
        (hsize payload List.mem_cons_self) hlimit
      rw [List.length_cons, Nat.add_right_comm, List.flatMap_cons, List.append_assoc, replay, hframe]
      dsimp only
      rw [hnext]
      exact ih (fun payload hmem => hsize payload (List.mem_cons_of_mem _ hmem)) hrest

theorem length_le_flatMap_frame (crc : Bytes → UInt32) (payloads : List Bytes) :
    payloads.length ≤ (payloads.flatMap (frame crc)).length := by
  induction payloads with
  | nil => exact Nat.le_refl 0
  | cons payload payloads ih =>
      rw [List.flatMap_cons, List.length_append, length_frame, List.length_cons]
      omega

theorem replay_stuck (hstuck : ∀ payload rest', nextFrame crc limit rest = some (payload, rest') →
    apply state payload = none) (fuel : Nat) :
    replay crc limit apply fuel state rest = (state, rest) := by
  cases fuel with
  | zero => rfl
  | succ fuel =>
      rw [replay]
      split
      · rfl
      · rename_i payload rest' hframe
        rw [hstuck payload rest' hframe]

/-- A log of records that can all be applied is read to its end. -/
theorem replayAll_frames (hlimit : limit < 2 ^ 32)
    (hsize : ∀ payload ∈ payloads, payload.length ≤ limit)
    (happly : payloads.foldlM apply state = some after) :
    replayAll crc limit apply state (payloads.flatMap (frame crc)) = (after, []) := by
  obtain ⟨fuel, hfuel⟩ := Nat.exists_eq_add_of_le (length_le_flatMap_frame crc payloads)
  have hrun := replay_frames crc hlimit hsize happly fuel []
  rw [List.append_nil] at hrun
  rw [replayAll, hfuel, hrun]
  refine replay_stuck (fun payload rest' hframe => ?_) fuel
  rw [nextFrame_nil] at hframe
  cases hframe

end WalRecords
