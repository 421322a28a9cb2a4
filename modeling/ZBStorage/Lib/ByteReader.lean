-- SUMMARY: Reading from the front of a byte string: which bytes a reader takes and what it makes of them.
import ZBStorage.Lib.Bytes

/-!
# Reading from the front

A reader takes bytes from the front and leaves the rest, or fails. `Reads read bytes
value` says that `read` makes `value` of `bytes` whatever stands after them, so a format
that is written piece by piece is read back by composing its pieces.
-/

namespace Bytes

abbrev Reader (α : Type) := StateT Bytes Option α

def readRaw (n : Nat) : Reader Bytes := fun data =>
  if n ≤ data.length then some (data.take n, data.drop n) else none

/-- Goes on if the number of bytes left is acceptable. -/
def checkRemaining (p : Nat → Bool) : Reader Unit := fun data =>
  if p data.length then some ((), data) else none

def nextU8 : Reader UInt8 := do return UInt8.ofNat (toNatLE (← readRaw 1))
def nextU32 : Reader UInt32 := do return UInt32.ofNat (toNatLE (← readRaw 4))
def nextU64 : Reader UInt64 := do return UInt64.ofNat (toNatLE (← readRaw 8))

/-- A length and as many bytes. -/
def nextString : Reader Bytes := do readRaw (← nextU32).toNat

def nextMany {α : Type} (read : Reader α) : Nat → Reader (List α)
  | 0 => return []
  | count + 1 => do
      let value ← read
      return value :: (← nextMany read count)

/-- The value that takes all of the bytes. -/
def readAll {α : Type} (read : Reader α) (data : Bytes) : Option α := do
  let (value, rest) ← read data
  if rest.isEmpty then some value else none

/-! ## Writers -/

def putU8 (value : UInt8) : Bytes := ofNatLE 1 value.toNat
def putU32 (value : UInt32) : Bytes := ofNatLE 4 value.toNat
def putU64 (value : UInt64) : Bytes := ofNatLE 8 value.toNat
def putString (value : Bytes) : Bytes := putU32 (UInt32.ofNat value.length) ++ value

@[simp] theorem length_putU8 (value : UInt8) : (putU8 value).length = 1 := length_ofNatLE ..
@[simp] theorem length_putU32 (value : UInt32) : (putU32 value).length = 4 := length_ofNatLE ..
@[simp] theorem length_putU64 (value : UInt64) : (putU64 value).length = 8 := length_ofNatLE ..

@[simp] theorem length_putString (value : Bytes) : (putString value).length = 4 + value.length := by
  rw [putString, List.length_append, length_putU32]

/-! ## What a reader makes of the bytes in front -/

def Reads {α : Type} (read : Reader α) (bytes : Bytes) (value : α) : Prop :=
  ∀ rest, read (bytes ++ rest) = some (value, rest)

variable {α β : Type} {read : Reader α} {bytes more : Bytes} {value : α} {result : β}

theorem Reads.pure (value : α) : Reads (pure value) [] value := fun _ => rfl

theorem Reads.bind {next : α → Reader β} (h : Reads read bytes value)
    (hnext : Reads (next value) more result) : Reads (read >>= next) (bytes ++ more) result := by
  intro rest
  have hread := h (more ++ rest)
  rw [List.append_assoc]
  change (read (bytes ++ (more ++ rest))).bind _ = _
  rw [hread]
  exact hnext rest

theorem Reads.map {f : α → β} (h : Reads read bytes value) :
    Reads (do return f (← read)) bytes (f value) := by
  rw [← List.append_nil bytes]
  exact h.bind (Reads.pure (f value))

theorem Reads.raw {n : Nat} (h : bytes.length = n) : Reads (readRaw n) bytes bytes := by
  intro rest
  have hlength : n ≤ (bytes ++ rest).length := by
    rw [List.length_append]
    omega
  rw [readRaw, if_pos hlength, List.take_left' h, List.drop_left' h]

theorem Reads.check {p : Nat → Bool} (hp : ∀ n, bytes.length ≤ n → p n = true)
    (h : Reads read bytes value) : Reads (do checkRemaining p; read) bytes value := by
  intro rest
  have hcheck : p (bytes ++ rest).length = true := hp _ (by
    rw [List.length_append]
    omega)
  change (checkRemaining p (bytes ++ rest)).bind _ = _
  rw [checkRemaining, if_pos hcheck]
  exact h rest

theorem reads_u8 (value : UInt8) : Reads nextU8 (putU8 value) value := by
  have h := (Reads.raw (length_putU8 value)).map (f := fun data => UInt8.ofNat (toNatLE data))
  have hvalue : UInt8.ofNat (toNatLE (putU8 value)) = value := by
    rw [putU8, toNatLE_ofNatLE, Nat.mod_eq_of_lt (by simpa using value.toNat_lt), UInt8.ofNat_toNat]
  rwa [hvalue] at h

theorem reads_u32 (value : UInt32) : Reads nextU32 (putU32 value) value := by
  have h := (Reads.raw (length_putU32 value)).map (f := fun data => UInt32.ofNat (toNatLE data))
  have hvalue : UInt32.ofNat (toNatLE (putU32 value)) = value := by
    rw [putU32, toNatLE_ofNatLE, Nat.mod_eq_of_lt (by simpa using value.toNat_lt),
      UInt32.ofNat_toNat]
  rwa [hvalue] at h

theorem reads_u64 (value : UInt64) : Reads nextU64 (putU64 value) value := by
  have h := (Reads.raw (length_putU64 value)).map (f := fun data => UInt64.ofNat (toNatLE data))
  have hvalue : UInt64.ofNat (toNatLE (putU64 value)) = value := by
    rw [putU64, toNatLE_ofNatLE, Nat.mod_eq_of_lt (by simpa using value.toNat_lt),
      UInt64.ofNat_toNat]
  rwa [hvalue] at h

theorem toNat_ofNat_length {values : List α} (h : values.length < 2 ^ 32) :
    (UInt32.ofNat values.length).toNat = values.length := by
  rw [UInt32.toNat_ofNat', Nat.mod_eq_of_lt h]

theorem reads_string {text : Bytes} (h : text.length < 2 ^ 32) :
    Reads nextString (putString text) text := by
  apply (reads_u32 _).bind
  rw [toNat_ofNat_length h]
  exact Reads.raw rfl

theorem Reads.many {write : β → Bytes} {back : β → α} {values : List β}
    (h : ∀ value ∈ values, Reads read (write value) (back value)) :
    Reads (nextMany read values.length) (values.flatMap write) (values.map back) := by
  induction values with
  | nil => exact Reads.pure []
  | cons value values ih =>
      have hrest := ih fun other hmem => h other (List.mem_cons_of_mem _ hmem)
      exact (h value List.mem_cons_self).bind (hrest.map (f := fun values => back value :: values))

theorem Reads.lift (value : α) : Reads (StateT.lift (some value)) [] value := fun _ => rfl

theorem Reads.all (h : Reads read bytes value) : readAll read bytes = some value := by
  have hread := h []
  rw [List.append_nil] at hread
  rw [readAll, hread]
  rfl

/-! ## How many bytes a reader takes -/

/-- The reader takes `n` bytes, whatever they are, and fails exactly when there are fewer. -/
def Takes {α : Type} (read : Reader α) (n : Nat) : Prop :=
  ∀ data, (data.length < n ∧ read data = none) ∨
    (n ≤ data.length ∧ ∃ value, Reads read (data.take n) value)

theorem Reads.of_take {n : Nat} {data : Bytes} (h : Reads read (data.take n) value) :
    read data = some (value, data.drop n) := by
  have hread := h (data.drop n)
  rwa [List.take_append_drop] at hread

theorem takes_raw (n : Nat) : Takes (readRaw n) n := by
  intro data
  by_cases hle : n ≤ data.length
  · exact .inr ⟨hle, _, Reads.raw (List.length_take_of_le hle)⟩
  · exact .inl ⟨Nat.lt_of_not_le hle, if_neg hle⟩

theorem takes_pure (value : α) : Takes (pure value) 0 := fun _ =>
  .inr ⟨Nat.zero_le _, value, Reads.pure value⟩

theorem Takes.bind {next : α → Reader β} {n k : Nat} (h : Takes read n)
    (hnext : ∀ value, Takes (next value) k) : Takes (read >>= next) (n + k) := by
  intro data
  have hlength : (data.drop n).length = data.length - n := List.length_drop
  rcases h data with ⟨hlt, hread⟩ | ⟨hle, value, hread⟩
  · refine .inl ⟨by omega, ?_⟩
    change (read data).bind _ = none
    rw [hread]
    rfl
  · rcases hnext value (data.drop n) with ⟨hlt, hrest⟩ | ⟨hle', result, hrest⟩
    · refine .inl ⟨by omega, ?_⟩
      change (read data).bind _ = none
      rw [hread.of_take]
      exact hrest
    · refine .inr ⟨by omega, result, ?_⟩
      rw [List.take_add]
      exact hread.bind hrest

theorem takes_u8 : Takes nextU8 1 := (takes_raw 1).bind fun _ => takes_pure _
theorem takes_u32 : Takes nextU32 4 := (takes_raw 4).bind fun _ => takes_pure _
theorem takes_u64 : Takes nextU64 8 := (takes_raw 8).bind fun _ => takes_pure _

theorem length_le_flatMap (write : β → Bytes) {values : List β} {v : β} (h : v ∈ values) :
    (write v).length ≤ (values.flatMap write).length := by
  obtain ⟨before, after, rfl⟩ := List.append_of_mem h
  rw [List.flatMap_append, List.flatMap_cons, List.length_append, List.length_append]
  omega

/-- Values that take at least so many bytes each. -/
theorem mul_length_le_flatMap {write : β → Bytes} {n : Nat} (h : ∀ v, n ≤ (write v).length)
    (values : List β) : values.length * n ≤ (values.flatMap write).length := by
  induction values with
  | nil => simp
  | cons v values ih =>
      have hv := h v
      rw [List.length_cons, List.flatMap_cons, List.length_append, Nat.succ_mul]
      omega

end Bytes
