import AztecConnect.Client.BridgeCallData
import AztecConnect.Lib.ByteFormat
import Mathlib.Data.List.Forall2

/-!
# Serialising

Translation of `barretenberg.js/src/serialize` (`free_funcs.ts`, `deserializer.ts`) and of
`bigint_buffer`. A `Buffer` is a list of bytes; a slice that goes beyond its end is shorter, and what
reads a number beyond it throws.
-/

namespace AztecConnect.Client.Serialize

open ByteFormat

/-! ## Free functions -/

/-- `toBufferBE`: the number in `width` big-endian bytes. -/
def toBufferBE (num width : Nat) : Bytes := beBytes width (Client.toBufferBE num width)

/-- `toBigIntBE`. -/
def toBigIntBE (buf : Bytes) : Nat := beNat buf

/-- `writeUInt32BE`, which throws from 2³² on. -/
def writeUInt32BE (n : Nat) : Except String Bytes :=
  if n < 2 ^ 32 then .ok (beBytes 4 n) else .error "ERR_OUT_OF_RANGE"

/-- `boolToByte`. -/
def boolToByte (b : Bool) : Bytes := [if b then 1 else 0]

/-- `numToUInt32BE`: four bytes, behind zeros. -/
def numToUInt32BE (n : Nat) (bufferSize : Nat := 4) : Except String Bytes := do
  let bytes ← writeUInt32BE n
  .ok (List.replicate (bufferSize - 4) 0 ++ bytes)

/-- `serializeBufferToVector`: the length, then the bytes. -/
def serializeBufferToVector (buf : Bytes) : Except String Bytes := do
  let lengthBuf ← writeUInt32BE buf.length
  .ok (lengthBuf ++ buf)

/-- `serializeBigInt`. -/
def serializeBigInt (n : Nat) (width : Nat := 32) : Bytes := toBufferBE n width

/-- The milliseconds of a date. -/
def serializeDate (date : Nat) : Bytes := serializeBigInt date 8

/-- `serializeBufferArrayToVector`: the number of elements, then the elements. -/
def serializeBufferArrayToVector (arr : List Bytes) : Except String Bytes := do
  let lengthBuf ← writeUInt32BE arr.length
  .ok (lengthBuf ++ arr.flatten)

/-- `readUInt8`, which throws past the end. -/
def readUInt8 (buf : Bytes) (offset : Nat) : Except String Nat :=
  if offset + 1 ≤ buf.length then .ok (beNat (slice buf offset (offset + 1)))
  else .error "ERR_OUT_OF_RANGE"

/-- `readUInt32BE`, which throws past the end. -/
def readUInt32BE (buf : Bytes) (offset : Nat) : Except String Nat :=
  if offset + 4 ≤ buf.length then .ok (beNat (slice buf offset (offset + 4)))
  else .error "ERR_OUT_OF_RANGE"

/-- `deserializeBigInt`. -/
def deserializeBigInt (width : Nat) : Decoder Nat := fun buf offset =>
  .ok (toBigIntBE (slice buf offset (offset + width)), width)

/-- `deserializeBufferFromVector`. A length past the end gives the bytes there are. -/
def deserializeBufferFromVector : Decoder Bytes := fun vector offset => do
  let length ← readUInt32BE vector offset
  let adv := 4 + length
  .ok (slice vector (offset + 4) (offset + adv), adv)

/-- `deserializeBool`: any nonzero byte is true. -/
def deserializeBool : Decoder Nat := fun buf offset => do
  let elem ← readUInt8 buf offset
  .ok (elem, 1)

/-- `deserializeUInt32`. -/
def deserializeUInt32 : Decoder Nat := fun buf offset => do
  let elem ← readUInt32BE buf offset
  .ok (elem, 4)

/-- `deserializeField`. -/
def deserializeField : Decoder Bytes := fun buf offset => .ok (slice buf offset (offset + 32), 32)

/-- `deserializeArrayFromVector`. -/
def deserializeArrayFromVector {α : Type} (deserialize : Decoder α) : Decoder (List α) :=
  fun vector offset => do
    let size ← readUInt32BE vector offset
    let (arr, pos) ← repeatDecoder deserialize vector size (offset + 4)
    .ok (arr, pos - offset)

/-! ## The deserializer -/

/-- What a deserializer reads at its offset, and its offset then. -/
def exec {α : Type} (fn : Decoder α) (buf : Bytes) (offset : Nat) : Except String (α × Nat) := do
  let (elem, adv) ← fn buf offset
  .ok (elem, offset + adv)

namespace Deserializer

/-- `bool` of the `Deserializer`. -/
def bool (buf : Bytes) (offset : Nat) : Except String (Bool × Nat) := do
  let (n, offset) ← exec deserializeBool buf offset
  .ok (n != 0, offset)

/-- `buffer` of the `Deserializer`. -/
def buffer (width : Nat) (buf : Bytes) (offset : Nat) : Except String (Bytes × Nat) :=
  .ok (slice buf offset (offset + width), offset + width)

end Deserializer

/-! ## What is read back -/

variable {α : Type} {buf bs : Bytes} {offset n width : Nat}

/-- A number within the width is written as its bytes. -/
lemma toBufferBE_eq (h : n < 256 ^ width) : toBufferBE n width = beBytes width n := by
  rw [toBufferBE, Client.toBufferBE_eq]
  rwa [Nat.pow_mul]

/-- A 32-bit number is written as its four bytes. -/
lemma writeUInt32BE_eq (h : n < 2 ^ 32) : writeUInt32BE n = .ok (beBytes 4 n) := if_pos h

/-- And without zeros in front of them. -/
lemma numToUInt32BE_eq (h : n < 2 ^ 32) : numToUInt32BE n = .ok (beBytes 4 n) := by
  rw [numToUInt32BE, writeUInt32BE_eq h]
  rfl

/-- A buffer whose length fits 32 bits is written behind its length. -/
lemma serializeBufferToVector_eq (h : bs.length < 2 ^ 32) :
    serializeBufferToVector bs = .ok (beBytes 4 bs.length ++ bs) := by
  rw [serializeBufferToVector, writeUInt32BE_eq h]
  rfl

/-- An array whose length fits 32 bits is written behind its length. -/
lemma serializeBufferArrayToVector_eq {arr : List Bytes} (h : arr.length < 2 ^ 32) :
    serializeBufferArrayToVector arr = .ok (beBytes 4 arr.length ++ arr.flatten) := by
  rw [serializeBufferArrayToVector, writeUInt32BE_eq h]
  rfl

/-- A 32-bit number is read from where it stands. -/
lemma readUInt32BE_eq (h : n < 2 ^ 32) (hat : At buf offset (beBytes 4 n)) :
    readUInt32BE buf offset = .ok n := by
  have hle := hat.le (List.cons_ne_nil _ _)
  have hslice := hat.slice
  rw [length_beBytes] at hle hslice
  rw [readUInt32BE, if_pos hle, hslice, beNat_beBytes h]

/-- `deserializeUInt32` reads four bytes. -/
lemma decodes_deserializeUInt32 (h : n < 2 ^ 32) : Decodes deserializeUInt32 (beBytes 4 n) n := by
  intro buf offset hat
  rw [deserializeUInt32, readUInt32BE_eq h hat, length_beBytes]
  rfl

/-- `deserializeBigInt` reads the bytes of a number within the width. -/
lemma decodes_deserializeBigInt (h : n < 256 ^ width) :
    Decodes (deserializeBigInt width) (beBytes width n) n := by
  intro buf offset hat
  have hslice := hat.slice
  rw [length_beBytes] at hslice
  rw [deserializeBigInt, hslice, toBigIntBE, beNat_beBytes h, length_beBytes]

/-- `deserializeBufferFromVector` reads a buffer behind its length. -/
lemma decodes_deserializeBufferFromVector (h : bs.length < 2 ^ 32) :
    Decodes deserializeBufferFromVector (beBytes 4 bs.length ++ bs) bs := by
  intro buf offset hat
  obtain ⟨hlength, hbytes⟩ := at_append.mp hat
  have hslice := hbytes.slice
  rw [length_beBytes, Nat.add_assoc] at hslice
  rw [deserializeBufferFromVector, readUInt32BE_eq h hlength, List.length_append, length_beBytes]
  show Except.ok (slice buf (offset + 4) (offset + (4 + bs.length)), _) = _
  rw [hslice]

/-- `deserializeField` reads 32 bytes. -/
lemma decodes_deserializeField (h : bs.length = 32) : Decodes deserializeField bs bs := by
  intro buf offset hat
  have hslice := hat.slice
  rw [h] at hslice
  rw [deserializeField, hslice, h]

/-- `deserializeBool` reads the byte of a boolean. -/
lemma decodes_deserializeBool (b : Bool) : Decodes deserializeBool (boolToByte b) b.toNat := by
  intro buf offset hat
  have hle : offset + 1 ≤ buf.length := hat.le (List.cons_ne_nil _ _)
  have hslice : slice buf offset (offset + 1) = boolToByte b := hat.slice
  rw [deserializeBool, readUInt8, if_pos hle, hslice]
  cases b <;> rfl

/-- `deserializeArrayFromVector` reads elements that are read one by one. -/
lemma decodes_deserializeArrayFromVector {de : Decoder α} {bss : List Bytes} {elems : List α}
    (h : elems.length < 2 ^ 32) (helems : List.Forall₂ (Decodes de) bss elems) :
    Decodes (deserializeArrayFromVector de) (beBytes 4 elems.length ++ bss.flatten) elems := by
  intro buf offset hat
  obtain ⟨hlength, hbytes⟩ := at_append.mp hat
  rw [length_beBytes] at hbytes
  have hsub : offset + 4 + bss.flatten.length - offset = 4 + bss.flatten.length := by omega
  rw [deserializeArrayFromVector, readUInt32BE_eq h hlength, List.length_append, length_beBytes]
  show (do
    let (arr, pos) ← repeatDecoder de buf elems.length (offset + 4)
    .ok (arr, pos - offset)) = Except.ok _
  rw [repeatDecoder_eq helems hbytes, ← hsub]
  rfl

/-- `exec` reads what stands at the offset and moves behind it. -/
lemma exec_eq {de : Decoder α} {a : α} (h : Decodes de bs a) (hat : At buf offset bs) :
    exec de buf offset = .ok (a, offset + bs.length) := by
  rw [exec, h buf offset hat]
  rfl

/-- A result is passed on. -/
lemma bind_of_ok {β : Type} {x : Except String α} {a : α} (h : x = .ok a) (f : α → Except String β) :
    (x >>= f) = f a := by
  rw [h]
  rfl

/-- A part is decoded, then the rest. -/
lemma exec_bind {β : Type} {de : Decoder α} {a : α} (h : Decodes de bs a) (hat : At buf offset bs)
    (f : α × Nat → Except String β) : (exec de buf offset >>= f) = f (a, offset + bs.length) :=
  bind_of_ok (exec_eq h hat) f

/-- A boolean is read from where it stands. -/
lemma bool_eq {b : Bool} (hat : At buf offset (boolToByte b)) :
    Deserializer.bool buf offset = .ok (b, offset + (boolToByte b).length) := by
  rw [Deserializer.bool, exec_eq (decodes_deserializeBool b) hat]
  cases b <;> rfl

/-- So are bytes of the given width. -/
lemma buffer_eq (h : bs.length = width) (hat : At buf offset bs) :
    Deserializer.buffer width buf offset = .ok (bs, offset + bs.length) := by
  rw [Deserializer.buffer, ← h, hat.slice]

/-! ## Lists -/

/-- The bytes of an array. -/
def arrayBytes (arr : List Bytes) : Bytes := beBytes 4 arr.length ++ arr.flatten

/-- A function that never throws maps the list. -/
lemma mapM_eq {β : Type} {f : α → Except String β} {g : α → β} {elems : List α}
    (h : ∀ a ∈ elems, f a = .ok (g a)) : elems.mapM f = .ok (elems.map g) := by
  induction elems with
  | nil => rfl
  | cons a elems ih =>
    rw [List.mapM_cons, h a List.mem_cons_self, ih fun a ha => h a (List.mem_cons_of_mem _ ha)]
    rfl

/-- An array whose elements are written is written. -/
lemma serializeArray_eq {ser : α → Except String Bytes} {bytes : α → Bytes} {elems : List α}
    (hlength : elems.length < 2 ^ 32) (h : ∀ a ∈ elems, ser a = .ok (bytes a)) :
    (elems.mapM ser >>= serializeBufferArrayToVector) = .ok (arrayBytes (elems.map bytes)) := by
  rw [← List.length_map bytes] at hlength
  rw [mapM_eq h]
  exact serializeBufferArrayToVector_eq hlength

/-- And read back. -/
lemma decodes_array {de : Decoder α} {bytes : α → Bytes} {elems : List α}
    (hlength : elems.length < 2 ^ 32) (h : ∀ a ∈ elems, Decodes de (bytes a) a) :
    Decodes (deserializeArrayFromVector de) (arrayBytes (elems.map bytes)) elems := by
  rw [arrayBytes, List.length_map]
  refine decodes_deserializeArrayFromVector hlength ?_
  rw [List.forall₂_map_left_iff, List.forall₂_same]
  exact h

/-- The elements can be serialised, each to the bytes that are decoded as it. -/
lemma mapM_decodes {ser : α → Except String Bytes} {de : Decoder α} {elems : List α}
    (h : ∀ a ∈ elems, ∃ bs, ser a = .ok bs ∧ Decodes de bs a) :
    ∃ bss, elems.mapM ser = .ok bss ∧ List.Forall₂ (Decodes de) bss elems := by
  induction elems with
  | nil => exact ⟨[], rfl, .nil⟩
  | cons a elems ih =>
    obtain ⟨bs, hbs, hdecodes⟩ := h a List.mem_cons_self
    obtain ⟨bss, hbss, hall⟩ := ih fun a ha => h a (List.mem_cons_of_mem _ ha)
    refine ⟨bs :: bss, ?_, .cons hdecodes hall⟩
    rw [List.mapM_cons, hbs, hbss]
    rfl

/-- An array of what can be serialised. -/
lemma array_decodes {ser : α → Except String Bytes} {de : Decoder α} {elems : List α}
    (hlength : elems.length < 2 ^ 32) (h : ∀ a ∈ elems, ∃ bs, ser a = .ok bs ∧ Decodes de bs a) :
    ∃ bs, (elems.mapM ser >>= serializeBufferArrayToVector) = .ok bs ∧
      Decodes (deserializeArrayFromVector de) bs elems := by
  obtain ⟨bss, hbss, hall⟩ := mapM_decodes h
  have hsame := hall.length_eq
  refine ⟨beBytes 4 bss.length ++ bss.flatten, ?_, ?_⟩
  · rw [hbss]
    exact serializeBufferArrayToVector_eq (hsame ▸ hlength)
  · rw [hsame]
    exact decodes_deserializeArrayFromVector hlength hall

/-! ## What has been read -/

/-- A chain that does not throw has an intermediate result. -/
lemma bind_ok {β : Type} {x : Except String α} {f : α → Except String β} {b : β}
    (h : (x >>= f) = .ok b) : ∃ a, x = .ok a ∧ f a = .ok b := by
  cases x with
  | error e => nomatch h
  | ok a => exact ⟨a, rfl, h⟩

/-- `exec` moves by what was read. -/
lemma exec_ok {de : Decoder α} {a : α} {stop : Nat} (h : exec de buf offset = .ok (a, stop)) :
    ∃ adv, de buf offset = .ok (a, adv) ∧ stop = offset + adv := by
  obtain ⟨⟨elem, adv⟩, hde, h⟩ := bind_ok h
  cases h
  exact ⟨adv, hde, rfl⟩

/-- What is read as a number are its four bytes. -/
lemma readUInt32BE_exact (h : readUInt32BE buf offset = .ok n) : At buf offset (beBytes 4 n) := by
  unfold readUInt32BE at h
  split at h
  case isTrue hle =>
    cases h
    have hlength : (slice buf offset (offset + 4)).length = 4 := by
      rw [length_slice hle, Nat.add_sub_cancel_left]
    have hbytes := beBytes_beNat (slice buf offset (offset + 4))
    rw [hlength] at hbytes
    rw [hbytes]
    exact at_slice buf offset _
  case isFalse => nomatch h

/-- What is read as a number are its bytes. -/
lemma exact_deserializeBigInt (width : Nat) : Exact (deserializeBigInt width) (beBytes width) := by
  intro buf offset n adv h hle
  cases h
  have hlength : (slice buf offset (offset + width)).length = width := by
    rw [length_slice hle, Nat.add_sub_cancel_left]
  have hbytes := beBytes_beNat (slice buf offset (offset + width))
  rw [hlength] at hbytes
  rw [toBigIntBE, hbytes, hlength]
  exact ⟨at_slice buf offset _, rfl⟩

/-- A field is read as it stands. -/
lemma exact_deserializeField : Exact deserializeField id := by
  intro buf offset field adv h hle
  cases h
  exact ⟨at_slice buf offset _, by rw [id_eq, length_slice hle, Nat.add_sub_cancel_left]⟩

/-- What is read as an array are the bytes of the array. -/
lemma exact_deserializeArrayFromVector {de : Decoder α} {bytes : α → Bytes} (hde : Exact de bytes) :
    Exact (deserializeArrayFromVector de) fun elems => arrayBytes (elems.map bytes) := by
  intro buf offset elems adv h hle
  obtain ⟨size, hsize, h⟩ := bind_ok h
  obtain ⟨⟨arr, pos⟩, harr, h⟩ := bind_ok h
  cases h
  have hpos := repeatDecoder_le harr
  obtain ⟨rfl, hat, rfl⟩ := repeatDecoder_exact hde harr (by omega)
  dsimp only
  rw [arrayBytes, List.length_map]
  refine ⟨at_append.mpr ⟨readUInt32BE_exact hsize, ?_⟩, ?_⟩
  · rw [length_beBytes]
    exact hat
  · rw [List.length_append, length_beBytes]
    omega

end AztecConnect.Client.Serialize
