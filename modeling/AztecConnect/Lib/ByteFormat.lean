import Mathlib.Data.List.Basic
import Mathlib.Tactic.Ring

/-!
# Formats of bytes

A buffer is a list of bytes. A decoder is given a buffer and an offset, and returns a value and how far
it went. It decodes some bytes as a value (`Decodes`) if it returns the value and their length wherever
they stand in whatever buffer, so that nothing outside of them has an effect. A reader takes what it
needs from the front (`Reads`). Both have a rule for parts in a row and one for repetition.
-/

namespace ByteFormat

/-- A buffer. -/
abbrev Bytes := List UInt8

/-! ## Big-endian numbers -/

/-- The lower bytes of a number, as many as the width. -/
def beBytes : Nat → Nat → Bytes
  | 0, _ => []
  | width + 1, n => UInt8.ofNat (n / 256 ^ width) :: beBytes width n

/-- The number of big-endian bytes. -/
def beNat (bs : Bytes) : Nat := bs.foldl (fun n b => n * 256 + b.toNat) 0

/-- A number in `width` bytes has `width` bytes. -/
@[simp] lemma length_beBytes (width n : Nat) : (beBytes width n).length = width := by
  induction width with
  | zero => rfl
  | succ width ih => rw [beBytes, List.length_cons, ih]

/-- Bytes behind a number extend it. -/
lemma foldl_beNat (bs : Bytes) (n : Nat) :
    bs.foldl (fun n b => n * 256 + b.toNat) n = n * 256 ^ bs.length + beNat bs := by
  unfold beNat
  induction bs generalizing n with
  | nil => simp
  | cons b bs ih =>
    rw [List.foldl_cons, ih, List.foldl_cons, ih (0 * 256 + b.toNat), List.length_cons]
    ring

/-- The number of two buffers, one behind the other. -/
lemma beNat_append (xs ys : Bytes) : beNat (xs ++ ys) = beNat xs * 256 ^ ys.length + beNat ys := by
  rw [beNat, List.foldl_append, foldl_beNat]
  rfl

/-- The first byte is the most significant one. -/
lemma beNat_cons (b : UInt8) (bs : Bytes) : beNat (b :: bs) = b.toNat * 256 ^ bs.length + beNat bs := by
  rw [← List.singleton_append, beNat_append]
  simp [beNat]

/-- The number is below the power of the length. -/
lemma beNat_lt (bs : Bytes) : beNat bs < 256 ^ bs.length := by
  induction bs with
  | nil => exact Nat.one_pos
  | cons b bs ih =>
    have hb : b.toNat + 1 ≤ 256 := b.toNat_lt
    have hle := Nat.mul_le_mul_right (256 ^ bs.length) hb
    rw [beNat_cons, List.length_cons, Nat.pow_succ, Nat.mul_comm (256 ^ bs.length)]
    rw [Nat.add_mul, Nat.one_mul] at hle
    omega

/-- A number that does not fit is cut off. -/
lemma beNat_beBytes_mod (width n : Nat) : beNat (beBytes width n) = n % 256 ^ width := by
  induction width with
  | zero => rw [Nat.pow_zero, Nat.mod_one]; rfl
  | succ width ih =>
    have hbyte : (UInt8.ofNat (n / 256 ^ width)).toNat = n / 256 ^ width % 256 := UInt8.toNat_ofNat'
    have hmod : n % (256 ^ width * 256) = n % 256 ^ width + 256 ^ width * (n / 256 ^ width % 256) :=
      Nat.mod_mul
    rw [beBytes, beNat_cons, ih, length_beBytes, hbyte, Nat.pow_succ, hmod, Nat.add_comm,
      Nat.mul_comm (256 ^ width)]

/-- One that fits is read back. -/
lemma beNat_beBytes {width n : Nat} (h : n < 256 ^ width) : beNat (beBytes width n) = n := by
  rw [beNat_beBytes_mod, Nat.mod_eq_of_lt h]

/-- Buffers of one length with the same number are the same. -/
lemma beNat_inj {xs ys : Bytes} (hlength : xs.length = ys.length) (h : beNat xs = beNat ys) : xs = ys := by
  induction xs generalizing ys with
  | nil => exact (List.length_eq_zero_iff.mp hlength.symm).symm
  | cons x xs ih =>
    cases ys with
    | nil => nomatch hlength
    | cons y ys =>
      have hlength' : xs.length = ys.length := Nat.succ.inj hlength
      have hx := beNat_lt xs
      have hy := beNat_lt ys
      rw [beNat_cons, beNat_cons, hlength'] at h
      rw [hlength'] at hx
      -- the first byte is the quotient
      have hquot (a b : Nat) (hb : b < 256 ^ ys.length) : (a * 256 ^ ys.length + b) / 256 ^ ys.length = a := by
        rw [Nat.mul_comm, Nat.mul_add_div (Nat.zero_lt_of_lt hb), Nat.div_eq_of_lt hb, Nat.add_zero]
      have hhead : x.toNat = y.toNat := by rw [← hquot x.toNat _ hx, h, hquot y.toNat _ hy]
      rw [hhead] at h
      rw [UInt8.toNat_inj.mp hhead, ih hlength' (Nat.add_left_cancel h)]

/-- A buffer is read back from its number. -/
lemma beBytes_beNat (bs : Bytes) : beBytes bs.length (beNat bs) = bs :=
  beNat_inj (length_beBytes _ _) (beNat_beBytes (beNat_lt bs))

/-- A wider number has zeros in front. -/
lemma beBytes_add {width n : Nat} (h : n < 256 ^ width) (k : Nat) :
    beBytes (k + width) n = List.replicate k 0 ++ beBytes width n := by
  induction k with
  | zero => rw [Nat.zero_add]; rfl
  | succ k ih =>
    have hle : 256 ^ width ≤ 256 ^ (k + width) := Nat.pow_le_pow_right (by decide) (Nat.le_add_left _ _)
    rw [Nat.add_right_comm, beBytes, Nat.div_eq_of_lt (Nat.lt_of_lt_of_le h hle), ih]
    rfl

/-- A buffer whose number fits fewer bytes starts with zeros. -/
lemma eq_zeros_append {bs : Bytes} {k width : Nat} (hlength : bs.length = k + width)
    (h : beNat bs < 256 ^ width) : ∃ low, low.length = width ∧ bs = List.replicate k 0 ++ low := by
  refine ⟨beBytes width (beNat bs), length_beBytes _ _, ?_⟩
  have hbytes := beBytes_beNat bs
  rw [hlength, beBytes_add h] at hbytes
  exact hbytes.symm

/-! ## Bytes in a buffer -/

/-- The bytes stand in the buffer at the offset. -/
def At (buf : Bytes) (offset : Nat) (bs : Bytes) : Prop := bs <+: buf.drop offset

/-- What is left of a slice that goes beyond the end. -/
def slice (buf : Bytes) (start stop : Nat) : Bytes := (buf.take stop).drop start

variable {buf bs xs ys : Bytes} {offset : Nat}

/-- Two buffers stand one behind the other. -/
lemma at_append : At buf offset (xs ++ ys) ↔ At buf offset xs ∧ At buf (offset + xs.length) ys := by
  unfold At
  constructor
  · rintro ⟨rest, hrest⟩
    rw [← List.drop_drop, ← hrest, List.append_assoc, List.drop_left]
    exact ⟨List.prefix_append _ _, List.prefix_append _ _⟩
  · rintro ⟨⟨rest, hrest⟩, hys⟩
    rw [← List.drop_drop, ← hrest, List.drop_left] at hys
    rw [← hrest]
    exact (List.prefix_append_right_inj xs).mpr hys

/-- So do the buffers of a list. -/
lemma at_flatten_cons {bss : List Bytes} :
    At buf offset (bs :: bss).flatten ↔ At buf offset bs ∧ At buf (offset + bs.length) bss.flatten := by
  rw [List.flatten_cons, at_append]

/-- A buffer stands behind what is written before it. -/
lemma at_mid (pre bs post : Bytes) : At (pre ++ (bs ++ post)) pre.length bs := by
  rw [At, List.drop_left]
  exact List.prefix_append _ _

/-- A buffer stands at the start of itself. -/
lemma at_zero (bs : Bytes) : At bs 0 bs := List.prefix_refl bs

/-- What stands somewhere is sliced from there. -/
lemma At.slice (h : At buf offset bs) : slice buf offset (offset + bs.length) = bs := by
  obtain ⟨rest, hrest⟩ := h
  rw [ByteFormat.slice, List.drop_take, Nat.add_sub_cancel_left, ← hrest, List.take_left]

/-- A slice stands where it was cut. -/
lemma at_slice (buf : Bytes) (offset stop : Nat) : At buf offset (ByteFormat.slice buf offset stop) := by
  rw [At, ByteFormat.slice, List.drop_take]
  exact List.take_prefix _ _

/-- A slice within the buffer has the length asked for. -/
lemma length_slice {stop : Nat} (h : stop ≤ buf.length) :
    (ByteFormat.slice buf offset stop).length = stop - offset := by
  rw [ByteFormat.slice, List.length_drop, List.length_take_of_le h]

/-- No slice is longer. -/
lemma length_slice_le (buf : Bytes) (offset stop : Nat) :
    (ByteFormat.slice buf offset stop).length ≤ stop - offset := by
  rw [ByteFormat.slice, List.length_drop]
  exact Nat.sub_le_sub_right (List.length_take_le _ _) _

/-- What stands somewhere is within the buffer. -/
lemma At.le (h : At buf offset bs) (hne : bs ≠ []) : offset + bs.length ≤ buf.length := by
  have hlength := h.length_le
  have hpos := List.length_pos_iff.mpr hne
  rw [List.length_drop] at hlength
  omega

/-! ## Decoders -/

section Decoders

variable {α β : Type}

/-- Reads a value at an offset and says by how much to advance. -/
abbrev Decoder (α : Type) := Bytes → Nat → Except String (α × Nat)

/-- Wherever the bytes stand, the decoder returns the value and advances over all of them. -/
def Decodes (de : Decoder α) (bs : Bytes) (a : α) : Prop :=
  ∀ buf offset, At buf offset bs → de buf offset = .ok (a, bs.length)

/-- The values that follow each other, and the offset behind them. -/
def repeatDecoder (de : Decoder α) (buf : Bytes) : Nat → Nat → Except String (List α × Nat)
  | 0, pos => .ok ([], pos)
  | n + 1, pos => do
    let (elem, adv) ← de buf pos
    let (elems, pos) ← repeatDecoder de buf n (pos + adv)
    .ok (elem :: elems, pos)

/-- Elements that are read one by one are read in a row. -/
lemma repeatDecoder_eq {de : Decoder α} {bss : List Bytes} {elems : List α}
    (h : List.Forall₂ (Decodes de) bss elems) (hat : At buf offset bss.flatten) :
    repeatDecoder de buf elems.length offset = .ok (elems, offset + bss.flatten.length) := by
  induction h generalizing offset with
  | nil => rfl
  | @cons bs elem bss elems hfirst _ ih =>
    rw [List.flatten_cons] at hat ⊢
    obtain ⟨hbs, hrest⟩ := at_append.mp hat
    rw [List.length_cons, repeatDecoder, hfirst buf offset hbs]
    show (do
      let (elems, pos) ← repeatDecoder de buf elems.length (offset + bs.length)
      .ok (elem :: elems, pos)) = _
    rw [ih hrest, List.length_append, ← Nat.add_assoc]
    rfl

/-! What a decoder returns determines what it has read. -/

/-- Whatever the decoder returns of what is in the buffer, the bytes of the value stand there. -/
def Exact (de : Decoder α) (bytes : α → Bytes) : Prop :=
  ∀ buf offset a adv, de buf offset = .ok (a, adv) → offset + adv ≤ buf.length →
    At buf offset (bytes a) ∧ adv = (bytes a).length

/-- A row read has a first element. -/
lemma repeatDecoder_cons {de : Decoder α} {n pos stop : Nat} {elems : List α}
    (h : repeatDecoder de buf (n + 1) pos = .ok (elems, stop)) :
    ∃ elem adv elems', elems = elem :: elems' ∧ de buf pos = .ok (elem, adv) ∧
      repeatDecoder de buf n (pos + adv) = .ok (elems', stop) := by
  rw [repeatDecoder] at h
  cases hfirst : de buf pos with
  | error e => rw [hfirst] at h; nomatch h
  | ok first =>
    obtain ⟨elem, adv⟩ := first
    cases hrest : repeatDecoder de buf n (pos + adv) with
    | error e =>
      rw [hfirst] at h
      change (do
        let (elems, pos) ← repeatDecoder de buf n (pos + adv)
        .ok (elem :: elems, pos)) = _ at h
      rw [hrest] at h
      nomatch h
    | ok rest =>
      rw [hfirst] at h
      change (do
        let (elems, pos) ← repeatDecoder de buf n (pos + adv)
        .ok (elem :: elems, pos)) = _ at h
      rw [hrest] at h
      cases h
      exact ⟨elem, adv, rest.1, rfl, rfl, hrest⟩

/-- Reading moves forward. -/
lemma repeatDecoder_le {de : Decoder α} {n pos stop : Nat} {elems : List α}
    (h : repeatDecoder de buf n pos = .ok (elems, stop)) : pos ≤ stop := by
  induction n generalizing pos elems with
  | zero => cases h; exact Nat.le_refl _
  | succ n ih =>
    obtain ⟨_, adv, _, -, -, hrest⟩ := repeatDecoder_cons h
    exact Nat.le_trans (Nat.le_add_right _ _) (ih hrest)

/-- What holds of every element read holds of all. -/
lemma repeatDecoder_forall {de : Decoder α} {P : α → Prop} {n pos stop : Nat} {elems : List α}
    (hP : ∀ offset a adv, de buf offset = .ok (a, adv) → P a)
    (h : repeatDecoder de buf n pos = .ok (elems, stop)) : ∀ a ∈ elems, P a := by
  induction n generalizing pos elems with
  | zero => cases h; exact fun a ha => nomatch ha
  | succ n ih =>
    obtain ⟨elem, adv, elems', rfl, hfirst, hrest⟩ := repeatDecoder_cons h
    exact List.forall_mem_cons.mpr ⟨hP _ _ _ hfirst, ih hrest⟩

/-- If each element is the bytes read, so is the row. -/
lemma repeatDecoder_exact {de : Decoder α} {bytes : α → Bytes} (hde : Exact de bytes) {n pos stop : Nat}
    {elems : List α} (h : repeatDecoder de buf n pos = .ok (elems, stop)) (hle : stop ≤ buf.length) :
    elems.length = n ∧ At buf pos (elems.map bytes).flatten ∧
      stop = pos + (elems.map bytes).flatten.length := by
  induction n generalizing pos elems with
  | zero =>
    cases h
    exact ⟨rfl, List.nil_prefix, rfl⟩
  | succ n ih =>
    obtain ⟨elem, adv, elems', rfl, hfirst, hrest⟩ := repeatDecoder_cons h
    obtain ⟨hcount, hat, hstop⟩ := ih hrest
    obtain ⟨hat₁, rfl⟩ := hde _ _ _ _ hfirst (Nat.le_trans (repeatDecoder_le hrest) hle)
    refine ⟨congrArg (· + 1) hcount, ?_, ?_⟩
    · rw [List.map_cons, List.flatten_cons]
      exact at_append.mpr ⟨hat₁, hat⟩
    · rw [List.map_cons, List.flatten_cons, List.length_append, ← Nat.add_assoc]
      exact hstop

end Decoders

/-! ## Readers -/

section Readers

variable {α β : Type}

/-- Reads a value off the front of the input. -/
abbrev Reader (α : Type) := StateT Bytes (Except String) α

/-- The reader takes the bytes from the front and returns the value. -/
def Reads (r : Reader α) (bs : Bytes) (a : α) : Prop := ∀ rest, r.run (bs ++ rest) = .ok (a, rest)

/-- A value reads nothing. -/
lemma Reads.pure (a : α) : Reads (Pure.pure a) [] a := fun _ => rfl

/-- Two readers read one behind the other. -/
lemma Reads.bind {r : Reader α} {f : α → Reader β} {a : α} {b : β} (h : Reads r xs a)
    (hf : Reads (f a) ys b) : Reads (r >>= f) (xs ++ ys) b := by
  intro rest
  rw [StateT.run_bind, List.append_assoc, h]
  exact hf rest

/-- What is read part by part. -/
lemma Reads.bind_flatten {r : Reader α} {f : α → Reader β} {a : α} {b : β} {bss : List Bytes}
    (h : Reads r bs a) (hf : Reads (f a) bss.flatten b) : Reads (r >>= f) (bs :: bss).flatten b := by
  rw [List.flatten_cons]
  exact h.bind hf

/-- Reads `n` values. -/
def repeatReader (r : Reader α) : Nat → Reader (List α)
  | 0 => Pure.pure []
  | n + 1 => do
    let elem ← r
    let elems ← repeatReader r n
    return elem :: elems

/-- Elements that are read one by one are read in a row. -/
lemma Reads.repeat {r : Reader α} {bss : List Bytes} {elems : List α}
    (h : List.Forall₂ (Reads r) bss elems) : Reads (repeatReader r elems.length) bss.flatten elems := by
  induction h with
  | nil => exact .pure []
  | @cons bs elem bss elems hfirst _ ih =>
    rw [List.flatten_cons]
    refine hfirst.bind ?_
    rw [← List.append_nil bss.flatten]
    exact ih.bind (.pure _)

end Readers

end ByteFormat
