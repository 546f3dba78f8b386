import Mathlib.Tactic
import Sponge.Foundations.BigEndian

/-!
# Reading and writing network byte order

A `NetParser` reads integers in network byte order from the front of a buffer. Its error is sticky:
once a read has found too little data, every later read returns zero and consumes nothing. The
buffer accessors throw when they are out of range, and no read of a parser makes them throw.

## Main definitions

* `ParseResult`, `StdException`, `Buffer`, `BufferList`
* `NetParser`, `Parsing`: the parser, and computations that use one and may throw
* `NetUnparser.u8`, `u16`, `u32`: integers in network byte order
* `Reads n decode read`: `read` takes `n` bytes and decodes them, or leaves an error

## Main results

* `Reads.bind`: reads in sequence
* `reads_u8`, `reads_u16`, `reads_u32`: the integer reads
* `u8_append`, `u16_append`, `u32_append`: an integer is read back in front of any rest
-/

namespace Sponge

/-- The result of parsing, `ParseResult` of `parser.hh`. -/
inductive ParseResult where
  | noError
  | badChecksum
  | packetTooShort
  | wrongIPVersion
  | headerTooShort
  | truncatedPacket
  | unsupported
  deriving DecidableEq, Repr

/-- The exceptions the code throws, with the text they carry. -/
inductive StdException where
  | outOfRange (what : String)
  | runtimeError (what : String)
  deriving DecidableEq, Repr

@[simp] theorem ok_bind {ε α β : Type} (a : α) (f : α → Except ε β) :
    (Except.ok a >>= f) = f a := rfl

@[simp] theorem error_bind {ε α β : Type} (e : ε) (f : α → Except ε β) :
    (Except.error e >>= f) = .error e := rfl

@[simp] theorem pure_eq_ok {ε α : Type} (a : α) : (pure a : Except ε α) = .ok a := rfl

/-! ## Buffers -/

/-- A read-only string that can discard bytes from the front. -/
abbrev Buffer := List UInt8

namespace Buffer

/-- The character at location `n`: `Buffer::at`. -/
def byteAt (buffer : Buffer) (n : ℕ) : Except StdException UInt8 :=
  match buffer[n]? with
  | some byte => .ok byte
  | none => .error (.outOfRange "basic_string_view::at")

/-- Discard the first `n` bytes. -/
def removePrefix (buffer : Buffer) (n : ℕ) : Except StdException Buffer :=
  if n > buffer.length then
    .error (.outOfRange "Buffer::remove_prefix")
  else
    .ok (buffer.drop n)

/-- `std::string::resize`: cut off at `n`, or filled up with zero bytes. -/
def resize (buffer : Buffer) (n : ℕ) : Buffer :=
  buffer.take n ++ List.replicate (n - buffer.length) 0

theorem resize_of_le {buffer : Buffer} {n : ℕ} (h : buffer.length ≤ n) :
    buffer.resize n = buffer ++ List.replicate (n - buffer.length) 0 := by
  rw [resize, List.take_of_length_le h]

end Buffer

/-- A discontiguous string. -/
abbrev BufferList := List Buffer

namespace BufferList

def concatenate (buffers : BufferList) : List UInt8 :=
  buffers.flatten

def size (buffers : BufferList) : ℕ :=
  buffers.foldl (fun ret buf => ret + buf.length) 0

/-- The conversion to a `Buffer`, which needs the list to be contiguous. -/
def toBuffer : BufferList → Except StdException Buffer
  | [] => .ok []
  | [buffer] => .ok buffer
  | _ => .error (.runtimeError
      "BufferList: please use concatenate() to combine a multi-Buffer BufferList into one Buffer")

theorem size_eq_length_concatenate (buffers : BufferList) :
    buffers.size = buffers.concatenate.length := by
  have hfold (ret : ℕ) : buffers.foldl (fun ret buf => ret + buf.length) ret =
      ret + buffers.flatten.length := by
    induction buffers generalizing ret with
    | nil => simp
    | cons buf buffers ih => simp [ih, Nat.add_assoc]
  simpa [size, concatenate] using hfold 0

end BufferList

/-! ## The parser -/

/-- A parser: what is left of the buffer, and the result of parsing so far. -/
structure NetParser where
  buffer : Buffer
  error : ParseResult := .noError
  deriving DecidableEq, Repr

/-- Computations that use a parser and may throw. -/
abbrev Parsing := StateT NetParser (Except StdException)

namespace NetParser

/-- Check that there is enough data for the next token. -/
def checkSize (size : ℕ) : Parsing Unit :=
  modify fun p => if size > p.buffer.length then { p with error := .packetTooShort } else p

/-- The loop of `parseInt`: the integer that the first `len` bytes spell. -/
def intAtFront (buffer : Buffer) (len : ℕ) : Except StdException ℕ :=
  (List.range len).foldlM (fun ret i => do return ret * 256 + (← buffer.byteAt i).toNat) 0

/-- An integer of `len` bytes in network byte order; zero after an error. -/
def parseInt (len : ℕ) : Parsing ℕ := do
  checkSize len
  let p ← get
  if p.error ≠ .noError then
    return 0
  let ret ← intAtFront p.buffer len
  let buffer ← p.buffer.removePrefix len
  set { p with buffer := buffer }
  return ret

def u32 : Parsing UInt32 := do return UInt32.ofNat (← parseInt 4)

def u16 : Parsing UInt16 := do return UInt16.ofNat (← parseInt 2)

def u8 : Parsing UInt8 := do return UInt8.ofNat (← parseInt 1)

/-- Remove `n` bytes from the buffer; nothing after an error. -/
def removePrefix (n : ℕ) : Parsing Unit := do
  checkSize n
  let p ← get
  if p.error ≠ .noError then
    return ()
  let buffer ← p.buffer.removePrefix n
  set { p with buffer := buffer }

end NetParser

/-! ## The writer -/

namespace NetUnparser

/-- The `len` bytes of an integer, pushed from the most significant one down. -/
def unparseInt (len val : ℕ) : List UInt8 :=
  (List.range len).map fun i => UInt8.ofNat ((val >>> ((len - i - 1) * 8)) &&& 0xff)

def u32 (val : UInt32) : List UInt8 := unparseInt 4 val.toNat

def u16 (val : UInt16) : List UInt8 := unparseInt 2 val.toNat

def u8 (val : UInt8) : List UInt8 := unparseInt 1 val.toNat

theorem unparseInt_eq_bytes (len val : ℕ) : unparseInt len val = BigEndian.bytes len val := by
  induction len generalizing val with
  | zero => rfl
  | succ len ih =>
    have hmask (n : ℕ) : UInt8.ofNat (n &&& 0xff) = UInt8.ofNat n := by
      rw [← UInt8.toNat_inj, UInt8.toNat_ofNat', UInt8.toNat_ofNat',
        Nat.and_two_pow_sub_one_eq_mod n 8, Nat.mod_mod]
    -- the last byte is the low one, the others are the bytes of the rest of the number
    rw [BigEndian.bytes, ← ih, unparseInt, List.range_succ, List.map_append]
    refine congrArg₂ (· ++ ·) (List.map_congr_left fun i hi => ?_) ?_
    · have hi : i < len := List.mem_range.mp hi
      have hshift : (len + 1 - i - 1) * 8 = 8 + (len - i - 1) * 8 := by omega
      rw [hshift, Nat.shiftRight_add, Nat.shiftRight_eq_div_pow val 8]
    · simp [hmask]

@[simp] theorem length_u32 (val : UInt32) : (u32 val).length = 4 := rfl

@[simp] theorem length_u16 (val : UInt16) : (u16 val).length = 2 := rfl

@[simp] theorem length_u8 (val : UInt8) : (u8 val).length = 1 := rfl

end NetUnparser

/-! ## What a read does -/

/-- `read` takes `n` bytes from the front of the buffer and decodes them. After an error, or with
less than `n` bytes left, it leaves an error; it never throws. -/
structure Reads {α : Type} (n : ℕ) (decode : List UInt8 → α) (read : Parsing α) : Prop where
  of_le : ∀ p : NetParser, p.error = .noError → n ≤ p.buffer.length →
    read p = .ok (decode (p.buffer.take n), { p with buffer := p.buffer.drop n })
  of_short : ∀ p : NetParser, p.error ≠ .noError ∨ p.buffer.length < n →
    ∃ a q, read p = .ok (a, q) ∧ q.error ≠ .noError

namespace Reads

variable {α β : Type} {n k : ℕ} {decode : List UInt8 → α} {read : Parsing α}

theorem pure (a : α) : Reads 0 (fun _ => a) (Pure.pure a) where
  of_le _ _ _ := rfl
  of_short p h := ⟨a, p, rfl, h.resolve_right (Nat.not_lt_zero _)⟩

theorem bind_eq {next : α → Parsing β} {p q : NetParser} {a : α} (hread : read p = .ok (a, q)) :
    (read >>= next) p = next a q := by
  change Except.bind (read p) _ = _
  rw [hread]
  rfl

theorem bind {next : α → Parsing β} {decode' : α → List UInt8 → β} (h : Reads n decode read)
    (hnext : ∀ a, Reads k (decode' a) (next a)) :
    Reads (n + k) (fun bytes => decode' (decode (bytes.take n)) (bytes.drop n))
      (read >>= next) where
  of_le p he hle := by
    have hread := h.of_le p he (by omega)
    have hrest := (hnext (decode (p.buffer.take n))).of_le { p with buffer := p.buffer.drop n } he
      (by rw [List.length_drop]; omega)
    rw [bind_eq hread, hrest, List.take_take, List.drop_drop, List.drop_take,
      Nat.add_sub_cancel_left, Nat.min_eq_left (Nat.le_add_right n k)]
  of_short p hshort := by
    by_cases hp : p.error ≠ .noError ∨ p.buffer.length < n
    · obtain ⟨a, q, hread, hq⟩ := h.of_short p hp
      rw [bind_eq hread]
      exact (hnext a).of_short q (Or.inl hq)
    · -- the first read has its data, so the second has not
      push Not at hp
      rw [bind_eq (h.of_le p hp.1 hp.2)]
      refine (hnext _).of_short _ (Or.inr ?_)
      have := hshort.resolve_left (not_not.mpr hp.1)
      rw [List.length_drop]
      omega

theorem congr {decode' : List UInt8 → α} (h : Reads n decode read)
    (hdecode : ∀ bytes, bytes.length = n → decode bytes = decode' bytes) :
    Reads n decode' read where
  of_le p he hle := by
    rw [h.of_le p he hle, hdecode _ (List.length_take_of_le hle)]
  of_short := h.of_short

theorem map (h : Reads n decode read) (f : α → β) :
    Reads n (fun bytes => f (decode bytes)) (read >>= fun a => Pure.pure (f a)) := by
  refine (h.bind fun a => Reads.pure (f a)).congr fun bytes hlen => ?_
  have hlen : bytes.length = n := hlen
  rw [List.take_of_length_le (Nat.le_of_eq hlen)]

/-- A read finds exactly its bytes in front of any rest. -/
theorem append (h : Reads n decode read) {bytes : List UInt8} (hlen : bytes.length = n)
    (rest : List UInt8) :
    read { buffer := bytes ++ rest } = .ok (decode bytes, { buffer := rest }) := by
  rw [h.of_le _ rfl (by simp [hlen])]
  subst hlen
  simp

end Reads

namespace NetParser

theorem intAtFront_eq {buffer : Buffer} {len : ℕ} (h : len ≤ buffer.length) :
    intAtFront buffer len = .ok (BigEndian.value (buffer.take len)) := by
  induction len with
  | zero => rfl
  | succ len ih =>
    have hlt : len < buffer.length := h
    have hbyte : buffer.byteAt len = .ok buffer[len] := by
      simp [Buffer.byteAt, List.getElem?_eq_getElem hlt]
    have htake : buffer.take (len + 1) = buffer.take len ++ [buffer[len]] :=
      (List.take_append_getElem _).symm
    have hfront := ih hlt.le
    unfold intAtFront at hfront ⊢
    rw [List.range_succ, List.foldlM_append, hfront, htake, BigEndian.value_append_singleton]
    simp [hbyte, Bind.bind, Except.bind, Pure.pure, Except.pure]

theorem checkSize_run (size : ℕ) (p : NetParser) :
    (checkSize size).run p =
      .ok ((), if size > p.buffer.length then { p with error := .packetTooShort } else p) := rfl

theorem reads_parseInt (len : ℕ) : Reads len BigEndian.value (parseInt len) where
  of_le p he hle := by
    have hremove : p.buffer.removePrefix len = .ok (p.buffer.drop len) := by
      simp [Buffer.removePrefix, hle]
    change (parseInt len).run p = _
    simp [parseInt, checkSize_run, he, Nat.not_lt.mpr hle, intAtFront_eq hle, hremove]
  of_short p h := by
    change ∃ a q, (parseInt len).run p = .ok (a, q) ∧ _
    by_cases hlen : p.buffer.length < len
    · refine ⟨0, { p with error := .packetTooShort }, ?_, by simp⟩
      simp [parseInt, checkSize_run, hlen]
    · have he := h.resolve_right hlen
      refine ⟨0, p, ?_, he⟩
      simp [parseInt, checkSize_run, hlen, he]

theorem reads_removePrefix (n : ℕ) : Reads n (fun _ => ()) (removePrefix n) where
  of_le p he hle := by
    have hremove : p.buffer.removePrefix n = .ok (p.buffer.drop n) := by
      simp [Buffer.removePrefix, hle]
    change (removePrefix n).run p = _
    simp [removePrefix, checkSize_run, he, Nat.not_lt.mpr hle, hremove]
  of_short p h := by
    change ∃ a q, (removePrefix n).run p = .ok (a, q) ∧ _
    by_cases hlen : p.buffer.length < n
    · refine ⟨(), { p with error := .packetTooShort }, ?_, by simp⟩
      simp [removePrefix, checkSize_run, hlen]
    · have he := h.resolve_right hlen
      refine ⟨(), p, ?_, he⟩
      simp [removePrefix, checkSize_run, hlen, he]

/-- Skipping from one place of a string to a later one. -/
theorem removePrefix_drop {bytes : List UInt8} {m n : ℕ} (hmn : m ≤ n) (hn : n ≤ bytes.length) :
    (removePrefix (n - m)).run { buffer := bytes.drop m } =
      .ok ((), { buffer := bytes.drop n }) := by
  have hread := (reads_removePrefix (n - m)).of_le { buffer := bytes.drop m } rfl
    (by simp only [List.length_drop]; omega)
  rwa [List.drop_drop, Nat.add_sub_cancel' hmn] at hread

theorem reads_u32 : Reads 4 (fun bytes => UInt32.ofNat (BigEndian.value bytes)) u32 :=
  (reads_parseInt 4).map UInt32.ofNat

theorem reads_u16 : Reads 2 (fun bytes => UInt16.ofNat (BigEndian.value bytes)) u16 :=
  (reads_parseInt 2).map UInt16.ofNat

theorem reads_u8 : Reads 1 (fun bytes => UInt8.ofNat (BigEndian.value bytes)) u8 :=
  (reads_parseInt 1).map UInt8.ofNat

/-! An integer is read back in front of any rest. -/

theorem u32_append (val : UInt32) (rest : List UInt8) :
    u32.run { buffer := NetUnparser.u32 val ++ rest } = .ok (val, { buffer := rest }) := by
  have hval : BigEndian.value (NetUnparser.u32 val) = val.toNat := by
    rw [NetUnparser.u32, NetUnparser.unparseInt_eq_bytes, BigEndian.value_bytes val.toNat_lt]
  have hread := reads_u32.append (NetUnparser.length_u32 val) rest
  rwa [hval, UInt32.ofNat_toNat] at hread

theorem u16_append (val : UInt16) (rest : List UInt8) :
    u16.run { buffer := NetUnparser.u16 val ++ rest } = .ok (val, { buffer := rest }) := by
  have hval : BigEndian.value (NetUnparser.u16 val) = val.toNat := by
    rw [NetUnparser.u16, NetUnparser.unparseInt_eq_bytes, BigEndian.value_bytes val.toNat_lt]
  have hread := reads_u16.append (NetUnparser.length_u16 val) rest
  rwa [hval, UInt16.ofNat_toNat] at hread

theorem u8_append (val : UInt8) (rest : List UInt8) :
    u8.run { buffer := NetUnparser.u8 val ++ rest } = .ok (val, { buffer := rest }) := by
  have hval : BigEndian.value (NetUnparser.u8 val) = val.toNat := by
    rw [NetUnparser.u8, NetUnparser.unparseInt_eq_bytes, BigEndian.value_bytes val.toNat_lt]
  have hread := reads_u8.append (NetUnparser.length_u8 val) rest
  rwa [hval, UInt8.ofNat_toNat] at hread

end NetParser

end Sponge
