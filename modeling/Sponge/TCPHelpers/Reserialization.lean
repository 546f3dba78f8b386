import Mathlib.Tactic
import Mathlib.Data.Nat.Bitwise
import Sponge.TCPHelpers.IPv4Datagram
import Sponge.TCPHelpers.TCPSegment

/-!
# Writing a header that was read

A header that is read and written again gives its bytes back, up to what the structures do not hold:
the reserved bits come out cleared, and the options as zero bytes. Each field is written from the
number that its bytes spell (`BigEndian.bytes_field`), and each flag from its own bit.

## Main definitions

* `IPv4Header.cleared`, `TCPHeader.cleared`: twenty bytes with the reserved bits cleared

## Main results

* `IPv4Header.serialize_ofBytes`, `TCPHeader.serialize_ofBytes`: twenty bytes, read and written
* `reserialize_parsed`: the same for every string that is parsed
-/

namespace Sponge

/-! ## Fields -/

namespace NetUnparser

variable {data : List UInt8} {start : ℕ}

theorem u8_eq (byte : UInt8) : u8 byte = [byte] := by
  rw [u8, unparseInt_eq_bytes]
  simp [BigEndian.bytes]

theorem u8_field (h : start + 1 ≤ data.length) :
    u8 (UInt8.ofNat (BigEndian.field data start 1)) = (data.drop start).take 1 := by
  rw [u8, unparseInt_eq_bytes, UInt8.toNat_ofNat_of_lt' (BigEndian.field_lt data start 1),
    BigEndian.bytes_field h]

theorem u16_field (h : start + 2 ≤ data.length) :
    u16 (UInt16.ofNat (BigEndian.field data start 2)) = (data.drop start).take 2 := by
  rw [u16, unparseInt_eq_bytes, UInt16.toNat_ofNat_of_lt' (BigEndian.field_lt data start 2),
    BigEndian.bytes_field h]

theorem u32_field (h : start + 4 ≤ data.length) :
    u32 (UInt32.ofNat (BigEndian.field data start 4)) = (data.drop start).take 4 := by
  rw [u32, unparseInt_eq_bytes, UInt32.toNat_ofNat_of_lt' (BigEndian.field_lt data start 4),
    BigEndian.bytes_field h]

end NetUnparser

theorem drop_eq_field_cons {data : List UInt8} {i : ℕ} (h : i < data.length) :
    data.drop i = UInt8.ofNat (BigEndian.field data i 1) :: data.drop (i + 1) := by
  rw [List.drop_eq_getElem_cons h, BigEndian.field_one, UInt8.ofNat_toNat, List.getD_eq_getElem]

/-- Adjacent parts of a byte string are one part. -/
theorem take_drop_append (data rest : List UInt8) (i m n : ℕ) :
    (data.drop i).take m ++ ((data.drop (i + m)).take n ++ rest) =
      (data.drop i).take (m + n) ++ rest := by
  rw [List.take_add, List.drop_drop, List.append_assoc]

theorem modify_append_cons (front back : List UInt8) (byte : UInt8) (f : UInt8 → UInt8) :
    (front ++ byte :: back).modify front.length f = front ++ f byte :: back := by
  rw [List.modify_eq_take_drop, List.take_left, List.drop_left]
  rfl

/-! ## Bits -/

theorem ite_and_two_pow (n i : ℕ) : (if n &&& 2 ^ i = 0 then 0 else 2 ^ i) = n &&& 2 ^ i := by
  rw [Nat.and_two_pow]
  cases n.testBit i <;> simp

/-- A flag is written from its own bit. -/
theorem ite_bit8 (x : UInt8) {bit : UInt8} {i : ℕ} (h : bit.toNat = 2 ^ i) :
    (if (x &&& bit != 0) = true then bit else 0) = x &&& bit := by
  have hzero : x &&& bit = 0 ↔ x.toNat &&& 2 ^ i = 0 := by
    rw [← UInt8.toNat_inj, UInt8.toNat_and, h]
    rfl
  rw [← UInt8.toNat_inj, UInt8.toNat_and, h, ← ite_and_two_pow]
  by_cases hx : x &&& bit = 0
  · rw [if_neg (by simp [hx]), if_pos (hzero.mp hx)]
    rfl
  · rw [if_pos (by simpa using hx), if_neg (fun hn => hx (hzero.mpr hn)), h]

theorem ite_bit16 (x : UInt16) {bit : UInt16} {i : ℕ} (h : bit.toNat = 2 ^ i) :
    (if (x &&& bit != 0) = true then bit else 0) = x &&& bit := by
  have hzero : x &&& bit = 0 ↔ x.toNat &&& 2 ^ i = 0 := by
    rw [← UInt16.toNat_inj, UInt16.toNat_and, h]
    rfl
  rw [← UInt16.toNat_inj, UInt16.toNat_and, h, ← ite_and_two_pow]
  by_cases hx : x &&& bit = 0
  · rw [if_neg (by simp [hx]), if_pos (hzero.mp hx)]
    rfl
  · rw [if_pos (by simpa using hx), if_neg (fun hn => hx (hzero.mpr hn)), h]

/-! ## The TCP header -/

namespace TCPHeader

variable {data : List UInt8}

/-- Twenty bytes with the six reserved bits cleared: the low half of byte `12` and the two high bits
of byte `13`. -/
def cleared (data : List UInt8) : List UInt8 :=
  (data.modify 12 (· &&& 0b11110000)).modify 13 (· &&& 0b00111111)

/-- The flags are written from the bits of their byte. -/
theorem flags_ofBytes (data : List UInt8) :
    (ofBytes data).flags = UInt8.ofNat (BigEndian.field data 13 1) &&& 0b00111111 := by
  unfold flags ofBytes
  dsimp only
  generalize UInt8.ofNat (BigEndian.field data 13 1) = flB
  rw [ite_bit8 flB (i := 5) rfl, ite_bit8 flB (i := 4) rfl, ite_bit8 flB (i := 3) rfl,
    ite_bit8 flB (i := 2) rfl, ite_bit8 flB (i := 1) rfl, ite_bit8 flB (i := 0) rfl]
  rw [← UInt8.toNat_inj]
  simp only [UInt8.toNat_or, UInt8.toNat_and, ← Nat.and_or_distrib_left]
  rfl

theorem doff_ofBytes (data : List UInt8) :
    (ofBytes data).doff <<< 4 = UInt8.ofNat (BigEndian.field data 12 1) &&& 0b11110000 := by
  have hbyte : ∀ n < 256, (UInt8.ofNat n >>> 4) <<< 4 = UInt8.ofNat n &&& 0b11110000 := by
    decide +kernel
  exact hbyte _ (BigEndian.field_lt data 12 1)

theorem cleared_append {front : List UInt8} (h : front.length = 12) (byte byte' : UInt8)
    (back : List UInt8) :
    cleared (front ++ byte :: byte' :: back) =
      front ++ (byte &&& 0b11110000) :: (byte' &&& 0b00111111) :: back := by
  have hfirst := modify_append_cons front (byte' :: back) byte (· &&& 0b11110000)
  have hsecond := modify_append_cons (front ++ [byte &&& 0b11110000]) back byte'
    (· &&& 0b00111111)
  rw [h] at hfirst
  rw [List.length_append, h, List.append_assoc, List.append_assoc] at hsecond
  rw [cleared, hfirst]
  exact hsecond

theorem serializeFront_ofBytes (hlen : data.length = length) :
    (ofBytes data).serializeFront =
      data.take 12 ++ ((UInt8.ofNat (BigEndian.field data 12 1) &&& 0b11110000) ::
        (UInt8.ofNat (BigEndian.field data 13 1) &&& 0b00111111) :: (data.drop 14).take 2) := by
  have hle : ∀ {n}, n ≤ 20 → n ≤ data.length := fun hn => hn.trans_eq hlen.symm
  change NetUnparser.u16 (UInt16.ofNat (BigEndian.field data 0 2)) ++
    (NetUnparser.u16 (UInt16.ofNat (BigEndian.field data 2 2)) ++
    (NetUnparser.u32 (UInt32.ofNat (BigEndian.field data 4 4)) ++
    (NetUnparser.u32 (UInt32.ofNat (BigEndian.field data 8 4)) ++
    (NetUnparser.u8 ((ofBytes data).doff <<< 4) ++ (NetUnparser.u8 (ofBytes data).flags ++
      NetUnparser.u16 (UInt16.ofNat (BigEndian.field data 14 2))))))) = _
  rw [doff_ofBytes, flags_ofBytes, NetUnparser.u8_eq, NetUnparser.u8_eq,
    NetUnparser.u16_field (hle (by decide)), NetUnparser.u16_field (hle (by decide)),
    NetUnparser.u32_field (hle (by decide)), NetUnparser.u32_field (hle (by decide)),
    NetUnparser.u16_field (hle (by decide)), take_drop_append, take_drop_append, take_drop_append]
  rfl

/-- **Twenty bytes, read and written.** -/
theorem serialize_ofBytes (hlen : data.length = length) (h5 : 5 ≤ (ofBytes data).doff) :
    (ofBytes data).serialize =
      .ok (cleared data ++ List.replicate (4 * (ofBytes data).doff.toNat - length) 0) := by
  have hle : ∀ {n}, n ≤ 20 → n ≤ data.length := fun hn => hn.trans_eq hlen.symm
  -- the two bytes with reserved bits, and what stands around them
  have hdata : data = data.take 12 ++ UInt8.ofNat (BigEndian.field data 12 1) ::
      UInt8.ofNat (BigEndian.field data 13 1) :: data.drop 14 := by
    rw [← drop_eq_field_cons (hle (by decide)), ← drop_eq_field_cons (hle (by decide)),
      List.take_append_drop]
  have htake : (data.take 12).length = 12 := List.length_take_of_le (hle (by decide))
  have hcleared := cleared_append htake (UInt8.ofNat (BigEndian.field data 12 1))
    (UInt8.ofNat (BigEndian.field data 13 1)) (data.drop 14)
  rw [← hdata] at hcleared
  have hcksum : NetUnparser.u16 (ofBytes data).cksum = (data.drop 16).take 2 :=
    NetUnparser.u16_field (hle (by decide))
  have huptr : NetUnparser.u16 (ofBytes data).uptr = (data.drop 18).take 2 :=
    NetUnparser.u16_field (hle (by decide))
  have hlast : (data.drop 14).take (2 + 2 + 2) = data.drop 14 :=
    List.take_of_length_le (by rw [List.length_drop, hlen]; decide)
  rw [serialize_eq h5, serializeFront_ofBytes hlen, serializeBack, hcleared, hcksum, huptr]
  simp only [List.append_assoc, List.cons_append]
  rw [take_drop_append, take_drop_append, hlast]

/-- **A header that is parsed is written back.** -/
theorem serialize_of_parse {header : TCPHeader} {bytes : List UInt8} {q : NetParser}
    (h : parse.run { buffer := bytes } = .ok ((.noError, header), q)) :
    ∃ out, header.serialize = .ok out ∧ out.length = 4 * header.doff.toNat ∧
      out = cleared (bytes.take length) ++ List.replicate (4 * header.doff.toNat - length) 0 := by
  by_cases hshort : bytes.length < length
  · -- such a string is reported by the result
    obtain ⟨r, q', hrun, -, hr⟩ := parse_of_short (p := { buffer := bytes }) (Or.inr hshort)
    rw [h] at hrun
    obtain ⟨rfl, -⟩ := Prod.mk.inj (Except.ok.inj hrun)
    exact absurd rfl hr
  have hle : length ≤ bytes.length := Nat.not_lt.mp hshort
  by_cases hdoff : (ofBytes (bytes.take length)).doff < 5
  · rw [parse_of_doff_lt hle hdoff] at h
    cases h
  by_cases hfit : (ofBytes (bytes.take length)).doff.toNat * 4 ≤ bytes.length
  · rw [parse_of_doff_ge hle hdoff hfit] at h
    obtain ⟨hheader, -⟩ := Prod.mk.inj (Except.ok.inj h)
    obtain ⟨-, rfl⟩ := Prod.mk.inj hheader
    have h5 : 5 ≤ (ofBytes (bytes.take length)).doff := UInt8.not_lt.mp hdoff
    have hnat : 5 ≤ (ofBytes (bytes.take length)).doff.toNat := UInt8.le_iff_toNat_le.mp h5
    have htake : (bytes.take length).length = length := List.length_take_of_le hle
    refine ⟨_, serialize_ofBytes htake h5, ?_, rfl⟩
    rw [List.length_append, List.length_replicate, cleared, List.length_modify, List.length_modify,
      htake]
    unfold length at *
    omega
  · obtain ⟨r, q', hrun, -, hr⟩ := parse_of_doff_gt hle hdoff (Nat.not_le.mp hfit)
    rw [h] at hrun
    obtain ⟨rfl, -⟩ := Prod.mk.inj (Except.ok.inj hrun)
    exact absurd rfl hr

end TCPHeader

/-! ## The IPv4 header -/

namespace IPv4Header

variable {data : List UInt8}

/-- Twenty bytes with the reserved bit cleared: the top bit of the flags, in byte `6`. -/
def cleared (data : List UInt8) : List UInt8 :=
  data.modify 6 (· &&& 0b01111111)

/-- The version and the header length are written from the halves of their byte. -/
theorem firstByte_ofBytes (data : List UInt8) :
    (ofBytes data).firstByte = UInt8.ofNat (BigEndian.field data 0 1) := by
  have hbyte : ∀ n < 256, ((UInt8.ofNat n >>> 4) <<< 4) ||| ((UInt8.ofNat n &&& 0x0f) &&& 0xf) =
      UInt8.ofNat n := by
    decide +kernel
  exact hbyte _ (BigEndian.field_lt data 0 1)

/-- The flags and the offset are written from the bits of their word. -/
theorem foVal_ofBytes (data : List UInt8) :
    (ofBytes data).foVal = UInt16.ofNat (BigEndian.field data 6 2) &&& 0x7fff := by
  unfold foVal ofBytes
  dsimp only
  generalize UInt16.ofNat (BigEndian.field data 6 2) = word
  rw [ite_bit16 word (i := 14) rfl, ite_bit16 word (i := 13) rfl, UInt16.and_assoc]
  rw [← UInt16.toNat_inj]
  simp only [UInt16.toNat_or, UInt16.toNat_and, ← Nat.and_or_distrib_left]
  rfl

/-- A word without its top bit has the bytes of the word, without the top bit of the first. -/
theorem u16_and_field (h : 8 ≤ data.length) :
    NetUnparser.u16 (UInt16.ofNat (BigEndian.field data 6 2) &&& 0x7fff) =
      [UInt8.ofNat (BigEndian.field data 6 1) &&& 0b01111111,
        UInt8.ofNat (BigEndian.field data 7 1)] := by
  have hbytes : (data.drop 6).take 2 =
      [UInt8.ofNat (BigEndian.field data 6 1), UInt8.ofNat (BigEndian.field data 7 1)] := by
    rw [drop_eq_field_cons (by omega), drop_eq_field_cons (by omega)]
    rfl
  have hfield : BigEndian.field data 6 2 = BigEndian.value
      [UInt8.ofNat (BigEndian.field data 6 1), UInt8.ofNat (BigEndian.field data 7 1)] :=
    congrArg BigEndian.value hbytes
  rw [hfield]
  generalize UInt8.ofNat (BigEndian.field data 6 1) = byte
  generalize UInt8.ofNat (BigEndian.field data 7 1) = byte'
  have hlt : byte.toNat < 256 := byte.toNat_lt
  have hlt' : byte'.toNat < 256 := byte'.toNat_lt
  have hvalue : BigEndian.value [byte, byte'] = byte.toNat * 256 + byte'.toNat := by
    simp [BigEndian.value]
  have hword : (UInt16.ofNat (BigEndian.value [byte, byte']) &&& 0x7fff).toNat =
      byte.toNat % 128 * 256 + byte'.toNat := by
    rw [UInt16.toNat_and, UInt16.toNat_ofNat', hvalue]
    refine (Nat.and_two_pow_sub_one_eq_mod _ 15).trans ?_
    omega
  have hmask : (byte &&& 0b01111111).toNat = byte.toNat % 128 :=
    (UInt8.toNat_and _ _).trans (Nat.and_two_pow_sub_one_eq_mod _ 7)
  have hhigh : UInt8.ofNat ((byte.toNat % 128 * 256 + byte'.toNat) / 256) =
      byte &&& 0b01111111 := by
    rw [← UInt8.toNat_inj, UInt8.toNat_ofNat', hmask]
    omega
  have hlow : UInt8.ofNat (byte.toNat % 128 * 256 + byte'.toNat) = byte' := by
    rw [← UInt8.toNat_inj, UInt8.toNat_ofNat']
    omega
  rw [NetUnparser.u16, NetUnparser.unparseInt_eq_bytes, hword]
  simp only [BigEndian.bytes, hhigh, hlow, List.nil_append, List.cons_append]

theorem serializeFront_ofBytes (hlen : data.length = length) :
    (ofBytes data).serializeFront =
      data.take 6 ++ ((UInt8.ofNat (BigEndian.field data 6 1) &&& 0b01111111) ::
        (data.drop 7).take 3) := by
  have hle : ∀ {n}, n ≤ 20 → n ≤ data.length := fun hn => hn.trans_eq hlen.symm
  have hflags : (data.drop 7).take 3 = UInt8.ofNat (BigEndian.field data 7 1) ::
      (data.drop 8).take 2 := by
    rw [drop_eq_field_cons (hle (by decide))]
    rfl
  change NetUnparser.u8 (ofBytes data).firstByte ++
    (NetUnparser.u8 (UInt8.ofNat (BigEndian.field data 1 1)) ++
    (NetUnparser.u16 (UInt16.ofNat (BigEndian.field data 2 2)) ++
    (NetUnparser.u16 (UInt16.ofNat (BigEndian.field data 4 2)) ++
    (NetUnparser.u16 (ofBytes data).foVal ++
    (NetUnparser.u8 (UInt8.ofNat (BigEndian.field data 8 1)) ++
      NetUnparser.u8 (UInt8.ofNat (BigEndian.field data 9 1))))))) = _
  have hlast : (data.drop 8).take 1 ++ (data.drop 9).take 1 = (data.drop 8).take 2 := by
    have happend := take_drop_append data [] 8 1 1
    rwa [List.append_nil, List.append_nil] at happend
  rw [firstByte_ofBytes, foVal_ofBytes, u16_and_field (hle (by decide)),
    NetUnparser.u8_field (hle (by decide)), NetUnparser.u8_field (hle (by decide)),
    NetUnparser.u16_field (hle (by decide)), NetUnparser.u16_field (hle (by decide)),
    NetUnparser.u8_field (hle (by decide)), NetUnparser.u8_field (hle (by decide)),
    take_drop_append, take_drop_append, take_drop_append, hlast, hflags]
  rfl

/-- **Twenty bytes, read and written.** -/
theorem serialize_ofBytes (hlen : data.length = length) (hver : (ofBytes data).ver = 4)
    (h5 : 5 ≤ (ofBytes data).hlen) :
    (ofBytes data).serialize =
      .ok (cleared data ++ List.replicate (4 * (ofBytes data).hlen.toNat - length) 0) := by
  have hle : ∀ {n}, n ≤ 20 → n ≤ data.length := fun hn => hn.trans_eq hlen.symm
  -- the byte with the reserved bit, and what stands around it
  have hdata : data = data.take 6 ++ UInt8.ofNat (BigEndian.field data 6 1) :: data.drop 7 := by
    rw [← drop_eq_field_cons (hle (by decide)), List.take_append_drop]
  have hcleared := modify_append_cons (data.take 6) (data.drop 7)
    (UInt8.ofNat (BigEndian.field data 6 1)) (· &&& 0b01111111)
  rw [← hdata, List.length_take_of_le (hle (by decide))] at hcleared
  have hcksum : NetUnparser.u16 (ofBytes data).cksum = (data.drop 10).take 2 :=
    NetUnparser.u16_field (hle (by decide))
  have hsrc : NetUnparser.u32 (ofBytes data).src = (data.drop 12).take 4 :=
    NetUnparser.u32_field (hle (by decide))
  have hdst : NetUnparser.u32 (ofBytes data).dst = (data.drop 16).take 4 :=
    NetUnparser.u32_field (hle (by decide))
  have hlast : (data.drop 7).take (3 + 2 + 4 + 4) = data.drop 7 :=
    List.take_of_length_le (by rw [List.length_drop, hlen]; decide)
  rw [serialize_eq hver h5, serializeFront_ofBytes hlen, serializeBack, cleared, hcleared, hcksum,
    hsrc, hdst]
  simp only [List.append_assoc, List.cons_append]
  rw [take_drop_append, take_drop_append, take_drop_append, hlast]

/-- **A header that is parsed is written back.** -/
theorem serialize_of_parse {other header : IPv4Header} {bytes : List UInt8} {q : NetParser}
    (h : other.parse.run { buffer := bytes } = .ok ((.noError, header), q)) :
    ∃ out, header.serialize = .ok out ∧ out.length = 4 * header.hlen.toNat ∧
      out = cleared (bytes.take length) ++ List.replicate (4 * header.hlen.toNat - length) 0 := by
  by_cases hshort : bytes.length < length
  · rw [parse_of_short other hshort] at h
    cases h
  have hle : length ≤ bytes.length := Nat.not_lt.mp hshort
  by_cases hframed : 4 * (ofBytes (bytes.take length)).hlen.toNat ≤ bytes.length ∧
      (ofBytes (bytes.take length)).ver = 4 ∧ 5 ≤ (ofBytes (bytes.take length)).hlen ∧
      (ofBytes (bytes.take length)).len.toNat = bytes.length
  · obtain ⟨hfit, hver, h5, hlen⟩ := hframed
    rw [parse_of_framed other hle rfl hfit hver h5 hlen] at h
    obtain ⟨hheader, -⟩ := Prod.mk.inj (Except.ok.inj h)
    obtain ⟨-, rfl⟩ := Prod.mk.inj hheader
    have hnat : 5 ≤ (ofBytes (bytes.take length)).hlen.toNat := UInt8.le_iff_toNat_le.mp h5
    have htake : (bytes.take length).length = length := List.length_take_of_le hle
    refine ⟨_, serialize_ofBytes htake hver h5, ?_, rfl⟩
    rw [List.length_append, List.length_replicate, cleared, List.length_modify, htake]
    unfold length at *
    omega
  · -- such a string is reported by the result
    obtain ⟨r, hr, hrun⟩ := parse_of_not_framed other hle rfl hframed
    rw [h] at hrun
    obtain ⟨hheader, -⟩ := Prod.mk.inj (Except.ok.inj hrun)
    exact absurd (Prod.mk.inj hheader).1.symm hr

end IPv4Header

/-- **A parsed header is written back.** For every byte string that `IPv4Header::parse` or
`TCPHeader::parse` accepts, the header that was read is written without an exception, as many bytes
as its length field says: the first twenty bytes of the string with the reserved bits cleared,
followed by zero bytes in the place of options. -/
theorem reserialize_parsed (bytes : List UInt8) :
    (∀ other header q, IPv4Header.parse other { buffer := bytes } = .ok ((.noError, header), q) →
      ∃ out, header.serialize = .ok out ∧ out.length = 4 * header.hlen.toNat ∧
        out = IPv4Header.cleared (bytes.take 20) ++
          List.replicate (4 * header.hlen.toNat - 20) 0) ∧
      ∀ header q, TCPHeader.parse { buffer := bytes } = .ok ((.noError, header), q) →
        ∃ out, header.serialize = .ok out ∧ out.length = 4 * header.doff.toNat ∧
          out = TCPHeader.cleared (bytes.take 20) ++
            List.replicate (4 * header.doff.toNat - 20) 0 :=
  ⟨fun _ _ _ => IPv4Header.serialize_of_parse, fun _ _ => TCPHeader.serialize_of_parse⟩

/-- Both headers, with reserved bits set and four bytes of options. -/
theorem reserialize_parsed_options :
    let ip : List UInt8 := [0x46, 1, 0, 24, 0, 2, 0x80, 3, 64, 6, 0xd3, 0xc3, 10, 0, 0, 1,
      10, 0, 0, 2, 8, 9, 10, 11]
    let tcp : List UInt8 := [0, 1, 0, 2, 0, 0, 0, 3, 0, 0, 0, 4, 0x6a, 0xd2, 0, 5,
      0, 6, 0, 7, 8, 9, 10, 11, 12]
    (∃ header q, IPv4Header.parse {} { buffer := ip } = .ok ((.noError, header), q) ∧
      header.serialize = .ok [0x46, 1, 0, 24, 0, 2, 0, 3, 64, 6, 0xd3, 0xc3, 10, 0, 0, 1,
        10, 0, 0, 2, 0, 0, 0, 0]) ∧
    (∃ header q, TCPHeader.parse { buffer := tcp } = .ok ((.noError, header), q) ∧
      header.serialize = .ok [0, 1, 0, 2, 0, 0, 0, 3, 0, 0, 0, 4, 0x60, 0x12, 0, 5,
        0, 6, 0, 7, 0, 0, 0, 0]) := by
  intro ip tcp
  have hip : (IPv4Header.parse {}).run { buffer := ip } =
      .ok ((.noError, IPv4Header.ofBytes (ip.take IPv4Header.length)), { buffer := [] }) := by
    have hhlen : (IPv4Header.ofBytes (ip.take IPv4Header.length)).hlen.toNat = 6 := by decide
    have hsum : (({} : InternetChecksum).add (ip.take (4 * 6))).value = 0 := by decide +kernel
    rw [IPv4Header.parse_of_framed {} (by decide) rfl (by decide) (by decide) (by decide)
      (by decide), hhlen, if_pos hsum]
    rfl
  have htcp : TCPHeader.parse.run { buffer := tcp } =
      .ok ((.noError, TCPHeader.ofBytes (tcp.take TCPHeader.length)), { buffer := [12] }) := by
    have hdoff : (TCPHeader.ofBytes (tcp.take TCPHeader.length)).doff.toNat = 6 := by decide
    rw [TCPHeader.parse_of_doff_ge (by decide) (by decide) (by decide), hdoff]
    rfl
  refine ⟨⟨_, _, hip, ?_⟩, ⟨_, _, htcp, ?_⟩⟩
  · obtain ⟨out, hout, -, rfl⟩ := (reserialize_parsed ip).1 {} _ _ hip
    exact hout.trans (congrArg _ (by decide))
  · obtain ⟨out, hout, -, rfl⟩ := (reserialize_parsed tcp).2 _ _ htcp
    exact hout.trans (congrArg _ (by decide))

end Sponge
