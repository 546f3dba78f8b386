import Mathlib.Tactic
import Sponge.Util.InternetChecksum
import Sponge.Util.NetParser

/-!
# IPv4 datagrams

`IPv4Datagram.serialize` writes a header with its checksum in front of a payload, and
`IPv4Datagram.parse` reads them back. The header parser reports a bad header by what it returns,
and the datagram parser does not look at it: what it accepts is decided by a comparison of 16-bit
lengths.

## Main definitions

* `IPv4Header`, `IPv4Header.parse`, `serialize`, `payloadLength`, `pseudoCksum`
* `IPv4Datagram`, `IPv4Datagram.parse`, `serialize`
* `IPv4Datagram.Framed bytes`: the version and the lengths of a byte string are right
* `IPv4Datagram.WellFormed bytes`: in addition, the header checksum verifies

## Main results

* `IPv4Datagram.parse_spec`: what the datagram parser accepts
* `IPv4Header.parse_append`, `IPv4Datagram.parse_wire`: what is written is read back
-/

namespace Sponge

open InternetChecksum

/-- The IPv4 header, with the default values of `ipv4_header.hh`. -/
structure IPv4Header where
  ver : UInt8 := 4
  hlen : UInt8 := 5
  tos : UInt8 := 0
  len : UInt16 := 0
  id : UInt16 := 0
  df : Bool := true
  mf : Bool := false
  offset : UInt16 := 0
  ttl : UInt8 := 128
  proto : UInt8 := 6
  cksum : UInt16 := 0
  src : UInt32 := 0
  dst : UInt32 := 0
  deriving DecidableEq, Repr

namespace IPv4Header

/-- The length of a header without options: `IPv4Header::LENGTH`. -/
def length : ℕ := 20

/-- The protocol number of TCP. -/
def protoTCP : UInt8 := 6

/-- The fields of the header, as `parse` reads them. -/
def parseFields : Parsing IPv4Header := do
  let firstByte ← NetParser.u8
  let tos ← NetParser.u8
  let len ← NetParser.u16
  let id ← NetParser.u16
  let foVal ← NetParser.u16
  let ttl ← NetParser.u8
  let proto ← NetParser.u8
  let cksum ← NetParser.u16
  let src ← NetParser.u32
  let dst ← NetParser.u32
  return {
    ver := firstByte >>> 4
    hlen := firstByte &&& 0x0f
    tos := tos
    len := len
    id := id
    df := foVal &&& 0x4000 != 0
    mf := foVal &&& 0x2000 != 0
    offset := foVal &&& 0x1fff
    ttl := ttl
    proto := proto
    cksum := cksum
    src := src
    dst := dst }

/-- Parse a header. A buffer that is too short for one leaves the fields as they were. -/
def parse (header : IPv4Header) : Parsing (ParseResult × IPv4Header) := do
  let original := (← get).buffer
  let dataSize := original.length
  if dataSize < length then
    return (.packetTooShort, header)
  let header ← parseFields
  if dataSize < 4 * header.hlen.toNat then
    return (.packetTooShort, header)
  if header.ver ≠ 4 then
    return (.wrongIPVersion, header)
  if header.hlen < 5 then
    return (.headerTooShort, header)
  if dataSize ≠ header.len.toNat then
    return (.truncatedPacket, header)
  NetParser.removePrefix (header.hlen.toNat * 4 - length)
  let p ← get
  if p.error ≠ .noError then
    return (p.error, header)
  let check := ({} : InternetChecksum).add (original.take (4 * header.hlen.toNat))
  if check.value ≠ 0 then
    return (.badChecksum, header)
  return (.noError, header)

/-- The version and the header length in one byte. -/
def firstByte (header : IPv4Header) : UInt8 :=
  (header.ver <<< 4) ||| (header.hlen &&& 0xf)

/-- The fragmentation flags and the offset in one word. -/
def foVal (header : IPv4Header) : UInt16 :=
  (if header.df then 0x4000 else 0) ||| (if header.mf then 0x2000 else 0) |||
    (header.offset &&& 0x1fff)

/-- The fields before the checksum, in the order of the wire. -/
def serializeFront (header : IPv4Header) : List UInt8 :=
  NetUnparser.u8 header.firstByte ++ (NetUnparser.u8 header.tos ++ (NetUnparser.u16 header.len ++
  (NetUnparser.u16 header.id ++ (NetUnparser.u16 header.foVal ++ (NetUnparser.u8 header.ttl ++
    NetUnparser.u8 header.proto)))))

/-- The header, expanded to its advertised size. -/
def serialize (header : IPv4Header) : Except StdException (List UInt8) := do
  if header.ver ≠ 4 then
    throw (.runtimeError "wrong IP version")
  if 4 * header.hlen.toNat < length then
    throw (.runtimeError "IP header too short")
  return Buffer.resize (header.serializeFront ++ (NetUnparser.u16 header.cksum ++
    (NetUnparser.u32 header.src ++ NetUnparser.u32 header.dst))) (4 * header.hlen.toNat)

/-- The length of the payload, in 16 bits. -/
def payloadLength (header : IPv4Header) : UInt16 :=
  header.len - 4 * header.hlen.toUInt16

/-- The contribution of the pseudo-header to the checksum of a TCP segment. -/
def pseudoCksum (header : IPv4Header) : UInt32 :=
  let pcksum : UInt32 := (header.src >>> (16 : UInt32)) + (header.src &&& (0xffff : UInt32))
  let pcksum := pcksum + ((header.dst >>> (16 : UInt32)) + (header.dst &&& (0xffff : UInt32)))
  let pcksum := pcksum + header.proto.toUInt32
  pcksum + header.payloadLength.toUInt32

end IPv4Header

structure IPv4Datagram where
  header : IPv4Header := {}
  payload : BufferList := []
  deriving DecidableEq, Repr

namespace IPv4Datagram

/-- Parse a datagram: the result of the header parser is not looked at. -/
def parse (dgram : IPv4Datagram) (buffer : Buffer) :
    Except StdException (ParseResult × IPv4Datagram) := do
  let ((_, header), p) ← (dgram.header.parse).run { buffer := buffer }
  let dgram : IPv4Datagram := { header := header, payload := [p.buffer] }
  if dgram.payload.size ≠ header.payloadLength.toNat then
    return (.packetTooShort, dgram)
  return (p.error, dgram)

/-- The header with its checksum, and the payload. -/
def serialize (dgram : IPv4Datagram) : Except StdException BufferList := do
  if dgram.payload.size ≠ dgram.header.payloadLength.toNat then
    throw (.runtimeError "IPv4Datagram::serialize: payload is wrong size")
  let headerOut := { dgram.header with cksum := 0 }
  let check := ({} : InternetChecksum).add (← headerOut.serialize)
  let headerOut := { headerOut with cksum := check.value }
  return (← headerOut.serialize) :: dgram.payload

end IPv4Datagram

namespace IPv4Header

/-! ## The fields -/

/-- The fields that the first twenty bytes of a header spell. -/
def ofBytes (bytes : List UInt8) : IPv4Header :=
  let firstByte := UInt8.ofNat (BigEndian.field bytes 0 1)
  let foVal := UInt16.ofNat (BigEndian.field bytes 6 2)
  { ver := firstByte >>> 4
    hlen := firstByte &&& 0x0f
    tos := UInt8.ofNat (BigEndian.field bytes 1 1)
    len := UInt16.ofNat (BigEndian.field bytes 2 2)
    id := UInt16.ofNat (BigEndian.field bytes 4 2)
    df := foVal &&& 0x4000 != 0
    mf := foVal &&& 0x2000 != 0
    offset := foVal &&& 0x1fff
    ttl := UInt8.ofNat (BigEndian.field bytes 8 1)
    proto := UInt8.ofNat (BigEndian.field bytes 9 1)
    cksum := UInt16.ofNat (BigEndian.field bytes 10 2)
    src := UInt32.ofNat (BigEndian.field bytes 12 4)
    dst := UInt32.ofNat (BigEndian.field bytes 16 4) }

theorem reads_parseFields : Reads 20 ofBytes parseFields := by
  refine (NetParser.reads_u8.bind fun firstByte => NetParser.reads_u8.bind fun tos =>
    NetParser.reads_u16.bind fun len => NetParser.reads_u16.bind fun id =>
    NetParser.reads_u16.bind fun foVal => NetParser.reads_u8.bind fun ttl =>
    NetParser.reads_u8.bind fun proto => NetParser.reads_u16.bind fun cksum =>
    NetParser.reads_u32.bind fun src => NetParser.reads_u32.map fun dst => _).congr
      fun bytes hlen => ?_
  have hlast : (bytes.drop 16).take 4 = bytes.drop 16 :=
    List.take_of_length_le (by rw [List.length_drop]; omega)
  simp only [ofBytes, BigEndian.field, List.drop_drop, List.drop_zero, hlast, Nat.reduceAdd]

theorem or_and (a b mask : UInt16) : (a ||| b) &&& mask = (a &&& mask) ||| (b &&& mask) := by
  rw [← UInt16.toNat_inj]
  simp only [UInt16.toNat_and, UInt16.toNat_or]
  exact Nat.and_or_distrib_right _ _ _

theorem foVal_bits {header : IPv4Header} (h : header.offset < 0x2000) :
    (header.foVal &&& 0x4000 != 0) = header.df ∧ (header.foVal &&& 0x2000 != 0) = header.mf ∧
      header.foVal &&& 0x1fff = header.offset := by
  have hlt : header.offset.toNat < 2 ^ 13 := UInt16.lt_iff_toNat_lt.mp h
  have hoffset : header.offset &&& 0x1fff = header.offset := by
    rw [← UInt16.toNat_inj, UInt16.toNat_and]
    exact (Nat.and_two_pow_sub_one_eq_mod _ 13).trans (Nat.mod_eq_of_lt hlt)
  have hdf : header.offset &&& 0x4000 = 0 := by
    rw [← hoffset, UInt16.and_assoc]
    exact UInt16.and_zero
  have hmf : header.offset &&& 0x2000 = 0 := by
    rw [← hoffset, UInt16.and_assoc]
    exact UInt16.and_zero
  have hdm : (0x4000 : UInt16) &&& 0x2000 = 0 := rfl
  have hmd : (0x2000 : UInt16) &&& 0x4000 = 0 := rfl
  have hdo : (0x4000 : UInt16) &&& 0x1fff = 0 := rfl
  have hmo : (0x2000 : UInt16) &&& 0x1fff = 0 := rfl
  simp only [foVal, or_and, hoffset, hdf, hmf]
  cases header.df <;> cases header.mf <;> simp [hdm, hmd, hdo, hmo]

theorem firstByte_bits {header : IPv4Header} (hver : header.ver = 4) (h15 : header.hlen ≤ 15) :
    header.firstByte >>> 4 = header.ver ∧ header.firstByte &&& 0x0f = header.hlen := by
  have hle : header.hlen.toNat ≤ 15 := UInt8.le_iff_toNat_le.mp h15
  have hbyte : header.firstByte.toNat = 4 * 16 + header.hlen.toNat := by
    have hmask : header.hlen.toNat &&& 15 = header.hlen.toNat :=
      (Nat.and_two_pow_sub_one_eq_mod _ 4).trans (Nat.mod_eq_of_lt (by omega))
    rw [firstByte, hver, UInt8.toNat_or, UInt8.toNat_and]
    change 4 <<< 4 ||| (header.hlen.toNat &&& 15) = _
    rw [hmask, ← Nat.shiftLeft_add_eq_or_of_lt (by omega), Nat.shiftLeft_eq]
  constructor
  · rw [hver, ← UInt8.toNat_inj, UInt8.toNat_shiftRight, hbyte]
    change (4 * 16 + header.hlen.toNat) >>> 4 = 4
    rw [Nat.shiftRight_eq_div_pow]
    omega
  · rw [← UInt8.toNat_inj, UInt8.toNat_and, hbyte]
    refine (Nat.and_two_pow_sub_one_eq_mod _ 4).trans ?_
    omega

theorem parseFields_append (header : IPv4Header) (hver : header.ver = 4) (h15 : header.hlen ≤ 15)
    (hoffset : header.offset < 0x2000) (rest : List UInt8) :
    parseFields.run { buffer := header.serializeFront ++ (NetUnparser.u16 header.cksum ++
      (NetUnparser.u32 header.src ++ (NetUnparser.u32 header.dst ++ rest))) } =
        .ok (header, { buffer := rest }) := by
  obtain ⟨hdf, hmf, hoff⟩ := foVal_bits hoffset
  obtain ⟨hfirst, hhlen⟩ := firstByte_bits hver h15
  simp only [parseFields, serializeFront, List.append_assoc, StateT.run_bind, NetParser.u16_append,
    NetParser.u32_append, NetParser.u8_append, ok_bind, StateT.run_pure, pure_eq_ok, hdf, hmf, hoff,
    hfirst, hhlen]

theorem parseFields_of_le {bytes : List UInt8} (h : length ≤ bytes.length) :
    parseFields.run { buffer := bytes } =
      .ok (ofBytes (bytes.take length), { buffer := bytes.drop length }) :=
  reads_parseFields.of_le { buffer := bytes } rfl h

/-! ## Reading a header -/

section Reading

variable (header : IPv4Header) {bytes : List UInt8}

theorem parse_of_short (h : bytes.length < length) :
    header.parse.run { buffer := bytes } =
      .ok ((.packetTooShort, header), { buffer := bytes }) := by
  simp [parse, h]

/-- What a buffer that is long enough is parsed to, test by test. -/
theorem parse_run (h : length ≤ bytes.length) {read : IPv4Header}
    (hread : ofBytes (bytes.take length) = read) :
    header.parse.run { buffer := bytes } =
      if bytes.length < 4 * read.hlen.toNat then
        .ok ((.packetTooShort, read), { buffer := bytes.drop length })
      else if read.ver ≠ 4 then .ok ((.wrongIPVersion, read), { buffer := bytes.drop length })
      else if read.hlen < 5 then .ok ((.headerTooShort, read), { buffer := bytes.drop length })
      else if bytes.length ≠ read.len.toNat then
        .ok ((.truncatedPacket, read), { buffer := bytes.drop length })
      else
        .ok ((if (({} : InternetChecksum).add (bytes.take (4 * read.hlen.toNat))).value = 0
          then .noError else .badChecksum, read),
          { buffer := bytes.drop (4 * read.hlen.toNat) }) := by
  have hfields := parseFields_of_le h
  rw [hread] at hfields
  have hskip (hle : 4 * read.hlen.toNat ≤ bytes.length) (h5 : ¬ read.hlen < 5) :
      (NetParser.removePrefix (read.hlen.toNat * 4 - length)).run
        { buffer := bytes.drop length } =
          .ok ((), { buffer := bytes.drop (4 * read.hlen.toNat) }) := by
    have hnat : 5 ≤ read.hlen.toNat := UInt8.le_iff_toNat_le.mp (UInt8.not_lt.mp h5)
    have hlength : length ≤ 4 * read.hlen.toNat := by
      unfold length
      omega
    rw [Nat.mul_comm]
    exact NetParser.removePrefix_drop hlength hle
  -- both sides make the same tests; only the last branch moves the buffer on
  unfold parse
  simp only [StateT.run_bind, StateT.run_get, pure_eq_ok, ok_bind, if_neg (Nat.not_lt.mpr h),
    hfields]
  by_cases hshort : bytes.length < 4 * read.hlen.toNat
  · rw [if_pos hshort, if_pos hshort]
    rfl
  by_cases hver : read.ver ≠ 4
  · rw [if_neg hshort, if_neg hshort, if_pos hver, if_pos hver]
    rfl
  by_cases h5 : read.hlen < 5
  · rw [if_neg hshort, if_neg hshort, if_neg hver, if_neg hver, if_pos h5, if_pos h5]
    rfl
  rw [if_neg hshort, if_neg hshort, if_neg hver, if_neg hver, if_neg h5, if_neg h5]
  by_cases hlen : bytes.length ≠ read.len.toNat
  · rw [if_pos hlen, if_pos hlen]
    rfl
  rw [if_neg hlen, if_neg hlen, StateT.run_bind, hskip (Nat.le_of_not_lt hshort) h5, ok_bind]
  by_cases hvalue : (({} : InternetChecksum).add (bytes.take (4 * read.hlen.toNat))).value = 0
  · rw [if_pos hvalue, if_neg (not_not.mpr hvalue)]
    rfl
  · rw [if_neg hvalue, if_pos hvalue]
    rfl

/-- A header whose version or lengths are wrong is reported by the result alone: the options stay in
the buffer, and the parser goes on without an error. -/
theorem parse_of_not_framed (h : length ≤ bytes.length) {read : IPv4Header}
    (hread : ofBytes (bytes.take length) = read)
    (hframed : ¬(4 * read.hlen.toNat ≤ bytes.length ∧ read.ver = 4 ∧ 5 ≤ read.hlen ∧
      read.len.toNat = bytes.length)) :
    ∃ r, r ≠ .noError ∧ header.parse.run { buffer := bytes } =
      .ok ((r, read), { buffer := bytes.drop length }) := by
  rw [parse_run header h hread]
  by_cases hshort : bytes.length < 4 * read.hlen.toNat
  · exact ⟨.packetTooShort, by decide, if_pos hshort⟩
  rw [if_neg hshort]
  by_cases hver : read.ver ≠ 4
  · exact ⟨.wrongIPVersion, by decide, if_pos hver⟩
  rw [if_neg hver]
  by_cases h5 : read.hlen < 5
  · exact ⟨.headerTooShort, by decide, if_pos h5⟩
  rw [if_neg h5]
  have hlen : bytes.length ≠ read.len.toNat := fun heq =>
    hframed ⟨Nat.le_of_not_lt hshort, not_not.mp hver, UInt8.not_lt.mp h5, heq.symm⟩
  exact ⟨.truncatedPacket, by decide, if_pos hlen⟩

theorem parse_of_framed (h : length ≤ bytes.length) {read : IPv4Header}
    (hread : ofBytes (bytes.take length) = read) (hle : 4 * read.hlen.toNat ≤ bytes.length)
    (hver : read.ver = 4) (h5 : 5 ≤ read.hlen) (hlen : read.len.toNat = bytes.length) :
    header.parse.run { buffer := bytes } =
      .ok ((if (({} : InternetChecksum).add (bytes.take (4 * read.hlen.toNat))).value = 0
        then .noError else .badChecksum, read),
        { buffer := bytes.drop (4 * read.hlen.toNat) }) := by
  rw [parse_run header h hread, if_neg (Nat.not_lt.mpr hle), if_neg (not_not.mpr hver),
    if_neg (UInt8.not_lt.mpr h5), if_neg (not_not.mpr hlen.symm)]

end Reading

theorem payloadLength_toNat (header : IPv4Header) :
    header.payloadLength.toNat = (2 ^ 16 + header.len.toNat - 4 * header.hlen.toNat) % 2 ^ 16 := by
  have hhlen : header.hlen.toNat < 256 := header.hlen.toNat_lt
  have hlen : header.len.toNat < 65536 := header.len.toNat_lt
  have hmul : (4 * header.hlen.toUInt16).toNat = 4 * header.hlen.toNat := by
    rw [UInt16.toNat_mul, UInt8.toNat_toUInt16]
    exact Nat.mod_eq_of_lt (by change 4 * _ < _; omega)
  rw [payloadLength, UInt16.toNat_sub, hmul]
  omega

/-! ## Writing a header -/

/-- What follows the checksum in a header on the wire: the options are zero bytes. -/
def serializeBack (header : IPv4Header) : List UInt8 :=
  NetUnparser.u32 header.src ++ (NetUnparser.u32 header.dst ++
    List.replicate (4 * header.hlen.toNat - length) 0)

@[simp] theorem length_serializeFront (header : IPv4Header) :
    header.serializeFront.length = 10 := rfl

theorem length_serializeBack {header : IPv4Header} (h5 : 5 ≤ header.hlen) :
    header.serializeBack.length = 4 * header.hlen.toNat - 12 := by
  have hle : 5 ≤ header.hlen.toNat := UInt8.le_iff_toNat_le.mp h5
  simp only [serializeBack, List.length_append, NetUnparser.length_u32, List.length_replicate,
    length]
  omega

theorem serialize_eq {header : IPv4Header} (hver : header.ver = 4) (h5 : 5 ≤ header.hlen) :
    header.serialize = .ok (header.serializeFront ++ (NetUnparser.u16 header.cksum ++
      header.serializeBack)) := by
  have hle : 5 ≤ header.hlen.toNat := UInt8.le_iff_toNat_le.mp h5
  have hlt : ¬4 * header.hlen.toNat < length := by
    unfold length
    omega
  rw [serialize, if_neg (not_not.mpr hver), if_neg hlt, Buffer.resize_of_le]
  · simp [serializeBack, length]
  · simp only [List.length_append, length_serializeFront, NetUnparser.length_u16,
      NetUnparser.length_u32]
    omega

/-- The header with the checksum field `cksum`, as it stands on the wire. -/
def wire (header : IPv4Header) (cksum : UInt16) : List UInt8 :=
  header.serializeFront ++ (NetUnparser.u16 cksum ++ header.serializeBack)

/-- The checksum of a header: the value over the header with a zero in its place. -/
def checksum (header : IPv4Header) : UInt16 :=
  (({} : InternetChecksum).add (header.wire 0)).value

theorem length_wire {header : IPv4Header} (h5 : 5 ≤ header.hlen) (cksum : UInt16) :
    (header.wire cksum).length = 4 * header.hlen.toNat := by
  have hle : 5 ≤ header.hlen.toNat := UInt8.le_iff_toNat_le.mp h5
  simp only [wire, List.length_append, length_serializeFront, NetUnparser.length_u16,
    length_serializeBack h5]
  omega

/-- The checksum that `serialize` writes verifies. -/
theorem value_wire {header : IPv4Header} (h5 : 5 ≤ header.hlen) (h15 : header.hlen ≤ 15) :
    (({} : InternetChecksum).add (header.wire header.checksum)).value = 0 := by
  have hhlen : header.hlen.toNat ≤ 15 := UInt8.le_iff_toNat_le.mp h15
  have hwire (cksum : UInt16) : header.wire cksum = header.serializeFront ++
      (BigEndian.bytes 2 cksum.toNat ++ header.serializeBack) := by
    rw [wire, NetUnparser.u16, NetUnparser.unparseInt_eq_bytes]
  have hlen (cksum : UInt16) : (header.wire cksum).length ≤ 65535 := by
    rw [length_wire h5]
    omega
  have hzero : (0 : UInt32).toNat < 2 ^ 20 := by decide
  refine (value_add_eq_zero_iff hzero (hlen _)).mpr ?_
  rw [hwire]
  refine verifies_of_value ⟨5, rfl⟩ hzero ?_ ?_
  · exact (congrArg List.length (hwire 0)).symm.trans_le (hlen 0)
  · exact congrArg (fun bytes => (InternetChecksum.add _ bytes).value) (hwire 0)

/-- **A header is read back** in front of its payload. -/
theorem parse_append (header other : IPv4Header) {payload : List UInt8} (hver : header.ver = 4)
    (h5 : 5 ≤ header.hlen) (h15 : header.hlen ≤ 15) (hoffset : header.offset < 0x2000)
    (hlen : header.len.toNat = 4 * header.hlen.toNat + payload.length) :
    other.parse.run { buffer := header.wire header.checksum ++ payload } =
      .ok ((.noError, { header with cksum := header.checksum }), { buffer := payload }) := by
  have hhlen : 5 ≤ header.hlen.toNat := UInt8.le_iff_toNat_le.mp h5
  let bytes := header.wire header.checksum ++ payload
  have hbytes : bytes.length = 4 * header.hlen.toNat + payload.length := by
    rw [List.length_append, length_wire h5]
  have hle : length ≤ bytes.length := by
    rw [hbytes, length]
    omega
  -- the fields read are those written
  have hread : ofBytes (bytes.take length) = { header with cksum := header.checksum } := by
    have hfields := parseFields_append { header with cksum := header.checksum } hver h15 hoffset
      (List.replicate (4 * header.hlen.toNat - length) 0 ++ payload)
    have hsplit : bytes = header.serializeFront ++ (NetUnparser.u16 header.checksum ++
        (NetUnparser.u32 header.src ++ (NetUnparser.u32 header.dst ++
          (List.replicate (4 * header.hlen.toNat - length) 0 ++ payload)))) := by
      simp [bytes, wire, serializeBack]
    have hboth := (parseFields_of_le hle).symm.trans (hsplit ▸ hfields)
    exact (Prod.mk.inj (Except.ok.inj hboth)).1
  have hrun := parse_of_framed other hle hread (by rw [hbytes]; exact Nat.le_add_right _ _) hver h5
    (hlen.trans hbytes.symm)
  have htake : bytes.take (4 * header.hlen.toNat) = header.wire header.checksum :=
    List.take_left' (length_wire h5 _)
  have hdrop : bytes.drop (4 * header.hlen.toNat) = payload := List.drop_left' (length_wire h5 _)
  rw [hrun]
  simp [htake, hdrop, value_wire h5 h15]

end IPv4Header

namespace IPv4Datagram

variable {bytes : List UInt8}

/-! ## Well-formed datagrams -/

/-- The version field of a byte string. -/
def version (bytes : List UInt8) : ℕ :=
  (bytes.getD 0 0).toNat / 16

/-- The header length field of a byte string, in words of four bytes. -/
def headerLength (bytes : List UInt8) : ℕ :=
  (bytes.getD 0 0).toNat % 16

/-- The total length field of a byte string. -/
def totalLength (bytes : List UInt8) : ℕ :=
  BigEndian.field bytes 2 2

/-- The version and the lengths of a byte string are those of a whole datagram. -/
def Framed (bytes : List UInt8) : Prop :=
  4 * headerLength bytes ≤ bytes.length ∧ version bytes = 4 ∧ 5 ≤ headerLength bytes ∧
    totalLength bytes = bytes.length

instance decidableFramed (bytes : List UInt8) : Decidable (Framed bytes) :=
  inferInstanceAs (Decidable (_ ∧ _))

/-- The byte string is a datagram: it is long enough for a header, it is framed, and the checksum of
the header verifies. -/
structure WellFormed (bytes : List UInt8) : Prop where
  length_le : IPv4Header.length ≤ bytes.length
  framed : Framed bytes
  verifies : Verifies 0 (bytes.take (4 * headerLength bytes))

section Fields

variable (bytes)

theorem field_zero :
    BigEndian.field (bytes.take IPv4Header.length) 0 1 = (bytes.getD 0 0).toNat := by
  rw [BigEndian.field_take (by decide), BigEndian.field_one]

theorem ofBytes_ver_toNat :
    (IPv4Header.ofBytes (bytes.take IPv4Header.length)).ver.toNat = version bytes := by
  change (UInt8.ofNat (BigEndian.field (bytes.take IPv4Header.length) 0 1) >>> 4).toNat = _
  rw [field_zero, UInt8.ofNat_toNat, UInt8.toNat_shiftRight]
  exact Nat.shiftRight_eq_div_pow _ 4

theorem ofBytes_hlen_toNat :
    (IPv4Header.ofBytes (bytes.take IPv4Header.length)).hlen.toNat = headerLength bytes := by
  change (UInt8.ofNat (BigEndian.field (bytes.take IPv4Header.length) 0 1) &&& 0x0f).toNat = _
  rw [field_zero, UInt8.ofNat_toNat, UInt8.toNat_and]
  exact Nat.and_two_pow_sub_one_eq_mod _ 4

theorem ofBytes_len_toNat :
    (IPv4Header.ofBytes (bytes.take IPv4Header.length)).len.toNat = totalLength bytes := by
  have hlt : totalLength bytes < 2 ^ 16 :=
    calc totalLength bytes < 256 ^ ((bytes.drop 2).take 2).length := BigEndian.value_lt _
      _ ≤ 256 ^ 2 := Nat.pow_le_pow_right (by norm_num) (List.length_take_le _ _)
  change (UInt16.ofNat (BigEndian.field (bytes.take IPv4Header.length) 2 2)).toNat = _
  rw [BigEndian.field_take (by decide), UInt16.toNat_ofNat']
  exact Nat.mod_eq_of_lt hlt

theorem framed_iff :
    Framed bytes ↔
      4 * (IPv4Header.ofBytes (bytes.take IPv4Header.length)).hlen.toNat ≤ bytes.length ∧
      (IPv4Header.ofBytes (bytes.take IPv4Header.length)).ver = 4 ∧
      5 ≤ (IPv4Header.ofBytes (bytes.take IPv4Header.length)).hlen ∧
      (IPv4Header.ofBytes (bytes.take IPv4Header.length)).len.toNat = bytes.length := by
  rw [← UInt8.toNat_inj, UInt8.le_iff_toNat_le, ofBytes_hlen_toNat, ofBytes_ver_toNat,
    ofBytes_len_toNat]
  rfl

end Fields

/-! ## Parsing -/

theorem parse_of_run {dgram : IPv4Datagram} {r : ParseResult} {header : IPv4Header}
    {rest : List UInt8}
    (hrun : dgram.header.parse.run { buffer := bytes } = .ok ((r, header), { buffer := rest })) :
    dgram.parse bytes =
      .ok (if rest.length = header.payloadLength.toNat then .noError else .packetTooShort,
        { header := header, payload := [rest] }) := by
  have hsize : BufferList.size [rest] = rest.length := by simp [BufferList.size]
  by_cases h : rest.length = header.payloadLength.toNat
  · simp [parse, hrun, hsize, h]
  · simp [parse, hrun, hsize, h]

/-- **What the datagram parser accepts**: a framed string, whether or not the checksum verifies, and
a string that is not framed if what follows the first twenty bytes has the length that the fields
give modulo `2 ^ 16`. -/
theorem parse_spec (bytes : List UInt8) :
    ∃ r dgram, ({} : IPv4Datagram).parse bytes = .ok (r, dgram) ∧
      (r = .noError ↔ IPv4Header.length ≤ bytes.length ∧ (Framed bytes ∨
        bytes.length - IPv4Header.length =
          (2 ^ 16 + totalLength bytes - 4 * headerLength bytes) % 2 ^ 16)) := by
  have hiff {p : Prop} [Decidable p] :
      ((if p then ParseResult.noError else .packetTooShort) = .noError) ↔ p := by
    split_ifs with h <;> simp [h]
  by_cases hshort : bytes.length < IPv4Header.length
  · -- the fresh header gives a payload length that no short string has
    refine ⟨_, _, parse_of_run (IPv4Header.parse_of_short {} hshort), ?_⟩
    have hlen : bytes.length < 20 := hshort
    rw [hiff]
    change bytes.length = 65516 ↔ 20 ≤ _ ∧ _
    omega
  have hle : IPv4Header.length ≤ bytes.length := Nat.le_of_not_lt hshort
  have hframed := framed_iff bytes
  have hlength := IPv4Header.payloadLength_toNat (IPv4Header.ofBytes (bytes.take IPv4Header.length))
  rw [ofBytes_hlen_toNat, ofBytes_len_toNat] at hlength
  by_cases h : Framed bytes
  · -- whatever the checksum, the parser has skipped the header
    obtain ⟨hfit, hver, h5, hlen⟩ := hframed.mp h
    refine ⟨_, _, parse_of_run (IPv4Header.parse_of_framed {} hle rfl hfit hver h5 hlen), ?_⟩
    have hlt : bytes.length < 65536 := hlen ▸ UInt16.toNat_lt _
    rw [ofBytes_hlen_toNat] at hfit
    rw [hiff, hlength, ofBytes_hlen_toNat, List.length_drop, h.2.2.2]
    simp only [hle, h, true_or, and_true, iff_true]
    omega
  · -- the parser has stopped behind the fields, without an error
    obtain ⟨r, -, hrun⟩ := IPv4Header.parse_of_not_framed {} hle rfl
      (fun hf => h (hframed.mpr hf))
    refine ⟨_, _, parse_of_run hrun, ?_⟩
    rw [hiff, hlength, List.length_drop]
    simp [hle, h]

/-- **The datagram parser accepts exactly the well-formed datagrams** if and only if the string is
too short for a header, or it is framed and its checksum verifies, or it is not framed and what
follows its first twenty bytes does not have the length that the fields give modulo `2 ^ 16`. -/
theorem parse_wellFormed_iff (bytes : List UInt8) :
    (∃ r dgram, ({} : IPv4Datagram).parse bytes = .ok (r, dgram) ∧
      (r = .noError ↔ WellFormed bytes)) ↔
    bytes.length < IPv4Header.length ∨
      (Framed bytes ∧ Verifies 0 (bytes.take (4 * headerLength bytes))) ∨
      (¬Framed bytes ∧ bytes.length - IPv4Header.length ≠
        (2 ^ 16 + totalLength bytes - 4 * headerLength bytes) % 2 ^ 16) := by
  obtain ⟨r, dgram, hparse, hr⟩ := parse_spec bytes
  have hwf : WellFormed bytes ↔ IPv4Header.length ≤ bytes.length ∧ Framed bytes ∧
      Verifies 0 (bytes.take (4 * headerLength bytes)) :=
    ⟨fun h => ⟨h.length_le, h.framed, h.verifies⟩, fun ⟨hle, hf, hv⟩ => ⟨hle, hf, hv⟩⟩
  have hresult : (∃ r dgram, ({} : IPv4Datagram).parse bytes = .ok (r, dgram) ∧
      (r = .noError ↔ WellFormed bytes)) ↔ (r = .noError ↔ WellFormed bytes) := by
    constructor
    · rintro ⟨r', dgram', hparse', hr'⟩
      obtain ⟨rfl, rfl⟩ : r = r' ∧ dgram = dgram' := by simpa [hparse] using hparse'
      exact hr'
    · exact fun h => ⟨r, dgram, hparse, h⟩
  rw [hresult, hr, hwf]
  by_cases hle : IPv4Header.length ≤ bytes.length
  · have hlt : ¬bytes.length < IPv4Header.length := Nat.not_lt.mpr hle
    by_cases hf : Framed bytes <;> simp [hle, hlt, hf]
  · simp [hle, Nat.lt_of_not_le hle]

/-- Headers without payload are accepted with a version of five, and with a checksum that does not
verify. -/
theorem parse_accepts_bad_header :
    (({} : IPv4Datagram).parse ([0x55, 0, 0, 20] ++ List.replicate 16 0)).map Prod.fst =
        .ok .noError ∧
      ¬WellFormed ([0x55, 0, 0, 20] ++ List.replicate 16 0) ∧
      (({} : IPv4Datagram).parse ([0x45, 0, 0, 20] ++ List.replicate 16 0)).map Prod.fst =
        .ok .noError ∧
      ¬WellFormed ([0x45, 0, 0, 20] ++ List.replicate 16 0) :=
  ⟨by decide +kernel, fun h => absurd h.framed.2.1 (by decide), by decide +kernel,
    fun h => absurd h.verifies (by decide)⟩

/-! ## Round trip -/

theorem payloadLength_eq {header : IPv4Header} {n : ℕ}
    (h : header.len.toNat = 4 * header.hlen.toNat + n) : header.payloadLength.toNat = n := by
  have hlen : header.len.toNat < 65536 := header.len.toNat_lt
  rw [IPv4Header.payloadLength_toNat]
  omega

theorem serialize_eq {dgram : IPv4Datagram} (hver : dgram.header.ver = 4)
    (h5 : 5 ≤ dgram.header.hlen)
    (hlen : dgram.header.len.toNat = 4 * dgram.header.hlen.toNat + dgram.payload.size) :
    dgram.serialize = .ok (dgram.header.wire dgram.header.checksum :: dgram.payload) := by
  have hsize : dgram.payload.size = dgram.header.payloadLength.toNat := (payloadLength_eq hlen).symm
  have hheader (cksum : UInt16) : ({ dgram.header with cksum := cksum } : IPv4Header).serialize =
      .ok (dgram.header.wire cksum) :=
    IPv4Header.serialize_eq hver h5
  have hcheck : (({} : InternetChecksum).add (dgram.header.wire 0)).value =
      dgram.header.checksum := rfl
  simp only [serialize, hsize, ne_eq, not_true_eq_false, if_false, hheader, ok_bind, pure_eq_ok,
    hcheck]

theorem concatenate_wire (dgram : IPv4Datagram) :
    BufferList.concatenate (dgram.header.wire dgram.header.checksum :: dgram.payload) =
      dgram.header.wire dgram.header.checksum ++ dgram.payload.concatenate := rfl

section RoundTrip

variable (dgram : IPv4Datagram) (hver : dgram.header.ver = 4) (h5 : 5 ≤ dgram.header.hlen)
  (h15 : dgram.header.hlen ≤ 15) (hoffset : dgram.header.offset < 0x2000)
  (hlen : dgram.header.len.toNat = 4 * dgram.header.hlen.toNat + dgram.payload.size)

include hver h5 h15 hoffset hlen

theorem run_parse_wire (header : IPv4Header) :
    header.parse.run
        { buffer := dgram.header.wire dgram.header.checksum ++ dgram.payload.concatenate } =
      .ok ((.noError, { dgram.header with cksum := dgram.header.checksum }),
        { buffer := dgram.payload.concatenate }) :=
  IPv4Header.parse_append dgram.header header hver h5 h15 hoffset
    (hlen.trans (by rw [BufferList.size_eq_length_concatenate]))

/-- What stands on the wire is parsed, with the payload in one buffer. -/
theorem parse_wire (other : IPv4Datagram) :
    other.parse (dgram.header.wire dgram.header.checksum ++ dgram.payload.concatenate) =
      .ok (.noError,
        { header := { dgram.header with cksum := dgram.header.checksum },
          payload := [dgram.payload.concatenate] }) := by
  rw [parse_of_run (run_parse_wire dgram hver h5 h15 hoffset hlen other.header), if_pos]
  rw [← BufferList.size_eq_length_concatenate]
  exact (payloadLength_eq hlen).symm

end RoundTrip

/-- **Round trip**: `serialize` does not throw, and what it writes is parsed without an error, by
the datagram parser and by the header parser, into the same payload and the same header fields, with
the checksum filled in. -/
theorem parse_serialize_datagram (dgram other : IPv4Datagram) (hver : dgram.header.ver = 4)
    (h5 : 5 ≤ dgram.header.hlen) (h15 : dgram.header.hlen ≤ 15)
    (hoffset : dgram.header.offset < 0x2000)
    (hlen : dgram.header.len.toNat = 4 * dgram.header.hlen.toNat + dgram.payload.size) :
    ∃ buffers cksum, dgram.serialize = .ok buffers ∧
      other.parse buffers.concatenate = .ok (.noError,
        { header := { dgram.header with cksum := cksum },
          payload := [dgram.payload.concatenate] }) ∧
      ∃ p, other.header.parse.run { buffer := buffers.concatenate } =
        .ok ((.noError, { dgram.header with cksum := cksum }), p) := by
  refine ⟨_, dgram.header.checksum, serialize_eq hver h5 hlen, ?_,
    { buffer := dgram.payload.concatenate }, ?_⟩
  · rw [concatenate_wire]
    exact parse_wire dgram hver h5 h15 hoffset hlen other
  · rw [concatenate_wire]
    exact run_parse_wire dgram hver h5 h15 hoffset hlen other.header

theorem parse_serialize_datagram_two :
    ∃ buffers cksum, ({ header := { len := 22 }, payload := [[7], [8]] } : IPv4Datagram).serialize =
        .ok buffers ∧
      ({} : IPv4Datagram).parse buffers.concatenate = .ok (.noError,
        { header := { len := 22, cksum := cksum }, payload := [[7, 8]] }) ∧
      ∃ p, ({} : IPv4Header).parse.run { buffer := buffers.concatenate } =
        .ok ((.noError, { len := 22, cksum := cksum }), p) :=
  parse_serialize_datagram { header := { len := 22 }, payload := [[7], [8]] } {} rfl (by decide)
    (by decide) (by decide) rfl

end IPv4Datagram

end Sponge
