import Mathlib.Tactic
import Sponge.TCPHelpers
import Sponge.Util.InternetChecksum
import Sponge.Util.NetParser

/-!
# Segments on the wire

`TCPSegment.serialize` writes the header and the payload of a segment with a checksum that starts
from the contribution of the datagram layer, and `TCPSegment.parse` reads them back. The segment
parser checks the checksum first, ignores what the header parser returns, and reports the error of
the parser state alone.

## Main definitions

* `TCPHeader.parse`, `TCPHeader.serialize`, `TCPSegment.parse`, `TCPSegment.serialize`
* `TCPSegment.dataOffset bytes`: the data offset field of a byte string
* `TCPSegment.WellFormed sum bytes`: the checksum verifies, and the header is complete

## Main results

* `TCPSegment.parse_spec`: what the segment parser accepts
* `TCPHeader.parse_append`, `TCPSegment.parse_wire`: what is written is read back
-/

namespace Sponge

open InternetChecksum

namespace TCPHeader

/-- The length of a header without options: `TCPHeader::LENGTH`. -/
def length : ℕ := 20

/-- The fields of the header, as `parse` reads them. -/
def parseFields : Parsing TCPHeader := do
  let sport ← NetParser.u16
  let dport ← NetParser.u16
  let seqno ← NetParser.u32
  let ackno ← NetParser.u32
  let doff ← NetParser.u8
  let flB ← NetParser.u8
  let win ← NetParser.u16
  let cksum ← NetParser.u16
  let uptr ← NetParser.u16
  return {
    sport := sport
    dport := dport
    seqno := ⟨seqno⟩
    ackno := ⟨ackno⟩
    doff := doff >>> 4
    urg := flB &&& 0b00100000 != 0
    ack := flB &&& 0b00010000 != 0
    psh := flB &&& 0b00001000 != 0
    rst := flB &&& 0b00000100 != 0
    syn := flB &&& 0b00000010 != 0
    fin := flB &&& 0b00000001 != 0
    win := win
    cksum := cksum
    uptr := uptr }

def parse : Parsing (ParseResult × TCPHeader) := do
  let header ← parseFields
  if header.doff < 5 then
    return (.headerTooShort, header)
  -- skip any options
  NetParser.removePrefix (header.doff.toNat * 4 - length)
  let p ← get
  if p.error ≠ .noError then
    return (p.error, header)
  return (.noError, header)

/-- The byte that holds the flags. -/
def flags (header : TCPHeader) : UInt8 :=
  (if header.urg then 0b00100000 else 0) ||| (if header.ack then 0b00010000 else 0) |||
  (if header.psh then 0b00001000 else 0) ||| (if header.rst then 0b00000100 else 0) |||
  (if header.syn then 0b00000010 else 0) ||| (if header.fin then 0b00000001 else 0)

/-- The fields before the checksum, in the order of the wire. -/
def serializeFront (header : TCPHeader) : List UInt8 :=
  NetUnparser.u16 header.sport ++ (NetUnparser.u16 header.dport ++
  (NetUnparser.u32 header.seqno.rawValue ++ (NetUnparser.u32 header.ackno.rawValue ++
  (NetUnparser.u8 (header.doff <<< 4) ++ (NetUnparser.u8 header.flags ++
    NetUnparser.u16 header.win)))))

/-- The header, expanded to its advertised size. -/
def serialize (header : TCPHeader) : Except StdException (List UInt8) := do
  if header.doff < 5 then
    throw (.runtimeError "TCP header too short")
  return Buffer.resize (header.serializeFront ++ (NetUnparser.u16 header.cksum ++
    NetUnparser.u16 header.uptr)) (4 * header.doff.toNat)

end TCPHeader

namespace TCPSegment

/-- Parse a segment: the checksum first, then the header, whose result is not looked at. -/
def parse (seg : TCPSegment) (buffer : Buffer) (datagramLayerChecksum : UInt32) :
    Except StdException (ParseResult × TCPSegment) := do
  let check := ({ sum := datagramLayerChecksum } : InternetChecksum).add buffer
  if check.value ≠ 0 then
    return (.badChecksum, seg)
  let ((_, header), p) ← TCPHeader.parse.run { buffer := buffer }
  return (p.error, { header := header, payload := p.buffer })

/-- The header with its checksum, and the payload. -/
def serialize (seg : TCPSegment) (datagramLayerChecksum : UInt32) :
    Except StdException BufferList := do
  let headerOut := { seg.header with cksum := 0 }
  let check := ({ sum := datagramLayerChecksum } : InternetChecksum).add (← headerOut.serialize)
  let check := check.add seg.payload
  let headerOut := { headerOut with cksum := check.value }
  return [← headerOut.serialize, seg.payload]

end TCPSegment

namespace TCPHeader

/-! ## The fields -/

/-- The fields that the first twenty bytes of a header spell. -/
def ofBytes (bytes : List UInt8) : TCPHeader :=
  let flB := UInt8.ofNat (BigEndian.field bytes 13 1)
  { sport := UInt16.ofNat (BigEndian.field bytes 0 2)
    dport := UInt16.ofNat (BigEndian.field bytes 2 2)
    seqno := ⟨UInt32.ofNat (BigEndian.field bytes 4 4)⟩
    ackno := ⟨UInt32.ofNat (BigEndian.field bytes 8 4)⟩
    doff := UInt8.ofNat (BigEndian.field bytes 12 1) >>> 4
    urg := flB &&& 0b00100000 != 0
    ack := flB &&& 0b00010000 != 0
    psh := flB &&& 0b00001000 != 0
    rst := flB &&& 0b00000100 != 0
    syn := flB &&& 0b00000010 != 0
    fin := flB &&& 0b00000001 != 0
    win := UInt16.ofNat (BigEndian.field bytes 14 2)
    cksum := UInt16.ofNat (BigEndian.field bytes 16 2)
    uptr := UInt16.ofNat (BigEndian.field bytes 18 2) }

theorem reads_parseFields : Reads 20 ofBytes parseFields := by
  refine (NetParser.reads_u16.bind fun sport => NetParser.reads_u16.bind fun dport =>
    NetParser.reads_u32.bind fun seqno => NetParser.reads_u32.bind fun ackno =>
    NetParser.reads_u8.bind fun doff => NetParser.reads_u8.bind fun flB =>
    NetParser.reads_u16.bind fun win => NetParser.reads_u16.bind fun cksum =>
    NetParser.reads_u16.map fun uptr => _).congr fun bytes hlen => ?_
  have hlast : (bytes.drop 18).take 2 = bytes.drop 18 :=
    List.take_of_length_le (by rw [List.length_drop]; omega)
  simp only [ofBytes, BigEndian.field, List.drop_drop, List.drop_zero, hlast, Nat.reduceAdd]

theorem flags_bits (header : TCPHeader) :
    (header.flags &&& 0b00100000 != 0) = header.urg ∧
    (header.flags &&& 0b00010000 != 0) = header.ack ∧
    (header.flags &&& 0b00001000 != 0) = header.psh ∧
    (header.flags &&& 0b00000100 != 0) = header.rst ∧
    (header.flags &&& 0b00000010 != 0) = header.syn ∧
    (header.flags &&& 0b00000001 != 0) = header.fin := by
  unfold flags
  generalize header.urg = urg, header.ack = ack, header.psh = psh, header.rst = rst,
    header.syn = syn, header.fin = fin
  clear header
  decide +revert

theorem doff_shift {doff : UInt8} (h : doff ≤ 15) : (doff <<< 4) >>> 4 = doff := by
  have hle : doff.toNat ≤ 15 := UInt8.le_iff_toNat_le.mp h
  rw [← UInt8.toNat_inj, UInt8.toNat_shiftRight, UInt8.toNat_shiftLeft]
  change (doff.toNat <<< 4 % 256) >>> 4 = _
  rw [Nat.shiftLeft_eq, Nat.shiftRight_eq_div_pow]
  omega

theorem parseFields_append {header : TCPHeader} (h : header.doff ≤ 15) (rest : List UInt8) :
    parseFields.run { buffer := header.serializeFront ++ (NetUnparser.u16 header.cksum ++
      (NetUnparser.u16 header.uptr ++ rest)) } = .ok (header, { buffer := rest }) := by
  obtain ⟨hurg, hack, hpsh, hrst, hsyn, hfin⟩ := header.flags_bits
  simp only [parseFields, serializeFront, List.append_assoc, StateT.run_bind, NetParser.u16_append,
    NetParser.u32_append, NetParser.u8_append, ok_bind, StateT.run_pure, hurg, hack, hpsh, hrst,
    hsyn, hfin, doff_shift h, pure_eq_ok]

/-! ## Reading a header -/

/-- A header is reported through a parser that is in error, which stays in error. -/
theorem parse_of_short {p : NetParser} (h : p.error ≠ .noError ∨ p.buffer.length < length) :
    ∃ r q, parse.run p = .ok (r, q) ∧ q.error ≠ .noError ∧ r.1 ≠ .noError := by
  obtain ⟨header, q, hfields, hq⟩ := reads_parseFields.of_short p h
  have hrun : parseFields.run p = .ok (header, q) := hfields
  by_cases hdoff : header.doff < 5
  · refine ⟨(.headerTooShort, header), q, ?_, hq, by simp⟩
    simp [parse, hrun, hdoff]
  · obtain ⟨u, q', hskip, hq'⟩ :=
      (NetParser.reads_removePrefix (header.doff.toNat * 4 - length)).of_short q (Or.inl hq)
    have hskip : (NetParser.removePrefix (header.doff.toNat * 4 - length)).run q = .ok (u, q') :=
      hskip
    refine ⟨(q'.error, header), q', ?_, hq', hq'⟩
    simp [parse, hrun, hdoff, hskip, hq']

theorem parseFields_of_le {bytes : List UInt8} (h : length ≤ bytes.length) :
    parseFields.run { buffer := bytes } =
      .ok (ofBytes (bytes.take length), { buffer := bytes.drop length }) :=
  reads_parseFields.of_le { buffer := bytes } rfl h

/-- A data offset below five is reported by the result alone: the parser goes on without an
error. -/
theorem parse_of_doff_lt {bytes : List UInt8} (h : length ≤ bytes.length)
    (hdoff : (ofBytes (bytes.take length)).doff < 5) :
    parse.run { buffer := bytes } =
      .ok ((.headerTooShort, ofBytes (bytes.take length)), { buffer := bytes.drop length }) := by
  simp [parse, parseFields_of_le h, hdoff]

theorem parse_of_doff_ge {bytes : List UInt8} (h : length ≤ bytes.length)
    (hdoff : ¬(ofBytes (bytes.take length)).doff < 5)
    (hle : (ofBytes (bytes.take length)).doff.toNat * 4 ≤ bytes.length) :
    parse.run { buffer := bytes } =
      .ok ((.noError, ofBytes (bytes.take length)),
        { buffer := bytes.drop ((ofBytes (bytes.take length)).doff.toNat * 4) }) := by
  have h5 : length ≤ (ofBytes (bytes.take length)).doff.toNat * 4 := by
    have hnat : 5 ≤ (ofBytes (bytes.take length)).doff.toNat := by
      simpa [UInt8.lt_iff_toNat_lt] using hdoff
    unfold length at hnat ⊢
    omega
  generalize hheader : ofBytes (bytes.take length) = header at *
  simp [parse, parseFields_of_le h, hheader, hdoff, NetParser.removePrefix_drop h5 hle]

theorem parse_of_doff_gt {bytes : List UInt8} (h : length ≤ bytes.length)
    (hdoff : ¬(ofBytes (bytes.take length)).doff < 5)
    (hlt : bytes.length < (ofBytes (bytes.take length)).doff.toNat * 4) :
    ∃ r q, parse.run { buffer := bytes } = .ok (r, q) ∧ q.error ≠ .noError ∧ r.1 ≠ .noError := by
  generalize hheader : ofBytes (bytes.take length) = header at *
  obtain ⟨u, q, hskip, hq⟩ :=
    (NetParser.reads_removePrefix (header.doff.toNat * 4 - length)).of_short
      { buffer := bytes.drop length } (Or.inr (by simp only [List.length_drop]; omega))
  have hskip : (NetParser.removePrefix (header.doff.toNat * 4 - length)).run
      { buffer := bytes.drop length } = .ok (u, q) := hskip
  refine ⟨(q.error, header), q, ?_, hq, hq⟩
  simp [parse, parseFields_of_le h, hheader, hdoff, hskip, hq]

/-! ## Writing a header -/

/-- What follows the checksum in a header on the wire: the options are zero bytes. -/
def serializeBack (header : TCPHeader) : List UInt8 :=
  NetUnparser.u16 header.uptr ++ List.replicate (4 * header.doff.toNat - length) 0

@[simp] theorem length_serializeFront (header : TCPHeader) :
    header.serializeFront.length = 16 := rfl

theorem length_serializeBack {header : TCPHeader} (h5 : 5 ≤ header.doff) :
    header.serializeBack.length = 4 * header.doff.toNat - 18 := by
  have hle : 5 ≤ header.doff.toNat := UInt8.le_iff_toNat_le.mp h5
  simp only [serializeBack, List.length_append, NetUnparser.length_u16, List.length_replicate,
    length]
  omega

theorem serialize_eq {header : TCPHeader} (h5 : 5 ≤ header.doff) :
    header.serialize = .ok (header.serializeFront ++ (NetUnparser.u16 header.cksum ++
      header.serializeBack)) := by
  have hle : 5 ≤ header.doff.toNat := UInt8.le_iff_toNat_le.mp h5
  have hlt : ¬header.doff < 5 := UInt8.not_lt.mpr h5
  rw [serialize, if_neg hlt, Buffer.resize_of_le]
  · simp [serializeBack, length]
  · simp only [List.length_append, length_serializeFront, NetUnparser.length_u16]
    omega

/-- **A header is read back** in front of any rest. -/
theorem parse_append (header : TCPHeader) (h5 : 5 ≤ header.doff) (h15 : header.doff ≤ 15)
    (rest : List UInt8) :
    parse.run { buffer := header.serializeFront ++ (NetUnparser.u16 header.cksum ++
      (header.serializeBack ++ rest)) } = .ok ((.noError, header), { buffer := rest }) := by
  have hlt : ¬header.doff < 5 := UInt8.not_lt.mpr h5
  have hskip : (NetParser.removePrefix (header.doff.toNat * 4 - length)).run
      { buffer := List.replicate (4 * header.doff.toNat - length) 0 ++ rest } =
        .ok ((), { buffer := rest }) :=
    (NetParser.reads_removePrefix _).append (by simp [Nat.mul_comm]) rest
  simp [parse, serializeBack, parseFields_append h15, hlt, hskip]

end TCPHeader

namespace TCPSegment

variable {seg : TCPSegment} {bytes : List UInt8} {sum : UInt32}

/-! ## Well-formed segments -/

/-- The data offset field of a byte string: the high half of its thirteenth byte. -/
def dataOffset (bytes : List UInt8) : ℕ :=
  (bytes.getD 12 0).toNat / 16

/-- The checksum started from `sum` verifies, and the string holds a whole header. -/
structure WellFormed (sum : ℕ) (bytes : List UInt8) : Prop where
  verifies : Verifies sum bytes
  length_le : TCPHeader.length ≤ bytes.length
  five_le : 5 ≤ dataOffset bytes
  header_le : 4 * dataOffset bytes ≤ bytes.length

theorem ofBytes_doff_toNat (bytes : List UInt8) :
    (TCPHeader.ofBytes (bytes.take TCPHeader.length)).doff.toNat = dataOffset bytes := by
  have hfield : BigEndian.field (bytes.take TCPHeader.length) 12 1 = (bytes.getD 12 0).toNat := by
    rw [BigEndian.field_take (by decide), BigEndian.field_one]
  change (UInt8.ofNat (BigEndian.field (bytes.take TCPHeader.length) 12 1) >>> 4).toNat = _
  rw [hfield, UInt8.ofNat_toNat, UInt8.toNat_shiftRight]
  exact Nat.shiftRight_eq_div_pow _ 4

/-! ## Parsing -/

theorem parse_of_bad (h : (({ sum := sum } : InternetChecksum).add bytes).value ≠ 0) :
    seg.parse bytes sum = .ok (.badChecksum, seg) := by
  simp [parse, h]

/-- With a checksum that verifies, the parser returns what the parser state says. -/
theorem parse_of_run {r : ParseResult × TCPHeader} {q : NetParser}
    (h : (({ sum := sum } : InternetChecksum).add bytes).value = 0)
    (hrun : TCPHeader.parse.run { buffer := bytes } = .ok (r, q)) :
    seg.parse bytes sum = .ok (q.error, { header := r.2, payload := q.buffer }) := by
  simp [parse, h, hrun]

/-- The parser throws nothing. -/
theorem exists_parse (seg : TCPSegment) (bytes : List UInt8) (sum : UInt32) :
    ∃ r seg', seg.parse bytes sum = .ok (r, seg') := by
  by_cases hv : (({ sum := sum } : InternetChecksum).add bytes).value = 0
  case neg => exact ⟨_, _, parse_of_bad hv⟩
  suffices hrun : ∃ r q, TCPHeader.parse.run { buffer := bytes } = .ok (r, q) by
    obtain ⟨r, q, hrun⟩ := hrun
    exact ⟨_, _, parse_of_run hv hrun⟩
  -- the cases of the header parser
  by_cases hshort : bytes.length < TCPHeader.length
  · obtain ⟨r, q, hrun, -⟩ := TCPHeader.parse_of_short (p := { buffer := bytes }) (Or.inr hshort)
    exact ⟨r, q, hrun⟩
  have hle : TCPHeader.length ≤ bytes.length := Nat.le_of_not_lt hshort
  by_cases h5 : (TCPHeader.ofBytes (bytes.take TCPHeader.length)).doff < 5
  · exact ⟨_, _, TCPHeader.parse_of_doff_lt hle h5⟩
  by_cases hfit : (TCPHeader.ofBytes (bytes.take TCPHeader.length)).doff.toNat * 4 ≤ bytes.length
  · exact ⟨_, _, TCPHeader.parse_of_doff_ge hle h5 hfit⟩
  · obtain ⟨r, q, hrun, -⟩ := TCPHeader.parse_of_doff_gt hle h5 (Nat.lt_of_not_le hfit)
    exact ⟨r, q, hrun⟩

/-- **What the parser accepts**: the checksum verifies, and the header is complete or its data
offset is below five. -/
theorem parse_spec (seg : TCPSegment) (hlen : bytes.length ≤ 65535) (hsum : sum.toNat < 2 ^ 20) :
    ∃ r seg', seg.parse bytes sum = .ok (r, seg') ∧
      (r = .noError ↔ Verifies sum.toNat bytes ∧ TCPHeader.length ≤ bytes.length ∧
        (5 ≤ dataOffset bytes → 4 * dataOffset bytes ≤ bytes.length)) ∧
      (r = .noError → seg'.payload = bytes.drop (4 * max 5 (dataOffset bytes))) := by
  have hvalue := value_add_eq_zero_iff hsum hlen
  by_cases hv : Verifies sum.toNat bytes
  case neg =>
    refine ⟨_, _, parse_of_bad (fun h => hv (hvalue.mp h)), ?_, ?_⟩ <;> simp [hv]
  have hzero := hvalue.mpr hv
  -- a string that is too short for the fields leaves the parser in error
  by_cases hshort : bytes.length < TCPHeader.length
  · obtain ⟨r, q, hrun, hq, -⟩ :=
      TCPHeader.parse_of_short (p := { buffer := bytes }) (Or.inr hshort)
    refine ⟨_, _, parse_of_run hzero hrun, ?_, fun h => absurd h hq⟩
    simp [hq, Nat.not_le.mpr hshort]
  have hle : TCPHeader.length ≤ bytes.length := Nat.le_of_not_lt hshort
  have hdoff := ofBytes_doff_toNat bytes
  -- a data offset below five leaves no error, and the payload starts after the fields
  by_cases h5 : (TCPHeader.ofBytes (bytes.take TCPHeader.length)).doff < 5
  · have hlt : dataOffset bytes < 5 := by
      rw [← hdoff]
      exact UInt8.lt_iff_toNat_lt.mp h5
    refine ⟨_, _, parse_of_run hzero (TCPHeader.parse_of_doff_lt hle h5), ?_, fun _ => ?_⟩
    · simp only [true_iff]
      exact ⟨hv, hle, fun h => absurd h (by omega)⟩
    · rw [Nat.max_eq_left hlt.le]
      rfl
  have hge : 5 ≤ dataOffset bytes := by
    rw [← hdoff]
    exact UInt8.le_iff_toNat_le.mp (UInt8.not_lt.mp h5)
  -- options that are cut off leave one again
  by_cases hfit : dataOffset bytes * 4 ≤ bytes.length
  · refine ⟨_, _, parse_of_run hzero (TCPHeader.parse_of_doff_ge hle h5 (by rwa [hdoff])), ?_,
      fun _ => ?_⟩
    · simp only [true_iff]
      exact ⟨hv, hle, fun _ => by omega⟩
    · rw [Nat.max_eq_right hge, Nat.mul_comm, hdoff]
  · obtain ⟨r, q, hrun, hq, -⟩ := TCPHeader.parse_of_doff_gt hle h5 (by rw [hdoff]; omega)
    refine ⟨_, _, parse_of_run hzero hrun, ?_, fun h => absurd h hq⟩
    simp only [hq, false_iff]
    rintro ⟨-, -, h⟩
    have := h hge
    omega

/-- **The parser accepts exactly the well-formed segments**, and takes the bytes after the header as
the payload, if and only if the string is not one whose checksum verifies, of at least twenty bytes,
with a data offset below five. -/
theorem parse_exact_iff (seg : TCPSegment) (bytes : List UInt8) (sum : UInt32)
    (hlen : bytes.length ≤ 65535) (hsum : sum.toNat < 2 ^ 20) :
    (∃ r seg', seg.parse bytes sum = .ok (r, seg') ∧
      (r = .noError ↔ WellFormed sum.toNat bytes) ∧
      (r = .noError → seg'.payload = bytes.drop (4 * dataOffset bytes))) ↔
    ¬(Verifies sum.toNat bytes ∧ TCPHeader.length ≤ bytes.length ∧ dataOffset bytes < 5) := by
  obtain ⟨r, seg', hparse, hr, hpayload⟩ := parse_spec seg hlen hsum
  constructor
  · rintro ⟨r₁, seg₁, hparse₁, hr₁, -⟩ ⟨hv, hle, hlt⟩
    obtain ⟨rfl, rfl⟩ : r = r₁ ∧ seg' = seg₁ := by simpa [hparse] using hparse₁
    have hwf := hr₁.mp (hr.mpr ⟨hv, hle, fun h5 => absurd h5 (by omega)⟩)
    exact absurd hwf.five_le (by omega)
  · intro h
    refine ⟨r, seg', hparse, ?_, fun hok => ?_⟩
    · rw [hr]
      constructor
      · rintro ⟨hv, hle, hheader⟩
        have h5 : 5 ≤ dataOffset bytes := by
          by_contra hlt
          exact h ⟨hv, hle, by omega⟩
        exact ⟨hv, hle, h5, hheader h5⟩
      · intro hwf
        exact ⟨hwf.verifies, hwf.length_le, fun _ => hwf.header_le⟩
    · obtain ⟨hv, hle, -⟩ := hr.mp hok
      have h5 : 5 ≤ dataOffset bytes := by
        by_contra hlt
        exact h ⟨hv, hle, by omega⟩
      rw [hpayload hok, Nat.max_eq_right h5]

/-- Twenty bytes with a data offset of five whose checksum verifies are parsed. -/
theorem parse_exact_doff_five :
    ∃ r seg', ({} : TCPSegment).parse
        (List.replicate 12 0 ++ [0x50, 0, 0, 0, 0xaf, 0xff, 0, 0]) 0 = .ok (r, seg') ∧
      (r = .noError ↔
        WellFormed 0 (List.replicate 12 0 ++ [0x50, 0, 0, 0, 0xaf, 0xff, 0, 0])) ∧
      (r = .noError → seg'.payload = []) :=
  (parse_exact_iff {} (List.replicate 12 0 ++ [0x50, 0, 0, 0, 0xaf, 0xff, 0, 0]) 0 (by decide)
    (by decide)).mpr (by decide)

/-- Twenty bytes with a data offset of zero whose checksum verifies. -/
theorem parse_accepts_doff_zero :
    ({} : TCPSegment).parse (List.replicate 16 0 ++ [0xff, 0xff, 0, 0]) 0 =
        .ok (.noError, { header := { doff := 0, cksum := 0xffff }, payload := [] }) ∧
      ¬WellFormed 0 (List.replicate 16 0 ++ [0xff, 0xff, 0, 0]) :=
  ⟨by decide +kernel, fun h => absurd h.five_le (by decide)⟩

/-! ## Round trip -/

/-- The segment with the checksum field `cksum`, as it stands on the wire. -/
def wire (seg : TCPSegment) (cksum : UInt16) : List UInt8 :=
  seg.header.serializeFront ++ (NetUnparser.u16 cksum ++ (seg.header.serializeBack ++ seg.payload))

/-- The checksum of a segment: the value over the segment with a zero in its place. -/
def checksum (seg : TCPSegment) (sum : UInt32) : UInt16 :=
  (({ sum := sum } : InternetChecksum).add (seg.wire 0)).value

theorem length_wire (h5 : 5 ≤ seg.header.doff) (cksum : UInt16) :
    (seg.wire cksum).length = 4 * seg.header.doff.toNat + seg.payload.length := by
  have hle : 5 ≤ seg.header.doff.toNat := UInt8.le_iff_toNat_le.mp h5
  simp only [wire, List.length_append, TCPHeader.length_serializeFront, NetUnparser.length_u16,
    TCPHeader.length_serializeBack h5]
  omega

theorem serialize_eq (seg : TCPSegment) (h5 : 5 ≤ seg.header.doff) (sum : UInt32) :
    ∃ buffers, seg.serialize sum = .ok buffers ∧
      buffers.concatenate = seg.wire (seg.checksum sum) := by
  -- the checksum field is the only one that `serialize` changes
  let front := seg.header.serializeFront
  let back := seg.header.serializeBack
  have hheader (cksum : UInt16) : ({ seg.header with cksum := cksum } : TCPHeader).serialize =
      .ok (front ++ (NetUnparser.u16 cksum ++ back)) :=
    TCPHeader.serialize_eq h5
  have hcheck : ((({ sum := sum } : InternetChecksum).add
      (front ++ (NetUnparser.u16 0 ++ back))).add seg.payload).value = seg.checksum sum := by
    rw [← add_append]
    simp only [checksum, wire, List.append_assoc, front, back]
  refine ⟨[front ++ (NetUnparser.u16 (seg.checksum sum) ++ back), seg.payload], ?_, ?_⟩
  · simp only [serialize, hheader, ok_bind, pure_eq_ok, hcheck]
  · simp [BufferList.concatenate, wire, front, back]

/-- The checksum that `serialize` writes verifies. -/
theorem value_wire (h5 : 5 ≤ seg.header.doff)
    (hlen : 4 * seg.header.doff.toNat + seg.payload.length ≤ 65535) (hsum : sum.toNat < 2 ^ 20) :
    (({ sum := sum } : InternetChecksum).add (seg.wire (seg.checksum sum))).value = 0 := by
  have hwire (cksum : UInt16) : seg.wire cksum = seg.header.serializeFront ++
      (BigEndian.bytes 2 cksum.toNat ++ (seg.header.serializeBack ++ seg.payload)) := by
    rw [wire, NetUnparser.u16, NetUnparser.unparseInt_eq_bytes]
  have hlenWire (cksum : UInt16) : (seg.wire cksum).length ≤ 65535 := by
    rw [length_wire h5]
    exact hlen
  rw [value_add_eq_zero_iff hsum (hlenWire _), hwire]
  refine verifies_of_value ⟨8, rfl⟩ hsum ?_ ?_
  · exact (congrArg List.length (hwire 0)).symm.trans_le (hlenWire 0)
  · exact congrArg (fun bytes => (InternetChecksum.add _ bytes).value) (hwire 0)

/-- What stands on the wire is parsed. -/
theorem parse_wire (other : TCPSegment) (h5 : 5 ≤ seg.header.doff) (h15 : seg.header.doff ≤ 15)
    (hlen : 4 * seg.header.doff.toNat + seg.payload.length ≤ 65535) (hsum : sum.toNat < 2 ^ 20) :
    other.parse (seg.wire (seg.checksum sum)) sum = .ok (.noError,
      { seg with header := { seg.header with cksum := seg.checksum sum } }) :=
  parse_of_run (value_wire h5 hlen hsum)
    (TCPHeader.parse_append { seg.header with cksum := seg.checksum sum } h5 h15 seg.payload)

/-- **Round trip**: what `serialize` writes is parsed without an error, into the same payload and
the same header fields, with the checksum filled in. -/
theorem parse_serialize (seg other : TCPSegment) (sum : UInt32) (h5 : 5 ≤ seg.header.doff)
    (h15 : seg.header.doff ≤ 15)
    (hlen : 4 * seg.header.doff.toNat + seg.payload.length ≤ 65535) (hsum : sum.toNat < 2 ^ 20) :
    ∃ buffers cksum, seg.serialize sum = .ok buffers ∧
      other.parse buffers.concatenate sum =
        .ok (.noError, { seg with header := { seg.header with cksum := cksum } }) := by
  obtain ⟨buffers, hserialize, hconcat⟩ := serialize_eq seg h5 sum
  refine ⟨buffers, seg.checksum sum, hserialize, ?_⟩
  rw [hconcat]
  exact parse_wire other h5 h15 hlen hsum

theorem parse_serialize_three :
    ∃ buffers cksum, ({ payload := [1, 2, 3] } : TCPSegment).serialize 29 = .ok buffers ∧
      ({} : TCPSegment).parse buffers.concatenate 29 =
        .ok (.noError, { header := { cksum := cksum }, payload := [1, 2, 3] }) :=
  parse_serialize { payload := [1, 2, 3] } {} 29 (by decide) (by decide) (by decide) (by decide)

end TCPSegment

end Sponge
