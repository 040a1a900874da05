/-
# DNS messages

`src/include/dns.h` and `src/src/dns.cpp`.  A `std::string` is the list of its octets.
The loop of `_decode_name` follows compression pointers, which must point backwards and
are at most sixteen; the name it builds has at most 255 octets.  So it ends within
`decodeFuel` turns (`decodeName_within`).
-/

import TcpIpStack.Wire.Addresses

namespace TcpIpStack

/-- `DnsQuestion` -/
structure DnsQuestion where
  name : Bytes
  type : UInt16 := 1
  klass : UInt16 := 1
deriving DecidableEq

/-- `DnsRecord`; `target` is decoded for a CNAME record only. -/
structure DnsRecord where
  name : Bytes
  type : UInt16
  klass : UInt16
  ttl : UInt32
  rdata : Bytes
  target : Bytes := []
deriving DecidableEq

/-- A DNS message. -/
structure Dns where
  id : UInt16 := 0
  flags : UInt16 := 0
  questions : List DnsQuestion := []
  answers : List DnsRecord := []
  authority : List DnsRecord := []
  additional : List DnsRecord := []
deriving DecidableEq

namespace Dns

def typeA : UInt16 := 1
def typeCname : UInt16 := 5
def classIn : UInt16 := 1
def rcodeNoError : UInt16 := 0
def rcodeNameError : UInt16 := 3

def headerSize : ℕ := 12
def maxNameLength : ℕ := 255
def maxLabelLength : ℕ := 63
def maxCompressionJumps : ℕ := 16

/-- `'.'` -/
def dot : UInt8 := 46

def isResponse (m : Dns) : Bool := m.flags &&& 0x8000 != 0
def isTruncated (m : Dns) : Bool := m.flags &&& 0x0200 != 0
def responseCode (m : Dns) : UInt16 := m.flags &&& 0x000f

/-- `set_response` -/
def setResponse (m : Dns) (response : Bool) : Dns :=
  { m with flags := if response then m.flags ||| 0x8000 else m.flags &&& 0x7fff }

/-- `set_recursion_desired` -/
def setRecursionDesired (m : Dns) (desired : Bool) : Dns :=
  { m with flags := if desired then m.flags ||| 0x0100 else m.flags &&& 0xfeff }

end Dns

/-- `DnsRecord::address` -/
def DnsRecord.address (record : DnsRecord) : IPv4Address :=
  if record.type = Dns.typeA ∧ record.rdata.length = 4 then
    ⟨UInt32.ofNat (BigEndian.value record.rdata)⟩
  else {}

namespace Dns

/-! ### Names -/

/-- A label behind the name so far, with a dot between them. -/
def appendLabel (name label : Bytes) : Bytes := if name = [] then label else name ++ dot :: label

/-- What stands at a position inside a name. -/
inductive NamePart
  | root
  | pointer (target : ℕ)
  | label (octets : Bytes)

/-- The checks of a turn of `_decode_name`, after `jumps` pointers and with this name so
far. -/
def namePart (data : Bytes) (position jumps : ℕ) (name : Bytes) : Except String NamePart :=
  match data[position]? with
  | none => .error "DNS name runs past the end of the message"
  | some length =>
    if length &&& 0xc0 = 0xc0 then
      match data[position + 1]? with
      | none => .error "DNS compression pointer truncated"
      | some low =>
        let target := (length.toNat * 256 + low.toNat) % 0x4000
        if position ≤ target then .error "DNS compression pointer does not point backwards"
        else if maxCompressionJumps < jumps + 1 then
          .error "DNS name follows too many compression pointers"
        else .ok (.pointer target)
    else if length &&& 0xc0 ≠ 0 then .error "DNS label uses a reserved length prefix"
    else if length = 0 then .ok .root
    else if maxLabelLength < length.toNat then .error "DNS label longer than 63 bytes"
    else if data.length < position + 1 + length.toNat then
      .error "DNS label runs past the end of the message"
    else if maxNameLength < name.length + length.toNat + 1 then
      .error "DNS name longer than 255 bytes"
    else .ok (.label ((data.drop (position + 1)).take length.toNat))

/-- The loop of `_decode_name`.  `resume` is where the caller goes on, once a pointer has
been followed. -/
def decodeLoop (data : Bytes) : ℕ → ℕ → ℕ → Option ℕ → Bytes → Except String (Bytes × ℕ)
  | 0, _, _, _, _ => .error "DNS name does not end"
  | fuel + 1, position, jumps, resume, name =>
    match namePart data position jumps name with
    | .error e => .error e
    | .ok .root => .ok (name, resume.getD (position + 1))
    | .ok (.pointer target) =>
      decodeLoop data fuel target (jumps + 1) (resume.or (some (position + 2))) name
    | .ok (.label label) =>
      decodeLoop data fuel (position + 1 + label.length) jumps resume (appendLabel name label)

/-- One turn for each octet of the longest name and for each jump. -/
def decodeFuel : ℕ := 273

/-- `_decode_name`: the name, and the offset behind it. -/
def decodeName (data : Bytes) (offset : ℕ) : Except String (Bytes × ℕ) :=
  decodeLoop data decodeFuel offset 0 none []

theorem length_appendLabel (name label : Bytes) : name.length + label.length ≤ (appendLabel name label).length ∧
      (appendLabel name label).length ≤ name.length + label.length + 1 := by
  unfold appendLabel
  split_ifs with h
  · subst h
    simp
  · simp only [List.length_append, List.length_cons]
    omega

/-- What stands at a position of a name: a pointer that is followed points backwards and is
not one too many, and a label that is taken leaves the name short enough. -/
theorem namePart_cases {data : Bytes} {position jumps : ℕ} {name : Bytes} {part : NamePart}
    (h : namePart data position jumps name = .ok part) : (part = .root ∧ data[position]? = some 0) ∨
      (∃ high low, part = .pointer ((high.toNat * 256 + low.toNat) % 0x4000) ∧
        data[position]? = some high ∧ high &&& 0xc0 = 0xc0 ∧ data[position + 1]? = some low ∧
        jumps + 1 ≤ 16) ∨
      ∃ length, part = .label ((data.drop (position + 1)).take length.toNat) ∧
        data[position]? = some length ∧ length &&& 0xc0 = 0 ∧ length ≠ 0 ∧ length.toNat ≤ 63 ∧
        position + 1 + length.toNat ≤ data.length ∧ name.length + length.toNat + 1 ≤ 255 := by
  unfold namePart at h
  split at h
  · cases h
  next length hlength =>
  by_cases hpointer : length &&& 0xc0 = 0xc0
  · rw [if_pos hpointer] at h
    split at h
    · cases h
    next low hlow =>
    dsimp only at h
    split_ifs at h with hback hmany
    cases h
    exact .inr (.inl ⟨length, low, rfl, hlength, hpointer, hlow, not_lt.1 hmany⟩)
  · rw [if_neg hpointer] at h
    split_ifs at h with hreserved hend hlong hpast hwide
    · cases h
      exact .inl ⟨rfl, hend ▸ hlength⟩
    · cases h
      exact .inr (.inr ⟨length, rfl, hlength, not_not.1 hreserved, hend, not_lt.1 hlong, not_lt.1 hpast,
        not_lt.1 hwide⟩)

/-- The turns that are left at most. -/
def turnsLeft (jumps : ℕ) (name : Bytes) : ℕ := (256 - name.length) + (17 - jumps)

theorem namePart_ne (data : Bytes) (position jumps : ℕ) (name : Bytes) :
    namePart data position jumps name ≠ .error "DNS name does not end" := by
  unfold namePart
  rcases data[position]? with _ | length
  · simp
  · rcases data[position + 1]? with _ | low <;> dsimp only <;> split_ifs <;> simp

/-- What decoding a name ends with: an error of its own, or a name that is not too long and
an offset behind the start of the name and inside the message. -/
def DecodesWithin (data : Bytes) (offset : ℕ) : Except String (Bytes × ℕ) → Prop
  | .error e => e ≠ "DNS name does not end"
  | .ok (name, next) => name.length ≤ 255 ∧ offset < next ∧ next ≤ data.length

/-- Where the caller goes on, as far as it is known. -/
def ResumesWithin (data : Bytes) (offset position : ℕ) : Option ℕ → Prop
  | none => offset ≤ position
  | some next => offset < next ∧ next ≤ data.length

theorem decodeLoop_within (data : Bytes) {offset fuel position jumps : ℕ} {resume : Option ℕ}
    {name : Bytes} (hjumps : jumps ≤ 16) (hname : name.length ≤ 255)
    (hfuel : turnsLeft jumps name ≤ fuel) (hresume : ResumesWithin data offset position resume) :
    DecodesWithin data offset (decodeLoop data fuel position jumps resume name) := by
  unfold turnsLeft at hfuel
  induction fuel generalizing position jumps resume name with
  | zero => omega
  | succ fuel ih =>
    rw [decodeLoop]
    cases hpart : namePart data position jumps name with
    | error e =>
      rintro rfl
      exact namePart_ne data position jumps name hpart
    | ok part =>
      rcases namePart_cases hpart with ⟨rfl, hroot⟩ | ⟨high, low, rfl, -, -, hlow, hmany⟩ |
        ⟨length, rfl, -, -, hne, -, hin, hwide⟩
      · obtain ⟨hinside, -⟩ := List.getElem?_eq_some_iff.1 hroot
        cases resume with
        | none => exact ⟨hname, Nat.lt_succ_of_le hresume, hinside⟩
        | some next => exact ⟨hname, hresume⟩
      · obtain ⟨hinside, -⟩ := List.getElem?_eq_some_iff.1 hlow
        refine ih hmany hname (by omega) ?_
        cases resume with
        | none => exact ⟨Nat.lt_add_right 1 (Nat.lt_succ_of_le hresume), hinside⟩
        | some next => exact hresume
      · have hpos : length.toNat ≠ 0 := fun hzero => hne (UInt8.toNat_inj.1 hzero)
        have htake : ((data.drop (position + 1)).take length.toNat).length = length.toNat := by
          rw [List.length_take, List.length_drop]
          omega
        obtain ⟨hlower, hupper⟩ := length_appendLabel name ((data.drop (position + 1)).take length.toNat)
        refine ih hjumps (by omega) (by omega) ?_
        cases resume with
        | none => exact Nat.le_add_right_of_le (Nat.le_add_right_of_le hresume)
        | some next => exact hresume

/-- **Decoding a name ends** on every message, whatever its pointers are: within `decodeFuel`
turns, with an error or with a name that is short enough, and never outside the message. -/
theorem decodeName_within (data : Bytes) (offset : ℕ) : DecodesWithin data offset (decodeName data offset) :=
  decodeLoop_within data (Nat.zero_le _) (Nat.zero_le _) le_rfl le_rfl

/-- The loop of `_encode_name` over what is left of the name, with fuel for each octet. -/
def encodeLabels : ℕ → Bytes → Except String Bytes
  | _, [] => .ok []
  | 0, _ => .error "DNS name does not end"
  | fuel + 1, name =>
    let label := name.takeWhile (· ≠ dot)
    if label = [] then .error "DNS name has an empty label"
    else if maxLabelLength < label.length then .error "DNS label longer than 63 bytes"
    else match name.drop label.length with
      | [] => .ok (UInt8.ofNat label.length :: label)
      | _ :: rest => do
        let encoded ← encodeLabels fuel rest
        return UInt8.ofNat label.length :: (label ++ encoded)

/-- `_encode_name` -/
def encodeName (name : Bytes) : Except String Bytes := do
  let encoded ← encodeLabels name.length name
  if maxNameLength < (encoded ++ [0]).length then throw "DNS name longer than 255 bytes"
  return encoded ++ [0]

/-! ### Messages -/

/-- The questions, and the offset behind them. -/
def readQuestions (data : Bytes) : ℕ → ℕ → Except String (List DnsQuestion × ℕ)
  | 0, offset => .ok ([], offset)
  | count + 1, offset => do
    let (name, offset) ← decodeName data offset
    if data.length < offset + 4 then throw "DNS question truncated"
    let type ← sliceInt16 data offset
    let klass ← sliceInt16 data (offset + 2)
    let (rest, offset) ← readQuestions data count (offset + 4)
    return (⟨name, type, klass⟩ :: rest, offset)

/-- One record, and the offset behind it.  A CNAME's target is decoded against the whole
message. -/
def readRecord (data : Bytes) (offset : ℕ) : Except String (DnsRecord × ℕ) := do
  let (name, offset) ← decodeName data offset
  if data.length < offset + 10 then throw "DNS record header truncated"
  let type ← sliceInt16 data offset
  let klass ← sliceInt16 data (offset + 2)
  let ttl ← sliceInt32 data (offset + 4)
  let rdlength ← sliceInt16 data (offset + 8)
  let offset := offset + 10
  if data.length < offset + rdlength.toNat then
    throw "DNS record data runs past the end of the message"
  let rdata ← slice data offset rdlength.toNat
  let target ← if type = typeCname then (decodeName data offset).map Prod.fst else .ok []
  return (⟨name, type, klass, ttl, rdata, target⟩, offset + rdlength.toNat)

/-- `read_records` -/
def readRecords (data : Bytes) : ℕ → ℕ → Except String (List DnsRecord × ℕ)
  | 0, offset => .ok ([], offset)
  | count + 1, offset => do
    let (record, offset) ← readRecord data offset
    let (rest, offset) ← readRecords data count offset
    return (record :: rest, offset)

/-- `from_bytes` -/
def fromBytes (data : Bytes) : Except String Dns := do
  if data.length < headerSize then throw "DNS message shorter than its header"
  let id ← sliceInt16 data 0
  let flags ← sliceInt16 data 2
  let questionCount ← sliceInt16 data 4
  let answerCount ← sliceInt16 data 6
  let authorityCount ← sliceInt16 data 8
  let additionalCount ← sliceInt16 data 10
  let (questions, offset) ← readQuestions data questionCount.toNat headerSize
  let (answers, offset) ← readRecords data answerCount.toNat offset
  let (authority, offset) ← readRecords data authorityCount.toNat offset
  let (additional, _) ← readRecords data additionalCount.toNat offset
  return ⟨id, flags, questions, answers, authority, additional⟩

/-- What `to_bytes` writes for a question. -/
def questionToBytes (question : DnsQuestion) : Except String Bytes := do
  let name ← encodeName question.name
  return name ++ (intToBytes16 question.type ++ intToBytes16 question.klass)

/-- What `to_bytes` writes for a record. -/
def recordToBytes (record : DnsRecord) : Except String Bytes := do
  let name ← encodeName record.name
  return name ++ (intToBytes16 record.type ++ (intToBytes16 record.klass ++
    (intToBytes32 record.ttl ++ (intToBytes16 (UInt16.ofNat record.rdata.length) ++ record.rdata))))

/-- `to_bytes`; only questions and answers are written. -/
def toBytes (m : Dns) : Except String Bytes := do
  let questions ← m.questions.mapM questionToBytes
  let answers ← m.answers.mapM recordToBytes
  return intToBytes16 m.id ++ (intToBytes16 m.flags ++
    (intToBytes16 (UInt16.ofNat m.questions.length) ++
      (intToBytes16 (UInt16.ofNat m.answers.length) ++ (intToBytes16 0 ++ (intToBytes16 0 ++
        (questions.flatten ++ answers.flatten))))))

end Dns

end TcpIpStack
