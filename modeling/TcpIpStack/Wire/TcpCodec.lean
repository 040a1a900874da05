/-
# TCP segments on the wire

`Tcp::to_bytes`, `_options_to_bytes` and `_parse` of `src/src/tcp.cpp`.  The
options are a sequence of kind, length and value between the fixed header and
the payload; the parser takes the five it understands, skips the others by their
length, and stops at anything malformed.

A segment whose options fit the 40 octets that the header has for them is read
back as it was written (`Tcp.fromBytes_toBytes`).
-/

import TcpIpStack.Wire.Bytes
import TcpIpStack.Wire.Tcp

namespace TcpIpStack

/-- The edges of a block, as the SACK option carries them. -/
def SackBlock.toBytes (block : SackBlock) : Bytes := intToBytes32 block.start ++ intToBytes32 block.stop

namespace Tcp

/-! ### Writing -/

/-- The MSS option, if it is set. -/
def mssToBytes (t : Tcp) : Bytes :=
  match t.mssOption with
  | some mss => 2 :: 4 :: intToBytes16 mss
  | none => []

/-- The window scale option, if it is set. -/
def windowScaleToBytes (t : Tcp) : Bytes :=
  match t.windowScaleOption with
  | some shift => [3, 3, shift]
  | none => []

/-- The SACK-permitted option, if it is set. -/
def sackPermittedToBytes (t : Tcp) : Bytes := if t.sackPermittedOption then [4, 2] else []

/-- The SACK blocks, if there are any.  Two no-operations align the edges. -/
def sackBlocksToBytes (t : Tcp) : Bytes :=
  if t.sackBlocks = [] then []
  else 1 :: 1 :: 5 :: UInt8.ofNat (2 + t.sackBlocks.length * 8) ::
    t.sackBlocks.flatMap SackBlock.toBytes

/-- The timestamps, if they are set. -/
def timestampToBytes (t : Tcp) : Bytes :=
  match t.timestampOption with
  | some (value, echo) => 1 :: 1 :: 8 :: 10 :: (intToBytes32 value ++ intToBytes32 echo)
  | none => []

/-- The options that are set, before padding. -/
def unpaddedOptions (t : Tcp) : Bytes :=
  t.mssToBytes ++ (t.windowScaleToBytes ++ (t.sackPermittedToBytes ++ (t.sackBlocksToBytes ++
    t.timestampToBytes)))

/-- `_options_to_bytes`: no-operations fill the last word. -/
def optionsToBytes (t : Tcp) : Bytes :=
  t.unpaddedOptions ++ List.replicate ((4 - t.unpaddedOptions.length % 4) % 4) 1

/-- The eight flags as one byte. -/
def flagsToByte (t : Tcp) : UInt8 :=
  (if t.cwr then 0x80 else 0) ||| (if t.ece then 0x40 else 0) ||| (if t.urg then 0x20 else 0) |||
    (if t.ack then 0x10 else 0) ||| (if t.psh then 0x08 else 0) ||| (if t.rst then 0x04 else 0) |||
    (if t.syn then 0x02 else 0) ||| (if t.fin then 0x01 else 0)

/-- The data offset that `to_bytes` stores: the header with its options, in words. -/
def wireDataOffset (t : Tcp) : UInt8 := UInt8.ofNat (5 + t.optionsToBytes.length / 4)

/-- `to_bytes`. -/
def toBytes (t : Tcp) : Bytes :=
  intToBytes16 t.srcPort ++ (intToBytes16 t.destPort ++ (intToBytes32 t.sequenceNumber ++
    (intToBytes32 t.acknowledgementNumber ++ (t.wireDataOffset <<< 4) :: t.flagsToByte ::
      (intToBytes16 t.window ++ (intToBytes16 t.checksum ++ (intToBytes16 t.urgentPtr ++
        (t.optionsToBytes ++ t.payload)))))))

/-! ### Reading -/

/-- The blocks of a SACK option. -/
def readBlocks : Bytes → List SackBlock
  | a :: b :: c :: d :: e :: f :: g :: h :: rest =>
    ⟨UInt32.ofNat (BigEndian.value [a, b, c, d]), UInt32.ofNat (BigEndian.value [e, f, g, h])⟩ ::
      readBlocks rest
  | _ => []

/-- One option, by its kind; the value is what its length covers. -/
def takeOption (kind : UInt8) (value : Bytes) (t : Tcp) : Tcp :=
  if kind = 2 ∧ value.length = 2 then
    { t with mssOption := some (UInt16.ofNat (BigEndian.value value)) }
  else if kind = 4 ∧ value.length = 0 then { t with sackPermittedOption := true }
  else if kind = 5 ∧ 8 ≤ value.length ∧ value.length % 8 = 0 then
    { t with sackBlocks := t.sackBlocks ++ readBlocks value }
  else if kind = 8 ∧ value.length = 8 then
    { t with timestampOption := some (UInt32.ofNat (BigEndian.value (value.take 4)),
        UInt32.ofNat (BigEndian.value (value.drop 4))) }
  else if kind = 3 ∧ value.length = 1 then
    -- a shift above the cap counts as the cap
    { t with windowScaleOption := some (min (UInt8.ofNat (BigEndian.value value)) maxWindowScale) }
  else t

/-- The loop over the options.  Each turn moves past at least one octet, so
`fuel` at their number is enough. -/
def parseOptions : ℕ → Bytes → Tcp → Tcp
  | 0, _, t => t
  | _ + 1, [], t => t
  | fuel + 1, kind :: body, t =>
    if kind = 0 then t
    else if kind = 1 then parseOptions fuel body t
    else match body with
      | [] => t
      | length :: value =>
        if length < 2 ∨ value.length + 2 < length.toNat then t
        else parseOptions fuel (value.drop (length.toNat - 2))
          (t.takeOption kind (value.take (length.toNat - 2)))

/-- `from_bytes`. -/
def fromBytes (data : Bytes) : Except String Tcp := do
  if data.length < 20 then throw "Invalid TCP header length"
  let srcPort ← sliceInt16 data 0
  let destPort ← sliceInt16 data 2
  let sequenceNumber ← sliceInt32 data 4
  let acknowledgementNumber ← sliceInt32 data 8
  let dataOffset := (← sliceInt8 data 12) >>> 4
  let headerLength := dataOffset.toNat * 4
  if dataOffset < 5 ∨ data.length < headerLength then
    throw "Invalid TCP data offset\\header length"
  let flags ← sliceInt8 data 13
  let window ← sliceInt16 data 14
  let checksum ← sliceInt16 data 16
  let urgentPtr ← sliceInt16 data 18
  let header := ofFlags srcPort destPort sequenceNumber acknowledgementNumber dataOffset flags window
    checksum urgentPtr
  let options := (data.take headerLength).drop 20
  return { header.parseOptions options.length options with
    nextLayer := if headerLength < data.length then some (data.drop headerLength) else none }

/-! ### Reading back the options -/

/-- More fuel than octets changes nothing. -/
theorem parseOptions_fuel {fuel : ℕ} (options : Bytes) (t : Tcp) (h : options.length ≤ fuel) :
    t.parseOptions fuel options = t.parseOptions options.length options := by
  induction fuel using Nat.strong_induction_on generalizing options t with
  | _ fuel ih =>
    match fuel, options with
    | 0, [] => rfl
    | fuel + 1, [] => rfl
    | fuel + 1, kind :: body =>
      have hbody : body.length ≤ fuel := Nat.le_of_succ_le_succ h
      have hstep (rest : Bytes) (t : Tcp) (hrest : rest.length ≤ body.length) :
          t.parseOptions fuel rest = t.parseOptions body.length rest := by
        rw [ih fuel (Nat.lt_succ_self _) rest t (by omega)]
        rcases Nat.lt_or_ge body.length (fuel + 1) with hlt | hge
        · rw [ih body.length hlt rest t hrest]
        · omega
      simp only [List.length_cons, parseOptions]
      split_ifs with hzero hone
      · rfl
      · exact hstep body t le_rfl
      · cases body with
        | nil => rfl
        | cons length value =>
          dsimp only
          split_ifs
          · rfl
          · refine hstep _ _ ?_
            rw [List.length_drop, List.length_cons]
            omega

/-- All of the options. -/
def readOptions (options : Bytes) (t : Tcp) : Tcp := t.parseOptions options.length options

@[simp] theorem readOptions_nop (options : Bytes) (t : Tcp) :
    t.readOptions (1 :: options) = t.readOptions options := rfl

theorem readOptions_padding (n : ℕ) (t : Tcp) : t.readOptions (List.replicate n 1) = t := by
  induction n with
  | zero => rfl
  | succ n ih => rw [List.replicate_succ, readOptions_nop, ih]

/-- An option with a length is taken, and reading goes on behind it. -/
theorem readOptions_option {kind length : UInt8} {value : Bytes} (rest : Bytes) (t : Tcp)
    (hkind : 1 < kind) (hlength : length.toNat = value.length + 2) :
    t.readOptions (kind :: length :: (value ++ rest)) = (t.takeOption kind value).readOptions rest := by
  have hzero : kind ≠ 0 := by
    rintro rfl
    exact absurd hkind (by decide)
  have hone : kind ≠ 1 := by
    rintro rfl
    exact absurd hkind (by decide)
  have htwo : ¬ (length < 2 ∨ (value ++ rest).length + 2 < length.toNat) := by
    rw [not_or, UInt8.lt_iff_toNat_lt, hlength, List.length_append]
    exact ⟨by simp, by omega⟩
  rw [readOptions, List.length_cons, parseOptions, if_neg hzero, if_neg hone, if_neg htwo, hlength, Nat.add_sub_cancel, List.take_left, List.drop_left]
  refine parseOptions_fuel rest _ ?_
  rw [List.length_cons, List.length_append]
  omega

theorem readBlocks_flatMap (blocks : List SackBlock) :
    readBlocks (blocks.flatMap SackBlock.toBytes) = blocks := by
  induction blocks with
  | nil => rfl
  | cons block blocks ih =>
    change ⟨UInt32.ofNat (BigEndian.value (intToBytes32 block.start)),
      UInt32.ofNat (BigEndian.value (intToBytes32 block.stop))⟩ ::
      readBlocks (blocks.flatMap SackBlock.toBytes) = _
    rw [ih, value_intToBytes32, value_intToBytes32, UInt32.ofNat_toNat, UInt32.ofNat_toNat]

theorem length_flatMap_blocks (blocks : List SackBlock) :
    (blocks.flatMap SackBlock.toBytes).length = blocks.length * 8 := by
  induction blocks with
  | nil => rfl
  | cons block blocks ih =>
    rw [List.flatMap_cons, List.length_append, ih, SackBlock.toBytes, List.length_append,
      length_intToBytes32, length_intToBytes32, List.length_cons]
    omega

section ReadBack

variable (t u : Tcp) (rest : Bytes)

theorem readOptions_mss (hu : u.mssOption = none) :
    u.readOptions (t.mssToBytes ++ rest) = { u with mssOption := t.mssOption }.readOptions rest := by
  unfold mssToBytes
  cases h : t.mssOption with
  | none => rw [List.nil_append, ← hu]
  | some mss =>
    rw [List.cons_append, List.cons_append, readOptions_option rest u (by decide) (by simp)]
    simp [takeOption]

theorem readOptions_windowScale (hu : u.windowScaleOption = none)
    (hcap : ∀ shift ∈ t.windowScaleOption, shift ≤ maxWindowScale) :
    u.readOptions (t.windowScaleToBytes ++ rest) =
      { u with windowScaleOption := t.windowScaleOption }.readOptions rest := by
  unfold windowScaleToBytes
  cases h : t.windowScaleOption with
  | none => rw [List.nil_append, ← hu]
  | some shift =>
    have hmin : min shift maxWindowScale = shift := if_pos (hcap shift h)
    have hread : u.readOptions (3 :: 3 :: ([shift] ++ rest)) = (u.takeOption 3 [shift]).readOptions rest :=
      readOptions_option rest u (by decide) rfl
    rw [List.cons_append, List.cons_append, hread]
    simp [takeOption, BigEndian.value, hmin]

theorem readOptions_sackPermitted (hu : u.sackPermittedOption = false) :
    u.readOptions (t.sackPermittedToBytes ++ rest) =
      { u with sackPermittedOption := t.sackPermittedOption }.readOptions rest := by
  unfold sackPermittedToBytes
  cases h : t.sackPermittedOption with
  | false => rw [if_neg Bool.false_ne_true, List.nil_append, ← hu]
  | true =>
    rw [if_pos rfl]
    have hread : u.readOptions (4 :: 2 :: ([] ++ rest)) = (u.takeOption 4 []).readOptions rest :=
      readOptions_option rest u (by decide) rfl
    exact hread

theorem readOptions_sackBlocks (hu : u.sackBlocks = []) (hcount : t.sackBlocks.length ≤ maxSackBlocks) :
    u.readOptions (t.sackBlocksToBytes ++ rest) =
      { u with sackBlocks := t.sackBlocks }.readOptions rest := by
  unfold maxSackBlocks at hcount
  unfold sackBlocksToBytes
  split_ifs with h
  · rw [List.nil_append, h, ← hu]
  · have hpos : 0 < t.sackBlocks.length := List.length_pos_iff.mpr h
    have hlength : (UInt8.ofNat (2 + t.sackBlocks.length * 8)).toNat =
        (t.sackBlocks.flatMap SackBlock.toBytes).length + 2 := by
      rw [UInt8.toNat_ofNat', length_flatMap_blocks]
      omega
    have htake : u.takeOption 5 (t.sackBlocks.flatMap SackBlock.toBytes) =
        { u with sackBlocks := t.sackBlocks } := by
      have hblocks : 8 ≤ (t.sackBlocks.flatMap SackBlock.toBytes).length ∧
          (t.sackBlocks.flatMap SackBlock.toBytes).length % 8 = 0 := by
        rw [length_flatMap_blocks]
        omega
      simp only [takeOption, hblocks, readBlocks_flatMap, hu]
      rfl
    simp only [List.cons_append, readOptions_nop]
    rw [readOptions_option rest u (by decide) hlength, htake]

theorem readOptions_timestamp (hu : u.timestampOption = none) : u.readOptions (t.timestampToBytes ++ rest) =
      { u with timestampOption := t.timestampOption }.readOptions rest := by
  unfold timestampToBytes
  rcases h : t.timestampOption with _ | ⟨value, echo⟩
  · rw [List.nil_append, ← hu]
  · simp only [List.cons_append, readOptions_nop]
    rw [readOptions_option rest u (by decide) (by simp)]
    simp [takeOption]

end ReadBack

theorem length_sackBlocksToBytes (t : Tcp) :
    t.sackBlocksToBytes.length = if t.sackBlocks = [] then 0 else t.sackBlocks.length * 8 + 4 := by
  unfold sackBlocksToBytes
  split_ifs
  · rfl
  · simp only [List.length_cons, length_flatMap_blocks]

theorem length_optionsToBytes_mod (t : Tcp) : t.optionsToBytes.length % 4 = 0 := by
  unfold optionsToBytes
  rw [List.length_append, List.length_replicate]
  omega

theorem length_sackBlocks_le (t : Tcp) (hfit : t.optionsToBytes.length ≤ 40) :
    t.sackBlocks.length ≤ maxSackBlocks := by
  unfold maxSackBlocks
  have hblocks := t.length_sackBlocksToBytes
  simp only [optionsToBytes, unpaddedOptions, List.length_append] at hfit
  split_ifs at hblocks with h
  · simp [h]
  · omega

/-- **The options are read back.** -/
theorem readOptions_optionsToBytes (t u : Tcp) (hfit : t.optionsToBytes.length ≤ 40)
    (hcap : ∀ shift ∈ t.windowScaleOption, shift ≤ maxWindowScale)
    (hmss : u.mssOption = none) (hscale : u.windowScaleOption = none)
    (hpermitted : u.sackPermittedOption = false) (hblocks : u.sackBlocks = [])
    (htimestamp : u.timestampOption = none) : u.readOptions t.optionsToBytes =
      { u with
        mssOption := t.mssOption
        windowScaleOption := t.windowScaleOption
        sackPermittedOption := t.sackPermittedOption
        sackBlocks := t.sackBlocks
        timestampOption := t.timestampOption } := by
  unfold optionsToBytes unpaddedOptions
  simp only [List.append_assoc]
  rw [readOptions_mss _ _ _ hmss, readOptions_windowScale _ _ _ (by exact hscale) hcap,
    readOptions_sackPermitted _ _ _ (by exact hpermitted),
    readOptions_sackBlocks _ _ _ (by exact hblocks) (length_sackBlocks_le t hfit),
    readOptions_timestamp _ _ _ (by exact htimestamp), readOptions_padding]

/-! ### Reading back a segment -/

theorem length_toBytes (t : Tcp) : t.toBytes.length = 20 + t.optionsToBytes.length + t.payload.length := by
  simp only [toBytes, List.length_append, List.length_cons, length_intToBytes16, length_intToBytes32]
  omega

/-- The flags survive their byte. -/
theorem ofFlags_flagsToByte (t : Tcp) (dataOffset : UInt8) :
    ofFlags t.srcPort t.destPort t.sequenceNumber t.acknowledgementNumber dataOffset t.flagsToByte
      t.window t.checksum t.urgentPtr =
      { t with
        dataOffset := dataOffset
        mssOption := none
        windowScaleOption := none
        sackPermittedOption := false
        sackBlocks := []
        timestampOption := none
        nextLayer := none } := by
  have hbits : ∀ cwr ece urg ack psh rst syn fin : Bool,
      let flags : UInt8 := (if cwr then 0x80 else 0) ||| (if ece then 0x40 else 0) |||
        (if urg then 0x20 else 0) ||| (if ack then 0x10 else 0) ||| (if psh then 0x08 else 0) |||
        (if rst then 0x04 else 0) ||| (if syn then 0x02 else 0) ||| (if fin then 0x01 else 0)
      (flags &&& 0x80 != 0) = cwr ∧ (flags &&& 0x40 != 0) = ece ∧ (flags &&& 0x20 != 0) = urg ∧
        (flags &&& 0x10 != 0) = ack ∧ (flags &&& 0x08 != 0) = psh ∧ (flags &&& 0x04 != 0) = rst ∧
        (flags &&& 0x02 != 0) = syn ∧ (flags &&& 0x01 != 0) = fin := by decide
  obtain ⟨h₁, h₂, h₃, h₄, h₅, h₆, h₇, h₈⟩ :=
    hbits t.cwr t.ece t.urg t.ack t.psh t.rst t.syn t.fin
  unfold ofFlags flagsToByte
  simp only [h₁, h₂, h₃, h₄, h₅, h₆, h₇, h₈]

theorem wireDataOffset_nibble (t : Tcp) (hfit : t.optionsToBytes.length ≤ 40) :
    (t.wireDataOffset <<< 4) >>> 4 = t.wireDataOffset ∧
      t.wireDataOffset.toNat * 4 = 20 + t.optionsToBytes.length := by
  have hmod := t.length_optionsToBytes_mod
  have hvalue : t.wireDataOffset.toNat = 5 + t.optionsToBytes.length / 4 := by
    rw [wireDataOffset, UInt8.toNat_ofNat']
    omega
  refine ⟨?_, by omega⟩
  have hsmall : t.wireDataOffset.toNat < 16 := by omega
  generalize t.wireDataOffset = w at hsmall
  rw [← UInt8.toNat_inj, UInt8.toNat_shiftRight, UInt8.toNat_shiftLeft, Nat.shiftLeft_eq,
    Nat.shiftRight_eq_div_pow]
  simp only [UInt8.reduceToNat, Nat.reduceMod, Nat.reducePow]
  omega

/-- **A segment is read back as it was written**, with the data offset that its
options make. -/
theorem fromBytes_toBytes (t : Tcp) (hfit : t.optionsToBytes.length ≤ 40)
    (hcap : ∀ shift ∈ t.windowScaleOption, shift ≤ maxWindowScale) : fromBytes t.toBytes = .ok { t with
      dataOffset := t.wireDataOffset
      nextLayer := if t.payload = [] then none else some t.payload } := by
  obtain ⟨hnibble, hheader⟩ := wireDataOffset_nibble t hfit
  have hlength := length_toBytes t
  have hoffset : ¬ (t.wireDataOffset < 5 ∨ t.toBytes.length < t.wireDataOffset.toNat * 4) := by
    rw [UInt8.lt_iff_toNat_lt]
    simp only [UInt8.reduceToNat]
    omega
  -- the fixed header, the options and the payload
  obtain ⟨front, hfront, hbytes⟩ : ∃ front : Bytes, front.length = 20 ∧
      t.toBytes = front ++ (t.optionsToBytes ++ t.payload) := by
    refine ⟨intToBytes16 t.srcPort ++ (intToBytes16 t.destPort ++ (intToBytes32 t.sequenceNumber ++
      (intToBytes32 t.acknowledgementNumber ++ (t.wireDataOffset <<< 4) :: t.flagsToByte ::
        (intToBytes16 t.window ++ (intToBytes16 t.checksum ++ intToBytes16 t.urgentPtr))))), ?_, ?_⟩
    · simp
    · simp [toBytes]
  have hoptions : (t.toBytes.take (t.wireDataOffset.toNat * 4)).drop 20 = t.optionsToBytes := by
    rw [hheader, hbytes, ← hfront, List.take_length_add_append, List.drop_left, List.take_left]
  have hpayload : t.toBytes.drop (t.wireDataOffset.toNat * 4) = t.payload := by
    rw [hheader, hbytes, ← hfront, List.drop_length_add_append, List.drop_left]
  have hmore : t.wireDataOffset.toNat * 4 < t.toBytes.length ↔ ¬ t.payload = [] := by
    rw [← ne_eq, ← List.length_pos_iff]
    omega
  have hfields : sliceInt16 t.toBytes 0 = .ok t.srcPort ∧ sliceInt16 t.toBytes 2 = .ok t.destPort ∧
      sliceInt32 t.toBytes 4 = .ok t.sequenceNumber ∧
      sliceInt32 t.toBytes 8 = .ok t.acknowledgementNumber ∧
      sliceInt8 t.toBytes 12 = .ok (t.wireDataOffset <<< 4) ∧
      sliceInt8 t.toBytes 13 = .ok t.flagsToByte ∧ sliceInt16 t.toBytes 14 = .ok t.window ∧
      sliceInt16 t.toBytes 16 = .ok t.checksum ∧ sliceInt16 t.toBytes 18 = .ok t.urgentPtr := by
    simp [toBytes, sliceInt8, sliceInt16, sliceInt32, -UInt8.toNat_shiftLeft]
  obtain ⟨h₁, h₂, h₃, h₄, h₅, h₆, h₇, h₈, h₉⟩ := hfields
  have hread := readOptions_optionsToBytes t (ofFlags t.srcPort t.destPort t.sequenceNumber
    t.acknowledgementNumber t.wireDataOffset t.flagsToByte t.window t.checksum t.urgentPtr)
    hfit hcap rfl rfl rfl rfl rfl
  rw [readOptions, ofFlags_flagsToByte] at hread
  rw [fromBytes, if_neg (by omega)]
  simp only [h₁, h₂, h₃, h₄, h₅, h₆, h₇, h₈, h₉, ok_bind, hnibble, if_neg hoffset, hoptions, hpayload,
    hmore, ite_not, ofFlags_flagsToByte, hread]
  rfl

theorem length_payload_of_fromBytes {data : Bytes} {t : Tcp} (h : fromBytes data = .ok t) :
    t.payload.length + 20 ≤ data.length := by
  simp only [fromBytes, ite_throw_eq_ok, bind_eq_ok] at h
  obtain ⟨hlength, _, -, _, -, _, -, _, -, octet, -, hoffset, _, -, _, -, _, -, _, -, ht⟩ := h
  obtain rfl := Except.ok.inj ht
  rw [not_or, UInt8.not_lt, UInt8.le_iff_toNat_le] at hoffset
  simp only [UInt8.reduceToNat] at hoffset
  unfold payload
  dsimp only
  split_ifs
  · rw [Option.getD_some, List.length_drop]
    omega
  · rw [Option.getD_none, List.length_nil]
    omega

end Tcp

end TcpIpStack
