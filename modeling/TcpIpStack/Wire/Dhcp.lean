/-
# DHCP messages

`src/include/dhcp.h` and `src/src/dhcp.cpp`: BOOTP's fixed header of 236 octets, the
magic cookie, and the options as tag, length and value.  `to_bytes` writes the options
in the order of their codes; `from_bytes` appends the values of an option that comes
more than once.  Every reader of an option is total: a missing option, or one of the
wrong size, gives a default.

A message of this stack is read back as it was written (`fromBytes_toBytes`).
-/

import TcpIpStack.Lib.OrderedMap
import TcpIpStack.Wire.Addresses

namespace TcpIpStack

/-- The option codes this stack reads or writes. -/
inductive DhcpOption
  | subnetMask
  | router
  | dnsServer
  | interfaceMtu
  | requestedIp
  | leaseTime
  | messageType
  | serverIdentifier
  | parameterRequestList
  | renewalTime
  | rebindingTime
  | clientIdentifier
deriving DecidableEq

def DhcpOption.code : DhcpOption → UInt8
  | subnetMask => 1
  | router => 3
  | dnsServer => 6
  | interfaceMtu => 26
  | requestedIp => 50
  | leaseTime => 51
  | messageType => 53
  | serverIdentifier => 54
  | parameterRequestList => 55
  | renewalTime => 58
  | rebindingTime => 59
  | clientIdentifier => 61

theorem DhcpOption.code_ne (option : DhcpOption) : option.code ≠ 0 ∧ option.code ≠ 255 := by
  cases option <;> decide

/-- A DHCP message; the default is the empty BOOTREQUEST of the constructor. -/
structure Dhcp where
  op : UInt8 := 1
  hardwareType : UInt8 := 1
  hardwareLength : UInt8 := 6
  hops : UInt8 := 0
  transactionId : UInt32 := 0
  secondsElapsed : UInt16 := 0
  flags : UInt16 := 0
  clientIp : IPv4Address := {}
  yourIp : IPv4Address := {}
  serverIp : IPv4Address := {}
  gatewayIp : IPv4Address := {}
  clientMac : MacAddress := .zero
  options : OrderedMap UInt8 Bytes := .empty
deriving DecidableEq

namespace Dhcp

def fixedHeaderSize : ℕ := 236
def magicCookie : UInt32 := 0x63825363
def opBootRequest : UInt8 := 1
def opBootReply : UInt8 := 2

/-- The message types, option 53. -/
def discover : UInt8 := 1
def offer : UInt8 := 2
def request : UInt8 := 3
def acknowledge : UInt8 := 5
def nak : UInt8 := 6

/-! ### Options -/

/-- `set_broadcast_flag` -/
def setBroadcastFlag (m : Dhcp) (broadcast : Bool) : Dhcp :=
  { m with flags := if broadcast then m.flags ||| 0x8000 else m.flags &&& 0x7fff }

/-- `set_option` -/
def setOption (m : Dhcp) (option : DhcpOption) (value : Bytes) : Dhcp :=
  { m with options := m.options.insert option.code value }

/-- `set_message_type` -/
def setMessageType (m : Dhcp) (type : UInt8) : Dhcp := m.setOption .messageType [type]

/-- `get_option` -/
def getOption (m : Dhcp) (option : DhcpOption) : Bytes := (m.options.find? option.code).getD []

/-- `has_option` -/
def hasOption (m : Dhcp) (option : DhcpOption) : Bool := (m.options.find? option.code).isSome

/-- `get_message_type`; zero is `DHCP_MESSAGE_TYPE_UNKNOWN`. -/
def getMessageType (m : Dhcp) : UInt8 :=
  match m.getOption .messageType with
  | [type] => type
  | _ => 0

/-- Four octets as an address. -/
def addressOf (value : Bytes) : IPv4Address := ⟨UInt32.ofNat (BigEndian.value value)⟩

/-- `get_option_address` -/
def getOptionAddress (m : Dhcp) (option : DhcpOption) : IPv4Address :=
  if (m.getOption option).length = 4 then addressOf (m.getOption option) else {}

/-- The whole addresses of a list; a part of one behind them is dropped. -/
def addressList : Bytes → List IPv4Address
  | a :: b :: c :: d :: rest => addressOf [a, b, c, d] :: addressList rest
  | _ => []

/-- `get_option_address_list` -/
def getOptionAddressList (m : Dhcp) (option : DhcpOption) : List IPv4Address :=
  addressList (m.getOption option)

/-- `get_option_uint32` -/
def getOptionUInt32 (m : Dhcp) (option : DhcpOption) (fallback : UInt32) : UInt32 :=
  if (m.getOption option).length = 4 then UInt32.ofNat (BigEndian.value (m.getOption option))
  else fallback

/-- `get_option_uint16` -/
def getOptionUInt16 (m : Dhcp) (option : DhcpOption) (fallback : UInt16) : UInt16 :=
  if (m.getOption option).length = 2 then UInt16.ofNat (BigEndian.value (m.getOption option))
  else fallback

theorem code_injective : Function.Injective DhcpOption.code := by
  intro a b h
  cases a <;> cases b <;> first | rfl | exact absurd h (by decide)

@[simp] theorem getOption_setOption (m : Dhcp) (option option' : DhcpOption) (value : Bytes) :
    (m.setOption option value).getOption option' =
      if option = option' then value else m.getOption option' := by
  rw [getOption, setOption, OrderedMap.find?_insert]
  simp only [code_injective.eq_iff]
  split_ifs <;> rfl

@[simp] theorem hasOption_setOption (m : Dhcp) (option option' : DhcpOption) (value : Bytes) :
    (m.setOption option value).hasOption option' = true ↔
      option = option' ∨ m.hasOption option' = true := by
  rw [hasOption, setOption, OrderedMap.find?_insert]
  simp only [code_injective.eq_iff]
  split_ifs with h <;> simp [h, hasOption]

theorem addressOf_octets (ip : IPv4Address) : addressOf ip.octets = ip := by
  rw [addressOf, IPv4Address.octets, value_intToBytes32, UInt32.ofNat_toNat]

/-! ### Writing -/

/-- The options, and the end behind them. -/
def optionsToBytes : List (UInt8 × Bytes) → Except String Bytes
  | [] => .ok [255]
  | (code, value) :: rest =>
    if 255 < value.length then .error "DHCP option value too long to serialize"
    else do
      let rest ← optionsToBytes rest
      return code :: UInt8.ofNat value.length :: (value ++ rest)

/-- What `to_bytes` writes before the cookie; `chaddr` has sixteen octets, and behind it
come the empty `sname` and `file`. -/
def headerToBytes (m : Dhcp) : Bytes :=
  m.op :: m.hardwareType :: m.hardwareLength :: m.hops ::
    (intToBytes32 m.transactionId ++ (intToBytes16 m.secondsElapsed ++ (intToBytes16 m.flags ++
      (m.clientIp.octets ++ (m.yourIp.octets ++ (m.serverIp.octets ++ (m.gatewayIp.octets ++
        (m.clientMac.octets ++ List.replicate (10 + 192) 0))))))))

/-- `to_bytes` -/
def toBytes (m : Dhcp) : Except String Bytes := do
  let options ← optionsToBytes m.options.entries
  return m.headerToBytes ++ (intToBytes32 magicCookie ++ options)

/-! ### Reading -/

/-- An option's value, behind what it has already. -/
def appendOption (options : OrderedMap UInt8 Bytes) (code : UInt8) (chunk : Bytes) :
    OrderedMap UInt8 Bytes :=
  options.insert code ((options.find? code).getD [] ++ chunk)

/-- The loop over the options.  Each turn moves past at least one octet, so `fuel` at
their number is enough. -/
def parseOptions : ℕ → Bytes → OrderedMap UInt8 Bytes → Except String (OrderedMap UInt8 Bytes)
  | 0, _, options => .ok options
  | _ + 1, [], options => .ok options
  | fuel + 1, code :: body, options =>
    if code = 255 then .ok options
    -- padding has no length
    else if code = 0 then parseOptions fuel body options
    else match body with
      | [] => .error "DHCP option tag with no length byte"
      | length :: value =>
        if value.length < length.toNat then
          .error "DHCP option length runs past the end of the message"
        else parseOptions fuel (value.drop length.toNat)
          (appendOption options code (value.take length.toNat))

/-- What follows the fixed header; without the cookie there are no options. -/
def readOptions (data : Bytes) : Except String (OrderedMap UInt8 Bytes) := do
  if data.length < fixedHeaderSize + 4 then return .empty
  if (← sliceInt32 data fixedHeaderSize) ≠ magicCookie then return .empty
  let options := data.drop (fixedHeaderSize + 4)
  parseOptions options.length options .empty

/-- `from_bytes` -/
def fromBytes (data : Bytes) : Except String Dhcp := do
  if data.length < fixedHeaderSize then throw "DHCP message shorter than the BOOTP fixed header"
  let op ← sliceInt8 data 0
  let hardwareType ← sliceInt8 data 1
  let hardwareLength ← sliceInt8 data 2
  let hops ← sliceInt8 data 3
  let transactionId ← sliceInt32 data 4
  let secondsElapsed ← sliceInt16 data 8
  let flags ← sliceInt16 data 10
  let clientIp ← sliceIp data 12
  let yourIp ← sliceIp data 16
  let serverIp ← sliceIp data 20
  let gatewayIp ← sliceIp data 24
  let clientMac ← if hardwareLength = 6 then sliceMac data 28 else .ok .zero
  let options ← readOptions data
  return ⟨op, hardwareType, hardwareLength, hops, transactionId, secondsElapsed, flags, clientIp,
    yourIp, serverIp, gatewayIp, clientMac, options⟩

/-! ### Reading back -/

/-- A message that `to_bytes` writes and `from_bytes` reads whole: its options are no
padding and no end, and none is too long. -/
structure Wellformed (m : Dhcp) : Prop where
  hardwareLength : m.hardwareLength = 6
  code : ∀ option ∈ m.options.entries, option.1 ≠ 0 ∧ option.1 ≠ 255
  length : ∀ option ∈ m.options.entries, option.2.length ≤ 255

theorem length_headerToBytes (m : Dhcp) : m.headerToBytes.length = fixedHeaderSize := by
  simp only [headerToBytes, List.length_cons, List.length_append, length_intToBytes32,
    length_intToBytes16, length_ipOctets, m.clientMac.length, List.length_replicate]
  rfl

/-- What the options become. -/
def optionOctets (options : List (UInt8 × Bytes)) : Bytes :=
  options.flatMap fun option => option.1 :: UInt8.ofNat option.2.length :: option.2

theorem optionsToBytes_eq {options : List (UInt8 × Bytes)}
    (hlength : ∀ option ∈ options, option.2.length ≤ 255) :
    optionsToBytes options = .ok (optionOctets options ++ [255]) := by
  induction options with
  | nil => rfl
  | cons option rest ih =>
    obtain ⟨hfirst, hrest⟩ := List.forall_mem_cons.1 hlength
    rw [optionsToBytes, if_neg (Nat.not_lt.2 hfirst), ih hrest]
    simp [optionOctets]

variable {options : OrderedMap UInt8 Bytes}

theorem appendOption_of_lt {code : UInt8} (chunk : Bytes) (h : ∀ option ∈ options.entries, option.1 < code) :
    (appendOption options code chunk).entries = options.entries ++ [(code, chunk)] := by
  rw [appendOption, OrderedMap.find?_eq_none_of_lt h]
  exact OrderedMap.insertEntry_of_lt h

theorem entries_foldl_appendOption (rest : List (UInt8 × Bytes)) (options : OrderedMap UInt8 Bytes)
    (hsorted : (options.entries ++ rest).Pairwise fun a b => a.1 < b.1) :
    (rest.foldl (fun options piece => appendOption options piece.1 piece.2) options).entries =
      options.entries ++ rest := by
  induction rest generalizing options with
  | nil => exact (List.append_nil _).symm
  | cons option rest ih =>
    have hbelow : ∀ o ∈ options.entries, o.1 < option.1 := fun o ho =>
      (List.pairwise_append.1 hsorted).2.2 o ho _ List.mem_cons_self
    have hadded : (appendOption options option.1 option.2).entries = options.entries ++ [option] :=
      appendOption_of_lt option.2 hbelow
    rw [List.append_cons, ← hadded] at hsorted
    rw [List.foldl_cons, ih _ hsorted, hadded, List.append_assoc, List.singleton_append]

/-- The octets of an options field spell these options, up to the first `END`. -/
inductive Spells : Bytes → List (UInt8 × Bytes) → Prop
  | nil : Spells [] []
  | stop (rest) : Spells (255 :: rest) []
  | pad (body options) : Spells body options → Spells (0 :: body) options
  | option (code length value rest options) : code ≠ 0 → code ≠ 255 → value.length = length.toNat →
      Spells rest options → Spells (code :: length :: (value ++ rest)) ((code, value) :: options)

theorem spells_optionOctets {options : List (UInt8 × Bytes)}
    (hcode : ∀ option ∈ options, option.1 ≠ 0 ∧ option.1 ≠ 255)
    (hlength : ∀ option ∈ options, option.2.length ≤ 255) : Spells (optionOctets options ++ [255]) options := by
  induction options with
  | nil => exact .stop []
  | cons option rest ih =>
    obtain ⟨⟨hzero, hend⟩, hcodes⟩ := List.forall_mem_cons.1 hcode
    obtain ⟨hvalue, hvalues⟩ := List.forall_mem_cons.1 hlength
    have hcount : (UInt8.ofNat option.2.length).toNat = option.2.length :=
      UInt8.toNat_ofNat_of_lt' (Nat.lt_succ_of_le hvalue)
    have hoption := Spells.option option.1 _ option.2 _ rest hzero hend hcount.symm (ih hcodes hvalues)
    simpa [optionOctets] using hoption

variable {data : Bytes}

/-- The loop appends what is spelled, each option in its turn. -/
theorem parseOptions_of_spells {pieces : List (UInt8 × Bytes)} (h : Spells data pieces)
    {fuel : ℕ} (hfuel : data.length ≤ fuel) : parseOptions fuel data options =
      .ok (pieces.foldl (fun options piece => appendOption options piece.1 piece.2) options) := by
  induction h generalizing fuel options with
  | nil => cases fuel <;> rfl
  | stop rest =>
    cases fuel with
    | zero => exact absurd hfuel (Nat.not_succ_le_zero _)
    | succ fuel => rfl
  | pad body pieces _ ih =>
    cases fuel with
    | zero => exact absurd hfuel (Nat.not_succ_le_zero _)
    | succ fuel => exact ih (Nat.le_of_succ_le_succ hfuel)
  | option code length value rest pieces hzero hend hlength _ ih =>
    simp only [List.length_cons, List.length_append] at hfuel
    obtain ⟨fuel, rfl⟩ := Nat.exists_eq_add_of_le' (Nat.le_of_add_left_le hfuel)
    have hfits : ¬ (value ++ rest).length < length.toNat := by
      rw [List.length_append]
      omega
    rw [parseOptions, if_neg hend, if_neg hzero, if_neg hfits, ← hlength, List.take_left, List.drop_left]
    exact ih (by omega)

/-- Behind the header, the options are found. -/
theorem readOptions_append (m : Dhcp) (hm : m.Wellformed) : readOptions (m.headerToBytes ++
      (intToBytes32 magicCookie ++ (optionOctets m.options.entries ++ [255]))) = .ok m.options := by
  have hheader := length_headerToBytes m
  have hcookie : sliceInt32 (m.headerToBytes ++
      (intToBytes32 magicCookie ++ (optionOctets m.options.entries ++ [255]))) fixedHeaderSize =
      .ok magicCookie := by
    have hskip := sliceInt_append 4 0
      (intToBytes32 magicCookie ++ (optionOctets m.options.entries ++ [255])) m.headerToBytes
    rw [Nat.zero_add, hheader] at hskip
    rw [sliceInt32, hskip, sliceInt_int32_append_zero, map_ok, UInt32.ofNat_toNat]
  have hlength : ¬ (m.headerToBytes ++ (intToBytes32 magicCookie ++
      (optionOctets m.options.entries ++ [255]))).length < fixedHeaderSize + 4 := by
    simp only [List.length_append, hheader, length_intToBytes32]
    omega
  have hdrop : (m.headerToBytes ++ (intToBytes32 magicCookie ++
      (optionOctets m.options.entries ++ [255]))).drop (fixedHeaderSize + 4) =
      optionOctets m.options.entries ++ [255] := by
    rw [← hheader, List.drop_length_add_append]
    exact List.drop_left' (length_intToBytes32 _)
  rw [readOptions, if_neg hlength]
  simp only [hcookie, ok_bind, ne_eq, not_true_eq_false, if_false, hdrop]
  rw [parseOptions_of_spells (spells_optionOctets hm.code hm.length) le_rfl]
  exact congrArg Except.ok (OrderedMap.ext
    (entries_foldl_appendOption m.options.entries .empty m.options.sorted))

/-- **A message is read back as it was written.** -/
theorem fromBytes_toBytes (m : Dhcp) (hm : m.Wellformed) :
    ∃ data, m.toBytes = .ok data ∧ fromBytes data = .ok m := by
  have hoptions := readOptions_append m hm
  refine ⟨m.headerToBytes ++ (intToBytes32 magicCookie ++ (optionOctets m.options.entries ++ [255])),
    ?_, ?_⟩
  · rw [toBytes, optionsToBytes_eq hm.length]
    rfl
  have hlength : ¬ (m.headerToBytes ++ (intToBytes32 magicCookie ++
      (optionOctets m.options.entries ++ [255]))).length < fixedHeaderSize := by
    rw [List.length_append, length_headerToBytes]
    omega
  generalize hdata : m.headerToBytes ++
    (intToBytes32 magicCookie ++ (optionOctets m.options.entries ++ [255])) = data at *
  have hfields : sliceInt8 data 0 = .ok m.op ∧ sliceInt8 data 1 = .ok m.hardwareType ∧
      sliceInt8 data 2 = .ok m.hardwareLength ∧ sliceInt8 data 3 = .ok m.hops ∧
      sliceInt32 data 4 = .ok m.transactionId ∧ sliceInt16 data 8 = .ok m.secondsElapsed ∧
      sliceInt16 data 10 = .ok m.flags ∧ sliceIp data 12 = .ok m.clientIp ∧
      sliceIp data 16 = .ok m.yourIp ∧ sliceIp data 20 = .ok m.serverIp ∧
      sliceIp data 24 = .ok m.gatewayIp ∧ sliceMac data 28 = .ok m.clientMac := by
    simp [← hdata, headerToBytes, sliceInt8, sliceInt16, sliceInt32, sliceIp, sliceMac,
      -List.reduceReplicate]
  obtain ⟨h₁, h₂, h₃, h₄, h₅, h₆, h₇, h₈, h₉, h₁₀, h₁₁, h₁₂⟩ := hfields
  rw [fromBytes, if_neg hlength]
  simp only [h₁, h₂, h₃, h₄, h₅, h₆, h₇, h₈, h₉, h₁₀, h₁₁, h₁₂, ok_bind,
    hm.hardwareLength, if_true, hoptions]
  rw [← hm.hardwareLength]
  rfl

/-! ### Options in pieces

RFC 3396: a value is split over several options of one code, and is what they spell one
after the other. -/

/-- The values of all options of a code, joined. -/
def joined (code : UInt8) (options : List (UInt8 × Bytes)) : Bytes :=
  options.flatMap fun option => if option.1 = code then option.2 else []

/-- The options field of a message that has the cookie. -/
def optionsField (data : Bytes) : Bytes :=
  if fixedHeaderSize + 4 ≤ data.length ∧ sliceInt32 data fixedHeaderSize = .ok magicCookie then
    data.drop (fixedHeaderSize + 4)
  else []

/-- What the loop accepts is spelled out, and each option is appended in its turn. -/
theorem spells_of_parseOptions {fuel : ℕ} {result : OrderedMap UInt8 Bytes}
    (hfuel : data.length ≤ fuel) (h : parseOptions fuel data options = .ok result) :
    ∃ pieces, Spells data pieces ∧
      pieces.foldl (fun options piece => appendOption options piece.1 piece.2) options = result := by
  induction fuel generalizing data options with
  | zero =>
    obtain rfl := List.length_eq_zero_iff.1 (Nat.le_zero.1 hfuel)
    exact ⟨[], .nil, Except.ok.inj h⟩
  | succ fuel ih =>
    cases data with
    | nil => exact ⟨[], .nil, Except.ok.inj h⟩
    | cons code body =>
      have hbody : body.length ≤ fuel := Nat.le_of_succ_le_succ hfuel
      unfold parseOptions at h
      by_cases hend : code = 255
      · rw [if_pos hend] at h
        exact ⟨[], hend ▸ .stop body, Except.ok.inj h⟩
      by_cases hpad : code = 0
      · rw [if_neg hend, if_pos hpad] at h
        obtain ⟨pieces, hspells, hfold⟩ := ih hbody h
        exact ⟨pieces, hpad ▸ .pad body pieces hspells, hfold⟩
      rw [if_neg hend, if_neg hpad] at h
      cases body with
      | nil => cases h
      | cons length value =>
        dsimp only at h
        split_ifs at h with hshort
        rw [List.length_cons] at hbody
        obtain ⟨pieces, hspells, hfold⟩ := ih (by rw [List.length_drop]; omega) h
        have hlength : (value.take length.toNat).length = length.toNat := by
          rw [List.length_take]
          omega
        refine ⟨(code, value.take length.toNat) :: pieces, ?_, hfold⟩
        have hoption := Spells.option code length _ _ pieces hpad hend hlength hspells
        rwa [List.take_append_drop] at hoption

/-- The loop ends by itself: it is the same with any fuel that is enough. -/
theorem parseOptions_of_le {fuel fuel' : ℕ} (options : OrderedMap UInt8 Bytes)
    (hfuel : data.length ≤ fuel) (hfuel' : data.length ≤ fuel') :
    parseOptions fuel data options = parseOptions fuel' data options := by
  induction fuel generalizing fuel' data options with
  | zero =>
    obtain rfl := List.length_eq_zero_iff.1 (Nat.le_zero.1 hfuel)
    cases fuel' <;> rfl
  | succ fuel ih =>
    rcases data with _ | ⟨code, body⟩
    · cases fuel' <;> rfl
    obtain ⟨fuel', rfl⟩ := Nat.exists_eq_add_one_of_ne_zero (Nat.ne_zero_of_lt hfuel')
    unfold parseOptions
    rw [ih options (Nat.le_of_succ_le_succ hfuel) (Nat.le_of_succ_le_succ hfuel')]
    rcases body with _ | ⟨length, value⟩
    · rfl
    simp only [List.length_cons] at hfuel hfuel'
    have hrest : (value.drop length.toNat).length ≤ fuel ∧ (value.drop length.toNat).length ≤ fuel' := by
      rw [List.length_drop]
      omega
    dsimp only
    rw [ih _ hrest.1 hrest.2]

/-- After any options have been appended, each has its values joined. -/
theorem find?_foldl_appendOption (pieces : List (UInt8 × Bytes)) (code : UInt8) :
    (pieces.foldl (fun options piece => appendOption options piece.1 piece.2) .empty).find? code =
      if code ∈ pieces.map Prod.fst then some (joined code pieces) else none := by
  induction pieces using List.reverseRecOn with
  | nil => rfl
  | append_singleton pieces piece ih =>
    have hjoined : joined code (pieces ++ [piece]) =
        joined code pieces ++ if piece.1 = code then piece.2 else [] := by simp [joined]
    rw [List.foldl_append, List.foldl_cons, List.foldl_nil, appendOption, OrderedMap.find?_insert, hjoined]
    split_ifs with hcode hmem hmem
    · subst hcode
      rw [ih]
      split_ifs with hbefore
      · rfl
      · have hnone : joined piece.1 pieces = [] := List.flatMap_eq_nil_iff.2 fun option hoption =>
          if_neg fun heq : option.1 = piece.1 => hbefore (heq ▸ List.mem_map_of_mem hoption)
        rw [hnone, Option.getD_none]
    · exact absurd (by simp [hcode]) hmem
    · rw [ih, if_pos (by simpa [Ne.symm hcode] using hmem), List.append_nil]
    · rw [ih, if_neg (fun hin => hmem (by simp [hin]))]

theorem readOptions_eq (data : Bytes) :
    readOptions data = parseOptions (optionsField data).length (optionsField data) .empty := by
  rw [readOptions]
  by_cases hshort : data.length < fixedHeaderSize + 4
  · rw [if_pos hshort, optionsField, if_neg fun hlong => Nat.not_lt.2 hlong.1 hshort]
    rfl
  rw [if_neg hshort, optionsField]
  cases hcookie : sliceInt32 data fixedHeaderSize with
  | error what =>
    rw [sliceInt32, sliceInt, if_neg hshort] at hcookie
    cases hcookie
  | ok cookie =>
    rw [ok_bind]
    by_cases hmagic : cookie = magicCookie
    · rw [if_neg (not_not.2 hmagic), if_pos ⟨Nat.not_lt.1 hshort, congrArg Except.ok hmagic⟩]
    · rw [if_pos hmagic, if_neg fun hlong => hmagic (Except.ok.inj hlong.2)]
      rfl

theorem readOptions_of_fromBytes {m : Dhcp} (h : fromBytes data = .ok m) :
    readOptions data = .ok m.options := by
  rw [fromBytes, ite_throw_eq_ok] at h
  obtain ⟨-, h⟩ := h
  simp only [bind_eq_ok] at h
  obtain ⟨_, -, _, -, _, -, _, -, _, -, _, -, _, -, _, -, _, -, _, -, _, -, h⟩ := h
  split_ifs at h
  all_goals
    simp only [bind_eq_ok] at h
    obtain ⟨_, -, options, hoptions, h⟩ := h
    cases h
    exact hoptions

/-- **The DHCP codec.**  A message is read back as it was written; reading any octets ends with a
message or an exception, after a turn of the loop for each octet at most; and the value of every
option that was read is that of all its pieces, joined in their order, so that messages with the
same pieces between any padding have the same options. -/
theorem dhcp_codec :
    (∀ m : Dhcp, m.hardwareLength = 6 → (∀ option ∈ m.options.entries, option.1 ≠ 0 ∧ option.1 ≠ 255) →
      (∀ option ∈ m.options.entries, option.2.length ≤ 255) →
      ∃ data, m.toBytes = .ok data ∧ fromBytes data = .ok m) ∧
    (∀ data, ((∃ what, fromBytes data = .error what) ∨ ∃ m, fromBytes data = .ok m) ∧
      ∀ turns, (optionsField data).length ≤ turns →
        readOptions data = parseOptions turns (optionsField data) .empty) ∧
    (∀ data m, fromBytes data = .ok m → ∃ pieces, Spells (optionsField data) pieces ∧
      ∀ code, m.options.find? code =
        if code ∈ pieces.map Prod.fst then some (joined code pieces) else none) ∧
    ∀ data data' m m' pieces, fromBytes data = .ok m → fromBytes data' = .ok m' →
      Spells (optionsField data) pieces → Spells (optionsField data') pieces → m.options = m'.options := by
  refine ⟨fun m hlength hcode hvalue => fromBytes_toBytes m ⟨hlength, hcode, hvalue⟩,
    fun data => ⟨?_, fun turns hturns => ?_⟩, fun data m h => ?_,
    fun data data' m m' pieces h h' hspells hspells' => ?_⟩
  · cases fromBytes data with
    | error what => exact .inl ⟨what, rfl⟩
    | ok m => exact .inr ⟨m, rfl⟩
  · rw [readOptions_eq, parseOptions_of_le _ le_rfl hturns]
  · have hread := readOptions_of_fromBytes h
    rw [readOptions_eq] at hread
    obtain ⟨pieces, hspells, hfold⟩ := spells_of_parseOptions le_rfl hread
    exact ⟨pieces, hspells, fun code => hfold ▸ find?_foldl_appendOption pieces code⟩
  · have hread := readOptions_of_fromBytes h
    have hread' := readOptions_of_fromBytes h'
    rw [readOptions_eq, parseOptions_of_spells hspells le_rfl] at hread
    rw [readOptions_eq, parseOptions_of_spells hspells' le_rfl] at hread'
    exact Except.ok.inj (hread.symm.trans hread')

end Dhcp

end TcpIpStack
