import WhaleShark.Gateway.Configuration

/-!
# The strings of the configuration

A string that has been set should be the one that is read afterwards (`ReadsBack`). The setters
compare the new string with the old one in the length of the new one. So the string that is the
beginning of the one that is stored counts as the same, and is not set; every other string is
(`reads_back_iff`).
-/

set_option autoImplicit false

namespace WhaleShark

open Foundations

/-- The memory at a field. -/
def Config.at_ (cfg : Config) (f : ConfigField) : List UInt8 := cfg.cells.drop f.offset

/-! ## The getters -/

def getLocalIP (s : Configuration) : List UInt8 := s.cfg.at_ .localIp

def getSubnetMask (s : Configuration) : List UInt8 := s.cfg.at_ .subnetMask

def getGatewayIP (s : Configuration) : List UInt8 := s.cfg.at_ .gatewayIp

def getDnsServer (s : Configuration) : List UInt8 := s.cfg.at_ .dnsServer

def getTcpIp (s : Configuration) : List UInt8 := s.cfg.at_ .destIp

def getApPassword (s : Configuration) : List UInt8 := s.cfg.at_ .apPassword

def getApSSID (s : Configuration) : List UInt8 := s.cfg.at_ .apSSID

def getMacAddress (s : Configuration) : List UInt8 := s.cfg.at_ .macAddress

def getDomainInfo (s : Configuration) : List UInt8 := s.cfg.at_ .domainInfo

/-- The strings of the configuration that are set and read as strings. -/
inductive ConfigString where
  | localIP | subnetMask | gatewayIP | dnsServer | tcpIP | apSSID | apPassword | macAddress
  | domainInfo
  deriving DecidableEq, Repr

namespace ConfigString

/-- Where it lies. -/
def field : ConfigString → ConfigField
  | localIP => .localIp
  | subnetMask => .subnetMask
  | gatewayIP => .gatewayIp
  | dnsServer => .dnsServer
  | tcpIP => .destIp
  | apSSID => .apSSID
  | apPassword => .apPassword
  | macAddress => .macAddress
  | domainInfo => .domainInfo

/-- Its setter. -/
def set : (x : ConfigString) → Text x.field.length → Behind → Configuration → Configuration
  | localIP => setLocalIP
  | subnetMask => setSubnetMask
  | gatewayIP => setGatewayIP
  | dnsServer => setDnsServer
  | tcpIP => setTcpIP
  | apSSID => setApSSID
  | apPassword => setApPassword
  | macAddress => fun pData behind s => (setMacAddress pData behind s).1
  | domainInfo => setDomainInfo

/-- Its getter. -/
def get : ConfigString → Configuration → List UInt8
  | localIP => getLocalIP
  | subnetMask => getSubnetMask
  | gatewayIP => getGatewayIP
  | dnsServer => getDnsServer
  | tcpIP => getTcpIp
  | apSSID => getApSSID
  | apPassword => getApPassword
  | macAddress => getMacAddress
  | domainInfo => getDomainInfo

theorem set_eq (x : ConfigString) (pData : Text x.field.length) (behind : Behind)
    (s : Configuration) : x.set pData behind s = (setText x.field pData.bytes behind s).1 := by
  cases x <;> rfl

theorem get_eq (x : ConfigString) (s : Configuration) : x.get s = s.cfg.at_ x.field := by
  cases x <;> rfl

/-- It lies inside the configuration. -/
theorem field_inside (x : ConfigString) : x.field.offset + x.field.length ≤ configSize := by
  cases x <;> decide

end ConfigString

/-! ## What a setter leaves -/

/-- The bytes that a setter of a text leaves. -/
def withText {size : ℕ} (b : Block UInt8 size) (offset length : ℕ) (v : List UInt8) :
    Block UInt8 size :=
  if rtStrncmp (b.cells.drop offset) v v.length ≠ 0 then
    (b.write offset (List.replicate length 0)).write offset v
  else b

theorem setText_cfg (f : ConfigField) (v : List UInt8) (behind : Behind) (s : Configuration) :
    (setText f v behind s).1.cfg = withText s.cfg f.offset f.length v := by
  rw [setText, withText]
  split
  · rw [store_eq]
  · rfl

section

variable {size : ℕ} (b : Block UInt8 size) {offset length : ℕ} {v : List UInt8}

/-- What lies there already is not set. -/
theorem withText_of_same (noNul : ∀ b ∈ v, b ≠ 0) (agrees : v <+: b.cells.drop offset) :
    withText b offset length v = b := by
  have same : rtStrncmp (b.cells.drop offset) v v.length = 0 := by
    rw [rtStrncmp_eq_zero_comm, rtStrncmp_text_eq_zero_iff noNul]
    exact agrees
  rw [withText, if_neg (not_not.mpr same)]

/-- Anything else is, with zeros behind it. -/
theorem withText_of_other (noNul : ∀ b ∈ v, b ≠ 0) (differs : ¬ v <+: b.cells.drop offset) :
    withText b offset length v =
      (b.write offset (List.replicate length 0)).write offset v := by
  have other : rtStrncmp (b.cells.drop offset) v v.length ≠ 0 := by
    rw [ne_eq, rtStrncmp_eq_zero_comm, rtStrncmp_text_eq_zero_iff noNul]
    exact differs
  rw [withText, if_pos other]

/-- A text with zeros behind it, in the bytes of a field, is the string that lies there. -/
theorem cString_drop_write (inside : offset + length ≤ size) (short : v.length < length)
    (noNul : ∀ b ∈ v, b ≠ 0) :
    cString (((b.write offset (List.replicate length 0)).write offset v).cells.drop offset) = v := by
  rw [cString_eq_iff noNul]
  constructor
  · have written := Block.read_write_self (b.write offset (List.replicate length 0)) offset v
      (by omega)
    rw [List.prefix_iff_eq_take]
    exact written.symm
  · have zero : (List.replicate length (0 : UInt8)).length = length := List.length_replicate
    rw [byteAt_drop, byteAt_eq, Block.getElem?_write, if_pos (by omega), if_neg (by omega),
      Block.getElem?_write, if_pos (by omega), if_pos (by omega), Nat.add_sub_cancel_left,
      List.getElem?_replicate, if_pos short, Option.getD_some]

/-- A text is the string that lies there afterwards, unless it was a proper beginning of the one that
lay there before. -/
theorem cString_withText_iff (inside : offset + length ≤ size) (short : v.length < length)
    (noNul : ∀ b ∈ v, b ≠ 0) :
    cString ((withText b offset length v).cells.drop offset) = v ↔
      ¬ (v <+: cString (b.cells.drop offset) ∧ v ≠ cString (b.cells.drop offset)) := by
  rw [prefix_cString_iff noNul]
  by_cases agrees : v <+: b.cells.drop offset
  · rw [withText_of_same b noNul agrees]
    constructor
    · exact fun same both => both.2 same.symm
    · exact fun whole => not_not.mp fun other => whole ⟨agrees, fun same => other same.symm⟩
  · rw [withText_of_other b noNul agrees, cString_drop_write b inside short noNul]
    exact ⟨fun _ both => agrees both.1, fun _ => rfl⟩

/-- What is set is, as far as there is memory, what lies there afterwards. -/
theorem take_prefix_withText (noNul : ∀ b ∈ v, b ≠ 0) {n : ℕ} (inside : offset + n ≤ size) :
    v.take n <+: (withText b offset length v).cells.drop offset := by
  by_cases agrees : v <+: b.cells.drop offset
  · rw [withText_of_same b noNul agrees]
    exact (List.take_prefix n v).trans agrees
  · rw [withText_of_other b noNul agrees, List.prefix_iff_getElem?]
    intro i bound
    rw [List.length_take] at bound
    rw [List.getElem?_drop, Block.getElem?_write, if_pos (by omega), if_pos (by omega),
      Nat.add_sub_cancel_left, List.getElem_take, List.getElem?_eq_getElem (by omega)]

/-- A text that fits into its field leaves what is behind that. -/
theorem drop_withText (fits : v.length ≤ length) {k : ℕ} (apart : offset + length ≤ k) :
    (withText b offset length v).cells.drop k = b.cells.drop k := by
  rw [withText]
  split
  · rw [Block.drop_write _ (by omega), Block.drop_write _ (by rw [List.length_replicate]; omega)]
  · rfl

/-- A text leaves what is in front of its field. -/
theorem read_withText_before {from_ count : ℕ} (apart : from_ + count ≤ offset) :
    (withText b offset length v).read from_ count = b.read from_ count := by
  rw [withText]
  split
  · rw [Block.read_write_before _ _ _ _ _ apart, Block.read_write_before _ _ _ _ _ apart]
  · rfl

end

/-! ## Setting and reading -/

/-- After the string is set to `v`, it is `v` that is read. -/
def ReadsBack (x : ConfigString) (v : Text x.field.length) (behind : Behind) (s : Configuration) :
    Prop :=
  cString (x.get (x.set v behind s)) = v.bytes

theorem readsBack_eq (x : ConfigString) (v : Text x.field.length) (behind : Behind)
    (s : Configuration) : ReadsBack x v behind s ↔
      cString ((withText s.cfg x.field.offset x.field.length v.bytes).cells.drop x.field.offset) =
        v.bytes := by
  rw [ReadsBack, x.set_eq, x.get_eq, Config.at_, setText_cfg]

/-- **A string that has been set is the one that is read exactly when it is not a proper beginning of
the one that was stored.** -/
theorem reads_back_iff (x : ConfigString) (v : Text x.field.length) (behind : Behind)
    (s : Configuration) (short : v.bytes.length < x.field.length)
    (noNul : ∀ b ∈ v.bytes, b ≠ 0) :
    ReadsBack x v behind s ↔
      ¬ (v.bytes <+: cString (x.get s) ∧ v.bytes ≠ cString (x.get s)) := by
  rw [readsBack_eq, x.get_eq]
  exact cString_withText_iff s.cfg x.field_inside short noNul

/-- `192.168.0.1` -/
def aShorterAddress : Text 16 := ⟨text "192.168.0.1", by decide +kernel⟩

theorem reads_back_iff_address :
    ReadsBack .localIP anAddress (0, 0) ⟨factoryConfig, Block.fill flashPageSize 0xFF⟩ :=
  (reads_back_iff .localIP anAddress (0, 0) _ (by decide +kernel) (by decide +kernel)).mpr
    (by decide +kernel)

/-- A gateway whose address is `192.168.0.10`. -/
def addressed : Configuration :=
  ⟨factoryConfig.write ConfigField.localIp.offset anAddress.bytes, Block.fill flashPageSize 0xFF⟩

/-- **Where the address is `192.168.0.10`, the address `192.168.0.1` cannot be set, and neither can
the empty one.** -/
theorem shorter_address_is_not_set :
    ¬ ReadsBack .localIP aShorterAddress (0, 0) addressed ∧
      ¬ ReadsBack .localIP ⟨[], by decide⟩ (0, 0) addressed := by
  constructor
  · intro same
    exact absurd ((readsBack_eq .localIP aShorterAddress (0, 0) addressed).mp same)
      (by decide +kernel)
  · intro same
    exact absurd ((readsBack_eq .localIP ⟨[], by decide⟩ (0, 0) addressed).mp same)
      (by decide +kernel)

end WhaleShark
