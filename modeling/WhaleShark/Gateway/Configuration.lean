import WhaleShark.Foundations.Runs
import WhaleShark.Gateway.Flash

/-!
# The configuration

The configuration is a packed structure in memory, and its bytes stand at the beginning of a page of
the flash. The setters compare the new value with the old one and do nothing when they agree;
otherwise they change the field and write the whole structure. So the page always holds what is in
memory, and loading it again gives the same configuration, unless the watermark was taken away by
`SetReset`, when it gives the factory defaults (`flash_mirrors`).
-/

set_option autoImplicit false

namespace WhaleShark

open Foundations

/-! ## `Config` -/

/-- `sizeof(Config)` -/
def configSize : ℕ := 270

/-- `Config`, as it lies in memory. -/
abbrev Config := Block UInt8 configSize

/-- A field of `Config`: where it begins, and its bytes. -/
structure ConfigField where
  offset : ℕ
  length : ℕ

namespace ConfigField

def waterMark : ConfigField := ⟨0, 1⟩
def manufacture : ConfigField := ⟨1, 1⟩
def apSSID : ConfigField := ⟨2, 32⟩
def apPassword : ConfigField := ⟨34, 64⟩
def destIp : ConfigField := ⟨98, 16⟩
def destPort : ConfigField := ⟨114, 2⟩
def localIp : ConfigField := ⟨116, 16⟩
def gatewayIp : ConfigField := ⟨132, 16⟩
def dnsServer : ConfigField := ⟨148, 16⟩
def subnetMask : ConfigField := ⟨164, 16⟩
def macAddress : ConfigField := ⟨180, 18⟩
def dhcpMode : ConfigField := ⟨198, 1⟩
def domainOn : ConfigField := ⟨199, 1⟩
def domainInfo : ConfigField := ⟨200, 64⟩
def device : ConfigField := ⟨264, 6⟩

/-- The fields, in the order of the declaration. -/
def all : List ConfigField :=
  [waterMark, manufacture, apSSID, apPassword, destIp, destPort, localIp, gatewayIp, dnsServer,
    subnetMask, macAddress, dhcpMode, domainOn, domainInfo, device]

/-- The structure is packed: each byte belongs to one field. -/
theorem all_packed :
    all.flatMap (fun f => List.range' f.offset f.length) = List.range configSize := by
  decide +kernel

end ConfigField

/-- The bytes of a field. -/
def Config.get (cfg : Config) (f : ConfigField) : List UInt8 := Block.read cfg f.offset f.length

/-- `WATERMARK_VALUE` -/
def watermarkValue : UInt8 := 0xAF

/-- The configuration in memory, and the page of the flash. -/
structure Configuration where
  cfg : Config
  page : FlashPage

/-- The two bytes that lie behind the configuration in memory. -/
abbrev Behind := UInt8 × UInt8

/-- The memory at the configuration, as far as `FlashWrite` reads it. -/
def Config.memory (cfg : Config) (behind : Behind) : List UInt8 :=
  cfg.cells ++ [behind.1, behind.2]

/-- `FlashWrite((rt_uint8_t *)pCfg, sizeof(Config))` -/
def Configuration.store (behind : Behind) (s : Configuration) : Configuration × Bool :=
  let (page, retVal) := flashWrite s.page (s.cfg.memory behind) configSize
  ({ s with page }, retVal)

/-! ## The setters -/

/-- A setter of a text, and what it returns. -/
def setText (f : ConfigField) (pData : List UInt8) (behind : Behind) (s : Configuration) :
    Configuration × Bool :=
  if rtStrncmp (s.cfg.cells.drop f.offset) pData pData.length ≠ 0 then
    let cfg := s.cfg.write f.offset (List.replicate f.length 0)
    let cfg := cfg.write f.offset pData
    Configuration.store behind { s with cfg }
  else (s, false)

/-- A setter of a number, given by its bytes, and what it returns. -/
def setNumber (f : ConfigField) (data : List UInt8) (behind : Behind) (s : Configuration) :
    Configuration × Bool :=
  if s.cfg.get f ≠ data then
    Configuration.store behind { s with cfg := s.cfg.write f.offset data }
  else (s, false)

/-- A text that fits into a field of `n` bytes. -/
structure Text (n : ℕ) where
  bytes : List UInt8
  fits : bytes.length ≤ n

/-- `SetReset` -/
def setReset (behind : Behind) (s : Configuration) : Configuration :=
  (Configuration.store behind
    { s with cfg := s.cfg.write ConfigField.waterMark.offset [0xFF] }).1

def setLocalIP (pData : Text 16) (behind : Behind) (s : Configuration) : Configuration :=
  (setText .localIp pData.bytes behind s).1

def setSubnetMask (pData : Text 16) (behind : Behind) (s : Configuration) : Configuration :=
  (setText .subnetMask pData.bytes behind s).1

def setGatewayIP (pData : Text 16) (behind : Behind) (s : Configuration) : Configuration :=
  (setText .gatewayIp pData.bytes behind s).1

def setDnsServer (pData : Text 16) (behind : Behind) (s : Configuration) : Configuration :=
  (setText .dnsServer pData.bytes behind s).1

def setTcpPort (data : UInt16) (behind : Behind) (s : Configuration) : Configuration :=
  (setNumber .destPort (leBytes16 data) behind s).1

def setTcpIP (pData : Text 16) (behind : Behind) (s : Configuration) : Configuration :=
  (setText .destIp pData.bytes behind s).1

def setApPassword (pData : Text 64) (behind : Behind) (s : Configuration) : Configuration :=
  (setText .apPassword pData.bytes behind s).1

def setApSSID (pData : Text 32) (behind : Behind) (s : Configuration) : Configuration :=
  (setText .apSSID pData.bytes behind s).1

def setDhcpMode (data : UInt8) (behind : Behind) (s : Configuration) : Configuration :=
  (setNumber .dhcpMode [data] behind s).1

def setMacAddress (pData : Text 18) (behind : Behind) (s : Configuration) : Configuration × Bool :=
  setText .macAddress pData.bytes behind s

def setDeviceInfo (pData : Text 6) (behind : Behind) (s : Configuration) : Configuration :=
  (setText .device pData.bytes behind s).1

def setManufacture (on : UInt8) (behind : Behind) (s : Configuration) : Configuration × Bool :=
  setNumber .manufacture [on] behind s

def setDomainConfig (domainOn : UInt8) (behind : Behind) (s : Configuration) : Configuration :=
  (setNumber .domainOn [domainOn] behind s).1

def setDomainInfo (pData : Text 64) (behind : Behind) (s : Configuration) : Configuration :=
  (setText .domainInfo pData.bytes behind s).1

/-! ## Loading -/

/-- The factory defaults, as `LoadConfig` sets them. -/
def factoryConfig : Config :=
  let cfg : Config := Block.fill configSize 0
  let cfg := cfg.write ConfigField.destPort.offset (leBytes16 0)
  let cfg := cfg.write ConfigField.dhcpMode.offset [1]
  let cfg := cfg.write ConfigField.domainOn.offset [0]
  let cfg := cfg.write ConfigField.waterMark.offset [watermarkValue]
  let cfg := cfg.write ConfigField.manufacture.offset [0]
  let cfg := cfg.write ConfigField.apSSID.offset (text "STI_IOT")
  let cfg := cfg.write ConfigField.apPassword.offset (text "!sti_iot!")
  let cfg := cfg.write ConfigField.destIp.offset (text "0.0.0.0")
  let cfg := cfg.write ConfigField.dnsServer.offset (text "0.0.0.0")
  let cfg := cfg.write ConfigField.gatewayIp.offset (text "0.0.0.0")
  let cfg := cfg.write ConfigField.localIp.offset (text "0.0.0.0")
  let cfg := cfg.write ConfigField.subnetMask.offset (text "0.0.0.0")
  let cfg := cfg.write ConfigField.macAddress.offset (text "00:00:00:00:00:00")
  let cfg := cfg.write ConfigField.device.offset (text "TS0000")
  cfg.write ConfigField.domainInfo.offset (text "onsite-monitor.xip.kr")

/-- `LoadConfig`, and what it returns. -/
def loadConfig (behind : Behind) (s : Configuration) : Configuration × Bool :=
  let factory := Configuration.store behind { s with cfg := factoryConfig }
  match flashRead s.page configSize with
  | none => factory
  | some bytes =>
      let cfg : Config := s.cfg.write 0 bytes
      if cfg.get .waterMark ≠ [watermarkValue] then factory else ({ s with cfg }, true)

/-- `InitConfiguration`, and what it returns. -/
def initConfiguration (behind : Behind) (s : Configuration) : Configuration × Bool :=
  loadConfig behind { s with cfg := Block.fill configSize 0 }

/-- The configuration that a page holds. -/
def storedIn (page : FlashPage) : Config where
  cells := page.read 0 configSize
  length_cells := by
    rw [Block.length_read]
    rfl

/-- The configuration that a page gives at the next start. -/
def loadedFrom (page : FlashPage) : Config :=
  if (storedIn page).get .waterMark = [watermarkValue] then storedIn page else factoryConfig

/-! ## What is stored and loaded -/

/-- What is written stands in the page. -/
theorem store_eq (behind : Behind) (s : Configuration) :
    Configuration.store behind s = (⟨s.cfg, programmed (s.cfg.memory behind) 68⟩, true) := by
  have does := flashWrite_eq s.page (s.cfg.memory behind) (show 0 < configSize by decide)
    (by decide)
  rw [Configuration.store, does]
  rfl

theorem length_memory (cfg : Config) (behind : Behind) :
    (cfg.memory behind).length = 272 := by
  rw [Config.memory, List.length_append, cfg.length_cells]
  rfl

theorem cells_storedIn (page : FlashPage) : (storedIn page).cells = page.read 0 configSize := rfl

/-- Of what is programmed word by word, the first words have come into the configuration that is
stored, and the rest of it is erased. -/
theorem cells_storedIn_programmed (cfg : Config) (behind : Behind) {words : ℕ} (all : words ≤ 68) :
    (storedIn (programmed (cfg.memory behind) words)).cells =
      cfg.cells.take (4 * words) ++ List.replicate (configSize - 4 * words) 0xFF := by
  have size : cfg.cells.length = configSize := cfg.length_cells
  have enough : 4 * words ≤ (cfg.memory behind).length := by
    rw [length_memory]
    omega
  have fits : 4 * words ≤ flashPageSize := by
    simp only [flashPageSize]
    omega
  rw [cells_storedIn, read_programmed _ _ _ enough fits (by decide), List.take_take,
    Nat.min_comm, ← List.take_take, Config.memory, List.take_left' size]

theorem storedIn_programmed (cfg : Config) (behind : Behind) :
    storedIn (programmed (cfg.memory behind) 68) = cfg := by
  have whole : cfg.cells.take (4 * 68) = cfg.cells :=
    List.take_of_length_le (by rw [cfg.length_cells]; decide)
  apply Block.ext_cells
  rw [cells_storedIn_programmed cfg behind le_rfl, whole, Nat.sub_eq_zero_of_le (by decide),
    List.replicate_zero, List.append_nil]

/-- `LoadConfig` gives what the page holds, when that has the watermark, and the factory defaults
otherwise, which it writes. -/
theorem loadConfig_eq (behind : Behind) (s : Configuration) :
    loadConfig behind s =
      if (storedIn s.page).get .waterMark = [watermarkValue] then
        ({ s with cfg := storedIn s.page }, true)
      else Configuration.store behind { s with cfg := factoryConfig } := by
  have read : s.cfg.write 0 (s.page.read 0 configSize) = storedIn s.page := by
    apply Block.ext_cells
    exact Block.cells_write_all _ (by rw [Block.length_read]; rfl)
  rw [loadConfig, flashRead_eq s.page (by decide) (by decide)]
  simp only [read, ne_eq, ite_not]

theorem initConfiguration_cfg (behind : Behind) (s : Configuration) :
    (initConfiguration behind s).1.cfg = loadedFrom s.page := by
  rw [initConfiguration, loadConfig_eq, loadedFrom]
  split
  · rfl
  · rw [store_eq]

/-! ## One call -/

/-- The page holds what is in memory. -/
def Mirrors (s : Configuration) : Prop := s.page.read 0 configSize = s.cfg.cells

theorem mirrors_store (behind : Behind) (s : Configuration) :
    Mirrors (Configuration.store behind s).1 := by
  rw [store_eq, Mirrors, ← cells_storedIn, storedIn_programmed]

theorem storedIn_of_mirrors {s : Configuration} (mirrors : Mirrors s) : storedIn s.page = s.cfg :=
  Block.ext_cells mirrors

/-- A field beside another one keeps its bytes when that is written. -/
theorem get_write_beside (cfg : Config) {f g : ConfigField} {bytes : List UInt8}
    (beside : g.offset + g.length ≤ f.offset) :
    Config.get (cfg.write f.offset bytes) g = cfg.get g :=
  Block.read_write_before cfg f.offset bytes g.offset g.length beside

/-- What a call does: nothing, or it stores a configuration, with the watermark that there was
unless it takes that away. -/
inductive Changes (behind : Behind) (s : Configuration) (resets : Bool) : Configuration → Prop where
  | nothing (keeps : resets = false) : Changes behind s resets s
  | stores (cfg : Config)
      (mark : cfg.get .waterMark = if resets then [0xFF] else s.cfg.get .waterMark) :
      Changes behind s resets (Configuration.store behind { s with cfg }).1

theorem setText_changes {f : ConfigField}
    (beside : ConfigField.waterMark.offset + ConfigField.waterMark.length ≤ f.offset)
    (pData : List UInt8) (behind : Behind) (s : Configuration) :
    Changes behind s false (setText f pData behind s).1 := by
  unfold setText
  split
  · refine .stores _ ?_
    rw [if_neg Bool.false_ne_true, get_write_beside _ beside, get_write_beside _ beside]
  · exact .nothing rfl

theorem setNumber_changes {f : ConfigField}
    (beside : ConfigField.waterMark.offset + ConfigField.waterMark.length ≤ f.offset)
    (data : List UInt8) (behind : Behind) (s : Configuration) :
    Changes behind s false (setNumber f data behind s).1 := by
  unfold setNumber
  split
  · refine .stores _ ?_
    rw [if_neg Bool.false_ne_true, get_write_beside _ beside]
  · exact .nothing rfl

/-- A call of the configuration. -/
inductive ConfigCall where
  | setReset
  | setLocalIP (pData : Text 16)
  | setSubnetMask (pData : Text 16)
  | setGatewayIP (pData : Text 16)
  | setDnsServer (pData : Text 16)
  | setTcpPort (data : UInt16)
  | setTcpIP (pData : Text 16)
  | setApPassword (pData : Text 64)
  | setApSSID (pData : Text 32)
  | setDhcpMode (data : UInt8)
  | setMacAddress (pData : Text 18)
  | setDeviceInfo (pData : Text 6)
  | setManufacture (on : UInt8)
  | setDomainConfig (domainOn : UInt8)
  | setDomainInfo (pData : Text 64)

def ConfigCall.run (behind : Behind) (s : Configuration) : ConfigCall → Configuration
  | setReset => WhaleShark.setReset behind s
  | setLocalIP pData => WhaleShark.setLocalIP pData behind s
  | setSubnetMask pData => WhaleShark.setSubnetMask pData behind s
  | setGatewayIP pData => WhaleShark.setGatewayIP pData behind s
  | setDnsServer pData => WhaleShark.setDnsServer pData behind s
  | setTcpPort data => WhaleShark.setTcpPort data behind s
  | setTcpIP pData => WhaleShark.setTcpIP pData behind s
  | setApPassword pData => WhaleShark.setApPassword pData behind s
  | setApSSID pData => WhaleShark.setApSSID pData behind s
  | setDhcpMode data => WhaleShark.setDhcpMode data behind s
  | setMacAddress pData => (WhaleShark.setMacAddress pData behind s).1
  | setDeviceInfo pData => WhaleShark.setDeviceInfo pData behind s
  | setManufacture on => (WhaleShark.setManufacture on behind s).1
  | setDomainConfig domainOn => WhaleShark.setDomainConfig domainOn behind s
  | setDomainInfo pData => WhaleShark.setDomainInfo pData behind s

/-- The call is `SetReset`. -/
def ConfigCall.resets : ConfigCall → Bool
  | setReset => true
  | _ => false

/-- **What each call does.** -/
theorem ConfigCall.run_changes (behind : Behind) (s : Configuration) (call : ConfigCall) :
    Changes behind s call.resets (call.run behind s) := by
  cases call with
  | setReset =>
      refine .stores _ ?_
      exact Block.read_write_self s.cfg 0 [0xFF] (by decide)
  | setLocalIP pData => exact setText_changes (by decide) _ _ _
  | setSubnetMask pData => exact setText_changes (by decide) _ _ _
  | setGatewayIP pData => exact setText_changes (by decide) _ _ _
  | setDnsServer pData => exact setText_changes (by decide) _ _ _
  | setTcpPort data => exact setNumber_changes (by decide) _ _ _
  | setTcpIP pData => exact setText_changes (by decide) _ _ _
  | setApPassword pData => exact setText_changes (by decide) _ _ _
  | setApSSID pData => exact setText_changes (by decide) _ _ _
  | setDhcpMode data => exact setNumber_changes (by decide) _ _ _
  | setMacAddress pData => exact setText_changes (by decide) _ _ _
  | setDeviceInfo pData => exact setText_changes (by decide) _ _ _
  | setManufacture on => exact setNumber_changes (by decide) _ _ _
  | setDomainConfig domainOn => exact setNumber_changes (by decide) _ _ _
  | setDomainInfo pData => exact setText_changes (by decide) _ _ _

/-! ## A run -/

/-- A call, with what then lies behind the configuration in memory. -/
structure ConfigEvent where
  call : ConfigCall
  behind : Behind

def configurationCalls : Machine Configuration ConfigEvent Unit where
  step s e := some (e.call.run e.behind s, ())

abbrev ConfigTransition := Transition Configuration ConfigEvent Unit

/-- `SetReset` was called. -/
def wasReset (past : List ConfigTransition) : Bool := past.any fun τ => τ.event.call.resets

/-- The page holds what is in memory, and a restart gives the same configuration, or the factory
defaults when it was reset. -/
structure FlashMirrors (past : List ConfigTransition) (s : Configuration) : Prop where
  mirrors : Mirrors s
  restarts : ∀ behind ram, (initConfiguration behind ⟨ram, s.page⟩).1.cfg =
    if wasReset past then factoryConfig else s.cfg

/-- The page holds what is in memory, and the watermark is there unless it was taken away. -/
structure Marked (past : List ConfigTransition) (s : Configuration) : Prop where
  mirrors : Mirrors s
  mark : s.cfg.get .waterMark = if wasReset past then [0xFF] else [watermarkValue]

theorem Marked.restarts {past : List ConfigTransition} {s : Configuration} (marked : Marked past s) :
    FlashMirrors past s := by
  refine ⟨marked.mirrors, fun behind ram => ?_⟩
  rw [initConfiguration_cfg, loadedFrom, storedIn_of_mirrors marked.mirrors, marked.mark]
  cases wasReset past with
  | false => rfl
  | true => exact if_neg (by decide)

theorem factoryConfig_mark : factoryConfig.get .waterMark = [watermarkValue] := by decide +kernel

theorem marked_initConfiguration (behind : Behind) (power : Configuration) :
    Marked [] (initConfiguration behind power).1 := by
  rw [initConfiguration, loadConfig_eq]
  split
  · rename_i mark
    exact ⟨rfl, mark⟩
  · refine ⟨mirrors_store behind _, ?_⟩
    rw [store_eq]
    exact factoryConfig_mark

/-- **Flash mirrors the configuration**, in every run of calls after `InitConfiguration`. -/
theorem flash_mirrors {behind : Behind} {power : Configuration} {taken : List ConfigTransition}
    {last : Configuration}
    (run : configurationCalls.Run (initConfiguration behind power).1 taken last) :
    Machine.Throughout FlashMirrors taken last := by
  have along := run.invariant Marked (marked_initConfiguration behind power) ?_
  · exact ⟨along.1.restarts, fun past τ rest split => (along.2 past τ rest split).restarts⟩
  · intro past τ takes before
    obtain ⟨s, e, o, s'⟩ := τ
    have does : e.call.run e.behind s = s' := (Prod.mk.inj (Option.some.inj takes)).1
    have changes : Changes e.behind s e.call.resets s' := does ▸ e.call.run_changes e.behind s
    have marks : wasReset (past ++ [⟨s, e, o, s'⟩]) = (wasReset past || e.call.resets) := by
      simp [wasReset]
    cases changes with
    | nothing keeps =>
        refine ⟨before.mirrors, ?_⟩
        rw [marks, keeps, Bool.or_false]
        exact before.mark
    | stores cfg mark =>
        refine ⟨mirrors_store e.behind _, ?_⟩
        rw [marks, store_eq, mark]
        cases e.call.resets with
        | true => rw [Bool.or_true]; rfl
        | false => rw [Bool.or_false]; exact before.mark

/-- A gateway that was never started. -/
def neverStarted : Configuration := ⟨Block.fill configSize 0, Block.fill flashPageSize 0xFF⟩

/-- `192.168.0.10` -/
def anAddress : Text 16 := ⟨text "192.168.0.10", by decide +kernel⟩

/-- The step that a call takes. -/
def stepOf (s : Configuration) (e : ConfigEvent) : ConfigTransition :=
  ⟨s, e, (), e.call.run e.behind s⟩

theorem takes_stepOf (s : Configuration) (e : ConfigEvent) :
    configurationCalls.Takes (stepOf s e) := rfl

/-- An address is set, and then the configuration is reset: the next start gives the factory
defaults. -/
theorem flash_mirrors_reset : ∃ taken last,
    configurationCalls.Run (initConfiguration (0, 0) neverStarted).1 taken last ∧
      taken.map (fun τ => τ.event.call) = [.setLocalIP anAddress, .setReset] ∧
      Machine.Throughout FlashMirrors taken last ∧
      (initConfiguration (0, 0) last).1.cfg = factoryConfig := by
  have first := takes_stepOf (initConfiguration (0, 0) neverStarted).1
    ⟨.setLocalIP anAddress, (0, 0)⟩
  have run := (Machine.Run.single first).append (.single (takes_stepOf _ ⟨.setReset, (0, 0)⟩))
  have mirrors := flash_mirrors run
  refine ⟨_, _, run, rfl, mirrors, ?_⟩
  rw [mirrors.1.restarts, if_pos (by decide)]

end WhaleShark
