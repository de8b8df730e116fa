import WhaleShark.Gateway.Prompts
import WhaleShark.Gateway.WifiRuns

/-!
# Static addresses

With DHCP disabled the manager asks the module for its addresses, and each report of one is compared
with the configured one: where they differ a mark is put into the data of the message, and at a
mark the manager sets the addresses anew. The comparison is made only behind another one, of the
report's value with a name: `ip`, `gateway` or `netmask` together with the `NUL` behind it
(`sizeof`). In a report the name is followed by a colon, so it is never the value, nothing is
compared, and no mark is put (`compareLocalInfo_of_colon`).

So the manager connects whatever is reported, unless a mark stands there from before; it does what
the configuration asks for exactly when the addresses agree, or when they differ and a mark was left
(`addresses_are_applied_iff`).
-/

set_option autoImplicit false

namespace WhaleShark

open Foundations Network

namespace Network

/-! ## The reports of the addresses -/

/-- The addresses of the module, as it reports them. -/
structure LocalAddresses where
  localIp : List UInt8
  gatewayIp : List UInt8
  subnetMask : List UInt8

/-- An address in digits and dots. -/
structure IsAddress (address : List UInt8) : Prop where
  short : address.length ≤ 15
  digits : ∀ b ∈ address, isDigit b = true ∨ b = 0x2E

instance (address : List UInt8) : Decidable (IsAddress address) :=
  decidable_of_iff (address.length ≤ 15 ∧ (address.all fun b => isDigit b || b == 0x2E) = true)
    ⟨fun both => ⟨both.1, by simpa using both.2⟩,
      fun proper => ⟨proper.short, by simpa using proper.digits⟩⟩

structure LocalAddresses.Proper (reported : LocalAddresses) : Prop where
  localIp : IsAddress reported.localIp
  gatewayIp : IsAddress reported.gatewayIp
  subnetMask : IsAddress reported.subnetMask

/-- What follows the plus sign of a report: the name of the report, the name of an address, and the
address. -/
def addressReport (name address : List UInt8) : List UInt8 :=
  szCli .getLocalInfo ++ name ++ text ":\"" ++ address ++ text "\""

/-- The lines that answer the query of the addresses. -/
def localInfoLines (reported : LocalAddresses) : List (List UInt8) :=
  [0x2B :: addressReport (text "ip") reported.localIp,
    0x2B :: addressReport (text "gateway") reported.gatewayIp,
    0x2B :: addressReport (text "netmask") reported.subnetMask, text "OK"]

/-- Each line comes in a read of its own. -/
def localInfoReads (reported : LocalAddresses) : List (List UInt8) :=
  (localInfoLines reported).map fun line => line ++ [cr, lf]

/-- What is reported is what is configured. -/
structure Configured (set : CommandSettings) (reported : LocalAddresses) : Prop where
  localIp : reported.localIp = cString set.localIp
  gatewayIp : reported.gatewayIp = cString set.gatewayIp
  subnetMask : reported.subnetMask = cString set.subnetMask

instance (set : CommandSettings) (reported : LocalAddresses) :
    Decidable (Configured set reported) :=
  decidable_of_iff (reported.localIp = cString set.localIp ∧
      reported.gatewayIp = cString set.gatewayIp ∧ reported.subnetMask = cString set.subnetMask)
    ⟨fun ⟨localIp, gatewayIp, subnetMask⟩ => ⟨localIp, gatewayIp, subnetMask⟩,
      fun ⟨localIp, gatewayIp, subnetMask⟩ => ⟨localIp, gatewayIp, subnetMask⟩⟩

/-- A mark that an address is to be changed stands in the data. -/
def ChangeMarked (data : Block UInt8 128) : Prop :=
  byteAt data.cells localIpIndex = changeLocalInfo ∨
    byteAt data.cells gatewayIpIndex = changeLocalInfo ∨
    byteAt data.cells netmaskIpIndex = changeLocalInfo

instance (data : Block UInt8 128) : Decidable (ChangeMarked data) :=
  inferInstanceAs (Decidable (_ ∨ _ ∨ _))

/-! ## No report is compared -/

/-- A value with a colon in it is none of the names, so nothing is noted. -/
theorem compareLocalInfo_of_colon (set : CommandSettings) (data : Block UInt8 128)
    {value : List UInt8} (colon : (0x3A : UInt8) ∈ cString value) :
    compareLocalInfo set data value = data := by
  have plain : ∀ name ∈ [text "ip", text "gateway", text "netmask"],
      (∀ b ∈ name, b ≠ 0) ∧ (0x3A : UInt8) ∉ name := by
    decide +kernel
  have other (name : List UInt8) (own : name ∈ [text "ip", text "gateway", text "netmask"]) :
      ¬ rtStrncmp name value (name.length + 1) = 0 := by
    obtain ⟨noNul, noColon⟩ := plain name own
    rw [rtStrncmp_name_eq_zero_iff noNul]
    rintro rfl
    exact noColon colon
  simp only [compareLocalInfo, other (text "ip") (by simp), other (text "gateway") (by simp),
    other (text "netmask") (by simp), false_and, if_false]

/-- While `data` is empty as a string nothing is copied into it. -/
theorem copyValue_of_empty {info : NetworkInfoData} (empty : byteAt info.data.cells 0 = 0)
    (value : List UInt8) : copyValue info value = info := by
  have string : cString info.data.cells = [] :=
    (cString_eq_iff (v := []) (by simp) _).mpr ⟨List.nil_prefix, empty⟩
  rw [copyValue, rtStrlen, string, List.length_nil, List.take_zero, Block.write_nil]

/-! ## The name of a report -/

/-- Of the names that tell reports apart none begins another one. -/
theorem szCli_prefix_free : ∀ a ∈ WifiCommandId.receiveData :: ownReports,
    ∀ b ∈ WifiCommandId.receiveData :: ownReports, szCli a <+: szCli b → a = b := by
  decide +kernel

/-- The report that a line begins with is the only one. -/
theorem reportOf_of_prefix {id : WifiCommandId} (own : id ∈ WifiCommandId.receiveData :: ownReports)
    {rest : List UInt8} (begins : szCli id <+: rest) : reportOf rest = some id := by
  have some_ : (reportOf rest).isSome := by
    rw [reportOf, List.find?_isSome]
    exact ⟨id, own, by simpa using begins⟩
  obtain ⟨other, found⟩ := Option.isSome_iff_exists.mp some_
  obtain ⟨member, begins'⟩ := mem_of_reportOf found
  rw [found]
  rcases List.prefix_or_prefix_of_prefix begins begins' with one | two
  · rw [szCli_prefix_free id own other member one]
  · rw [szCli_prefix_free other member id own two]

/-- The value of a report of an address begins with the name of the address and a colon. -/
theorem behindColon_addressReport (name address more : List UInt8) :
    behindColon (addressReport name address ++ more) =
      name ++ text ":\"" ++ (address ++ text "\"" ++ more) := by
  have first : szCli .getLocalInfo = text "CIPSTA_DEF" ++ [0x3A] := by decide +kernel
  have regroup : addressReport name address ++ more =
      text "CIPSTA_DEF" ++ 0x3A :: (name ++ text ":\"" ++ (address ++ text "\"" ++ more)) := by
    rw [addressReport, first]
    simp
  rw [regroup, behindColon, dropWhile_ne (by decide +kernel)]
  rfl

theorem reportOf_addressReport (name address : List UInt8) :
    reportOf (addressReport name address) = some .getLocalInfo := by
  apply reportOf_of_prefix (by simp [ownReports])
  simp only [addressReport, List.append_assoc]
  exact List.prefix_append _ _

theorem suits_addressReport (name address : List UInt8) : Suits 11 (addressReport name address) := by
  have long : tellingLen .getLocalInfo ≤ UInt8.toNat 11 := by decide
  have short : UInt8.toNat 11 ≤ (szCli .getLocalInfo).length := by decide +kernel
  simp only [Suits, reportOf_addressReport]
  exact ⟨long, short⟩

section AddressReport

variable {name address : List UInt8}
  (named : name ∈ [text "ip", text "gateway", text "netmask"]) (proper : IsAddress address)

include named proper

theorem length_addressReport : (addressReport name address).length ≤ 36 := by
  have short := proper.short
  have names : ∀ name ∈ [text "ip", text "gateway", text "netmask"],
      (szCli .getLocalInfo ++ name ++ text ":\"").length + 16 ≤ 36 := by
    decide +kernel
  have quote_ : (text "\"").length = 1 := by decide +kernel
  have own := names name named
  rw [addressReport, List.length_append, List.length_append, quote_]
  omega

/-- No byte of a report of an address means anything but itself. -/
theorem plain_addressReport : ∀ b ∈ addressReport name address, b ≠ 0 ∧ b ≠ cr ∧ b ≠ 0x3E := by
  have names : ∀ name ∈ [text "ip", text "gateway", text "netmask"],
      ∀ b ∈ szCli .getLocalInfo ++ name ++ text ":\"" ++ text "\"",
        b ≠ 0 ∧ b ≠ cr ∧ b ≠ 0x3E := by
    decide +kernel
  intro b member
  simp only [addressReport, List.mem_append] at member
  rcases member with (front | inside) | quote_
  · apply names name named
    simp only [List.mem_append]
    exact .inl front
  · rcases proper.digits b inside with digit | dot
    · refine ⟨?_, ?_, ?_⟩ <;>
      · rintro rfl
        revert digit
        decide
    · rw [dot]
      decide
  · apply names name named
    exact List.mem_append_right _ quote_

end AddressReport

/-! ## What a line decides -/

section Decide

variable {env : Surroundings} {s : Scan} {begin_ end_ : ℕ} {rest more : List UInt8}

/-- A line behind a plus sign is a report. -/
theorem decideLine_report (end_ : ℕ)
    (mem : (rxMemory env s.wifi).drop begin_ = 0x2B :: rest ++ cr :: lf :: more) :
    (decideLine env s begin_ end_).wifi = (parseReport env s.wifi (begin_ + 1) end_).1 := by
  have heads : ∀ t ∈ [text "OK", text "ERROR", text "FAIL", text "SEND OK", text "SEND FAIL"],
      byteAt t 0 ≠ 0x2B := by
    decide +kernel
  have other {t : List UInt8} {count : ℕ} (some_ : 0 < count)
      (own : t ∈ [text "OK", text "ERROR", text "FAIL", text "SEND OK", text "SEND FAIL"]) :
      ¬ rtStrncmp t (0x2B :: rest ++ cr :: lf :: more) count = 0 :=
    rtStrncmp_ne_zero_of_head some_ (heads t own)
  have plus : byteAt (0x2B :: rest ++ cr :: lf :: more) 0 = 0x2B := rfl
  simp only [decideLine, mem]
  rw [if_neg (other (by decide) (by simp)), if_neg (other (by decide) (by simp)),
    if_neg (other (by decide) (by simp)), if_neg (other (by decide) (by simp)),
    if_neg (other (by decide) (by simp)), if_pos plus]

theorem decideLine_ok (end_ : ℕ)
    (mem : (rxMemory env s.wifi).drop begin_ = text "OK" ++ more) :
    (decideLine env s begin_ end_).wifi = (s.respond .ok .ok).wifi := by
  have noNul : ∀ b ∈ text "OK", b ≠ 0 := by decide +kernel
  have same : rtStrncmp (text "OK") (text "OK" ++ more) 2 = 0 :=
    (rtStrncmp_text_eq_zero_iff noNul _).mpr (List.prefix_append _ _)
  simp only [decideLine, mem, same, if_true]

/-- **A report of an address** leaves the data as it is. -/
theorem parseReport_address {w : WifiInfo} {name address : List UInt8}
    (mem : (rxMemory env w).drop begin_ = addressReport name address ++ cr :: lf :: more)
    (ends : end_ = begin_ + (addressReport name address).length + 1) (inside : end_ < wifiRxBuff)
    (short : (addressReport name address).length < 254)
    (plain : ∀ b ∈ addressReport name address, b ≠ 0)
    (responseLen : w.responseLen = 11) (empty : byteAt w.networkInfoData.data.cells 0 = 0) :
    (parseReport env w begin_ end_).1.networkInfoData =
        { w.networkInfoData with networkStatus := .getLocalInfo } ∧
      (parseReport env w begin_ end_).1.responseLen = 11 := by
  have suits : Suits w.responseLen (addressReport name address) := by
    rw [responseLen]
    exact suits_addressReport name address
  have value : (addressReport name address ++ cr :: 0 :: more).drop
      (findValue (addressReport name address ++ cr :: 0 :: more)) =
        behindColon (addressReport name address ++ [cr]) ++ 0 :: more := by
    have regroup : addressReport name address ++ cr :: 0 :: more =
        (addressReport name address ++ [cr]) ++ 0 :: more := by simp
    rw [regroup]
    apply drop_findValue
    · intro nul
      rcases List.mem_append.mp nul with inside | behind
      · exact plain 0 inside rfl
      · exact absurd behind (by decide)
    · rw [List.length_append, List.length_singleton]
      omega
  have colon : (0x3A : UInt8) ∈ cString (behindColon (addressReport name address ++ [cr]) ++
      0 :: more) := by
    rw [behindColon_addressReport, List.append_assoc]
    refine (prefix_cString_iff ?_ _).mpr (List.prefix_append _ _) |>.subset ?_
    · intro b member
      have whole : addressReport name address =
          szCli .getLocalInfo ++ (name ++ text ":\"") ++ (address ++ text "\"") := by
        simp only [addressReport, List.append_assoc]
      apply plain
      rw [whole]
      exact List.mem_append_left _ (List.mem_append_right _ member)
    · exact List.mem_append_right _ (by decide +kernel)
  rw [parseReport_own mem ends inside short suits (reportOf_addressReport name address),
    value]
  simp only [takeReport, copyValue_of_empty empty, compareLocalInfo_of_colon _ _ colon]
  exact ⟨trivial, responseLen⟩

end Decide

/-! ## The byte at address zero -/

theorem Moves.ne_setSendDataLength {a b : NetworkStatus} (moves : Moves a b)
    (other : a ≠ .setSendDataLength) : b ≠ .setSendDataLength := by
  cases moves with
  | same => exact other
  | reports said =>
      rintro rfl
      simp [reported] at said
  | prompted => exact absurd rfl other

theorem parseStep_atNull (env : Surroundings) (b : UInt8) {s : Scan}
    (other : s.wifi.networkInfoData.networkStatus ≠ .setSendDataLength) (end_ : ℕ) :
    parseStep { env with atNull := b } s end_ = parseStep env s end_ := by
  cases begun : s.begin_ with
  | none =>
      rw [parseStep_of_none _ begun, parseStep_of_none _ begun]
      simp only [other, and_false, if_false]
      rfl
  | some begin_ =>
      rw [parseStep_of_some _ begun, parseStep_of_some _ begun]
      rfl

/-- It is looked at only where a prompt is awaited. -/
theorem parserWifiData_atNull (env : Surroundings) (b : UInt8) {w : WifiInfo}
    (other : w.networkInfoData.networkStatus ≠ .setSendDataLength) (rxSize : ℕ) :
    parserWifiData { env with atNull := b } w rxSize = parserWifiData env w rxSize := by
  have walk : ∀ (positions : List ℕ) (s : Scan),
      s.wifi.networkInfoData.networkStatus ≠ .setSendDataLength →
        positions.foldl (parseStep { env with atNull := b }) s =
          positions.foldl (parseStep env) s := by
    intro positions
    induction positions with
    | nil => exact fun _ _ => rfl
    | cons position positions ih =>
        intro s other
        rw [List.foldl_cons, List.foldl_cons, parseStep_atNull env b other]
        have moves : Tells s.wifi (parseStep env s position).wifi :=
          parseStep_related Tells.refl (decideLine_tells env)
            (fun s asked => ⟨rfl, asked ▸ .prompted⟩) s position
        exact ih _ (moves.status.ne_setSendDataLength other)
  simp only [parserWifiData]
  split_ifs
  · rfl
  · exact walk _ _ other

/-! ## A line in a read of its own -/

/-- A whole line is read behind bytes with which nothing begins. -/
structure ReadsLine (t : WifiThread) (line : List UInt8) : Prop where
  quiet : fromAnswer t.held = []
  room : t.uRemain + (line.length + 2) < wifiRxBuff
  proper : Proper line
  begins : beginsAnswer (byteAt line 0) = true
  suits : byteAt line 0 = 0x2B → Suits t.wifi.responseLen line.tail
  notAsked : t.wifi.networkInfoData.networkStatus ≠ .setSendDataLength

/-- At the `LF` of the line. -/
def WifiThread.atLine (t : WifiThread) (line : List UInt8) : Scan :=
  ⟨t.filled (line ++ [cr, lf]), some t.uRemain, 0, []⟩

/-- The decision about the line. -/
def WifiThread.decided (env : Surroundings) (t : WifiThread) (line : List UInt8) : Scan :=
  decideLine env (t.atLine line) t.uRemain (t.uRemain + line.length + 1)

/-- What is left behind a line: one byte, with which nothing begins, and what was decided. -/
structure LineRead (env : Surroundings) (t t' : WifiThread) (line : List UInt8) : Prop where
  quiet : fromAnswer t'.held = []
  uRemain : t'.uRemain = 1
  doing : t'.doing = t.doing
  event : t'.event = t.event
  calling : t'.calling = t.calling
  line_ : ∃ more, (rxMemory env (t.filled (line ++ [cr, lf]))).drop t.uRemain =
    line ++ cr :: lf :: more
  networkInfoData : t'.wifi.networkInfoData = (t.decided env line).wifi.networkInfoData
  responseLen : t'.wifi.responseLen = (t.decided env line).wifi.responseLen

/-- **A line in a read of its own is decided**, and all of it is consumed but its `LF`. -/
theorem lineRead {env : Surroundings} {t : WifiThread} {line : List UInt8}
    (reads : ReadsLine t line) :
    LineRead env t (readBytes env t (line ++ [cr, lf])).1 line := by
  obtain ⟨quiet, room, proper, begins, suits, notAsked⟩ := reads
  have size : (line ++ [cr, lf]).length = line.length + 2 := by simp
  have parsed := parserWifiData_atNull env 0 (w := t.filled (line ++ [cr, lf])) notAsked
    (t.uRemain + (line ++ [cr, lf]).length)
  have same : readBytes env t (line ++ [cr, lf]) =
      readBytes { env with atNull := 0 } t (line ++ [cr, lf]) := by
    simp only [readBytes, parsed]
  have held : t.held.length = t.uRemain := length_held t (by omega)
  have noBeginning : ∀ q ∈ t.held, beginsAnswer q = false := by
    intro q member
    simpa using List.dropWhile_eq_nil_iff.mp quiet q member
  obtain ⟨a, rest, rfl⟩ : ∃ a rest, line = a :: rest := by
    cases line with
    | nil => exact absurd begins (by decide)
    | cons a rest => exact ⟨a, rest, rfl⟩
  have found : splitLine cr lf (fromAnswer (t.held ++ (a :: rest ++ [cr, lf]))) =
      some (a :: rest, []) := by
    have begun : fromAnswer (a :: rest ++ [cr, lf]) = a :: rest ++ [cr, lf] := by
      have first : beginsAnswer a = true := begins
      simp [fromBeginning, first]
    rw [fromAnswer, fromBeginning_append_of_quiet quiet, ← fromAnswer, begun]
    exact splitLine_append (by decide) [] proper.unbroken
  have separate : Separate t (a :: rest ++ [cr, lf]) := by
    refine ⟨by omega, ?_, ?_, ?_⟩
    · rw [found]
      rintro _ ⟨rfl⟩
      rfl
    · rw [found]
      rintro _ ⟨rfl⟩
      exact suits
    · intro ends
      have last : t.held ++ (a :: rest ++ [cr, lf]) = (t.held ++ (a :: rest ++ [cr])) ++ [lf] := by
        simp
      rw [last, List.getLast?_concat] at ends
      exact absurd ends (by decide)
  have noPrompt : (0x3E : UInt8) ∉ t.held ++ (a :: rest ++ [cr, lf]) := by
    have own := proper.noPrompt
    have ending : (0x3E : UInt8) ∉ [cr, lf] := by decide
    rw [List.mem_append, List.mem_append, not_or, not_or]
    exact ⟨noPrompt_of_quiet quiet, own, ending⟩
  have notNull : ({ env with atNull := 0 } : Surroundings).atNull ≠ 0x3E :=
    (by decide : (0 : UInt8) ≠ 0x3E)
  obtain ⟨count, looks⟩ := looks_of_separate notNull separate (by simp) noPrompt
  obtain ⟨-, feed, quietFeed, kept⟩ :=
    readBytes_line notNull separate (by simp) noPrompt found proper.short
  have decided := parserWifiData_eq_decideLine looks noBeginning begins proper.unbroken unbroken_nil
    proper.short suits
  rw [count, parsed, held] at decided
  obtain ⟨more, memory⟩ := looks.memory
  refine ⟨?_, ?_, rfl, rfl, rfl, ⟨more, ?_⟩, ?_, ?_⟩
  · rw [same, kept]
    simp [fromBeginning, quietFeed]
  · simp only [readBytes, decided]
    simp only [decideLine, size]
    omega
  · rw [← held]
    have own : rxMemory env (t.filled (a :: rest ++ [cr, lf])) =
        t.held ++ (a :: rest ++ [cr, lf]) ++ more := memory
    rw [own, List.append_assoc, List.drop_left]
    simp
  · simp only [readBytes, decided]
    rfl
  · simp only [readBytes, decided]
    rfl

end Network

/-! ## What stands behind some events -/

/-- What the manager does about the message that it takes at the end of these events. -/
def reactionBehind (site : Site) (g : Gateway) (events : List GatewayEvent) : Option Reaction :=
  ((gateway site).exec g events).bind fun done => done.1.getLast?.bind (reactionIn site)

theorem reactionBehind_cons {site : Site} {g g' : Gateway} {e : GatewayEvent} {o : Unit}
    (step : (gateway site).step g e = some (g', o)) {events : List GatewayEvent}
    (more : events ≠ []) :
    reactionBehind site g (e :: events) = reactionBehind site g' events := by
  simp only [reactionBehind, Machine.exec, step]
  cases executed : (gateway site).exec g' events with
  | none => rfl
  | some done =>
      obtain ⟨taken, last⟩ := done
      have some_ : taken ≠ [] := by
        rintro rfl
        exact more (Machine.events_of_exec executed).symm
      obtain ⟨τ, rest, rfl⟩ := List.exists_cons_of_ne_nil some_
      simp

/-- Nothing is queued, and the Wi-Fi thread is as told. -/
structure Idles (g : Gateway) (t : WifiThread) : Prop where
  runs : g.rebooted = false
  queue : g.networkManagerMq.items = []
  wifi : g.wifi = t

/-- **Steps of the thread** that post nothing. -/
theorem Idles.wifi_steps {site : Site} {es : List WifiEvent} :
    ∀ {g : Gateway} {t t' : WifiThread} {taken : List WifiTransition}, Idles g t →
      (wifiThread site.toSurroundings).exec t es = some (taken, t') →
      (∀ e ∈ es, (∀ w, postedBy w e = none) ∧ ∀ call, e ≠ .store call) →
      ∀ events : List GatewayEvent, events ≠ [] →
        ∃ g', Idles g' t' ∧
          reactionBehind site g (es.map .wifi ++ events) = reactionBehind site g' events := by
  induction es with
  | nil =>
      intro g t t' taken idles executed _ events _
      cases executed
      exact ⟨g, idles, rfl⟩
  | cons e es ih =>
      intro g t t' taken idles executed silent events more
      simp only [Machine.exec] at executed
      cases stepped : (wifiThread site.toSurroundings).step t e with
      | none => simp [stepped] at executed
      | some next =>
          obtain ⟨t₁, output⟩ := next
          cases rest : (wifiThread site.toSurroundings).exec t₁ es with
          | none => simp [stepped, rest] at executed
          | some result =>
              obtain ⟨later, last⟩ := result
              simp only [stepped, rest, Option.some.injEq, Prod.mk.injEq] at executed
              obtain ⟨rfl, rfl⟩ := executed
              obtain ⟨nothing, notStore⟩ := silent e List.mem_cons_self
              have quiet_ : ∀ message, output ≠ .message message := by
                intro message posted
                have some_ := (postedBy_iff (wifiThread_cases stepped) message).mpr posted
                rw [nothing] at some_
                cases some_
              have step : (gateway site).step g (.wifi e) =
                  some (g.behindWifi e t₁ output, ()) := by
                cases e with
                | store call => exact absurd rfl (notStore call)
                | _ => simp only [gateway, idles.runs, idles.wifi, stepped]; rfl
              have queue := Gateway.networkManagerMq_behindWifi g e t₁ quiet_
              have behind : Idles (g.behindWifi e t₁ output) t₁ := by
                refine ⟨?_, queue ▸ idles.queue, Gateway.wifi_behindWifi g e t₁ output⟩
                cases output with
                | message message => exact absurd rfl (quiet_ message)
                | _ => exact idles.runs
              obtain ⟨g', reached, same⟩ := ih behind rest
                (fun e member => silent e (List.mem_cons_of_mem _ member)) events more
              refine ⟨g', reached, ?_⟩
              rw [List.map_cons, List.cons_append, reactionBehind_cons step (by simp [more]), same]

/-- The message that the thread posts for `RESPONSE_WIFI_OK`. -/
def okMessage (w : WifiInfo) : MqData :=
  ⟨.wifiOk, sizeofData, .networkInfo { w.networkInfoData with response := .responseMax }⟩

theorem reactionBehind_handle {site : Site} {g : Gateway} (runs : g.rebooted = false)
    (noCall : g.wifi.calling = false) {message : MqData}
    (queue : g.networkManagerMq.items = [message]) :
    reactionBehind site g [.handle] = some (g.reactionTo site message) := by
  obtain ⟨rest, popped⟩ : ∃ rest, g.networkManagerMq.pop = some (message, rest) := by
    generalize g.networkManagerMq = fifo at queue
    obtain ⟨items, bound⟩ := fifo
    cases queue
    exact ⟨_, rfl⟩
  have step : (gateway site).step g .handle =
      some (Gateway.handle site { g with networkManagerMq := rest } message, ()) := by
    simp only [gateway, runs, noCall, popped]
    rfl
  simp only [reactionBehind, Machine.exec, step, Option.bind_some, List.getLast?_singleton]
  exact reactionIn_handle site popped

/-- **The response is posted and handled.** -/
theorem Idles.answered (site : Site) {g : Gateway} {t : WifiThread} (idles : Idles g t)
    (reading : t.doing = .reading) (noCall : t.calling = false)
    (ok : t.wifi.networkInfoData.response = .ok) :
    reactionBehind site g [.wifi (.read []), .handle] =
      some (.toOk t.wifi.networkInfoData.networkStatus t.wifi.networkInfoData.data.cells
        g.getTcpStatus) := by
  obtain ⟨t', same, posted⟩ : ∃ t' : WifiThread, t'.calling = t.calling ∧
      (gateway site).step g (.wifi (.read [])) =
        some (g.behindWifi (.read []) t' (.message (okMessage t.wifi)), ()) := by
    refine ⟨{ t with wifi := (postResponse t.wifi).1, doing := .asking }, rfl, ?_⟩
    have response : postResponse t.wifi =
        ({ t.wifi with
            wifiTimeoutTimer := false
            networkInfoData := { t.wifi.networkInfoData with response := .responseMax }
            mqData := okMessage t.wifi }, .message (okMessage t.wifi)) := by
      simp only [postResponse, ok, responseMessage]
      rfl
    simp only [gateway, idles.runs, idles.wifi, wifiThread, reading, response]
    rfl
  have items := Gateway.items_behindWifi g (.read []) t' (okMessage t.wifi)
  rw [idles.queue, if_pos (by decide), List.nil_append] at items
  have wifi := Gateway.wifi_behindWifi g (.read []) t' (.message (okMessage t.wifi))
  have others : (g.behindWifi (.read []) t' (.message (okMessage t.wifi))).rebooted = false ∧
      (g.behindWifi (.read []) t' (.message (okMessage t.wifi))).getTcpStatus =
        g.getTcpStatus := by
    rw [Gateway.behindWifi, Gateway.networkMangerSendMessage]
    split <;> exact ⟨idles.runs, rfl⟩
  rw [reactionBehind_cons posted (by simp),
    reactionBehind_handle others.1 (by rw [wifi, same, noCall]) items, Gateway.reactionTo,
    others.2]
  rfl

/-! ## The query of the addresses -/

/-- The manager waits for messages and the Wi-Fi thread for events, nothing that has begun is held,
there is room for a line, and DHCP is disabled, as `CMD_GET_AP_INFO` has noted in the data. -/
structure AtRest (g : Gateway) : Prop where
  runs : g.rebooted = false
  queue : g.networkManagerMq.items = []
  asking : g.wifi.doing = .asking
  noEvent : g.wifi.event = .empty
  quiet : fromAnswer g.wifi.held = []
  room : g.wifi.uRemain + 64 < wifiRxBuff
  disabled : byteAt g.wifi.wifi.networkInfoData.data.cells dhcpModeInfo = 0

/-- The thread reads the answer. -/
structure Listens (data : Block UInt8 128) (t : WifiThread) : Prop where
  reading : t.doing = .reading
  noCall : t.calling = false
  quiet : fromAnswer t.held = []
  room : t.uRemain + 64 < wifiRxBuff
  responseLen : t.wifi.responseLen = 11
  notAsked : t.wifi.networkInfoData.networkStatus ≠ .setSendDataLength
  data_ : t.wifi.networkInfoData.data = data

/-- A command that is stored is transmitted, and the thread begins to read. -/
theorem transmits_command (env : Surroundings) {t : WifiThread} (stored : t.calling = true)
    (noEvent : t.event = .empty) (asking : t.doing = .asking) (room : t.uRemain < wifiRxBuff) :
    ∃ taken, (wifiThread env).exec t [.post, .recv, .act, .finish, .indicate, .recv, .act] =
      some (taken, { t with
        wifi := { t.wifi with wifiTimeoutTimer := true, tx := { t.wifi.tx with txLen := 0 } }
        event := .empty
        calling := false
        doing := .reading }) := by
  obtain ⟨wifi, uRemain, event, calling, doing⟩ := t
  cases stored
  cases noEvent
  cases asking
  have notFull : ¬ wifiRxBuff ≤ uRemain := Nat.not_le.mpr room
  have reached : ((wifiThread env).exec ⟨wifi, uRemain, .empty, true, .asking⟩
      [.post, .recv, .act, .finish, .indicate, .recv, .act]).map Prod.snd =
        some ⟨{ wifi with wifiTimeoutTimer := true, tx := { wifi.tx with txLen := 0 } }, uRemain,
          .empty, false, .reading⟩ := by
    simp [Machine.exec, wifiThread, rtEventSend, rtEventRecv, EventSet.empty, notFull]
  obtain ⟨⟨taken, _⟩, executed, rfl⟩ := Option.map_eq_some_iff.mp reached
  exact ⟨taken, executed⟩

/-- **The query is transmitted**, and the thread begins to read. -/
theorem AtRest.transmits {g : Gateway} (rest : AtRest g) (site : Site) :
    ∃ taken t, (wifiThread site.toSurroundings).exec (g.sendWifiCommand site .queryLocalInfo).wifi
        [.post, .recv, .act, .finish, .indicate, .recv, .act] = some (taken, t) ∧
      Listens g.wifi.wifi.networkInfoData.data t := by
  have room := rest.room
  have responseLen : (((Call.sendWifiCommand .queryLocalInfo).responseLen.map Nat.toUInt8).getD
      g.wifi.wifi.responseLen) = 11 := by
    have own : (Call.sendWifiCommand .queryLocalInfo).responseLen = some 11 := by decide +kernel
    rw [own]
    rfl
  obtain ⟨taken, executed⟩ := transmits_command site.toSurroundings
    (t := (g.sendWifiCommand site .queryLocalInfo).wifi) rfl rest.noEvent rest.asking
    (Nat.lt_of_le_of_lt (Nat.le_add_right _ 64) room)
  refine ⟨taken, _, executed, rfl, rfl, rest.quiet, rest.room, responseLen, ?_, rfl⟩
  intro asked
  cases asked

/-- A read of a line. -/
theorem Idles.read (site : Site) {g : Gateway} {t : WifiThread} (idles : Idles g t)
    (reading : t.doing = .reading) {line : List UInt8} (reads : ReadsLine t line)
    {events : List GatewayEvent} (more : events ≠ []) :
    ∃ g', Idles g' (readBytes site.toSurroundings t (line ++ [cr, lf])).1 ∧
      reactionBehind site g (.wifi (.read (line ++ [cr, lf])) :: events) =
        reactionBehind site g' events := by
  have size : (line ++ [cr, lf]).length = line.length + 2 := by simp
  have room := reads.room
  have step : (wifiThread site.toSurroundings).step t (.read (line ++ [cr, lf])) =
      some ((readBytes site.toSurroundings t (line ++ [cr, lf])).1,
        .answers (readBytes site.toSurroundings t (line ++ [cr, lf])).2) := by
    simp only [wifiThread]
    rw [if_pos ⟨reading, by omega⟩, if_neg (by simp)]
  have executed : (wifiThread site.toSurroundings).exec t [.read (line ++ [cr, lf])] =
      some ([⟨t, .read (line ++ [cr, lf]),
        .answers (readBytes site.toSurroundings t (line ++ [cr, lf])).2,
        (readBytes site.toSurroundings t (line ++ [cr, lf])).1⟩],
        (readBytes site.toSurroundings t (line ++ [cr, lf])).1) := by
    simp only [Machine.exec, step]
  refine idles.wifi_steps executed ?_ events more
  intro e member
  rw [List.mem_singleton.mp member]
  cases line <;> simp [postedBy]

/-- **A report is read**, and the data stays as it is. -/
theorem Listens.report (env : Surroundings) {data : Block UInt8 128} {t : WifiThread}
    (listens : Listens data t) (empty : byteAt data.cells 0 = 0) {name address : List UInt8}
    (named : name ∈ [text "ip", text "gateway", text "netmask"]) (proper : IsAddress address) :
    ReadsLine t (0x2B :: addressReport name address) ∧
      Listens data (readBytes env t (0x2B :: addressReport name address ++ [cr, lf])).1 ∧
      (readBytes env t
        (0x2B :: addressReport name address ++ [cr, lf])).1.wifi.networkInfoData.networkStatus =
          .getLocalInfo := by
  have room := listens.room
  have length := length_addressReport named proper
  have plain := plain_addressReport named proper
  have reads : ReadsLine t (0x2B :: addressReport name address) := by
    refine ⟨listens.quiet, ?_, ⟨?_, ?_, ?_⟩, (by decide : beginsAnswer 0x2B = true), ?_,
      listens.notAsked⟩
    · rw [List.length_cons]
      omega
    · rw [List.length_cons]
      omega
    · intro broken
      rcases List.mem_cons.mp (broken.subset (List.mem_cons_self : cr ∈ [cr, lf])) with first | later
      · exact absurd first (by decide)
      · exact (plain cr later).2.1 rfl
    · intro prompt
      rcases List.mem_cons.mp prompt with first | later
      · exact absurd first (by decide)
      · exact (plain _ later).2.2 rfl
    · intro _
      rw [listens.responseLen]
      exact suits_addressReport name address
  have read : LineRead env t _ _ := lineRead reads
  obtain ⟨more, mem⟩ := read.line_
  have wifi := decideLine_report (s := t.atLine (0x2B :: addressReport name address))
    (t.uRemain + (0x2B :: addressReport name address).length + 1) mem
  have behind : (rxMemory env (t.filled (0x2B :: addressReport name address ++ [cr, lf]))).drop
      (t.uRemain + 1) = addressReport name address ++ cr :: lf :: more := by
    rw [← List.drop_drop, mem]
    rfl
  have ends : t.uRemain + (0x2B :: addressReport name address).length + 1 =
      t.uRemain + 1 + (addressReport name address).length + 1 := by
    rw [List.length_cons]
    omega
  obtain ⟨info, kept⟩ := parseReport_address behind ends (by rw [List.length_cons]; omega)
    (by omega) (fun b member => (plain b member).1) listens.responseLen
    (by rw [← listens.data_] at empty; exact empty)
  have told := read.networkInfoData.trans ((congrArg WifiInfo.networkInfoData wifi).trans info)
  refine ⟨reads, ⟨read.doing.trans listens.reading, read.calling.trans listens.noCall, read.quiet,
    ?_, read.responseLen.trans ((congrArg WifiInfo.responseLen wifi).trans kept), ?_, ?_⟩, ?_⟩
  · rw [read.uRemain]
    decide
  · rw [told]
    simp
  · rw [told]
    exact listens.data_
  · rw [told]

/-- **The `OK` is read.** -/
theorem Listens.ok (env : Surroundings) {data : Block UInt8 128} {t : WifiThread}
    (listens : Listens data t) :
    ReadsLine t (text "OK") ∧ Listens data (readBytes env t (text "OK" ++ [cr, lf])).1 ∧
      (readBytes env t (text "OK" ++ [cr, lf])).1.wifi.networkInfoData =
        { t.wifi.networkInfoData with response := .ok } := by
  have room := listens.room
  have two : (text "OK").length = 2 := by decide +kernel
  have reads : ReadsLine t (text "OK") := by
    refine ⟨listens.quiet, by omega, by decide +kernel, by decide +kernel, fun plus => ?_,
      listens.notAsked⟩
    exact absurd plus (by decide +kernel)
  have read : LineRead env t _ _ := lineRead reads
  obtain ⟨more, mem⟩ := read.line_
  have wifi := decideLine_ok (s := t.atLine (text "OK")) (t.uRemain + (text "OK").length + 1) mem
  have told := read.networkInfoData.trans (congrArg WifiInfo.networkInfoData wifi)
  refine ⟨reads, ⟨read.doing.trans listens.reading, read.calling.trans listens.noCall, read.quiet,
    ?_, read.responseLen.trans ((congrArg WifiInfo.responseLen wifi).trans listens.responseLen),
    ?_, ?_⟩, told⟩
  · rw [read.uRemain]
    decide
  · rw [told]
    exact listens.notAsked
  · rw [told]
    exact listens.data_

theorem toOk_getLocalInfo (data : Block UInt8 128) (tcpOn : FunctionalState) :
    Reaction.toOk .getLocalInfo data.cells tcpOn =
      .command (if ChangeMarked data then .setLocalInfo else .tcpConnect) := by
  by_cases marked : ChangeMarked data
  · have some_ := marked
    rw [ChangeMarked, ← not_not (a := _ ∨ _), not_or, not_or] at some_
    rw [if_pos marked, Reaction.toOk, if_neg some_]
  · have none_ := marked
    rw [ChangeMarked, not_or, not_or] at none_
    rw [if_neg marked, Reaction.toOk, if_pos none_]

/-- The read of a report. -/
def readsReport (report : List UInt8 × List UInt8) : GatewayEvent :=
  .wifi (.read (0x2B :: addressReport report.1 report.2 ++ [cr, lf]))

/-- Reports are read one after another, and the thread goes on reading. -/
theorem Idles.reads_reports (site : Site) {data : Block UInt8 128}
    (empty : byteAt data.cells 0 = 0) {events : List GatewayEvent} (more : events ≠ [])
    (reports : List (List UInt8 × List UInt8)) :
    ∀ {g : Gateway}, Idles g g.wifi → Listens data g.wifi →
      (∀ report ∈ reports, report.1 ∈ [text "ip", text "gateway", text "netmask"] ∧
        IsAddress report.2) →
      ∃ g', Idles g' g'.wifi ∧ Listens data g'.wifi ∧
        (g.wifi.wifi.networkInfoData.networkStatus = .getLocalInfo ∨ reports ≠ [] →
          g'.wifi.wifi.networkInfoData.networkStatus = .getLocalInfo) ∧
        reactionBehind site g (reports.map readsReport ++ events) =
          reactionBehind site g' events := by
  induction reports with
  | nil =>
      intro g idles listens _
      exact ⟨g, idles, listens, fun told => told.resolve_right (absurd rfl), rfl⟩
  | cons report reports ih =>
      intro g idles listens proper
      obtain ⟨⟨named, isAddress⟩, later⟩ := List.forall_mem_cons.mp proper
      have some_ : reports.map readsReport ++ events ≠ [] := List.append_ne_nil_of_right_ne_nil _ more
      obtain ⟨reads, listens', status⟩ := listens.report site.toSurroundings empty named isAddress
      obtain ⟨g₁, idles₁, behind₁⟩ := idles.read site listens.reading reads some_
      rw [← idles₁.wifi] at listens' status
      obtain ⟨g', idles', listens', told, behind⟩ :=
        ih ⟨idles₁.runs, idles₁.queue, rfl⟩ listens' later
      exact ⟨g', idles', listens', fun _ => told (.inl status), behind₁.trans behind⟩

/-- **The manager connects unless a mark stands in the data**, whatever the module reports. -/
theorem reaction_to_addresses {site : Site} {g : Gateway} {reported : LocalAddresses}
    (rest : AtRest g) (proper : reported.Proper) :
    reactionBehind site (g.sendWifiCommand site .queryLocalInfo)
        (exchanged (localInfoReads reported)) =
      some (.command
        (if ChangeMarked g.wifi.wifi.networkInfoData.data then .setLocalInfo else .tcpConnect)) := by
  let reports := [(text "ip", reported.localIp), (text "gateway", reported.gatewayIp),
    (text "netmask", reported.subnetMask)]
  have own : ∀ report ∈ reports, report.1 ∈ [text "ip", text "gateway", text "netmask"] ∧
      IsAddress report.2 := by
    simp only [reports, List.forall_mem_cons]
    exact ⟨⟨by simp, proper.localIp⟩, ⟨by simp, proper.gatewayIp⟩,
      ⟨by simp, proper.subnetMask⟩, by simp⟩
  have idles : Idles (g.sendWifiCommand site .queryLocalInfo)
      (g.sendWifiCommand site .queryLocalInfo).wifi := ⟨rest.runs, rest.queue, rfl⟩
  have empty := rest.disabled
  obtain ⟨taken, t, executed, listens⟩ := rest.transmits site
  generalize g.wifi.wifi.networkInfoData.data = data at empty listens ⊢
  obtain ⟨g₀, idles₀, behind₀⟩ := idles.wifi_steps executed (by simp [postedBy])
    (reports.map readsReport ++
      [.wifi (.read (text "OK" ++ [cr, lf])), .wifi (.read []), .handle]) (by simp)
  rw [← idles₀.wifi] at listens
  replace idles₀ : Idles g₀ g₀.wifi := ⟨idles₀.runs, idles₀.queue, rfl⟩
  obtain ⟨g₁, idles₁, listens₁, told, behind₁⟩ :=
    Idles.reads_reports site empty
      (List.cons_ne_nil (.wifi (.read (text "OK" ++ [cr, lf]))) [.wifi (.read []), .handle])
      reports idles₀ listens own
  have status := told (.inr (by simp [reports]))
  obtain ⟨reads, listens₂, ok⟩ := listens₁.ok site.toSurroundings
  obtain ⟨g₂, idles₂, behind₂⟩ := idles₁.read site listens₁.reading reads
    (List.cons_ne_nil (.wifi (.read [])) [.handle])
  have answer := idles₂.answered site listens₂.reading listens₂.noCall (by rw [ok])
  rw [listens₂.data_, ok] at answer
  rw [status, toOk_getLocalInfo] at answer
  exact behind₀.trans (behind₁.trans (behind₂.trans answer))

/-- **Static addresses are applied exactly when** the addresses that are reported are the configured
ones and no mark stands in the data, or when they are others and a mark is there from before. -/
theorem addresses_are_applied_iff {site : Site} {g : Gateway} {reported : LocalAddresses}
    (rest : AtRest g) (proper : reported.Proper) :
    reactionBehind site (g.sendWifiCommand site .queryLocalInfo)
        (exchanged (localInfoReads reported)) =
      some (.command (if Configured site.settings reported then .tcpConnect else .setLocalInfo)) ↔
    (Configured site.settings reported ↔ ¬ ChangeMarked g.wifi.wifi.networkInfoData.data) := by
  rw [reaction_to_addresses rest proper]
  by_cases marked : ChangeMarked g.wifi.wifi.networkInfoData.data
  · by_cases configured : Configured site.settings reported <;> simp [marked, configured]
  · by_cases configured : Configured site.settings reported <;> simp [marked, configured]

/-- DHCP is disabled, and addresses are configured. -/
def staticSite : Site :=
  { someSite with
    dhcpMode := 0
    settings := { someSite.settings with
      localIp := text "192.168.0.10" ++ [0]
      gatewayIp := text "192.168.0.1" ++ [0]
      subnetMask := text "255.255.255.0" ++ [0] } }

/-- The addresses that are configured there. -/
def theirAddresses : LocalAddresses :=
  ⟨text "192.168.0.10", text "192.168.0.1", text "255.255.255.0"⟩

theorem startGateway_atRest : AtRest (startGateway staticSite) :=
  ⟨rfl, rfl, rfl, rfl, rfl, by decide +kernel, rfl⟩

/-- The module has the addresses that are configured. -/
theorem addresses_are_applied_iff_same :
    reactionBehind staticSite ((startGateway staticSite).sendWifiCommand staticSite .queryLocalInfo)
        (exchanged (localInfoReads theirAddresses)) =
      some (.command
        (if Configured staticSite.settings theirAddresses then .tcpConnect else .setLocalInfo)) :=
  (addresses_are_applied_iff startGateway_atRest
    ⟨by decide +kernel, by decide +kernel, by decide +kernel⟩).mpr
      (iff_of_true (by decide +kernel) (by decide +kernel))

/-- The module has come by another address. -/
def otherAddresses : LocalAddresses :=
  ⟨text "192.168.43.7", text "192.168.43.1", text "255.255.255.0"⟩

/-- From the restart of the module to the query of its addresses. -/
def queryingAddresses : List GatewayEvent :=
  exchanged [lineOf "OK"] ++ exchanged [lineOf "OK"] ++ exchanged [lineOf "OK"] ++
    exchanged [lineOf "OK"] ++ exchanged [lineOf "+CWMODE_DEF:1", lineOf "OK"] ++
    exchanged [lineOf "+CWDHCP_DEF:0", lineOf "OK"] ++ exchanged [lineOf "OK"] ++
    exchanged [lineOf "+CWJAP_DEF:0", lineOf "OK"]

/-- **Other addresses are left as they are.** The module reports addresses that are not the
configured ones, and the manager connects. -/
theorem other_addresses_are_left :
    ¬ Configured staticSite.settings otherAddresses ∧
      reactionBehind staticSite (startGateway staticSite)
          (queryingAddresses ++ exchanged (localInfoReads otherAddresses)) =
        some (.command .tcpConnect) := by
  decide +kernel

end WhaleShark
