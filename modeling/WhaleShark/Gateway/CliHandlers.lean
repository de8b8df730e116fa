import WhaleShark.Gateway.ConsoleRuns
import WhaleShark.Gateway.Ram

/-!
# The handlers of the console

What the commands of the console that set a text do with their value. `OnSetTcp` and `OnSetApSSID`
copy it into an array on the stack and take it apart there with `strtok`; what the stack holds is
given. A handler that writes behind that array, or goes on with a null pointer, leaves nothing to say
(`none`). The handlers of the other commands are given.
-/

set_option autoImplicit false

namespace WhaleShark

open Foundations

/-! ## `strtok` -/

/-- What `strtok` leaves: the token, if there is one, the memory, and where the next call goes on. -/
structure Strtok where
  token : Option ℕ
  memory : List UInt8
  last : Option ℕ
  deriving DecidableEq

/-- `strtok`, on an array of `size` bytes at the beginning of the memory. `none` stands for a null
pointer, and as result for a `NUL` that is written behind the array. A null pointer for the
delimiters is taken for none of them. -/
def strtok (size : ℕ) (memory : List UInt8) (s : Option ℕ) (delim : List UInt8) : Option Strtok :=
  match s with
  | none => some ⟨none, memory, none⟩
  | some s =>
      let leading := (memory.drop s).takeWhile fun b => b != 0 && delim.contains b
      let begin_ := s + leading.length
      if byteAt memory begin_ = 0 then some ⟨none, memory, none⟩
      else
        let token := (memory.drop begin_).takeWhile fun b => b != 0 && !delim.contains b
        let end_ := begin_ + token.length
        if byteAt memory end_ = 0 then some ⟨some begin_, memory, none⟩
        else if size ≤ end_ then none
        else some ⟨some begin_, memory.set end_ 0, some (end_ + 1)⟩

/-- The bytes up to the first one that fails the test. -/
theorem takeWhile_stops {p : UInt8 → Bool} {all rest : List UInt8} (holds : ∀ b ∈ all, p b = true)
    (fails : rest ≠ [] → p (byteAt rest 0) = false) : (all ++ rest).takeWhile p = all := by
  rw [List.takeWhile_append_of_pos holds]
  cases rest with
  | nil => simp
  | cons b rest =>
      have stops : p b = false := fails (List.cons_ne_nil b rest)
      rw [List.takeWhile_cons_of_neg (by simp [stops]), List.append_nil]

/-- What `strtok` comes to: delimiters, a token, and what stands behind that. -/
structure Splits (delim leading token rest : List UInt8) : Prop where
  leads : ∀ b ∈ leading, b ≠ 0 ∧ b ∈ delim
  inside : ∀ b ∈ token, b ≠ 0 ∧ b ∉ delim
  ends : byteAt rest 0 = 0 ∨ token ≠ [] ∧ byteAt rest 0 ∈ delim

/-- Every string splits so. -/
theorem exists_splits (delim string : List UInt8) :
    ∃ leading token rest, string = leading ++ (token ++ rest) ∧ Splits delim leading token rest := by
  have byDelim : ∀ string : List UInt8, ∃ token rest, string = token ++ rest ∧
      (∀ b ∈ token, b ≠ 0 ∧ b ∉ delim) ∧ (byteAt rest 0 = 0 ∨ byteAt rest 0 ∈ delim) := by
    intro string
    induction string with
    | nil => exact ⟨[], [], rfl, by simp, .inl rfl⟩
    | cons b string ih =>
        by_cases ends : b = 0 ∨ b ∈ delim
        · exact ⟨[], b :: string, rfl, by simp, ends⟩
        · obtain ⟨token, rest, rfl, inside, stop⟩ := ih
          refine ⟨b :: token, rest, rfl, ?_, stop⟩
          rw [List.forall_mem_cons]
          exact ⟨not_or.mp ends, inside⟩
  induction string with
  | nil => exact ⟨[], [], [], rfl, by simp, by simp, .inl rfl⟩
  | cons b string ih =>
      by_cases skipped : b ≠ 0 ∧ b ∈ delim
      · obtain ⟨leading, token, rest, rfl, splits⟩ := ih
        refine ⟨b :: leading, token, rest, rfl, ?_, splits.inside, splits.ends⟩
        rw [List.forall_mem_cons]
        exact ⟨skipped, splits.leads⟩
      · obtain ⟨token, rest, same, inside, stop⟩ := byDelim (b :: string)
        refine ⟨[], token, rest, same, by simp, inside, ?_⟩
        cases token with
        | nil =>
            subst same
            by_cases ended : b = 0
            · exact .inl ended
            · rcases stop with zero | inDelim
              · exact .inl zero
              · exact absurd ⟨ended, inDelim⟩ skipped
        | cons a token => exact stop.imp_right fun inDelim => ⟨List.cons_ne_nil _ _, inDelim⟩

/-- **What `strtok` does**, from the place behind `front` on. -/
theorem strtok_eq {delim leading token rest : List UInt8} (splits : Splits delim leading token rest)
    (size : ℕ) (front : List UInt8) :
    strtok size (front ++ (leading ++ (token ++ rest))) (some front.length) delim =
      if token = [] then some ⟨none, front ++ (leading ++ (token ++ rest)), none⟩
      else if byteAt rest 0 = 0 then
        some ⟨some (front.length + leading.length), front ++ (leading ++ (token ++ rest)), none⟩
      else if size ≤ front.length + leading.length + token.length then none
      else
        some ⟨some (front.length + leading.length),
          front ++ (leading ++ (token ++ 0 :: rest.tail)),
          some (front.length + leading.length + token.length + 1)⟩ := by
  obtain ⟨skipped, inside, ends⟩ := splits
  have first : ((front ++ (leading ++ (token ++ rest))).drop front.length).takeWhile
      (fun b => b != 0 && delim.contains b) = leading := by
    rw [List.drop_left]
    refine takeWhile_stops (fun b member => by simpa using skipped b member) fun _ => ?_
    cases token with
    | nil =>
        rcases ends with zero | ⟨other, -⟩
        · simp [zero]
        · exact absurd rfl other
    | cons b token =>
        have outside := (inside b List.mem_cons_self).2
        have here : byteAt (b :: (token ++ rest)) 0 = b := rfl
        rw [List.cons_append, here]
        simp [outside]
  have at_ : (front ++ (leading ++ (token ++ rest))).drop (front.length + leading.length) =
      token ++ rest := by
    rw [← List.drop_drop, List.drop_left, List.drop_left]
  have second : ((front ++ (leading ++ (token ++ rest))).drop
      (front.length + leading.length)).takeWhile (fun b => b != 0 && !delim.contains b) = token := by
    rw [at_]
    refine takeWhile_stops (fun b member => by simpa using inside b member) fun _ => ?_
    rcases ends with zero | ⟨-, inDelim⟩
    · simp [zero]
    · simp [inDelim]
  have begins : byteAt (front ++ (leading ++ (token ++ rest))) (front.length + leading.length) =
      byteAt (token ++ rest) 0 := by
    have same := byteAt_drop (front ++ (leading ++ (token ++ rest)))
      (front.length + leading.length) 0
    rw [at_, Nat.add_zero] at same
    exact same.symm
  have behind : byteAt (front ++ (leading ++ (token ++ rest)))
      (front.length + leading.length + token.length) = byteAt rest 0 := by
    rw [← byteAt_drop, at_, byteAt_append_right le_rfl, Nat.sub_self]
  simp only [strtok, first, second, begins, behind]
  cases token with
  | nil =>
      have zero : byteAt rest 0 = 0 := ends.resolve_right fun both => both.1 rfl
      rw [List.nil_append, if_pos zero, if_pos rfl]
  | cons b token =>
      have notNul : byteAt (b :: token ++ rest) 0 ≠ 0 := (inside b List.mem_cons_self).1
      rw [if_neg notNul, if_neg (List.cons_ne_nil b token)]
      by_cases zero : byteAt rest 0 = 0
      · rw [if_pos zero, if_pos zero]
      · obtain ⟨c, rest, rfl⟩ : ∃ c more, rest = c :: more := by
          cases rest with
          | nil => exact absurd rfl zero
          | cons c rest => exact ⟨c, rest, rfl⟩
        have length : front.length + leading.length + (b :: token).length =
            (front ++ (leading ++ (b :: token))).length := by simp [Nat.add_assoc]
        have cut : (front ++ (leading ++ (b :: token ++ c :: rest))).set
            (front.length + leading.length + (b :: token).length) 0 =
            front ++ (leading ++ (b :: token ++ 0 :: rest)) := by
          have apart (d : UInt8) : front ++ (leading ++ (b :: token ++ d :: rest)) =
              front ++ (leading ++ (b :: token)) ++ d :: rest := by simp
          rw [length, apart, apart, List.set_append_right _ _ le_rfl, Nat.sub_self]
          rfl
        rw [if_neg zero, if_neg zero, cut]
        rfl

/-- `sizeof(buff)` -/
def buffSize : ℕ := 32

namespace Ram

/-! ## The setters -/

def setLocalIP (pData : List UInt8) (s : Ram) : Ram := (setTextIn .localIp pData s).1

def setSubnetMask (pData : List UInt8) (s : Ram) : Ram := (setTextIn .subnetMask pData s).1

def setGatewayIP (pData : List UInt8) (s : Ram) : Ram := (setTextIn .gatewayIp pData s).1

def setDnsServer (pData : List UInt8) (s : Ram) : Ram := (setTextIn .dnsServer pData s).1

def setTcpPort (data : UInt16) (s : Ram) : Ram := (setNumberIn .destPort (leBytes16 data) s).1

def setTcpIP (pData : List UInt8) (s : Ram) : Ram := (setTextIn .destIp pData s).1

def setApPassword (pData : List UInt8) (s : Ram) : Ram := (setTextIn .apPassword pData s).1

def setApSSID (pData : List UInt8) (s : Ram) : Ram := (setTextIn .apSSID pData s).1

def setMacAddress (pData : List UInt8) (s : Ram) : Ram × Bool := setTextIn .macAddress pData s

def setDeviceInfo (pData : List UInt8) (s : Ram) : Ram := (setTextIn .device pData s).1

def setDomainInfo (pData : List UInt8) (s : Ram) : Ram := (setTextIn .domainInfo pData s).1

/-! ## The handlers -/

/-- A handler that sets a text, or shows the one there is. -/
def onSetText (set : List UInt8 → Ram → Ram) (pData : List UInt8) (s : Ram) : Ram :=
  if 0 < pData.length then set pData s else s

def onSetLocalIP : List UInt8 → Ram → Ram := onSetText setLocalIP

def onSetSubnetMask : List UInt8 → Ram → Ram := onSetText setSubnetMask

def onSetGatewayIP : List UInt8 → Ram → Ram := onSetText setGatewayIP

def onSetDnsServer : List UInt8 → Ram → Ram := onSetText setDnsServer

def onSetDeviceInfo : List UInt8 → Ram → Ram := onSetText setDeviceInfo

def onSetDomainInfo : List UInt8 → Ram → Ram := onSetText setDomainInfo

def onSetMacAddress (pData : List UInt8) (s : Ram) : Ram × Bool :=
  if 0 < pData.length then setMacAddress pData s else (s, false)

/-- What `OnSetTcp` hands on: the bytes for `SetTcpIP`, and the memory that `atoi` reads. -/
def tcpArguments (stack pData : List UInt8) : Option (List UInt8 × List UInt8) :=
  if buffSize < pData.length then none
  else
    let buff := pData ++ stack.drop pData.length
    (strtok buffSize buff (some 0) (text "/")).bind fun ip =>
    (strtok buffSize ip.memory ip.last []).bind fun port =>
    ip.token.bind fun begin_ =>
    port.token.map fun end_ =>
      ((port.memory.drop begin_).take (end_ - begin_), port.memory.drop end_)

/-- `OnSetTcp`, with what the stack holds from the array on. -/
def onSetTcp (stack pData : List UInt8) (s : Ram) : Option Ram :=
  if 0 < pData.length then
    (tcpArguments stack pData).map fun (ip, port) =>
      setTcpPort (atoi port).toUInt16 (setTcpIP ip s)
  else some s

/-- `OnSetApSSID`, with what the stack holds from the array on. -/
def onSetApSSID (stack pData : List UInt8) (s : Ram) : Option Ram :=
  if 0 < pData.length then
    if buffSize < pData.length then none
    else
      let buff := pData ++ List.replicate (buffSize - pData.length) 0 ++ stack.drop buffSize
      (strtok buffSize buff (some 0) (text "/")).bind fun ssid =>
      ssid.token.bind fun apInformation =>
        let s := setApSSID (cString (ssid.memory.drop apInformation)) s
        if byteAt ssid.memory (rtStrlen ssid.memory + 1) ≠ 0 then
          (strtok buffSize ssid.memory ssid.last [cr]).bind fun password =>
          password.token.map fun apInformation =>
            setApPassword (cString (password.memory.drop apInformation)) s
        else
          let buff := ssid.memory.set apInformation 0
          some (setApPassword (cString (buff.drop apInformation)) s)
  else some s

end Ram

section

variable (stack : List UInt8) (others : CliHandlers Ram)

/-- What the `switch` of `ParserCliCommand` calls. -/
def cliHandlers : CliHandlers (Option Ram)
  | _, _, none => (none, false)
  | .slip, pData, some s => (some (Ram.onSetLocalIP pData s), false)
  | .ssnm, pData, some s => (some (Ram.onSetSubnetMask pData s), false)
  | .sgwy, pData, some s => (some (Ram.onSetGatewayIP pData s), false)
  | .sdns, pData, some s => (some (Ram.onSetDnsServer pData s), false)
  | .stcp, pData, some s => (Ram.onSetTcp stack pData s, false)
  | .ssid, pData, some s => (Ram.onSetApSSID stack pData s, false)
  | .smac, pData, some s =>
      let (s, returned) := Ram.onSetMacAddress pData s
      (some s, returned)
  | .sdev, pData, some s => (some (Ram.onSetDeviceInfo pData s), false)
  | .sdmi, pData, some s => (some (Ram.onSetDomainInfo pData s), false)
  | id, pData, some s =>
      let (s, returned) := others id pData s
      (some s, returned)

end

/-! ## A line -/

/-- The line of a command with a value. -/
def setLine (szCli value : List UInt8) : List UInt8 := cliCmdPrefix ++ (szCli ++ (0x3D :: value))

theorem commandNamed_of_mem {info : CliInfo} (member : info ∈ sCliInfo) :
    commandNamed info.szCli = some info.id := by
  have all : sCliInfo.all (fun info => commandNamed info.szCli == some info.id) = true := by
    decide +kernel
  exact eq_of_beq (List.all_eq_true.mp all info member)

/-- A line names its command and its value. -/
theorem commandOf_setLine {info : CliInfo} (member : info ∈ sCliInfo) (value : List UInt8) :
    commandOf (setLine info.szCli value) = some (info.id, value) := by
  obtain ⟨length, -⟩ := sCliInfo_names info member
  have behind : behindPrefix (setLine info.szCli value) = some (info.szCli ++ (0x3D :: value)) := by
    have begins : cliCmdPrefix = [0x41, 0x54, 0x2B] := by decide +kernel
    rw [setLine, begins, List.cons_append, behindPrefix, begins, if_pos]
    · rfl
    · rfl
  have name : (info.szCli ++ (0x3D :: value)).take cliCmdLength = info.szCli :=
    List.take_left' length
  have rest : (info.szCli ++ (0x3D :: value)).drop (cliCmdLength + 1) = value := by
    rw [← List.drop_drop, List.drop_left' length]
    rfl
  rw [commandOf, behind, Option.bind_some, name, commandNamed_of_mem member, Option.map_some, rest]

/-- **A line of the console has the handler of its command called with its value.** -/
theorem parserCliCommand_setLine {σ : Type} (handle : CliHandlers σ) {info : CliInfo}
    (member : info ∈ sCliInfo) {value : List UInt8} (noCr : cr ∉ value) {console : Console σ}
    (alive : console.rebooted = false) :
    (parserCliCommand handle (setLine info.szCli value ++ [cr]) console).2.system =
      (handle info.id value console.system).1 := by
  have named : ∀ b ∈ info.szCli, b ≠ cr := by
    intro b inside same
    exact ((sCliInfo_names info member).2 b inside).2 (congrArg lower same)
  have whole : cr ∉ setLine info.szCli value := by
    have begins : cr ∉ cliCmdPrefix := by decide +kernel
    rw [setLine, List.mem_append, List.mem_append, List.mem_cons]
    rintro (inside | inside | inside | inside)
    · exact begins inside
    · exact named cr inside rfl
    · exact absurd inside (by decide)
    · exact noCr inside
  have line : InLines cr (setLine info.szCli value ++ [cr]) [setLine info.szCli value] [] :=
    .cons whole (.of_unfinished List.not_mem_nil)
  obtain ⟨consumed, does, -⟩ := parserCliCommand_eq handle line alive
  rw [does, Console.readLines, List.foldl_cons, List.foldl_nil, readLine_of_commandOf handle alive,
    commandOf_setLine member]
  rfl

end WhaleShark
