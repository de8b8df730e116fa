import WhaleShark.Foundations.Lines
import WhaleShark.Gateway.CLibrary

/-!
# The commands of the console

`ParserCliCommand` goes through what has been received with two pointers. At each `CR` it looks for
`AT+` from the end of the last line on, takes the four bytes behind it for the name of a command, and
what follows a separator for its value. It ends behind the last `CR`. So a line gives the command
that is read off the line alone (`commandOf`), and what has been received gives the commands of its
lines (`parserCliCommand_eq`).

The handlers of the commands are given. `RSET` and `RBOT` restart the gateway, and `SMFR` does when
its handler says so.
-/

set_option autoImplicit false

namespace WhaleShark

open Foundations

/-! ## `_strncasecmp` -/

/-- A character of `_strncasecmp`: its distance from `A`, as of a small letter. -/
def caseFold (b : UInt8) : UInt32 :=
  let x := b.toUInt32 - 0x41
  if x < 26 then x + 32 else x

/-- `_strncasecmp`, as the word that stands for the result. -/
def strncasecmp (s1 s2 : List UInt8) : ℕ → UInt32
  | 0 => 0
  | len + 1 =>
      let x2 := caseFold (byteAt s2 0)
      let x1 := caseFold (byteAt s1 0)
      if x2 ≠ x1 ∨ x1 = 0 - 0x41 then x1 - x2 else strncasecmp s1.tail s2.tail len

/-- The small letter of a capital one. -/
def lower (b : UInt8) : UInt8 := if 0x41 ≤ b ∧ b ≤ 0x5A then b + 32 else b

theorem caseFold_eq (b : UInt8) : caseFold b = (lower b).toUInt32 - 0x41 := by
  have all : ∀ n : Fin 256, caseFold (UInt8.ofFin n) = (lower (UInt8.ofFin n)).toUInt32 - 0x41 := by
    decide +kernel
  exact all b.toFin

theorem caseFold_inj {a b : UInt8} : caseFold a = caseFold b ↔ lower a = lower b := by
  rw [caseFold_eq, caseFold_eq, UInt32.sub_left_inj, UInt8.toUInt32_inj]

theorem lower_eq_zero {b : UInt8} : lower b = 0 ↔ b = 0 := by
  have all : ∀ n : Fin 256, lower (UInt8.ofFin n) = 0 ↔ UInt8.ofFin n = 0 := by decide +kernel
  exact all b.toFin

theorem word_sub_eq_zero_iff (a b : UInt32) : a - b = 0 ↔ a = b := by
  rw [← UInt32.sub_left_inj (c := b) (a := a), UInt32.sub_self]

/-- The two texts agree, but for capital and small letters. -/
def SameText (s t : List UInt8) : Prop := s.map lower = t.map lower

instance (s t : List UInt8) : Decidable (SameText s t) := inferInstanceAs (Decidable (_ = _))

/-- Comparing with a text asks whether the string begins with it, but for capital letters. -/
theorem strncasecmp_eq_zero_iff {ct : List UInt8} (noNul : ∀ b ∈ ct, b ≠ 0) (cs : List UInt8) :
    strncasecmp cs ct ct.length = 0 ↔ SameText (cs.take ct.length) ct := by
  induction ct generalizing cs with
  | nil => simp [strncasecmp, SameText]
  | cons b ct ih =>
      have notNul : lower b ≠ 0 := fun zero => noNul b List.mem_cons_self (lower_eq_zero.mp zero)
      have rest := ih fun d member => noNul d (List.mem_cons_of_mem _ member)
      have end_ : (0 - 0x41 : UInt32) = caseFold 0 := by decide
      simp only [List.length_cons, strncasecmp, byteAt_eq, List.getElem?_cons_zero,
        Option.getD_some, List.tail_cons, end_, ne_eq, caseFold_inj]
      have zero : lower 0 = 0 := by decide
      cases cs with
      | nil =>
          have different : caseFold 0 ≠ caseFold b := by
            rw [ne_eq, caseFold_inj, zero]
            exact fun same => notNul same.symm
          simp [SameText, zero, notNul, word_sub_eq_zero_iff, different]
      | cons a cs =>
          simp only [List.getElem?_cons_zero, Option.getD_some, List.tail_cons, SameText,
            List.take_succ_cons, List.map_cons, List.cons.injEq, zero]
          by_cases same : lower a = lower b
          · rw [if_neg (by simp [same, notNul]), rest]
            simp [same, SameText]
          · have different : caseFold a ≠ caseFold b := fun other => same (caseFold_inj.mp other)
            rw [if_pos (.inl fun other => same other.symm)]
            simp [same, word_sub_eq_zero_iff, different]

/-! ## The table of commands -/

/-- `cliId` -/
inductive CliId where
  | help | scfg | rset | rbot | slip | ssnm | sgwy | sdns | stcp | dhcp | ssid | smfr | smac | sdev
  | sdmc | sdmi
  deriving DecidableEq, Repr

/-- `CLIINFO` -/
structure CliInfo where
  id : CliId
  szCli : List UInt8
  deriving DecidableEq

def sCliInfo : List CliInfo :=
  [⟨.help, text "HELP"⟩, ⟨.scfg, text "SCFG"⟩, ⟨.rset, text "RSET"⟩, ⟨.rbot, text "RBOT"⟩,
    ⟨.smfr, text "SMFR"⟩, ⟨.slip, text "SLIP"⟩, ⟨.ssnm, text "SSNM"⟩, ⟨.sgwy, text "SGWY"⟩,
    ⟨.sdns, text "SDNS"⟩, ⟨.stcp, text "STCP"⟩, ⟨.dhcp, text "DHCP"⟩, ⟨.ssid, text "SSID"⟩,
    ⟨.smac, text "SMAC"⟩, ⟨.sdev, text "SDEV"⟩, ⟨.sdmc, text "SDMC"⟩, ⟨.sdmi, text "SDMI"⟩]

/-- `CLI_MAX` -/
def cliMax : ℕ := 16

/-- `CLI_CMD_PREFIX` -/
def cliCmdPrefix : List UInt8 := text "AT+"

/-- `CLI_CMD_LENGTH` -/
def cliCmdLength : ℕ := 4

/-- The loop over `id`, from the end of the table on. `none` says that `id` has become negative. -/
def searchCli (begin_ : List UInt8) : ℕ → Option CliInfo
  | 0 => none
  | id + 1 =>
      match sCliInfo[id]? with
      | none => none
      | some info =>
          if strncasecmp begin_ info.szCli cliCmdLength ≠ 0 then searchCli begin_ id else some info

/-- The command with this name. -/
def commandNamed (name : List UInt8) : Option CliId :=
  (sCliInfo.find? fun info => decide (SameText name info.szCli)).map CliInfo.id

/-! ## The parser -/

/-- What handles a command, with its value. The flag is what the handler returns. -/
abbrev CliHandlers (σ : Type) := CliId → List UInt8 → σ → σ × Bool

/-- What the commands have led to, and the commands so far. -/
structure Console (σ : Type) where
  system : σ
  commands : List (CliId × List UInt8)
  rebooted : Bool

/-- `bReboot` behind the `switch`. -/
def bReboot (id : CliId) (returned : Bool) : Bool :=
  match id with
  | .rset | .rbot => true
  | .smfr => returned
  | _ => false

section

variable {σ : Type} (handle : CliHandlers σ)

/-- The `switch`, and `DeviceReboot`, which does not return. -/
def Console.dispatch (console : Console σ) (command : CliId × List UInt8) : Console σ :=
  let (system, returned) := handle command.1 command.2 console.system
  ⟨system, console.commands ++ [command], bReboot command.1 returned⟩

/-- The inner loop, for the line that ends at `end_`. -/
def parserCliLine (p : List UInt8) (end_ : ℕ) : ℕ → ℕ → Console σ → ℕ × Console σ
  | 0, begin_, console => (begin_, console)
  | fuel + 1, begin_, console =>
      let (begin_, console) :=
        if end_ < begin_ + cliCmdPrefix.length then (end_, console)
        else if strncasecmp (p.drop begin_) cliCmdPrefix cliCmdPrefix.length = 0 then
          let begin_ := begin_ + cliCmdPrefix.length
          match searchCli (p.drop begin_) cliMax with
          | none => (end_, console)
          | some info =>
              let begin_ := begin_ + cliCmdLength
              let value :=
                if begin_ ≠ end_ then (p.drop (begin_ + 1)).take (end_ - (begin_ + 1)) else []
              (end_, console.dispatch handle (info.id, value))
        else (begin_, console)
      if console.rebooted then (begin_, console)
      else if begin_ + 1 < end_ then parserCliLine p end_ fuel (begin_ + 1) console
      else (begin_ + 1, console)

/-- The outer loop, with the number of bytes from `end_` on. -/
def parserCliLoop (p : List UInt8) : ℕ → ℕ → ℕ → Console σ → ℕ × Console σ
  | 0, _, begin_, console => (begin_, console)
  | left + 1, end_, begin_, console =>
      let (begin_, console) :=
        if byteAt p end_ = cr then parserCliLine handle p end_ (end_ + 1 - begin_) begin_ console
        else (begin_, console)
      if console.rebooted then (begin_, console)
      else parserCliLoop p left (end_ + 1) begin_ console

/-- `ParserCliCommand`: how much is consumed, and what the commands lead to. -/
def parserCliCommand (p : List UInt8) (console : Console σ) : ℕ × Console σ :=
  if 0 < p.length then parserCliLoop handle p p.length 0 0 console else (0, console)

/-! ## Line by line -/

/-- What is behind the first `AT+` of a line. -/
def behindPrefix : List UInt8 → Option (List UInt8)
  | [] => none
  | b :: line =>
      if SameText ((b :: line).take cliCmdPrefix.length) cliCmdPrefix then
        some ((b :: line).drop cliCmdPrefix.length)
      else behindPrefix line

/-- The command of a line: behind the first `AT+` the name, one byte, and the value. -/
def commandOf (line : List UInt8) : Option (CliId × List UInt8) :=
  (behindPrefix line).bind fun rest =>
    (commandNamed (rest.take cliCmdLength)).map fun id => (id, rest.drop (cliCmdLength + 1))

/-- A line is read, unless the gateway has restarted. -/
def Console.readLine (console : Console σ) (line : List UInt8) : Console σ :=
  if console.rebooted then console
  else
    match commandOf line with
    | none => console
    | some command => console.dispatch handle command

/-- The lines are read one after the other. -/
def Console.readLines (console : Console σ) (lines : List (List UInt8)) : Console σ :=
  lines.foldl (Console.readLine handle) console

/-! ## The search for a command -/

theorem sCliInfo_names : ∀ info ∈ sCliInfo, info.szCli.length = cliCmdLength ∧
    ∀ b ∈ info.szCli, b ≠ 0 ∧ lower b ≠ lower cr := by
  have all : sCliInfo.all (fun info => decide (info.szCli.length = cliCmdLength) &&
      info.szCli.all fun b => decide (b ≠ 0 ∧ lower b ≠ lower cr)) = true := by decide +kernel
  intro info member
  have here := List.all_eq_true.mp all info member
  rw [Bool.and_eq_true, List.all_eq_true] at here
  exact ⟨of_decide_eq_true here.1, fun b inside => of_decide_eq_true (here.2 b inside)⟩

/-- Two commands have different names. -/
theorem sCliInfo_distinct : ∀ a ∈ sCliInfo, ∀ b ∈ sCliInfo, SameText a.szCli b.szCli → a = b := by
  decide +kernel

/-- What is found only once is found from either end. -/
theorem find?_reverse_of_unique {α : Type} {p : α → Bool} {l : List α}
    (unique : ∀ a ∈ l, ∀ b ∈ l, p a = true → p b = true → a = b) :
    l.reverse.find? p = l.find? p := by
  cases found : l.find? p with
  | none =>
      rw [List.find?_eq_none] at found ⊢
      intro a member
      exact found a (List.mem_reverse.mp member)
  | some a =>
      have own := List.find?_some found
      have inside := List.mem_of_find?_eq_some found
      obtain ⟨b, other⟩ := Option.isSome_iff_exists.mp
        (List.find?_isSome.mpr ⟨a, List.mem_reverse.mpr inside, own⟩)
      rw [other, unique b (List.mem_reverse.mp (List.mem_of_find?_eq_some other)) a inside
        (List.find?_some other) own]

/-- The command that is found from the end of the table on is the only one with the name. -/
theorem searchCli_eq (begin_ : List UInt8) : searchCli begin_ cliMax =
    sCliInfo.find? fun info => decide (SameText (begin_.take cliCmdLength) info.szCli) := by
  have compares : ∀ info ∈ sCliInfo, strncasecmp begin_ info.szCli cliCmdLength = 0 ↔
      SameText (begin_.take cliCmdLength) info.szCli := by
    intro info member
    obtain ⟨length, letters⟩ := sCliInfo_names info member
    rw [← length, strncasecmp_eq_zero_iff fun b inside => (letters b inside).1]
  have backwards : ∀ n, n ≤ sCliInfo.length → searchCli begin_ n = (sCliInfo.take n).reverse.find?
      fun info => decide (SameText (begin_.take cliCmdLength) info.szCli) := by
    intro n
    induction n with
    | zero => intro _; rfl
    | succ n ih =>
        intro inside
        have here : sCliInfo[n]? = some sCliInfo[n] := List.getElem?_eq_getElem inside
        rw [List.take_add_one, here, Option.toList_some, List.reverse_append, List.reverse_singleton,
          List.singleton_append, List.find?_cons, searchCli, here, ← ih (by omega)]
        have compare := compares sCliInfo[n] (List.getElem_mem inside)
        by_cases same : SameText (begin_.take cliCmdLength) sCliInfo[n].szCli
        · simp [compare.mpr same, same]
        · simp [mt compare.mp same, same]
  have all : sCliInfo.length = cliMax := rfl
  rw [backwards cliMax (Nat.le_of_eq all.symm), ← all, List.take_length, find?_reverse_of_unique]
  intro a inside b inside' first second
  have same := of_decide_eq_true first
  exact sCliInfo_distinct a inside b inside' (Eq.trans same.symm (of_decide_eq_true second))

/-- No name goes beyond the end of a line. -/
theorem searchCli_line (rest behind : List UInt8) :
    (searchCli (rest ++ cr :: behind) cliMax).map CliInfo.id =
      commandNamed (rest.take cliCmdLength) := by
  rw [searchCli_eq, commandNamed]
  rcases Nat.lt_or_ge rest.length cliCmdLength with short | long
  · have beyond : ∀ info ∈ sCliInfo,
        ¬ SameText ((rest ++ cr :: behind).take cliCmdLength) info.szCli := by
      intro info member same
      have reached : cr ∈ (rest ++ cr :: behind).take cliCmdLength := by
        obtain ⟨left, count⟩ := Nat.exists_eq_add_of_lt short
        rw [List.take_append, count, Nat.add_assoc, Nat.add_sub_cancel_left, List.take_succ_cons]
        simp
      have inside := List.mem_map_of_mem (f := lower) reached
      rw [same] at inside
      obtain ⟨b, letter, end_⟩ := List.mem_map.mp inside
      exact ((sCliInfo_names info member).2 b letter).2 end_
    have within : ∀ info ∈ sCliInfo, ¬ SameText (rest.take cliCmdLength) info.szCli := by
      intro info member same
      have lengths := congrArg List.length same
      rw [List.length_map, List.length_map, (sCliInfo_names info member).1,
        List.length_take] at lengths
      omega
    rw [List.find?_eq_none.mpr fun info member => by simpa using beyond info member,
      List.find?_eq_none.mpr fun info member => by simpa using within info member]
  · rw [List.take_append_of_le_length long]

/-- A name is found inside the line. -/
theorem length_of_searchCli {rest behind : List UInt8} {info : CliInfo}
    (found : searchCli (rest ++ cr :: behind) cliMax = some info) : cliCmdLength ≤ rest.length := by
  have named := searchCli_line rest behind
  rw [found, Option.map_some, commandNamed, eq_comm, Option.map_eq_some_iff] at named
  obtain ⟨info', known, -⟩ := named
  have same : SameText (rest.take cliCmdLength) info'.szCli := by
    simpa using List.find?_some known
  have lengths := congrArg List.length same
  rw [List.length_map, List.length_map, (sCliInfo_names info' (List.mem_of_find?_eq_some known)).1,
    List.length_take] at lengths
  omega

/-! ## A line -/

theorem behindPrefix_short {line : List UInt8} (short : line.length < cliCmdPrefix.length) :
    behindPrefix line = none := by
  induction line with
  | nil => rfl
  | cons b line ih =>
      have less : line.length < cliCmdPrefix.length := by
        rw [List.length_cons] at short
        omega
      rw [behindPrefix, if_neg, ih less]
      intro same
      have lengths := congrArg List.length same
      rw [List.length_map, List.length_map, List.length_take] at lengths
      omega

theorem strncasecmp_begins {line : List UInt8} (long : cliCmdPrefix.length ≤ line.length)
    (behind : List UInt8) :
    strncasecmp (line ++ behind) cliCmdPrefix cliCmdPrefix.length = 0 ↔
      SameText (line.take cliCmdPrefix.length) cliCmdPrefix := by
  rw [strncasecmp_eq_zero_iff (by decide +kernel), List.take_append_of_le_length long]

/-- What the pointer sees `k` bytes behind the beginning of a line. -/
theorem drop_line (front line behind : List UInt8) {k : ℕ} (inside : k ≤ line.length) :
    (front ++ (line ++ cr :: behind)).drop (front.length + k) = line.drop k ++ cr :: behind := by
  rw [← List.drop_drop, List.drop_left, List.drop_append_of_le_length inside]

/-- The value of a command, up to the end of the line. -/
theorem value_line (front line behind : List UInt8) {k : ℕ} (inside : k ≤ line.length) :
    (if front.length + k ≠ front.length + line.length then
      ((front ++ (line ++ cr :: behind)).drop (front.length + k + 1)).take
        (front.length + line.length - (front.length + k + 1))
    else []) = line.drop (k + 1) := by
  by_cases last : k = line.length
  · rw [if_neg (by omega), List.drop_eq_nil_of_le (by omega)]
  · have count : front.length + line.length - (front.length + (k + 1)) =
        (line.drop (k + 1)).length := by
      rw [List.length_drop]
      omega
    rw [if_pos (by omega), Nat.add_assoc, drop_line front line behind (by omega), count,
      List.take_left]

theorem readLine_of_commandOf {console : Console σ} (alive : console.rebooted = false)
    (line : List UInt8) :
    console.readLine handle line =
      match commandOf line with
      | none => console
      | some command => console.dispatch handle command := by
  rw [Console.readLine, alive]
  rfl

/-- The inner loop has read the line: it ends behind it, unless the gateway restarts. -/
def HasRead (console : Console σ) (end_ : ℕ) (line : List UInt8) (result : ℕ × Console σ) : Prop :=
  result.2 = console.readLine handle line ∧
    ((console.readLine handle line).rebooted = false → result.1 = end_ + 1)

/-- A line that is too short for `AT+`. -/
theorem parserCliLine_short (front line behind : List UInt8) {console : Console σ}
    (alive : console.rebooted = false) (fuel : ℕ) (short : line.length < cliCmdPrefix.length) :
    HasRead handle console (front.length + line.length) line
      (parserCliLine handle (front ++ (line ++ cr :: behind)) (front.length + line.length)
        (fuel + 1) front.length console) := by
  have nothing : console.readLine handle line = console := by
    rw [readLine_of_commandOf handle alive, commandOf, behindPrefix_short short, Option.bind_none]
  have ends : front.length + line.length < front.length + cliCmdPrefix.length := by omega
  rw [HasRead, nothing, parserCliLine, if_pos ends]
  simp [alive]

/-- A line that begins with `AT+`. -/
theorem parserCliLine_found (front line behind : List UInt8) {console : Console σ}
    (alive : console.rebooted = false) (fuel : ℕ) (long : cliCmdPrefix.length ≤ line.length)
    (here : SameText (line.take cliCmdPrefix.length) cliCmdPrefix) :
    HasRead handle console (front.length + line.length) line
      (parserCliLine handle (front ++ (line ++ cr :: behind)) (front.length + line.length)
        (fuel + 1) front.length console) := by
  have prefix_ : strncasecmp ((front ++ (line ++ cr :: behind)).drop front.length) cliCmdPrefix
      cliCmdPrefix.length = 0 := by
    rw [List.drop_left]
    exact (strncasecmp_begins long _).mpr here
  have rest : behindPrefix line = some (line.drop cliCmdPrefix.length) := by
    cases line with
    | nil => cases Nat.not_lt_of_le long (by decide +kernel)
    | cons b line => rw [behindPrefix, if_pos here]
  have command : commandOf line =
      (searchCli (line.drop cliCmdPrefix.length ++ cr :: behind) cliMax).map fun info =>
        (info.id, (line.drop cliCmdPrefix.length).drop (cliCmdLength + 1)) := by
    rw [commandOf, rest, Option.bind_some, ← searchCli_line _ behind, Option.map_map]
    rfl
  rw [HasRead, readLine_of_commandOf handle alive, command, parserCliLine, if_neg (by omega),
    if_pos prefix_]
  simp only [drop_line front line behind long]
  cases found : searchCli (line.drop cliCmdPrefix.length ++ cr :: behind) cliMax with
  | none => simp [alive]
  | some info =>
      have inside := length_of_searchCli found
      rw [List.length_drop] at inside
      have value := value_line front line behind
        (k := cliCmdPrefix.length + cliCmdLength) (by omega)
      rw [← Nat.add_assoc] at value
      simp only [value, Option.map_some, List.drop_drop, ← Nat.add_assoc]
      generalize console.dispatch handle _ = next
      cases next.rebooted <;> simp

/-- **A line is read by itself**, whatever stands behind it. -/
theorem parserCliLine_eq (front line behind : List UInt8) {console : Console σ}
    (alive : console.rebooted = false) (fuel : ℕ) (enough : line.length < fuel) :
    HasRead handle console (front.length + line.length) line
      (parserCliLine handle (front ++ (line ++ cr :: behind)) (front.length + line.length)
        fuel front.length console) := by
  induction line generalizing front fuel with
  | nil =>
      obtain ⟨fuel, rfl⟩ := Nat.exists_eq_succ_of_ne_zero (Nat.ne_zero_of_lt enough)
      exact parserCliLine_short handle front [] behind alive fuel (by decide +kernel)
  | cons b line ih =>
      obtain ⟨fuel, rfl⟩ := Nat.exists_eq_succ_of_ne_zero (Nat.ne_zero_of_lt enough)
      rcases Nat.lt_or_ge (b :: line).length cliCmdPrefix.length with short | long
      · exact parserCliLine_short handle front (b :: line) behind alive fuel short
      by_cases here : SameText ((b :: line).take cliCmdPrefix.length) cliCmdPrefix
      · exact parserCliLine_found handle front (b :: line) behind alive fuel long here
      · -- the pointer moves on by one byte
        have moved := ih (front ++ [b]) fuel (by rw [List.length_cons] at enough; omega)
        have same : console.readLine handle (b :: line) = console.readLine handle line := by
          rw [Console.readLine, commandOf, behindPrefix, if_neg here]
          rfl
        have prefix_ : strncasecmp ((front ++ (b :: line ++ cr :: behind)).drop front.length)
            cliCmdPrefix cliCmdPrefix.length ≠ 0 := by
          rw [List.drop_left]
          exact fun found => here ((strncasecmp_begins long _).mp found)
        have memory : front ++ [b] ++ (line ++ cr :: behind) =
            front ++ (b :: line ++ cr :: behind) := by simp
        have length : (front ++ [b]).length = front.length + 1 := by simp
        have end_ : front.length + 1 + line.length = front.length + (b :: line).length := by
          rw [List.length_cons]
          omega
        have three : cliCmdPrefix.length = 3 := by decide +kernel
        rw [memory, length, end_] at moved
        have on : front.length + 1 < front.length + (b :: line).length := by omega
        rw [HasRead, same, parserCliLine, if_neg (by omega), if_neg prefix_]
        simp only [alive, Bool.false_eq_true, if_false, if_pos on]
        exact moved

/-! ## What has been received -/

/-- Bytes that end no line are passed over. -/
theorem parserCliLoop_skip (front line behind : List UInt8) (noCr : cr ∉ line) (left begin_ : ℕ)
    {console : Console σ} (alive : console.rebooted = false) :
    parserCliLoop handle (front ++ (line ++ behind)) (line.length + left) front.length begin_
        console =
      parserCliLoop handle (front ++ (line ++ behind)) left (front.length + line.length) begin_
        console := by
  induction line generalizing front with
  | nil => simp
  | cons b line ih =>
      have here : byteAt (front ++ (b :: line ++ behind)) front.length = b := by
        rw [byteAt_eq, List.getElem?_append_right le_rfl, Nat.sub_self]
        rfl
      have other : b ≠ cr := fun same => noCr (same ▸ List.mem_cons_self)
      have moved := ih (front ++ [b]) fun member => noCr (List.mem_cons_of_mem b member)
      have memory : front ++ [b] ++ (line ++ behind) = front ++ (b :: line ++ behind) := by simp
      have length : (front ++ [b]).length = front.length + 1 := by simp
      rw [memory, length] at moved
      have count : (b :: line).length + left = line.length + left + 1 := by
        rw [List.length_cons]
        omega
      rw [count, parserCliLoop, here]
      simp only [if_neg other, alive, Bool.false_eq_true, if_false, moved]
      rw [List.length_cons, Nat.add_assoc, Nat.add_comm 1]

theorem readLines_cons (console : Console σ) (line : List UInt8) (lines : List (List UInt8)) :
    console.readLines handle (line :: lines) =
      (console.readLine handle line).readLines handle lines := rfl

theorem readLines_append (console : Console σ) (lines more : List (List UInt8)) :
    console.readLines handle (lines ++ more) = (console.readLines handle lines).readLines handle more :=
  List.foldl_append

theorem readLines_rebooted {console : Console σ} (rebooted : console.rebooted = true)
    (lines : List (List UInt8)) : console.readLines handle lines = console := by
  induction lines with
  | nil => rfl
  | cons line lines ih =>
      rw [Console.readLines, List.foldl_cons, Console.readLine, if_pos rebooted]
      exact ih

/-- The outer loop reads the lines that end in what has been received. -/
theorem parserCliLoop_eq {stream rest : List UInt8} {lines : List (List UInt8)}
    (all : InLines cr stream lines rest) (front : List UInt8) {console : Console σ}
    (alive : console.rebooted = false) :
    ∃ begin_, parserCliLoop handle (front ++ stream) stream.length front.length front.length console =
        (begin_, console.readLines handle lines) ∧
      ((console.readLines handle lines).rebooted = false →
        begin_ + rest.length = (front ++ stream).length) := by
  induction lines generalizing stream front console with
  | nil =>
      obtain rfl : stream = rest := all.split
      have skipped := parserCliLoop_skip handle front stream [] all.unfinished 0 front.length alive
      rw [List.append_nil, Nat.add_zero] at skipped
      refine ⟨front.length, skipped, fun _ => ?_⟩
      rw [List.length_append]
  | cons line lines ih =>
      obtain ⟨behind, rfl, noCr, later⟩ := all.uncons
      have here : byteAt (front ++ (line ++ cr :: behind)) (front.length + line.length) = cr := by
        rw [← List.append_assoc, byteAt_eq, ← List.length_append,
          List.getElem?_append_right le_rfl, Nat.sub_self]
        rfl
      have count : (line ++ cr :: behind).length = line.length + (behind.length + 1) := by
        rw [List.length_append, List.length_cons]
      have fuel : front.length + line.length + 1 - front.length = line.length + 1 := by omega
      have read := parserCliLine_eq handle front line behind alive (line.length + 1)
        (Nat.lt_succ_self _)
      rw [count, parserCliLoop_skip handle front line _ noCr _ _ alive, parserCliLoop, here,
        if_pos rfl, fuel]
      generalize parserCliLine handle (front ++ (line ++ cr :: behind)) (front.length + line.length)
        (line.length + 1) front.length console = result at read ⊢
      obtain ⟨begin_, after⟩ := result
      obtain ⟨rfl, ends⟩ := read
      have ends : (console.readLine handle line).rebooted = false →
        begin_ = front.length + line.length + 1 := ends
      rw [readLines_cons]
      dsimp only
      cases next : (console.readLine handle line).rebooted with
      | true =>
          rw [if_pos rfl, readLines_rebooted handle next]
          exact ⟨_, rfl, fun alive => absurd (next.symm.trans alive) (by decide)⟩
      | false =>
          have memory : front ++ (line ++ cr :: behind) = front ++ (line ++ [cr]) ++ behind := by simp
          have length : (front ++ (line ++ [cr])).length = front.length + line.length + 1 := by
            simp [Nat.add_assoc]
          have further := ih later (front ++ (line ++ [cr])) next
          rw [length, ← memory] at further
          rw [if_neg Bool.false_ne_true, ends next]
          exact further

/-- **What has been received gives the commands of its lines**, and what is consumed ends behind
the last of them. -/
theorem parserCliCommand_eq {p rest : List UInt8} {lines : List (List UInt8)}
    (all : InLines cr p lines rest) {console : Console σ} (alive : console.rebooted = false) :
    ∃ consumed, parserCliCommand handle p console = (consumed, console.readLines handle lines) ∧
      ((console.readLines handle lines).rebooted = false → consumed + rest.length = p.length) := by
  have loop := parserCliLoop_eq handle all [] alive
  cases p with
  | nil =>
      obtain ⟨rfl, rfl⟩ := all.unique (.of_unfinished List.not_mem_nil)
      exact ⟨0, rfl, fun _ => rfl⟩
  | cons b p =>
      rw [parserCliCommand, if_pos (by simp)]
      exact loop

end

end WhaleShark
