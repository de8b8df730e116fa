import WhaleShark.Gateway.FieldCommands

/-!
# The command for the access point

`AT+SSID=ssid/password` should leave the name and the password of the access point in the
configuration (`SetsAp`). `OnSetApSSID` copies the value into an array of 32 bytes. A value of more
bytes is written past it, and one of 32 bytes has no `NUL` behind it but the one that the stack may
hold. The setters then pass over a beginning of what is stored, so that in particular a password is
not cleared (`sets_ap_iff`).
-/

set_option autoImplicit false

namespace WhaleShark

open Foundations

/-- `/` -/
def slash : UInt8 := 0x2F

/-- The value of the command. -/
def apValue (ssid password : List UInt8) : List UInt8 := ssid ++ slash :: password

/-- The name and the password that are read afterwards. -/
def SetsAp (ssid password : List UInt8) (after : Option Ram) : Prop :=
  ∃ s, after = some s ∧ cString (s.at_ .apSSID) = ssid ∧ cString (s.at_ .apPassword) = password

/-- The names and passwords that can be given. -/
structure ApText (ssid password : List UInt8) : Prop where
  some_ : 0 < ssid.length
  short : ssid.length < ConfigField.apSSID.length
  letters : ∀ b ∈ ssid, b ≠ 0 ∧ b ≠ slash ∧ b ≠ cr
  shortPassword : password.length < ConfigField.apPassword.length
  passwordLetters : ∀ b ∈ password, b ≠ 0 ∧ b ≠ cr
  begins : byteAt password 0 ≠ slash

namespace Ram

/-- What stands in the array behind the name and the separator. -/
def behindSsid (stack ssid password : List UInt8) : List UInt8 :=
  password ++ (List.replicate (buffSize - (apValue ssid password).length) 0 ++ stack.drop buffSize)

/-- The second half of `OnSetApSSID`: the password. -/
def onPassword (ssid behind : List UInt8) (s : Ram) : Option Ram :=
  if byteAt behind 0 ≠ 0 then
    (strtok buffSize (ssid ++ 0 :: behind) (some (ssid.length + 1)) [cr]).bind fun password =>
    password.token.map fun apInformation =>
      setApPassword (cString (password.memory.drop apInformation)) s
  else some (setApPassword [] s)

section

variable {ssid password : List UInt8} (given : ApText ssid password)

include given in
theorem ssid_ne_nil : ssid ≠ [] := List.ne_nil_of_length_pos given.some_

include given in
/-- The name is the first token. -/
theorem strtok_ssid (behind : List UInt8) :
    strtok buffSize (ssid ++ slash :: behind) (some 0) (text "/") =
      some ⟨some 0, ssid ++ 0 :: behind, some (ssid.length + 1)⟩ := by
  have delim : text "/" = [slash] := by decide +kernel
  have splits : Splits (text "/") [] ssid (slash :: behind) := by
    refine ⟨by simp, fun b member => ?_, .inr ⟨ssid_ne_nil given, ?_⟩⟩
    · rw [delim, List.mem_singleton]
      exact ⟨(given.letters b member).1, (given.letters b member).2.1⟩
    · rw [delim]
      exact List.mem_singleton_self slash
  have does := strtok_eq splits buffSize []
  have notNul : byteAt (slash :: behind) 0 ≠ 0 := by
    show slash ≠ 0
    decide
  have inside : ¬ buffSize ≤ ssid.length := Nat.not_le_of_lt given.short
  simpa [ssid_ne_nil given, notNul, inside] using does

include given in
/-- A value that fits into the array sets the name, and then the password. -/
theorem onSetApSSID_eq (stack : List UInt8) (fits : (apValue ssid password).length ≤ buffSize)
    (s : Ram) : onSetApSSID stack (apValue ssid password) s =
      onPassword ssid (behindSsid stack ssid password) (setApSSID ssid s) := by
  have some_ : 0 < (apValue ssid password).length := by simp [apValue]
  have memory : apValue ssid password ++
      List.replicate (buffSize - (apValue ssid password).length) 0 ++ stack.drop buffSize =
      ssid ++ slash :: behindSsid stack ssid password := by
    simp [apValue, behindSsid]
  have noNul : ∀ b ∈ ssid, b ≠ 0 := fun b member => (given.letters b member).1
  have name (rest : List UInt8) : cString (ssid ++ 0 :: rest) = ssid := by
    rw [cString_eq_iff noNul, byteAt_append_right le_rfl, Nat.sub_self]
    exact ⟨List.prefix_append _ _, rfl⟩
  have peeked (rest : List UInt8) : byteAt (ssid ++ 0 :: rest) (ssid.length + 1) = byteAt rest 0 := by
    rw [byteAt_append_right (Nat.le_add_right _ _), Nat.add_sub_cancel_left]
    rfl
  rw [onSetApSSID, if_pos some_, if_neg (Nat.not_lt_of_le fits)]
  simp only [memory, strtok_ssid given, Option.bind_some, List.drop_zero, name, rtStrlen, peeked]
  rw [onPassword]
  split
  · rfl
  · obtain ⟨b, rest, rfl⟩ := List.exists_cons_of_ne_nil (ssid_ne_nil given)
    rfl

end

/-! ## The password -/

/-- A password with a `NUL` behind it is set. -/
theorem onPassword_of_ended {ssid password rest : List UInt8}
    (noNul : ∀ b ∈ password, b ≠ 0 ∧ b ≠ cr) (ended : byteAt rest 0 = 0) (s : Ram) :
    onPassword ssid (password ++ rest) s = some (setApPassword password s) := by
  rw [onPassword]
  cases password with
  | nil => rw [List.nil_append, if_neg (not_not.mpr ended)]
  | cons b password =>
      have notNul : byteAt (b :: password ++ rest) 0 ≠ 0 := (noNul b List.mem_cons_self).1
      have splits : Splits [cr] [] (b :: password) rest := by
        refine ⟨by simp, fun c member => ?_, .inl ended⟩
        rw [List.mem_singleton]
        exact noNul c member
      have does := strtok_eq splits buffSize (ssid ++ [0])
      have front : (ssid ++ [0]).length = ssid.length + 1 := by simp
      have memory : ssid ++ [0] ++ ([] ++ (b :: password ++ rest)) =
          ssid ++ 0 :: (b :: password ++ rest) := by simp
      rw [memory, front, if_neg (List.cons_ne_nil b password), if_pos ended] at does
      have at_ : (ssid ++ 0 :: (b :: password ++ rest)).drop (ssid.length + 1) =
          b :: password ++ rest := by
        rw [← List.drop_drop, List.drop_left]
        rfl
      have token : cString (b :: password ++ rest) = b :: password := by
        rw [cString_eq_iff fun c member => (noNul c member).1, byteAt_append_right le_rfl,
          Nat.sub_self]
        exact ⟨List.prefix_append _ _, ended⟩
      rw [if_pos notNul, does]
      simp only [Option.bind_some, Option.map_some, List.length_nil, Nat.add_zero, at_, token]

/-- Where the array has no room for a `NUL` and none stands behind it, what is set as password is
longer, if anything is. -/
theorem onPassword_of_open {ssid password rest : List UInt8}
    (noNul : ∀ b ∈ password, b ≠ 0 ∧ b ≠ cr) (open_ : byteAt rest 0 ≠ 0)
    (full : buffSize ≤ ssid.length + 1 + password.length) {s s' : Ram}
    (does : onPassword ssid (password ++ rest) s = some s') :
    ∃ token, s' = setApPassword token s ∧ (∀ b ∈ token, b ≠ 0) ∧
      password.length < token.length := by
  have first : byteAt (password ++ rest) 0 ≠ 0 := by
    cases password with
    | nil => exact open_
    | cons b password => exact (noNul b List.mem_cons_self).1
  obtain ⟨leading, token, behind, whole, splits⟩ := exists_splits [cr] (password ++ rest)
  have token_eq := strtok_eq splits buffSize (ssid ++ [0])
  have front : (ssid ++ [0]).length = ssid.length + 1 := by simp
  have memory : ssid ++ [0] ++ (leading ++ (token ++ behind)) =
      ssid ++ 0 :: (password ++ rest) := by simp [whole]
  rw [memory, front] at token_eq
  rw [onPassword, if_pos first, token_eq] at does
  -- the password is not longer than what is passed over
  have reaches : password.length ≤ leading.length + token.length := by
    by_contra longer
    have inside : leading.length + token.length < password.length := Nat.lt_of_not_le longer
    have here : byteAt password (leading.length + token.length) = byteAt behind 0 := by
      rw [← byteAt_append_left (q := rest) inside, whole, ← List.append_assoc,
        byteAt_append_right (by rw [List.length_append]), List.length_append, Nat.sub_self]
    have member := noNul _ (byteAt_mem inside)
    rw [here] at member
    rcases splits.ends with zero | ⟨-, delim⟩
    · exact member.1 zero
    · exact member.2 (List.mem_singleton.mp delim)
  by_cases empty : token = []
  · rw [if_pos empty] at does
    simp at does
  rw [if_neg empty] at does
  by_cases ended : byteAt behind 0 = 0
  · rw [if_pos ended] at does
    have at_ : (ssid ++ 0 :: (password ++ rest)).drop (ssid.length + 1 + leading.length) =
        token ++ behind := by
      rw [← memory, ← front, ← List.drop_drop, List.drop_left, List.drop_left]
    have string : cString (token ++ behind) = token := by
      rw [cString_eq_iff fun c member => (splits.inside c member).1, byteAt_append_right le_rfl,
        Nat.sub_self]
      exact ⟨List.prefix_append _ _, ended⟩
    simp only [Option.bind_some, Option.map_some, at_, string, Option.some.injEq] at does
    refine ⟨token, does.symm, fun b member => (splits.inside b member).1, ?_⟩
    cases password with
    | nil => exact List.length_pos_iff.mpr empty
    | cons b password =>
        -- the password does not begin with a delimiter, and more than it is passed over
        have none_ : leading = [] := by
          cases leading with
          | nil => rfl
          | cons c leading =>
              obtain ⟨rfl, -⟩ := List.cons.inj whole
              have delim := (splits.leads _ List.mem_cons_self).2
              exact absurd (List.mem_singleton.mp delim) (noNul _ List.mem_cons_self).2
        subst none_
        rw [List.nil_append] at whole
        refine Nat.lt_of_le_of_ne (by simpa using reaches) fun same => open_ ?_
        obtain ⟨-, rfl⟩ := List.append_inj whole same
        exact ended
  · rw [if_neg ended, if_pos (by omega)] at does
    cases does

/-- What is longer than a password is not read as it. -/
theorem password_ne_of_longer {password token : List UInt8} (noNul : ∀ b ∈ token, b ≠ 0)
    (short : password.length < ConfigField.apPassword.length)
    (longer : password.length < token.length) (s : Ram) :
    cString ((setApPassword token s).at_ .apPassword) ≠ password := by
  intro same
  have begins : token.take ConfigField.apPassword.length <+:
      (withText s.memory ConfigField.apPassword.offset ConfigField.apPassword.length
        token).cells.drop ConfigField.apPassword.offset :=
    take_prefix_withText s.memory noNul (by decide)
  have read : token.take ConfigField.apPassword.length <+: password := by
    rw [← same, prefix_cString_iff fun b member => noNul b (List.mem_of_mem_take member), at_,
      setApPassword, setTextIn_memory]
    exact begins
  have count := read.length_le
  rw [List.length_take] at count
  omega

end Ram

/-! ## Both -/

section

variable {ssid password : List UInt8} (given : ApText ssid password)

include given in
/-- What the two setters leave. -/
theorem setters_iff (s : Ram) :
    SetsAp ssid password (some (Ram.setApPassword password (Ram.setApSSID ssid s))) ↔
      ¬ (ssid <+: cString (s.at_ .apSSID) ∧ ssid ≠ cString (s.at_ .apSSID)) ∧
      ¬ (password <+: cString (s.at_ .apPassword) ∧ password ≠ cString (s.at_ .apPassword)) := by
  have noNul : ∀ b ∈ ssid, b ≠ 0 := fun b member => (given.letters b member).1
  have noNulPassword : ∀ b ∈ password, b ≠ 0 := fun b member =>
    (given.passwordLetters b member).1
  -- setting the password leaves the name
  have name : cString ((Ram.setApPassword password (Ram.setApSSID ssid s)).at_ .apSSID) = ssid ↔
      cString ((Ram.setApSSID ssid s).at_ .apSSID) = ssid := by
    refine cString_eq_iff_of_take noNul given.short ?_
    rw [Ram.at_, Ram.setApPassword, Ram.setTextIn_memory]
    exact read_withText_before _ (by decide)
  -- and setting the name what is stored as password
  have stored : (Ram.setApSSID ssid s).at_ .apPassword = s.at_ .apPassword := by
    rw [Ram.at_, Ram.setApSSID, Ram.setTextIn_memory]
    exact drop_withText _ (Nat.le_of_lt given.short) (by decide)
  have first : cString ((Ram.setApSSID ssid s).at_ .apSSID) = ssid ↔
      ¬ (ssid <+: cString (s.at_ .apSSID) ∧ ssid ≠ cString (s.at_ .apSSID)) := by
    rw [Ram.at_, Ram.setApSSID, Ram.setTextIn_memory]
    exact cString_withText_iff _ (by decide) given.short noNul
  have second : cString ((Ram.setApPassword password (Ram.setApSSID ssid s)).at_ .apPassword) =
      password ↔ ¬ (password <+: cString (s.at_ .apPassword) ∧
        password ≠ cString (s.at_ .apPassword)) := by
    rw [← stored, Ram.at_, Ram.setApPassword, Ram.setTextIn_memory]
    exact cString_withText_iff _ (by decide) given.shortPassword noNulPassword
  rw [← first, ← second, ← name]
  constructor
  · rintro ⟨s', same, both⟩
    cases same
    exact both
  · exact fun both => ⟨_, rfl, both⟩

/-- The first byte behind the password. -/
theorem byteAt_behindSsid (stack : List UInt8) {room : ℕ} :
    byteAt (List.replicate room 0 ++ stack.drop buffSize) 0 =
      if room = 0 then byteAt stack buffSize else 0 := by
  cases room with
  | zero => rw [List.replicate_zero, List.nil_append, byteAt_drop, Nat.add_zero, if_pos rfl]
  | succ room => rw [if_neg (Nat.succ_ne_zero room)]; rfl

include given in
theorem onSetApSSID_iff (stack : List UInt8) (s : Ram) :
    SetsAp ssid password (Ram.onSetApSSID stack (apValue ssid password) s) ↔
      ((apValue ssid password).length < buffSize ∨
        (apValue ssid password).length = buffSize ∧ byteAt stack buffSize = 0) ∧
      ¬ (ssid <+: cString (s.at_ .apSSID) ∧ ssid ≠ cString (s.at_ .apSSID)) ∧
      ¬ (password <+: cString (s.at_ .apPassword) ∧ password ≠ cString (s.at_ .apPassword)) := by
  have length : (apValue ssid password).length = ssid.length + 1 + password.length := by
    simp [apValue, Nat.add_assoc, Nat.add_comm 1]
  rcases Nat.lt_or_ge buffSize (apValue ssid password).length with long | fits
  · have past : Ram.onSetApSSID stack (apValue ssid password) s = none := by
      rw [Ram.onSetApSSID, if_pos (Nat.zero_lt_of_lt long), if_pos long]
    rw [past]
    constructor
    · rintro ⟨s', none_, -⟩
      cases none_
    · rintro ⟨room | ⟨full, -⟩, -⟩ <;> omega
  · rw [Ram.onSetApSSID_eq given stack fits, Ram.behindSsid]
    by_cases ended : byteAt (List.replicate (buffSize - (apValue ssid password).length) 0 ++
        stack.drop buffSize) 0 = 0
    · have room : (apValue ssid password).length < buffSize ∨
          (apValue ssid password).length = buffSize ∧ byteAt stack buffSize = 0 := by
        rw [byteAt_behindSsid] at ended
        split at ended
        · exact .inr ⟨by omega, ended⟩
        · exact .inl (by omega)
      rw [Ram.onPassword_of_ended given.passwordLetters ended, setters_iff given]
      exact ⟨fun both => ⟨room, both⟩, And.right⟩
    · have full : buffSize = (apValue ssid password).length ∧ byteAt stack buffSize ≠ 0 := by
        rw [byteAt_behindSsid] at ended
        split at ended
        · exact ⟨by omega, ended⟩
        · exact absurd rfl ended
      constructor
      · rintro ⟨s', does, -, same⟩
        obtain ⟨token, rfl, noNul, longer⟩ := Ram.onPassword_of_open given.passwordLetters ended
          (by rw [full.1, length]) does
        exact absurd same (Ram.password_ne_of_longer noNul given.shortPassword longer _)
      · rintro ⟨room | ⟨-, zero⟩, -⟩
        · omega
        · exact absurd zero full.2

end

/-- What the command line leaves. -/
def afterSsid (stack : List UInt8) (others : CliHandlers Ram) (ssid password : List UInt8)
    (console : Console (Option Ram)) : Option Ram :=
  (parserCliCommand (cliHandlers stack others)
    (setLine (text "SSID") (apValue ssid password) ++ [cr]) console).2.system

theorem afterSsid_eq {stack : List UInt8} {others : CliHandlers Ram} {ssid password : List UInt8}
    (noCr : cr ∉ apValue ssid password) {console : Console (Option Ram)}
    (alive : console.rebooted = false) {s : Ram} (system : console.system = some s) :
    afterSsid stack others ssid password console =
      Ram.onSetApSSID stack (apValue ssid password) s := by
  have member : (⟨.ssid, text "SSID"⟩ : CliInfo) ∈ sCliInfo := by decide +kernel
  rw [afterSsid, parserCliCommand_setLine _ member noCr alive, system]
  rfl

/-- **The command sets the name and the password exactly when** the value and a `NUL` have room in the
array, or it has and the stack holds the `NUL` behind, and neither is a proper beginning of the one
that is stored. -/
theorem sets_ap_iff (stack : List UInt8) (others : CliHandlers Ram) {ssid password : List UInt8}
    (given : ApText ssid password) {console : Console (Option Ram)}
    (alive : console.rebooted = false) {s : Ram} (system : console.system = some s) :
    SetsAp ssid password (afterSsid stack others ssid password console) ↔
      ((apValue ssid password).length < buffSize ∨
        (apValue ssid password).length = buffSize ∧ byteAt stack buffSize = 0) ∧
      ¬ (ssid <+: cString (s.at_ .apSSID) ∧ ssid ≠ cString (s.at_ .apSSID)) ∧
      ¬ (password <+: cString (s.at_ .apPassword) ∧ password ≠ cString (s.at_ .apPassword)) := by
  have noCr : cr ∉ apValue ssid password := by
    rw [apValue, List.mem_append, List.mem_cons]
    rintro (inside | same | inside)
    · exact (given.letters cr inside).2.2 rfl
    · exact absurd same (by decide)
    · exact (given.passwordLetters cr inside).2 rfl
  rw [afterSsid_eq noCr alive system, onSetApSSID_iff given]

theorem sets_ap_iff_lab :
    SetsAp (text "lab") (text "secret/1")
      (afterSsid [] idleHandlers (text "lab") (text "secret/1") factoryConsole) :=
  (sets_ap_iff [] idleHandlers
    ⟨by decide +kernel, by decide +kernel, by decide +kernel, by decide +kernel, by decide +kernel,
      by decide +kernel⟩ rfl rfl).mpr (by decide +kernel)

/-- **A password is not cleared, and a value of 33 bytes is written past the array.** -/
theorem password_is_not_cleared :
    ¬ SetsAp (text "lab") [] (afterSsid [] idleHandlers (text "lab") [] factoryConsole) ∧
      afterSsid [] idleHandlers (text "laboratory") (text "a-password-of-22-bytes")
        factoryConsole = none := by
  have short : ApText (text "lab") [] :=
    ⟨by decide +kernel, by decide +kernel, by decide +kernel, by decide +kernel, by simp, by decide⟩
  constructor
  · rw [afterSsid_eq (by decide +kernel) rfl rfl, onSetApSSID_iff short]
    decide +kernel
  · rw [afterSsid_eq (by decide +kernel) rfl rfl]
    decide +kernel

end WhaleShark
