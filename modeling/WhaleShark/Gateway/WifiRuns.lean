import WhaleShark.Gateway.WifiReads

/-!
# Lines cut into reads

The lines that the Wi-Fi module sends reach `ParserWifiData` in whatever pieces the reads return.
Each read hands it what was left of the reads before and the new bytes. It says of the lines what
they say of themselves (`lines_are_classified`) as long as every read is `Separate`: at most one line
ends behind the first byte that can begin an answer, there is room in the buffer, the byte behind
those received does not look like the end of the line, and `responseLen` suits the report.

`two_lines_in_a_read` is a read with two lines, where the second one is decided by the first.
-/

set_option autoImplicit false

namespace WhaleShark.Network

open Foundations

/-! ## What has been read and said -/

/-- What the receive buffer holds. -/
def WifiThread.held (t : WifiThread) : List UInt8 := t.wifi.rxBuf.read 0 t.uRemain

/-- The bytes an event reads. -/
def WifiEvent.bytes : WifiEvent → List UInt8
  | .read bytes => bytes
  | _ => []

/-- The bytes read over a run. -/
def bytesRead (taken : List WifiTransition) : List UInt8 := taken.flatMap fun τ => τ.event.bytes

/-- What a step says of the lines. -/
def WifiOutput.said : WifiOutput → List Answer
  | .answers said => said
  | _ => []

/-- What was said of the lines over a run. -/
def answersOf (taken : List WifiTransition) : List Answer := taken.flatMap fun τ => τ.output.said

/-- A read after which the parser looks at one line at most, which it can tell. -/
structure Separate (t : WifiThread) (bytes : List UInt8) : Prop where
  room : t.uRemain + bytes.length < wifiRxBuff
  single : ∀ found ∈ splitLine cr lf (fromAnswer (t.held ++ bytes)),
    splitLine cr lf found.2 = none
  suits : ∀ found ∈ splitLine cr lf (fromAnswer (t.held ++ bytes)),
    byteAt found.1 0 = 0x2B → Suits t.wifi.responseLen found.1.tail
  notBehind : (t.held ++ bytes).getLast? = some cr →
    byteAt t.wifi.rxBuf.cells (t.uRemain + bytes.length) ≠ lf

instance (t : WifiThread) (bytes : List UInt8) : Decidable (Separate t bytes) :=
  decidable_of_iff (t.uRemain + bytes.length < wifiRxBuff ∧
      (∀ found ∈ splitLine cr lf (fromAnswer (t.held ++ bytes)),
        splitLine cr lf found.2 = none) ∧
      (∀ found ∈ splitLine cr lf (fromAnswer (t.held ++ bytes)),
        byteAt found.1 0 = 0x2B → Suits t.wifi.responseLen found.1.tail) ∧
      ((t.held ++ bytes).getLast? = some cr →
        byteAt t.wifi.rxBuf.cells (t.uRemain + bytes.length) ≠ lf))
    ⟨fun ⟨room, single, suits, notBehind⟩ => ⟨room, single, suits, notBehind⟩,
      fun ⟨room, single, suits, notBehind⟩ => ⟨room, single, suits, notBehind⟩⟩

/-- The step reads nothing, or reads separately. -/
def ReadsSeparately (τ : WifiTransition) : Prop :=
  τ.event.bytes ≠ [] → Separate τ.source τ.event.bytes

instance (τ : WifiTransition) : Decidable (ReadsSeparately τ) :=
  inferInstanceAs (Decidable (_ → _))

/-- A line of the stream. -/
structure Proper (line : List UInt8) : Prop where
  short : line.length ≤ 254
  unbroken : Unbroken cr lf line
  noPrompt : (0x3E : UInt8) ∉ line

instance (line : List UInt8) : Decidable (Proper line) :=
  decidable_of_iff (line.length ≤ 254 ∧ splitLine cr lf line = none ∧ (0x3E : UInt8) ∉ line)
    ⟨fun ⟨short, unbroken, noPrompt⟩ => ⟨short, splitLine_eq_none_iff.mp unbroken, noPrompt⟩,
      fun ⟨short, unbroken, noPrompt⟩ => ⟨short, splitLine_eq_none_iff.mpr unbroken, noPrompt⟩⟩

/-! ## A read -/

theorem length_held (t : WifiThread) (room : t.uRemain < wifiRxBuff) :
    t.held.length = t.uRemain := by
  rw [WifiThread.held, Block.length_read]
  omega

/-- What the parser is given. -/
theorem looks_of_separate {env : Surroundings} {t : WifiThread} {bytes : List UInt8}
    (notNull : env.atNull ≠ 0x3E) (separate : Separate t bytes) (some_ : bytes ≠ [])
    (noPrompt : (0x3E : UInt8) ∉ t.held ++ bytes) :
    (t.held ++ bytes).length = t.uRemain + bytes.length ∧
      Looks env (t.filled bytes) (t.held ++ bytes) := by
  have room := separate.room
  have count : (t.held ++ bytes).length = t.uRemain + bytes.length := by
    rw [List.length_append, length_held t (by omega)]
  refine ⟨count, by simp [some_], by omega, ?_, noPrompt, notNull, ?_⟩
  · rw [count]
    exact Block.read_write_append _ _ _ (by omega)
  · intro ends
    rw [count, WifiThread.filled, byteAt_eq, Block.getElem?_write, if_pos room, if_neg (by omega),
      ← byteAt_eq]
    exact separate.notBehind ends

/-- **A read without a line end** keeps what it was given. -/
theorem readBytes_quiet {env : Surroundings} {t : WifiThread} {bytes : List UInt8}
    (notNull : env.atNull ≠ 0x3E) (separate : Separate t bytes) (some_ : bytes ≠ [])
    (noPrompt : (0x3E : UInt8) ∉ t.held ++ bytes)
    (nothing : splitLine cr lf (fromAnswer (t.held ++ bytes)) = none) :
    (readBytes env t bytes).2 = [] ∧ (readBytes env t bytes).1.held = t.held ++ bytes := by
  obtain ⟨count, looks⟩ := looks_of_separate notNull separate some_ noPrompt
  obtain ⟨wifi, consumed, answers⟩ := parserWifiData_quiet looks nothing
  rw [count] at wifi consumed answers
  have left : (readBytes env t bytes).1.uRemain = t.uRemain + bytes.length := by
    simp only [readBytes, consumed, Nat.sub_zero]
  refine ⟨answers, ?_⟩
  rw [WifiThread.held, left, ← count]
  simp only [readBytes, consumed, Nat.lt_irrefl, false_and, if_false, wifi]
  exact looks.holds

/-- What is brought to the front when everything before an `LF` is consumed. -/
theorem read_moveDown_behind {b b' : Block UInt8 wifiRxBuff} {front behind : List UInt8}
    (room : front.length + (behind.length + 1) ≤ wifiRxBuff)
    (holds : b.read 0 (front.length + (behind.length + 1)) = front ++ lf :: behind)
    (overwritten : b' = b ∨ b' = b.write front.length [0]) :
    ∃ feed, beginsAnswer feed = false ∧
      (b'.moveDown front.length (behind.length + 1)).read 0 (behind.length + 1) =
        feed :: behind := by
  rw [Block.read_moveDown _ _ _ room]
  have own : b.read front.length (behind.length + 1) = lf :: behind := by
    have dropped := Block.drop_read b 0 (front.length + (behind.length + 1)) front.length
    rw [holds, List.drop_left, Nat.zero_add, Nat.add_sub_cancel_left] at dropped
    exact dropped.symm
  rcases overwritten with rfl | rfl
  · exact ⟨lf, by decide, own⟩
  · have tail : b.read (front.length + 1) behind.length = behind := by
      have dropped := Block.drop_read b front.length (behind.length + 1) 1
      rw [own] at dropped
      exact dropped.symm
    have feed := Block.read_write_self b front.length [0] (by simp; omega)
    have after := Block.read_write_after b front.length [0] (front.length + 1) behind.length
      (by simp)
    refine ⟨0, by decide, ?_⟩
    rw [List.length_singleton] at feed
    rw [Nat.add_comm behind.length 1, Block.read_add, after, tail, feed]
    rfl

/-- **A read with one line end** says what the line says. It keeps what is behind the line, after
one byte that begins nothing. -/
theorem readBytes_line {env : Surroundings} {t : WifiThread} {bytes line behind : List UInt8}
    (notNull : env.atNull ≠ 0x3E) (separate : Separate t bytes) (some_ : bytes ≠ [])
    (noPrompt : (0x3E : UInt8) ∉ t.held ++ bytes)
    (found : splitLine cr lf (fromAnswer (t.held ++ bytes)) = some (line, behind))
    (short : line.length ≤ 254) :
    (readBytes env t bytes).2 = (classify line).toList ∧
      ∃ feed, beginsAnswer feed = false ∧ (readBytes env t bytes).1.held = feed :: behind := by
  obtain ⟨count, looks⟩ := looks_of_separate notNull separate some_ noPrompt
  obtain ⟨answers, consumed, rxBuf⟩ := parserWifiData_line looks found
    (separate.single _ found) short (separate.suits _ found)
  obtain ⟨whole, -⟩ := eq_of_splitLine found
  have suffix : fromAnswer (t.held ++ bytes) <:+ t.held ++ bytes := fromBeginning_suffix _
  obtain ⟨quiet, split_⟩ := suffix
  have regroup : (quiet ++ line ++ [cr]) ++ lf :: behind = t.held ++ bytes := by
    rw [← split_, whole]
    simp
  have holds := looks.holds
  rw [← regroup] at holds
  rw [count] at answers consumed rxBuf
  generalize front : quiet ++ line ++ [cr] = consumedBytes at regroup holds
  have total : consumedBytes.length + (behind.length + 1) = t.uRemain + bytes.length := by
    rw [← count, ← regroup, List.length_append, List.length_cons]
  have here : (parserWifiData env (t.filled bytes) (t.uRemain + bytes.length)).consumed =
      consumedBytes.length := by omega
  have some' : 0 < consumedBytes.length := by simp [← front]
  have room := separate.room
  have left : (readBytes env t bytes).1.uRemain = behind.length + 1 := by
    simp only [readBytes, here]
    omega
  refine ⟨answers, ?_⟩
  rw [here] at rxBuf
  rw [List.length_append, List.length_cons] at holds
  obtain ⟨feed, quietFeed, kept⟩ := read_moveDown_behind (by omega) holds rxBuf
  refine ⟨feed, quietFeed, ?_⟩
  rw [WifiThread.held, left]
  have rest : t.uRemain + bytes.length - consumedBytes.length = behind.length + 1 := by omega
  simp only [readBytes, here, rest]
  rw [if_pos ⟨some', Nat.succ_pos _⟩]
  exact kept

/-! ## The stream -/

/-- What the thread knows of a stream of lines: the lines whose end it has read have been told,
except for those in which nothing begins, and it holds the others as far as they were read. -/
structure Told (lines : List (List UInt8)) (past : List WifiTransition) (t : WifiThread)
    (done todo : List (List UInt8)) (feed tail : List UInt8) : Prop where
  lines_ : lines = done ++ todo
  read : bytesRead past = joinLines cr lf done ++ tail
  held : t.held = feed ++ tail
  quiet : fromAnswer feed = []
  answers : answersOf past = done.filterMap classify
  open_ : splitLine cr lf (fromAnswer tail) = none

/-- A stream that is read as far as it goes. -/
structure Reading (lines : List (List UInt8)) (past : List WifiTransition) (t : WifiThread) :
    Prop where
  room : t.uRemain < wifiRxBuff
  told : bytesRead past <+: joinLines cr lf lines →
    ∃ done todo feed tail, Told lines past t done todo feed tail

theorem bytesRead_snoc (past : List WifiTransition) (τ : WifiTransition) :
    bytesRead (past ++ [τ]) = bytesRead past ++ τ.event.bytes := by
  simp [bytesRead]

theorem answersOf_snoc (past : List WifiTransition) (τ : WifiTransition) :
    answersOf (past ++ [τ]) = answersOf past ++ τ.output.said := by
  simp [answersOf]

/-- Bytes of a stream without a prompt are not a prompt. -/
theorem noPrompt_of_prefix {lines : List (List UInt8)} (proper : ∀ line ∈ lines, Proper line)
    {l : List UInt8} (part : l <+: joinLines cr lf lines) : (0x3E : UInt8) ∉ l := by
  intro prompt
  have member := part.subset prompt
  simp only [joinLines, List.mem_flatMap, List.mem_append] at member
  obtain ⟨line, own, inside | ending⟩ := member
  · exact (proper line own).noPrompt inside
  · exact absurd ending (by decide)

theorem noPrompt_of_quiet {feed : List UInt8} (quiet : fromAnswer feed = []) :
    (0x3E : UInt8) ∉ feed := by
  intro prompt
  have none_ := List.dropWhile_eq_nil_iff.mp quiet _ prompt
  exact absurd none_ (by decide)

/-- **A read goes on with the stream.** -/
theorem Told.read_step {env : Surroundings} {lines : List (List UInt8)}
    {past : List WifiTransition} {t : WifiThread} {done todo : List (List UInt8)}
    {feed tail bytes : List UInt8} (told : Told lines past t done todo feed tail)
    (notNull : env.atNull ≠ 0x3E) (proper : ∀ line ∈ lines, Proper line)
    (themselves : ∀ line ∈ lines, classify (fromAnswer line) = classify line)
    (separate : Separate t bytes) (some_ : bytes ≠ [])
    (arrived : bytesRead past ++ bytes <+: joinLines cr lf lines) :
    ∃ done todo feed tail, lines = done ++ todo ∧
      bytesRead past ++ bytes = joinLines cr lf done ++ tail ∧
      (readBytes env t bytes).1.held = feed ++ tail ∧ fromAnswer feed = [] ∧
      answersOf past ++ (readBytes env t bytes).2 = done.filterMap classify ∧
      splitLine cr lf (fromAnswer tail) = none := by
  obtain ⟨rfl, read, held, quiet, answers, open_⟩ := told
  rw [read, List.append_assoc] at arrived
  rw [joinLines_append, List.prefix_append_right_inj] at arrived
  have seen : t.held ++ bytes = feed ++ (tail ++ bytes) := by rw [held, List.append_assoc]
  have sought : fromAnswer (t.held ++ bytes) = fromAnswer (tail ++ bytes) := by
    rw [seen]
    exact fromBeginning_append_of_quiet quiet _
  have noPrompt : (0x3E : UInt8) ∉ t.held ++ bytes := by
    rw [seen, List.mem_append, not_or]
    exact ⟨noPrompt_of_quiet quiet,
      noPrompt_of_prefix (fun line member => proper line (by simp [member])) arrived⟩
  cases found : splitLine cr lf (fromAnswer (t.held ++ bytes)) with
  | none =>
      obtain ⟨said, held'⟩ := readBytes_quiet notNull separate some_ noPrompt found
      rw [sought] at found
      exact ⟨done, todo, feed, tail ++ bytes, rfl, by rw [read, List.append_assoc],
        by rw [held', seen], quiet, by rw [said, List.append_nil, answers], found⟩
  | some split_ =>
      obtain ⟨line, behind⟩ := split_
      have single := separate.single _ found
      have lineFound := found
      rw [sought] at lineFound
      obtain ⟨skipped, whole, later, rfl, tail_, passed, own⟩ :=
        line_of_stream (by decide) (by decide) (by decide)
          (fun line member => (proper line (by simp [member])).unbroken) arrived lineFound
      replace passed : ∀ line ∈ skipped, fromAnswer line = [] := passed
      replace own : fromAnswer whole = line := own
      have short : line.length ≤ 254 := by
        rw [← own]
        exact (fromBeginning_suffix whole).length_le.trans (proper whole (by simp)).short
      obtain ⟨said, feed', quietFeed, held'⟩ :=
        readBytes_line notNull separate some_ noPrompt found short
      have silent : skipped.filterMap classify = [] := by
        rw [List.filterMap_eq_nil_iff]
        intro line member
        rw [← themselves line (by simp [member]), passed line member]
        decide +kernel
      have behind_ : splitLine cr lf (fromAnswer behind) = none := by
        rw [splitLine_eq_none_iff] at single ⊢
        exact fun broken => single (broken.trans (fromBeginning_suffix behind).isInfix)
      refine ⟨done ++ (skipped ++ [whole]), later, [feed'], behind, by simp, ?_, held',
        by simp [fromBeginning, quietFeed], ?_, behind_⟩
      · rw [read, List.append_assoc, tail_, joinLines_append done, List.append_assoc]
      · rw [said, answers, ← own, themselves whole (by simp), List.filterMap_append,
          List.filterMap_append, silent, List.nil_append]
        cases classified : classify whole <;> simp [classified]

/-- A step that reads nothing leaves the buffer and its length, unless the buffer is full. -/
theorem held_of_no_read {env : Surroundings} {t t' : WifiThread} {e : WifiEvent} {o : WifiOutput}
    (step : WifiStep env t e t' o) (none_ : e.bytes = []) (room : t.uRemain < wifiRxBuff) :
    t'.held = t.held ∧ t'.uRemain = t.uRemain ∧ o.said = [] := by
  cases step with
  | indicate => exact ⟨by simp [WifiThread.held], by simp, rfl⟩
  | store free => exact ⟨rfl, rfl, rfl⟩
  | post stored => exact ⟨by simp [WifiThread.held], by simp, rfl⟩
  | recv asking => exact ⟨by simp [WifiThread.held], by simp, rfl⟩
  | receive got rx =>
      rw [if_neg (by omega)]
      exact ⟨rfl, rfl, rfl⟩
  | transmit got rx tx => exact ⟨rfl, rfl, rfl⟩
  | ignore got rx tx => exact ⟨rfl, rfl, rfl⟩
  | read reading some_ room => exact absurd none_ some_
  | respond reading =>
      simp only [WifiThread.held, postResponse]
      cases responseMessage t.wifi.networkInfoData.response <;> exact ⟨rfl, trivial, rfl⟩
  | finish written => exact ⟨rfl, rfl, rfl⟩
  | wifiTimeout runs => exact ⟨rfl, rfl, rfl⟩
  | sendTimeout runs => exact ⟨rfl, rfl, rfl⟩

/-- **Every step goes on with the stream.** -/
theorem Reading.step {env : Surroundings} {lines : List (List UInt8)}
    {past : List WifiTransition} {τ : WifiTransition} (notNull : env.atNull ≠ 0x3E)
    (proper : ∀ line ∈ lines, Proper line)
    (themselves : ∀ line ∈ lines, classify (fromAnswer line) = classify line)
    (takes : (wifiThread env).Takes τ) (separately : ReadsSeparately τ)
    (reading : Reading lines past τ.source) : Reading lines (past ++ [τ]) τ.target := by
  obtain ⟨t, e, o, t'⟩ := τ
  have step : WifiStep env t e t' o := wifiThread_cases takes
  obtain ⟨room, told⟩ := reading
  rw [ReadsSeparately] at separately
  by_cases none_ : e.bytes = []
  · obtain ⟨held, left, said⟩ := held_of_no_read step none_ room
    have read : bytesRead (past ++ [⟨t, e, o, t'⟩]) = bytesRead past := by
      rw [bytesRead_snoc, none_, List.append_nil]
    have answered : answersOf (past ++ [⟨t, e, o, t'⟩]) = answersOf past := by
      rw [answersOf_snoc, said, List.append_nil]
    refine ⟨left ▸ room, fun arrived => ?_⟩
    rw [read] at arrived
    obtain ⟨done, todo, feed, tail, known⟩ := told arrived
    exact ⟨done, todo, feed, tail, known.lines_, read.trans known.read, held.trans known.held,
      known.quiet, answered.trans known.answers, known.open_⟩
  · cases step with
    | @read bytes reads some_ fits =>
        have separate : Separate t bytes := separately some_
        refine ⟨?_, fun arrived => ?_⟩
        · exact Nat.lt_of_le_of_lt (Nat.sub_le _ _) separate.room
        · rw [bytesRead_snoc] at arrived
          obtain ⟨done, todo, feed, tail, known⟩ := told ((List.prefix_append _ _).trans arrived)
          obtain ⟨done', todo', feed', tail', all, read, held, quiet, answers, open_⟩ :=
            known.read_step notNull proper themselves separate some_ arrived
          exact ⟨done', todo', feed', tail', all, (bytesRead_snoc _ _).trans read, held, quiet,
            (answersOf_snoc _ _).trans answers, open_⟩
    | _ => exact absurd rfl none_

/-- **Every line is classified once, by its own first bytes**, whatever the reads, when each of them
is separate and every line says the same from its first beginning on. -/
theorem lines_are_classified {env : Surroundings} {first last : WifiThread}
    {taken : List WifiTransition} {lines : List (List UInt8)}
    (run : (wifiThread env).Run first taken last) (fresh : Fresh first)
    (notNull : env.atNull ≠ 0x3E) (stream : bytesRead taken = joinLines cr lf lines)
    (proper : ∀ line ∈ lines, Proper line)
    (themselves : ∀ line ∈ lines, classify (fromAnswer line) = classify line)
    (separately : ∀ τ ∈ taken, ReadsSeparately τ) :
    answersOf taken = lines.filterMap classify := by
  have initial : Reading lines [] first := by
    refine ⟨by rw [fresh.empty]; decide, fun _ => ⟨[], lines, [], [], rfl, rfl, ?_, rfl, rfl, rfl⟩⟩
    rw [WifiThread.held, fresh.empty, Block.read_zero_length]
    rfl
  obtain ⟨reading, -⟩ := run.history (Reading lines) initial
    (fun past τ takes here before => before.step notNull proper themselves takes here) separately
  obtain ⟨done, todo, feed, tail, rfl, read, -, -, answers, open_⟩ :=
    reading.told (by rw [stream])
  rw [stream, joinLines_append, List.append_cancel_left_eq] at read
  rw [← read] at open_
  have quiet : ∀ line ∈ todo, fromAnswer line = [] :=
    quiet_of_stream (by decide) (by decide) (by decide)
      (fun line member => (proper line (by simp [member])).unbroken) open_
  have silent : todo.filterMap classify = [] := by
    rw [List.filterMap_eq_nil_iff]
    intro line member
    rw [← themselves line (by simp [member]), quiet line member]
    decide +kernel
  rw [answers, List.filterMap_append, silent, List.append_nil]

/-- A report and its `OK`, in three reads. -/
theorem lines_are_classified_mode : ∃ taken last,
    (wifiThread someSurroundings).Run startWifi taken last ∧
      answersOf taken = [.report (some .getMode), .ok] := by
  let lines := [[], text "+CWMODE_DEF:1", [], text "OK"]
  obtain ⟨taken, last, run, passed⟩ := Machine.exists_run_of_passes (wifiThread someSurroundings)
    startWifi [.store (.sendWifiCommand .queryMode), .post, .recv, .act, .finish, .indicate, .recv,
      .act, .read ([cr, lf] ++ text "+CWMODE_"), .read (text "DEF:1" ++ [cr, lf, cr]),
      .read ([lf] ++ text "OK" ++ [cr, lf]), .read []]
    (fun taken _ => bytesRead taken = joinLines cr lf lines ∧ ∀ τ ∈ taken, ReadsSeparately τ)
    (by decide +kernel)
  obtain ⟨stream, separately⟩ := of_decide_eq_true passed
  have answers := lines_are_classified run startWifi_fresh (by decide) stream
    (by decide +kernel) (by decide +kernel) separately
  exact ⟨taken, last, run, answers.trans (by decide +kernel)⟩

/-- **Two lines in a read.** The second one, which refuses the data, is decided by the first. -/
theorem two_lines_in_a_read : ∃ lines taken last,
    (wifiThread someSurroundings).Run startWifi taken last ∧ (∀ line ∈ lines, Proper line) ∧
      bytesRead taken = joinLines cr lf lines ∧ answersOf taken ≠ lines.filterMap classify := by
  obtain ⟨taken, last, run, passed⟩ := Machine.exists_run_of_passes (wifiThread someSurroundings)
    startWifi [.indicate, .recv, .act,
      .read (joinLines cr lf [text "SEND OK", text "+IPD,4:ER"]), .read []]
    (fun taken _ => bytesRead taken = joinLines cr lf [text "SEND OK", text "+IPD,4:ER"] ∧
      answersOf taken ≠ [text "SEND OK", text "+IPD,4:ER"].filterMap classify)
    (by decide +kernel)
  obtain ⟨stream, differs⟩ := of_decide_eq_true passed
  exact ⟨_, taken, last, run, by decide +kernel, stream, differs⟩

end WhaleShark.Network
