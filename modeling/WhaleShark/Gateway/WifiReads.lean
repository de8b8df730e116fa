import WhaleShark.Gateway.WifiLines

/-!
# One call of the parser

`ParserWifiData` walks over the bytes received so far and one position further. In a call that sees
no line end behind the first byte with which an answer can begin nothing happens
(`parserWifiData_quiet`). In a call that sees one, the line is decided as `decideLine_eq` says
and everything up to its `LF` is consumed (`parserWifiData_line`); behind it the walk does
nothing more (`walk_behind`). A call in which two lines end is not among these.
-/

set_option autoImplicit false

namespace WhaleShark.Network

open Foundations

/-! ## The walk in pieces -/

/-- The positions from `from_` on. -/
def walk (env : Surroundings) (s : Scan) (from_ count : ℕ) : Scan :=
  (List.range' from_ count).foldl (parseStep env) s

theorem walk_add (env : Surroundings) (s : Scan) (from_ front back : ℕ) :
    walk env s from_ (front + back) = walk env (walk env s from_ front) (from_ + front) back := by
  have split_ : List.range' from_ front ++ List.range' (from_ + front) back =
      List.range' from_ (front + back) := List.range'_append_1
  rw [walk, walk, walk, ← List.foldl_append, split_]

theorem walk_one (env : Surroundings) (s : Scan) (from_ : ℕ) :
    walk env s from_ 1 = parseStep env s from_ := rfl

/-- Positions at which nothing happens. -/
theorem walk_quiet {env : Surroundings} {s : Scan} {from_ : ℕ} (count : ℕ)
    (same : ∀ i, from_ ≤ i → i < from_ + count → parseStep env s i = s) :
    walk env s from_ count = s := by
  induction count with
  | zero => rfl
  | succ count ih =>
      rw [walk_add, ih fun i low high => same i low (by omega), walk_one,
        same (from_ + count) (by omega) (by omega)]

theorem parserWifiData_eq_walk (env : Surroundings) (w : WifiInfo) {rxSize : ℕ}
    (some_ : rxSize ≠ 0) :
    parserWifiData env w rxSize = walk env ⟨w, none, 0, []⟩ 0 (rxSize + 1) := by
  rw [parserWifiData, if_neg some_, List.range_eq_range', walk]

/-! ## One call of the parser -/

/-- The bytes from the first one with which an answer can begin. -/
abbrev fromAnswer (l : List UInt8) : List UInt8 := fromBeginning beginsAnswer l

/-- What a call of the parser looks at: `seen` has been received, and of what is behind it one byte
is looked at. -/
structure Looks (env : Surroundings) (w : WifiInfo) (seen : List UInt8) : Prop where
  some_ : seen ≠ []
  room : seen.length < wifiRxBuff
  holds : w.rxBuf.read 0 seen.length = seen
  noPrompt : (0x3E : UInt8) ∉ seen
  notNull : env.atNull ≠ 0x3E
  notBehind : seen.getLast? = some cr → byteAt w.rxBuf.cells seen.length ≠ lf

namespace Looks

variable {env : Surroundings} {w : WifiInfo} {seen : List UInt8}

theorem memory (looks : Looks env w seen) : ∃ behind, rxMemory env w = seen ++ behind := by
  refine ⟨w.rxBuf.cells.drop seen.length ++ [env.behindRxBuf], ?_⟩
  have front : w.rxBuf.cells.take seen.length = seen := by
    simpa [Block.read] using looks.holds
  rw [rxMemory, ← List.append_assoc]
  congr 1
  conv_lhs => rw [← List.take_append_drop seen.length w.rxBuf.cells, front]

theorem byteAt_seen (looks : Looks env w seen) {i : ℕ} (inside : i < seen.length) :
    byteAt (rxMemory env w) i = byteAt seen i := by
  obtain ⟨behind, split_⟩ := looks.memory
  rw [split_, byteAt_append_left inside]

/-- No line ends at the byte behind those received. -/
theorem not_end_behind (looks : Looks env w seen) :
    ¬ (byteAt (rxMemory env w) seen.length = lf ∧
      byteAt (rxMemory env w) (seen.length - 1) = cr) := by
  rintro ⟨second, first⟩
  have count := w.rxBuf.length_cells
  have room := looks.room
  have some_ : 0 < seen.length := List.length_pos_iff.mpr looks.some_
  rw [looks.byteAt_seen (by omega)] at first
  rw [rxMemory, byteAt_append_left (by omega)] at second
  refine looks.notBehind ?_ second
  rw [List.getLast?_eq_getElem?, getElem?_eq_byteAt (by omega), first]

theorem not_prompt (looks : Looks env w seen) {i : ℕ} (inside : i < seen.length) :
    byteAt (rxMemory env w) i ≠ 0x3E := by
  rw [looks.byteAt_seen inside]
  exact fun prompt => looks.noPrompt (prompt ▸ byteAt_mem inside)

/-- Nothing begins in front of the first byte with which an answer can begin. -/
theorem walk_quiet_part (looks : Looks env w seen) {quiet rest : List UInt8}
    (split_ : seen = quiet ++ rest) (none_ : ∀ q ∈ quiet, beginsAnswer q = false) :
    walk env ⟨w, none, 0, []⟩ 0 quiet.length = ⟨w, none, 0, []⟩ := by
  apply walk_quiet
  intro i _ before
  have inside : i < seen.length := by
    rw [split_, List.length_append]
    omega
  have here : byteAt (rxMemory env w) i = byteAt quiet i := by
    rw [looks.byteAt_seen inside, split_, byteAt_append_left (by omega)]
  have quiet_ : beginsAnswer (byteAt quiet i) = false := none_ _ (byteAt_mem (by omega))
  rw [parseStep_of_none env rfl]
  simp only [here, quiet_, Bool.false_eq_true, if_false, looks.notNull, false_and]

theorem walk_to_beginning (looks : Looks env w seen) {quiet rest : List UInt8} {a : UInt8}
    (split_ : seen = quiet ++ a :: rest) (none_ : ∀ q ∈ quiet, beginsAnswer q = false)
    (begins : beginsAnswer a = true) :
    walk env ⟨w, none, 0, []⟩ 0 (quiet.length + 1) = ⟨w, some quiet.length, 0, []⟩ := by
  have inside : quiet.length < seen.length := by simp [split_]
  have here : byteAt (rxMemory env w) quiet.length = a := by
    rw [looks.byteAt_seen inside, split_, byteAt_append_right (le_refl _)]
    simp [byteAt_eq]
  rw [walk_add, looks.walk_quiet_part split_ none_, Nat.zero_add, walk_one,
    parseStep_of_none env rfl]
  simp only [here, begins, if_true]

end Looks

/-- A position at which no line ends. -/
theorem parseStep_same {env : Surroundings} {s : Scan} {begin_ i : ℕ}
    (begun : s.begin_ = some begin_) (noPrompt : byteAt (rxMemory env s.wifi) begin_ ≠ 0x3E)
    (noEnd : ¬ (byteAt (rxMemory env s.wifi) i = lf ∧ byteAt (rxMemory env s.wifi) (i - 1) = cr)) :
    parseStep env s i = s := by
  rw [parseStep_of_some env begun, if_neg (fun prompt => noPrompt prompt.1), if_neg noEnd]

/-- Inside an unbroken row of bytes no line ends. -/
theorem not_end_inside {l : List UInt8} (whole : Unbroken cr lf l) {i : ℕ}
    (inside : i + 1 < l.length) : ¬ (byteAt l (i + 1) = lf ∧ byteAt l i = cr) := by
  rintro ⟨second, first⟩
  refine (unbroken_iff_getElem? l).mp whole i ⟨?_, ?_⟩
  · rw [getElem?_eq_byteAt (by omega), first]
  · rw [getElem?_eq_byteAt inside, second]

/-- **A call that sees no line end** leaves everything as it is. -/
theorem parserWifiData_quiet {env : Surroundings} {w : WifiInfo} {seen : List UInt8}
    (looks : Looks env w seen) (nothing : splitLine cr lf (fromAnswer seen) = none) :
    (parserWifiData env w seen.length).wifi = w ∧
      (parserWifiData env w seen.length).consumed = 0 ∧
      (parserWifiData env w seen.length).answers = [] := by
  rw [parserWifiData_eq_walk env w (by simpa using looks.some_)]
  have whole := splitLine_eq_none_iff.mp nothing
  cases found : fromAnswer seen with
  | nil =>
      have none_ : ∀ q ∈ seen, beginsAnswer q = false := by
        intro q member
        simpa using List.dropWhile_eq_nil_iff.mp found q member
      rw [walk_add, looks.walk_quiet_part (List.append_nil seen).symm none_, walk_one,
        parseStep_of_none env rfl]
      split_ifs with begins prompt
      · exact ⟨rfl, rfl, rfl⟩
      · exact absurd prompt.1 looks.notNull
      · exact ⟨rfl, rfl, rfl⟩
  | cons a rest =>
      obtain ⟨quiet, split_, none_, begins⟩ := split_of_fromBeginning found
      rw [found] at whole
      have count : seen.length + 1 = quiet.length + 1 + (rest.length + 1) := by
        rw [split_, List.length_append, List.length_cons]
        omega
      rw [count, walk_add, looks.walk_to_beginning split_ none_ begins, Nat.zero_add,
        walk_quiet (rest.length + 1)]
      · exact ⟨rfl, rfl, rfl⟩
      · intro i low high
        apply parseStep_same rfl (looks.not_prompt (by rw [split_]; simp))
        rcases Nat.lt_or_ge i seen.length with inside | behind
        · obtain ⟨j, rfl⟩ : ∃ j, i = quiet.length + (j + 1) := ⟨i - quiet.length - 1, by omega⟩
          rw [looks.byteAt_seen inside, looks.byteAt_seen (by omega), split_,
            byteAt_append_right (by omega), byteAt_append_right (by omega)]
          have here : quiet.length + (j + 1) - quiet.length = j + 1 := by omega
          have before : quiet.length + (j + 1) - 1 - quiet.length = j := by omega
          rw [here, before]
          exact not_end_inside whole (by simp only [List.length_cons]; omega)
        · have last : i = seen.length := by omega
          rw [last]
          exact looks.not_end_behind

theorem byteAt_set_ne (l : List UInt8) {i j : ℕ} (apart : i ≠ j) (b : UInt8) :
    byteAt (l.set j b) i = byteAt l i := by
  rw [byteAt_eq, byteAt_eq, List.getElem?_set_ne (Ne.symm apart)]

/-! ## One line in a call -/

section OneLine

variable {env : Surroundings} {w : WifiInfo} {quiet line behind : List UInt8}

theorem byteAt_from (looks : Looks env w (quiet ++ (line ++ cr :: lf :: behind))) {i : ℕ}
    (inside : i < line.length + 2 + behind.length) :
    byteAt (rxMemory env w) (quiet.length + i) = byteAt (line ++ cr :: lf :: behind) i := by
  rw [looks.byteAt_seen (by simp; omega), byteAt_append_right (by omega), Nat.add_sub_cancel_left]

/-- From the beginning of the line to its `CR`. -/
theorem walk_to_line_feed (looks : Looks env w (quiet ++ (line ++ cr :: lf :: behind)))
    (none_ : ∀ q ∈ quiet, beginsAnswer q = false) (begins : beginsAnswer (byteAt line 0) = true)
    (unbroken : Unbroken cr lf line) :
    walk env ⟨w, none, 0, []⟩ 0 (quiet.length + line.length + 1) =
      ⟨w, some quiet.length, 0, []⟩ := by
  obtain ⟨a, rest, rfl⟩ : ∃ a rest, line = a :: rest := by
    cases line with
    | nil => exact absurd begins (by decide)
    | cons a rest => exact ⟨a, rest, rfl⟩
  have count : quiet.length + (a :: rest).length + 1 = quiet.length + 1 + (rest.length + 1) := by
    simp only [List.length_cons]
    omega
  rw [count, walk_add, looks.walk_to_beginning rfl none_ begins, Nat.zero_add]
  apply walk_quiet
  intro i low high
  apply parseStep_same rfl (looks.not_prompt (by simp))
  obtain ⟨j, rfl⟩ : ∃ j, i = quiet.length + (j + 1) := ⟨i - quiet.length - 1, by omega⟩
  have at_ (k : ℕ) (bound : k < (a :: rest ++ [cr]).length) :
      byteAt (rxMemory env w) (quiet.length + k) = byteAt (a :: rest ++ [cr]) k := by
    have regroup : a :: rest ++ cr :: lf :: behind = (a :: rest ++ [cr]) ++ lf :: behind := by simp
    simp only [List.length_append, List.length_cons, List.length_nil] at bound
    rw [byteAt_from looks (by simp only [List.length_cons]; omega), regroup,
      byteAt_append_left
        (by simp only [List.length_append, List.length_cons, List.length_nil]; omega)]
  have inside : j + 1 < (a :: rest ++ [cr]).length := by
    simp only [List.length_append, List.length_cons, List.length_nil]
    omega
  have before : quiet.length + (j + 1) - 1 = quiet.length + j := by omega
  rw [before, at_ (j + 1) inside, at_ j (by omega)]
  exact not_end_inside (unbroken_concat (by decide) unbroken) inside

/-- At its `LF` the line is decided. -/
theorem parseStep_line_feed (looks : Looks env w (quiet ++ (line ++ cr :: lf :: behind)))
    (some_ : line ≠ []) :
    parseStep env ⟨w, some quiet.length, 0, []⟩ (quiet.length + line.length + 1) =
      decideLine env ⟨w, some quiet.length, 0, []⟩ quiet.length
        (quiet.length + line.length + 1) := by
  have first : byteAt (rxMemory env w) (quiet.length + line.length) = cr := by
    rw [byteAt_from looks (by omega), byteAt_append_right (le_refl _)]
    simp [byteAt_eq]
  have second : byteAt (rxMemory env w) (quiet.length + (line.length + 1)) = lf := by
    rw [byteAt_from looks (by omega), byteAt_append_right (by omega)]
    simp [byteAt_eq]
  have inside : 0 < line.length := List.length_pos_iff.mpr some_
  rw [parseStep_of_some env rfl, if_neg (fun prompt => looks.not_prompt (by simp) prompt.1),
    if_pos ⟨second, first⟩]

/-- What is left of the call when the line has been decided: the buffer is as it was, except that
the `LF` of the line may be overwritten, and the beginning is on the line. -/
structure Decided (env : Surroundings) (w : WifiInfo) (quiet line : List UInt8) (s : Scan) : Prop
    where
  begun : ∃ begin_, s.begin_ = some begin_ ∧ quiet.length ≤ begin_ ∧
    begin_ < quiet.length + line.length + 1
  same : ∀ i, i ≠ quiet.length + line.length + 1 →
    byteAt (rxMemory env s.wifi) i = byteAt (rxMemory env w) i
  notCr : byteAt (rxMemory env s.wifi) (quiet.length + line.length + 1) ≠ cr

/-- Behind the line nothing ends. -/
theorem walk_behind (looks : Looks env w (quiet ++ (line ++ cr :: lf :: behind)))
    (single : Unbroken cr lf behind) {s : Scan} (decided : Decided env w quiet line s) :
    walk env s (quiet.length + line.length + 1 + 1) (behind.length + 1) = s := by
  obtain ⟨begin_, begun, from_, to_⟩ := decided.begun
  apply walk_quiet
  intro i low high
  apply parseStep_same begun
  · rw [decided.same begin_ (by omega)]
    exact looks.not_prompt (by simp; omega)
  · rintro ⟨second, first⟩
    rcases Nat.eq_or_lt_of_le low with next | later
    · rw [← next] at first
      exact decided.notCr first
    · rw [decided.same i (by omega)] at second
      rw [decided.same (i - 1) (by omega)] at first
      obtain ⟨j, rfl⟩ : ∃ j, i = quiet.length + line.length + 1 + 1 + (j + 1) :=
        ⟨i - (quiet.length + line.length + 1 + 2), by omega⟩
      have seen : (quiet ++ (line ++ cr :: lf :: behind)).length =
          quiet.length + line.length + 1 + 1 + behind.length := by
        simp only [List.length_append, List.length_cons]
        omega
      rcases Nat.lt_or_ge (j + 1) behind.length with inside | last
      · have at_ (k : ℕ) (bound : k < behind.length) :
            byteAt (rxMemory env w) (quiet.length + line.length + 1 + 1 + k) = byteAt behind k := by
          have index : quiet.length + line.length + 1 + 1 + k =
              quiet.length + (line.length + 2 + k) := by
            omega
          rw [index, byteAt_from looks (by omega), byteAt_append_right (by omega)]
          have skip : line.length + 2 + k - line.length = k + 2 := by omega
          rw [skip, byteAt_eq, byteAt_eq]
          rfl
        have before : quiet.length + line.length + 1 + 1 + (j + 1) - 1 =
            quiet.length + line.length + 1 + 1 + j := by
          omega
        rw [at_ _ inside] at second
        rw [before, at_ _ (by omega)] at first
        exact not_end_inside single inside ⟨second, first⟩
      · have end_ : quiet.length + line.length + 1 + 1 + (j + 1) =
            (quiet ++ (line ++ cr :: lf :: behind)).length := by
          omega
        rw [end_] at second first
        exact looks.not_end_behind ⟨second, first⟩

end OneLine

/-- A decided line leaves the walk behind it as `walk_behind` needs it. -/
theorem decided_of_rxBuf {env : Surroundings} {w : WifiInfo} {quiet line behind : List UInt8}
    (looks : Looks env w (quiet ++ (line ++ cr :: lf :: behind))) (some_ : line ≠ []) {s : Scan}
    (begun : s.begin_ = some quiet.length ∨ s.begin_ = some (quiet.length + 1))
    (rxBuf : s.wifi.rxBuf = w.rxBuf ∨
      s.wifi.rxBuf = w.rxBuf.write (quiet.length + line.length + 1) [0]) :
    Decided env w quiet line s := by
  have length_line : 0 < line.length := List.length_pos_iff.mpr some_
  have room := looks.room
  simp only [List.length_append, List.length_cons] at room
  have feed : byteAt (rxMemory env w) (quiet.length + line.length + 1) = lf := by
    rw [Nat.add_assoc, byteAt_from looks (by omega), byteAt_append_right (by omega)]
    simp [byteAt_eq]
  have begins : ∃ begin_, s.begin_ = some begin_ ∧ quiet.length ≤ begin_ ∧
      begin_ < quiet.length + line.length + 1 := by
    rcases begun with first | second
    · exact ⟨_, first, by omega, by omega⟩
    · exact ⟨_, second, by omega, by omega⟩
  rcases rxBuf with kept | overwritten
  · have memory : rxMemory env s.wifi = rxMemory env w := by rw [rxMemory, rxMemory, kept]
    refine ⟨begins, fun i _ => (by rw [memory]), ?_⟩
    rw [memory, feed]
    decide
  · have memory : rxMemory env s.wifi =
        (rxMemory env w).set (quiet.length + line.length + 1) 0 := by
      rw [← rxMemory_write env w (by omega), rxMemory, rxMemory, overwritten]
    refine ⟨begins, fun i apart => (by rw [memory, byteAt_set_ne _ apart]), ?_⟩
    have inside : quiet.length + line.length + 1 < (rxMemory env w).length := by
      simp only [rxMemory, List.length_append, w.rxBuf.length_cells, List.length_singleton]
      omega
    rw [memory, byteAt_eq, List.getElem?_set_self inside]
    decide

/-- **A call that sees one line end** is the decision about that line. -/
theorem parserWifiData_eq_decideLine {env : Surroundings} {w : WifiInfo}
    {quiet line behind : List UInt8}
    (looks : Looks env w (quiet ++ (line ++ cr :: lf :: behind)))
    (none_ : ∀ q ∈ quiet, beginsAnswer q = false) (begins : beginsAnswer (byteAt line 0) = true)
    (unbroken : Unbroken cr lf line) (single : Unbroken cr lf behind) (short : line.length ≤ 254)
    (suits : byteAt line 0 = 0x2B → Suits w.responseLen line.tail) :
    parserWifiData env w (quiet ++ (line ++ cr :: lf :: behind)).length =
      decideLine env ⟨w, some quiet.length, 0, []⟩ quiet.length
        (quiet.length + line.length + 1) := by
  have some_ : line ≠ [] := by
    rintro rfl
    exact absurd begins (by decide)
  have room := looks.room
  simp only [List.length_append, List.length_cons] at room
  obtain ⟨more, memory⟩ := looks.memory
  have line_ : (rxMemory env w).drop quiet.length = line ++ cr :: lf :: (behind ++ more) := by
    rw [memory, List.append_assoc, List.drop_left]
    simp
  obtain ⟨-, -, begun, rxBuf⟩ := decideLine_eq env ⟨w, some quiet.length, 0, []⟩
    (quiet.length + line.length + 1) line_ begins rfl (by omega) short suits
  have count : (quiet ++ (line ++ cr :: lf :: behind)).length + 1 =
      quiet.length + line.length + 1 + 1 + (behind.length + 1) := by
    simp only [List.length_append, List.length_cons]
    omega
  rw [parserWifiData_eq_walk env w (by simp), count, walk_add env _ 0 _ (behind.length + 1),
    walk_add env _ 0 _ 1, walk_to_line_feed looks none_ begins unbroken, Nat.zero_add, walk_one,
    parseStep_line_feed looks some_, Nat.zero_add]
  exact walk_behind looks single (decided_of_rxBuf looks some_ begun rxBuf)

/-- It says what the line says, and consumes everything up to its `LF`, which is left or
overwritten. -/
theorem parserWifiData_line {env : Surroundings} {w : WifiInfo} {seen line behind : List UInt8}
    (looks : Looks env w seen)
    (found : splitLine cr lf (fromAnswer seen) = some (line, behind))
    (single : splitLine cr lf behind = none) (short : line.length ≤ 254)
    (suits : byteAt line 0 = 0x2B → Suits w.responseLen line.tail) :
    (parserWifiData env w seen.length).answers = (classify line).toList ∧
      (parserWifiData env w seen.length).consumed + (behind.length + 1) = seen.length ∧
      ((parserWifiData env w seen.length).wifi.rxBuf = w.rxBuf ∨
        (parserWifiData env w seen.length).wifi.rxBuf =
          w.rxBuf.write (parserWifiData env w seen.length).consumed [0]) := by
  obtain ⟨whole, unbroken⟩ := eq_of_splitLine found
  have some_ : line ≠ [] := by
    rintro rfl
    obtain ⟨-, -, -, begins⟩ := split_of_fromBeginning whole
    exact absurd begins (by decide)
  obtain ⟨a, rest, rfl⟩ := List.exists_cons_of_ne_nil some_
  obtain ⟨quiet, split_, none_, begins⟩ := split_of_fromBeginning whole
  replace split_ : seen = quiet ++ (a :: rest ++ cr :: lf :: behind) := split_
  subst split_
  have room := looks.room
  simp only [List.length_append, List.length_cons] at room short
  obtain ⟨more, memory⟩ := looks.memory
  have line_ : (rxMemory env w).drop quiet.length =
      a :: rest ++ cr :: lf :: (behind ++ more) := by
    rw [memory, List.append_assoc, List.drop_left]
    simp
  obtain ⟨answers, consumed, -, rxBuf⟩ := decideLine_eq env
    ⟨w, some quiet.length, 0, []⟩ (quiet.length + (a :: rest).length + 1) line_ begins rfl
    (by simp only [List.length_cons]; omega) short suits
  rw [parserWifiData_eq_decideLine looks none_ begins unbroken (splitLine_eq_none_iff.mp single)
    short suits]
  rw [← consumed] at rxBuf
  refine ⟨answers, ?_, rxBuf⟩
  rw [consumed]
  simp only [List.length_append, List.length_cons]
  omega

end WhaleShark.Network
